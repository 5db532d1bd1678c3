import DomainRag.Lib.FileSystem
import DomainRag.Lib.Pairs
import DomainRag.Lib.PurePath

/-! # Evaluation datasets

A dataset is read from a file with one case in each line, and the chunks that its answers should
cite from a second file, which may be missing. A row may bring its own tenant; one that does not
takes the one the dataset is loaded for.
-/

namespace DomainRag.Evaluation

structure EvalCase where
  caseId : Value
  question : Value
  domainId : Value
  expectedChunkIds : List Value
  mustIncludeKeywords : List Value
  mustNotIncludeKeywords : List Value
  expectedFallback : Bool
  uiMode : Value
  userContext : List (String × Value)
  configOverride : List (String × Value)
  metadata : List (String × Value)

structure EvalDataset where
  name : String
  domainId : String
  cases : List EvalCase

/-- A value under a key that has to be there, with `repr` of the key in the error. -/
def item (row : Value) (key : String) : Except Exc Value :=
  match row with
  | .dict kvs => match kvs.lookup key with
    | some v => .ok v
    | none => .error ⟨"KeyError", s!"'{key}'"⟩
  | .list _ => .error (.typeError "list indices must be integers or slices, not str")
  | .str _ => .error (.typeError "string indices must be integers, not 'str'")
  | v => .error (.typeError s!"'{v.typeName}' object is not subscriptable")

/-- A value as it is parsed: no object in it has a key twice. -/
inductive Parsed : Value → Prop
  | dict {kvs : List (String × Value)} (keys : (kvs.map Prod.fst).Nodup)
      (values : ∀ e ∈ kvs, Parsed e.2) : Parsed (.dict kvs)
  | list {vs : List Value} (values : ∀ v ∈ vs, Parsed v) : Parsed (.list vs)
  | null : Parsed .null
  | bool (b : Bool) : Parsed (.bool b)
  | int (n : Int) : Parsed (.int n)
  | float (q : Rat) : Parsed (.float q)
  | str (s : String) : Parsed (.str s)

/-- The files of a dataset are read as lines of text, and a line as a JSON value. -/
structure Reader (B : Type) where
  linesOf : B → List (Except Exc String)
  strip : String → String
  loads : String → Except Exc Value
  parsed : ∀ line v, loads line = .ok v → Parsed v

section Load

variable {B : Type}

/-- The rows of a line: none if it is blank or a comment. -/
def Reader.rowsOf (reader : Reader B) (line : Except Exc String) : Except Exc (List Value) := do
  let line := reader.strip (← line)
  if line = "" ∨ line.toList.head? = some '#' then return []
  return [← reader.loads line]

def Reader.readJsonl (reader : Reader B) (fs : FileSystem B) (path : PurePath) :
    Except Exc (List Value) := do
  match fs.find? path.parts with
  | none => throw FileSystem.fileNotFoundError
  | some (_, .dir) => throw FileSystem.isADirectoryError
  | some (_, .file content) => return (← (reader.linesOf content).mapM reader.rowsOf).flatten

def hashable : Value → Except Exc Value
  | .list _ => .error (.typeError "unhashable type: 'list'")
  | .dict _ => .error (.typeError "unhashable type: 'dict'")
  | v => .ok v

/-- The chunks of the last row of a case; rows are found by the equality of their ids. -/
def goldOf (gold : List (Value × List Value)) (caseId : Value) : List Value :=
  ((gold.reverse.find? fun e => e.1.eq caseId).map Prod.snd).getD []

/-- The list under a key of a row, empty if there is none. -/
def listField (row : Value) (key : String) : Except Exc (List Value) := do
  ((← row.getD key .null).orElse (.list [])).iter

def goldRow (row : Value) : Except Exc (Value × List Value) := do
  let cid ← item row "case_id"
  let chunks ← listField row "expected_chunk_ids"
  return (← hashable cid, chunks)

/-- The dictionary under a key of a row. Nothing looks for a key that is no text, and entries under
such keys are left out. -/
def dictField (row : Value) (key : String) : Except Exc (List (String × Value)) :=
  textFields <$> do dictOf ((← row.getD key .null).orElse (.dict []))

def caseOf (gold : List (Value × List Value)) (domainId : String) (row : Value) :
    Except Exc EvalCase := do
  let caseId ← item row "case_id"
  return {
    caseId := caseId
    question := ← item row "question"
    domainId := ← row.getD "domain_id" (.str domainId)
    expectedChunkIds := goldOf gold (← hashable caseId)
    mustIncludeKeywords := ← listField row "must_include_keywords"
    mustNotIncludeKeywords := ← listField row "must_not_include_keywords"
    expectedFallback := (← row.getD "expected_fallback" (.bool false)).truthy
    uiMode := ← row.getD "ui_mode" (.str "chat_structured")
    userContext := ← dictField row "user_context"
    configOverride := ← dictField row "config_override"
    metadata := ← dictField row "metadata" }

/-- The second file, if one is named and it is there. -/
def Reader.readGold (reader : Reader B) (fs : FileSystem B) :
    Option PurePath → Except Exc (List (Value × List Value))
  | none => .ok []
  | some path =>
    if (fs.find? path.parts).isNone then .ok [] else do
      (← reader.readJsonl fs path).mapM goldRow

def Reader.loadDataset (reader : Reader B) (fs : FileSystem B) (name domainId : String)
    (qaPath : PurePath) (citationGoldPath : Option PurePath) : Except Exc EvalDataset := do
  let gold ← reader.readGold fs citationGoldPath
  let rows ← reader.readJsonl fs qaPath
  return ⟨name, domainId, ← rows.mapM (caseOf gold domainId)⟩

def smokePath (evalRoot : PurePath) : PurePath := (evalRoot.join "platform").join "smoke.jsonl"

def tenantBase (evalRoot : PurePath) (domainId : String) : PurePath :=
  (evalRoot.join "tenants").join domainId

def Reader.loadPlatformSmoke (reader : Reader B) (fs : FileSystem B) (evalRoot : PurePath) :
    Except Exc EvalDataset :=
  reader.loadDataset fs "platform_smoke" "platform" (smokePath evalRoot) none

def Reader.loadTenantDataset (reader : Reader B) (fs : FileSystem B) (evalRoot : PurePath)
    (domainId : String) : Except Exc EvalDataset :=
  reader.loadDataset fs ("tenant_" ++ domainId) domainId
    ((tenantBase evalRoot domainId).join "qa.jsonl")
    (some ((tenantBase evalRoot domainId).join "citation_gold.jsonl"))

end Load

section Parsed

variable {v w : Value} {kvs : List (String × Value)} {k : String}

theorem Parsed.distinct (h : Parsed v) : v.Distinct := by
  induction h with
  | dict keys _ ih => exact .dict keys ih
  | list | null | bool | int | float | str => exact .other rfl

theorem parsed_empty : Parsed (.dict []) :=
  .dict List.nodup_nil fun _ he => absurd he List.not_mem_nil

theorem Parsed.setKey (h : Parsed (.dict kvs)) (hw : Parsed w) :
    Parsed (.dict (Value.setKey k w kvs)) := by
  cases h with
  | dict keys values =>
    refine .dict (Value.nodup_setKey keys) fun e he => ?_
    obtain rfl | he := Value.mem_setKey he
    · exact hw
    · exact values e he

theorem Parsed.iter {vs : List Value} (h : Parsed v) (hvs : v.iter = .ok vs) :
    ∀ w ∈ vs, Parsed w := by
  intro w hw
  cases v with
  | str s =>
    cases hvs
    obtain ⟨c, -, rfl⟩ := List.mem_map.mp hw
    exact .str _
  | dict kvs =>
    cases hvs
    obtain ⟨e, -, rfl⟩ := List.mem_map.mp hw
    exact .str _
  | list ws =>
    cases hvs
    cases h with
    | list values => exact values w hw
  | null | bool | int | float => cases hvs

theorem Parsed.getD {row default : Value} {key : String} (h : Parsed row) (hd : Parsed default)
    (hv : row.getD key default = .ok v) : Parsed v := by
  cases row with
  | dict kvs =>
    cases hv
    cases hlookup : kvs.lookup key with
    | none => exact hd
    | some w =>
      cases h with
      | dict _ values => exact values _ (Value.mem_of_lookup hlookup)
  | null | bool | int | float | str | list => cases hv

theorem Parsed.foldl_setKey {es : List (String × Value)} (h : Parsed (.dict kvs))
    (hes : ∀ e ∈ es, Parsed e.2) :
    Parsed (.dict (es.foldl (fun d e => Value.setKey e.1 e.2 d) kvs)) := by
  induction es generalizing kvs with
  | nil => exact h
  | cons e es ih =>
    obtain ⟨he, hes⟩ := List.forall_mem_cons.mp hes
    exact ih (h.setKey he) hes

theorem Parsed.givenPairs (h : Parsed v) (hdict : v.isDict = false) :
    ∀ e ∈ textFields (givenPairs v), Parsed e.2 := by
  intro e he
  obtain ⟨pair, hpair, htext⟩ := List.mem_filterMap.mp he
  have hvalue : e.2 = pair.2 := by
    rw [textField] at htext
    split at htext
    · cases htext
      rfl
    · cases htext
  have hgiven : ∃ vs item, v.iter = .ok vs ∧ item ∈ vs ∧ givenPair item = some pair := by
    cases v with
    | dict kvs => cases hdict
    | str | list =>
      obtain ⟨item, hitem, hgiven⟩ := List.mem_filterMap.mp hpair
      exact ⟨_, item, rfl, hitem, hgiven⟩
    | null | bool | int | float => cases hpair
  obtain ⟨vs, item, hvs, hitem, hgiven⟩ := hgiven
  rw [givenPair] at hgiven
  split at hgiven
  · rename_i k w hiter
    cases hgiven
    rw [hvalue]
    exact (h.iter hvs item hitem).iter hiter w (List.mem_cons_of_mem k (List.mem_singleton_self w))
  · cases hgiven

theorem Parsed.dictOf {pairs : List (Value × Value)} (h : Parsed v) (hpairs : dictOf v = .ok pairs) :
    Parsed (.dict (textFields pairs)) := by
  cases hdict : v.isDict with
  | true =>
    cases v with
    | dict kvs =>
      cases hpairs
      rw [textFields_map_str]
      exact h
    | null | bool | int | float | str | list => cases hdict
  | false =>
    rw [textFields_dictOf hpairs hdict]
    exact parsed_empty.foldl_setKey (h.givenPairs hdict)

theorem Parsed.dictField {row : Value} {key : String} (h : Parsed row)
    (hkvs : dictField row key = .ok kvs) : Parsed (.dict kvs) := by
  obtain ⟨pairs, hpairs, rfl⟩ := Except.map_eq_ok_iff.mp hkvs
  obtain ⟨w, hw, hpairs⟩ := Except.bind_eq_ok_iff.mp hpairs
  have hw' : Parsed w := h.getD .null hw
  refine Parsed.dictOf ?_ hpairs
  rw [Value.orElse]
  split
  · exact hw'
  · exact parsed_empty

variable {B : Type} {reader : Reader B} {fs : FileSystem B}

theorem parsed_of_readJsonl {path : PurePath} {rows : List Value}
    (h : reader.readJsonl fs path = .ok rows) : ∀ row ∈ rows, Parsed row := by
  rw [Reader.readJsonl] at h
  split at h
  · cases h
  · cases h
  · rename_i content hfile
    obtain ⟨lines, hlines, h⟩ := Except.bind_eq_ok_iff.mp h
    cases h
    intro row hrow
    obtain ⟨found, hfound, hrow⟩ := List.mem_flatten.mp hrow
    obtain ⟨line, -, hline⟩ := exists_of_mem_mapM hlines hfound
    obtain ⟨text, -, hline⟩ := Except.bind_eq_ok_iff.mp hline
    dsimp only at hline
    split at hline
    · cases hline
      cases hrow
    · obtain ⟨v, hv, hline⟩ := Except.bind_eq_ok_iff.mp hline
      cases hline
      rw [List.mem_singleton.mp hrow]
      exact reader.parsed _ v hv

theorem caseOf_fields {gold : List (Value × List Value)} {domainId : String} {row : Value}
    {case : EvalCase} (h : caseOf gold domainId row = .ok case) :
    row.getD "domain_id" (.str domainId) = .ok case.domainId ∧
      dictField row "config_override" = .ok case.configOverride := by
  simp only [caseOf, Except.bind_eq_ok_iff] at h
  obtain ⟨_, _, _, _, domain, hdomain, _, _, _, _, _, _, _, _, _, _, _, _, override, hoverride, _, _,
    h⟩ := h
  cases h
  exact ⟨hdomain, hoverride⟩

theorem rows_of_loadDataset {name domainId : String} {qaPath : PurePath}
    {goldPath : Option PurePath} {dataset : EvalDataset}
    (h : reader.loadDataset fs name domainId qaPath goldPath = .ok dataset) :
    ∃ gold rows, reader.readJsonl fs qaPath = .ok rows ∧
      rows.mapM (caseOf gold domainId) = .ok dataset.cases := by
  obtain ⟨gold, -, h⟩ := Except.bind_eq_ok_iff.mp h
  obtain ⟨rows, hrows, h⟩ := Except.bind_eq_ok_iff.mp h
  obtain ⟨cases, hcases, h⟩ := Except.bind_eq_ok_iff.mp h
  cases h
  exact ⟨gold, rows, hrows, hcases⟩

theorem parsed_of_loadDataset {name domainId : String} {qaPath : PurePath}
    {goldPath : Option PurePath} {dataset : EvalDataset}
    (h : reader.loadDataset fs name domainId qaPath goldPath = .ok dataset) :
    ∀ c ∈ dataset.cases, Parsed (.dict c.configOverride) := by
  obtain ⟨gold, rows, hrows, hcases⟩ := rows_of_loadDataset h
  intro c hc
  obtain ⟨row, hrow, hcase⟩ := exists_of_mem_mapM hcases hc
  exact (parsed_of_readJsonl hrows row hrow).dictField (caseOf_fields hcase).2

end Parsed

end DomainRag.Evaluation
