import DomainRag.Assessment.FigureReuse

/-! # What becomes of the references

Every round counts its reference once, and an item that is made has its reference's figure and none
of the watermarks. A round raises if its reply is JSON other than an object, or if it has choices
that cannot be gone through.
-/

namespace DomainRag.Assessment

open Program
open Storage (strip Bytes)

/-- How many references a result counts. -/
def FigureReuseResult.counted (result : FigureReuseResult) : Nat :=
  result.referencesUsed.length + result.skippedNoImage + result.rejectedInvalid + result.vlmErrors

/-- A reference was counted, but not used. -/
structure PassedOver (result result' : FigureReuseResult) : Prop where
  items : result'.items = result.items
  used : result'.referencesUsed = result.referencesUsed
  counted : result'.counted = result.counted + 1

namespace AssessmentFigureReuseGenerator

variable {g : AssessmentFigureReuseGenerator} {domainId : String} {criteria : FigureReuseCriteria}
  {persist : Bool} {round : Nat} {ref item : ItemRecord} {v : Value}

section Items

/-- A reply from which a round can read a question. -/
structure Readable (v : Value) : Prop where
  object : v.isDict = true
  choices : (v.field "choices" .null).Loops

/-- What is promised of an item that is made from a reference. -/
structure Sound (g : AssessmentFigureReuseGenerator) (ref item : ItemRecord) : Prop where
  draft : item.qualityStatus = "draft"
  choices : ∃ choices : List String, item.choices = choices.map .str ∧ choices.length = 4 ∧
    (choices.map g.text.lower).Nodup ∧ item.answer ∈ choices ∧
    ∀ c ∈ choices, ∀ h ∈ watermarkHints, ¬ Mentions c h
  question : ∀ h ∈ watermarkHints, ¬ Mentions item.questionText h
  explanation : ∀ e, item.explanation = some e → ∀ h ∈ watermarkHints, ¬ Mentions e h
  assets : item.assets = ref.assets
  reference : item.referenceItemIds = [ref.itemId]

theorem itemFrom_eq (hv : v.isDict = true) {given : List Value}
    (hgiven : ((v.field "choices" .null).orElse (.list [])).iter = .ok given) :
    g.itemFrom domainId criteria round ref v = .ok (
      let qtext := strip (g.text.str (v.field "question_text" (.str "")))
      let choices := (given.map fun c => strip (g.text.str c)).filter fun c => c ≠ ""
      let answer := strip (g.text.str (v.field "answer" (.str "")))
      let shown := g.text.str ((v.field "explanation" .null).orElse (.str ""))
      if qtext = "" ∨ choices.length ≠ 4 ∨ answer ∉ choices then none
      else if (choices.map fun c => g.text.lower (strip c)).dedup.length < 4 then none
      else if g.referencesWatermark (qtext ++ " " ++ " ".intercalate choices ++ " " ++ shown) then
        none
      else some (g.newItem domainId criteria round ref qtext choices answer
        (v.field "explanation" (.str "")) (v.field "predicted_difficulty" .null))) := by
  rw [itemFrom]
  simp only [Value.getD_of_isDict hv, bind, Except.bind, hgiven]
  split
  · rfl
  · split
    · rfl
    · split <;> rfl

theorem returns_itemFrom_iff :
    Returns (g.itemFrom domainId criteria round ref v) ↔ Readable v := by
  constructor
  · intro h
    obtain ⟨hv, h⟩ := Value.returns_getD_bind_iff.mp h
    obtain ⟨-, h⟩ := Value.returns_getD_bind_iff.mp h
    obtain ⟨given, hgiven, -⟩ := returns_bind_iff.mp h
    exact ⟨hv, Value.loops_iff.mpr ⟨given, hgiven⟩⟩
  · rintro ⟨hv, hloops⟩
    obtain ⟨given, hgiven⟩ := Value.loops_iff.mp hloops
    exact ⟨_, itemFrom_eq hv hgiven⟩

theorem not_mentions_of_infix {text s : String} (htext : g.referencesWatermark text = false)
    (hs : s.toList <:+: text.toList) : ∀ h ∈ watermarkHints, ¬ Mentions s h := by
  have hplain : watermarkHints.all (fun h => h.toList.all plainLetter) = true := by
    decide +kernel
  intro h hh hmention
  rw [referencesWatermark, List.any_eq_false] at htext
  have hletters := List.all_eq_true.mp (List.all_eq_true.mp hplain h hh)
  exact htext h hh (g.text.contains_lower hletters (hmention.mono hs))

/-- An explanation that is shown has no watermark, and neither has one that counts as empty. -/
theorem explanation_unmarked {text : String} (htext : g.referencesWatermark text = false)
    (hshown : (g.text.str ((v.field "explanation" .null).orElse (.str ""))).toList <:+: text.toList) :
    ∀ h ∈ watermarkHints, ¬ Mentions (g.text.str (v.field "explanation" (.str ""))) h := by
  have hempty : ∀ e ∈ ["", "None", "False", "0", "0.0", "[]", "\x7b\x7d"], ∀ h ∈ watermarkHints,
      ¬ Mentions e h := by decide +kernel
  cases hw : v.entries.lookup "explanation" with
  | none =>
    rw [Value.field, hw]
    exact hempty _ (g.text.str_of_falsy rfl)
  | some w =>
    rw [Value.field, hw, Option.getD_some] at hshown ⊢
    cases htruthy : w.truthy with
    | true =>
      rw [Value.orElse, htruthy] at hshown
      exact not_mentions_of_infix htext hshown
    | false => exact hempty _ (g.text.str_of_falsy htruthy)

/-- The parts of the text that is searched for watermarks. -/
theorem infix_blob (a b c : String) :
    let text := a ++ " " ++ b ++ " " ++ c
    a.toList <:+: text.toList ∧ b.toList <:+: text.toList ∧ c.toList <:+: text.toList := by
  simp only [String.toList_append]
  refine ⟨?_, ?_, List.infix_append_right⟩
  · iterate 4 apply List.infix_append_of_infix_left
    exact List.infix_rfl
  · iterate 2 apply List.infix_append_of_infix_left
    exact List.infix_append_right

theorem sound_of_itemFrom (h : g.itemFrom domainId criteria round ref v = .ok (some item)) :
    Sound g ref item := by
  obtain ⟨hv, hloops⟩ := returns_itemFrom_iff.mp ⟨_, h⟩
  obtain ⟨given, hgiven⟩ := Value.loops_iff.mp hloops
  rw [itemFrom_eq hv hgiven] at h
  have hitem := Except.ok.inj h
  dsimp only at hitem
  split at hitem
  · cases hitem
  rename_i hasked
  split at hitem
  · cases hitem
  rename_i hdistinct
  split at hitem
  · cases hitem
  rename_i hmark
  cases hitem
  simp only [not_or, not_not] at hasked
  obtain ⟨-, hfour, hanswer⟩ := hasked
  rw [Bool.not_eq_true] at hmark
  have hstripped : ∀ c ∈ (given.map fun c => strip (g.text.str c)).filter fun c => c ≠ "",
      strip c = c := by
    intro c hc
    obtain ⟨w, -, rfl⟩ := List.mem_map.mp (List.mem_filter.mp hc).1
    exact Storage.strip_strip _
  obtain ⟨hquestion, hchoices, hshown⟩ := infix_blob
    (strip (g.text.str (v.field "question_text" (.str ""))))
    (" ".intercalate ((given.map fun c => strip (g.text.str c)).filter fun c => c ≠ ""))
    (g.text.str ((v.field "explanation" .null).orElse (.str "")))
  refine ⟨rfl, ⟨_, rfl, hfour, ?_, hanswer, fun c hc => ?_⟩, ?_, fun e he => ?_, rfl, rfl⟩
  · rw [List.map_congr_left fun c hc => congrArg g.text.lower (hstripped c hc)] at hdistinct
    rw [← le_length_dedup_iff, List.length_map, hfour]
    exact not_lt.mp hdistinct
  · exact not_mentions_of_infix hmark ((infix_intercalate hc).trans hchoices)
  · exact not_mentions_of_infix hmark hquestion
  · have hexplained : g.text.str (v.field "explanation" (.str "")) = e := by
      simp only [newItem, Option.ite_none_left_eq_some, Option.some.injEq] at he
      exact he.2
    rw [← hexplained]
    exact explanation_unmarked hmark hshown

end Items

section Rounds

variable {result result' : FigureReuseResult} {rows rows' : ItemRows} {refs : List ItemRecord}

/-- The JSON value that a round reads: one that is not empty, in the reply to a prompt with an image
that could be loaded. -/
def reply? (g : AssessmentFigureReuseGenerator) (round : Nat) (ref : ItemRecord) : Option Value :=
  if (storageKey ref).truthy then
    match g.loadImage round (storageKey ref) with
    | .error _ => none
    | .ok image => match g.describe round image (g.buildVlmPrompt ref) with
      | .error _ => none
      | .ok raw => (g.json.parse Value.isDict raw).toOption.filter Value.truthy
  else none

theorem passedOver_noImage :
    PassedOver result { result with skippedNoImage := result.skippedNoImage + 1 } := by
  refine ⟨rfl, rfl, ?_⟩
  simp only [FigureReuseResult.counted]
  omega

theorem passedOver_invalid :
    PassedOver result { result with rejectedInvalid := result.rejectedInvalid + 1 } := by
  refine ⟨rfl, rfl, ?_⟩
  simp only [FigureReuseResult.counted]
  omega

theorem passedOver_error : PassedOver result { result with vlmErrors := result.vlmErrors + 1 } :=
  ⟨rfl, rfl, rfl⟩

/-- A round that reads no value passes its reference over; one that reads a value does what the value
is made into. -/
theorem reuse_cases (g : AssessmentFigureReuseGenerator) (domainId : String)
    (criteria : FigureReuseCriteria) (persist : Bool) (round : Nat) (ref : ItemRecord)
    (result : FigureReuseResult) (rows : ItemRows) :
    (g.reply? round ref = none ∧ ∃ result',
      g.reuse domainId criteria persist round ref result rows = .ok result' rows ∧
      PassedOver result result') ∨
    ∃ v, g.reply? round ref = some v ∧ g.reuse domainId criteria persist round ref result rows =
      match g.itemFrom domainId criteria round ref v with
      | .error e => .error e rows
      | .ok none => .ok { result with rejectedInvalid := result.rejectedInvalid + 1 } rows
      | .ok (some item) => .ok { result with
          items := result.items ++ [item]
          referencesUsed := result.referencesUsed ++ [ref.itemId] }
          (if persist then rows.upsert item else rows) := by
  rw [reply?, reuse]
  cases (storageKey ref).truthy with
  | false => exact .inl ⟨rfl, _, rfl, passedOver_noImage⟩
  | true =>
    rw [if_pos rfl, if_neg (show ¬ (!true) = true by decide)]
    cases g.loadImage round (storageKey ref) with
    | error e => exact .inl ⟨rfl, _, rfl, passedOver_noImage⟩
    | ok image =>
      dsimp only
      cases g.describe round image (g.buildVlmPrompt ref) with
      | error e => exact .inl ⟨rfl, _, rfl, passedOver_error⟩
      | ok raw =>
        dsimp only
        cases g.json.parse Value.isDict raw with
        | error e => exact .inl ⟨rfl, _, rfl, passedOver_invalid⟩
        | ok v =>
          rw [Except.toOption, Option.filter_some]
          cases htruthy : v.truthy with
          | false =>
            dsimp only
            rw [htruthy]
            exact .inl ⟨rfl, _, rfl, passedOver_invalid⟩
          | true =>
            refine .inr ⟨v, rfl, ?_⟩
            dsimp only
            rw [htruthy]
            cases g.itemFrom domainId criteria round ref v with
            | error e => rfl
            | ok made =>
              cases made with
              | none => rfl
              | some item => cases persist <;> rfl

theorem halts_reuse_iff (domainId : String) (criteria : FigureReuseCriteria) (persist : Bool)
    (result : FigureReuseResult) (rows : ItemRows) :
    Halts (g.reuse domainId criteria persist round ref result) rows ↔
      ∀ v, g.reply? round ref = some v → Readable v := by
  obtain ⟨hreply, result', hresult, -⟩ | ⟨v, hreply, hresult⟩ :=
    reuse_cases g domainId criteria persist round ref result rows
  · rw [hreply]
    exact ⟨fun _ => nofun, fun _ => ⟨result', rows, hresult⟩⟩
  · rw [Halts, hresult, hreply]
    simp only [Option.some.injEq, forall_eq']
    rw [← returns_itemFrom_iff]
    cases g.itemFrom domainId criteria round ref v with
    | error e =>
      constructor
      · rintro ⟨result', rows', h⟩
        cases h
      · exact fun h => absurd h (not_returns_error e)
    | ok made =>
      refine ⟨fun _ => ⟨made, rfl⟩, fun _ => ?_⟩
      cases made with
      | none => exact ⟨_, _, rfl⟩
      | some item => exact ⟨_, _, rfl⟩

/-- A round passes its reference over, or makes a sound item from it. -/
theorem reuse_eq_ok
    (h : g.reuse domainId criteria persist round ref result rows = .ok result' rows') :
    (PassedOver result result' ∧ rows' = rows) ∨ ∃ item, Sound g ref item ∧
      result' = { result with
        items := result.items ++ [item]
        referencesUsed := result.referencesUsed ++ [ref.itemId] } ∧
      rows' = if persist then rows.upsert item else rows := by
  obtain ⟨-, result'', hresult, hpassed⟩ | ⟨v, -, hresult⟩ :=
    reuse_cases g domainId criteria persist round ref result rows
  · cases h.symm.trans hresult
    exact .inl ⟨hpassed, rfl⟩
  · rw [hresult] at h
    cases hmade : g.itemFrom domainId criteria round ref v with
    | error e =>
      rw [hmade] at h
      cases h
    | ok made =>
      rw [hmade] at h
      cases made with
      | none =>
        cases h
        exact .inl ⟨passedOver_invalid, rfl⟩
      | some item =>
        cases h
        exact .inr ⟨item, sound_of_itemFrom hmade, rfl, rfl⟩

/-- What the rounds have made of the references that they came to. -/
structure Made (g : AssessmentFigureReuseGenerator) (criteria : FigureReuseCriteria) (persist : Bool)
    (refs : List ItemRecord) (rows : ItemRows) (seen : Nat) (result : FigureReuseResult)
    (rows' : ItemRows) : Prop where
  counted : result.counted = seen
  used : result.referencesUsed = result.items.flatMap (·.referenceItemIds)
  count : result.items.length ≤ criteria.count.toNat
  sound : ∀ item ∈ result.items, ∃ ref ∈ refs, Sound g ref item
  rows : rows' = if persist then result.items.foldl ItemRows.upsert rows else rows

variable {refs : List ItemRecord} {seen : Nat} {start : ItemRows}

theorem made_nil : Made g criteria persist refs start 0 {} start :=
  ⟨rfl, rfl, Nat.zero_le _, List.forall_mem_nil _, by cases persist <;> rfl⟩

theorem Made.reuse (hmade : Made g criteria persist refs start seen result rows) (href : ref ∈ refs)
    (hfew : enough criteria result = false)
    (h : g.reuse domainId criteria persist round ref result rows = .ok result' rows') :
    Made g criteria persist refs start (seen + 1) result' rows' := by
  rcases reuse_eq_ok h with ⟨⟨hitems, hused, hcounted⟩, rfl⟩ | ⟨item, hitem, rfl, rfl⟩
  · refine ⟨by rw [hcounted, hmade.counted], ?_, ?_, ?_, ?_⟩
    · rw [hused, hitems]
      exact hmade.used
    · rw [hitems]
      exact hmade.count
    · rw [hitems]
      exact hmade.sound
    · rw [hitems]
      exact hmade.rows
  · have hcounted := hmade.counted
    simp only [enough, decide_eq_false_iff_not, not_le] at hfew
    refine ⟨?_, ?_, ?_, ?_, ?_⟩
    · simp only [FigureReuseResult.counted, List.length_append, List.length_singleton] at hcounted ⊢
      omega
    · rw [List.flatMap_append, ← hmade.used, List.flatMap_singleton, hitem.reference]
    · rw [List.length_append, List.length_singleton]
      omega
    · exact List.forall_mem_append.mpr
        ⟨hmade.sound, List.forall_mem_singleton.mpr ⟨ref, href, hitem⟩⟩
    · have hrows := hmade.rows
      cases persist with
      | false => exact hrows
      | true =>
        rw [if_pos rfl] at hrows
        rw [if_pos rfl, if_pos rfl, List.foldl_append, ← hrows]
        rfl

end Rounds

section Runs

variable {result : FigureReuseResult} {rows rows' : ItemRows}

/-- The approved items with figures that are gone through, if the model is there. -/
def references (g : AssessmentFigureReuseGenerator) (domainId : String)
    (criteria : FigureReuseCriteria) (rows : ItemRows) : List ItemRecord :=
  if g.health then
    (rows.listCandidatesForExtract domainId
      { subject := some criteria.subject, chapter := criteria.chapter } 200).filter
        fun c => c.figureDependent && !c.assets.isEmpty
  else []

def rounds (g : AssessmentFigureReuseGenerator) (domainId : String) (criteria : FigureReuseCriteria)
    (persist : Bool) (rows : ItemRows) : FigureReuseTask FigureReuseResult :=
  loopUntil (enough criteria) (fun result e => g.reuse domainId criteria persist e.2 e.1 result)
    (g.references domainId criteria rows).zipIdx {}

/-- The references that a run examines, with their rounds. -/
def examined (g : AssessmentFigureReuseGenerator) (domainId : String)
    (criteria : FigureReuseCriteria) (persist : Bool) (rows : ItemRows) :
    List (ItemRecord × Nat) :=
  (visits (enough criteria) (fun result e => g.reuse domainId criteria persist e.2 e.1 result)
    (g.references domainId criteria rows).zipIdx {} rows).map (·.elem)

theorem generate_eq_ok_iff :
    g.generate domainId criteria persist rows = .ok result rows' ↔ ∃ made,
      g.rounds domainId criteria persist rows rows = .ok made rows' ∧
      result = if g.health then { made with generatedCount := made.items.length }
        else { made with vlmUnavailable := true } := by
  rw [generate, rounds, references]
  cases g.health with
  | false =>
    rw [if_pos (show (!false) = true by decide), if_neg Bool.false_ne_true, List.zipIdx_nil,
      loopUntil]
    constructor
    · rintro ⟨⟩
      exact ⟨{}, rfl, rfl⟩
    · rintro ⟨made, hmade, rfl⟩
      cases hmade
      rfl
  | true =>
    rw [if_neg (show ¬ (!true) = true by decide), if_pos rfl, get_bind_apply]
    exact Program.bind_pure_eq_ok_iff

theorem halts_rounds_iff : Halts (g.rounds domainId criteria persist rows) rows ↔
    ∀ e ∈ g.examined domainId criteria persist rows, ∀ v, g.reply? e.2 e.1 = some v →
      Readable v := by
  rw [rounds, halts_loopUntil_iff, examined, List.forall_mem_map]
  exact forall₂_congr fun e _ => halts_reuse_iff domainId criteria persist e.acc e.state

theorem made_of_rounds (h : g.rounds domainId criteria persist rows rows = .ok result rows') :
    Made g criteria persist (g.references domainId criteria rows) rows
      (g.examined domainId criteria persist rows).length result rows' := by
  rw [examined, List.length_map]
  refine loopUntil_rule (I := fun seen => Made g criteria persist (g.references domainId criteria rows)
    rows seen.length) made_nil (fun seen e result s result' s' he hfew hI hstep => ?_) h
  rw [List.length_append]
  exact hI.reuse (List.fst_mem_of_mem_zipIdx he) hfew hstep

end Runs

end AssessmentFigureReuseGenerator

section Promise

variable {g : AssessmentFigureReuseGenerator} {domainId : String} {criteria : FigureReuseCriteria}
  {persist : Bool} {rows : ItemRows}

/-- Every reference that is examined is counted once, and the items are sound, not more than asked
for, and stored exactly if they are to be. -/
def Accounts (g : AssessmentFigureReuseGenerator) (domainId : String)
    (criteria : FigureReuseCriteria) (persist : Bool) (rows : ItemRows)
    (result : FigureReuseResult) (rows' : ItemRows) : Prop :=
  AssessmentFigureReuseGenerator.Made g criteria persist (g.references domainId criteria rows) rows
    (g.examined domainId criteria persist rows).length result rows'

/-- The generator returns with its accounts in order if every reply that it reads is an object whose
choices can be gone through. -/
theorem accounts_iff :
    (∃ result rows', g.generate domainId criteria persist rows = .ok result rows' ∧
      Accounts g domainId criteria persist rows result rows') ↔
    ∀ e ∈ g.examined domainId criteria persist rows, ∀ v, g.reply? e.2 e.1 = some v →
      AssessmentFigureReuseGenerator.Readable v := by
  rw [← AssessmentFigureReuseGenerator.halts_rounds_iff]
  constructor
  · rintro ⟨result, rows', h, -⟩
    obtain ⟨made, hmade, -⟩ := AssessmentFigureReuseGenerator.generate_eq_ok_iff.mp h
    exact ⟨made, rows', hmade⟩
  · rintro ⟨made, rows', hmade⟩
    obtain ⟨hcounted, hused, hcount, hsound, hrows⟩ :=
      AssessmentFigureReuseGenerator.made_of_rounds hmade
    refine ⟨_, rows', AssessmentFigureReuseGenerator.generate_eq_ok_iff.mpr ⟨made, hmade, rfl⟩, ?_⟩
    cases g.health with
    | true => exact ⟨hcounted, hused, hcount, hsound, hrows⟩
    | false => exact ⟨hcounted, hused, hcount, hsound, hrows⟩

/-- A model that replies with a list instead of an object. -/
def listingVlm : AssessmentFigureReuseGenerator where
  health := true
  loadImage _ _ := .ok []
  describe _ _ _ := .ok "[1]"
  json := ⟨fun _ => .ok (.list [.int 1]), fun _ => .ok (.list [.int 1])⟩
  text := {
    lower := fun s => String.ofList (s.toList.map Char.toLower)
    repr := Value.typeName
    lower_infix := toLower_infix }
  newId _ := "0123456789ab"

/-- A bank with one question about a figure. -/
def figureBank : ItemRows where
  records := .ofList [(("acme", "Q-1"), {
    itemId := "Q-1"
    domainId := "acme"
    subject := some "database"
    questionText := "그림의 트리를 전위 순회한 결과는?"
    qualityStatus := "approved"
    assets := [some (.ofList [("storage_key", .str "acme/fig.png")])]
    figureDependent := true })]

/-- The generator asks the list for its question and raises. -/
theorem list_reply_aborts : ¬ ∀ (g : AssessmentFigureReuseGenerator) domainId criteria persist rows,
    g.health = true → ∃ result rows', g.generate domainId criteria persist rows = .ok result rows' ∧
      Accounts g domainId criteria persist rows result rows' := by
  intro h
  obtain ⟨result, rows', hresult, -⟩ :=
    h listingVlm "acme" { subject := "database" } true figureBank rfl
  have hnone : ((listingVlm.generate "acme" { subject := "database" } true).result?
      figureBank).isNone = true := by
    decide +kernel
  rw [Program.result?, hresult] at hnone
  cases hnone

end Promise

end DomainRag.Assessment
