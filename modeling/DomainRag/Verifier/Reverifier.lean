import Mathlib.Data.List.ReduceOption
import DomainRag.Lib.DeepMerge
import DomainRag.Storage.Assets
import DomainRag.Verifier.Tier2

/-! # Re-verifying stored citations

The citations of a chat log are JSON records, whose keys may be missing. Those with a claim and an
excerpt get a new similarity and from it a new level; the others are passed on as they are.
-/

namespace DomainRag.Verifier

open Storage (strip)
open Value (setKey)

def SupportLevel.text : SupportLevel → String
  | strong => "strong"
  | medium => "medium"
  | weak => "weak"

structure ReverifyThresholds where
  strong : Rat
  medium : Rat

structure ReverifyResult where
  requestId : String
  citationsBefore : List Value
  citationsAfter : List Value
  avgSimilarityBefore : Option Rat
  avgSimilarityAfter : Option Rat
  upgraded : Nat
  downgraded : Nat

namespace CitationReverifier

variable {V : Type}

/-- `(c.get(key) or "").strip()` -/
def stripped (citation : Value) (key : String) : Except Exc String := do
  match ((← citation.get key).getD .null).orElse (.str "") with
  | .str s => return strip s
  | v => .error ⟨"AttributeError", s!"'{v.typeName}' object has no attribute 'strip'"⟩

structure Excerpted where
  index : Nat
  claim : String
  excerpt : String

def targetOf (i : Nat) (citation : Value) : Except Exc (Option Excerpted) := do
  let claim ← stripped citation "claim_text"
  let excerpt ← stripped citation "excerpt"
  return if claim = "" ∨ excerpt = "" then none else some ⟨i, claim, excerpt⟩

def targets (citations : List Value) : Except Exc (List Excerpted) := do
  return (← citations.zipIdx.mapM fun (c, i) => targetOf i c).reduceOption

def batchTexts (ts : List Excerpted) : List String := ts.flatMap fun t => [t.claim, t.excerpt]

def classify (sim : Rat) (t : ReverifyThresholds) : SupportLevel :=
  if t.strong ≤ sim then .strong
  else if t.medium ≤ sim then .medium
  else .weak

/-- The place of a level in `_ORDER`, and nothing for what is no level. -/
def rank? : Value → Except Exc (Option Nat)
  | .str s =>
    .ok (if s = "strong" then some 2 else if s = "medium" then some 1
      else if s = "weak" then some 0 else none)
  | .list _ => .error (.typeError "unhashable type: 'list'")
  | .dict _ => .error (.typeError "unhashable type: 'dict'")
  | _ => .ok none

def order : SupportLevel → Nat
  | .strong => 2
  | .medium => 1
  | .weak => 0

structure Change where
  index : Nat
  similarity : Rat
  level : SupportLevel
  oldRank : Option Nat

def Change.upgrades (ch : Change) : Bool := ch.oldRank.any (· < order ch.level)

def Change.downgrades (ch : Change) : Bool := ch.oldRank.any (order ch.level < ·)

def recordOf : Value → List (String × Value)
  | .dict kvs => kvs
  | _ => []

/-- A record with a new similarity; `round4` is what rounding to four digits makes of it. -/
def revise (round4 : Rat → Rat) (sim : Rat) (level : SupportLevel) (citation : Value) : Value :=
  .dict (setKey "verified" (.bool (level ≠ .weak)) (setKey "support_level" (.str level.text)
    (setKey "similarity" (.float (round4 sim)) (recordOf citation))))

section Reverify

variable (embedder : Embedder V) (cosine : V → V → Rat) (round4 : Rat → Rat)
  (t : ReverifyThresholds)

def changeOf (citations : List Value) (embeddings : List V) (target : Excerpted × Nat) :
    Except Exc Change := do
  let claim ← listGet embeddings (target.2 * 2)
  let chunk ← listGet embeddings (target.2 * 2 + 1)
  let sim := cosine claim chunk
  let citation := citations.getD target.1.index .null
  let old ← rank? ((← citation.get "support_level").getD .null)
  return ⟨target.1.index, sim, classify sim t, old⟩

def Change.apply (citations : List Value) (ch : Change) : List Value :=
  citations.modify ch.index (revise round4 ch.similarity ch.level)

/-- The average of the values that are numbers, if there are any. -/
def avg (values : List (Option Value)) : Option Rat :=
  let nums := values.filterMap fun v => v.bind Value.num?
  if nums.isEmpty then none else some (nums.sum / nums.length)

def similarities (citations : List Value) : List (Option Value) :=
  citations.map fun c => (recordOf c).lookup "similarity"

def reverifyOne (requestId : String) (citations : List Value) : Except Exc ReverifyResult := do
  let ts ← targets citations
  let before := avg (similarities citations)
  if ts.isEmpty then
    return {
      requestId := requestId
      citationsBefore := citations
      citationsAfter := citations
      avgSimilarityBefore := before
      avgSimilarityAfter := before
      upgraded := 0
      downgraded := 0 }
  else
    let embeddings ← embedder.embedBatch (batchTexts ts)
    let changes ← ts.zipIdx.mapM (changeOf cosine t citations embeddings)
    return {
      requestId := requestId
      citationsBefore := citations
      citationsAfter := changes.foldl (Change.apply round4) citations
      avgSimilarityBefore := before
      avgSimilarityAfter := avg (changes.map fun ch => some (.float ch.similarity))
      upgraded := changes.countP Change.upgrades
      downgraded := changes.countP Change.downgrades }

end Reverify

section Outcome

variable {embedder : Embedder V} {cosine : V → V → Rat} {round4 : Rat → Rat}
  {t : ReverifyThresholds} {requestId : String} {citations : List Value} {out : ReverifyResult}

/-- The result without a target is the list itself; else it carries the changes to the targets. -/
theorem reverifyOne_ok
    (h : reverifyOne embedder cosine round4 t requestId citations = .ok out) :
    ∃ ts, targets citations = .ok ts ∧ out.avgSimilarityBefore = avg (similarities citations) ∧
      (ts = [] ∧ out.citationsAfter = citations ∧
          out.avgSimilarityAfter = avg (similarities citations) ∨
        ts ≠ [] ∧ ∃ embeddings changes, embedder.embedBatch (batchTexts ts) = .ok embeddings ∧
          ts.zipIdx.mapM (changeOf cosine t citations embeddings) = .ok changes ∧
          out.citationsAfter = changes.foldl (Change.apply round4) citations ∧
          out.avgSimilarityAfter = avg (changes.map fun ch => some (.float ch.similarity))) := by
  obtain ⟨ts, hts, h⟩ := Except.bind_eq_ok_iff.mp h
  refine ⟨ts, hts, ?_⟩
  split at h
  · rename_i hempty
    cases h
    exact ⟨rfl, .inl ⟨List.isEmpty_iff.mp hempty, rfl, rfl⟩⟩
  · rename_i hsome
    obtain ⟨embeddings, hembeddings, h⟩ := Except.bind_eq_ok_iff.mp h
    obtain ⟨changes, hchanges, h⟩ := Except.bind_eq_ok_iff.mp h
    cases h
    exact ⟨rfl, .inr ⟨fun hnil => hsome (by rw [hnil]; rfl), embeddings, changes, hembeddings,
      hchanges, rfl, rfl⟩⟩

end Outcome

section Spec

variable {embed : String → V} {cosine : V → V → Rat} {round4 : Rat → Rat}
  {t : ReverifyThresholds}

/-- What becomes of a record when the embedder maps each text to a vector of its own. -/
def recheck (embed : String → V) (cosine : V → V → Rat) (round4 : Rat → Rat)
    (t : ReverifyThresholds) (citation : Value) : Value :=
  match targetOf 0 citation with
  | .ok (some target) =>
    let sim := cosine (embed target.claim) (embed target.excerpt)
    revise round4 sim (classify sim t) citation
  | _ => citation

theorem getElem?_batchTexts {ts : List Excerpted} {k : Nat} {target : Excerpted}
    (h : ts[k]? = some target) : (batchTexts ts)[k * 2]? = some target.claim ∧
      (batchTexts ts)[k * 2 + 1]? = some target.excerpt := by
  induction ts generalizing k with
  | nil => cases h
  | cons first ts ih =>
    cases k with
    | zero =>
      cases h
      exact ⟨rfl, rfl⟩
    | succ k => simpa [batchTexts, Nat.succ_mul] using ih h

/-- The change to a record carries the similarity of the claim and the excerpt of its own. -/
structure ChangeOf (embed : String → V) (cosine : V → V → Rat) (t : ReverifyThresholds)
    (target : Excerpted) (ch : Change) : Prop where
  index : ch.index = target.index
  similarity : ch.similarity = cosine (embed target.claim) (embed target.excerpt)
  level : ch.level = classify ch.similarity t

theorem changes_of_batch {citations : List Value} {ts : List Excerpted} {changes : List Change}
    (h : ts.zipIdx.mapM (changeOf cosine t citations ((batchTexts ts).map embed)) = .ok changes) :
    List.Forall₂ (ChangeOf embed cosine t) ts changes := by
  obtain ⟨hlength, hsteps⟩ := List.forall₂_iff_get.mp (mapM_eq_ok_iff.mp h)
  refine List.forall₂_iff_get.mpr ⟨by rw [← hlength, List.length_zipIdx], fun i hi hi' => ?_⟩
  have hstep := hsteps i (by rwa [List.length_zipIdx]) hi'
  obtain ⟨claim, hclaim, hstep⟩ := Except.bind_eq_ok_iff.mp hstep
  obtain ⟨chunk, hchunk, hstep⟩ := Except.bind_eq_ok_iff.mp hstep
  obtain ⟨level, -, hstep⟩ := Except.bind_eq_ok_iff.mp hstep
  obtain ⟨old, -, hstep⟩ := Except.bind_eq_ok_iff.mp hstep
  obtain ⟨hclaim', hchunk'⟩ := getElem?_batchTexts (List.getElem?_eq_getElem hi)
  simp [listGet, hclaim', hchunk'] at hclaim hchunk
  rw [← Except.ok.inj hstep]
  subst hclaim hchunk
  exact ⟨by simp, rfl, rfl⟩

theorem targetOf_shift {i : Nat} {citation : Value} {target : Option Excerpted}
    (h : targetOf i citation = .ok target) (j : Nat) :
    targetOf j citation = .ok (target.map fun x => ⟨j, x.claim, x.excerpt⟩) ∧
      ∀ x ∈ target, x.index = i := by
  obtain ⟨claim, hclaim, h⟩ := Except.bind_eq_ok_iff.mp h
  obtain ⟨excerpt, hexcerpt, h⟩ := Except.bind_eq_ok_iff.mp h
  rw [targetOf, hclaim, hexcerpt]
  cases h
  by_cases hblank : claim = "" ∨ excerpt = ""
  · simp [hblank, bind, Except.bind, pure, Except.pure]
  · simp [hblank, bind, Except.bind, pure, Except.pure]

theorem modify_at_append (before rest : List Value) (citation : Value) (f : Value → Value) :
    (before ++ citation :: rest).modify before.length f = before ++ f citation :: rest := by
  induction before with
  | nil => rfl
  | cons first before ih => exact congrArg (first :: ·) ih

/-- The changes reach the records whose claim and excerpt they were computed from. -/
theorem foldl_apply {rest : List Value} {found : List (Option Excerpted)} {changes : List Change}
    (before : List Value)
    (hfound : (rest.zipIdx before.length).mapM (fun (c, i) => targetOf i c) = .ok found)
    (hchanges : List.Forall₂ (ChangeOf embed cosine t) found.reduceOption changes) :
    changes.foldl (Change.apply round4) (before ++ rest) =
      before ++ rest.map (recheck embed cosine round4 t) := by
  induction rest generalizing before found changes with
  | nil =>
    cases hfound
    cases hchanges
    rfl
  | cons citation rest ih =>
    rw [List.zipIdx_cons, List.mapM_cons] at hfound
    obtain ⟨target, htarget, hfound⟩ := Except.bind_eq_ok_iff.mp hfound
    obtain ⟨found', hfound', hfound⟩ := Except.bind_eq_ok_iff.mp hfound
    cases hfound
    obtain ⟨hown, hindex⟩ := targetOf_shift htarget 0
    have hlength : ∀ c : Value, before.length + 1 = (before ++ [c]).length := fun c => by simp
    cases target with
    | none =>
      rw [List.reduceOption_cons_of_none] at hchanges
      have hkept : recheck embed cosine round4 t citation = citation := by rw [recheck, hown]; rfl
      rw [hlength citation] at hfound'
      have hrest := ih (before ++ [citation]) hfound' hchanges
      rw [List.append_assoc, List.append_assoc] at hrest
      rw [List.map_cons, hkept]
      exact hrest
    | some target =>
      rw [List.reduceOption_cons_of_some] at hchanges
      obtain ⟨ch, changes', hch, hchanges', rfl⟩ := List.forall₂_cons_left_iff.mp hchanges
      have hrevised : recheck embed cosine round4 t citation =
          revise round4 ch.similarity ch.level citation := by
        rw [recheck, hown, hch.level, hch.similarity]
        rfl
      have hat : ch.index = before.length := hch.index.trans (hindex target rfl)
      rw [hlength (revise round4 ch.similarity ch.level citation)] at hfound'
      have hrest := ih (before ++ [revise round4 ch.similarity ch.level citation]) hfound' hchanges'
      rw [List.append_assoc, List.append_assoc] at hrest
      rw [List.map_cons, hrevised, List.foldl_cons, Change.apply, hat, modify_at_append]
      exact hrest

theorem stripped_ok {citation : Value} {key text : String} (h : stripped citation key = .ok text) :
    citation = .dict (recordOf citation) := by
  cases citation with
  | dict kvs => rfl
  | null | bool _ | int _ | float _ | str _ | list _ => cases h

theorem target_of_mem {citations : List Value} {ts : List Excerpted}
    (h : targets citations = .ok ts) {target : Excerpted} (hmem : target ∈ ts) :
    ∃ c, citations[target.index]? = some c ∧ c = .dict (recordOf c) := by
  obtain ⟨found, hfound, h⟩ := Except.bind_eq_ok_iff.mp h
  cases h
  rw [List.reduceOption_mem_iff] at hmem
  obtain ⟨⟨c, i⟩, hc, htarget⟩ := exists_of_mem_mapM hfound hmem
  rw [(targetOf_shift htarget i).2 target rfl]
  obtain ⟨claim, hclaim, -⟩ := Except.bind_eq_ok_iff.mp htarget
  exact ⟨c, List.mk_mem_zipIdx_iff_getElem?.mp hc, stripped_ok hclaim⟩

/-- A list of readable records is rechecked record by record. -/
theorem reverifyOne_ofFn {citations : List Value} {ts : List Excerpted} (requestId : String)
    (hts : targets citations = .ok ts) (hlevels : ∀ c ∈ citations,
      Returns (rank? (((recordOf c).lookup "support_level").getD .null))) :
    ∃ out, reverifyOne (.ofFn embed) cosine round4 t requestId citations = .ok out ∧
      out.citationsAfter = citations.map (recheck embed cosine round4 t) := by
  obtain ⟨found, hfound, hreduced⟩ := Except.bind_eq_ok_iff.mp hts
  cases hreduced
  have hreturns : Returns (found.reduceOption.zipIdx.mapM
      (changeOf cosine t citations ((batchTexts found.reduceOption).map embed))) := by
    rw [returns_mapM_iff]
    rintro ⟨target, k⟩ hmem
    have hat := List.mk_mem_zipIdx_iff_getElem?.mp hmem
    obtain ⟨c, hc, hdict⟩ := target_of_mem hts (List.mem_of_getElem? hat)
    obtain ⟨old, hold⟩ := hlevels c (List.mem_of_getElem? hc)
    obtain ⟨hclaim, hchunk⟩ := getElem?_batchTexts hat
    have hget : c.get "support_level" = .ok ((recordOf c).lookup "support_level") := by
      rw [hdict]
      rfl
    simp only [changeOf, listGet, List.getElem?_map, hclaim, hchunk, Option.map_some, bind,
      Except.bind, List.getD_eq_getElem?_getD, hc, Option.getD_some, hget, hold]
    exact returns_ok _
  have hbatch : Returns (reverifyOne (.ofFn embed) cosine round4 t requestId citations) := by
    rw [reverifyOne, hts]
    refine returns_bind_iff.mpr ⟨_, rfl, ?_⟩
    dsimp only
    split
    · exact returns_ok _
    · obtain ⟨changes, hchanges⟩ := hreturns
      exact returns_bind_iff.mpr ⟨_, rfl, returns_bind_iff.mpr ⟨changes, hchanges, returns_ok _⟩⟩
  obtain ⟨out, hout⟩ := hbatch
  refine ⟨out, hout, ?_⟩
  obtain ⟨ts, hts', -, h | ⟨-, embeddings, changes, hembed, hchanges, hafter, -⟩⟩ := reverifyOne_ok hout
  · obtain ⟨hnone, hafter, -⟩ := h
    obtain rfl := Except.ok.inj (hts.symm.trans hts')
    rw [hafter]
    have hunchanged : List.Forall₂ (ChangeOf embed cosine t) found.reduceOption [] := by
      rw [hnone]
      exact .nil
    exact foldl_apply [] hfound hunchanged
  · obtain rfl := Except.ok.inj (hts.symm.trans hts')
    cases hembed
    rw [hafter]
    exact foldl_apply [] hfound (changes_of_batch hchanges)

end Spec

section Average

variable {embedder : Embedder V} {cosine : V → V → Rat} {round4 : Rat → Rat}
  {t : ReverifyThresholds} {requestId : String} {citations : List Value} {out : ReverifyResult}

/-- There is nothing to compare in the records, and nothing to average. -/
structure Lacks (citations : List Value) : Prop where
  some : citations ≠ []
  untargeted : targets citations = .ok []
  unmeasured : ∀ c ∈ citations, ∀ v, (recordOf c).lookup "similarity" = .some v → v.num? = none

theorem avg_eq_none_iff {values : List (Option Value)} :
    avg values = none ↔ ∀ value ∈ values, ∀ v, value = some v → v.num? = none := by
  rw [avg]
  split
  · rename_i hempty
    rw [List.isEmpty_iff, List.filterMap_eq_nil_iff] at hempty
    refine iff_of_true rfl fun value hvalue v hv => ?_
    simpa [hv] using hempty value hvalue
  · rename_i hsome
    rw [List.isEmpty_iff, List.filterMap_eq_nil_iff] at hsome
    refine iff_of_false nofun fun h => hsome fun value hvalue => ?_
    cases value with
    | none => rfl
    | some v => exact h _ hvalue v rfl

theorem avg_similarities_eq_none_iff : avg (similarities citations) = none ↔
    ∀ c ∈ citations, ∀ v, (recordOf c).lookup "similarity" = .some v → v.num? = none := by
  rw [avg_eq_none_iff, similarities, List.forall_mem_map]

/-- The average after re-verification is missing exactly where the records lack it. -/
theorem avgSimilarityAfter_eq_none_iff (hsome : citations ≠ [])
    (h : reverifyOne embedder cosine round4 t requestId citations = .ok out) :
    out.avgSimilarityAfter = none ↔ Lacks citations := by
  obtain ⟨ts, hts, -, ⟨rfl, -, hafter⟩ | ⟨hne, embeddings, changes, -, hchanges, -, hafter⟩⟩ :=
    reverifyOne_ok h
  · rw [hafter, avg_similarities_eq_none_iff]
    exact ⟨fun hnone => ⟨hsome, hts, hnone⟩, Lacks.unmeasured⟩
  · refine iff_of_false (fun hnone => ?_) fun hlacks => ?_
    · rw [hafter, avg_eq_none_iff] at hnone
      have hlength := (mapM_eq_ok_iff.mp hchanges).length_eq
      rw [List.length_zipIdx] at hlength
      cases changes with
      | nil => exact hne (List.length_eq_zero_iff.mp hlength)
      | cons ch changes => cases hnone _ List.mem_cons_self _ rfl
    · exact hne (Except.ok.inj (hts.symm.trans hlacks.untargeted))

theorem Lacks.returns (h : Lacks citations) :
    ∃ out, reverifyOne embedder cosine round4 t requestId citations = .ok out := by
  rw [reverifyOne, h.untargeted]
  exact returns_ok _

section Targets

theorem stripped_revise {c : Value} (hdict : c = .dict (recordOf c)) {key : String}
    (hkey : key ≠ "verified" ∧ key ≠ "support_level" ∧ key ≠ "similarity") (sim : Rat)
    (level : SupportLevel) : stripped (revise round4 sim level c) key = stripped c key := by
  have hget : (revise round4 sim level c).get key = c.get key := by
    rw [hdict]
    simp only [revise, recordOf, Value.get, Value.lookup_setKey, if_neg hkey.1, if_neg hkey.2.1,
      if_neg hkey.2.2]
  rw [stripped, stripped, hget]

theorem targetOf_revise {c : Value} (hdict : c = .dict (recordOf c)) (i : Nat) (sim : Rat)
    (level : SupportLevel) : targetOf i (revise round4 sim level c) = targetOf i c := by
  rw [targetOf, targetOf, stripped_revise hdict (by decide), stripped_revise hdict (by decide)]

theorem mapM_zipIdx_congr {A B E : Type} {f : A × Nat → Except E B} {xs ys : List A}
    (h : List.Forall₂ (fun x y => ∀ i, f (x, i) = f (y, i)) xs ys) (n : Nat) :
    (xs.zipIdx n).mapM f = (ys.zipIdx n).mapM f := by
  induction h generalizing n with
  | nil => rfl
  | cons hxy _ ih => rw [List.zipIdx_cons, List.zipIdx_cons, List.mapM_cons, List.mapM_cons, hxy, ih]

theorem forall₂_modify {A : Type} {R : A → A → Prop} (hrefl : ∀ x, R x x) {f : A → A}
    {xs : List A} (hf : ∀ x ∈ xs, R x (f x)) (i : Nat) : List.Forall₂ R xs (xs.modify i f) := by
  induction xs generalizing i with
  | nil => simp
  | cons x xs ih =>
    cases i with
    | zero => exact .cons (hf x List.mem_cons_self) (List.forall₂_same.mpr fun y _ => hrefl y)
    | succ i => exact .cons (hrefl x) (ih (fun y hy => hf y (List.mem_cons_of_mem x hy)) i)

def Records (citations : List Value) : Prop := ∀ c ∈ citations, c = .dict (recordOf c)

theorem records_of_targets {ts : List Excerpted} (h : targets citations = .ok ts) :
    Records citations := by
  obtain ⟨found, hfound, -⟩ := Except.bind_eq_ok_iff.mp h
  intro c hc
  obtain ⟨i, hi⟩ := List.getElem?_of_mem hc
  obtain ⟨target, -, htarget⟩ := exists_of_mem_forall₂ (mapM_eq_ok_iff.mp hfound)
    (List.mk_mem_zipIdx_iff_getElem?.mpr hi)
  obtain ⟨claim, hclaim, -⟩ := Except.bind_eq_ok_iff.mp htarget
  exact stripped_ok hclaim

theorem records_apply (h : Records citations) (ch : Change) :
    Records (Change.apply round4 citations ch) := by
  intro c hc
  obtain ⟨j, hj⟩ := List.getElem?_of_mem hc
  rw [Change.apply, List.getElem?_modify, Option.map_eq_map, Option.map_eq_some_iff] at hj
  obtain ⟨old, hold, rfl⟩ := hj
  split
  · rfl
  · exact h old (List.mem_of_getElem? hold)

/-- New similarities and levels leave the texts of the records as they are. -/
theorem targets_foldl_apply (changes : List Change) (h : Records citations) :
    targets (changes.foldl (Change.apply round4) citations) = targets citations := by
  induction changes generalizing citations with
  | nil => rfl
  | cons ch changes ih =>
    have hsame : List.Forall₂ (fun c c' => ∀ i, targetOf i c' = targetOf i c) citations
        (Change.apply round4 citations ch) :=
      forall₂_modify (fun c i => rfl)
        (fun c hc i => targetOf_revise (h c hc) i ch.similarity ch.level) ch.index
    rw [List.foldl_cons, ih (records_apply h ch), targets, targets, mapM_zipIdx_congr hsame.flip]

/-- What has an average keeps one when it is re-verified. -/
theorem Lacks.of_after (h : reverifyOne embedder cosine round4 t requestId citations = .ok out)
    (hlacks : Lacks out.citationsAfter) : Lacks citations := by
  obtain ⟨ts, hts, -, ⟨rfl, hafter, -⟩ | ⟨hne, embeddings, changes, -, -, hafter, -⟩⟩ :=
    reverifyOne_ok h
  · rwa [hafter] at hlacks
  · have huntargeted := hlacks.untargeted
    rw [hafter, targets_foldl_apply changes (records_of_targets hts), hts] at huntargeted
    exact absurd (Except.ok.inj huntargeted) hne

end Targets

end Average

end CitationReverifier

end DomainRag.Verifier
