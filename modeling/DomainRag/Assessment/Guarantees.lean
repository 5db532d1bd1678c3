import DomainRag.Assessment.FailSafe
import DomainRag.Assessment.Generate

/-! # What holds of generated items

Every item that is kept passes the guards, but the candidates of one run are not compared with each
other, and the guards count a choice that is null or an empty container. A candidate that is no
object, choices or tags that cannot be gone through and a validator that raises end the run.
-/

namespace DomainRag.Assessment

open Program
open Storage (strip)

section Similarity

variable {checker : SimilarityChecker} {text : String}

theorem le_maxSimilarity (f : ItemRecord → Rat) (refs : List ItemRecord) (start : Rat) :
    start ≤ refs.foldl (fun m c => max m (f c)) start ∧
      ∀ ref ∈ refs, f ref ≤ refs.foldl (fun m c => max m (f c)) start := by
  induction refs generalizing start with
  | nil => exact ⟨le_rfl, List.forall_mem_nil _⟩
  | cons ref refs ih =>
    obtain ⟨hstart, hrefs⟩ := ih (max start (f ref))
    refine ⟨(le_max_left _ _).trans hstart, List.forall_mem_cons.mpr ⟨?_, hrefs⟩⟩
    exact (le_max_right _ _).trans hstart

theorem lt_duplicate_of_check {refs : List ItemRecord}
    (h : (checker.check text refs).isDuplicate = false) :
    ∀ ref ∈ refs, checker.similarity text ref < checker.thresholds.duplicate := by
  intro ref href
  rw [SimilarityChecker.check, if_neg (List.ne_nil_of_mem href)] at h
  exact ((le_maxSimilarity (checker.similarity text) refs 0).2 ref href).trans_lt
    (not_le.mp (of_decide_eq_false h))

theorem lt_duplicate_of_checkHits {index : ItemIndex}
    (h : (checker.checkHits (index.searchSimilar text)).isDuplicate = false) :
    ∀ hit ∈ index.searchSimilar text, hit.score < checker.thresholds.duplicate := by
  have hsorted := index.sorted text
  generalize index.searchSimilar text = hits at h hsorted
  cases hits with
  | nil => exact List.forall_mem_nil _
  | cons hit hits =>
    have hfirst : hit.score < checker.thresholds.duplicate := not_le.mp (of_decide_eq_false h)
    refine List.forall_mem_cons.mpr ⟨hfirst, fun hit' hmem => ?_⟩
    exact (List.rel_of_pairwise_cons hsorted hmem).trans_lt hfirst

end Similarity

namespace AssessmentGenerateService

variable {svc : AssessmentGenerateService} {call : GenerateCall} {refs similar : List ItemRecord}
  {candidate : Value} {result result' : GenerateResult} {s s' : GenerateState} {qtext : String}
  {choices : List Value}

section Guards

/-- The question of a candidate. -/
def questionOf (svc : AssessmentGenerateService) (candidate : Value) : String :=
  strip (svc.text.str (candidate.field "question_text" (.str "")))

/-- The candidate has a question, and neither the question nor the explanation is Chinese. -/
def asks (svc : AssessmentGenerateService) (candidate : Value) : Prop :=
  svc.questionOf candidate ≠ "" ∧ hasCjkIdeograph (svc.questionOf candidate) = false ∧
    hasCjkIdeograph
      (svc.text.str ((candidate.field "explanation" .null).orElse (.str ""))) = false

/-- A candidate that can be guarded. -/
structure Readable (svc : AssessmentGenerateService) (candidate : Value) : Prop where
  object : candidate.isDict = true
  choices : svc.asks candidate → (candidate.field "choices" .null).Loops

theorem guarded_eq (h : candidate.isDict = true) :
    svc.guarded candidate =
      if svc.questionOf candidate = "" then .ok none
      else if hasCjkIdeograph (svc.questionOf candidate) then .ok none
      else if hasCjkIdeograph
        (svc.text.str ((candidate.field "explanation" .null).orElse (.str ""))) then .ok none
      else do
        let choices ← ((candidate.field "choices" .null).orElse (.list [])).iter
        if choices.any fun c => hasCjkIdeograph (svc.text.str c) then return none
        if referencesFigure (svc.questionOf candidate) ||
            choices.any fun c => referencesFigure (svc.text.str c) then
          return none
        if degenerateChoices svc.text choices then return none
        return some (svc.questionOf candidate, choices) := by
  rw [guarded]
  simp only [Value.getD_of_isDict h, bind, Except.bind]
  rfl

theorem returns_guarded_iff : Returns (svc.guarded candidate) ↔ svc.Readable candidate := by
  constructor
  · intro h
    have hobject : candidate.isDict = true := (Value.returns_getD_bind_iff.mp h).1
    refine ⟨hobject, fun ⟨hasked, hquestion, hexplanation⟩ => ?_⟩
    rw [guarded_eq hobject, if_neg hasked, hquestion, hexplanation, if_neg Bool.false_ne_true,
      if_neg Bool.false_ne_true, returns_bind_iff] at h
    obtain ⟨choices, hchoices, -⟩ := h
    exact Value.loops_iff.mpr ⟨choices, hchoices⟩
  · rintro ⟨hobject, hchoices⟩
    rw [guarded_eq hobject]
    split
    · exact returns_ok none
    split
    · exact returns_ok none
    split
    · exact returns_ok none
    · rename_i hasked hquestion hexplanation
      rw [Bool.not_eq_true] at hquestion hexplanation
      obtain ⟨choices, hiter⟩ :=
        Value.loops_iff.mp (hchoices ⟨hasked, hquestion, hexplanation⟩)
      refine returns_bind_iff.mpr ⟨choices, hiter, ?_⟩
      split
      · exact returns_ok none
      split
      · exact returns_ok none
      split
      · exact returns_ok none
      · exact returns_ok _

/-- What the guards let through. -/
theorem guarded_eq_some (h : svc.guarded candidate = .ok (some (qtext, choices))) :
    candidate.isDict = true ∧ qtext = svc.questionOf candidate ∧ qtext ≠ "" ∧
      hasCjkIdeograph qtext = false ∧ referencesFigure qtext = false ∧
      degenerateChoices svc.text choices = false := by
  obtain ⟨hobject, -⟩ := returns_guarded_iff.mp ⟨_, h⟩
  rw [guarded_eq hobject] at h
  split at h
  · cases h
  split at h
  · cases h
  split at h
  · cases h
  rename_i hasked hquestion _
  obtain ⟨given, -, h⟩ := Except.bind_eq_ok_iff.mp h
  split at h
  · cases h
  split at h
  · cases h
  rename_i hfigure
  split at h
  · cases h
  rename_i hdegenerate
  cases h
  rw [Bool.or_eq_true, not_or, Bool.not_eq_true] at hfigure
  exact ⟨hobject, rfl, hasked, Bool.not_eq_true _ ▸ hquestion, hfigure.1,
    Bool.not_eq_true _ ▸ hdegenerate⟩

end Guards

section Steps

/-- A choice that is neither null nor an empty list or object. -/
def saysSomething : Value → Bool
  | .null | .list [] | .dict [] => false
  | _ => true

/-- The choices that are not empty. -/
def filledChoices (text : TextLibrary) (choices : List Value) : List Value :=
  (shownChoices text choices).filter saysSomething

/-- What is promised of an item. -/
structure Kept (svc : AssessmentGenerateService) (similar : List ItemRecord) (item : ItemRecord) :
    Prop where
  question : item.questionText ≠ ""
  korean : hasCjkIdeograph item.questionText = false
  figure : referencesFigure item.questionText = false
  choices : 2 ≤ (filledChoices svc.text item.choices).length
  distinct : ((filledChoices svc.text item.choices).map (normChoice svc.text)).Nodup
  notDuplicate : match svc.itemIndex with
    | none => ∀ ref ∈ similar, svc.similarity.similarity item.questionText ref <
        svc.similarity.thresholds.duplicate
    | some index => ∀ hit ∈ index.searchSimilar item.questionText,
        hit.score < svc.similarity.thresholds.duplicate
  status : item.qualityStatus ≠ "approved"

/-- The question of a candidate that passes the guards and is no duplicate. -/
def accepted? (svc : AssessmentGenerateService) (similar : List ItemRecord) (candidate : Value) :
    Option String :=
  match svc.guarded candidate with
  | .ok (some (qtext, _)) =>
    if (svc.checkSimilarity similar qtext).isDuplicate then none else some qtext
  | _ => none

/-- A candidate that is accepted has at least two choices that are not empty. -/
def Chooses (svc : AssessmentGenerateService) (similar : List ItemRecord) (candidate : Value) :
    Prop :=
  ∀ qtext choices, svc.guarded candidate = .ok (some (qtext, choices)) →
    (svc.accepted? similar candidate).isSome → 2 ≤ (filledChoices svc.text choices).length

/-- A candidate that the run can go on after: if it is kept, the validators can read what their model
replies, and its tags can be gone through. -/
structure Fits (svc : AssessmentGenerateService) (call : GenerateCall) (similar : List ItemRecord)
    (calls : Nat) (candidate : Value) : Prop where
  readable : svc.Readable candidate
  validated : ∀ qtext choices item, svc.guarded candidate = .ok (some (qtext, choices)) →
    (svc.accepted? similar candidate).isSome → call.validate = true →
    svc.validatedItem call candidate qtext choices = .ok item →
    ∀ v, some v ∈ repliesTo svc.validator item call.validatorsConfig calls →
      svc.validator.Readable v
  tags : (svc.accepted? similar candidate).isSome → (candidate.field "tags" .null).Loops

theorem not_approved_of_validate {x : AssessmentValidator} {item : ValidatedItem}
    {config : Option ValidatorsConfig} {calls calls' : Nat} {outcome : ValidationOutcome}
    (h : x.validate item config calls = .ok outcome calls') :
    outcome.qualityStatus ≠ "approved" := by
  obtain ⟨acc, -, rfl⟩ := validate_eq_ok_iff.mp h
  dsimp only
  split <;> decide

theorem halts_validate_iff {x : AssessmentValidator} {item : ValidatedItem}
    {config : Option ValidatorsConfig} {calls : Nat} :
    Halts (x.validate item config) calls ↔
      ∀ v, some v ∈ repliesTo x item config calls → x.Readable v := by
  have hfold : Halts (validatorNames.foldlM (x.runValidator item (config.getD Dict.empty)) {})
      calls ↔ ∀ v, some v ∈ repliesTo x item config calls → x.Readable v :=
    AssessmentValidator.halts_foldlM_iff
  rw [← hfold]
  simp only [Halts, validate_eq_ok_iff]
  constructor
  · rintro ⟨_, calls', acc, hacc, -⟩
    exact ⟨acc, calls', hacc⟩
  · rintro ⟨acc, calls', hacc⟩
    exact ⟨_, calls', acc, hacc, rfl⟩

theorem onCalls_eq_ok_iff {A : Type} {x : LlmTask A} {a : A} :
    onCalls x s = .ok a s' ↔ ∃ calls, x s.calls = .ok a calls ∧ s' = { s with calls := calls } := by
  rw [onCalls]
  cases x s.calls with
  | ok b calls =>
    constructor
    · rintro ⟨⟩
      exact ⟨calls, rfl, rfl⟩
    · rintro ⟨_, ⟨⟩, rfl⟩
      rfl
  | error e calls => exact ⟨nofun, nofun⟩

theorem halts_outcomeOf_iff (hobject : candidate.isDict = true) :
    Halts (svc.outcomeOf call candidate qtext choices) s ↔ (call.validate = true →
      ∀ item, svc.validatedItem call candidate qtext choices = .ok item →
        ∀ v, some v ∈ repliesTo svc.validator item call.validatorsConfig s.calls →
          svc.validator.Readable v) := by
  rw [outcomeOf]
  cases call.validate with
  | false => exact ⟨fun _ => nofun, fun _ => ⟨_, s, rfl⟩⟩
  | true =>
    have hitem : ∃ item, svc.validatedItem call candidate qtext choices = .ok item := by
      refine Value.returns_getD_bind_iff.mpr ⟨hobject, Value.returns_getD_bind_iff.mpr ⟨hobject, ?_⟩⟩
      refine returns_bind_iff.mpr ⟨_, Except.bind_eq_ok_iff.mpr
        ⟨_, Value.getD_of_isDict hobject _ _, rfl⟩, returns_pure _⟩
    obtain ⟨item, hitem⟩ := hitem
    rw [if_pos rfl, forall_prop_of_true rfl, hitem]
    simp only [Except.ok.injEq, forall_eq']
    rw [← halts_validate_iff]
    constructor
    · rintro ⟨outcome, s', h⟩
      obtain ⟨calls, hcalls, -⟩ := onCalls_eq_ok_iff.mp h
      exact ⟨outcome, calls, hcalls⟩
    · rintro ⟨outcome, calls, hcalls⟩
      exact ⟨outcome, _, onCalls_eq_ok_iff.mpr ⟨calls, hcalls, rfl⟩⟩

theorem not_approved_of_outcomeOf {outcome : ValidationOutcome}
    (h : svc.outcomeOf call candidate qtext choices s = .ok outcome s') :
    outcome.qualityStatus ≠ "approved" := by
  rw [outcomeOf] at h
  split at h
  · obtain ⟨item, t, -, h⟩ := Program.bind_eq_ok_iff.mp h
    obtain ⟨calls, hcalls, -⟩ := onCalls_eq_ok_iff.mp h
    exact not_approved_of_validate hcalls
  · cases h
    decide

theorem returns_recordOf_iff (hobject : candidate.isDict = true) {made : Nat}
    {outcome : ValidationOutcome} {sim : SimilarityCheckResult} :
    Returns (svc.recordOf call made candidate qtext choices outcome sim) ↔
      (candidate.field "tags" .null).Loops := by
  have hdifficulty : svc.difficultyOf call candidate =
      .ok (svc.text.str ((candidate.field "difficulty" .null).orElse
        (.str call.criteria.difficulty))) := by
    rw [difficultyOf, Value.getD_of_isDict hobject]
    rfl
  rw [recordOf, hdifficulty, Value.loops_iff]
  simp only [Value.getD_of_isDict hobject, bind, Except.bind]
  cases ((candidate.field "tags" .null).orElse (.list [])).iter with
  | error e => exact iff_of_false (not_returns_error e) (not_returns_error e)
  | ok tags => exact ⟨fun _ => returns_ok tags, fun _ => returns_pure _⟩

theorem recordOf_eq_ok {made : Nat} {outcome : ValidationOutcome} {sim : SimilarityCheckResult}
    {item : ItemRecord}
    (h : svc.recordOf call made candidate qtext choices outcome sim = .ok item) :
    item.questionText = qtext ∧ item.choices = choices ∧
      item.qualityStatus = outcome.qualityStatus := by
  obtain ⟨difficulty, -, h⟩ := Except.bind_eq_ok_iff.mp h
  obtain ⟨answer, -, h⟩ := Except.bind_eq_ok_iff.mp h
  obtain ⟨explanation, -, h⟩ := Except.bind_eq_ok_iff.mp h
  obtain ⟨given, -, h⟩ := Except.bind_eq_ok_iff.mp h
  obtain ⟨tags, -, h⟩ := Except.bind_eq_ok_iff.mp h
  obtain ⟨predicted, -, h⟩ := Except.bind_eq_ok_iff.mp h
  cases h
  exact ⟨rfl, rfl, rfl⟩

end Steps

section Candidates

variable {sim : SimilarityCheckResult}

theorem halts_keep_iff (hobject : candidate.isDict = true) :
    Halts (svc.keep call result candidate qtext choices sim) s ↔
      Halts (svc.outcomeOf call candidate qtext choices) s ∧
        (candidate.field "tags" .null).Loops := by
  rw [keep, halts_bind_iff]
  constructor
  · rintro ⟨outcome, t, houtcome, h⟩
    obtain ⟨record, t', hrecord, -⟩ := halts_bind_iff.mp h
    obtain ⟨hrecord, -⟩ := ofExcept_eq_ok_iff.mp hrecord
    exact ⟨⟨outcome, t, houtcome⟩, (returns_recordOf_iff hobject).mp ⟨record, hrecord⟩⟩
  · rintro ⟨⟨outcome, t, houtcome⟩, htags⟩
    have hreturns : Returns (svc.recordOf call result.items.length candidate qtext choices outcome
        sim) := (returns_recordOf_iff hobject).mpr htags
    obtain ⟨record, hrecord⟩ := hreturns
    refine ⟨outcome, t, houtcome, halts_bind_iff.mpr
      ⟨record, t, ofExcept_eq_ok_iff.mpr ⟨hrecord, rfl⟩, ?_⟩⟩
    cases call.persist with
    | true => exact ⟨_, _, rfl⟩
    | false => exact ⟨_, _, rfl⟩

/-- What is kept is one item with the question and the choices of its candidate. -/
theorem keep_eq_ok (h : svc.keep call result candidate qtext choices sim s = .ok result' s') :
    ∃ item, result'.items = result.items ++ [item] ∧ item.questionText = qtext ∧
      item.choices = choices ∧ item.qualityStatus ≠ "approved" := by
  obtain ⟨outcome, t, houtcome, h⟩ := Program.bind_eq_ok_iff.mp h
  obtain ⟨record, t', hmade, h⟩ := Program.bind_eq_ok_iff.mp h
  obtain ⟨hrecord, rfl⟩ := ofExcept_eq_ok_iff.mp hmade
  obtain ⟨hquestion, hchoices, hstatus⟩ := recordOf_eq_ok hrecord
  refine ⟨record, ?_, hquestion, hchoices, hstatus ▸ not_approved_of_outcomeOf houtcome⟩
  cases hpersist : call.persist with
  | true =>
    rw [hpersist] at h
    cases h
    rfl
  | false =>
    rw [hpersist] at h
    cases h
    rfl

theorem addCandidate_of_none (h : svc.guarded candidate = .ok none) :
    svc.addCandidate call similar result candidate s = .ok result s := by
  rw [addCandidate, h]
  rfl

theorem addCandidate_of_some (h : svc.guarded candidate = .ok (some (qtext, choices))) :
    svc.addCandidate call similar result candidate s =
      if (svc.checkSimilarity similar qtext).isDuplicate then
        .ok { noteSimilarity result qtext (svc.checkSimilarity similar qtext) with
          rejectedDuplicates := result.rejectedDuplicates + 1 } s
      else svc.keep call (noteSimilarity result qtext (svc.checkSimilarity similar qtext)) candidate
        qtext choices (svc.checkSimilarity similar qtext) s := by
  rw [addCandidate, h]
  change (if (svc.checkSimilarity similar qtext).isDuplicate then _ else _ : GenerateTask _) s = _
  split <;> rfl

theorem accepted?_of_some (h : svc.guarded candidate = .ok (some (qtext, choices))) :
    svc.accepted? similar candidate =
      if (svc.checkSimilarity similar qtext).isDuplicate then none else some qtext := by
  rw [accepted?, h]

/-- A candidate that can be guarded changes no items, or it is accepted and kept. -/
theorem addCandidate_cases (call : GenerateCall) (similar : List ItemRecord)
    (result : GenerateResult) (s : GenerateState) (hreadable : svc.Readable candidate) :
    (svc.accepted? similar candidate = none ∧ ∃ result',
      svc.addCandidate call similar result candidate s = .ok result' s ∧
      result'.items = result.items) ∨
    ∃ qtext choices noted, svc.guarded candidate = .ok (some (qtext, choices)) ∧
      svc.accepted? similar candidate = some qtext ∧
      (svc.checkSimilarity similar qtext).isDuplicate = false ∧ noted.items = result.items ∧
      svc.addCandidate call similar result candidate s =
        svc.keep call noted candidate qtext choices (svc.checkSimilarity similar qtext) s := by
  obtain ⟨found, hguarded⟩ := returns_guarded_iff.mpr hreadable
  cases found with
  | none =>
    refine .inl ⟨?_, result, addCandidate_of_none hguarded, rfl⟩
    rw [accepted?, hguarded]
  | some found =>
    obtain ⟨qtext, choices⟩ := found
    rw [addCandidate_of_some hguarded, accepted?_of_some hguarded]
    cases hdup : (svc.checkSimilarity similar qtext).isDuplicate with
    | true => exact .inl ⟨rfl, _, rfl, rfl⟩
    | false =>
      exact .inr ⟨qtext, choices, noteSimilarity result qtext _, hguarded, rfl, hdup, rfl, rfl⟩

theorem fits_of_not_accepted {calls : Nat} (hreadable : svc.Readable candidate)
    (h : svc.accepted? similar candidate = none) : svc.Fits call similar calls candidate := by
  refine ⟨hreadable, fun _ _ _ _ hsome => ?_, fun hsome => ?_⟩
  · rw [h] at hsome
    cases hsome
  · rw [h] at hsome
    cases hsome

theorem readable_of_halts (h : Halts (svc.addCandidate call similar result candidate) s) :
    svc.Readable candidate := by
  obtain ⟨found, t, hfound, -⟩ := halts_bind_iff.mp h
  exact returns_guarded_iff.mp ⟨found, (ofExcept_eq_ok_iff.mp hfound).1⟩

theorem halts_addCandidate_iff : Halts (svc.addCandidate call similar result candidate) s ↔
    svc.Fits call similar s.calls candidate := by
  have hreads : svc.Readable candidate →
      (Halts (svc.addCandidate call similar result candidate) s ↔
        svc.Fits call similar s.calls candidate) := by
    intro hreadable
    obtain ⟨hnone, result', hresult, -⟩ | ⟨qtext, choices, noted, hguarded, hsome, -, -, hkeep⟩ :=
      addCandidate_cases call similar result s hreadable
    · exact iff_of_true ⟨result', s, hresult⟩ (fits_of_not_accepted hreadable hnone)
    · rw [Halts, hkeep]
      refine (halts_keep_iff hreadable.object).trans ?_
      rw [halts_outcomeOf_iff hreadable.object]
      have haccepted : (svc.accepted? similar candidate).isSome = true := by
        rw [hsome]
        rfl
      constructor
      · rintro ⟨hvalidated, htags⟩
        refine ⟨hreadable, fun qtext' choices' item hsame _ hvalidate hitem => ?_,
          fun _ => htags⟩
        cases hguarded.symm.trans hsame
        exact hvalidated hvalidate item hitem
      · rintro ⟨-, hvalidated, htags⟩
        exact ⟨fun hvalidate item => hvalidated qtext choices item hguarded haccepted hvalidate,
          htags haccepted⟩
  exact ⟨fun h => (hreads (readable_of_halts h)).mp h, fun h => (hreads h.readable).mpr h⟩

theorem notDuplicate_of_check (h : (svc.checkSimilarity similar qtext).isDuplicate = false) :
    match svc.itemIndex with
    | none => ∀ ref ∈ similar, svc.similarity.similarity qtext ref <
        svc.similarity.thresholds.duplicate
    | some index => ∀ hit ∈ index.searchSimilar qtext,
        hit.score < svc.similarity.thresholds.duplicate := by
  rw [checkSimilarity] at h
  cases hindex : svc.itemIndex with
  | none =>
    rw [hindex] at h
    exact lt_duplicate_of_check h
  | some index =>
    rw [hindex] at h
    exact lt_duplicate_of_checkHits h

theorem not_degenerate_iff {text : TextLibrary} : degenerateChoices text choices = false ↔
    2 ≤ (shownChoices text choices).length ∧
      ((shownChoices text choices).map (normChoice text)).Nodup := by
  rw [degenerateChoices]
  simp only [Bool.or_eq_false_iff, decide_eq_false_iff_not, not_lt]
  rw [le_length_dedup_iff, List.length_map]

/-- A candidate that is not accepted changes no items, and one that is becomes an item that keeps the
promise if it has two choices. -/
theorem addCandidate_eq_ok
    (h : svc.addCandidate call similar result candidate s = .ok result' s') :
    (svc.accepted? similar candidate = none ∧ result'.items = result.items) ∨
    ∃ item, svc.accepted? similar candidate = some item.questionText ∧
      (svc.Kept similar item ↔ svc.Chooses similar candidate) ∧
      result'.items = result.items ++ [item] := by
  obtain ⟨hnone, result'', hresult, hitems⟩ |
      ⟨qtext, choices, noted, hguarded, hsome, hdup, hnoted, hkeep⟩ :=
    addCandidate_cases call similar result s (readable_of_halts ⟨result', s', h⟩)
  · cases h.symm.trans hresult
    exact .inl ⟨hnone, hitems⟩
  · rw [hkeep] at h
    obtain ⟨item, hitems, rfl, rfl, hstatus⟩ := keep_eq_ok h
    obtain ⟨-, -, hasked, hkorean, hfigure, hdegenerate⟩ := guarded_eq_some hguarded
    obtain ⟨-, hnodup⟩ := not_degenerate_iff.mp hdegenerate
    have hfilled : ((filledChoices svc.text item.choices).map (normChoice svc.text)).Nodup :=
      hnodup.sublist (List.filter_sublist.map _)
    refine .inr ⟨item, hsome, ?_, hnoted ▸ hitems⟩
    constructor
    · intro hkept qtext choices hsame _
      cases hguarded.symm.trans hsame
      exact hkept.choices
    · intro hchooses
      have haccepted : (svc.accepted? similar candidate).isSome = true := by
        rw [hsome]
        rfl
      exact ⟨hasked, hkorean, hfigure, hchooses _ _ hguarded haccepted, hfilled,
        notDuplicate_of_check hdup, hstatus⟩

end Candidates

section Runs

variable {seen : List (Visit GenerateState GenerateResult Value)} {retry : Nat}

/-- The candidate does not repeat the question of an item that was made before it. -/
def Fresh (svc : AssessmentGenerateService) (similar items : List ItemRecord) (candidate : Value) :
    Prop :=
  ∀ item ∈ items, svc.accepted? similar candidate ≠ some item.questionText

/-- What holds of a result after the candidates that were seen. -/
structure Made (svc : AssessmentGenerateService) (call : GenerateCall) (similar : List ItemRecord)
    (seen : List (Visit GenerateState GenerateResult Value)) (result : GenerateResult) : Prop where
  count : result.items.length ≤ call.criteria.count.toNat
  kept : (∀ item ∈ result.items, svc.Kept similar item) ↔ ∀ e ∈ seen, svc.Chooses similar e.elem
  distinct : (result.items.map (·.questionText)).Nodup ↔
    ∀ e ∈ seen, svc.Fresh similar e.acc.items e.elem

theorem made_nil : svc.Made call similar [] {} := by
  refine ⟨Nat.zero_le _, ?_, ?_⟩
  · exact ⟨fun _ => List.forall_mem_nil _, fun _ => List.forall_mem_nil _⟩
  · exact ⟨fun _ => List.forall_mem_nil _, fun _ => List.nodup_nil⟩

theorem Made.addCandidate (h : svc.Made call similar seen result)
    (hfew : done call result = false)
    (hstep : svc.addCandidate call similar result candidate s = .ok result' s') :
    svc.Made call similar (seen ++ [⟨candidate, result, s⟩]) result' := by
  obtain ⟨hnone, hitems⟩ | ⟨item, hsome, hitem, hitems⟩ := addCandidate_eq_ok hstep
  · have hfresh : svc.Fresh similar result.items candidate := by
      intro item _ hsome
      rw [hnone] at hsome
      cases hsome
    have hchooses : svc.Chooses similar candidate := by
      intro _ _ _ hsome
      rw [hnone] at hsome
      cases hsome
    refine ⟨hitems ▸ h.count, ?_, ?_⟩
    · rw [hitems, h.kept, List.forall_mem_append, List.forall_mem_singleton]
      exact (and_iff_left hchooses).symm
    · rw [hitems, h.distinct, List.forall_mem_append, List.forall_mem_singleton]
      exact (and_iff_left hfresh).symm
  · refine ⟨?_, ?_, ?_⟩
    · simp only [done, decide_eq_false_iff_not, not_le] at hfew
      rw [hitems, List.length_append, List.length_singleton]
      omega
    · rw [hitems, List.forall_mem_append, List.forall_mem_singleton, List.forall_mem_append,
        List.forall_mem_singleton, h.kept, hitem]
    · have hfresh : svc.Fresh similar result.items candidate ↔
          item.questionText ∉ result.items.map (·.questionText) := by
        rw [Fresh, hsome, List.mem_map, not_exists]
        refine forall_congr' fun other => ?_
        rw [not_and, Ne, Option.some.injEq, eq_comm]
      rw [hitems, List.map_append, List.map_singleton, List.nodup_append_comm,
        List.singleton_append, List.nodup_cons, h.distinct, List.forall_mem_append,
        List.forall_mem_singleton, hfresh]
      exact and_comm

/-- The candidates that a try comes to. -/
def lookedAt (svc : AssessmentGenerateService) (call : GenerateCall)
    (refs similar : List ItemRecord) (e : Visit GenerateState GenerateResult Nat) :
    List (Visit GenerateState GenerateResult Value) :=
  let prompt := generatePrompt call refs (call.criteria.count - e.acc.items.length)
  visits (done call) (svc.addCandidate call similar) (svc.candidatesOf (svc.llm e.elem prompt))
    { e.acc with retriesUsed := e.elem + 1 } e.state

theorem halts_tryOnce_iff : Halts (svc.tryOnce call refs similar result retry) s ↔
    ∀ e ∈ svc.lookedAt call refs similar ⟨retry, result, s⟩,
      svc.Fits call similar e.state.calls e.elem := by
  rw [tryOnce, halts_loopUntil_iff]
  exact forall₂_congr fun e _ => halts_addCandidate_iff

theorem Made.tryOnce (h : svc.Made call similar seen result)
    (hstep : svc.tryOnce call refs similar result retry s = .ok result' s') :
    svc.Made call similar (seen ++ svc.lookedAt call refs similar ⟨retry, result, s⟩) result' := by
  refine loopUntil_rule (I := fun looked result _ => svc.Made call similar (seen ++ looked) result)
    ?_ (fun looked candidate result s result' s' _ hfew hI hcandidate => ?_) hstep
  · rw [List.append_nil]
    exact ⟨h.count, h.kept, h.distinct⟩
  · rw [← List.append_assoc]
    exact hI.addCandidate hfew hcandidate

/-- The items that the prompts refer to. -/
def references (call : GenerateCall) (rows : ItemRows) : List ItemRecord :=
  ((rows.listCandidatesForExtract call.domainId
    { subject := some call.criteria.subject, chapter := call.criteria.chapter } 20).filter
      fun r => !r.figureDependent).take 10

/-- The items that a question is compared with if there is no index. -/
def compared (svc : AssessmentGenerateService) (call : GenerateCall) (rows : ItemRows) :
    List ItemRecord :=
  if svc.itemIndex.isNone then refsForSimilarity call rows else []

/-- The tries of a run, in each of which the model is called once. -/
def tries (svc : AssessmentGenerateService) (call : GenerateCall) (s : GenerateState) :
    List (Visit GenerateState GenerateResult Nat) :=
  visits (done call) (svc.tryOnce call (references call s.rows) (svc.compared call s.rows))
    (List.range svc.maxRetries.toNat) {} s

/-- The candidates that a run comes to. -/
def looked (svc : AssessmentGenerateService) (call : GenerateCall) (s : GenerateState) :
    List (Visit GenerateState GenerateResult Value) :=
  (svc.tries call s).flatMap (svc.lookedAt call (references call s.rows) (svc.compared call s.rows))

theorem generate_eq_ok_iff : svc.generate call s = .ok result s' ↔ ∃ made,
    loopUntil (done call) (svc.tryOnce call (references call s.rows) (svc.compared call s.rows))
      (List.range svc.maxRetries.toNat) {} s = .ok made s' ∧
    result = { made with generatedCount := made.items.length } := by
  rw [generate, get_bind_apply]
  exact Program.bind_pure_eq_ok_iff

theorem halts_generate_iff : Halts (svc.generate call) s ↔
    ∀ e ∈ svc.looked call s, svc.Fits call (svc.compared call s.rows) e.state.calls e.elem := by
  have hloop : Halts (svc.generate call) s ↔ Halts (loopUntil (done call)
      (svc.tryOnce call (references call s.rows) (svc.compared call s.rows))
      (List.range svc.maxRetries.toNat) {}) s := by
    constructor
    · rintro ⟨result, s', h⟩
      obtain ⟨made, hmade, -⟩ := generate_eq_ok_iff.mp h
      exact ⟨made, s', hmade⟩
    · rintro ⟨made, s', hmade⟩
      exact ⟨_, s', generate_eq_ok_iff.mpr ⟨made, hmade, rfl⟩⟩
  rw [hloop, halts_loopUntil_iff, looked, List.forall_mem_flatMap]
  exact forall₂_congr fun e _ => halts_tryOnce_iff

theorem made_of_generate (h : svc.generate call s = .ok result s') :
    svc.Made call (svc.compared call s.rows) (svc.looked call s) result := by
  obtain ⟨made, hmade, rfl⟩ := generate_eq_ok_iff.mp h
  suffices hrun : svc.Made call (svc.compared call s.rows) (svc.looked call s) made from
    ⟨hrun.count, hrun.kept, hrun.distinct⟩
  refine loopUntil_rule (I := fun seen result _ => svc.Made call (svc.compared call s.rows)
    (seen.flatMap (svc.lookedAt call (references call s.rows) (svc.compared call s.rows))) result)
    made_nil (fun seen retry result s result' s' _ _ hI htry => ?_) hmade
  rw [List.flatMap_append, List.flatMap_singleton]
  exact hI.tryOnce htry

end Runs

end AssessmentGenerateService

section Promise

open AssessmentGenerateService

/-- What is promised of a run and its result. -/
structure Guarantees (svc : AssessmentGenerateService) (call : GenerateCall) (s : GenerateState)
    (result : GenerateResult) : Prop where
  count : result.items.length ≤ call.criteria.count.toNat
  tries : (svc.tries call s).length ≤ svc.maxRetries.toNat
  kept : ∀ item ∈ result.items, svc.Kept (svc.compared call s.rows) item
  distinct : (result.items.map (·.questionText)).Nodup

/-- A run keeps its promise if every candidate fits and each that is accepted has two choices and does
not repeat the question of an item of the same run. -/
theorem guarantees_iff {svc : AssessmentGenerateService} {call : GenerateCall} {s : GenerateState} :
    (∃ result s', svc.generate call s = .ok result s' ∧ Guarantees svc call s result) ↔
    ∀ e ∈ svc.looked call s, svc.Fits call (svc.compared call s.rows) e.state.calls e.elem ∧
      svc.Chooses (svc.compared call s.rows) e.elem ∧
      svc.Fresh (svc.compared call s.rows) e.acc.items e.elem := by
  have htries : (svc.tries call s).length ≤ svc.maxRetries.toNat :=
    (length_visits_le _ _).trans_eq List.length_range
  constructor
  · rintro ⟨result, s', h, hpromise⟩ e he
    have hfits := halts_generate_iff.mp ⟨result, s', h⟩
    have hmade := made_of_generate h
    exact ⟨hfits e he, hmade.kept.mp hpromise.kept e he, hmade.distinct.mp hpromise.distinct e he⟩
  · intro hsteps
    obtain ⟨result, s', h⟩ := halts_generate_iff.mpr fun e he => (hsteps e he).1
    have hmade := made_of_generate h
    exact ⟨result, s', h, hmade.count, htries, hmade.kept.mpr fun e he => (hsteps e he).2.1,
      hmade.distinct.mpr fun e he => (hsteps e he).2.2⟩

/-- One candidate, written twice. -/
def twiceWritten : List Value :=
  List.replicate 2 (.dict [("question_text", .str "TCP의 연결 방식은?"),
    ("choices", .list [.str "3-way", .str "2-way"]), ("answer", .str "3-way")])

/-- An index that finds the same two items for every text, neither of them close to it. -/
def distantHits : ItemIndex where
  searchSimilar _ := [⟨"Q-1", 6 / 10⟩, ⟨"Q-2", 1 / 2⟩]
  sorted _ := List.pairwise_pair.mpr (by decide +kernel)

/-- A model that writes the same question twice in one reply. -/
def repeatingWriter : AssessmentGenerateService where
  llm _ _ := .ok ("\x7b\"items\": [\x7b\"question_text\": \"TCP의 연결 방식은?\", " ++
    "\"choices\": [\"3-way\", \"2-way\"], \"answer\": \"3-way\"\x7d, " ++
    "\x7b\"question_text\": \"TCP의 연결 방식은?\", " ++
    "\"choices\": [\"3-way\", \"2-way\"], \"answer\": \"3-way\"\x7d]\x7d")
  loads _ := .ok (.dict [("items", .list twiceWritten)])
  text := {
    lower := fun s => String.ofList (s.toList.map Char.toLower)
    repr := Value.typeName
    lower_infix := toLower_infix }
  similarity := ⟨fun _ _ => 0, {}, id⟩
  validator := doubting
  itemIndex := some distantHits
  newId made := "00000000000" ++ toString made

/-- Neither of the two is close to what the index finds, and both are returned. -/
theorem repeated_question_kept : ¬ ∀ svc call s, ∃ result s',
    AssessmentGenerateService.generate svc call s = .ok result s' ∧
      Guarantees svc call s result := by
  intro h
  obtain ⟨result, s', hrun, hpromise⟩ := h repeatingWriter
    { domainId := "acme", criteria := { subject := "network", count := 2 }, validate := false }
    ⟨0, ⟨.empty⟩⟩
  have htexts : ((repeatingWriter.generate
      { domainId := "acme", criteria := { subject := "network", count := 2 }, validate := false }
      |>.result? ⟨0, ⟨.empty⟩⟩).map fun r => r.items.map (·.questionText)) =
      some ["TCP의 연결 방식은?", "TCP의 연결 방식은?"] := by decide +kernel
  rw [Program.result?, hrun, Option.map_some, Option.some.injEq] at htexts
  have hdistinct := hpromise.distinct
  rw [htexts] at hdistinct
  exact absurd hdistinct (by decide)

end Promise

end DomainRag.Assessment
