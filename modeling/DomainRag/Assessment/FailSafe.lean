import DomainRag.Assessment.Validator
import Mathlib.Algebra.Order.Ring.Rat
import Mathlib.Tactic.Linarith

/-! # When validation fails safe

An item should be reviewed exactly if every validator that is on has called it valid with a score of
at least one half. A reply whose JSON has another shape raises, and a verdict or a score of another
type may be taken for a good one.
-/

namespace DomainRag.Assessment

open Program

section Scores

theorem one_le_roundToFloat {n : Nat} (h : 0 < n) : 1 ≤ roundToFloat n := by
  have hunit : 2 ^ (n.log2 - 52) ≤ n :=
    (Nat.pow_le_pow_right (by decide) (Nat.sub_le _ _)).trans (Nat.log2_self_le h.ne')
  have hq : 1 ≤ n / 2 ^ (n.log2 - 52) := Nat.div_pos hunit (Nat.two_pow_pos _)
  rw [roundToFloat]
  split
  · exact Nat.mul_pos (Nat.succ_pos _) (Nat.two_pow_pos _)
  · exact Nat.mul_pos hq (Nat.two_pow_pos _)

/-- A number is low after its conversion if it was low before. -/
theorem low_toFloat {parse : String → Option Score} {v : Reply} {given score : Score}
    (hv : v.number? = some given)
    (hscore : (v.orElse (.float (.number 0))).toFloat parse = .ok score) :
    score.low = given.low := by
  cases v with
  | float x =>
    cases hv
    by_cases hzero : given = .number 0
    · subst hzero
      cases hscore
      rfl
    · rw [Reply.orElse, Reply.truthy, if_pos (decide_eq_true hzero)] at hscore
      cases hscore
      rfl
  | int n =>
    cases hv
    by_cases hzero : n = 0
    · subst hzero
      cases hscore
      rfl
    · rw [Reply.orElse, Reply.truthy, if_pos (decide_eq_true hzero), Reply.toFloat,
        floatOfInt] at hscore
      split at hscore
      case isFalse => cases hscore
      case isTrue =>
        cases hscore
        have hround : (1 : Rat) ≤ roundToFloat n.natAbs := by
          exact_mod_cast one_le_roundToFloat (Int.natAbs_pos.mpr hzero)
        rw [Score.low, Score.low, decide_eq_decide]
        split
        case isTrue hneg =>
          have hn : (n : Rat) < 0 := by exact_mod_cast hneg
          constructor <;> intro <;> linarith
        case isFalse hpos =>
          have hn : (1 : Rat) ≤ n := by
            have hone : 1 ≤ n := by omega
            exact_mod_cast hone
          constructor <;> intro <;> linarith
  | _ => cases hv

/-- A score that is a number is at least one half if it is not below it. -/
theorem half_le_iff {score : Score} :
    (Score.number (1 / 2)).le score = true ↔ score.low = false ∧ score ≠ .nan := by
  cases score with
  | number q =>
    rw [Score.le, Score.low, decide_eq_true_iff, decide_eq_false_iff_not, not_lt]
    exact (and_iff_left nofun).symm
  | infinity negative => cases negative <;> decide
  | nan => decide

end Scores

/-- The value in a reply that could be read. -/
def Attempt.reply? (a : Attempt) : Option Reply := if a.err.isNone then some a.parsed else none

def Verdicts.objects (acc : Verdicts) : Bool := acc.anyInvalid || acc.anyLow

/-- What a reply should say of a valid item. -/
structure Accepts (v : Reply) : Prop where
  object : v.isDict = true
  valid : v.field "valid" (.bool false) = .bool true
  score : ∃ score, (v.field "score" (.float (.number 0))).number? = some score ∧
    (Score.number (1 / 2)).le score = true

/-- The verdict of a reply is a truth value, and its score is a number. -/
structure Typed (v : Reply) : Prop where
  valid : v.field "valid" (.bool false) = .bool true
  score : ∃ score, (v.field "score" (.float (.number 0))).number? = some score ∧ score ≠ .nan

namespace AssessmentValidator

variable {x : AssessmentValidator} {item : ValidatedItem} {cfg : ValidatorsConfig}
  {name : ValidatorName} {names : List ValidatorName} {acc acc' : Verdicts} {v : Reply}
  {call call' : Nat}

section Judging

/-- The score that a reply is taken to have. -/
def scoreOf (x : AssessmentValidator) (v : Reply) : Except Exc Score :=
  ((v.field "score" (.float (.number 0))).orElse (.float (.number 0))).toFloat x.float

/-- A reply that a validator can read: an object with a score that is empty or can be converted, and
suggestions that are empty or can be gone through. -/
structure Readable (x : AssessmentValidator) (v : Reply) : Prop where
  object : v.isDict = true
  score : Returns (x.scoreOf v)
  suggestions : (v.field "suggestions" .null).Loops

/-- A reply that is taken for a good one. -/
structure Passes (x : AssessmentValidator) (v : Reply) : Prop where
  valid : (v.field "valid" (.bool false)).truthy = true
  score : ∃ score, x.scoreOf v = .ok score ∧ score.low = false

theorem accepts_iff (h : x.Readable v) : Accepts v ↔ x.Passes v ∧ Typed v := by
  obtain ⟨score, hscore⟩ := h.score
  constructor
  · rintro ⟨-, hvalid, given, hgiven, hhalf⟩
    obtain ⟨hlow, hnan⟩ := half_le_iff.mp hhalf
    refine ⟨⟨?_, score, hscore, ?_⟩, hvalid, given, hgiven, hnan⟩
    · rw [hvalid]
      rfl
    · rw [low_toFloat hgiven hscore, hlow]
  · rintro ⟨⟨-, score', hscore', hlow'⟩, hvalid, given, hgiven, hnan⟩
    refine ⟨h.object, hvalid, given, hgiven, half_le_iff.mpr ⟨?_, hnan⟩⟩
    rw [← low_toFloat hgiven hscore', hlow']

theorem judge_eq_ok {raw : String} {r : ValidatorRunResult} (h : x.judge name raw v = .ok r) :
    x.Readable v ∧ r.valid = (v.field "valid" (.bool false)).truthy ∧ x.scoreOf v = .ok r.score := by
  obtain ⟨valid, hvalid, h⟩ := Except.bind_eq_ok_iff.mp h
  obtain ⟨given, hgiven, h⟩ := Except.bind_eq_ok_iff.mp h
  obtain ⟨score, hscore, h⟩ := Except.bind_eq_ok_iff.mp h
  obtain ⟨reasoning, -, h⟩ := Except.bind_eq_ok_iff.mp h
  obtain ⟨suggested, hsuggested, h⟩ := Except.bind_eq_ok_iff.mp h
  obtain ⟨suggestions, hsuggestions, h⟩ := Except.bind_eq_ok_iff.mp h
  cases h
  obtain ⟨hobject, rfl⟩ := Reply.getD_eq_ok_iff.mp hvalid
  obtain ⟨-, rfl⟩ := Reply.getD_eq_ok_iff.mp hgiven
  obtain ⟨-, rfl⟩ := Reply.getD_eq_ok_iff.mp hsuggested
  exact ⟨⟨hobject, ⟨score, hscore⟩, Reply.loops_iff.mpr ⟨suggestions, hsuggestions⟩⟩, rfl, hscore⟩

theorem returns_judge_iff {raw : String} : Returns (x.judge name raw v) ↔ x.Readable v := by
  constructor
  · rintro ⟨r, hr⟩
    exact (judge_eq_ok hr).1
  · rintro ⟨hobject, hscore, hsuggestions⟩
    rw [judge, Reply.returns_getD_bind_iff, Reply.returns_getD_bind_iff, returns_bind_iff]
    obtain ⟨score, hscore⟩ := hscore
    refine ⟨hobject, hobject, score, hscore, ?_⟩
    rw [Reply.returns_getD_bind_iff, Reply.returns_getD_bind_iff, returns_bind_iff]
    obtain ⟨suggestions, hsuggestions⟩ := Reply.loops_iff.mp hsuggestions
    exact ⟨hobject, hobject, suggestions, hsuggestions, returns_pure _⟩

end Judging

section Calls

/-- The last reply to a prompt in the calls from number `call` on, and the number of the call after
it. -/
def lastReply (x : AssessmentValidator) (prompt : String) (call : Nat) : Attempt × Nat :=
  let first := x.attempt {} (x.generate call prompt)
  if first.err.isNone then (first, call + 1)
  else (x.attempt first (x.generate (call + 1) prompt), call + 2)

theorem attempts_succ (prompt : String) (tries call : Nat) (before : Attempt) :
    x.attempts prompt (tries + 1) before call =
      let after := x.attempt before (x.generate call prompt)
      if after.err.isNone then .ok after (call + 1)
      else x.attempts prompt tries after (call + 1) := by
  rw [attempts, get_bind_apply]
  have hset : ∀ f : PUnit → LlmTask Attempt, (set (call + 1) >>= f) call = f ⟨⟩ (call + 1) :=
    fun _ => rfl
  rw [hset]
  dsimp only
  split <;> rfl

theorem attempts_eq_lastReply (prompt : String) (call : Nat) :
    x.attempts prompt 2 {} call = .ok (x.lastReply prompt call).1 (x.lastReply prompt call).2 := by
  rw [attempts_succ, lastReply]
  dsimp only
  split
  · rfl
  · rw [attempts_succ]
    dsimp only
    split <;> rfl

theorem lastReply_le (prompt : String) (call : Nat) : (x.lastReply prompt call).2 ≤ call + 2 := by
  rw [lastReply]
  split <;> simp

/-- What the model replies to the validators that are on, and the number of the call after that. -/
def replies (x : AssessmentValidator) (item : ValidatedItem) (cfg : ValidatorsConfig) :
    List ValidatorName → (call : Nat) → List (Option Reply) × Nat
  | [], call => ([], call)
  | name :: names, call =>
    if isEnabled cfg name then
      let (a, mid) := x.lastReply (x.prompt item name) call
      let (rs, last) := x.replies item cfg names mid
      (a.reply? :: rs, last)
    else x.replies item cfg names call

theorem replies_le (names : List ValidatorName) (call : Nat) :
    (x.replies item cfg names call).2 ≤ call + 2 * (names.filter (isEnabled cfg)).length := by
  induction names generalizing call with
  | nil => simp [replies]
  | cons name names ih =>
    rw [replies, List.filter_cons]
    split
    · have hle := lastReply_le (x := x) (x.prompt item name) call
      have hrest := ih (x.lastReply (x.prompt item name) call).2
      dsimp only
      rw [List.length_cons]
      omega
    · exact ih call

end Calls

section Runs

theorem returns_addReply_iff {a : Attempt} :
    Returns (x.addReply acc name a) ↔ ∀ v, a.reply? = some v → x.Readable v := by
  obtain ⟨raw, parsed, err⟩ := a
  rw [addReply, Attempt.reply?]
  cases err with
  | some err => exact ⟨fun _ => nofun, fun _ => returns_pure _⟩
  | none =>
    rw [returns_bind_iff]
    constructor
    · rintro ⟨r, hr, -⟩ v ⟨⟩
      exact (judge_eq_ok hr).1
    · intro h
      obtain ⟨r, hr⟩ := returns_judge_iff.mpr (h parsed rfl)
      exact ⟨r, hr, returns_pure _⟩

/-- A validator objects to a reply that does not pass. -/
theorem objects_addReply {a : Attempt} (h : x.addReply acc name a = .ok acc') :
    acc'.objects = false ↔ acc.objects = false ∧ ∃ v, a.reply? = some v ∧ x.Passes v := by
  obtain ⟨raw, parsed, err⟩ := a
  rw [addReply] at h
  cases err with
  | some err =>
    cases h
    simp [Verdicts.objects, Attempt.reply?]
  | none =>
    obtain ⟨r, hr, h⟩ := Except.bind_eq_ok_iff.mp h
    cases h
    obtain ⟨-, hvalid, hscore⟩ := judge_eq_ok hr
    have hreply : ∀ v, Attempt.reply? ⟨raw, parsed, none⟩ = some v ↔ parsed = v :=
      fun v => Option.some_inj
    have hpasses : x.Passes parsed ↔ r.valid = true ∧ r.score.low = false := by
      rw [hvalid]
      constructor
      · rintro ⟨hvalid, score, hscore', hlow⟩
        cases hscore.symm.trans hscore'
        exact ⟨hvalid, hlow⟩
      · rintro ⟨hvalid, hlow⟩
        exact ⟨hvalid, r.score, hscore, hlow⟩
    simp only [hreply, exists_eq_left', hpasses, Verdicts.objects, Bool.or_eq_false_iff,
      Bool.not_eq_false']
    tauto

theorem runValidator_of_disabled (h : isEnabled cfg name = false) :
    x.runValidator item cfg acc name call =
      .ok { acc with results := acc.results.set name { name := name, enabled := false } } call := by
  rw [runValidator, h]
  rfl

theorem runValidator_of_enabled (h : isEnabled cfg name = true) :
    x.runValidator item cfg acc name call =
      Program.ofExcept (x.addReply acc name (x.lastReply (x.prompt item name) call).1)
        (x.lastReply (x.prompt item name) call).2 := by
  rw [runValidator, if_neg (by simp [h]), bind_apply (attempts_eq_lastReply _ _)]

theorem halts_foldlM_iff : Halts (names.foldlM (x.runValidator item cfg) acc) call ↔
    ∀ v, some v ∈ (x.replies item cfg names call).1 → x.Readable v := by
  induction names generalizing acc call with
  | nil => exact ⟨fun _ => nofun, fun _ => ⟨acc, call, rfl⟩⟩
  | cons name names ih =>
    rw [List.foldlM_cons, halts_bind_iff, replies]
    cases henabled : isEnabled cfg name with
    | false =>
      rw [runValidator_of_disabled henabled, if_neg Bool.false_ne_true]
      constructor
      · rintro ⟨mid, t, ⟨⟩, h⟩
        exact ih.mp h
      · exact fun h => ⟨_, _, rfl, ih.mpr h⟩
    | true =>
      rw [runValidator_of_enabled henabled, if_pos rfl]
      simp only [ofExcept_eq_ok_iff, List.mem_cons]
      constructor
      · rintro ⟨mid, t, ⟨hmid, rfl⟩, h⟩ v (hv | hv)
        · exact returns_addReply_iff.mp ⟨mid, hmid⟩ v hv.symm
        · exact ih.mp h v hv
      · intro h
        obtain ⟨mid, hmid⟩ := (returns_addReply_iff (x := x)).mpr fun v hv => h v (.inl hv.symm)
        exact ⟨mid, _, ⟨hmid, rfl⟩, ih.mpr fun v hv => h v (.inr hv)⟩

/-- A run over the validators uses the calls of its replies, and objects if one of them does not
pass. -/
theorem foldlM_eq_ok (h : names.foldlM (x.runValidator item cfg) acc call = .ok acc' call') :
    call' = (x.replies item cfg names call).2 ∧
    (acc'.objects = false ↔ acc.objects = false ∧
      ∀ r ∈ (x.replies item cfg names call).1, ∃ v, r = some v ∧ x.Passes v) := by
  induction names generalizing acc call with
  | nil =>
    cases h
    exact ⟨rfl, by simp [replies]⟩
  | cons name names ih =>
    rw [List.foldlM_cons, Program.bind_eq_ok_iff] at h
    obtain ⟨mid, t, hmid, h⟩ := h
    obtain ⟨hcall, hobjects⟩ := ih h
    rw [replies]
    cases henabled : isEnabled cfg name with
    | false =>
      rw [runValidator_of_disabled henabled] at hmid
      cases hmid
      rw [if_neg Bool.false_ne_true]
      exact ⟨hcall, hobjects⟩
    | true =>
      rw [runValidator_of_enabled henabled, ofExcept_eq_ok_iff] at hmid
      obtain ⟨hmid, rfl⟩ := hmid
      rw [if_pos rfl]
      refine ⟨hcall, ?_⟩
      rw [hobjects, objects_addReply hmid, List.forall_mem_cons, and_assoc]

end Runs

end AssessmentValidator

section Promise

variable {x : AssessmentValidator} {item : ValidatedItem} {config : Option ValidatorsConfig}
  {call : Nat}

/-- The last replies to the validators that are on, where a reply that could not be read is nothing. -/
def repliesTo (x : AssessmentValidator) (item : ValidatedItem) (config : Option ValidatorsConfig)
    (call : Nat) : List (Option Reply) :=
  (x.replies item (config.getD .empty) validatorNames call).1

def enabledNames (config : Option ValidatorsConfig) : List ValidatorName :=
  validatorNames.filter (AssessmentValidator.isEnabled (config.getD .empty))

def AllAccept (replies : List (Option Reply)) : Prop := ∀ r ∈ replies, ∃ v, r = some v ∧ Accepts v

/-- The validators return after at most two calls each, and the item is reviewed exactly if all of
them accept it. -/
def FailsSafe (x : AssessmentValidator) (item : ValidatedItem) (config : Option ValidatorsConfig)
    (call : Nat) : Prop :=
  ∃ outcome call', x.validate item config call = .ok outcome call' ∧
    call' ≤ call + 2 * (enabledNames config).length ∧
    (AllAccept (repliesTo x item config call) → outcome.qualityStatus = "reviewed") ∧
    (¬ AllAccept (repliesTo x item config call) → outcome.qualityStatus = "draft")

theorem validate_eq_ok_iff {outcome : ValidationOutcome} {call' : Nat} :
    x.validate item config call = .ok outcome call' ↔ ∃ acc,
      validatorNames.foldlM (x.runValidator item (config.getD .empty)) {} call = .ok acc call' ∧
      outcome = {
        qualityStatus := if acc.objects then "draft" else "reviewed"
        qualityScore := if acc.scores = [] then .number 1 else x.mean acc.scores
        validatorResults := acc.results.mapValues fun _ r => r.summary } := by
  rw [AssessmentValidator.validate, Program.bind_eq_ok_iff]
  constructor
  · rintro ⟨acc, t, hacc, h⟩
    cases h
    exact ⟨acc, hacc, rfl⟩
  · rintro ⟨acc, hacc, rfl⟩
    exact ⟨acc, call', hacc, rfl⟩

/-- Validation fails safe if every reply can be read, and those of an item that would pass are of the
expected types. -/
theorem failsSafe_iff : FailsSafe x item config call ↔
    (∀ v, some v ∈ repliesTo x item config call → x.Readable v) ∧
    ((∀ r ∈ repliesTo x item config call, ∃ v, r = some v ∧ x.Passes v) →
      ∀ v, some v ∈ repliesTo x item config call → Typed v) := by
  have hhalts : Halts (validatorNames.foldlM (x.runValidator item (config.getD .empty)) {}) call ↔
      ∀ v, some v ∈ repliesTo x item config call → x.Readable v :=
    AssessmentValidator.halts_foldlM_iff
  constructor
  · rintro ⟨outcome, call', hrun, -, -, hdraft⟩
    obtain ⟨acc, hacc, rfl⟩ := validate_eq_ok_iff.mp hrun
    have hreadable := hhalts.mp ⟨acc, call', hacc⟩
    refine ⟨hreadable, fun hpass v hv => ?_⟩
    have hobjects := (AssessmentValidator.foldlM_eq_ok hacc).2.mpr ⟨rfl, hpass⟩
    rw [hobjects] at hdraft
    have haccept : AllAccept (repliesTo x item config call) := by
      by_contra hnot
      exact absurd (show "reviewed" = "draft" from hdraft hnot) (by decide)
    obtain ⟨w, hw, hacceptw⟩ := haccept _ hv
    cases hw
    exact ((AssessmentValidator.accepts_iff (hreadable v hv)).mp hacceptw).2
  · rintro ⟨hreadable, htyped⟩
    obtain ⟨acc, call', hacc⟩ := hhalts.mpr hreadable
    obtain ⟨hcall, hobjects⟩ := AssessmentValidator.foldlM_eq_ok hacc
    have haccept : AllAccept (repliesTo x item config call) ↔ acc.objects = false := by
      refine Iff.trans ?_ (hobjects.trans (and_iff_right rfl)).symm
      constructor
      · intro hall r hr
        obtain ⟨v, rfl, hv⟩ := hall r hr
        exact ⟨v, rfl, ((AssessmentValidator.accepts_iff (hreadable v hr)).mp hv).1⟩
      · intro hall r hr
        obtain ⟨v, rfl, hv⟩ := hall r hr
        exact ⟨v, rfl, (AssessmentValidator.accepts_iff (hreadable v hr)).mpr ⟨hv, htyped hall v hr⟩⟩
    refine ⟨_, call', validate_eq_ok_iff.mpr ⟨acc, hacc, rfl⟩, ?_, fun hall => ?_, fun hnot => ?_⟩
    · rw [hcall]
      exact AssessmentValidator.replies_le validatorNames call
    · rw [haccept.mp hall]
      rfl
    · rw [haccept, Bool.not_eq_false] at hnot
      rw [hnot]
      rfl

/-- A reply whose verdict is the text `false`. -/
def doubtfulReply : Reply :=
  .dict [("valid", .str "false"), ("score", .float (.number (9 / 10)))]

def doubting : AssessmentValidator where
  generate _ _ := .ok "\x7b\"valid\": \"false\", \"score\": 0.9\x7d"
  json := ⟨fun _ => .ok doubtfulReply, fun _ => .ok doubtfulReply⟩
  float _ := none
  mean scores := scores.headD .nan
  repr _ := ""
  reprReply _ := ""

def plainItem : ValidatedItem := ⟨"TCP의 연결 방식은?", [.str "3-way", .str "2-way"], "3-way", none, none⟩

/-- The text is taken for a truth value, and the item is reviewed. -/
theorem false_text_reviewed : ¬ ∀ x item config call, FailsSafe x item config call := by
  intro h
  obtain ⟨outcome, call', hrun, -, -, hdraft⟩ := h doubting plainItem none 0
  have hstatus : ((doubting.validate plainItem none).result? 0).map (·.qualityStatus) =
      some "reviewed" := by decide +kernel
  rw [Program.result?, hrun, Option.map_some, Option.some.injEq] at hstatus
  have hmem : some doubtfulReply ∈ repliesTo doubting plainItem none 0 :=
    List.mem_of_mem_head? rfl
  have hnot : ¬ AllAccept (repliesTo doubting plainItem none 0) := by
    intro hall
    obtain ⟨v, hv, haccept⟩ := hall _ hmem
    cases hv
    exact nomatch haccept.valid
  rw [hdraft hnot] at hstatus
  exact absurd hstatus (by decide)

end Promise

end DomainRag.Assessment
