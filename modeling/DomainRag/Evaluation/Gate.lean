import DomainRag.Assessment.Validator
import DomainRag.Lib.Except

/-! # The promotion gate

A gate compares the metrics of an evaluation with the bounds that an operator wrote. A metric with
two bounds is compared with its minimum only, and a metric that the evaluation does not have counts
as zero.
-/

namespace DomainRag.Evaluation

open Assessment (Score floatOfInt)

inductive BoundKind where
  | min
  | max
  | none
  deriving DecidableEq

/-- How a metric stands to a bound of the kind. -/
def BoundKind.holds : BoundKind → (actual bound : Score) → Bool
  | min, actual, bound => bound.le actual
  | max, actual, bound => actual.le bound
  | none, _, _ => true

structure GateMetricResult where
  name : String
  actual : Score
  bound : Score
  boundKind : BoundKind
  passed : Bool
  deriving DecidableEq

structure GateResult where
  passed : Bool
  metrics : List GateMetricResult := []
  autoPromote : Bool := false
  deriving DecidableEq

inductive SummaryValue where
  | int (n : Int)
  | float (x : Score)
  deriving DecidableEq

def SummaryValue.toFloat : SummaryValue → Except Exc Score
  | int n => floatOfInt n
  | float x => .ok x

structure EvaluationSummary where
  totalCases : Int
  retrievalRecallAt5 : Score
  citationAccuracy : Score
  unsupportedRatio : Score
  fallbackRate : Score
  passCount : Int
  failCount : Int

def EvaluationSummary.toDict (s : EvaluationSummary) : Dict String SummaryValue where
  entries :=
    [("total_cases", .int s.totalCases),
     ("retrieval_recall_at_5", .float s.retrievalRecallAt5),
     ("citation_accuracy", .float s.citationAccuracy),
     ("unsupported_ratio", .float s.unsupportedRatio),
     ("fallback_rate", .float s.fallbackRate),
     ("pass_count", .int s.passCount),
     ("fail_count", .int s.failCount)]
  nodup := by
    simp only [List.map_cons, List.map_nil]
    decide

structure Bounds where
  min : Option Score := none
  max : Option Score := none

structure PromotionGate where
  metrics : Dict String Bounds
  autoPromote : Bool := false

def metricResult (name : String) (bounds : Bounds) (actual : Score) : GateMetricResult :=
  match bounds.min with
  | some bound =>
    { name, actual, bound, boundKind := .min, passed := bound.le actual }
  | none => match bounds.max with
    | some bound =>
      { name, actual, bound, boundKind := .max, passed := actual.le bound }
    | none =>
      { name, actual, bound := .number 0, boundKind := .none, passed := true }

def actualOf (summary : EvaluationSummary) (name : String) : Except Exc Score :=
  ((summary.toDict.get? name).getD (.float (.number 0))).toFloat

def evaluateLoop (summary : EvaluationSummary) :
    List (String × Bounds) → List GateMetricResult × Bool →
      Except Exc (List GateMetricResult × Bool)
  | [], s => .ok s
  | (name, bounds) :: rest, (results, allPass) => do
    let actual ← actualOf summary name
    let result := metricResult name bounds actual
    evaluateLoop summary rest (results ++ [result], if result.passed then allPass else false)

def PromotionGate.evaluate (gate : PromotionGate) (summary : EvaluationSummary) :
    Except Exc GateResult := do
  let (metrics, passed) ← evaluateLoop summary gate.metrics.entries ([], true)
  return { passed, metrics, autoPromote := gate.autoPromote }

section Results

variable (summary : EvaluationSummary)

/-- The bounds of a metric, the one that is checked first. -/
def Bounds.all (bounds : Bounds) : List (BoundKind × Score) :=
  (bounds.min.map (BoundKind.min, ·)).toList ++ (bounds.max.map (BoundKind.max, ·)).toList

/-- The evaluation has the metric, and it is within the bound. -/
def Satisfied (name : String) (bound : BoundKind × Score) : Prop :=
  ∃ v, summary.toDict.get? name = some v ∧ ∃ x, v.toFloat = .ok x ∧ bound.1.holds x bound.2 = true

/-- The verdict tells whether every metric exists and satisfies its bounds, and every bound that
fails is among the results. -/
structure Judged (gate : PromotionGate) (r : GateResult) : Prop where
  passed : r.passed = true ↔ ∀ e ∈ gate.metrics.entries,
    (summary.toDict.get? e.1).isSome ∧ ∀ b ∈ e.2.all, Satisfied summary e.1 b
  reported : ∀ e ∈ gate.metrics.entries, ∀ b ∈ e.2.all, ¬ Satisfied summary e.1 b →
    ∃ m ∈ r.metrics, m.name = e.1 ∧ m.boundKind = b.1 ∧ m.bound = b.2 ∧ m.passed = false

/-- The configured counts are floats, a metric with two bounds satisfies the maximum, and a metric
that the evaluation lacks is rejected: by its own bound, which zero fails, or, when it has none, by
a bound that is not satisfied. -/
structure Judgeable (gate : PromotionGate) : Prop where
  converts : ∀ e ∈ gate.metrics.entries, ∀ v, summary.toDict.get? e.1 = some v →
    Returns v.toFloat
  both : ∀ e ∈ gate.metrics.entries, ∀ low high, e.2.min = some low → e.2.max = some high →
    Satisfied summary e.1 (.max, high)
  missing : ∀ e ∈ gate.metrics.entries, summary.toDict.get? e.1 = none → ∀ b ∈ e.2.all,
    b.1.holds (.number 0) b.2 = false
  unbounded : (∃ e ∈ gate.metrics.entries, summary.toDict.get? e.1 = none ∧ e.2.all = []) →
    ∃ e ∈ gate.metrics.entries, ∃ b ∈ e.2.all, ¬ Satisfied summary e.1 b

def resultOf (e : String × Bounds) (actual : Score) : GateMetricResult :=
  metricResult e.1 e.2 actual

theorem resultOf_name (e : String × Bounds) (actual : Score) : (resultOf e actual).name = e.1 := by
  simp only [resultOf, metricResult]
  split
  · rfl
  · split <;> rfl

/-- Only the first bound of a metric is checked. -/
theorem resultOf_of_all_eq_cons {e : String × Bounds} {b : BoundKind × Score}
    {bs : List (BoundKind × Score)} (h : e.2.all = b :: bs) (actual : Score) :
    resultOf e actual = ⟨e.1, actual, b.2, b.1, b.1.holds actual b.2⟩ := by
  obtain ⟨name, ⟨_ | low, _ | high⟩⟩ := e
  · simp [Bounds.all] at h
  all_goals
    simp only [Bounds.all, Option.map_some, Option.map_none, Option.toList_some, Option.toList_none,
      List.nil_append, List.append_nil, List.singleton_append, List.cons.injEq] at h
    obtain ⟨rfl, -⟩ := h
    rfl

theorem resultOf_of_all_eq_nil {e : String × Bounds} (h : e.2.all = []) (actual : Score) :
    (resultOf e actual).passed = true := by
  obtain ⟨name, ⟨_ | low, _ | high⟩⟩ := e <;> simp_all [Bounds.all, resultOf, metricResult]

def check (e : String × Bounds) : Except Exc GateMetricResult := do
  let actual ← actualOf summary e.1
  return resultOf e actual

theorem check_eq_ok_iff {e : String × Bounds} {m : GateMetricResult} :
    check summary e = .ok m ↔ ∃ x, actualOf summary e.1 = .ok x ∧ resultOf e x = m := by
  simp [check, Except.bind_eq_ok_iff, pure, Except.pure]

theorem evaluateLoop_eq_ok_iff {entries : List (String × Bounds)}
    {s s' : List GateMetricResult × Bool} : evaluateLoop summary entries s = .ok s' ↔
      ∃ rs, entries.mapM (check summary) = .ok rs ∧
        s' = (s.1 ++ rs, s.2 && rs.all GateMetricResult.passed) := by
  induction entries generalizing s with
  | nil => simp [evaluateLoop, pure, Except.pure, eq_comm]
  | cons e entries ih =>
    have hstep : ∀ (x : Score) (rs : List GateMetricResult),
        (s.1 ++ resultOf e x :: rs, s.2 && (resultOf e x :: rs).all GateMetricResult.passed) =
          ((s.1 ++ [resultOf e x]) ++ rs,
            (if (resultOf e x).passed then s.2 else false) && rs.all GateMetricResult.passed) := by
      intro x rs
      cases hpassed : (resultOf e x).passed <;> simp [hpassed]
    simp only [evaluateLoop, Except.bind_eq_ok_iff, ih, mapM_eq_ok_iff, List.forall₂_cons_left_iff,
      check_eq_ok_iff]
    constructor
    · rintro ⟨x, hx, rs, hrs, rfl⟩
      exact ⟨resultOf e x :: rs, ⟨_, rs, ⟨x, hx, rfl⟩, hrs, rfl⟩, (hstep x rs).symm⟩
    · rintro ⟨_, ⟨_, rs, ⟨x, hx, rfl⟩, hrs, rfl⟩, rfl⟩
      exact ⟨x, hx, rs, hrs, hstep x rs⟩

variable {gate : PromotionGate} {r : GateResult}

theorem evaluate_eq_ok_iff : gate.evaluate summary = .ok r ↔
    ∃ rs, gate.metrics.entries.mapM (check summary) = .ok rs ∧
      r = ⟨rs.all GateMetricResult.passed, rs, gate.autoPromote⟩ := by
  simp only [PromotionGate.evaluate, Except.bind_eq_ok_iff, evaluateLoop_eq_ok_iff]
  constructor
  · rintro ⟨_, ⟨rs, hrs, rfl⟩, h⟩
    cases h
    exact ⟨rs, hrs, by simp⟩
  · rintro ⟨rs, hrs, rfl⟩
    exact ⟨_, ⟨rs, hrs, rfl⟩, by simp [pure, Except.pure]⟩

theorem actualOf_of_get?_eq_none {name : String} (h : summary.toDict.get? name = none) :
    actualOf summary name = .ok (.number 0) := by
  rw [actualOf, h]
  rfl

theorem actualOf_of_get?_eq_some {name : String} {v : SummaryValue}
    (h : summary.toDict.get? name = some v) : actualOf summary name = v.toFloat := by
  rw [actualOf, h]
  rfl

theorem returns_check_iff {e : String × Bounds} : Returns (check summary e) ↔
    ∀ v, summary.toDict.get? e.1 = some v → Returns v.toFloat := by
  have hvalue : Returns (check summary e) ↔ Returns (actualOf summary e.1) := by
    constructor
    · rintro ⟨m, hm⟩
      obtain ⟨x, hx, -⟩ := (check_eq_ok_iff summary).mp hm
      exact ⟨x, hx⟩
    · rintro ⟨x, hx⟩
      exact ⟨resultOf e x, (check_eq_ok_iff summary).mpr ⟨x, hx, rfl⟩⟩
  rw [hvalue]
  cases hget : summary.toDict.get? e.1 with
  | none =>
    rw [actualOf_of_get?_eq_none summary hget]
    exact iff_of_true (returns_ok _) nofun
  | some v => simp [actualOf_of_get?_eq_some summary hget]

theorem returns_evaluate_iff : Returns (gate.evaluate summary) ↔
    ∀ e ∈ gate.metrics.entries, ∀ v, summary.toDict.get? e.1 = some v → Returns v.toFloat := by
  have hmapM : Returns (gate.evaluate summary) ↔
      Returns (gate.metrics.entries.mapM (check summary)) := by
    constructor
    · rintro ⟨r, hr⟩
      obtain ⟨rs, hrs, -⟩ := (evaluate_eq_ok_iff summary).mp hr
      exact ⟨rs, hrs⟩
    · rintro ⟨rs, hrs⟩
      exact ⟨_, (evaluate_eq_ok_iff summary).mpr ⟨rs, hrs, rfl⟩⟩
  rw [hmapM, returns_mapM_iff]
  exact forall₂_congr fun e _ => returns_check_iff summary

section Evaluated

variable (h : gate.evaluate summary = .ok r)

include h

theorem mem_metrics_iff {m : GateMetricResult} :
    m ∈ r.metrics ↔ ∃ e ∈ gate.metrics.entries, check summary e = .ok m := by
  obtain ⟨rs, hrs, rfl⟩ := (evaluate_eq_ok_iff summary).mp h
  constructor
  · exact exists_of_mem_mapM hrs
  · rintro ⟨e, he, hm⟩
    obtain ⟨m', hm', hcheck⟩ := exists_of_mem_forall₂ (mapM_eq_ok_iff.mp hrs) he
    rw [hm, Except.ok.injEq] at hcheck
    exact hcheck ▸ hm'

theorem exists_result {e : String × Bounds} (he : e ∈ gate.metrics.entries) :
    ∃ m ∈ r.metrics, check summary e = .ok m := by
  obtain ⟨m, hm⟩ := (returns_check_iff summary).mpr ((returns_evaluate_iff summary).mp ⟨r, h⟩ e he)
  exact ⟨m, (mem_metrics_iff summary h).mpr ⟨e, he, hm⟩, hm⟩

theorem passed_iff : r.passed = true ↔ ∀ m ∈ r.metrics, m.passed = true := by
  obtain ⟨rs, -, rfl⟩ := (evaluate_eq_ok_iff summary).mp h
  exact List.all_eq_true

end Evaluated

section FirstBound

variable {e : String × Bounds} {m : GateMetricResult} {b : BoundKind × Score}
  {bs : List (BoundKind × Score)}

/-- The first bound decides the result of a metric that the evaluation has. -/
theorem passed_iff_satisfied (hm : check summary e = .ok m) (hall : e.2.all = b :: bs)
    {v : SummaryValue} (hv : summary.toDict.get? e.1 = some v) :
    m.passed = true ↔ Satisfied summary e.1 b := by
  obtain ⟨x, hx, rfl⟩ := (check_eq_ok_iff summary).mp hm
  rw [actualOf_of_get?_eq_some summary hv] at hx
  rw [resultOf_of_all_eq_cons hall]
  constructor
  · intro hpassed
    exact ⟨v, hv, x, hx, hpassed⟩
  · rintro ⟨v', hv', x', hx', hholds⟩
    cases hv.symm.trans hv'
    cases hx.symm.trans hx'
    exact hholds

theorem passed_of_missing (hm : check summary e = .ok m) (hall : e.2.all = b :: bs)
    (hnone : summary.toDict.get? e.1 = none) : m.passed = b.1.holds (.number 0) b.2 := by
  obtain ⟨x, hx, rfl⟩ := (check_eq_ok_iff summary).mp hm
  rw [actualOf_of_get?_eq_none summary hnone, Except.ok.injEq] at hx
  rw [resultOf_of_all_eq_cons hall, ← hx]

theorem not_satisfied_of_missing (hnone : summary.toDict.get? e.1 = none) :
    ¬ Satisfied summary e.1 b := by
  rintro ⟨v, hv, -⟩
  rw [hnone] at hv
  cases hv

theorem both_of_mem_tail (hall : e.2.all = b :: bs) {b' : BoundKind × Score} (hb' : b' ∈ bs) :
    ∃ low high, e.2.min = some low ∧ e.2.max = some high ∧ b = (.min, low) ∧ b' = (.max, high) := by
  obtain ⟨name, ⟨_ | low, _ | high⟩⟩ := e
  · simp [Bounds.all] at hall
  · simp_all [Bounds.all]
  · simp_all [Bounds.all]
  · simp only [Bounds.all, Option.map_some, Option.toList_some, List.singleton_append,
      List.cons.injEq] at hall
    obtain ⟨rfl, rfl⟩ := hall
    exact ⟨low, high, rfl, rfl, rfl, List.mem_singleton.mp hb'⟩

theorem all_eq_of_both {low high : Score} (hlow : e.2.min = some low)
    (hhigh : e.2.max = some high) : e.2.all = [(.min, low), (.max, high)] := by
  simp [Bounds.all, hlow, hhigh]

end FirstBound

section Verdict

variable (h : gate.evaluate summary = .ok r)

include h

/-- A bound that is not satisfied is reported, if the gate can be judged. -/
theorem reported_of_judgeable (hgate : Judgeable summary gate) {e : String × Bounds}
    (he : e ∈ gate.metrics.entries) {b : BoundKind × Score} (hb : b ∈ e.2.all)
    (hfails : ¬ Satisfied summary e.1 b) :
    ∃ m ∈ r.metrics, m.name = e.1 ∧ m.boundKind = b.1 ∧ m.bound = b.2 ∧ m.passed = false := by
  obtain ⟨m, hmem, hm⟩ := exists_result summary h he
  refine ⟨m, hmem, ?_⟩
  cases hall : e.2.all with
  | nil => simp [hall] at hb
  | cons b₀ bs =>
    rw [hall, List.mem_cons] at hb
    rcases hb with rfl | htail
    · have hpassed : m.passed = false := by
        cases hget : summary.toDict.get? e.1 with
        | none =>
          rw [passed_of_missing summary hm hall hget]
          exact hgate.missing e he hget b (by simp [hall])
        | some v =>
          rw [← Bool.not_eq_true, passed_iff_satisfied summary hm hall hget]
          exact hfails
      obtain ⟨x, -, rfl⟩ := (check_eq_ok_iff summary).mp hm
      rw [resultOf_of_all_eq_cons hall] at hpassed ⊢
      exact ⟨rfl, rfl, rfl, hpassed⟩
    · obtain ⟨low, high, hlow, hhigh, -, rfl⟩ := both_of_mem_tail hall htail
      exact absurd (hgate.both e he low high hlow hhigh) hfails

theorem judged_of_judgeable (hgate : Judgeable summary gate) : Judged summary gate r := by
  refine ⟨⟨?_, ?_⟩, fun e he b hb hfails => reported_of_judgeable summary h hgate he hb hfails⟩
  · intro hpassed
    have hall : ∀ e ∈ gate.metrics.entries, ∀ b ∈ e.2.all, Satisfied summary e.1 b := by
      intro e he b hb
      by_contra hfails
      obtain ⟨m, hmem, -, -, -, hm⟩ := reported_of_judgeable summary h hgate he hb hfails
      simp [(passed_iff summary h).mp hpassed m hmem] at hm
    refine fun e he => ⟨?_, hall e he⟩
    rw [Option.isSome_iff_ne_none]
    intro hnone
    cases hbounds : e.2.all with
    | nil =>
      obtain ⟨e', he', b, hb, hfails⟩ := hgate.unbounded ⟨e, he, hnone, hbounds⟩
      exact hfails (hall e' he' b hb)
    | cons b bs =>
      exact not_satisfied_of_missing summary hnone (hall e he b (by simp [hbounds]))
  · intro hqualified
    rw [passed_iff summary h]
    intro m hm
    obtain ⟨e, he, hcheck⟩ := (mem_metrics_iff summary h).mp hm
    obtain ⟨hsome, hbounds⟩ := hqualified e he
    cases hall : e.2.all with
    | nil =>
      obtain ⟨x, -, rfl⟩ := (check_eq_ok_iff summary).mp hcheck
      exact resultOf_of_all_eq_nil hall x
    | cons b bs =>
      obtain ⟨v, hv⟩ := Option.isSome_iff_exists.mp hsome
      exact (passed_iff_satisfied summary hcheck hall hv).mpr (hbounds b (by simp [hall]))

/-- The only result with the name of a metric is its own. -/
theorem check_of_reported {e : String × Bounds} (he : e ∈ gate.metrics.entries)
    {m : GateMetricResult} (hmem : m ∈ r.metrics) (hname : m.name = e.1) :
    check summary e = .ok m := by
  obtain ⟨e', he', hcheck⟩ := (mem_metrics_iff summary h).mp hmem
  obtain ⟨x, -, rfl⟩ := (check_eq_ok_iff summary).mp hcheck
  rw [resultOf_name] at hname
  have heq : e' = e := List.inj_on_of_nodup_map gate.metrics.nodup he' he hname
  exact heq ▸ hcheck

theorem judgeable_of_judged (hjudged : Judged summary gate r) : Judgeable summary gate where
  converts := (returns_evaluate_iff summary).mp ⟨r, h⟩
  both := by
    intro e he low high hlow hhigh
    have hall := all_eq_of_both hlow hhigh
    by_contra hfails
    obtain ⟨m, hmem, hname, hkind, -, -⟩ :=
      hjudged.reported e he (.max, high) (by simp [hall]) hfails
    obtain ⟨x, -, rfl⟩ := (check_eq_ok_iff summary).mp (check_of_reported summary h he hmem hname)
    rw [resultOf_of_all_eq_cons hall] at hkind
    cases hkind
  missing := by
    intro e he hnone b hb
    obtain ⟨m, hmem, hname, hkind, hbound, hpassed⟩ :=
      hjudged.reported e he b hb (not_satisfied_of_missing summary hnone)
    have hcheck := check_of_reported summary h he hmem hname
    cases hall : e.2.all with
    | nil => simp [hall] at hb
    | cons b₀ bs =>
      rw [passed_of_missing summary hcheck hall hnone] at hpassed
      obtain ⟨x, -, rfl⟩ := (check_eq_ok_iff summary).mp hcheck
      rw [resultOf_of_all_eq_cons hall] at hkind hbound
      rw [← hkind, ← hbound]
      exact hpassed
  unbounded := by
    rintro ⟨e, he, hnone, -⟩
    have hfailed : ¬ r.passed = true := by
      intro hpassed
      have hsome := (hjudged.passed.mp hpassed e he).1
      simp [hnone] at hsome
    rw [passed_iff summary h] at hfailed
    push Not at hfailed
    obtain ⟨m, hmem, hm⟩ := hfailed
    obtain ⟨e', he', hcheck⟩ := (mem_metrics_iff summary h).mp hmem
    cases hall : e'.2.all with
    | nil =>
      obtain ⟨x, -, rfl⟩ := (check_eq_ok_iff summary).mp hcheck
      exact absurd (resultOf_of_all_eq_nil hall x) hm
    | cons b bs =>
      refine ⟨e', he', b, by simp [hall], ?_⟩
      rintro ⟨v, hv, hx⟩
      exact hm ((passed_iff_satisfied summary hcheck hall hv).mpr ⟨v, hv, hx⟩)

end Verdict

/-- A gate gives the verdict that its bounds ask for exactly if it can be judged. -/
theorem evaluate_judged_iff (gate : PromotionGate) (summary : EvaluationSummary) :
    (∃ r, gate.evaluate summary = .ok r ∧ Judged summary gate r) ↔ Judgeable summary gate := by
  constructor
  · rintro ⟨r, h, hjudged⟩
    exact judgeable_of_judged summary h hjudged
  · intro hgate
    obtain ⟨r, h⟩ := (returns_evaluate_iff summary).mpr hgate.converts
    exact ⟨r, h, judged_of_judgeable summary h hgate⟩

/-- Half of the answers are unsupported, which the maximum forbids and the minimum allows. -/
def halfUnsupported : EvaluationSummary where
  totalCases := 10
  retrievalRecallAt5 := .number 1
  citationAccuracy := .number 1
  unsupportedRatio := .number (1 / 2)
  fallbackRate := .number 0
  passCount := 5
  failCount := 5

def rangeGate : PromotionGate where
  metrics :=
    ⟨[("unsupported_ratio", { min := some (.number 0), max := some (.number (1 / 5)) })],
      List.nodup_singleton _⟩

theorem rangeGate_promotes_above_max :
    ¬ ∃ r, rangeGate.evaluate halfUnsupported = .ok r ∧ Judged halfUnsupported rangeGate r := by
  rintro ⟨r, h, hjudged⟩
  have heval : rangeGate.evaluate halfUnsupported = .ok
      { passed := true
        metrics :=
          [⟨"unsupported_ratio", .number (1 / 2), .number 0, .min, true⟩] } := by
    decide +kernel
  rw [heval, Except.ok.injEq] at h
  subst h
  have hmax := (hjudged.passed.mp rfl _ List.mem_cons_self).2 (.max, .number (1 / 5))
    (by simp [Bounds.all])
  obtain ⟨v, hv, x, hx, hholds⟩ := hmax
  have hvalue : halfUnsupported.toDict.get? "unsupported_ratio" =
    some (.float (.number (1 / 2))) := by decide +kernel
  cases hvalue.symm.trans hv
  cases hx
  exact absurd hholds (by decide +kernel)

end Results

end DomainRag.Evaluation
