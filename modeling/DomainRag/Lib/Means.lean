import Mathlib.Algebra.BigOperators.Group.List.Basic
import Mathlib.Algebra.BigOperators.Ring.List
import Mathlib.Algebra.CharZero.Defs
import Mathlib.Algebra.Field.Basic
import Mathlib.Algebra.Field.Rat
import Mathlib.Tactic.LinearCombination
import Mathlib.Tactic.NormNum
import Mathlib.Tactic.Ring

/-! # The mean of means

The mean of the means of some samples is the mean of all their members if the sizes of the samples do
not go along with their means. Where the mean of a sample leaves members out, their distances from it
count as well.
-/

namespace DomainRag.Means

variable {K : Type} [Field K]

def mean (xs : List K) : K := xs.sum / xs.length

/-- The mean of some numbers, if there are any. -/
def mean? (xs : List K) : Option K := if xs.isEmpty then none else some (mean xs)

theorem mean?_of_ne_nil {xs : List K} (h : xs ≠ []) : mean? xs = some (mean xs) := by
  rw [mean?, if_neg (mt List.isEmpty_iff.mp h)]

/-- Some numbers, of which the first are averaged. -/
structure Sample (K : Type) where
  averaged : List K
  omitted : List K := []

def Sample.members (g : Sample K) : List K := g.averaged ++ g.omitted

/-- What the sizes of the samples and the omitted members add to the mean of the means, with the
sizes taken against the mean size. -/
def skew (gs : List (Sample K)) : K :=
  (gs.map fun g =>
    ((gs.length : K) * g.members.length - (gs.flatMap Sample.members).length) * mean g.averaged +
      (gs.length : K) * (g.omitted.map fun x => x - mean g.averaged).sum).sum

variable [CharZero K] {gs : List (Sample K)}

theorem length_mul_mean {xs : List K} (h : xs ≠ []) : xs.length * mean xs = xs.sum := by
  have hlength : (xs.length : K) ≠ 0 := Nat.cast_ne_zero.mpr (mt List.length_eq_zero_iff.mp h)
  rw [mean, mul_div_cancel₀ _ hlength]

omit [CharZero K] in
theorem sum_sub (xs : List K) (m : K) : (xs.map fun x => x - m).sum = xs.sum - xs.length * m := by
  induction xs with
  | nil => simp
  | cons x xs ih =>
    rw [List.map_cons, List.sum_cons, List.sum_cons, ih, List.length_cons, Nat.cast_succ]
    ring

/-- The sum behind the skew, with any two factors. -/
theorem sum_weighed (a b : K) (h : ∀ g ∈ gs, g.averaged ≠ []) :
    (gs.map fun g => (a * g.members.length - b) * mean g.averaged +
      a * (g.omitted.map fun x => x - mean g.averaged).sum).sum =
      a * (gs.flatMap Sample.members).sum - b * (gs.map fun g => mean g.averaged).sum := by
  induction gs with
  | nil => simp
  | cons g gs ih =>
    obtain ⟨hg, hgs⟩ := List.forall_mem_cons.mp h
    have hmean := length_mul_mean hg
    rw [List.map_cons, List.sum_cons, ih hgs, List.flatMap_cons, List.sum_append, List.map_cons,
      List.sum_cons, sum_sub, Sample.members, List.length_append, List.sum_append, ← hmean,
      Nat.cast_add]
    ring

theorem skew_eq (h : ∀ g ∈ gs, g.averaged ≠ []) : skew gs =
    gs.length * (gs.flatMap Sample.members).sum -
      (gs.flatMap Sample.members).length * (gs.map fun g => mean g.averaged).sum :=
  sum_weighed _ _ h

/-- The mean of the means is the mean of all members exactly if nothing is skewed. -/
theorem mean?_means_iff (h : ∀ g ∈ gs, g.averaged ≠ []) :
    mean? (gs.map fun g => mean g.averaged) = mean? (gs.flatMap Sample.members) ↔ skew gs = 0 := by
  cases gs with
  | nil => exact iff_of_true rfl rfl
  | cons g gs =>
    have hmeans : ((g :: gs).map fun g => mean g.averaged) ≠ [] := by simp
    have hmembers : (g :: gs).flatMap Sample.members ≠ [] := by
      rw [List.flatMap_cons, Sample.members]
      exact List.append_ne_nil_of_left_ne_nil
        (List.append_ne_nil_of_left_ne_nil (h g List.mem_cons_self) _) _
    have hnumber : ((g :: gs).length : K) ≠ 0 := Nat.cast_ne_zero.mpr (Nat.succ_ne_zero _)
    have hsize : (((g :: gs).flatMap Sample.members).length : K) ≠ 0 :=
      Nat.cast_ne_zero.mpr (mt List.length_eq_zero_iff.mp hmembers)
    rw [mean?_of_ne_nil hmeans, mean?_of_ne_nil hmembers, Option.some.injEq, skew_eq h, sub_eq_zero,
      mean, mean, List.length_map, div_eq_div_iff hnumber hsize]
    constructor
    · intro heq
      linear_combination -heq
    · intro heq
      linear_combination -heq

/-- One number and three others weigh the same in the mean of their means. -/
example : skew ([⟨[1], []⟩, ⟨[1 / 2, 1 / 2, 1 / 2], []⟩] : List (Sample ℚ)) ≠ 0 := by
  norm_num [skew, mean, Sample.members]

end DomainRag.Means
