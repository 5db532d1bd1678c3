import Mathlib.Data.List.Range
import Mathlib.Data.List.TakeDrop

/-! # Windows that cover a list

A loop goes over the starts of windows, a fixed step apart, and stops at the first window that
reaches the end. Windows longer than the step overlap, and they cover the list.
-/

namespace Windows

/-- `range(0, stop, step)`, for a positive step. -/
def starts (stop step : Nat) : List Nat := List.range' 0 ((stop + step - 1) / step) step

def ranges (size stop : Nat) : List Nat → List (Nat × Nat)
  | [] => []
  | start :: rest =>
    (start, min (start + size) stop) :: if stop ≤ start + size then [] else ranges size stop rest

/-- A range is followed by one that starts with its last `overlap` positions and goes further. -/
def Follows (overlap : Nat) (r r' : Nat × Nat) : Prop :=
  r'.1 + overlap = r.2 ∧ r.1 < r'.1 ∧ r.2 < r'.2

/-- The ranges, none empty or longer than `size`, go from `start` to `stop`. -/
structure Covers (size overlap start stop : Nat) (rs : List (Nat × Nat)) : Prop where
  first : rs.head?.map Prod.fst = some start
  last : rs.getLast?.map Prod.snd = some stop
  inside : ∀ r ∈ rs, r.1 < r.2 ∧ r.2 ≤ r.1 + size ∧ r.2 ≤ stop
  follows : rs.IsChain (Follows overlap)

section Cover

variable {size overlap start stop : Nat} {r r' : Nat × Nat} {rs : List (Nat × Nat)}

theorem covers_singleton (hne : start < stop) (hsize : stop ≤ start + size) :
    Covers size overlap start stop [(start, stop)] where
  first := rfl
  last := rfl
  inside := by simpa using ⟨hne, hsize⟩
  follows := List.isChain_singleton _

theorem Covers.cons {mid start' mid' : Nat}
    (h : Covers size overlap start' stop ((start', mid') :: rs)) (hinside : start < mid)
    (hsize : mid ≤ start + size) (hstop : mid ≤ stop)
    (hfollows : Follows overlap (start, mid) (start', mid')) :
    Covers size overlap start stop ((start, mid) :: (start', mid') :: rs) where
  first := rfl
  last := by simpa [List.getLast?_cons_cons] using h.last
  inside := List.forall_mem_cons.mpr ⟨⟨hinside, hsize, hstop⟩, h.inside⟩
  follows := h.follows.cons_cons hfollows

/-- Starts a step apart that reach the end give a cover. -/
theorem covers_ranges {step m : Nat} (hstep : 0 < step) (hsize : step ≤ size)
    (hstart : start < stop) (hreach : stop ≤ start + m * step) :
    Covers size (size - step) start stop (ranges size stop (List.range' start m step)) := by
  induction m generalizing start with
  | zero => omega
  | succ m ih =>
    rw [List.range'_succ, ranges]
    split
    · next hlast =>
      rw [Nat.min_eq_right hlast]
      exact covers_singleton hstart hlast
    · next hmore =>
      have hmul : (m + 1) * step = m * step + step := Nat.succ_mul m step
      have hrest := ih (by omega : start + step < stop) (by omega)
      cases m with
      | zero => omega
      | succ m =>
        rw [List.range'_succ, ranges] at hrest ⊢
        apply hrest.cons
        · omega
        · omega
        · omega
        · simp only [Follows]
          omega

theorem covers_starts {step : Nat} (hstep : 0 < step) (hsize : step ≤ size) (hstop : 0 < stop) :
    Covers size (size - step) 0 stop (ranges size stop (starts stop step)) := by
  apply covers_ranges hstep hsize hstop
  have hdiv := Nat.div_add_mod (stop + step - 1) step
  have hmod := Nat.mod_lt (stop + step - 1) hstep
  rw [Nat.mul_comm] at hdiv
  omega

theorem lt_of_mem_starts {step i : Nat} (hstep : 0 < step) (h : i ∈ starts stop step) :
    i < stop := by
  rw [starts, List.mem_range'] at h
  obtain ⟨k, hk, rfl⟩ := h
  have hle : (k + 1) * step ≤ stop + step - 1 :=
    (Nat.le_div_iff_mul_le hstep).mp hk
  rw [Nat.succ_mul, Nat.mul_comm] at hle
  omega

end Cover

section Slices

variable {α : Type*} (xs : List α)

/-- `xs[start:stop]` -/
def slice (r : Nat × Nat) : List α := (xs.take r.2).drop r.1

theorem slice_append_slice {a b c : Nat} (hab : a ≤ b) (hbc : b ≤ c) :
    slice xs (a, b) ++ slice xs (b, c) = slice xs (a, c) := by
  have htake : xs.take b = (xs.take c).take b := by rw [List.take_take, Nat.min_eq_left hbc]
  simp only [slice]
  rw [htake]
  generalize xs.take c = ys
  have hdrop : (ys.drop b).drop (a - (ys.take b).length) = ys.drop b := by
    rw [List.drop_drop, List.drop_eq_drop_iff, List.length_take]
    omega
  calc (ys.take b).drop a ++ ys.drop b
      = (ys.take b ++ ys.drop b).drop a := by rw [List.drop_append, hdrop]
    _ = ys.drop a := by rw [List.take_append_drop]

theorem drop_slice {a b k : Nat} : (slice xs (a, b)).drop k = slice xs (a + k, b) := by
  simp [slice, List.drop_drop]

theorem length_slice {r : Nat × Nat} (h : r.2 ≤ xs.length) : (slice xs r).length = r.2 - r.1 := by
  simp [slice, Nat.min_eq_left h]

/-- The windows, each but the first without what it shares with the one before. -/
def stitch (overlap : Nat) : List (List α) → List α
  | [] => []
  | w :: ws => w ++ ws.flatMap (List.drop overlap)

variable {size overlap start stop : Nat} {rs : List (Nat × Nat)}

/-- A range merges with those that follow it into one range. -/
theorem slice_append_flatMap {r : Nat × Nat} (hle : r.1 ≤ r.2)
    (hfollows : (r :: rs).IsChain (Follows overlap))
    (hlast : (r :: rs).getLast?.map Prod.snd = some stop) :
    slice xs r ++ (rs.map (slice xs)).flatMap (List.drop overlap) = slice xs (r.1, stop) := by
  induction rs generalizing r with
  | nil =>
    have hstop : r.2 = stop := by simpa using hlast
    simp [← hstop]
  | cons r' rs ih =>
    rw [List.isChain_cons_cons] at hfollows
    obtain ⟨⟨hshared, hstart, hend⟩, hrest⟩ := hfollows
    -- the two ranges as one
    have hmerged : ((r.1, r'.2) :: rs).IsChain (Follows overlap) := by
      cases rs with
      | nil => exact List.isChain_singleton _
      | cons r'' rs =>
        rw [List.isChain_cons_cons] at hrest ⊢
        exact ⟨⟨hrest.1.1, hstart.trans hrest.1.2.1, hrest.1.2.2⟩, hrest.2⟩
    have hmergedLast : ((r.1, r'.2) :: rs).getLast?.map Prod.snd = some stop := by
      cases rs with
      | nil => simpa using hlast
      | cons r'' rs => simpa [List.getLast?_cons_cons] using hlast
    have hboth := ih (by simpa using hle.trans hend.le) hmerged hmergedLast
    rw [List.map_cons, List.flatMap_cons, ← List.append_assoc, drop_slice, hshared]
    rw [slice_append_slice xs hle hend.le]
    exact hboth

theorem Covers.stitch_map_slice (h : Covers size overlap start stop rs) :
    stitch overlap (rs.map (slice xs)) = slice xs (start, stop) := by
  cases rs with
  | nil => exact absurd h.first (by simp)
  | cons r rs =>
    have hfirst : r.1 = start := by simpa using h.first
    rw [List.map_cons, stitch, ← hfirst]
    exact slice_append_flatMap xs (h.inside r List.mem_cons_self).1.le h.follows h.last

end Slices

end Windows
