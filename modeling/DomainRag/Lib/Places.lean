import DomainRag.Lib.Dict
import Mathlib.Data.Finset.Card
import Mathlib.Data.Finset.Sort
import Mathlib.Order.Interval.Finset.Fin

/-! # Places in a sorted list

An element stands at the place of its number of smaller elements.
-/

namespace DomainRag

section Sorted

variable {A : Type} [LinearOrder A] {xs : List A} {a : A}

/-- The number of different elements of a list that are smaller. -/
def placeIn (xs : List A) (a : A) : Nat := (xs.toFinset.filter (· < a)).card

theorem placeIn_congr {ys : List A} (h : ∀ a, a ∈ xs ↔ a ∈ ys) : placeIn xs = placeIn ys := by
  have heq : xs.toFinset = ys.toFinset := by
    ext a
    rw [List.mem_toFinset, List.mem_toFinset, h]
  funext a
  rw [placeIn, placeIn, heq]

theorem placeIn_eq_length (h : xs.Nodup) : placeIn xs a = (xs.filter (· < a)).length := by
  rw [placeIn, ← List.toFinset_card_of_nodup (h.filter _), List.toFinset_filter]
  simp only [decide_eq_true_eq]

theorem placeIn_of_getElem? (h : xs.Pairwise (· < ·)) {i : Nat} (ha : xs[i]? = some a) :
    placeIn xs a = i := by
  rw [placeIn_eq_length (h.imp ne_of_lt)]
  induction xs generalizing i with
  | nil => cases ha
  | cons x xs ih =>
    obtain ⟨hx, hxs⟩ := List.pairwise_cons.mp h
    cases i with
    | zero =>
      cases ha
      have hnone : ∀ y ∈ xs, a ≤ y := fun y hy => (hx y hy).le
      simpa using hnone
    | succ i =>
      have hlt : x < a := hx a (List.mem_of_getElem? ha)
      simp [hlt, ih hxs ha]

/-- The distinct elements in their order. -/
def ordered (xs : List A) : List A := xs.dedup.insertionSort (· ≤ ·)

theorem mem_ordered : a ∈ ordered xs ↔ a ∈ xs := by
  rw [ordered, List.mem_insertionSort, List.mem_dedup]

theorem nodup_ordered (xs : List A) : (ordered xs).Nodup :=
  (List.perm_insertionSort _ _).nodup_iff.mpr xs.nodup_dedup

theorem pairwise_ordered (xs : List A) : (ordered xs).Pairwise (· < ·) := by
  have hle := List.pairwise_insertionSort (· ≤ ·) xs.dedup
  exact hle.imp₂ (fun _ _ => lt_of_le_of_ne) (nodup_ordered xs)

theorem placeIn_ordered (xs : List A) : placeIn (ordered xs) = placeIn xs :=
  placeIn_congr fun _ => mem_ordered

/-- The dictionary of the places of all elements. -/
theorem get?_places (h : a ∈ xs) :
    (Dict.ofList (ordered xs).zipIdx).get? a = some (placeIn xs a) := by
  have hnodup : ((ordered xs).zipIdx.map Prod.fst).Nodup := by
    rw [List.zipIdx_map_fst]
    exact nodup_ordered xs
  obtain ⟨i, hi⟩ := List.mem_iff_getElem?.mp (mem_ordered.mpr h)
  have hplace : placeIn xs a = i := by
    rw [← placeIn_ordered, placeIn_of_getElem? (pairwise_ordered xs) hi]
  rw [Dict.get?_ofList_iff hnodup, hplace, List.mk_mem_zipIdx_iff_getElem?]
  exact hi

end Sorted

section Positions

variable {A : Type} [LinearOrder A] {n : Nat} {f : Fin n → A}

/-- The images of numbers are at their own places if no smaller number is missing. -/
theorem placeIn_map_eq_iff (hf : StrictMono f) (ps : List (Fin n)) (p : Fin n) :
    placeIn (ps.map f) (f p) = p ↔ ∀ q < p, q ∈ ps := by
  have hsmaller : (ps.map f).toFinset.filter (· < f p) =
      (ps.toFinset.filter (· < p)).image f := by
    ext a
    simp only [Finset.mem_filter, List.mem_toFinset, List.mem_map, Finset.mem_image]
    constructor
    · rintro ⟨⟨q, hq, rfl⟩, hlt⟩
      exact ⟨q, ⟨hq, hf.lt_iff_lt.mp hlt⟩, rfl⟩
    · rintro ⟨q, ⟨hq, hlt⟩, rfl⟩
      exact ⟨⟨q, hq, rfl⟩, hf hlt⟩
  have hsub : ps.toFinset.filter (· < p) ⊆ Finset.Iio p := by
    intro q hq
    exact Finset.mem_Iio.mpr (Finset.mem_filter.mp hq).2
  have hcard : placeIn (ps.map f) (f p) = (ps.toFinset.filter (· < p)).card := by
    rw [placeIn, hsmaller, Finset.card_image_of_injective _ hf.injective]
  rw [hcard, ← Fin.card_Iio p]
  constructor
  · intro heq q hq
    have hall := Finset.eq_of_subset_of_card_le hsub heq.ge
    have hmem : q ∈ ps.toFinset.filter (· < p) := hall ▸ Finset.mem_Iio.mpr hq
    exact List.mem_toFinset.mp (Finset.mem_filter.mp hmem).1
  · intro h
    congr 1
    apply Finset.Subset.antisymm hsub
    intro q hq
    have hlt := Finset.mem_Iio.mp hq
    exact Finset.mem_filter.mpr ⟨List.mem_toFinset.mpr (h q hlt), hlt⟩

end Positions

end DomainRag
