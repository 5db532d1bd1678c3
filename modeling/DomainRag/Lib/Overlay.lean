import Mathlib.Data.List.Sort
import DomainRag.Lib.Dict

/-! # Overlays of dictionaries

A dictionary with composite keys has a section for each first part of its keys. Sections are laid
over other dictionaries, and a program takes the first entry of an overlay in the order of its keys.
-/

namespace DomainRag

namespace Dict

variable {J K V : Type}

section Section

variable [DecidableEq J]

/-- The entries of the keys that start with `j`. -/
def sectionAt (d : Dict (J × K) V) (j : J) : Dict K V where
  entries := (d.entries.filter fun e => e.1.1 = j).map fun e => (e.1.2, e.2)
  nodup := by
    rw [List.map_map, List.nodup_map_iff_inj_on]
    · intro e he e' he' h
      rw [List.mem_filter, decide_eq_true_eq] at he he'
      apply List.inj_on_of_nodup_map d.nodup he.1 he'.1
      exact Prod.ext (he.2.trans he'.2.symm) h
    · exact d.nodup.of_map.filter _

variable [DecidableEq K]

theorem get?_sectionAt (d : Dict (J × K) V) (j : J) (k : K) :
    (d.sectionAt j).get? k = d.get? (j, k) := by
  ext v
  rw [get?_eq_some_iff, get?_eq_some_iff, sectionAt, List.mem_map]
  constructor
  · rintro ⟨⟨⟨j', k'⟩, v'⟩, he, h⟩
    rw [List.mem_filter, decide_eq_true_eq] at he
    cases h
    exact he.2 ▸ he.1
  · intro h
    exact ⟨((j, k), v), List.mem_filter.mpr ⟨h, decide_eq_true rfl⟩, rfl⟩

end Section

end Dict

section First

variable {A K : Type} [LinearOrder K] {key : A → K} {xs : List A} {p : A → Bool} {a : A}

/-- The first element of a sorted list with a property is the least one, where keys are distinct. -/
theorem head?_filter_insertionSort_iff
    (hinj : ∀ a ∈ xs, ∀ b ∈ xs, key a = key b → a = b) :
    ((xs.insertionSort fun a b => key a ≤ key b).filter p).head? = some a ↔
      a ∈ xs ∧ p a = true ∧ ∀ b ∈ xs, p b = true → key a ≤ key b := by
  have : Std.Total fun a b : A => key a ≤ key b := ⟨fun a b => le_total (key a) (key b)⟩
  have : IsTrans A fun a b => key a ≤ key b := ⟨fun _ _ _ hab hbc => hab.trans hbc⟩
  have hsorted := (List.pairwise_insertionSort (fun a b => key a ≤ key b) xs).filter p
  have hmem : ∀ b, b ∈ (xs.insertionSort fun a b => key a ≤ key b).filter p ↔
      b ∈ xs ∧ p b = true := by
    intro b
    rw [List.mem_filter, List.mem_insertionSort]
  generalize (xs.insertionSort fun a b => key a ≤ key b).filter p = ys at hsorted hmem
  cases ys with
  | nil =>
    constructor
    · exact nofun
    · rintro ⟨ha, hp, -⟩
      exact absurd ((hmem a).mpr ⟨ha, hp⟩) List.not_mem_nil
  | cons y ys =>
    rw [List.pairwise_cons] at hsorted
    obtain ⟨hy, hpy⟩ := (hmem y).mp List.mem_cons_self
    have hleast : ∀ b ∈ xs, p b = true → key y ≤ key b := by
      intro b hb hp
      rcases List.mem_cons.mp ((hmem b).mpr ⟨hb, hp⟩) with rfl | hb
      · exact le_rfl
      · exact hsorted.1 b hb
    rw [List.head?_cons, Option.some.injEq]
    constructor
    · rintro rfl
      exact ⟨hy, hpy, hleast⟩
    · rintro ⟨ha, hp, hle⟩
      exact hinj y hy a ha (le_antisymm (hleast a ha hp) (hle y hy hpy))

end First

end DomainRag
