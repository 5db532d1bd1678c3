import Mathlib.Data.Set.Basic

/-! # Two stores that mirror each other

One store gives each item at most one owner, the other lists the items of each owner. They are
in step when both say the same.
-/

namespace DomainRag

structure Mirror (I O : Type) where
  owner : I → Option O
  held : O → Set I

namespace Mirror

variable {I O : Type}

/-- Each owner holds exactly the items that it owns. -/
def InStep (m : Mirror I O) : Prop := ∀ i o, m.owner i = some o ↔ i ∈ m.held o

/-- The two stores after an owner has claimed items and replaced its list. -/
structure Rewrites (m m' : Mirror I O) (o : O) (kept claimed : Set I) : Prop where
  owner_claimed : ∀ i ∈ claimed, m'.owner i = some o
  owner_other : ∀ i, i ∉ claimed → m'.owner i = m.owner i
  held_self : m'.held o = kept ∪ claimed
  held_other : ∀ o', o' ≠ o → m'.held o' = m.held o'

/-- The two stores after the items of some owners were removed. -/
structure Removes (m m' : Mirror I O) (gone : Set O) : Prop where
  owner_gone : ∀ i, (∃ o ∈ gone, i ∈ m.held o) → m'.owner i = none
  owner_other : ∀ i, (∀ o ∈ gone, i ∉ m.held o) → m'.owner i = m.owner i
  held_gone : ∀ o ∈ gone, m'.held o = ∅
  held_other : ∀ o, o ∉ gone → m'.held o = m.held o

variable {m m' : Mirror I O} {o : O}

theorem InStep.owner_unique (h : m.InStep) {i : I} {o o' : O} (ho : i ∈ m.held o)
    (ho' : i ∈ m.held o') : o = o' :=
  Option.some.inj (((h i o).mpr ho).symm.trans ((h i o').mpr ho'))

/-- A rewrite stays in step when the new list covers the old one and takes nothing from another
owner. -/
theorem InStep.rewrite {kept claimed : Set I} (h : m.InStep) (hw : m.Rewrites m' o kept claimed)
    (hkept : kept ⊆ m.held o) (hcover : m.held o ⊆ kept ∪ claimed)
    (hfree : ∀ i ∈ claimed, ∀ o', i ∈ m.held o' → o' = o) : m'.InStep := by
  intro i o'
  by_cases ho : o' = o
  · subst ho
    rw [hw.held_self]
    by_cases hi : i ∈ claimed
    · exact iff_of_true (hw.owner_claimed i hi) (.inr hi)
    · rw [hw.owner_other i hi, h i o']
      constructor
      · intro hheld
        exact hcover hheld
      · rintro (hk | hc)
        · exact hkept hk
        · exact absurd hc hi
  · rw [hw.held_other o' ho]
    by_cases hi : i ∈ claimed
    · rw [hw.owner_claimed i hi, Option.some.injEq]
      refine iff_of_false (fun heq => ho heq.symm) ?_
      intro hheld
      exact ho (hfree i hi o' hheld)
    · rw [hw.owner_other i hi]
      exact h i o'

theorem InStep.remove {gone : Set O} (h : m.InStep) (hr : m.Removes m' gone) : m'.InStep := by
  intro i o'
  by_cases ho : o' ∈ gone
  · rw [hr.held_gone o' ho]
    refine iff_of_false ?_ (Set.notMem_empty i)
    intro howner
    by_cases hi : ∃ o ∈ gone, i ∈ m.held o
    · rw [hr.owner_gone i hi] at howner
      cases howner
    · have hother : ∀ o ∈ gone, i ∉ m.held o := fun o hog hio => hi ⟨o, hog, hio⟩
      rw [hr.owner_other i hother] at howner
      exact hother o' ho ((h i o').mp howner)
  · rw [hr.held_other o' ho]
    by_cases hi : ∃ o ∈ gone, i ∈ m.held o
    · obtain ⟨o, hog, hio⟩ := hi
      rw [hr.owner_gone i ⟨o, hog, hio⟩]
      refine iff_of_false nofun ?_
      intro hio'
      exact ho (h.owner_unique hio' hio ▸ hog)
    · rw [hr.owner_other i fun o hog hio => hi ⟨o, hog, hio⟩]
      exact h i o'

end Mirror

end DomainRag
