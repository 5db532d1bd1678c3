import Mathlib.Algebra.BigOperators.Group.Multiset.Basic
import Mathlib.Logic.Relation

/-! # Fusing the elements of a bag

Two near elements of a bag are replaced by their union. Nothing is said of the order in which this
is done: a property holds after every run if a union has it from its parts, and a sum over the bag
stays what it is if a union counts as much as its parts.
-/

namespace Fusion

variable {A : Type}

inductive Step (near : A → A → Bool) (union : A → A → A) : Multiset A → Multiset A → Prop
  | fuse (a b : A) (s : Multiset A) (h : near a b = true) :
    Step near union (a ::ₘ b ::ₘ s) (union a b ::ₘ s)

def Steps (near : A → A → Bool) (union : A → A → A) : Multiset A → Multiset A → Prop :=
  Relation.ReflTransGen (Step near union)

variable {near : A → A → Bool} {union : A → A → A} {s t u : Multiset A}

theorem Step.card_eq (h : Step near union s t) : s.card = t.card + 1 := by
  cases h with
  | fuse a b s h => simp only [Multiset.card_cons]

theorem Step.add_right (h : Step near union s t) (u : Multiset A) :
    Step near union (s + u) (t + u) := by
  cases h with
  | fuse a b s h =>
    simp only [Multiset.cons_add]
    exact .fuse a b (s + u) h

theorem Steps.refl (s : Multiset A) : Steps near union s s := Relation.ReflTransGen.refl

theorem Steps.trans (h : Steps near union s t) (h' : Steps near union t u) :
    Steps near union s u := Relation.ReflTransGen.trans h h'

theorem Steps.head (h : Step near union s t) (h' : Steps near union t u) : Steps near union s u :=
  Relation.ReflTransGen.head h h'

theorem Steps.card_le (h : Steps near union s t) : t.card ≤ s.card := by
  induction h with
  | refl => exact Nat.le_refl _
  | tail _ hstep ih =>
    have hcard := hstep.card_eq
    omega

theorem Steps.add_right (h : Steps near union s t) (u : Multiset A) :
    Steps near union (s + u) (t + u) := by
  induction h with
  | refl => exact .refl _
  | tail _ hstep ih => exact ih.tail (hstep.add_right u)

/-- A property that unions of near elements have from both is kept. -/
theorem Steps.forall {P : A → Prop}
    (hunion : ∀ a b, near a b = true → P a → P b → P (union a b)) (h : Steps near union s t)
    (hs : ∀ a ∈ s, P a) : ∀ a ∈ t, P a := by
  induction h with
  | refl => exact hs
  | tail _ hstep ih =>
    cases hstep with
    | fuse a b s hnear =>
      intro c hc
      rcases Multiset.mem_cons.mp hc with rfl | hc
      · apply hunion a b hnear
        · exact ih a (Multiset.mem_cons_self a _)
        · exact ih b (Multiset.mem_cons_of_mem (Multiset.mem_cons_self b s))
      · exact ih c (Multiset.mem_cons_of_mem (Multiset.mem_cons_of_mem hc))

theorem Steps.sum_map_eq {M : Type} [AddCommMonoid M] {f : A → M}
    (hunion : ∀ a b, f (union a b) = f a + f b) (h : Steps near union s t) :
    (t.map f).sum = (s.map f).sum := by
  induction h with
  | refl => rfl
  | tail _ hstep ih =>
    rw [← ih]
    cases hstep with
    | fuse a b s hnear => simp only [Multiset.map_cons, Multiset.sum_cons, hunion, add_assoc]

end Fusion
