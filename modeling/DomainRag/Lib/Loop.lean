import DomainRag.Lib.Program

/-! # Loops that stop early

A loop goes through a list with an accumulator until the accumulator satisfies it. What a run of the
loop does is told by its visits: the elements that it came to, with the accumulator and the state
before each.
-/

namespace DomainRag.Program

variable {E S A B : Type}

section Loop

variable (stop : A → Bool) (f : A → B → Program E S A)

def loopUntil : List B → A → Program E S A
  | [], a => pure a
  | b :: bs, a => if stop a then pure a else do
    let a ← f a b
    loopUntil bs a

/-- An element of a loop, with the accumulator and the state before it. -/
structure Visit (S A B : Type) where
  elem : B
  acc : A
  state : S

def visits : List B → A → S → List (Visit S A B)
  | [], _, _ => []
  | b :: bs, a, s => if stop a then [] else ⟨b, a, s⟩ :: match f a b s with
    | .ok a s => visits bs a s
    | .error _ _ => []

end Loop

variable {stop : A → Bool} {f : A → B → Program E S A} {bs : List B} {a a' : A} {s s' : S}

theorem length_visits_le (a : A) (s : S) : (visits stop f bs a s).length ≤ bs.length := by
  induction bs generalizing a s with
  | nil => exact Nat.le_refl 0
  | cons b bs ih =>
    rw [visits]
    split
    · exact Nat.zero_le _
    · rw [List.length_cons, List.length_cons]
      refine Nat.succ_le_succ ?_
      split
      · exact ih _ _
      · exact Nat.zero_le _

/-- A loop returns if its body does in every visit. -/
theorem halts_loopUntil_iff : Halts (loopUntil stop f bs a) s ↔
    ∀ e ∈ visits stop f bs a s, Halts (f e.acc e.elem) e.state := by
  induction bs generalizing a s with
  | nil => exact ⟨fun _ => List.forall_mem_nil _, fun _ => ⟨a, s, rfl⟩⟩
  | cons b bs ih =>
    rw [loopUntil, visits]
    by_cases hstop : stop a = true
    · rw [if_pos hstop, if_pos hstop]
      exact ⟨fun _ => List.forall_mem_nil _, fun _ => ⟨a, s, rfl⟩⟩
    · rw [if_neg hstop, if_neg hstop, halts_bind_iff, List.forall_mem_cons]
      constructor
      · rintro ⟨a', s', hstep, h⟩
        rw [hstep]
        exact ⟨⟨a', s', hstep⟩, ih.mp h⟩
      · rintro ⟨⟨a', s', hstep⟩, h⟩
        rw [hstep] at h
        exact ⟨a', s', hstep, ih.mpr h⟩

/-- What holds before a loop and is kept by each of its visits holds after it. -/
theorem loopUntil_rule {I : List (Visit S A B) → A → S → Prop} (hstart : I [] a s)
    (hstep : ∀ seen b a s a' s', b ∈ bs → stop a = false → I seen a s → f a b s = .ok a' s' →
      I (seen ++ [⟨b, a, s⟩]) a' s')
    (h : loopUntil stop f bs a s = .ok a' s') : I (visits stop f bs a s) a' s' := by
  have hrule : ∀ seen bs' a s, I seen a s → bs' ⊆ bs → loopUntil stop f bs' a s = .ok a' s' →
      I (seen ++ visits stop f bs' a s) a' s' := by
    intro seen bs'
    induction bs' generalizing seen with
    | nil =>
      intro a s hI _ h
      rw [loopUntil] at h
      cases h
      rw [visits, List.append_nil]
      exact hI
    | cons b bs' ih =>
      intro a s hI hsub h
      rw [loopUntil] at h
      rw [visits]
      by_cases hstop : stop a = true
      · rw [if_pos hstop] at h ⊢
        cases h
        rw [List.append_nil]
        exact hI
      · rw [if_neg hstop] at h ⊢
        obtain ⟨mid, t, hmid, h⟩ := bind_eq_ok_iff.mp h
        have hI' := hstep seen b a s mid t (hsub List.mem_cons_self)
          (Bool.not_eq_true _ ▸ hstop) hI hmid
        rw [hmid, ← List.singleton_append, ← List.append_assoc]
        exact ih _ mid t hI' (List.subset_of_cons_subset hsub) h
  exact hrule [] bs a s hstart (List.Subset.refl bs) h

end DomainRag.Program
