import Mathlib.Order.Nat

/-! # While loops

A loop runs its body as long as a test of its variables holds. A run is given a number of turns and
has no result if they do not suffice. The body may have none either, as it may be a loop itself.
-/

namespace While

variable {S T : Type}

def loop (test : S → Bool) (body : S → Option S) : Nat → S → Option S
  | 0, _ => none
  | n + 1, s => if test s then (body s).bind (loop test body n) else some s

variable {test : S → Bool} {body : S → Option S} {n : Nat} {s t : S}

/-- Total correctness: the body keeps the invariant and lowers the variant. -/
theorem loop_rule (I : S → Prop) (variant : S → Nat)
    (hbody : ∀ s, I s → test s = true → ∃ s', body s = some s' ∧ I s' ∧ variant s' < variant s)
    (hs : I s) (hn : variant s < n) : ∃ t, loop test body n s = some t ∧ I t ∧ test t = false := by
  induction n generalizing s with
  | zero => omega
  | succ n ih =>
    rw [loop]
    cases htest : test s with
    | false => exact ⟨s, rfl, hs, htest⟩
    | true =>
      obtain ⟨s', hs', hI, hlt⟩ := hbody s hs htest
      rw [if_pos rfl, hs', Option.bind_some]
      apply ih hI
      omega

/-- A loop that is repeated until nothing changes goes on only if its last turn made something
smaller. -/
theorem loop_rule_again (I : S → Prop) (size : S → Nat)
    (hbody : ∀ s, I s → test s = true → ∃ s', body s = some s' ∧ I s' ∧ size s' ≤ size s ∧
      (test s' = true → size s' < size s))
    (hs : I s) (hn : size s + 1 < n) :
    ∃ t, loop test body n s = some t ∧ I t ∧ test t = false := by
  refine loop_rule I (fun s => size s + (test s).toNat) ?_ hs ?_
  · intro s hI htest
    obtain ⟨s', hs', hI', hle, hagain⟩ := hbody s hI htest
    refine ⟨s', hs', hI', ?_⟩
    rw [htest, Bool.toNat_true]
    cases htest' : test s' with
    | false =>
      rw [Bool.toNat_false]
      omega
    | true =>
      have hlt := hagain htest'
      rw [Bool.toNat_true]
      omega
  · have hbit := Bool.toNat_le (test s)
    omega

/-- More turns give the same result. -/
theorem loop_mono {body' : S → Option S} {m : Nat}
    (hbody : ∀ s t, body s = some t → body' s = some t) (hle : n ≤ m)
    (h : loop test body n s = some t) : loop test body' m s = some t := by
  induction n generalizing m s with
  | zero => cases h
  | succ n ih =>
    obtain ⟨m, rfl⟩ : ∃ k, m = k + 1 := ⟨m - 1, by omega⟩
    rw [loop] at h ⊢
    split at h
    · next htest =>
      obtain ⟨s', hs', h⟩ := Option.bind_eq_some_iff.mp h
      rw [if_pos htest, hbody s s' hs', Option.bind_some]
      apply ih _ h
      omega
    · next htest =>
      rw [if_neg htest]
      exact h

/-- A loop on the images of its variables has the image of its result. -/
theorem loop_map {f : S → T} {test' : T → Bool} {body' : T → Option T}
    (htest : ∀ s, test' (f s) = test s) (hbody : ∀ s, body' (f s) = (body s).map f) :
    loop test' body' n (f s) = (loop test body n s).map f := by
  induction n generalizing s with
  | zero => rfl
  | succ n ih =>
    rw [loop, loop, htest, hbody]
    split
    · cases body s with
      | none => rfl
      | some s' => exact ih
    · rfl

end While
