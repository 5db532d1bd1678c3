import DomainRag.Lib.Program

/-! # Programs that keep a journal

What a state looks like after a program does not say what has been written: a write may leave a
store as it was. A program that keeps a journal beside its state notes the writes that have gone
through, and without the journal it is the program that it was.
-/

namespace DomainRag.Program

variable {E S J A B : Type}

/-- A program that writes nothing for the journal. -/
def quietly (x : Program E S A) : Program E (S × J) A := fun p =>
  match x p.1 with
  | .ok a s => .ok a (s, p.2)
  | .error e s => .error e (s, p.2)

/-- A write that is noted when it has gone through. -/
def noting (note : J → J) (x : Program E S A) : Program E (S × J) A := fun p =>
  match x p.1 with
  | .ok a s => .ok a (s, note p.2)
  | .error e s => .error e (s, p.2)

def forget : EStateM.Result E (S × J) A → EStateM.Result E S A
  | .ok a p => .ok a p.1
  | .error e p => .error e p.1

/-- Beside its journal the one program does what the other does. -/
def Erases (x' : Program E (S × J) A) (x : Program E S A) : Prop := ∀ p, forget (x' p) = x p.1

section Rules

variable {x : Program E S A} {s : S} {j : J}

theorem ensures_quietly {Q : A → S × J → Prop} {R : E → S × J → Prop} :
    Ensures (quietly x) (s, j) Q R ↔
      Ensures x s (fun a s' => Q a (s', j)) fun e s' => R e (s', j) := by
  unfold Ensures quietly
  cases x s <;> rfl

theorem ensures_noting {note : J → J} {Q : A → S × J → Prop} {R : E → S × J → Prop} :
    Ensures (noting note x) (s, j) Q R ↔
      Ensures x s (fun a s' => Q a (s', note j)) fun e s' => R e (s', j) := by
  unfold Ensures noting
  cases x s <;> rfl

end Rules

section Erasing

variable {x' : Program E (S × J) A} {x : Program E S A}

theorem erases_pure (a : A) : Erases (pure a : Program E (S × J) A) (pure a) := fun _ => rfl

theorem erases_throw (e : E) : Erases (throw e : Program E (S × J) A) (throw e) := fun _ => rfl

theorem erases_quietly (x : Program E S A) : Erases (quietly x : Program E (S × J) A) x := by
  intro p
  unfold quietly
  cases x p.1 <;> rfl

theorem erases_noting (note : J → J) (x : Program E S A) : Erases (noting note x) x := by
  intro p
  unfold noting
  cases x p.1 <;> rfl

namespace Erases

variable (hx : Erases x' x)

include hx

theorem bind {f' : A → Program E (S × J) B} {f : A → Program E S B}
    (hf : ∀ a, Erases (f' a) (f a)) : Erases (x' >>= f') (x >>= f) := by
  intro p
  have hp := hx p
  simp only [Bind.bind, EStateM.bind]
  cases h : x' p with
  | ok a q =>
    rw [h] at hp
    rw [← hp]
    exact hf a q
  | error e q =>
    rw [h] at hp
    rw [← hp]
    rfl

theorem tryCatch {h' : E → Program E (S × J) A} {h : E → Program E S A}
    (hh : ∀ e, Erases (h' e) (h e)) : Erases (tryCatch x' h') (tryCatch x h) := by
  intro p
  have hp := hx p
  simp only [MonadExcept.tryCatch, tryCatchThe, MonadExceptOf.tryCatch, EStateM.tryCatch,
    EStateM.Backtrackable.save, EStateM.Backtrackable.restore]
  cases hq : x' p with
  | ok a q =>
    rw [hq] at hp
    rw [← hp]
    rfl
  | error e q =>
    rw [hq] at hp
    rw [← hp]
    exact hh e q

theorem ite {y' : Program E (S × J) A} {y : Program E S A} {c : Prop} [Decidable c]
    (hy : Erases y' y) : Erases (if c then x' else y') (if c then x else y) := by
  split
  · exact hx
  · exact hy

/-- What holds after a program holds after it has kept a journal. -/
theorem ensures {s : S} {j : J} {Q : A → S → Prop} {R : E → S → Prop} (h : Ensures x s Q R) :
    Ensures x' (s, j) (fun a p => Q a p.1) fun e p => R e p.1 := by
  have hp := hx (s, j)
  unfold Ensures at h ⊢
  cases hq : x' (s, j) with
  | ok a q =>
    rw [hq] at hp
    rw [← hp] at h
    exact h
  | error e q =>
    rw [hq] at hp
    rw [← hp] at h
    exact h

end Erases

end Erasing

end DomainRag.Program
