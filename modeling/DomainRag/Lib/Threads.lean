import Mathlib.Algebra.GroupWithZero.Nat
import DomainRag.Lib.Program

/-! # Calls that run side by side

Several calls share one state, and each of them goes on by single steps. A run may start a further
call at any time, and may let any call that has started take its next step. What is asserted of
every call holds along a run when the steps of a call keep its own assertion and disturb no other.
-/

namespace DomainRag

structure Pool (G L : Type) where
  shared : G
  threads : List L

inductive Move (B C : Type) where
  | start (call : B)
  | advance (i : Nat) (input : C)

/-- How a call begins, and what one step of it does to the shared state and to itself. -/
structure Threads (G L B C : Type) where
  enter : B → L
  step : C → G → L → G × L

variable {G L B C : Type}

namespace Threads

variable (sys : Threads G L B C)

def move (p : Pool G L) : Move B C → Pool G L
  | .start call => { p with threads := p.threads ++ [sys.enter call] }
  | .advance i input =>
    match p.threads[i]? with
    | none => p
    | some l =>
      let (shared, l') := sys.step input p.shared l
      ⟨shared, p.threads.set i l'⟩

def run (p : Pool G L) (ms : List (Move B C)) : Pool G L := ms.foldl sys.move p

/-- A call without any other beside it. -/
def alone (g : G) (l : L) (inputs : List C) : G × L :=
  inputs.foldl (fun r input => sys.step input r.1 r.2) (g, l)

variable {sys} {p : Pool G L} {m : Move B C}

theorem run_append (ms ms' : List (Move B C)) :
    sys.run p (ms ++ ms') = sys.run (sys.run p ms) ms' := List.foldl_append

theorem alone_invariant {I : G → L → Prop} {g : G} {l : L} (inputs : List C) (h : I g l)
    (hstep : ∀ input g l, I g l → I (sys.step input g l).1 (sys.step input g l).2) :
    I (sys.alone g l inputs).1 (sys.alone g l inputs).2 := by
  induction inputs generalizing g l with
  | nil => exact h
  | cons input inputs ih => exact ih (hstep input g l h)

/-- A move starts a call, finds no call, or is one step of a call. -/
theorem move_cases (p : Pool G L) (m : Move B C) :
    (∃ call, m = .start call ∧ sys.move p m = { p with threads := p.threads ++ [sys.enter call] }) ∨
      (∃ i input, m = .advance i input ∧ p.threads[i]? = none ∧ sys.move p m = p) ∨
      ∃ i input l, m = .advance i input ∧ p.threads[i]? = some l ∧
        sys.move p m =
          ⟨(sys.step input p.shared l).1, p.threads.set i (sys.step input p.shared l).2⟩ := by
  cases m with
  | start call => exact .inl ⟨call, rfl, rfl⟩
  | advance i input =>
    rw [move]
    cases hl : p.threads[i]? with
    | none => exact .inr (.inl ⟨i, input, rfl, hl, rfl⟩)
    | some l => exact .inr (.inr ⟨i, input, l, rfl, hl, rfl⟩)

/-- The shared state changes only by a step of a call. -/
theorem shared_move {P : G → Prop} (h : P p.shared)
    (hstep : ∀ i input l, m = .advance i input → p.threads[i]? = some l →
      P (sys.step input p.shared l).1) : P (sys.move p m).shared := by
  obtain ⟨call, rfl, hmove⟩ | ⟨i, input, rfl, -, hmove⟩ | ⟨i, input, l, rfl, hl, hmove⟩ :=
    sys.move_cases p m
  · rw [hmove]
    exact h
  · rw [hmove]
    exact h
  · rw [hmove]
    exact hstep i input l rfl hl

theorem move_advance {i : Nat} {l : L} (input : C) (h : p.threads[i]? = some l) :
    sys.move p (.advance i input) =
      ⟨(sys.step input p.shared l).1, p.threads.set i (sys.step input p.shared l).2⟩ := by
  rw [move, h]

/-- A step of a call, with the calls before and after it. -/
theorem move_split {i : Nat} {l : L} (input : C) (h : p.threads[i]? = some l) :
    ∃ before after, p.threads = before ++ l :: after ∧ sys.move p (.advance i input) =
      ⟨(sys.step input p.shared l).1, before ++ (sys.step input p.shared l).2 :: after⟩ := by
  obtain ⟨hi, rfl⟩ := List.getElem?_eq_some_iff.mp h
  obtain ⟨before, after, hthreads, -, hset⟩ :=
    List.exists_of_set hi
  refine ⟨before, after, hthreads, ?_⟩
  rw [move_advance input h, hset]

theorem getElem?_move_advance {i : Nat} {l : L} (input : C) (h : p.threads[i]? = some l) :
    (sys.move p (.advance i input)).threads[i]? = some (sys.step input p.shared l).2 := by
  rw [move_advance input h]
  exact List.getElem?_set_self (List.getElem?_eq_some_iff.mp h).1

/-- A call that no step changes any more stays as it is. -/
theorem getElem?_run_of_fixed {i : Nat} {l : L} (ms : List (Move B C))
    (hfixed : ∀ input g, (sys.step input g l).2 = l) (h : p.threads[i]? = some l) :
    (sys.run p ms).threads[i]? = some l := by
  induction ms generalizing p with
  | nil => exact h
  | cons m ms ih =>
    refine ih ?_
    obtain ⟨call, rfl, hmove⟩ | ⟨j, input, rfl, -, hmove⟩ | ⟨j, input, l', rfl, hl', hmove⟩ :=
      sys.move_cases p m
    · rw [hmove]
      exact (List.getElem?_append_left (List.getElem?_eq_some_iff.mp h).1).trans h
    · rw [hmove]
      exact h
    · obtain rfl | hij := eq_or_ne j i
      · obtain rfl := Option.some.inj (hl'.symm.trans h)
        rw [getElem?_move_advance input h, hfixed]
      · rw [hmove]
        exact (List.getElem?_set_ne hij).trans h

/-- A measure of the shared state stays in a relation to the sum of what the calls weigh, when no
call weighs anything at its start and every step of a call keeps the relation beside any weight of
the others. -/
theorem run_weighs (r : Nat → Nat → Prop) (measure : G → Nat) (weight : L → Nat)
    {ms : List (Move B C)} (h : r (measure p.shared) (p.threads.map weight).sum)
    (hstart : ∀ call, weight (sys.enter call) = 0)
    (hstep : ∀ i input g l others, .advance i input ∈ ms → r (measure g) (others + weight l) →
      r (measure (sys.step input g l).1) (others + weight (sys.step input g l).2)) :
    r (measure (sys.run p ms).shared) ((sys.run p ms).threads.map weight).sum := by
  induction ms generalizing p with
  | nil => exact h
  | cons m ms ih =>
    apply ih
    · obtain ⟨call, rfl, hmove⟩ | ⟨i, input, rfl, -, hmove⟩ | ⟨i, input, l, rfl, hl, -⟩ :=
        sys.move_cases p m
      · rw [hmove, List.map_append, List.sum_append, List.map_singleton, List.sum_singleton,
          hstart, Nat.add_zero]
        exact h
      · rw [hmove]
        exact h
      · obtain ⟨before, after, hthreads, hmove⟩ := sys.move_split input hl
        have hsum : ∀ l, ((before ++ l :: after).map weight).sum =
            ((before.map weight).sum + (after.map weight).sum) + weight l := by
          intro l
          rw [List.map_append, List.map_cons, List.sum_append, List.sum_cons]
          omega
        rw [hthreads, hsum] at h
        rw [hmove, hsum]
        exact hstep i input _ l _ List.mem_cons_self h
    · exact fun i input g l others hmem => hstep i input g l others (List.mem_cons_of_mem m hmem)

end Threads

/-- An assertion that every call makes about the shared state and its own. -/
def Pool.Asserts (I : G → L → Prop) (p : Pool G L) : Prop := ∀ l ∈ p.threads, I p.shared l

theorem Pool.Asserts.move {sys : Threads G L B C} {I : G → L → Prop} {p : Pool G L} {m : Move B C}
    (h : p.Asserts I) (hstart : ∀ call, m = .start call → I p.shared (sys.enter call))
    (hown : ∀ i input l, m = .advance i input → p.threads[i]? = some l → I p.shared l →
      I (sys.step input p.shared l).1 (sys.step input p.shared l).2)
    (hother : ∀ i input l, m = .advance i input → p.threads[i]? = some l → I p.shared l →
      ∀ l' ∈ p.threads, I p.shared l' → I (sys.step input p.shared l).1 l') :
    (sys.move p m).Asserts I := by
  intro l' hl'
  obtain ⟨call, rfl, hmove⟩ | ⟨i, input, rfl, -, hmove⟩ | ⟨i, input, l, rfl, hl, hmove⟩ :=
    sys.move_cases p m
  · rw [hmove] at hl' ⊢
    obtain hl' | hl' := List.mem_append.mp hl'
    · exact h l' hl'
    · rw [List.mem_singleton.mp hl']
      exact hstart call rfl
  · rw [hmove] at hl' ⊢
    exact h l' hl'
  · have hI : I p.shared l := h l (List.mem_of_getElem? hl)
    rw [hmove] at hl' ⊢
    obtain hl' | rfl := List.mem_or_eq_of_mem_set hl'
    · exact hother i input l rfl hl hI l' hl' (h l' hl')
    · exact hown i input l rfl hl hI

end DomainRag
