import Mathlib.Logic.Basic
import Mathlib.Data.List.Basic

/-! # Programs with a state that may raise

What a program wrote before it raised stays written. The rules below reduce what holds after a
program, on either way out, to what holds after its parts.
-/

namespace DomainRag

variable {E S A B : Type}

abbrev Program (E S A : Type) := EStateM E S A

namespace Program

/-- What holds after a program was run from a state: `Q` where it returned and `R` where it
raised. -/
def Ensures (x : Program E S A) (s : S) (Q : A → S → Prop) (R : E → S → Prop) : Prop :=
  match x s with
  | .ok a s' => Q a s'
  | .error e s' => R e s'

def final (x : Program E S A) (s : S) : S :=
  match x s with
  | .ok _ s' => s'
  | .error _ s' => s'

def result? (x : Program E S A) (s : S) : Option A :=
  match x s with
  | .ok a _ => some a
  | .error _ _ => none

variable {x : Program E S A} {s s' : S} {Q Q' : A → S → Prop} {R R' : E → S → Prop}

theorem Ensures.mono (h : Ensures x s Q R) (hQ : ∀ a s', Q a s' → Q' a s')
    (hR : ∀ e s', R e s' → R' e s') : Ensures x s Q' R' := by
  unfold Ensures at h ⊢
  split at h
  · exact hQ _ _ h
  · exact hR _ _ h

theorem Ensures.of_ok {a : A} (h : Ensures x s Q R) (hx : x s = .ok a s') : Q a s' := by
  rw [Ensures, hx] at h
  exact h

theorem Ensures.of_error {e : E} (h : Ensures x s Q R) (hx : x s = .error e s') : R e s' := by
  rw [Ensures, hx] at h
  exact h

theorem Ensures.of_result? {a : A} (h : Ensures x s Q R) (hx : x.result? s = some a) :
    Q a (x.final s) := by
  unfold result? at hx
  unfold Program.final
  split at hx
  · rename_i heq
    cases hx
    exact h.of_ok heq
  · cases hx

theorem Ensures.of_raised (h : Ensures x s Q R) (hx : x.result? s = none) :
    ∃ e, R e (x.final s) := by
  unfold result? at hx
  unfold Program.final
  split at hx
  · cases hx
  · rename_i e _ heq
    exact ⟨e, h.of_error heq⟩

theorem eq_ok_of_result? {a : A} (h : x.result? s = some a) : x s = .ok a (x.final s) := by
  unfold result? at h
  unfold final
  split at h
  · rename_i heq
    cases h
    exact heq
  · cases h

theorem Ensures.final {P : S → Prop} (h : Ensures x s (fun _ => P) fun _ => P) :
    P (x.final s) := by
  unfold Ensures at h
  unfold Program.final
  split at h <;> exact h

theorem final_congr {y : Program E S A} {t : S} (h : x s = y t) : x.final s = y.final t := by
  rw [Program.final, h, Program.final]

theorem Ensures.exists_result (h : Ensures x s Q fun _ _ => False) : ∃ a, x.result? s = some a := by
  unfold Ensures at h
  unfold result?
  split at h
  · exact ⟨_, rfl⟩
  · exact h.elim

theorem ensures_true (x : Program E S A) (s : S) :
    Ensures x s (fun _ _ => True) fun _ _ => True := by
  unfold Ensures
  split <;> trivial

theorem ensures_pure {a : A} : Ensures (pure a) s Q R ↔ Q a s := Iff.rfl

theorem ensures_get {Q : S → S → Prop} : Ensures get s Q R ↔ Q s s := Iff.rfl

theorem ensures_set {s' : S} {Q : PUnit → S → Prop} :
    Ensures (set s') s Q R ↔ Q ⟨⟩ s' := Iff.rfl

theorem ensures_modify {f : S → S} {Q : PUnit → S → Prop} :
    Ensures (modify f) s Q R ↔ Q ⟨⟩ (f s) := Iff.rfl

theorem ensures_bind {f : A → Program E S B} {Q : B → S → Prop} :
    Ensures (x >>= f) s Q R ↔ Ensures x s (fun a s' => Ensures (f a) s' Q R) R := by
  simp only [Ensures, bind, EStateM.bind]
  cases x s <;> rfl

theorem get_bind_apply {f : S → Program E S B} : (get >>= f) s = f s s := rfl

theorem bind_apply {f : A → Program E S B} {a : A} (h : x s = .ok a s') :
    (x >>= f) s = f a s' := by
  simp only [bind, EStateM.bind, h]

theorem bind_eq_ok_iff {f : A → Program E S B} {b : B} :
    (x >>= f) s = .ok b s' ↔ ∃ a t, x s = .ok a t ∧ f a t = .ok b s' := by
  simp only [bind, EStateM.bind]
  cases x s with
  | ok a t =>
    constructor
    · exact fun h => ⟨a, t, rfl, h⟩
    · rintro ⟨_, _, ⟨⟩, h⟩
      exact h
  | error e t => exact ⟨nofun, fun ⟨_, _, h, _⟩ => nomatch h⟩

theorem bind_pure_eq_ok_iff {f : A → B} {b : B} :
    (x >>= fun a => pure (f a)) s = .ok b s' ↔ ∃ a, x s = .ok a s' ∧ b = f a := by
  rw [bind_eq_ok_iff]
  constructor
  · rintro ⟨a, t, ha, h⟩
    cases h
    exact ⟨a, ha, rfl⟩
  · rintro ⟨a, ha, rfl⟩
    exact ⟨a, s', ha, rfl⟩

/-- The program returns from the state. -/
def Halts (x : Program E S A) (s : S) : Prop := ∃ a s', x s = .ok a s'

theorem halts_bind_iff {f : A → Program E S B} :
    Halts (x >>= f) s ↔ ∃ a s', x s = .ok a s' ∧ Halts (f a) s' := by
  simp only [Halts, bind_eq_ok_iff]
  constructor
  · rintro ⟨b, t, a, s', ha, hb⟩
    exact ⟨a, s', ha, b, t, hb⟩
  · rintro ⟨a, s', ha, b, t, hb⟩
    exact ⟨b, t, a, s', ha, hb⟩

theorem ensures_tryCatch {h : E → Program E S A} :
    Ensures (tryCatch x h) s Q R ↔ Ensures x s Q fun e s' => Ensures (h e) s' Q R := by
  simp only [Ensures, tryCatch, tryCatchThe, MonadExceptOf.tryCatch, EStateM.tryCatch,
    EStateM.Backtrackable.save, EStateM.Backtrackable.restore]
  cases x s <;> rfl

theorem ensures_ite {p : Prop} [Decidable p] {y : Program E S A} :
    Ensures (if p then x else y) s Q R ↔ (p → Ensures x s Q R) ∧ (¬ p → Ensures y s Q R) := by
  by_cases hp : p
  · simp only [hp, if_true, true_implies, not_true_eq_false, false_implies, and_true]
  · simp only [hp, if_false, false_implies, not_false_eq_true, true_implies, true_and]

def ofExcept : Except E A → Program E S A
  | .ok a => pure a
  | .error e => throw e

theorem ensures_ofExcept {r : Except E A} :
    Ensures (ofExcept r) s Q R ↔ (∀ a, r = .ok a → Q a s) ∧ ∀ e, r = .error e → R e s := by
  cases r with
  | ok a =>
    constructor
    · intro h
      refine ⟨?_, nofun⟩
      rintro _ ⟨⟩
      exact h
    · intro h
      exact h.1 a rfl
  | error e =>
    constructor
    · intro h
      refine ⟨nofun, ?_⟩
      rintro _ ⟨⟩
      exact h
    · intro h
      exact h.2 e rfl

theorem ofExcept_eq_ok_iff {r : Except E A} {a : A} : ofExcept r s = .ok a s' ↔ r = .ok a ∧ s = s' := by
  cases r with
  | ok b =>
    constructor
    · rintro ⟨⟩
      exact ⟨rfl, rfl⟩
    · rintro ⟨⟨⟩, rfl⟩
      rfl
  | error e => exact ⟨nofun, nofun⟩

/-- A call that raises the given error, if there is one, before it does anything. -/
def failing (fault : Option E) (x : Program E S A) : Program E S A :=
  match fault with
  | some e => throw e
  | none => x

theorem ensures_failing {fault : Option E} :
    Ensures (failing fault x) s Q R ↔
      (∀ e, fault = some e → R e s) ∧ (fault = none → Ensures x s Q R) := by
  cases fault with
  | none => exact ⟨fun h => ⟨nofun, fun _ => h⟩, fun h => h.2 rfl⟩
  | some e =>
    constructor
    · intro h
      refine ⟨?_, nofun⟩
      rintro _ ⟨⟩
      exact h
    · intro h
      exact h.1 e rfl

def catching {E' : Type} (x : Program E S A) (h : E → Program E' S A) : Program E' S A := fun s =>
  match x s with
  | .ok a s' => .ok a s'
  | .error e s' => h e s'

theorem ensures_catching {E' : Type} {h : E → Program E' S A} {R : E' → S → Prop} :
    Ensures (catching x h) s Q R ↔ Ensures x s Q fun e s' => Ensures (h e) s' Q R := by
  unfold Ensures catching
  cases x s <;> rfl

/-- A loop keeps an invariant when each of its rounds does. -/
theorem ensures_forM {I : S → Prop} {f : B → Program E S Unit} {bs : List B} (hs : I s)
    (hround : ∀ b ∈ bs, ∀ s, I s → Ensures (f b) s (fun _ => I) fun _ => I) :
    Ensures (forM bs f) s (fun _ => I) fun _ => I := by
  induction bs generalizing s with
  | nil => exact hs
  | cons b bs ih =>
    rw [List.forM_cons, ensures_bind]
    refine (hround b List.mem_cons_self s hs).mono ?_ ?_
    · intro _ s' hs'
      exact ih hs' fun b' hb' => hround b' (List.mem_cons_of_mem b hb')
    · intro _ s' hs'
      exact hs'

theorem ensures_foldlM {I : B → S → Prop} {f : B → A → Program E S B} {as : List A} {b : B}
    (hb : I b s) (hround : ∀ a ∈ as, ∀ b s, I b s → Ensures (f b a) s I R) :
    Ensures (as.foldlM f b) s I R := by
  induction as generalizing b s with
  | nil => exact hb
  | cons a as ih =>
    rw [List.foldlM_cons, ensures_bind]
    refine (hround a List.mem_cons_self b s hb).mono (fun b' s' hb' => ?_) fun _ _ h => h
    exact ih hb' fun a' ha' => hround a' (List.mem_cons_of_mem a ha')

theorem Ensures.and (h : Ensures x s Q R) (h' : Ensures x s Q' R') :
    Ensures x s (fun a s' => Q a s' ∧ Q' a s') fun e s' => R e s' ∧ R' e s' := by
  unfold Ensures at h h' ⊢
  cases hx : x s with
  | ok a s' =>
    rw [hx] at h h'
    exact ⟨h, h'⟩
  | error e s' =>
    rw [hx] at h h'
    exact ⟨h, h'⟩

section Follows

/-- On either way out a program has moved its state along a relation. -/
def Follows (r : S → S → Prop) (x : Program E S A) : Prop :=
  ∀ s, Ensures x s (fun _ => r s) fun _ => r s

variable {r : S → S → Prop}

theorem follows_pure [Std.Refl r] (a : A) : Follows r (pure a : Program E S A) :=
  fun s => refl_of r s

theorem follows_ofExcept [Std.Refl r] (result : Except E A) : Follows r (ofExcept result) := by
  intro s
  cases result <;> exact refl_of r s

theorem follows_modify {f : S → S} (h : ∀ s, r s (f s)) :
    Follows r (modify f : Program E S PUnit) := h

/-- A write whose new state is computed from the old one. -/
theorem follows_update [Std.Refl r] {f : S → Except E B} {g : S → B → S}
    (h : ∀ s b, f s = .ok b → r s (g s b)) :
    Follows r (do
      let s ← get
      let b ← (ofExcept (f s) : Program E S B)
      set (g s b)) := by
  intro s
  rw [ensures_bind, ensures_get, ensures_bind, ensures_ofExcept]
  exact ⟨fun b hb => h s b hb, fun _ _ => refl_of r s⟩

theorem Follows.failing [Std.Refl r] {fault : Option E} (hx : Follows r x) :
    Follows r (failing fault x) := by
  intro s
  exact ensures_failing.mpr ⟨fun _ _ => refl_of r s, fun _ => hx s⟩

theorem Follows.ite {p : Prop} [Decidable p] {y : Program E S A} (hx : Follows r x)
    (hy : Follows r y) : Follows r (if p then x else y) := by
  split
  · exact hx
  · exact hy

theorem Follows.bind [IsTrans S r] {f : A → Program E S B} (hx : Follows r x)
    (hf : ∀ a, Follows r (f a)) : Follows r (x >>= f) := by
  intro s
  refine ensures_bind.mpr ((hx s).mono ?_ fun _ _ h => h)
  intro a s₁ h₁
  exact (hf a s₁).mono (fun _ _ h => trans_of r h₁ h) fun _ _ h => trans_of r h₁ h

theorem Follows.tryCatch [IsTrans S r] {h : E → Program E S A} (hx : Follows r x)
    (hh : ∀ e, Follows r (h e)) : Follows r (tryCatch x h) := by
  intro s
  refine ensures_tryCatch.mpr ((hx s).mono (fun _ _ h => h) ?_)
  intro e s₁ h₁
  exact (hh e s₁).mono (fun _ _ h => trans_of r h₁ h) fun _ _ h => trans_of r h₁ h

theorem Follows.forM [Std.Refl r] [IsTrans S r] {f : B → Program E S Unit} {bs : List B}
    (hf : ∀ b, Follows r (f b)) : Follows r (forM bs f) := by
  induction bs with
  | nil => exact follows_pure ()
  | cons b bs ih =>
    rw [List.forM_cons]
    exact (hf b).bind fun _ => ih

theorem Follows.mapM [Std.Refl r] [IsTrans S r] {f : B → Program E S A} (hf : ∀ b, Follows r (f b))
    (bs : List B) : Follows r (bs.mapM f) := by
  induction bs with
  | nil => exact follows_pure []
  | cons b bs ih =>
    rw [List.mapM_cons]
    exact (hf b).bind fun _ => ih.bind fun _ => follows_pure _

theorem Follows.foldlM [Std.Refl r] [IsTrans S r] {f : A → B → Program E S A}
    (hf : ∀ a b, Follows r (f a b)) (bs : List B) (a : A) : Follows r (bs.foldlM f a) := by
  induction bs generalizing a with
  | nil => exact follows_pure a
  | cons b bs ih =>
    rw [List.foldlM_cons]
    exact (hf a b).bind ih

end Follows

section Raises

/-- Every error that a program raises is of a kind. -/
def Raises (P : E → Prop) (x : Program E S A) : Prop :=
  ∀ s, Ensures x s (fun _ _ => True) fun e _ => P e

variable {P : E → Prop}

theorem raises_pure (a : A) : Raises P (pure a : Program E S A) := fun _ => trivial

theorem raises_throw {e : E} (h : P e) : Raises P (throw e : Program E S A) := fun _ => h

theorem raises_get : Raises P (get : Program E S S) := fun _ => trivial

theorem raises_set (s : S) : Raises P (set s : Program E S PUnit) := fun _ => trivial

theorem raises_modify (f : S → S) : Raises P (modify f : Program E S PUnit) := fun _ => trivial

theorem raises_ofExcept {result : Except E A} (h : ∀ e, result = .error e → P e) :
    Raises P (ofExcept result : Program E S A) :=
  fun _ => ensures_ofExcept.mpr ⟨fun _ _ => trivial, h⟩

theorem Raises.failing {fault : Option E} (hx : Raises P x) (h : ∀ e, fault = some e → P e) :
    Raises P (failing fault x) :=
  fun s => ensures_failing.mpr ⟨h, fun _ => hx s⟩

theorem Raises.bind {f : A → Program E S B} (hx : Raises P x) (hf : ∀ a, Raises P (f a)) :
    Raises P (x >>= f) :=
  fun s => ensures_bind.mpr ((hx s).mono (fun a s' _ => hf a s') fun _ _ h => h)

theorem raises_mapM {f : A → Program E S B} (hf : ∀ a, Raises P (f a)) (as : List A) :
    Raises P (as.mapM f) := by
  induction as with
  | nil => exact raises_pure []
  | cons a as ih =>
    rw [List.mapM_cons]
    exact (hf a).bind fun _ => ih.bind fun _ => raises_pure _

theorem raises_foldlM {f : B → A → Program E S B} (hf : ∀ b a, Raises P (f b a)) (as : List A)
    (b : B) : Raises P (as.foldlM f b) := by
  induction as generalizing b with
  | nil => exact raises_pure b
  | cons a as ih =>
    rw [List.foldlM_cons]
    exact (hf b a).bind fun b' => ih b'

end Raises

end Program

/-- A property of each operation and the state before it, along a whole run. -/
def Along {O : Type} (step : S → O → S) (P : S → O → Prop) : List O → S → Prop
  | [], _ => True
  | o :: os, s => P s o ∧ Along step P os (step s o)

theorem Along.of_forall {O : Type} {step : S → O → S} {P : S → O → Prop} (os : List O) {s : S}
    (h : ∀ o ∈ os, ∀ s, P s o) : Along step P os s := by
  induction os generalizing s with
  | nil => trivial
  | cons o os ih =>
    exact ⟨h o List.mem_cons_self s, ih fun o' ho' => h o' (List.mem_cons_of_mem o ho')⟩

theorem Along.of_forall_prefix {O : Type} {step : S → O → S} {P : S → O → Prop} {os : List O} {s : S}
    (h : ∀ pre o post, os = pre ++ o :: post → P (pre.foldl step s) o) : Along step P os s := by
  induction os generalizing s with
  | nil => trivial
  | cons o os ih =>
    refine ⟨h [] o os rfl, ih ?_⟩
    rintro pre o' post rfl
    exact h (o :: pre) o' post rfl

theorem Along.of_append {O : Type} {step : S → O → S} {P : S → O → Prop} {os os' : List O} {s : S}
    (h : Along step P (os ++ os') s) : Along step P os s := by
  induction os generalizing s with
  | nil => trivial
  | cons o os ih => exact ⟨h.1, ih h.2⟩

theorem Along.after {O : Type} {step : S → O → S} {P : S → O → Prop} {os os' : List O} {s : S}
    (h : Along step P (os ++ os') s) : Along step P os' (os.foldl step s) := by
  induction os generalizing s with
  | nil => exact h
  | cons o os ih => exact ih h.2

/-- What an invariant gives for one operation it gives along every run that keeps it. -/
theorem Along.of_invariant {O : Type} {step : S → O → S} {P Q : S → O → Prop} {I : S → Prop}
    {os : List O} {s : S} (hs : I s) (hP : Along step P os s)
    (hstep : ∀ o ∈ os, ∀ s, I s → P s o → I (step s o) ∧ Q s o) : Along step Q os s := by
  induction os generalizing s with
  | nil => trivial
  | cons o os ih =>
    obtain ⟨ho, hos⟩ := hP
    obtain ⟨hI, hQ⟩ := hstep o List.mem_cons_self s hs ho
    exact ⟨hQ, ih hI hos fun o' ho' => hstep o' (List.mem_cons_of_mem o ho')⟩

/-- A run whose steps keep an invariant ends in a state that has it. -/
theorem Along.final {O : Type} {step : S → O → S} {P : S → O → Prop} {I : S → Prop}
    {os : List O} {s : S} (hP : Along step P os s) (hs : I s)
    (hstep : ∀ o ∈ os, ∀ s, I s → P s o → I (step s o)) : I (os.foldl step s) := by
  induction os generalizing s with
  | nil => exact hs
  | cons o os ih =>
    obtain ⟨ho, hos⟩ := hP
    exact ih hos (hstep o List.mem_cons_self s hs ho)
      fun o' ho' => hstep o' (List.mem_cons_of_mem o ho')

end DomainRag
