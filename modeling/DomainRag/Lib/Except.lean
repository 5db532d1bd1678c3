import Mathlib.Data.List.Forall2

/-! # Computations that may raise

Inversion rules: what must have happened when a sequence, a loop or a lazy conjunction of
fallible steps returns a result. A search returns if none of the tests that it comes to raises, and
then it finds what a test that never raises finds.
-/

namespace DomainRag

variable {E A B C : Type}

theorem Except.bind_eq_ok_iff {x : Except E A} {f : A → Except E B} {b : B} :
    (x >>= f) = .ok b ↔ ∃ a, x = .ok a ∧ f a = .ok b := by
  cases x with
  | error e => exact ⟨nofun, nofun⟩
  | ok a =>
    constructor
    · intro h
      exact ⟨a, rfl, h⟩
    · rintro ⟨_, ⟨⟩, h⟩
      exact h

theorem Except.map_eq_ok_iff {x : Except E A} {f : A → B} {b : B} :
    (f <$> x) = .ok b ↔ ∃ a, x = .ok a ∧ f a = b := by
  cases x with
  | error e => exact ⟨nofun, nofun⟩
  | ok a =>
    constructor
    · intro h
      exact ⟨a, rfl, Except.ok.inj h⟩
    · rintro ⟨_, ⟨⟩, rfl⟩
      rfl

theorem Except.mapError_eq_ok_iff {E' : Type} {f : E → E'} {x : Except E A} {a : A} :
    x.mapError f = .ok a ↔ x = .ok a := by
  cases x <;> simp [Except.mapError]

theorem Except.mapError_eq_error_iff {E' : Type} {f : E → E'} {x : Except E A} {e' : E'} :
    x.mapError f = .error e' ↔ ∃ e, x = .error e ∧ f e = e' := by
  cases x <;> simp [Except.mapError]

/-- A computation that was run and checked has returned. -/
theorem exists_ok_of_any {x : Except E A} {p : A → Bool} (h : x.toOption.any p = true) :
    ∃ a, x = .ok a ∧ p a = true := by
  cases x with
  | error e => cases h
  | ok a => exact ⟨a, rfl, h⟩

theorem mapM_eq_ok_iff {f : A → Except E B} {xs : List A} {ys : List B} :
    xs.mapM f = .ok ys ↔ List.Forall₂ (fun x y => f x = .ok y) xs ys := by
  induction xs generalizing ys with
  | nil =>
    rw [List.mapM_nil, List.forall₂_nil_left_iff]
    constructor
    · intro h
      exact (Except.ok.inj h).symm
    · rintro rfl
      rfl
  | cons x xs ih =>
    rw [List.mapM_cons, Except.bind_eq_ok_iff, List.forall₂_cons_left_iff]
    constructor
    · rintro ⟨y, hy, h⟩
      obtain ⟨ys', hys', h⟩ := Except.bind_eq_ok_iff.mp h
      cases h
      exact ⟨y, ys', hy, ih.mp hys', rfl⟩
    · rintro ⟨y, ys', hy, hys', rfl⟩
      refine ⟨y, hy, Except.bind_eq_ok_iff.mpr ⟨ys', ih.mpr hys', rfl⟩⟩

theorem mapM_congr {f g : A → Except E B} {xs : List A} (h : ∀ x ∈ xs, f x = g x) :
    xs.mapM f = xs.mapM g := by
  induction xs with
  | nil => rfl
  | cons x xs ih =>
    rw [List.mapM_cons, List.mapM_cons, h x List.mem_cons_self,
      ih fun y hy => h y (List.mem_cons_of_mem x hy)]

theorem exists_of_mem_mapM {f : A → Except E B} {xs : List A} {ys : List B} {y : B}
    (h : xs.mapM f = .ok ys) (hy : y ∈ ys) : ∃ x ∈ xs, f x = .ok y := by
  have hforall := mapM_eq_ok_iff.mp h
  clear h
  induction hforall with
  | nil => cases hy
  | cons hx _ ih =>
    obtain rfl | hy := List.mem_cons.mp hy
    · exact ⟨_, List.mem_cons_self, hx⟩
    · obtain ⟨x, hmem, hx⟩ := ih hy
      exact ⟨x, List.mem_cons_of_mem _ hmem, hx⟩

theorem getElem?_of_forall₂ {R : A → B → Prop} {xs : List A} {ys : List B}
    (h : List.Forall₂ R xs ys) {i : Nat} {x : A} (hx : xs[i]? = some x) :
    ∃ y, ys[i]? = some y ∧ R x y := by
  induction h generalizing i with
  | nil => cases hx
  | cons hxy _ ih =>
    cases i with
    | zero =>
      cases hx
      exact ⟨_, rfl, hxy⟩
    | succ i => exact ih hx

theorem getElem?_of_forall₂_right {R : A → B → Prop} {xs : List A} {ys : List B}
    (h : List.Forall₂ R xs ys) {i : Nat} {y : B} (hy : ys[i]? = some y) :
    ∃ x, xs[i]? = some x ∧ R x y :=
  getElem?_of_forall₂ h.flip hy

theorem exists_of_mem_forall₂ {R : A → B → Prop} {xs : List A} {ys : List B}
    (h : List.Forall₂ R xs ys) {x : A} (hx : x ∈ xs) : ∃ y ∈ ys, R x y := by
  obtain ⟨i, hi⟩ := List.mem_iff_getElem?.mp hx
  obtain ⟨y, hy, hxy⟩ := getElem?_of_forall₂ h hi
  exact ⟨y, List.mem_of_getElem? hy, hxy⟩

theorem getElem?_of_prefix {xs ys : List A} (h : xs <+: ys) {i : Nat} {x : A}
    (hx : xs[i]? = some x) : ys[i]? = some x := by
  obtain ⟨rest, rfl⟩ := h
  rw [List.getElem?_append_left (List.getElem?_eq_some_iff.mp hx).1, hx]

theorem getElem?_concat_eq_some {xs : List A} {x y : A} {i : Nat}
    (h : (xs ++ [x])[i]? = some y) : xs[i]? = some y ∧ i < xs.length ∨ i = xs.length ∧ x = y := by
  obtain hlt | hge := Nat.lt_or_ge i xs.length
  · rw [List.getElem?_append_left hlt] at h
    exact .inl ⟨h, hlt⟩
  · rw [List.getElem?_append_right hge] at h
    have hone := (List.getElem?_eq_some_iff.mp h).1
    rw [List.length_singleton] at hone
    have hlast : i = xs.length := by omega
    rw [hlast, Nat.sub_self] at h
    exact .inr ⟨hlast, Option.some.inj h⟩

/-- A lazy conjunction that comes out true has evaluated every conjunct to true. -/
theorem allM_eq_ok_true_iff {p : A → Except E Bool} {xs : List A} :
    xs.allM p = .ok true ↔ ∀ x ∈ xs, p x = .ok true := by
  induction xs with
  | nil => exact ⟨fun _ => nofun, fun _ => rfl⟩
  | cons x xs ih =>
    rw [List.allM_cons, Except.bind_eq_ok_iff, List.forall_mem_cons]
    constructor
    · rintro ⟨b, hb, h⟩
      cases b with
      | false => cases h
      | true => exact ⟨hb, ih.mp h⟩
    · rintro ⟨hx, hxs⟩
      exact ⟨true, hx, ih.mpr hxs⟩

def Returns (x : Except E A) : Prop := ∃ a, x = .ok a

theorem returns_ok (a : A) : Returns (E := E) (.ok a) := ⟨a, rfl⟩

theorem returns_pure (a : A) : Returns (pure a : Except E A) := ⟨a, rfl⟩

theorem not_returns_error (e : E) : ¬ Returns (.error e : Except E A) := nofun

theorem returns_bind_iff {x : Except E A} {f : A → Except E B} :
    Returns (x >>= f) ↔ ∃ a, x = .ok a ∧ Returns (f a) := by
  constructor
  · rintro ⟨b, h⟩
    obtain ⟨a, ha, hb⟩ := Except.bind_eq_ok_iff.mp h
    exact ⟨a, ha, b, hb⟩
  · rintro ⟨a, ha, b, hb⟩
    exact ⟨b, Except.bind_eq_ok_iff.mpr ⟨a, ha, hb⟩⟩

/-- What comes after a step returns or not whatever the step gives. -/
theorem returns_bind_iff_and {x : Except E A} {f : A → Except E B} {Q : Prop}
    (hf : ∀ a, Returns (f a) ↔ Q) : Returns (x >>= f) ↔ Returns x ∧ Q := by
  rw [returns_bind_iff]
  constructor
  · rintro ⟨a, ha, h⟩
    exact ⟨⟨a, ha⟩, (hf a).mp h⟩
  · rintro ⟨⟨a, ha⟩, h⟩
    exact ⟨a, ha, (hf a).mpr h⟩

theorem returns_foldlM_iff {C : Type} {f : C → A → Except E C} {P : A → Prop}
    (hf : ∀ c a, Returns (f c a) ↔ P a) {xs : List A} (c : C) :
    Returns (xs.foldlM f c) ↔ ∀ x ∈ xs, P x := by
  induction xs generalizing c with
  | nil => exact ⟨fun _ => nofun, fun _ => returns_ok c⟩
  | cons x xs ih => rw [List.foldlM_cons, returns_bind_iff_and ih, hf, List.forall_mem_cons]

theorem returns_mapM_iff {f : A → Except E B} {xs : List A} :
    Returns (xs.mapM f) ↔ ∀ x ∈ xs, Returns (f x) := by
  induction xs with
  | nil => exact ⟨fun _ => nofun, fun _ => returns_ok []⟩
  | cons x xs ih =>
    rw [List.mapM_cons, returns_bind_iff, List.forall_mem_cons]
    constructor
    · rintro ⟨y, hy, h⟩
      obtain ⟨ys, hys, -⟩ := returns_bind_iff.mp h
      exact ⟨⟨y, hy⟩, ih.mp ⟨ys, hys⟩⟩
    · rintro ⟨⟨y, hy⟩, hxs⟩
      obtain ⟨ys, hys⟩ := ih.mpr hxs
      exact ⟨y, hy, returns_bind_iff.mpr ⟨ys, hys, returns_ok _⟩⟩

/-- Every error that a computation raises is of a kind. -/
def Throws (P : E → Prop) (x : Except E A) : Prop := ∀ e, x = .error e → P e

theorem throws_ok {P : E → Prop} (a : A) : Throws P (.ok a) := nofun

theorem throws_error {P : E → Prop} {e : E} (h : P e) : Throws (A := A) P (.error e) := by
  rintro _ ⟨⟩
  exact h

theorem Throws.bind {P : E → Prop} {x : Except E A} {f : A → Except E B} (hx : Throws P x)
    (hf : ∀ a, Throws P (f a)) : Throws P (x >>= f) := by
  cases x with
  | error e =>
    rintro _ ⟨⟩
    exact hx e rfl
  | ok a => exact hf a

theorem throws_mapM {P : E → Prop} {f : A → Except E B} (h : ∀ x, Throws P (f x)) (xs : List A) :
    Throws P (xs.mapM f) := by
  induction xs with
  | nil => exact throws_ok []
  | cons x xs ih =>
    rw [List.mapM_cons]
    exact (h x).bind fun y => ih.bind fun ys => throws_ok (y :: ys)

/-- Every entry that comes after passed entries only is safe. -/
def UpTo (passed safe : A → Prop) (xs : List A) : Prop :=
  ∀ front x back, xs = front ++ x :: back → (∀ y ∈ front, passed y) → safe x

theorem upTo_nil {passed safe : A → Prop} : UpTo passed safe [] :=
  fun _ _ _ h => absurd h (by simp)

theorem upTo_cons_iff {passed safe : A → Prop} {x : A} {xs : List A} :
    UpTo passed safe (x :: xs) ↔ safe x ∧ (passed x → UpTo passed safe xs) := by
  constructor
  · intro h
    refine ⟨h [] x xs rfl nofun, fun hx front y back hxs hfront => ?_⟩
    exact h (x :: front) y back (congrArg (x :: ·) hxs) (List.forall_mem_cons.mpr ⟨hx, hfront⟩)
  · rintro ⟨hx, hxs⟩ front y back heq hfront
    cases front with
    | nil =>
      cases heq
      exact hx
    | cons z front =>
      cases heq
      have hfront := List.forall_mem_cons.mp hfront
      exact hxs hfront.1 front y back rfl hfront.2

theorem UpTo.congr {passed passed' safe safe' : A → Prop} (hpassed : ∀ x, passed x ↔ passed' x)
    (hsafe : ∀ x, safe x ↔ safe' x) (xs : List A) : UpTo passed safe xs ↔ UpTo passed' safe' xs := by
  simp only [UpTo, hpassed, hsafe]

/-- A lazy conjunction returns when no conjunct raises that comes after true ones only. -/
theorem returns_allM_iff {p : A → Except E Bool} {xs : List A} :
    Returns (xs.allM p) ↔ UpTo (fun x => p x = .ok true) (fun x => Returns (p x)) xs := by
  induction xs with
  | nil => exact ⟨fun _ => upTo_nil, fun _ => returns_ok true⟩
  | cons x xs ih =>
    rw [List.allM_cons, returns_bind_iff, upTo_cons_iff, ← ih]
    constructor
    · rintro ⟨b, hb, h⟩
      refine ⟨⟨b, hb⟩, fun htrue => ?_⟩
      obtain rfl : b = true := Except.ok.inj (hb.symm.trans htrue)
      exact h
    · rintro ⟨⟨b, hb⟩, h⟩
      cases b with
      | false => exact ⟨false, hb, returns_ok false⟩
      | true => exact ⟨true, hb, h hb⟩

/-- The operator `and` on tests: the second one runs only when the first one holds. -/
def lazyAnd (x y : Except E Bool) : Except E Bool := do if ← x then y else return false

def lazyOr (x y : Except E Bool) : Except E Bool := do if ← x then return true else y

/-- A test that does not raise and tells whether a proposition holds. -/
def Decides (x : Except E Bool) (P : Prop) : Prop := ∃ b, x = .ok b ∧ (b = true ↔ P)

namespace Decides

variable {x y : Except E Bool} {P Q : Prop}

theorem eq_ok_true_iff (h : Decides x P) : x = .ok true ↔ P := by
  obtain ⟨b, rfl, hb⟩ := h
  rw [Except.ok.injEq, hb]

theorem of_eq {b : Bool} (h : b = true ↔ P) : Decides (E := E) (.ok b) P := ⟨b, rfl, h⟩

theorem never : Decides (E := E) (.ok false) False := ⟨false, rfl, nofun, nofun⟩

theorem always : Decides (E := E) (.ok true) True := ⟨true, rfl, fun _ => trivial, fun _ => rfl⟩

theorem not (h : Decides x P) : Decides (do return !(← x)) (¬ P) := by
  obtain ⟨b, rfl, hb⟩ := h
  refine ⟨!b, rfl, ?_⟩
  rw [← hb, Bool.not_eq_true', Bool.not_eq_true]

theorem and (hx : Decides x P) (hy : P → Decides y Q) : Decides (lazyAnd x y) (P ∧ Q) := by
  obtain ⟨b, rfl, hb⟩ := hx
  cases b with
  | false => exact ⟨false, rfl, nofun, fun h => absurd (hb.mpr h.1) nofun⟩
  | true =>
    obtain ⟨c, rfl, hc⟩ := hy (hb.mp rfl)
    exact ⟨c, rfl, fun h => ⟨hb.mp rfl, hc.mp h⟩, fun h => hc.mpr h.2⟩

theorem or (hx : Decides x P) (hy : ¬ P → Decides y Q) : Decides (lazyOr x y) (P ∨ Q) := by
  obtain ⟨b, rfl, hb⟩ := hx
  cases b with
  | true => exact ⟨true, rfl, fun _ => .inl (hb.mp rfl), fun _ => rfl⟩
  | false =>
    have hnot : ¬ P := fun h => absurd (hb.mpr h) nofun
    obtain ⟨c, rfl, hc⟩ := hy hnot
    exact ⟨c, rfl, fun h => .inr (hc.mp h), fun h => hc.mpr (h.resolve_left hnot)⟩

theorem congr (h : Decides x P) (hPQ : P ↔ Q) : Decides x Q := by
  obtain ⟨b, hx, hb⟩ := h
  exact ⟨b, hx, hb.trans hPQ⟩

end Decides

def filterOk (p : A → Except E Bool) : List A → Except E (List A)
  | [] => .ok []
  | x :: xs => do
    let keep ← p x
    let rest ← filterOk p xs
    return if keep then x :: rest else rest

def passes (p : A → Except E Bool) (x : A) : Bool :=
  match p x with
  | .ok b => b
  | .error _ => false

theorem passes_iff {p : A → Except E Bool} {x : A} : passes p x = true ↔ p x = .ok true := by
  unfold passes
  cases p x with
  | error e => exact ⟨nofun, nofun⟩
  | ok b => exact ⟨congrArg Except.ok, Except.ok.inj⟩

theorem filterOk_eq {p : A → Except E Bool} {xs ys : List A} (h : filterOk p xs = .ok ys) :
    ys = xs.filter (passes p) := by
  induction xs generalizing ys with
  | nil => exact (Except.ok.inj h).symm
  | cons x xs ih =>
    obtain ⟨keep, hx, h⟩ := Except.bind_eq_ok_iff.mp h
    obtain ⟨rest, hrest, h⟩ := Except.bind_eq_ok_iff.mp h
    cases h
    have hpasses : passes p x = keep := by rw [passes, hx]
    rw [ih hrest, List.filter_cons, hpasses]

theorem returns_filterOk_iff {p : A → Except E Bool} {xs : List A} :
    Returns (filterOk p xs) ↔ ∀ x ∈ xs, Returns (p x) := by
  induction xs with
  | nil => exact ⟨fun _ => List.forall_mem_nil _, fun _ => returns_ok []⟩
  | cons x xs ih =>
    rw [filterOk, List.forall_mem_cons, ← ih]
    constructor
    · intro h
      obtain ⟨keep, hkeep, hrest⟩ := returns_bind_iff.mp h
      obtain ⟨rest, hrest, -⟩ := returns_bind_iff.mp hrest
      exact ⟨⟨keep, hkeep⟩, rest, hrest⟩
    · rintro ⟨⟨keep, hkeep⟩, rest, hrest⟩
      exact returns_bind_iff.mpr ⟨keep, hkeep, returns_bind_iff.mpr ⟨rest, hrest, returns_pure _⟩⟩

section Search

variable {test : A → Except E Bool} {p : A → Bool} {xs : List A}

theorem findM?_eq_ok_iff (hp : ∀ x b, test x = .ok b → b = p x) {found : Option A} :
    xs.findM? test = .ok found ↔
      UpTo (fun x => p x = false) (fun x => Returns (test x)) xs ∧ found = xs.find? p := by
  induction xs with
  | nil =>
    constructor
    · rintro ⟨⟩
      exact ⟨upTo_nil, rfl⟩
    · rintro ⟨-, rfl⟩
      rfl
  | cons x xs ih =>
    rw [List.findM?, Except.bind_eq_ok_iff, upTo_cons_iff, List.find?_cons]
    constructor
    · rintro ⟨b, hx, h⟩
      rw [← hp x b hx]
      cases b with
      | true =>
        cases h
        exact ⟨⟨⟨_, hx⟩, nofun⟩, rfl⟩
      | false =>
        obtain ⟨hrest, rfl⟩ := ih.mp h
        exact ⟨⟨⟨_, hx⟩, fun _ => hrest⟩, rfl⟩
    · rintro ⟨⟨⟨b, hx⟩, hrest⟩, hfound⟩
      rw [← hp x b hx] at hrest hfound
      cases b with
      | true =>
        cases hfound
        exact ⟨true, hx, rfl⟩
      | false => exact ⟨false, hx, ih.mpr ⟨hrest rfl, hfound⟩⟩

theorem anyM_eq_isSome_findM? : xs.anyM test = Option.isSome <$> xs.findM? test := by
  induction xs with
  | nil => rfl
  | cons x xs ih =>
    rw [List.anyM, List.findM?]
    cases test x with
    | error e => rfl
    | ok b =>
      cases b with
      | true => rfl
      | false => exact ih

theorem anyM_eq_ok_iff (hp : ∀ x b, test x = .ok b → b = p x) {b : Bool} :
    xs.anyM test = .ok b ↔
      UpTo (fun x => p x = false) (fun x => Returns (test x)) xs ∧ b = xs.any p := by
  rw [anyM_eq_isSome_findM?, Except.map_eq_ok_iff, ← List.isSome_find?]
  simp only [findM?_eq_ok_iff hp]
  constructor
  · rintro ⟨found, ⟨hreturns, rfl⟩, rfl⟩
    exact ⟨hreturns, rfl⟩
  · rintro ⟨hreturns, rfl⟩
    exact ⟨_, ⟨hreturns, rfl⟩, rfl⟩

theorem allM_eq_ok_iff (hp : ∀ x b, test x = .ok b → b = p x) {b : Bool} :
    xs.allM test = .ok b ↔
      UpTo (fun x => p x = true) (fun x => Returns (test x)) xs ∧ b = xs.all p := by
  induction xs with
  | nil =>
    constructor
    · rintro ⟨⟩
      exact ⟨upTo_nil, rfl⟩
    · rintro ⟨-, rfl⟩
      rfl
  | cons x xs ih =>
    rw [List.allM_cons, Except.bind_eq_ok_iff, upTo_cons_iff, List.all_cons]
    constructor
    · rintro ⟨b', hx, h⟩
      rw [← hp x b' hx]
      cases b' with
      | true =>
        obtain ⟨hrest, rfl⟩ := ih.mp h
        exact ⟨⟨⟨_, hx⟩, fun _ => hrest⟩, rfl⟩
      | false =>
        cases h
        exact ⟨⟨⟨_, hx⟩, nofun⟩, rfl⟩
    · rintro ⟨⟨⟨b', hx⟩, hrest⟩, hall⟩
      rw [← hp x b' hx] at hrest hall
      cases b' with
      | true => exact ⟨true, hx, ih.mpr ⟨hrest rfl, hall⟩⟩
      | false =>
        cases hall
        exact ⟨false, hx, rfl⟩

end Search

end DomainRag
