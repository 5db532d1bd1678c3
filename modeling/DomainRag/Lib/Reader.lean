import Mathlib.Data.List.Infix
import Mathlib.Data.List.Basic

/-! # Readers of a stream that arrives in pieces

A reader turns the next piece of its input into output and keeps what it cannot decide yet. The
law of a reader is that the borders between the pieces do not matter; readers that are put one
after the other keep it.
-/

/-- What a reader does with a piece of its input, and the law of the borders. -/
structure Reader (S A B : Type) where
  read : S → List A → S × List B
  read_nil : ∀ s, read s [] = (s, [])
  read_append : ∀ s as as', read s (as ++ as') =
    ((read (read s as).1 as').1, (read s as).2 ++ (read (read s as).1 as').2)

namespace Reader

variable {S T A B C : Type} (r : Reader S A B)

def readAll : S → List (List A) → S × List B
  | s, [] => (s, [])
  | s, as :: rest =>
    ((readAll (r.read s as).1 rest).1, (r.read s as).2 ++ (readAll (r.read s as).1 rest).2)

variable {r}

/-- A stream is read in the same way however it is cut into pieces. -/
theorem readAll_eq (s : S) (pieces : List (List A)) :
    r.readAll s pieces = r.read s pieces.flatten := by
  induction pieces generalizing s with
  | nil => exact (r.read_nil s).symm
  | cons as rest ih => rw [readAll, ih, List.flatten_cons, r.read_append]

/-- What is read of a stream that was cut off comes first in what is read of the whole of it. -/
theorem read_prefix {as as' : List A} (s : S) (h : as <+: as') :
    (r.read s as).2 <+: (r.read s as').2 := by
  obtain ⟨rest, rfl⟩ := h
  rw [r.read_append]
  exact List.prefix_append _ _

section Step

variable (step : S → A → S × List B)

def stepAll : S → List A → S × List B
  | s, [] => (s, [])
  | s, a :: as => ((stepAll (step s a).1 as).1, (step s a).2 ++ (stepAll (step s a).1 as).2)

theorem stepAll_append (s : S) (as as' : List A) : stepAll step s (as ++ as') =
    ((stepAll step (stepAll step s as).1 as').1,
      (stepAll step s as).2 ++ (stepAll step (stepAll step s as).1 as').2) := by
  induction as generalizing s with
  | nil => rfl
  | cons a as ih => simp only [List.cons_append, stepAll, ih, List.append_assoc]

/-- A reader that takes its input element by element. -/
def ofStep : Reader S A B where
  read := stepAll step
  read_nil _ := rfl
  read_append := stepAll_append step

end Step

/-- One reader after the other. -/
def comp (r : Reader S A B) (r' : Reader T B C) : Reader (S × T) A C where
  read s as :=
    (((r.read s.1 as).1, (r'.read s.2 (r.read s.1 as).2).1), (r'.read s.2 (r.read s.1 as).2).2)
  read_nil := by
    rintro ⟨s, t⟩
    simp only [r.read_nil, r'.read_nil]
  read_append := by
    rintro ⟨s, t⟩ as as'
    simp only [r.read_append, r'.read_append]

def filterMap (r : Reader S A B) (f : B → Option C) : Reader S A C where
  read s as := ((r.read s as).1, (r.read s as).2.filterMap f)
  read_nil s := by rw [r.read_nil, List.filterMap_nil]
  read_append s as as' := by simp only [r.read_append, List.filterMap_append]

end Reader

/-- How the first frame is cut off a buffer. A cut does not look at what comes after its frame. -/
structure Framing (A B : Type) where
  cut : List A → Option (B × List A)
  shorter : ∀ {buffer frame rest}, cut buffer = some (frame, rest) → rest.length < buffer.length
  stable : ∀ {buffer frame rest}, cut buffer = some (frame, rest) → ∀ as,
    cut (buffer ++ as) = some (frame, rest ++ as)

namespace Framing

variable {A B : Type} (f : Framing A B)

def drainFor : Nat → List A → List A × List B
  | 0, buffer => (buffer, [])
  | turns + 1, buffer =>
    match f.cut buffer with
    | none => (buffer, [])
    | some (frame, rest) => ((drainFor turns rest).1, frame :: (drainFor turns rest).2)

/-- The loop that cuts off one frame after the other: each of its turns shortens the buffer. -/
def drain (buffer : List A) : List A × List B := f.drainFor buffer.length buffer

variable {f} {buffer rest : List A} {frame : B}

theorem cut_nil : f.cut [] = none := by
  cases h : f.cut [] with
  | none => rfl
  | some p => exact absurd (f.shorter h) (Nat.not_lt_zero _)

theorem drainFor_congr {m n : Nat} (hm : buffer.length ≤ m) (hn : buffer.length ≤ n) :
    f.drainFor m buffer = f.drainFor n buffer := by
  induction m generalizing n buffer with
  | zero =>
    obtain rfl := List.length_eq_zero_iff.mp (Nat.le_zero.mp hm)
    cases n with
    | zero => rfl
    | succ n => simp only [drainFor, cut_nil]
  | succ m ih =>
    cases n with
    | zero =>
      obtain rfl := List.length_eq_zero_iff.mp (Nat.le_zero.mp hn)
      simp only [drainFor, cut_nil]
    | succ n =>
      rw [drainFor, drainFor]
      cases hcut : f.cut buffer with
      | none => rfl
      | some p =>
        have hlt : p.2.length < buffer.length := f.shorter hcut
        simp only
        rw [ih (n := n) (by omega) (by omega)]

theorem drain_of_none (h : f.cut buffer = none) : f.drain buffer = (buffer, []) := by
  rw [drain]
  cases hlength : buffer.length with
  | zero => rfl
  | succ n => simp only [drainFor, h]

theorem drain_of_some (h : f.cut buffer = some (frame, rest)) :
    f.drain buffer = ((f.drain rest).1, frame :: (f.drain rest).2) := by
  have hlt := f.shorter h
  rw [drain]
  cases hlength : buffer.length with
  | zero => omega
  | succ n =>
    simp only [drainFor, h]
    rw [drain, drainFor_congr (n := rest.length) (by omega) le_rfl]

/-- Induction on the frames that a buffer holds. -/
theorem drainInduction {P : List A → Prop} (none : ∀ buffer, f.cut buffer = none → P buffer)
    (some : ∀ buffer frame rest, f.cut buffer = some (frame, rest) → P rest → P buffer)
    (buffer : List A) : P buffer := by
  induction hlength : buffer.length using Nat.strongRecOn generalizing buffer with
  | ind n ih =>
    cases hcut : f.cut buffer with
    | none => exact none buffer hcut
    | some p => exact some buffer p.1 p.2 hcut (ih p.2.length (hlength ▸ f.shorter hcut) p.2 rfl)

/-- No frame is left in the buffer. -/
theorem cut_drain (buffer : List A) : f.cut (f.drain buffer).1 = none := by
  induction buffer using f.drainInduction with
  | none buffer hcut => rw [drain_of_none hcut, hcut]
  | some buffer frame rest hcut ih => rw [drain_of_some hcut, ih]

theorem drain_append (buffer as : List A) : f.drain (buffer ++ as) =
    ((f.drain ((f.drain buffer).1 ++ as)).1,
      (f.drain buffer).2 ++ (f.drain ((f.drain buffer).1 ++ as)).2) := by
  induction buffer using f.drainInduction with
  | none buffer hcut => rw [drain_of_none hcut, List.nil_append]
  | some buffer frame rest hcut ih =>
    rw [drain_of_some (f.stable hcut as), ih, drain_of_some hcut, List.cons_append]

/-- A buffer without a frame. -/
abbrev Buffer (f : Framing A B) : Type := { buffer : List A // f.cut buffer = none }

def Buffer.empty : f.Buffer := ⟨[], cut_nil⟩

/-- Frames that the cut finds again come out of the buffer in their order. -/
theorem drain_flatMap {C : Type} (f : Framing A B) {text : C → List A} {frameOf : C → B} {cs : List C}
    (h : ∀ c ∈ cs, ∀ rest, f.cut (text c ++ rest) = some (frameOf c, rest)) (tail : List A) :
    f.drain (cs.flatMap text ++ tail) = ((f.drain tail).1, cs.map frameOf ++ (f.drain tail).2) := by
  induction cs with
  | nil => rfl
  | cons c cs ih =>
    obtain ⟨hc, hcs⟩ := List.forall_mem_cons.mp h
    rw [List.flatMap_cons, List.append_assoc, drain_of_some (hc _), ih hcs, List.map_cons,
      List.cons_append]

/-- A part of a frame is not taken for a frame. -/
theorem cut_of_prefix {part : List A} (h : f.cut buffer = some (frame, []))
    (hstarts : part <+: buffer) (hproper : part ≠ buffer) : f.cut part = none := by
  obtain ⟨as, rfl⟩ := hstarts
  cases hcut : f.cut part with
  | none => rfl
  | some p =>
    have hstable : f.cut (part ++ as) = some (p.1, p.2 ++ as) := f.stable hcut as
    rw [h, Option.some.injEq, Prod.mk.injEq] at hstable
    have has : as = [] := (List.append_eq_nil_iff.mp hstable.2.symm).2
    exact absurd (by rw [has, List.append_nil]) hproper

variable (f) in
/-- The reader that appends what arrives to its buffer and cuts off the frames. -/
def reader : Reader f.Buffer A B where
  read buffer as := (⟨(f.drain (buffer.1 ++ as)).1, cut_drain _⟩, (f.drain (buffer.1 ++ as)).2)
  read_nil buffer := by
    simp only [List.append_nil, drain_of_none buffer.2]
  read_append buffer as as' := by
    simp only [← List.append_assoc, drain_append (buffer.1 ++ as) as']

end Framing

section Separator

variable {A : Type} [DecidableEq A] (separator : List A)

/-- The part before the first separator, and what comes after it. -/
def cutAt : List A → Option (List A × List A)
  | [] => none
  | a :: as =>
    if separator <+: a :: as then some ([], (a :: as).drop separator.length)
    else (cutAt as).map fun p => (a :: p.1, p.2)

variable {separator} {buffer frame rest : List A}

theorem eq_of_cutAt (h : cutAt separator buffer = some (frame, rest)) :
    buffer = frame ++ (separator ++ rest) := by
  induction buffer generalizing frame with
  | nil => cases h
  | cons a as ih =>
    rw [cutAt] at h
    split at h
    · rename_i hstarts
      obtain ⟨rest', hrest⟩ := hstarts
      cases h
      rw [← hrest, List.drop_left, List.nil_append]
    · obtain ⟨p, hp, hpair⟩ := Option.map_eq_some_iff.mp h
      cases hpair
      rw [ih hp, List.cons_append]

theorem cutAt_append (h : cutAt separator buffer = some (frame, rest)) (as : List A) :
    cutAt separator (buffer ++ as) = some (frame, rest ++ as) := by
  induction buffer generalizing frame with
  | nil => cases h
  | cons b bs ih =>
    rw [cutAt] at h
    rw [List.cons_append, cutAt, ← List.cons_append]
    by_cases hstarts : separator <+: b :: bs
    · rw [if_pos hstarts] at h
      cases h
      rw [if_pos (hstarts.trans (List.prefix_append _ _)),
        List.drop_append_of_le_length hstarts.length_le]
    · rw [if_neg hstarts] at h
      obtain ⟨p, hp, hpair⟩ := Option.map_eq_some_iff.mp h
      cases hpair
      -- the separator stands further on, so that it does not reach into what is appended
      have hlength : separator.length ≤ (b :: bs).length := by
        rw [eq_of_cutAt hp]
        simp only [List.length_cons, List.length_append]
        omega
      have hshort : ¬ separator <+: b :: bs ++ as := fun hlong =>
        hstarts (List.prefix_of_prefix_length_le hlong (List.prefix_append _ _) hlength)
      rw [if_neg hshort, ih hp]
      rfl

/-- Frames that each end with a separator. -/
def Framing.separated (separator : List A) (h : separator ≠ []) : Framing A (List A) where
  cut := cutAt separator
  shorter hcut := by
    have hpos := List.length_pos_iff.mpr h
    rw [eq_of_cutAt hcut]
    simp only [List.length_append]
    omega
  stable := cutAt_append

/-- The separator ends a frame in which it does not begin any earlier. -/
theorem cutAt_frame (hsep : separator ≠ [])
    (h : ∀ tail, tail ≠ [] → tail <:+ frame → ¬ separator <+: tail ++ separator) (rest : List A) :
    cutAt separator (frame ++ (separator ++ rest)) = some (frame, rest) := by
  induction frame with
  | nil =>
    obtain ⟨a, as, rfl⟩ := List.exists_cons_of_ne_nil hsep
    rw [List.nil_append, List.cons_append, cutAt, ← List.cons_append,
      if_pos (List.prefix_append _ _), List.drop_left]
  | cons a as ih =>
    have hlong : ¬ separator <+: a :: as ++ (separator ++ rest) := by
      intro hstarts
      rw [← List.append_assoc] at hstarts
      refine h (a :: as) (List.cons_ne_nil a as) (List.suffix_refl _) ?_
      refine List.prefix_of_prefix_length_le hstarts (List.prefix_append _ _) ?_
      simp only [List.length_append]
      omega
    rw [List.cons_append, cutAt, ← List.cons_append, if_neg hlong,
      ih fun tail hne htail => h tail hne (htail.trans (List.suffix_cons a as))]
    rfl

/-- Two lines end at the blank line that comes after them. -/
theorem cutAt_blankLine {lineBreak : A} {first second : List A} (hfirst : lineBreak ∉ first)
    (hsecond : lineBreak ∉ second) (hne : second ≠ []) (rest : List A) :
    cutAt [lineBreak, lineBreak]
      (first ++ lineBreak :: second ++ ([lineBreak, lineBreak] ++ rest)) =
      some (first ++ lineBreak :: second, rest) := by
  apply cutAt_frame (List.cons_ne_nil _ _)
  rintro tail htail hsuffix hstarts
  obtain ⟨a, tail, rfl⟩ := List.exists_cons_of_ne_nil htail
  rw [List.cons_append, List.cons_prefix_cons] at hstarts
  obtain ⟨rfl, hstarts⟩ := hstarts
  obtain ⟨before, hbefore⟩ := hsuffix
  rcases List.append_eq_append_iff.mp hbefore with ⟨others, rfl, hothers⟩ | ⟨others, rfl, hothers⟩
  · cases others with
    | nil =>
      obtain ⟨-, rfl⟩ := List.cons.inj hothers
      obtain ⟨b, second, rfl⟩ := List.exists_cons_of_ne_nil hne
      rw [List.cons_append, List.cons_prefix_cons] at hstarts
      exact hsecond (hstarts.1 ▸ List.mem_cons_self)
    | cons b others =>
      obtain ⟨rfl, -⟩ := List.cons.inj hothers
      exact hfirst (List.mem_append_right _ List.mem_cons_self)
  · cases others with
    | nil =>
      obtain ⟨-, rfl⟩ := List.cons.inj hothers
      obtain ⟨b, second, rfl⟩ := List.exists_cons_of_ne_nil hne
      rw [List.cons_append, List.cons_prefix_cons] at hstarts
      exact hsecond (hstarts.1 ▸ List.mem_cons_self)
    | cons b others =>
      obtain ⟨-, rfl⟩ := List.cons.inj hothers
      exact hsecond (List.mem_append_right _ List.mem_cons_self)

end Separator
