import DomainRag.Lib.Redaction

/-! # What is left of the texts

A sequence under edits consists of kept positions and of ends of inserted texts: a later edit can
cut off the beginning of a text only. A kept position that is still there has saved everything
right of it, and this decides when the edits give a redaction.
-/

namespace DomainRag.Splice

variable {α : Type}

/-- A kept position, or the text of an edit with its start, the length of what has been cut off,
and the length of the whole. -/
inductive Part where
  | kept (pos : Nat)
  | text (edit start cut len : Nat)

namespace Part

def expand : Part → List Origin
  | .kept pos => [.kept pos]
  | .text j _ cut len => (insertedText j len).drop cut

def width : Part → Nat
  | .kept _ => 1
  | .text _ _ cut len => len - cut

def shorten (n : Nat) : Part → Part
  | .kept pos => .kept pos
  | .text j start cut len => .text j start (cut + n) len

def piece : Part → Piece
  | .kept pos => .kept pos
  | .text j _ _ len => .whole j len

theorem length_expand (x : Part) : x.expand.length = x.width := by
  cases x with
  | kept pos => rfl
  | text j start cut len =>
    rw [expand, List.length_drop, insertedText, List.length_map, List.length_range, width]

theorem expand_shorten {x : Part} {n : Nat} (h : n < x.width) :
    (x.shorten n).expand = x.expand.drop n := by
  cases x with
  | kept pos =>
    obtain rfl : n = 0 := Nat.lt_one_iff.mp h
    rfl
  | text j start cut len => rw [shorten, expand, expand, List.drop_drop]

/-- What can stand left of what: positions ascend, a text stands where its edit starts, and no
text is there twice. -/
def Before : Part → Part → Prop
  | .kept i, .kept j => i < j
  | .kept i, .text _ start _ _ => i < start
  | .text _ start _ _, .kept j => start ≤ j
  | .text j _ _ _, .text j' _ _ _ => j ≠ j'

theorem Before.shorten_left {x y : Part} (n : Nat) (h : Before x y) : Before (x.shorten n) y := by
  cases x with
  | kept pos => exact h
  | text j start cut len => cases y with
    | kept pos => exact h
    | text j' start' cut' len' => exact h

end Part

open Splice.Part

section Trim

/-- Dropping origins from the left. -/
def trim : List Part → Nat → List Part
  | ps, 0 => ps
  | [], _ + 1 => []
  | x :: ps, n + 1 => if n + 1 < x.width then x.shorten (n + 1) :: ps else trim ps (n + 1 - x.width)

theorem trim_cons_of_lt {x : Part} {ps : List Part} {n : Nat} (h : n + 1 < x.width) :
    trim (x :: ps) (n + 1) = x.shorten (n + 1) :: ps := by rw [trim, if_pos h]

theorem trim_cons_of_le {x : Part} {ps : List Part} {n : Nat} (h : x.width ≤ n + 1) :
    trim (x :: ps) (n + 1) = trim ps (n + 1 - x.width) := by rw [trim, if_neg (not_lt.mpr h)]

theorem expand_trim (ps : List Part) (n : Nat) :
    (trim ps n).flatMap expand = (ps.flatMap expand).drop n := by
  induction ps generalizing n with
  | nil => cases n with
    | zero => rfl
    | succ n => rfl
  | cons x ps ih =>
    cases n with
    | zero => rfl
    | succ n =>
      by_cases hlt : n + 1 < x.width
      · rw [trim_cons_of_lt hlt, List.flatMap_cons, List.flatMap_cons, expand_shorten hlt,
          List.drop_append_of_le_length (by rw [length_expand]; omega)]
      · have hnil : x.expand.drop (n + 1) = [] :=
          List.drop_eq_nil_of_le (by rw [length_expand]; omega)
        rw [trim_cons_of_le (not_lt.mp hlt), ih, List.flatMap_cons, List.drop_append,
          length_expand, hnil, List.nil_append]

theorem mem_trim {ps : List Part} {n : Nat} {y : Part} (h : y ∈ trim ps n) :
    ∃ x ∈ ps, ∃ m, y = x.shorten m ∧ (m = 0 ∨ m < x.width) := by
  induction ps generalizing n with
  | nil => cases n with
    | zero => cases h
    | succ n => cases h
  | cons x ps ih =>
    have hwhole : y ∈ x :: ps → ∃ x' ∈ x :: ps, ∃ m, y = x'.shorten m ∧ (m = 0 ∨ m < x'.width) := by
      intro hy
      refine ⟨y, hy, 0, ?_, .inl rfl⟩
      cases y with
      | kept pos => rfl
      | text j start cut len => rfl
    cases n with
    | zero => exact hwhole h
    | succ n =>
      by_cases hlt : n + 1 < x.width
      · rw [trim_cons_of_lt hlt] at h
        obtain rfl | hy := List.mem_cons.mp h
        · exact ⟨x, List.mem_cons_self, n + 1, rfl, .inr hlt⟩
        · exact hwhole (List.mem_cons_of_mem _ hy)
      · rw [trim_cons_of_le (not_lt.mp hlt)] at h
        obtain ⟨x', hx', m, hm⟩ := ih h
        exact ⟨x', List.mem_cons_of_mem _ hx', m, hm⟩

theorem kept_mem_trim {ps : List Part} {n k : Nat} (h : .kept k ∈ trim ps n) : .kept k ∈ ps := by
  obtain ⟨x, hx, m, hm, -⟩ := mem_trim h
  cases x with
  | kept pos =>
    cases hm
    exact hx
  | text j start cut len => cases hm

theorem pairwise_trim {ps : List Part} (h : ps.Pairwise Before) (n : Nat) :
    (trim ps n).Pairwise Before := by
  induction ps generalizing n with
  | nil => cases n with
    | zero => exact h
    | succ n => exact h
  | cons x ps ih =>
    obtain ⟨hx, hps⟩ := List.pairwise_cons.mp h
    cases n with
    | zero => exact h
    | succ n =>
      by_cases hlt : n + 1 < x.width
      · rw [trim_cons_of_lt hlt]
        exact List.pairwise_cons.mpr ⟨fun y hy => (hx y hy).shorten_left (n + 1), hps⟩
      · rw [trim_cons_of_le (not_lt.mp hlt)]
        exact ih hps _

/-- As long as a position is there, nothing right of it has been dropped. -/
theorem trim_append_kept (left : List Part) (k : Nat) (right : List Part) (n : Nat) :
    (∃ left', trim (left ++ .kept k :: right) n = left' ++ .kept k :: right) ∨
      ∃ n', trim (left ++ .kept k :: right) n = trim right n' := by
  induction left generalizing n with
  | nil =>
    cases n with
    | zero => exact .inl ⟨[], rfl⟩
    | succ n => exact .inr ⟨n, trim_cons_of_le (Nat.le_add_left 1 n)⟩
  | cons x left ih =>
    cases n with
    | zero => exact .inl ⟨x :: left, rfl⟩
    | succ n =>
      by_cases hlt : n + 1 < x.width
      · exact .inl ⟨x.shorten (n + 1) :: left, trim_cons_of_lt hlt⟩
      · rw [List.cons_append, trim_cons_of_le (not_lt.mp hlt)]
        exact ih _

end Trim

section Kept

def keptParts (a b : Nat) : List Part := (List.range' a (b - a)).map .kept

theorem keptParts_cons {a b : Nat} (h : a < b) :
    keptParts a b = .kept a :: keptParts (a + 1) b := by
  rw [keptParts, show b - a = b - (a + 1) + 1 by omega, List.range'_succ]
  rfl

theorem kept_mem_keptParts {x : Part} {a b : Nat} :
    x ∈ keptParts a b ↔ ∃ k, x = .kept k ∧ a ≤ k ∧ k < b := by
  simp only [keptParts, List.mem_map, List.mem_range'_1]
  constructor
  · rintro ⟨k, hk, rfl⟩
    exact ⟨k, rfl, by omega⟩
  · rintro ⟨k, rfl, hk⟩
    exact ⟨k, by omega, rfl⟩

theorem keptParts_append {a b c : Nat} (hab : a ≤ b) (hbc : b ≤ c) :
    keptParts a c = keptParts a b ++ keptParts b c := by
  have hrange := @List.range'_append_1 a (b - a) (c - b)
  rw [show a + (b - a) = b by omega, show b - a + (c - b) = c - a by omega] at hrange
  rw [keptParts, keptParts, keptParts, ← hrange, List.map_append]

theorem keptParts_succ (k : Nat) : keptParts 0 (k + 1) = keptParts 0 k ++ [.kept k] := by
  rw [keptParts_append (Nat.zero_le k) (Nat.le_succ k), keptParts_cons (Nat.lt_succ_self k)]
  simp [keptParts]

theorem expand_keptParts (a b : Nat) : (keptParts a b).flatMap expand = keptRange a b := by
  rw [keptParts, List.flatMap_map, keptRange, List.map_eq_flatMap]
  rfl

theorem trim_keptParts {a b n : Nat} {ps : List Part} (hab : a ≤ b) (hn : b - a ≤ n) :
    trim (keptParts a b ++ ps) n = trim ps (n - (b - a)) := by
  obtain ⟨m, rfl⟩ := Nat.exists_eq_add_of_le hab
  induction m generalizing a n with
  | zero =>
    have hnil : keptParts a (a + 0) = [] := by simp [keptParts]
    rw [hnil, List.nil_append, Nat.add_zero, Nat.sub_self, Nat.sub_zero]
  | succ m ih =>
    obtain ⟨n, rfl⟩ : ∃ n', n = n' + 1 := ⟨n - 1, by omega⟩
    rw [keptParts_cons (by omega), List.cons_append, trim_cons_of_le (Nat.le_add_left 1 n),
      show a + (m + 1) = a + 1 + m by omega, ih (by omega) (by rw [width]; omega), width]
    congr 1
    omega

end Kept

section Run

variable {n : Nat} {es : List (Edit α)}

/-- One edit, on parts. -/
def put (ps : List Part) (p : Indexed α) : List Part :=
  keptParts 0 p.1.start ++ .text p.2 p.1.start 0 p.1.text.length :: trim ps p.1.stop

/-- What can stand right of the positions that no edit has come to so far. -/
def Fits (es : List (Edit α)) (left : List (Indexed α)) (start : Nat) : Part → Prop
  | .kept k => start ≤ k
  | .text j q cut len => start ≤ q ∧ (cut = 0 ∨ cut < len) ∧ j ∉ left.map Prod.snd ∧
      ∃ e, es[j]? = some e ∧ e.start = q ∧ e.text.length = len

theorem Fits.shorten {left : List (Indexed α)} {start m : Nat} {x : Part}
    (h : Fits es left start x) (hm : m = 0 ∨ m < x.width) : Fits es left start (x.shorten m) := by
  cases x with
  | kept k => exact h
  | text j q cut len =>
    obtain ⟨hstart, hcut, hedit⟩ := h
    refine ⟨hstart, ?_, hedit⟩
    rw [width] at hm
    omega

theorem Fits.later {p : Indexed α} {left : List (Indexed α)} {start start' : Nat} {x : Part}
    (h : Fits es (p :: left) start x) (hle : start' ≤ start) : Fits es left start' x := by
  cases x with
  | kept k => exact hle.trans h
  | text j q cut len =>
    obtain ⟨hstart, hcut, hleft, hedit⟩ := h
    refine ⟨hle.trans hstart, hcut, fun hj => hleft ?_, hedit⟩
    exact List.mem_cons_of_mem _ hj

/-- The parts after some of the edits: nothing has happened yet left of the last start. -/
structure Front (es : List (Edit α)) (left : List (Indexed α)) (start : Nat) (ps : List Part) :
    Prop where
  split : ∃ rest, ps = keptParts 0 start ++ rest ∧ ∀ x ∈ rest, Fits es left start x
  ordered : ps.Pairwise Before

theorem keptParts_ordered (a b : Nat) : (keptParts a b).Pairwise Before := by
  rw [keptParts, List.pairwise_map]
  exact List.pairwise_lt_range'

theorem Front.start_parts (es : List (Edit α)) (left : List (Indexed α)) (n : Nat) :
    Front es left n (keptParts 0 n) where
  split := ⟨[], by rw [List.append_nil], fun _ hx => by cases hx⟩
  ordered := keptParts_ordered 0 n

variable {left : List (Indexed α)} {start : Nat} {ps : List Part} {p : Indexed α}

/-- What the drop leaves: nothing of it stands left of where the edit starts. -/
theorem Front.trimmed (h : Front es (p :: left) start ps) (hstart : p.1.start ≤ start)
    (hspan : p.1.start ≤ p.1.stop) : ∀ x ∈ trim ps p.1.stop, Fits es left p.1.start x := by
  obtain ⟨rest, rfl, hrest⟩ := h.split
  intro x hx
  rw [keptParts_append (Nat.zero_le _) hstart, List.append_assoc,
    trim_keptParts (Nat.zero_le _) hspan] at hx
  obtain ⟨y, hy, m, rfl, hm⟩ := mem_trim hx
  refine Fits.shorten ?_ hm
  obtain hy | hy := List.mem_append.mp hy
  · obtain ⟨k, rfl, hk, -⟩ := kept_mem_keptParts.mp hy
    exact hk
  · exact (hrest y hy).later hstart

theorem Front.step (h : Front es (p :: left) start ps) (hstart : p.1.start ≤ start)
    (hspan : p.1.start ≤ p.1.stop) (hedit : es[p.2]? = some p.1)
    (hnew : p.2 ∉ left.map Prod.snd) : Front es left p.1.start (put ps p) := by
  have htrim := h.trimmed hstart hspan
  have htext : Fits es left p.1.start (.text p.2 p.1.start 0 p.1.text.length) :=
    ⟨le_rfl, .inl rfl, hnew, p.1, hedit, rfl, rfl⟩
  have hused : ∀ j q cut len, .text j q cut len ∈ trim ps p.1.stop → p.2 ≠ j := by
    rintro j q cut len hj rfl
    obtain ⟨rest, rfl, hrest⟩ := h.split
    obtain ⟨y, hy, m, hshort, -⟩ := mem_trim hj
    obtain hy | hy := List.mem_append.mp hy
    · obtain ⟨k, rfl, -⟩ := kept_mem_keptParts.mp hy
      cases hshort
    · cases y with
      | kept k => cases hshort
      | text j' q' cut' len' =>
        cases hshort
        exact (hrest _ hy).2.2.1 List.mem_cons_self
  refine ⟨⟨_, rfl, List.forall_mem_cons.mpr ⟨htext, htrim⟩⟩, ?_⟩
  refine List.pairwise_append.mpr ⟨keptParts_ordered _ _, ?_, ?_⟩
  · refine List.pairwise_cons.mpr ⟨fun x hx => ?_, pairwise_trim h.ordered _⟩
    cases x with
    | kept k => exact htrim _ hx
    | text j q cut len => exact hused j q cut len hx
  · intro x hx y hy
    obtain ⟨k, rfl, -, hk⟩ := kept_mem_keptParts.mp hx
    have hy : Fits es left p.1.start y := (List.forall_mem_cons.mpr ⟨htext, htrim⟩) y hy
    cases y with
    | kept k' => exact Nat.lt_of_lt_of_le hk hy
    | text j q cut len => exact Nat.lt_of_lt_of_le hk hy.1

theorem Front.expand_put (h : Front es (p :: left) start ps) (hstart : p.1.start ≤ start) :
    (put ps p).flatMap expand = apply (ps.flatMap expand) p.tag := by
  obtain ⟨rest, hps, -⟩ := h.split
  have htake : (ps.flatMap expand).take p.1.start = keptRange 0 p.1.start := by
    rw [hps, keptParts_append (Nat.zero_le _) hstart, List.append_assoc, List.flatMap_append,
      expand_keptParts, List.take_left' (by simp [keptRange])]
  rw [put, List.flatMap_append, List.flatMap_cons, expand_keptParts, expand_trim, apply,
    Indexed.tag, htake, List.append_assoc]
  rfl

/-- The edits that satisfy what holds of every list of edits inside a sequence. -/
structure Running (es : List (Edit α)) (now left : List (Indexed α)) (start : Nat) : Prop where
  sorted : now.Pairwise fun a b => b.1.start ≤ a.1.start
  below : ∀ p ∈ now, p.1.start ≤ start
  inside : ∀ p ∈ now, p.1.start ≤ p.1.stop ∧ es[p.2]? = some p.1
  nodup : ((now ++ left).map Prod.snd).Nodup

theorem Front.run {now : List (Indexed α)} (h : Front es (now ++ left) start ps)
    (hrun : Running es now left start) : (∃ start', Front es left start' (now.foldl put ps)) ∧
      (now.foldl put ps).flatMap expand = applyAll (ps.flatMap expand) (now.map Indexed.tag) := by
  induction now generalizing start ps with
  | nil => exact ⟨⟨start, h⟩, rfl⟩
  | cons p now ih =>
    obtain ⟨hsorted, hbelow, hinside, hnodup⟩ := hrun
    obtain ⟨hfirst, hsorted⟩ := List.pairwise_cons.mp hsorted
    obtain ⟨hstart, hbelow⟩ := List.forall_mem_cons.mp hbelow
    obtain ⟨⟨hspan, hedit⟩, hinside⟩ := List.forall_mem_cons.mp hinside
    rw [List.cons_append, List.map_cons, List.nodup_cons] at hnodup
    have hstep := h.step hstart hspan hedit hnodup.1
    obtain ⟨hfront, hexpand⟩ := ih hstep ⟨hsorted, hfirst, hinside, hnodup.2⟩
    refine ⟨hfront, ?_⟩
    rw [List.foldl_cons, hexpand, h.expand_put hstart, List.map_cons, applyAll_cons]

theorem kept_of_mem {k s j q cut len m : Nat}
    (h : .kept k ∈ keptParts 0 s ++ .text j q cut len :: trim ps m) : k < s ∨ .kept k ∈ ps := by
  obtain h | h := List.mem_append.mp h
  · obtain ⟨k', ⟨⟩, -, hk'⟩ := kept_mem_keptParts.mp h
    exact .inl hk'
  · cases h with
    | tail _ h => exact .inr (kept_mem_trim h)

theorem not_kept_foldl_put {now : List (Indexed α)} {k : Nat} (hbelow : ∀ p ∈ now, p.1.start ≤ k)
    (h : .kept k ∉ ps) : .kept k ∉ now.foldl put ps := by
  induction now generalizing ps with
  | nil => exact h
  | cons p now ih =>
    obtain ⟨hp, hbelow⟩ := List.forall_mem_cons.mp hbelow
    refine ih hbelow fun hk => ?_
    obtain hk | hk := kept_of_mem hk
    · omega
    · exact h hk

/-- A position that is there in the end has kept what stood right of it. -/
theorem foldl_put_kept {now : List (Indexed α)} {k : Nat} {l r : List Part}
    (hbelow : ∀ p ∈ now, p.1.start ≤ k) (hr : .kept k ∉ r)
    (hfinal : .kept k ∈ now.foldl put (l ++ .kept k :: r)) :
    ∃ l', now.foldl put (l ++ .kept k :: r) = l' ++ .kept k :: r := by
  induction now generalizing l with
  | nil => exact ⟨l, rfl⟩
  | cons p now ih =>
    obtain ⟨hp, hbelow'⟩ := List.forall_mem_cons.mp hbelow
    rw [List.foldl_cons, put] at hfinal ⊢
    obtain ⟨l', hl'⟩ | ⟨n', hn'⟩ := trim_append_kept l k r p.1.stop
    · rw [hl', ← List.cons_append, ← List.append_assoc] at hfinal ⊢
      exact ih hbelow' hfinal
    · rw [hn'] at hfinal
      refine absurd hfinal (not_kept_foldl_put hbelow' fun hk => ?_)
      obtain hk | hk := kept_of_mem hk
      · omega
      · exact hr hk

end Run

section Parts

variable {n : Nat} {es : List (Edit α)}

/-- The parts of the result. -/
def parts (n : Nat) (es : List (Edit α)) : List Part := (sortedIndexed es).foldl put (keptParts 0 n)

theorem running_sortedIndexed (hspan : ∀ e ∈ es, e.start < e.stop ∧ e.stop ≤ n)
    {now left : List (Indexed α)} (h : sortedIndexed es = now ++ left) :
    Running es now left n where
  sorted := (List.pairwise_append.mp (h ▸ sortedIndexed_starts es)).1
  below p hp := by
    have hmem := mem_sortedIndexed.mp (h ▸ List.mem_append_left left hp)
    have hp' := hspan p.1 (List.mem_of_getElem? hmem)
    omega
  inside p hp := by
    have hmem := mem_sortedIndexed.mp (h ▸ List.mem_append_left left hp)
    exact ⟨(hspan p.1 (List.mem_of_getElem? hmem)).1.le, hmem⟩
  nodup := h ▸ sortedIndexed_indices_nodup es

theorem parts_front (hspan : ∀ e ∈ es, e.start < e.stop ∧ e.stop ≤ n) :
    (∃ start, Front es [] start (parts n es)) ∧ (parts n es).flatMap expand = origins n es := by
  have hsplit : sortedIndexed es = sortedIndexed es ++ [] := (List.append_nil _).symm
  have hfront := Front.start_parts es (sortedIndexed es ++ []) n
  obtain ⟨hfinal, hexpand⟩ := hfront.run (running_sortedIndexed hspan hsplit)
  refine ⟨hfinal, ?_⟩
  rw [parts, hexpand, expand_keptParts, origins, descending_tagged]

theorem kept_mem_parts_iff (hspan : ∀ e ∈ es, e.start < e.stop ∧ e.stop ≤ n) {k : Nat} :
    .kept k ∈ parts n es ↔ k < n ∧ Outlasts (descending es) k := by
  rw [← kept_mem_origins_iff fun e he => (hspan e he).1.le, ← (parts_front hspan).2,
    List.mem_flatMap]
  constructor
  · intro h
    exact ⟨.kept k, h, List.mem_singleton.mpr rfl⟩
  · rintro ⟨x, hx, hk⟩
    cases x with
    | kept k' =>
      obtain rfl := Origin.kept.inj (List.mem_singleton.mp hk)
      exact hx
    | text j q cut len =>
      obtain ⟨offset, -, ⟨⟩⟩ := List.mem_map.mp (List.mem_of_mem_drop hk)

theorem filterMap_expand_parts (ps : List Part) :
    (ps.flatMap expand).filterMap Origin.pos? = ps.filterMap fun x => x.piece.pos? := by
  induction ps with
  | nil => rfl
  | cons x ps ih =>
    rw [List.flatMap_cons, List.filterMap_append, ih]
    cases x with
    | kept k => rfl
    | text j q cut len =>
      have hnone : ((insertedText j len).drop cut).filterMap Origin.pos? = [] := by
        refine List.filterMap_eq_nil_iff.mpr fun o ho => ?_
        obtain ⟨offset, -, rfl⟩ := List.mem_map.mp (List.mem_of_mem_drop ho)
        rfl
      rw [expand, hnone]
      rfl

/-- Exactly the uncovered positions outlast the edits. -/
def Spares (n : Nat) (es : List (Edit α)) : Prop :=
  ∀ p < n, Outlasts (descending es) p ↔ ¬ Covered es p

/-- The later edits do not cut off a beginning of the text of an edit, or they leave nothing of it. -/
def Unbroken (e : Edit α) (after : List (Edit α)) : Prop :=
  Outlasts after e.start ∨ ∀ o < e.text.length, ¬ Outlasts after (e.start + o)

def WholeOrGone (es : List (Edit α)) : Prop :=
  ∀ before e after, descending es = before ++ e :: after → Unbroken e after

instance (n : Nat) (es : List (Edit α)) : Decidable (Spares n es) :=
  inferInstanceAs (Decidable (∀ p < n, Outlasts (descending es) p ↔ ¬ Covered es p))

instance (e : Edit α) (after : List (Edit α)) : Decidable (Unbroken e after) :=
  inferInstanceAs (Decidable (Outlasts after e.start ∨
    ∀ o < e.text.length, ¬ Outlasts after (e.start + o)))

instance (es : List (Edit α)) : Decidable (WholeOrGone es) :=
  decidable_of_iff (∀ i (h : i < (descending es).length),
    Unbroken (descending es)[i] ((descending es).drop (i + 1)))
    (forall_split_iff (fun _ => Unbroken) (descending es)).symm

theorem keeps_iff (hspan : ∀ e ∈ es, e.start < e.stop ∧ e.stop ≤ n) :
    Keeps n es (origins n es) ↔ Spares n es := by
  obtain ⟨⟨start, hfront⟩, hexpand⟩ := parts_front hspan
  have hmem (k : Nat) : k ∈ (origins n es).filterMap Origin.pos? ↔
      k < n ∧ Outlasts (descending es) k := by
    rw [← kept_mem_origins_iff fun e he => (hspan e he).1.le, List.mem_filterMap]
    constructor
    · rintro ⟨o, ho, hk⟩
      cases o with
      | kept k' => exact Option.some.inj hk ▸ ho
      | inserted j offset => cases hk
    · exact fun h => ⟨.kept k, h, rfl⟩
  have hwanted (k : Nat) : k ∈ (List.range n).filter (fun i => ¬ Covered es i) ↔
      k < n ∧ ¬ Covered es k := by
    rw [List.mem_filter, List.mem_range, decide_eq_true_iff]
  constructor
  · intro h p hp
    rw [Keeps] at h
    have hsame := hmem p
    rw [h, hwanted] at hsame
    simpa [hp] using hsame.symm
  · intro h
    have hsorted : ((origins n es).filterMap Origin.pos?).Pairwise (· < ·) := by
      rw [← hexpand, filterMap_expand_parts, List.pairwise_filterMap]
      refine hfront.ordered.imp fun {x y} hxy a ha b hb => ?_
      cases x with
      | kept i => cases y with
        | kept j =>
          cases ha
          cases hb
          exact hxy
        | text j q cut len => cases hb
      | text j q cut len => cases ha
    refine hsorted.eq_of_mem_iff (List.pairwise_lt_range.filter _) fun k => ?_
    rw [hmem, hwanted]
    exact and_congr_right fun hk => h k hk

theorem text_once {ps : List Part} (h : ps.Pairwise Before) {j q cut len q' cut' len' : Nat}
    (hx : .text j q cut len ∈ ps) (hy : .text j q' cut' len' ∈ ps) :
    Part.text j q cut len = .text j q' cut' len' := by
  induction ps with
  | nil => cases hx
  | cons z ps ih =>
    obtain ⟨hz, hps⟩ := List.pairwise_cons.mp h
    cases hx with
    | head => cases hy with
      | head => rfl
      | tail _ hy => exact absurd rfl (hz _ hy)
    | tail _ hx => cases hy with
      | head => exact absurd rfl (hz _ hx)
      | tail _ hy => exact ih hps hx hy

theorem inserted_mem_expand {ps : List Part} {j offset : Nat} :
    .inserted j offset ∈ ps.flatMap expand ↔
      ∃ q cut len, .text j q cut len ∈ ps ∧ cut ≤ offset ∧ offset < len := by
  have hdrop (j' cut len : Nat) : Origin.inserted j offset ∈ (insertedText j' len).drop cut ↔
      j = j' ∧ cut ≤ offset ∧ offset < len := by
    rw [insertedText, List.range_eq_range', ← List.map_drop, List.drop_range', List.mem_map]
    simp only [List.mem_range'_1, Origin.inserted.injEq]
    constructor
    · rintro ⟨i, hi, rfl, rfl⟩
      omega
    · rintro ⟨rfl, hi⟩
      exact ⟨offset, by omega, rfl, rfl⟩
  rw [List.mem_flatMap]
  constructor
  · rintro ⟨x, hx, ho⟩
    cases x with
    | kept k => cases List.mem_singleton.mp ho
    | text j' q cut len =>
      obtain ⟨rfl, hoffset⟩ := (hdrop j' cut len).mp ho
      exact ⟨q, cut, len, hx, hoffset⟩
  · rintro ⟨q, cut, len, hx, hoffset⟩
    exact ⟨_, hx, (hdrop j cut len).mpr ⟨rfl, hoffset⟩⟩

theorem Front.text {start : Nat} {ps : List Part} (h : Front es [] start ps) {j q cut len : Nat}
    (hx : .text j q cut len ∈ ps) : (cut = 0 ∨ cut < len) ∧
      ∃ e, es[j]? = some e ∧ e.start = q ∧ e.text.length = len := by
  obtain ⟨rest, rfl, hrest⟩ := h.split
  obtain hx | hx := List.mem_append.mp hx
  · obtain ⟨k, ⟨⟩, -⟩ := kept_mem_keptParts.mp hx
  · exact ⟨(hrest _ hx).2.1, (hrest _ hx).2.2.2⟩

/-- What the offsets of one text in the result say of the edits after it. -/
theorem split_of_edit (hspan : ∀ e ∈ es, e.start < e.stop ∧ e.stop ≤ n) {j : Nat} {e : Edit α}
    (he : es[j]? = some e) : ∃ before after, descending es = before ++ e :: after ∧
      ∀ offset, .inserted j offset ∈ origins n es ↔
        offset < e.text.length ∧ Outlasts after (e.start + offset) := by
  have hmem : (e, j) ∈ sortedIndexed es := mem_sortedIndexed.mpr he
  obtain ⟨before, after, hsplit⟩ := List.append_of_mem hmem
  refine ⟨before.map Prod.fst, after.map Prod.fst, ?_, fun offset => ?_⟩
  · rw [descending_eq, hsplit, List.map_append, List.map_cons]
  · exact inserted_mem_origins_iff (fun e he => ⟨(hspan e he).1.le, (hspan e he).2⟩) hsplit

theorem parts_whole (hspan : ∀ e ∈ es, e.start < e.stop ∧ e.stop ≤ n) (h : WholeOrGone es)
    {j q cut len : Nat} (hx : .text j q cut len ∈ parts n es) : cut = 0 := by
  obtain ⟨⟨start, hfront⟩, hexpand⟩ := parts_front hspan
  obtain ⟨hcut, e, he, rfl, rfl⟩ := hfront.text hx
  obtain rfl | hcut := hcut
  · rfl
  · obtain ⟨before, after, hsplit, hoffset⟩ := split_of_edit hspan he
    have hlast : .inserted j cut ∈ origins n es :=
      hexpand ▸ inserted_mem_expand.mpr ⟨_, cut, _, hx, le_rfl, hcut⟩
    obtain hfirst | hgone := h before e after hsplit
    · have hzero := (hoffset 0).mpr ⟨by omega, hfirst⟩
      rw [← hexpand] at hzero
      obtain ⟨q', cut', len', hy, hzero, -⟩ := inserted_mem_expand.mp hzero
      cases text_once hfront.ordered hx hy
      exact Nat.le_zero.mp hzero
    · exact absurd ((hoffset cut).mp hlast).2 (hgone cut hcut)

/-- A run of covered positions begins with an edit, and what stands left of it is uncovered. -/
theorem exists_run_start {i : Nat} (h : Covered es i) : ∃ s ≤ i, (∀ k, s ≤ k → k ≤ i → Covered es k) ∧
    (∃ e ∈ es, e.start = s) ∧ (s = 0 ∨ ∃ k, s = k + 1 ∧ ¬ Covered es k) := by
  induction i with
  | zero =>
    obtain ⟨e, he, hstart, -⟩ := id h
    refine ⟨0, le_rfl, fun k _ hk => ?_, ⟨e, he, Nat.le_zero.mp hstart⟩, .inl rfl⟩
    rwa [Nat.le_zero.mp hk]
  | succ i ih =>
    by_cases hi : Covered es i
    · obtain ⟨s, hs, hall, hrest⟩ := ih hi
      refine ⟨s, by omega, fun k hsk hk => ?_, hrest⟩
      obtain hk | rfl := Nat.le_succ_iff.mp hk
      · exact hall k hsk hk
      · exact h
    · obtain ⟨e, he, hstart, hstop⟩ := id h
      have hat : e.start = i + 1 := by
        by_contra hne
        exact hi ⟨e, he, by omega, by omega⟩
      refine ⟨i + 1, le_rfl, fun k hsk hk => ?_, ⟨e, he, hat⟩, .inr ⟨i, rfl, hi⟩⟩
      rwa [Nat.le_antisymm hk hsk]

/-- The last one of a list that starts at a position. -/
theorem exists_last_start {ps : List (Indexed α)} {s : Nat}
    (hsorted : ps.Pairwise fun a b => b.1.start ≤ a.1.start) (h : ∃ p ∈ ps, p.1.start = s) :
    ∃ before p after, ps = before ++ p :: after ∧ p.1.start = s ∧ ∀ q ∈ after, q.1.start < s := by
  induction ps with
  | nil =>
    obtain ⟨p, ⟨⟩, -⟩ := h
  | cons p ps ih =>
    obtain ⟨hp, hsorted⟩ := List.pairwise_cons.mp hsorted
    by_cases hlater : ∃ q ∈ ps, q.1.start = s
    · obtain ⟨before, q, after, rfl, hq⟩ := ih hsorted hlater
      exact ⟨p :: before, q, after, rfl, hq⟩
    · obtain ⟨q, hq, hs⟩ := h
      cases hq with
      | tail _ hq => exact absurd ⟨q, hq, hs⟩ hlater
      | head =>
        refine ⟨[], p, ps, rfl, hs, fun q hq => ?_⟩
        have hne : q.1.start ≠ s := fun hqs => hlater ⟨q, hq, hqs⟩
        have hle := hp q hq
        omega

theorem foldl_put_append (before : List (Indexed α)) (p : Indexed α) (ps : List Part) :
    (before ++ [p]).foldl put ps = keptParts 0 p.1.start ++
      .text p.2 p.1.start 0 p.1.text.length :: trim (before.foldl put ps) p.1.stop := by
  rw [List.foldl_append, List.foldl_cons, List.foldl_nil, put]

/-- A kept position saves the text that has been put right of it from the edits that follow. -/
theorem text_of_kept (hspan : ∀ e ∈ es, e.start < e.stop ∧ e.stop ≤ n)
    {before after : List (Indexed α)} {p : Indexed α} {k : Nat}
    (hsplit : sortedIndexed es = (before ++ [p]) ++ after) (hstart : p.1.start = k + 1)
    (hbelow : ∀ q ∈ after, q.1.start ≤ k) (hkept : .kept k ∈ parts n es) :
    ∃ left right, parts n es =
      left ++ .kept k :: .text p.2 p.1.start 0 p.1.text.length :: right := by
  generalize htrim : trim (before.foldl put (keptParts 0 n)) p.1.stop = right
  have hput : (before ++ [p]).foldl put (keptParts 0 n) =
      keptParts 0 k ++ .kept k :: .text p.2 p.1.start 0 p.1.text.length :: right := by
    have hone : keptParts 0 p.1.start = keptParts 0 k ++ [.kept k] := by rw [hstart, keptParts_succ]
    rw [foldl_put_append, htrim, hone, List.append_assoc, List.singleton_append]
  have hfront := Front.start_parts es ((before ++ [p]) ++ after) n
  obtain ⟨⟨start, hmiddle⟩, -⟩ := hfront.run (running_sortedIndexed hspan hsplit)
  have honce : .kept k ∉ Part.text p.2 p.1.start 0 p.1.text.length :: right := by
    have hordered := hmiddle.ordered
    rw [hput] at hordered
    obtain ⟨-, hright, -⟩ := List.pairwise_append.mp hordered
    exact fun hmem => Nat.lt_irrefl k ((List.pairwise_cons.mp hright).1 _ hmem)
  have hparts : parts n es = after.foldl put
      (keptParts 0 k ++ .kept k :: .text p.2 p.1.start 0 p.1.text.length :: right) := by
    rw [parts, hsplit, List.foldl_append, hput]
  rw [hparts] at hkept ⊢
  obtain ⟨left, hleft⟩ := foldl_put_kept hbelow honce hkept
  exact ⟨left, right, hleft⟩

/-- The last edit at the start of a covered run leaves its whole text there. -/
theorem exists_text (hspan : ∀ e ∈ es, e.start < e.stop ∧ e.stop ≤ n) (hspares : Spares n es)
    {s : Nat} (hstart : ∃ e ∈ es, e.start = s) (hleft : s = 0 ∨ ∃ k, s = k + 1 ∧ ¬ Covered es k) :
    ∃ before j len after, parts n es = before ++ .text j s 0 len :: after ∧
      ∀ k, .kept k ∈ before → k < s := by
  have hindexed : ∃ p ∈ sortedIndexed es, p.1.start = s := by
    obtain ⟨e, he, hs⟩ := hstart
    obtain ⟨j, hj⟩ := List.getElem?_of_mem he
    exact ⟨(e, j), mem_sortedIndexed.mpr hj, hs⟩
  obtain ⟨before, p, after, hsplit, rfl, hafter⟩ :=
    exists_last_start (sortedIndexed_starts es) hindexed
  have hp : p.1.start < n := by
    have hmem := mem_sortedIndexed.mp (hsplit ▸ List.mem_append_right before List.mem_cons_self)
    have hin := hspan p.1 (List.mem_of_getElem? hmem)
    omega
  have hsplit' : sortedIndexed es = (before ++ [p]) ++ after := by
    rw [hsplit, List.append_assoc, List.singleton_append]
  obtain hzero | ⟨k, hk, huncovered⟩ := hleft
  · have hlast : after = [] := by
      refine List.eq_nil_iff_forall_not_mem.mpr fun q hq => ?_
      have hlt := hafter q hq
      omega
    have hnil : keptParts 0 p.1.start = [] := by rw [hzero]; rfl
    refine ⟨[], p.2, p.1.text.length, trim (before.foldl put (keptParts 0 n)) p.1.stop, ?_,
      fun k hk => by cases hk⟩
    rw [parts, hsplit', hlast, List.append_nil, foldl_put_append, hnil]
  · have hbelow : ∀ q ∈ after, q.1.start ≤ k := fun q hq => by
      have hlt := hafter q hq
      omega
    have hkept : .kept k ∈ parts n es :=
      (kept_mem_parts_iff hspan).mpr ⟨by omega, (hspares k (by omega)).mpr huncovered⟩
    obtain ⟨left, right, hparts⟩ := text_of_kept hspan hsplit' hk hbelow hkept
    refine ⟨left ++ [.kept k], p.2, p.1.text.length, right, ?_, fun i hi => ?_⟩
    · rw [hparts, List.append_assoc, List.singleton_append]
    · obtain ⟨⟨start, hfront⟩, -⟩ := parts_front hspan
      have hordered := hfront.ordered
      rw [hparts] at hordered
      obtain hi | hi := List.mem_append.mp hi
      · have hik : i < k := (List.pairwise_append.mp hordered).2.2 _ hi _ List.mem_cons_self
        omega
      · cases List.mem_singleton.mp hi
        omega

theorem kept_mem_map_piece {ps : List Part} {k : Nat} :
    .kept k ∈ ps.map piece ↔ .kept k ∈ ps := by
  constructor
  · intro h
    obtain ⟨x, hx, hpiece⟩ := List.mem_map.mp h
    cases x with
    | kept k' =>
      cases hpiece
      exact hx
    | text j q cut len => cases hpiece
  · exact fun h => List.mem_map.mpr ⟨_, h, rfl⟩

theorem inserted_zero_mem_expand {ps : List Piece} {j offset : Nat}
    (h : .inserted j offset ∈ ps.flatMap Piece.expand) :
    .inserted j 0 ∈ ps.flatMap Piece.expand := by
  obtain ⟨x, hx, ho⟩ := List.mem_flatMap.mp h
  refine List.mem_flatMap.mpr ⟨x, hx, ?_⟩
  cases x with
  | kept k => cases List.mem_singleton.mp ho
  | whole j' len =>
    obtain ⟨rfl, hlt⟩ := inserted_mem_insertedText.mp ho
    exact inserted_mem_insertedText.mpr ⟨rfl, by omega⟩

/-- What begins to be there and is there in the end is there from its first place on. -/
theorem wholeOrGone_of_redacts (hspan : ∀ e ∈ es, e.start < e.stop ∧ e.stop ≤ n)
    (h : Redacts n es (origins n es)) : WholeOrGone es := by
  intro before e after hsplit
  obtain ⟨ps, hps, -⟩ := h
  rw [descending_eq] at hsplit
  obtain ⟨before, right, hindexed, rfl, hright⟩ := List.map_eq_append_iff.mp hsplit
  obtain ⟨p, after, rfl, rfl, rfl⟩ := List.map_eq_cons_iff.mp hright
  have hoffset (offset : Nat) : .inserted p.2 offset ∈ origins n es ↔
      offset < p.1.text.length ∧ Outlasts (after.map Prod.fst) (p.1.start + offset) :=
    inserted_mem_origins_iff (fun e he => ⟨(hspan e he).1.le, (hspan e he).2⟩) hindexed
  refine or_iff_not_imp_right.mpr fun hsome => ?_
  obtain ⟨offset, hsome⟩ := not_forall.mp hsome
  obtain ⟨hlt, hout⟩ := Classical.not_imp.mp hsome
  rw [not_not] at hout
  have hlast := (hoffset offset).mpr ⟨hlt, hout⟩
  rw [hps] at hlast
  have hfirst := inserted_zero_mem_expand hlast
  rw [← hps] at hfirst
  exact ((hoffset 0).mp hfirst).2

theorem expand_map_piece (hspan : ∀ e ∈ es, e.start < e.stop ∧ e.stop ≤ n)
    (hwhole : WholeOrGone es) :
    ((parts n es).map piece).flatMap Piece.expand = origins n es := by
  rw [← (parts_front hspan).2, List.flatMap_map]
  refine List.flatMap_congr fun x hx => ?_
  cases x with
  | kept k => rfl
  | text j q cut len =>
    obtain rfl := parts_whole hspan hwhole hx
    rfl

theorem not_covered_of_kept (hspan : ∀ e ∈ es, e.start < e.stop ∧ e.stop ≤ n)
    (hspares : Spares n es) {k : Nat} (hk : .kept k ∈ parts n es) : ¬ Covered es k :=
  have ⟨hlt, hout⟩ := (kept_mem_parts_iff hspan).mp hk
  (hspares k hlt).mp hout

/-- A text stands between the kept positions left and right of its edit. -/
theorem text_between (hspan : ∀ e ∈ es, e.start < e.stop ∧ e.stop ≤ n) (hspares : Spares n es)
    {before after : List Part} {j q cut len : Nat}
    (hparts : parts n es = before ++ .text j q cut len :: after) :
    ∃ i, Covered es i ∧ Between (before.map piece) (after.map piece) i := by
  obtain ⟨⟨start, hfront⟩, -⟩ := parts_front hspan
  obtain ⟨-, e, he, rfl, -⟩ := hfront.text (hparts ▸ List.mem_append_right _ List.mem_cons_self)
  have hcovered : Covered es e.start :=
    ⟨e, List.mem_of_getElem? he, le_rfl, (hspan e (List.mem_of_getElem? he)).1⟩
  have hordered := hfront.ordered
  rw [hparts] at hordered
  obtain ⟨-, hafter, hcross⟩ := List.pairwise_append.mp hordered
  refine ⟨e.start, hcovered, fun k hk => ?_, fun k hk => ?_⟩
  · exact hcross _ (kept_mem_map_piece.mp hk) _ List.mem_cons_self
  · have hk := kept_mem_map_piece.mp hk
    have hle : e.start ≤ k := (List.pairwise_cons.mp hafter).1 _ hk
    have hne : e.start ≠ k := fun heq => not_covered_of_kept hspan hspares
      (hparts ▸ List.mem_append_right _ (List.mem_cons_of_mem _ hk)) (heq ▸ hcovered)
    omega

/-- In place of a covered position there is a text, that of the first edit of its run. -/
theorem exists_text_between (hspan : ∀ e ∈ es, e.start < e.stop ∧ e.stop ≤ n)
    (hspares : Spares n es) {i : Nat} (hi : Covered es i) :
    ∃ before j s len after, parts n es = before ++ .text j s 0 len :: after ∧
      Between (before.map piece) (after.map piece) i := by
  obtain ⟨s, hs, hall, hstart, hleft⟩ := exists_run_start hi
  obtain ⟨before, j, len, after, hparts, hbefore⟩ := exists_text hspan hspares hstart hleft
  obtain ⟨⟨start, hfront⟩, -⟩ := parts_front hspan
  have hordered := hfront.ordered
  rw [hparts] at hordered
  refine ⟨before, j, s, len, after, hparts, fun k hk => ?_, fun k hk => ?_⟩
  · have hlt := hbefore k (kept_mem_map_piece.mp hk)
    omega
  · have hk := kept_mem_map_piece.mp hk
    have hle : s ≤ k := (List.pairwise_cons.mp (List.pairwise_append.mp hordered).2.1).1 _ hk
    have hfree := not_covered_of_kept hspan hspares
      (hparts ▸ List.mem_append_right _ (List.mem_cons_of_mem _ hk))
    by_contra hik
    exact hfree (hall k hle (not_lt.mp hik))

/-- The result is a redaction if the edits reach what is covered, and nothing else, and leave no
text in part. -/
theorem redacts_iff (hspan : ∀ e ∈ es, e.start < e.stop ∧ e.stop ≤ n) :
    Redacts n es (origins n es) ↔ Spares n es ∧ WholeOrGone es := by
  constructor
  · exact fun h => ⟨(keeps_iff hspan).mp h.keeps, wholeOrGone_of_redacts hspan h⟩
  · rintro ⟨hspares, hwhole⟩
    have hexpand := expand_map_piece hspan hwhole
    refine ⟨(parts n es).map piece, hexpand.symm, ?_⟩
    constructor
    case kept =>
      have hkeeps := (keeps_iff hspan).mpr hspares
      rw [Keeps, ← hexpand, filterMap_expand] at hkeeps
      exact hkeeps
    case whole =>
      intro j len hmem
      obtain ⟨x, hx, hpiece⟩ := List.mem_map.mp hmem
      cases x with
      | kept k => cases hpiece
      | text j' q cut len' =>
        cases hpiece
        obtain ⟨⟨start, hfront⟩, -⟩ := parts_front hspan
        obtain ⟨-, e, he, -, hlength⟩ := hfront.text hx
        rw [he, Option.map_some, hlength]
    case placed =>
      intro before j len after hsplit
      obtain ⟨before, right, hparts, rfl, hright⟩ := List.map_eq_append_iff.mp hsplit
      obtain ⟨x, after, rfl, hpiece, rfl⟩ := List.map_eq_cons_iff.mp hright
      cases x with
      | kept k => cases hpiece
      | text j' q cut len' => exact text_between hspan hspares hparts
    case replaced =>
      intro i hi
      obtain ⟨before, j, s, len, after, hparts, hbetween⟩ :=
        exists_text_between hspan hspares hi
      refine ⟨before.map piece, j, len, after.map piece, ?_, hbetween⟩
      rw [hparts, List.map_append, List.map_cons, piece]

end Parts

end DomainRag.Splice
