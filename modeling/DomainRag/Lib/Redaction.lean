import DomainRag.Lib.Splice

/-! # Redaction: what is kept, what is replaced

A redaction of a sequence keeps every uncovered position exactly once and in order, and puts whole
inserted texts, and nothing else, in the place of the covered positions. Edits that are applied from
right to left cut off beginnings of each other's texts, so they give a redaction if exactly the
uncovered positions outlast them and no text is left in part.
-/

namespace DomainRag.Splice

variable {α : Type}

def Covered (es : List (Edit α)) (i : Nat) : Prop := ∃ e ∈ es, e.start ≤ i ∧ i < e.stop

instance (es : List (Edit α)) : DecidablePred (Covered es) := fun i =>
  inferInstanceAs (Decidable (∃ e ∈ es, e.start ≤ i ∧ i < e.stop))

inductive Piece where
  | kept (pos : Nat)
  | whole (edit len : Nat)
  deriving DecidableEq, Repr

def Piece.expand : Piece → List Origin
  | .kept pos => [.kept pos]
  | .whole j len => insertedText j len

def Piece.pos? : Piece → Option Nat
  | .kept pos => some pos
  | .whole _ _ => none

/-- A position that stands between two parts of a sequence of pieces. -/
def Between (before after : List Piece) (i : Nat) : Prop :=
  (∀ k, .kept k ∈ before → k < i) ∧ ∀ k, .kept k ∈ after → i < k

structure Redaction (n : Nat) (es : List (Edit α)) (ps : List Piece) : Prop where
  kept : ps.filterMap Piece.pos? = (List.range n).filter fun i => ¬ Covered es i
  whole : ∀ j len, .whole j len ∈ ps → es[j]?.map (fun e => e.text.length) = some len
  placed : ∀ before j len after, ps = before ++ .whole j len :: after →
    ∃ i, Covered es i ∧ Between before after i
  replaced : ∀ i, Covered es i → ∃ before j len after,
    ps = before ++ .whole j len :: after ∧ Between before after i

/-- The sequence of origins is the spelling of a redaction. -/
def Redacts (n : Nat) (es : List (Edit α)) (os : List Origin) : Prop :=
  ∃ ps, os = ps.flatMap Piece.expand ∧ Redaction n es ps

def Origin.pos? : Origin → Option Nat
  | .kept pos => some pos
  | .inserted _ _ => none

theorem filterMap_expand (ps : List Piece) :
    (ps.flatMap Piece.expand).filterMap Origin.pos? = ps.filterMap Piece.pos? := by
  induction ps with
  | nil => rfl
  | cons p ps ih =>
    rw [List.flatMap_cons, List.filterMap_append, ih]
    cases p with
    | kept pos => rfl
    | whole j len =>
      have hnone : (insertedText j len).filterMap Origin.pos? = [] := by
        simp [insertedText, Origin.pos?]
      rw [Piece.expand, hnone]
      rfl

/-- The input positions that reach the output are the uncovered ones, once and in order. -/
def Keeps (n : Nat) (es : List (Edit α)) (os : List Origin) : Prop :=
  os.filterMap Origin.pos? = (List.range n).filter fun i => ¬ Covered es i

theorem Redacts.keeps {n : Nat} {es : List (Edit α)} {os : List Origin} (h : Redacts n es os) :
    Keeps n es os := by
  obtain ⟨ps, rfl, hred⟩ := h
  rw [Keeps, ← hred.kept, filterMap_expand]

section Order

abbrev Indexed (α : Type) := Edit α × Nat

def Indexed.tag (p : Indexed α) : Edit Origin :=
  ⟨p.1.start, p.1.stop, insertedText p.2 p.1.text.length⟩

/-- The edits with their indices, by descending start. -/
def LaterIndexed (a b : Indexed α) : Prop := Later a.1 b.1

instance : DecidableRel (LaterIndexed (α := α)) := fun a b =>
  inferInstanceAs (Decidable (Later a.1 b.1))

instance : Std.Total (LaterIndexed (α := α)) := ⟨fun a b => Nat.le_total b.1.start a.1.start⟩

instance : IsTrans (Indexed α) LaterIndexed := ⟨fun _ _ _ hab hbc => Nat.le_trans hbc hab⟩

def sortedIndexed (es : List (Edit α)) : List (Indexed α) := es.zipIdx.insertionSort LaterIndexed

theorem descending_tagged (es : List (Edit α)) :
    descending (tagged es) = (sortedIndexed es).map Indexed.tag :=
  (List.map_insertionSort LaterIndexed Later Indexed.tag es.zipIdx fun _ _ _ _ => Iff.rfl).symm

theorem descending_eq (es : List (Edit α)) : descending es = (sortedIndexed es).map Prod.fst := by
  rw [sortedIndexed, List.map_insertionSort LaterIndexed Later Prod.fst es.zipIdx
    fun _ _ _ _ => Iff.rfl, List.zipIdx_map_fst]
  rfl

theorem mem_sortedIndexed {es : List (Edit α)} {p : Indexed α} :
    p ∈ sortedIndexed es ↔ es[p.2]? = some p.1 := by
  rw [sortedIndexed, List.mem_insertionSort, List.mem_zipIdx_iff_getElem?]

theorem sortedIndexed_starts (es : List (Edit α)) :
    (sortedIndexed es).Pairwise fun a b => b.1.start ≤ a.1.start :=
  List.pairwise_insertionSort LaterIndexed es.zipIdx

theorem sortedIndexed_indices_nodup (es : List (Edit α)) :
    ((sortedIndexed es).map Prod.snd).Nodup := by
  have hperm := (List.perm_insertionSort LaterIndexed es.zipIdx).map Prod.snd
  rw [List.zipIdx_map_snd] at hperm
  exact hperm.nodup_iff.mpr List.nodup_range'

theorem outlasts_tag_iff {ps : List (Indexed α)} {p : Nat} :
    Outlasts (ps.map Indexed.tag) p ↔ Outlasts (ps.map Prod.fst) p := by
  have hsame (q : Indexed α) : q.tag.start = q.1.start ∧ q.tag.stop = q.1.stop ∧
      q.tag.text.length = q.1.text.length := by
    refine ⟨rfl, rfl, ?_⟩
    rw [Indexed.tag, insertedText, List.length_map, List.length_range]
  have hsame' (q : Indexed α) : q.1.start = q.tag.start ∧ q.1.stop = q.tag.stop ∧
      q.1.text.length = q.tag.text.length := by
    obtain ⟨hstart, hstop, hlength⟩ := hsame q
    exact ⟨hstart.symm, hstop.symm, hlength.symm⟩
  exact ⟨Outlasts.map hsame, Outlasts.map hsame'⟩

end Order

section Origins

variable {n : Nat} {es : List (Edit α)}

theorem inserted_mem_insertedText {j j' len offset : Nat} :
    Origin.inserted j' offset ∈ insertedText j len ↔ j' = j ∧ offset < len := by
  simp only [insertedText, List.mem_map, List.mem_range, Origin.inserted.injEq]
  constructor
  · rintro ⟨i, hi, rfl, rfl⟩
    exact ⟨rfl, hi⟩
  · rintro ⟨rfl, hi⟩
    exact ⟨offset, hi, rfl, rfl⟩

theorem range_split {i len : Nat} (h : i < len) :
    List.range len = List.range i ++ i :: List.range' (i + 1) (len - i - 1) := by
  have hrange := @List.range'_append_1 0 i (len - i)
  rw [Nat.zero_add, show i + (len - i) = len by omega, show len - i = len - i - 1 + 1 by omega,
    List.range'_succ] at hrange
  rw [List.range_eq_range', List.range_eq_range', ← hrange]

theorem keptRange_split {p : Nat} (h : p < n) :
    keptRange 0 n = (List.range p).map .kept ++
      .kept p :: (List.range' (p + 1) (n - p - 1)).map .kept := by
  rw [keptRange, Nat.sub_zero, ← List.range_eq_range', range_split h, List.map_append,
    List.map_cons]

theorem insertedText_split {j len offset : Nat} (h : offset < len) :
    insertedText j len = (List.range offset).map (.inserted j) ++
      .inserted j offset :: (List.range' (offset + 1) (len - offset - 1)).map (.inserted j) := by
  rw [insertedText, range_split h, List.map_append, List.map_cons]

/-- A position of the input is there in the end if it outlasts the edits. -/
theorem kept_mem_origins_iff (hspan : ∀ e ∈ es, e.start ≤ e.stop) {p : Nat} :
    .kept p ∈ origins n es ↔ p < n ∧ Outlasts (descending es) p := by
  have hspans : ∀ e ∈ (sortedIndexed es).map Indexed.tag, e.start ≤ e.stop := by
    intro e he
    obtain ⟨q, hq, rfl⟩ := List.mem_map.mp he
    exact hspan q.1 (List.mem_of_getElem? (mem_sortedIndexed.mp hq))
  have htexts : ∀ e ∈ (sortedIndexed es).map Indexed.tag, Origin.kept p ∉ e.text := by
    intro e he
    obtain ⟨q, -, rfl⟩ := List.mem_map.mp he
    simp [Indexed.tag, insertedText]
  have hsorted : ((sortedIndexed es).map Indexed.tag).Pairwise Later :=
    List.pairwise_map.mpr (sortedIndexed_starts es)
  rw [origins, descending_tagged, descending_eq]
  by_cases hp : p < n
  · have hleft : Origin.kept p ∉ (List.range p).map .kept := by simp
    have hright : Origin.kept p ∉ (List.range' (p + 1) (n - p - 1)).map .kept := by simp
    have hreach := mem_applyAll_iff hsorted hspans htexts hleft hright
    rw [List.length_map, List.length_range, outlasts_tag_iff] at hreach
    rw [keptRange_split hp, and_iff_right hp, hreach]
  · refine iff_of_false (fun hmem => ?_) fun h => hp h.1
    obtain hmem | ⟨e, he, hmem⟩ := mem_applyAll hmem
    · simp [keptRange] at hmem
      omega
    · exact htexts e he hmem

/-- A place of a text that has just been inserted outlasts the edits that come after, or not. -/
theorem inserted_mem_applyAll_iff {p : Indexed α} {current : List Origin}
    {later : List (Edit Origin)} {offset : Nat} (hlength : p.1.start ≤ current.length)
    (hfresh : .inserted p.2 offset ∉ current) (hsorted : later.Pairwise Later)
    (hspans : ∀ e ∈ later, e.start ≤ e.stop)
    (htexts : ∀ e ∈ later, .inserted p.2 offset ∉ e.text) :
    .inserted p.2 offset ∈ applyAll (apply current p.tag) later ↔
      offset < p.1.text.length ∧ Outlasts later (p.1.start + offset) := by
  by_cases hoffset : offset < p.1.text.length
  · have happly : apply current p.tag =
        (current.take p.1.start ++ (List.range offset).map (Origin.inserted p.2)) ++
          Origin.inserted p.2 offset ::
            ((List.range' (offset + 1) (p.1.text.length - offset - 1)).map (Origin.inserted p.2) ++
              current.drop p.1.stop) := by
      rw [apply, Indexed.tag, insertedText_split hoffset]
      simp only [List.append_assoc, List.cons_append]
    have hat : (current.take p.1.start ++ (List.range offset).map (Origin.inserted p.2)).length =
        p.1.start + offset := by
      rw [List.length_append, List.length_take, List.length_map, List.length_range,
        Nat.min_eq_left hlength]
    have hleft : Origin.inserted p.2 offset ∉
        current.take p.1.start ++ (List.range offset).map (Origin.inserted p.2) := by
      rw [List.mem_append, not_or]
      exact ⟨fun h => hfresh (List.mem_of_mem_take h), by simp⟩
    have hright : Origin.inserted p.2 offset ∉
        (List.range' (offset + 1) (p.1.text.length - offset - 1)).map (Origin.inserted p.2) ++
          current.drop p.1.stop := by
      rw [List.mem_append, not_or]
      exact ⟨by simp, fun h => hfresh (List.mem_of_mem_drop h)⟩
    have hreach := mem_applyAll_iff hsorted hspans htexts hleft hright
    rw [hat] at hreach
    rw [happly, and_iff_right hoffset, hreach]
  · refine iff_of_false (fun hin => ?_) fun h => hoffset h.1
    obtain hin | ⟨e, he, hin⟩ := mem_applyAll hin
    · rw [apply, List.mem_append, List.mem_append] at hin
      obtain (hin | hin) | hin := hin
      · exact hfresh (List.mem_of_mem_take hin)
      · exact hoffset (inserted_mem_insertedText.mp hin).2
      · exact hfresh (List.mem_of_mem_drop hin)
    · exact htexts e he hin

/-- Edits that lie right of a position leave at least that many places. -/
theorem le_length_of_before {before after : List (Indexed α)} {p : Indexed α}
    (hspan : ∀ e ∈ es, e.start ≤ e.stop ∧ e.stop ≤ n)
    (hsplit : sortedIndexed es = before ++ p :: after) :
    p.1.start ≤ (applyAll (keptRange 0 n) (before.map Indexed.tag)).length := by
  have hsorted := sortedIndexed_starts es
  rw [hsplit] at hsorted
  have hcross := (List.pairwise_append.mp hsorted).2.2
  refine le_length_applyAll ?_ fun e he => ?_
  · have hmem := mem_sortedIndexed.mp (hsplit ▸ List.mem_append_right before List.mem_cons_self)
    have hp := hspan p.1 (List.mem_of_getElem? hmem)
    simp only [keptRange, List.length_map, List.length_range', Nat.sub_zero]
    omega
  · obtain ⟨q, hq, rfl⟩ := List.mem_map.mp he
    exact hcross q hq p List.mem_cons_self

/-- A place of an inserted text is there in the end if it outlasts the edits that come after. -/
theorem inserted_mem_origins_iff (hspan : ∀ e ∈ es, e.start ≤ e.stop ∧ e.stop ≤ n)
    {before after : List (Indexed α)} {p : Indexed α}
    (hsplit : sortedIndexed es = before ++ p :: after) {offset : Nat} :
    .inserted p.2 offset ∈ origins n es ↔
      offset < p.1.text.length ∧ Outlasts (after.map Prod.fst) (p.1.start + offset) := by
  have hsorted := sortedIndexed_starts es
  have hnodup := sortedIndexed_indices_nodup es
  rw [hsplit] at hsorted hnodup
  rw [List.map_append, List.map_cons, List.nodup_append, List.nodup_cons] at hnodup
  obtain ⟨-, ⟨hlater, -⟩, hearlier⟩ := hnodup
  have hother : ∀ q ∈ before ++ after, .inserted p.2 offset ∉ q.tag.text := by
    intro q hq hin
    have heq : p.2 = q.2 := (inserted_mem_insertedText.mp hin).1
    obtain hq | hq := List.mem_append.mp hq
    · exact hearlier _ (List.mem_map_of_mem hq) _ List.mem_cons_self heq.symm
    · exact hlater (heq ▸ List.mem_map_of_mem hq)
  have hfresh : .inserted p.2 offset ∉ applyAll (keptRange 0 n) (before.map Indexed.tag) := by
    intro hin
    obtain hin | ⟨e, he, hin⟩ := mem_applyAll hin
    · simp [keptRange] at hin
    · obtain ⟨q, hq, rfl⟩ := List.mem_map.mp he
      exact hother q (List.mem_append_left _ hq) hin
  have hspans : ∀ e ∈ after.map Indexed.tag, e.start ≤ e.stop := by
    intro e he
    obtain ⟨q, hq, rfl⟩ := List.mem_map.mp he
    have hmem : q ∈ sortedIndexed es :=
      hsplit ▸ List.mem_append_right before (List.mem_cons_of_mem p hq)
    exact (hspan q.1 (List.mem_of_getElem? (mem_sortedIndexed.mp hmem))).1
  have htexts : ∀ e ∈ after.map Indexed.tag, .inserted p.2 offset ∉ e.text := by
    intro e he
    obtain ⟨q, hq, rfl⟩ := List.mem_map.mp he
    exact hother q (List.mem_append_right _ hq)
  have hsorted' : (after.map Indexed.tag).Pairwise Later :=
    List.pairwise_map.mpr (List.pairwise_cons.mp (List.pairwise_append.mp hsorted).2.1).2
  rw [origins, descending_tagged, hsplit, List.map_append, applyAll_append, List.map_cons,
    applyAll_cons, inserted_mem_applyAll_iff (le_length_of_before hspan hsplit) hfresh hsorted'
      hspans htexts, outlasts_tag_iff]

end Origins

end DomainRag.Splice
