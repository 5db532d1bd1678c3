import Mathlib.Algebra.BigOperators.Group.List.Basic
import Mathlib.Algebra.Order.Ring.Int
import Mathlib.Data.List.Sort
import Mathlib.Data.List.Range

/-! # Replacing spans of a sequence from right to left

An edit replaces the half-open span `[start, stop)` by a text. Edits are applied one
after the other, each to the result of the previous one, in descending order of their
starts. Where every element of the result comes from is made explicit by running the
same edits on origins instead of elements. An element stays as long as no edit reaches the
place that it has come to, and this place differs from its first by what the edits before have
added or taken away.
-/

namespace DomainRag.Splice

variable {α β γ : Type}

structure Edit (α : Type) where
  start : Nat
  stop : Nat
  text : List α

def Edit.map (f : α → β) (e : Edit α) : Edit β := ⟨e.start, e.stop, e.text.map f⟩

@[simp] theorem Edit.map_start (f : α → β) (e : Edit α) : (e.map f).start = e.start := rfl
@[simp] theorem Edit.map_stop (f : α → β) (e : Edit α) : (e.map f).stop = e.stop := rfl

def apply (xs : List α) (e : Edit α) : List α := xs.take e.start ++ e.text ++ xs.drop e.stop

def applyAll (xs : List α) (es : List (Edit α)) : List α := es.foldl apply xs

/-- Order by descending start; a stable sort keeps the order of equal starts. -/
def Later (a b : Edit α) : Prop := b.start ≤ a.start

instance : DecidableRel (Later (α := α)) := fun a b => inferInstanceAs (Decidable (b.start ≤ a.start))

def descending (es : List (Edit α)) : List (Edit α) := es.insertionSort Later

@[simp] theorem applyAll_nil (xs : List α) : applyAll xs [] = xs := rfl

@[simp] theorem applyAll_cons (xs : List α) (e : Edit α) (es : List (Edit α)) :
    applyAll xs (e :: es) = applyAll (apply xs e) es := rfl

theorem applyAll_append (xs : List α) (es fs : List (Edit α)) :
    applyAll xs (es ++ fs) = applyAll (applyAll xs es) fs := List.foldl_append

theorem map_apply (f : α → β) (xs : List α) (e : Edit α) :
    (apply xs e).map f = apply (xs.map f) (e.map f) := by
  simp [apply, Edit.map, List.map_take, List.map_drop]

theorem map_applyAll (f : α → β) (xs : List α) (es : List (Edit α)) :
    (applyAll xs es).map f = applyAll (xs.map f) (es.map (Edit.map f)) := by
  induction es generalizing xs with
  | nil => rfl
  | cons e es ih => rw [applyAll_cons, ih, map_apply, List.map_cons, applyAll_cons]

theorem map_descending (f : α → β) (es : List (Edit α)) :
    (descending es).map (Edit.map f) = descending (es.map (Edit.map f)) :=
  List.map_insertionSort Later Later (Edit.map f) es fun _ _ _ _ => Iff.rfl

/-- Where an element of the result comes from: a position of the input, or a position
of the text that one of the edits inserts. -/
inductive Origin where
  | kept (pos : Nat)
  | inserted (edit offset : Nat)
  deriving DecidableEq, Repr

def keptRange (a b : Nat) : List Origin := (List.range' a (b - a)).map .kept

def insertedText (j len : Nat) : List Origin := (List.range len).map (.inserted j)

/-- The edits on origins: the text of the edit at index `j` becomes its own origins. -/
def tagged (es : List (Edit α)) : List (Edit Origin) :=
  es.zipIdx.map fun p => ⟨p.1.start, p.1.stop, insertedText p.2 p.1.text.length⟩

def origins (n : Nat) (es : List (Edit α)) : List Origin :=
  applyAll (keptRange 0 n) (descending (tagged es))

def render [Inhabited α] (xs : List α) (es : List (Edit α)) : Origin → α
  | .kept pos => xs.getD pos default
  | .inserted j offset => ((es[j]?.map Edit.text).getD []).getD offset default

theorem map_getD_range [Inhabited α] (xs : List α) :
    (List.range xs.length).map (fun i => xs.getD i default) = xs := by
  apply List.ext_getElem
  · simp
  · intro i hi hx
    simp [hx]

theorem map_render_tagged [Inhabited α] (xs : List α) (es : List (Edit α)) :
    (tagged es).map (Edit.map (render xs es)) = es := by
  apply List.ext_getElem?
  intro j
  simp only [tagged, List.getElem?_map, List.getElem?_zipIdx, Option.map_map, Nat.zero_add]
  cases he : es[j]? with
  | none => rfl
  | some e =>
    have htext : (insertedText j e.text.length).map (render xs es) = e.text := by
      simp only [insertedText, List.map_map]
      have hfun : render xs es ∘ Origin.inserted j = fun i => e.text.getD i default := by
        funext i
        simp [render, he]
      rw [hfun, map_getD_range]
    simp only [Option.map_some, Function.comp_apply, Edit.map, htext]

/-- Applying the edits is reading off the origins. -/
theorem map_render_origins [Inhabited α] (xs : List α) (es : List (Edit α)) :
    (origins xs.length es).map (render xs es) = applyAll xs (descending es) := by
  have hkept : (keptRange 0 xs.length).map (render xs es) = xs := by
    simp only [keptRange, List.map_map, Nat.sub_zero, ← List.range_eq_range']
    exact map_getD_range xs
  rw [origins, map_applyAll, map_descending, map_render_tagged, hkept]

/-- By how much the edits that start at a position or left of it move what stands there. -/
def growth (p : Nat) (es : List (Edit α)) : Int :=
  ((es.filter fun e => e.start ≤ p).map fun e => (e.text.length : Int) - (e.stop - e.start)).sum

/-- None of the edits, applied one after the other, reaches an element that stands at the position
before the first of them. -/
def Outlasts (es : List (Edit α)) (p : Nat) : Prop :=
  ∀ before e after, es = before ++ e :: after → e.start ≤ p → (e.stop : Int) ≤ p + growth p before

theorem forall_split_iff (P : List α → α → List α → Prop) (l : List α) :
    (∀ before x after, l = before ++ x :: after → P before x after) ↔
      ∀ i (h : i < l.length), P (l.take i) l[i] (l.drop (i + 1)) := by
  constructor
  · intro h i hi
    refine h _ _ _ ?_
    rw [← List.drop_eq_getElem_cons hi, List.take_append_drop]
  · rintro h before x after rfl
    have hat := h before.length (by simp)
    simpa [List.drop_length_add_append] using hat

instance (es : List (Edit α)) : DecidablePred (Outlasts es) := fun p =>
  decidable_of_iff (∀ i (h : i < es.length), es[i].start ≤ p →
    (es[i].stop : Int) ≤ p + growth p (es.take i))
    (forall_split_iff (fun before e _ => e.start ≤ p → (e.stop : Int) ≤ p + growth p before) es).symm

section Growth

variable {p : Nat} {e : Edit α} {es : List (Edit α)}

theorem growth_cons_of_lt (h : p < e.start) : growth p (e :: es) = growth p es := by
  rw [growth, List.filter_cons_of_neg (by simpa using h)]
  rfl

theorem growth_cons_of_le (h : e.start ≤ p) :
    growth p (e :: es) = e.text.length - (e.stop - e.start) + growth p es := by
  rw [growth, List.filter_cons_of_pos (by simpa using h), List.map_cons, List.sum_cons]
  rfl

/-- Right of all edits the position does not matter. -/
theorem growth_eq {q : Nat} (hp : ∀ e ∈ es, e.start ≤ p) (hq : ∀ e ∈ es, e.start ≤ q) :
    growth p es = growth q es := by
  have hall {r : Nat} (hr : ∀ e ∈ es, e.start ≤ r) : es.filter (fun e => e.start ≤ r) = es :=
    List.filter_eq_self.mpr fun e he => decide_eq_true (hr e he)
  rw [growth, growth, hall hp, hall hq]

/-- Only the spans and the lengths of the texts count. -/
theorem growth_map {f : γ → Edit α} {g : γ → Edit β} (h : ∀ c, (f c).start = (g c).start ∧
    (f c).stop = (g c).stop ∧ (f c).text.length = (g c).text.length) (cs : List γ) :
    growth p (cs.map f) = growth p (cs.map g) := by
  induction cs with
  | nil => rfl
  | cons c cs ih =>
    obtain ⟨hstart, hstop, hlength⟩ := h c
    rw [List.map_cons, List.map_cons]
    by_cases hle : (f c).start ≤ p
    · rw [growth_cons_of_le hle, growth_cons_of_le (hstart ▸ hle), ih, hstart, hstop, hlength]
    · rw [growth_cons_of_lt (not_le.mp hle), growth_cons_of_lt (hstart ▸ not_le.mp hle), ih]

end Growth

section Positions

variable {p : Nat} {e : Edit α} {es : List (Edit α)}

theorem outlasts_nil : Outlasts ([] : List (Edit α)) p := by
  intro before e after h
  exact absurd h.symm (List.append_ne_nil_of_right_ne_nil _ (List.cons_ne_nil _ _))

theorem Outlasts.map {f : γ → Edit α} {g : γ → Edit β} (h : ∀ c, (f c).start = (g c).start ∧
    (f c).stop = (g c).stop ∧ (f c).text.length = (g c).text.length) {cs : List γ}
    (hout : Outlasts (cs.map f) p) : Outlasts (cs.map g) p := by
  intro before e after hsplit hle
  obtain ⟨cs₁, cs₂, rfl, rfl, hcs₂⟩ := List.map_eq_append_iff.mp hsplit
  obtain ⟨c, cs₃, rfl, rfl, rfl⟩ := List.map_eq_cons_iff.mp hcs₂
  obtain ⟨hstart, hstop, -⟩ := h c
  have hbefore := hout (cs₁.map f) (f c) (cs₃.map f) (by rw [List.map_append, List.map_cons])
    (hstart ▸ hle)
  rwa [hstop, growth_map h] at hbefore

/-- An edit right of the position. -/
theorem outlasts_cons_of_lt (h : p < e.start) : Outlasts (e :: es) p ↔ Outlasts es p := by
  constructor
  · intro hout before f after hsplit hle
    have hf := hout (e :: before) f after (by rw [hsplit, List.cons_append]) hle
    rwa [growth_cons_of_lt h] at hf
  · intro hout before f after hsplit hle
    obtain ⟨rfl, ⟨⟩⟩ | ⟨before, rfl, rfl⟩ := List.cons_eq_append_iff.mp hsplit
    · omega
    · rw [growth_cons_of_lt h]
      exact hout before f after rfl hle

/-- An edit at the position or left of it, after which the element stands elsewhere. -/
theorem outlasts_cons_of_le (hsorted : ∀ f ∈ es, f.start ≤ e.start) (h : e.start ≤ p) :
    Outlasts (e :: es) p ↔
      e.stop ≤ p ∧ Outlasts es (e.start + e.text.length + (p - e.stop)) := by
  have hmoved : ∀ f ∈ es, f.start ≤ e.start + e.text.length + (p - e.stop) := fun f hf => by
    have hfe := hsorted f hf
    omega
  have hgrowth {before after : List (Edit α)} {f : Edit α} (hsplit : es = before ++ f :: after) :
      growth p before = growth (e.start + e.text.length + (p - e.stop)) before := by
    have hmem : ∀ g ∈ before, g ∈ es := fun g hg => hsplit ▸ List.mem_append_left _ hg
    refine growth_eq (fun g hg => (hsorted g (hmem g hg)).trans h) fun g hg => hmoved g (hmem g hg)
  constructor
  · intro hout
    have hstop := hout [] e es rfl h
    have hreach : e.stop ≤ p := by
      simp only [growth, List.filter_nil, List.map_nil, List.sum_nil] at hstop
      omega
    refine ⟨hreach, fun before f after hsplit _ => ?_⟩
    have hfe := hsorted f (hsplit ▸ List.mem_append_right _ List.mem_cons_self)
    have hf := hout (e :: before) f after (by rw [hsplit, List.cons_append]) (hfe.trans h)
    rw [growth_cons_of_le h, hgrowth hsplit] at hf
    omega
  · rintro ⟨hreach, hout⟩ before f after hsplit hle
    obtain ⟨rfl, ⟨⟩⟩ | ⟨before, rfl, hes⟩ := List.cons_eq_append_iff.mp hsplit
    · simp only [growth, List.filter_nil, List.map_nil, List.sum_nil]
      omega
    · have hf := hout before f after hes
        (hmoved f (hes ▸ List.mem_append_right _ List.mem_cons_self))
      rw [growth_cons_of_le h, hgrowth hes]
      omega

end Positions

section Elements

variable {x : α} {es : List (Edit α)}

theorem mem_applyAll {xs : List α} (h : x ∈ applyAll xs es) : x ∈ xs ∨ ∃ e ∈ es, x ∈ e.text := by
  induction es generalizing xs with
  | nil => exact .inl h
  | cons e es ih =>
    obtain h | ⟨f, hf, hx⟩ := ih h
    · simp only [apply, List.mem_append] at h
      obtain (h | h) | h := h
      · exact .inl (List.mem_of_mem_take h)
      · exact .inr ⟨e, List.mem_cons_self, h⟩
      · exact .inl (List.mem_of_mem_drop h)
    · exact .inr ⟨f, List.mem_cons_of_mem _ hf, hx⟩

theorem le_length_applyAll {n : Nat} {xs : List α} (hxs : n ≤ xs.length)
    (hes : ∀ e ∈ es, n ≤ e.start) : n ≤ (applyAll xs es).length := by
  induction es generalizing xs with
  | nil => exact hxs
  | cons e es ih =>
    refine ih ?_ fun f hf => hes f (List.mem_cons_of_mem _ hf)
    have he := hes e List.mem_cons_self
    simp only [apply, List.length_append, List.length_take]
    omega

/-- An element that stands at one place only is there after the edits if it outlasts them. -/
theorem mem_applyAll_iff {l r : List α} (hsorted : es.Pairwise Later)
    (hspan : ∀ e ∈ es, e.start ≤ e.stop) (htext : ∀ e ∈ es, x ∉ e.text) (hl : x ∉ l) (hr : x ∉ r) :
    x ∈ applyAll (l ++ x :: r) es ↔ Outlasts es l.length := by
  induction es generalizing l r with
  | nil => exact iff_of_true (List.mem_append_right _ List.mem_cons_self) outlasts_nil
  | cons e es ih =>
    obtain ⟨hfirst, hsorted⟩ := List.pairwise_cons.mp hsorted
    have hle := hspan e List.mem_cons_self
    have hnew := htext e List.mem_cons_self
    have hrest := fun f hf => hspan f (List.mem_cons_of_mem e hf)
    have htexts := fun f hf => htext f (List.mem_cons_of_mem e hf)
    rw [applyAll_cons]
    by_cases hleft : l.length < e.start
    · obtain ⟨k, hk⟩ : ∃ k, e.start = l.length + (k + 1) := ⟨e.start - l.length - 1, by omega⟩
      obtain ⟨m, hm⟩ : ∃ m, e.stop = l.length + (m + 1) := ⟨e.stop - l.length - 1, by omega⟩
      have happly : apply (l ++ x :: r) e = l ++ x :: (r.take k ++ e.text ++ r.drop m) := by
        simp [apply, hk, hm, List.take_length_add_append, List.drop_length_add_append]
      rw [happly, outlasts_cons_of_lt hleft]
      refine ih hsorted hrest htexts hl ?_
      simp only [List.mem_append, not_or]
      exact ⟨⟨fun h => hr (List.mem_of_mem_take h), hnew⟩, fun h => hr (List.mem_of_mem_drop h)⟩
    · rw [outlasts_cons_of_le hfirst (not_lt.mp hleft)]
      have htake : (l ++ x :: r).take e.start = l.take e.start :=
        List.take_append_of_le_length (not_lt.mp hleft)
      by_cases hreach : e.stop ≤ l.length
      · have happly : apply (l ++ x :: r) e =
            (l.take e.start ++ e.text ++ l.drop e.stop) ++ x :: r := by
          rw [apply, htake, List.drop_append_of_le_length hreach, List.append_assoc _ _ (x :: r)]
        have hlength : (l.take e.start ++ e.text ++ l.drop e.stop).length =
            e.start + e.text.length + (l.length - e.stop) := by
          simp only [List.length_append, List.length_take, List.length_drop]
          omega
        rw [happly, and_iff_right hreach, ← hlength]
        refine ih hsorted hrest htexts ?_ hr
        simp only [List.mem_append, not_or]
        exact ⟨⟨fun h => hl (List.mem_of_mem_take h), hnew⟩, fun h => hl (List.mem_of_mem_drop h)⟩
      · refine iff_of_false (fun hmem => ?_) fun h => hreach h.1
        obtain ⟨m, hm⟩ : ∃ m, e.stop = l.length + (m + 1) := ⟨e.stop - l.length - 1, by omega⟩
        have hdrop : (l ++ x :: r).drop e.stop = r.drop m := by
          simp [hm, List.drop_length_add_append]
        obtain hmem | ⟨f, hf, hmem⟩ := mem_applyAll hmem
        · rw [apply, htake, hdrop, List.mem_append, List.mem_append] at hmem
          obtain (hmem | hmem) | hmem := hmem
          · exact hl (List.mem_of_mem_take hmem)
          · exact hnew hmem
          · exact hr (List.mem_of_mem_drop hmem)
        · exact htexts f hf hmem

end Elements

end DomainRag.Splice
