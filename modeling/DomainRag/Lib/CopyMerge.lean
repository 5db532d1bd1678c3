import DomainRag.Lib.HeapMerge

/-! # Merging dictionaries into new ones

A merge that copies makes a new dictionary at each level where two dictionaries meet, and refers to
what it takes over from either side. It reads as a merge of the contents, and whatever was in the
heap before is as it was.
-/

namespace DomainRag

namespace Heap

/-- One turn of the loop over the entries of an override. -/
def copyEntry (merge : Slot → Slot → Heap → Except Exc (Slot × Heap)) (out : Nat) (h : Heap)
    (e : String × Slot) : Except Exc Heap :=
  match e.2, (h.cell out).get? e.1 with
  | .ref v, some (.ref b) => do
    let (merged, h') ← merge (.ref b) (.ref v) h
    return h'.setItem out e.1 merged
  | _, _ => .ok (h.setItem out e.1 e.2)

/-- Nested calls go as deep as the first argument allows. -/
def copyMerge : Nat → Slot → Slot → Heap → Except Exc (Slot × Heap)
  | 0, _, _, _ => .error recursionError
  | n + 1, .ref base, .ref upper, h => do
    let h' ← (h.cell upper).entries.foldlM (copyEntry (copyMerge n) h.next) (h.push (h.cell base))
    return (.ref h.next, h')
  | _ + 1, _, upper, h => .ok (upper, h)

def Bounded (h : Heap) (s : Slot) : Prop := ∀ a, h.Inside s a → a < h.next

/-- A slot that has what a merge of two slots has, in new dictionaries or in those of the two. -/
structure Copied (h : Heap) (base upper s : Slot) (h' : Heap) : Prop where
  grown : Grown h h'
  contents : h'.contents (some s) = (h.contents (some base)).merge (h.contents (some upper))
  inside : ∀ a, h'.Inside s a →
    h.Inside base a ∨ h.Inside upper a ∨ h.next ≤ a ∧ a < h'.next

/-- The entries have been merged into a copy of the dictionary, which is the first new one. -/
structure Copying (h : Heap) (base : Nat) (es : List (String × Slot)) (h' : Heap) : Prop where
  grown : Grown h h'
  next : h.next < h'.next
  contents : ∀ k, h'.contents ((h'.cell h.next).get? k) =
    (h.contents ((h.cell base).get? k)).merge (h.contents (es.lookup k))
  kept : ∀ k, k ∉ es.map Prod.fst → (h'.cell h.next).get? k = (h.cell base).get? k
  inside : ∀ k s, (h'.cell h.next).get? k = some s → ∀ a, h'.Inside s a →
    h.Inside (.ref base) a ∨ (∃ e ∈ es, h.Inside e.2 a) ∨ h.next < a ∧ a < h'.next

section Contents

variable {h h' : Heap}

theorem merge_contents_none (f : Contents) : f.merge (h.contents none) = f :=
  Contents.merge_absent rfl

/-- Where not both are dictionaries the upper one replaces the other. -/
theorem merge_contents_other {base : Option Slot} {s : Slot}
    (hboth : ¬ ∃ b v, base = some (.ref b) ∧ s = .ref v) :
    (h.contents base).merge (h.contents (some s)) = h.contents (some s) := by
  apply Contents.merge_other
  · rw [contents_root]
    exact Option.some_ne_none _
  · intro hdict hdict'
    obtain ⟨b, hb⟩ := contents_root_eq_dict_iff.mp hdict
    obtain ⟨v, hv⟩ := contents_root_eq_dict_iff.mp hdict'
    exact hboth ⟨b, v, hb, Option.some.inj hv⟩

theorem lookup_concat {es : List (String × Slot)} {e : String × Slot}
    (hnew : e.1 ∉ es.map Prod.fst) (k : String) :
    (es ++ [e]).lookup k = if k = e.1 then some e.2 else es.lookup k := by
  rw [List.lookup_append]
  by_cases hk : k = e.1
  · have hnone : es.lookup k = none := by
      rw [List.lookup_eq_none_iff]
      intro e' he'
      exact bne_iff_ne.mpr fun heq => hnew (hk ▸ heq ▸ List.mem_map_of_mem he')
    rw [hnone, Option.none_or, if_pos hk, hk]
    exact List.lookup_cons_self
  · have hnone : [e].lookup k = none := by
      rw [List.lookup_eq_none_iff]
      intro e' he'
      rw [List.mem_singleton.mp he']
      exact bne_iff_ne.mpr hk
    rw [hnone, Option.or_none, if_neg hk]

end Contents

section Loop

variable {n : Nat} {h h₁ h' : Heap} {base : Nat} {e : String × Slot} {es : List (String × Slot)}
  {s : Slot}

theorem copying_nil (hbase : h.Bounded (.ref base)) :
    Copying h base [] (h.push (h.cell base)) where
  grown := grown_push h _
  next := Nat.lt_succ_self _
  contents k := by
    rw [cell_push_self, List.lookup_nil, merge_contents_none]
    cases hs : (h.cell base).get? k with
    | none => rfl
    | some s => exact ((grown_push h _).agree fun a ha => hbase a (ha.child hs)).contents
  kept k _ := by rw [cell_push_self]
  inside k s hs a ha := by
    rw [cell_push_self] at hs
    have hagree : Agree h (h.push (h.cell base)) s :=
      (grown_push h _).agree fun a ha => hbase a (ha.child hs)
    exact .inl ((hagree.inside_iff.mp ha).child hs)

/-- The copy is not met below what stands in it. -/
theorem Copying.ne_of_inside (hc : Copying h base es h₁) (hbase : h.Bounded (.ref base))
    (hes : ∀ e ∈ es, h.Bounded e.2) {k : String} (hs : (h₁.cell h.next).get? k = some s) {a : Nat}
    (ha : h₁.Inside s a) : a ≠ h.next ∧ a < h₁.next := by
  have hnext := hc.next
  rcases hc.inside k s hs a ha with ha | ⟨e, he, ha⟩ | ⟨hlt, hlt'⟩
  · have := hbase a ha
    omega
  · have := hes e he a ha
    omega
  · omega

/-- What a turn puts into the copy. -/
structure Turn (h h₁ : Heap) (base : Nat) (e : String × Slot) (t : Slot) (h₂ : Heap) : Prop where
  grown : Grown h₁ h₂
  contents : h₂.contents (some t) =
    (h.contents ((h.cell base).get? e.1)).merge (h.contents (some e.2))
  inside : ∀ a, h₂.Inside t a →
    h.Inside (.ref base) a ∨ h.Inside e.2 a ∨ h.next < a ∧ a < h₂.next

theorem Turn.not_inside {h₂ : Heap} {t : Slot} (ht : Turn h h₁ base e t h₂)
    (hbase : h.Bounded (.ref base)) (he : h.Bounded e.2) : ¬ h₂.Inside t h.next := by
  intro hnext
  rcases ht.inside _ hnext with ha | ha | ⟨hlt, -⟩
  · exact Nat.lt_irrefl _ (hbase _ ha)
  · exact Nat.lt_irrefl _ (he _ ha)
  · exact Nat.lt_irrefl _ hlt

section SetItem

variable {h₂ : Heap} {t : Slot}

theorem Copying.get?_setItem (hc : Copying h base es h₁) (ht : Turn h h₁ base e t h₂)
    (k : String) : ((h₂.setItem h.next e.1 t).cell h.next).get? k =
      if k = e.1 then some t else (h₁.cell h.next).get? k := by
  rw [cell_setItem_self, Dict.get?_set, ht.grown.frame _ hc.next]

theorem agree_setItem {a : Nat} {k : String} (hs : ¬ h₂.Inside s a) :
    Agree h₂ (h₂.setItem a k t) s :=
  agree_of_cell fun _ ha => cell_setItem_of_ne fun heq => hs (heq ▸ ha)

/-- What stood in the copy before a turn is as it was. -/
theorem Copying.agree_setItem (hc : Copying h base es h₁) (hbase : h.Bounded (.ref base))
    (hes : ∀ e ∈ es, h.Bounded e.2) (ht : Turn h h₁ base e t h₂) {k : String}
    (hs : (h₁.cell h.next).get? k = some s) :
    Agree h₁ (h₂.setItem h.next e.1 t) s := by
  have hinside : ∀ a, h₁.Inside s a → a ≠ h.next ∧ a < h₁.next :=
    fun a ha => hc.ne_of_inside hbase hes hs ha
  have hgrown : Agree h₁ h₂ s := ht.grown.agree fun a ha => (hinside a ha).2
  have hnext : ¬ h₂.Inside s h.next := by
    intro ha
    exact (hinside _ (hgrown.inside_iff.mp ha)).1 rfl
  intro path
  rw [Heap.agree_setItem hnext, hgrown]

theorem Copying.setItem (hc : Copying h base es h₁)
    (hbase : h.Bounded (.ref base)) (hes : ∀ e ∈ es, h.Bounded e.2) (he : h.Bounded e.2)
    (hnew : e.1 ∉ es.map Prod.fst) (ht : Turn h h₁ base e t h₂) :
    Copying h base (es ++ [e]) (h₂.setItem h.next e.1 t) := by
  have hturn : Agree h₂ (h₂.setItem h.next e.1 t) t :=
    Heap.agree_setItem (ht.not_inside hbase he)
  refine ⟨⟨?_, ?_⟩, ?_, ?_, ?_, ?_⟩
  · exact (hc.grown.trans ht.grown).next
  · intro a ha
    rw [cell_setItem_of_ne (Nat.ne_of_lt ha)]
    exact (hc.grown.trans ht.grown).frame a ha
  · exact Nat.lt_of_lt_of_le hc.next ht.grown.next
  · intro k
    rw [hc.get?_setItem ht, lookup_concat hnew]
    by_cases hk : k = e.1
    · rw [if_pos hk, if_pos hk, hk, hturn.contents, ht.contents]
    · rw [if_neg hk, if_neg hk, ← hc.contents]
      cases hs : (h₁.cell h.next).get? k with
      | none => rfl
      | some s => exact (hc.agree_setItem hbase hes ht hs).contents
  · intro k hk
    rw [List.map_append, List.map_singleton, List.mem_append, List.mem_singleton, not_or] at hk
    rw [hc.get?_setItem ht, if_neg hk.2, hc.kept k hk.1]
  · intro k s hs a ha
    rw [hc.get?_setItem ht] at hs
    split at hs
    · cases hs
      rcases ht.inside a (hturn.inside_iff.mp ha) with ha | ha | ha
      · exact .inl ha
      · exact .inr (.inl ⟨e, by simp, ha⟩)
      · exact .inr (.inr ha)
    · rw [(hc.agree_setItem hbase hes ht hs).inside_iff] at ha
      rcases hc.inside k s hs a ha with ha | ⟨e', he', ha⟩ | ⟨hlt, hlt'⟩
      · exact .inl ha
      · exact .inr (.inl ⟨e', List.mem_append_left _ he', ha⟩)
      · exact .inr (.inr ⟨hlt, Nat.lt_of_lt_of_le hlt' ht.grown.next⟩)

end SetItem

/-- The assertion about a nested call on which one turn of the loop relies. -/
def Copies (n : Nat) (merge : Slot → Slot → Heap → Except Exc (Slot × Heap)) : Prop :=
  ∀ base upper h, h.Bounded (.ref base) → h.Bounded (.ref upper) → h.Shallow n (.ref upper) →
    ∃ s h', merge (.ref base) (.ref upper) h = .ok (s, h') ∧
      Copied h (.ref base) (.ref upper) s h'

theorem copyEntry_spec {merge : Slot → Slot → Heap → Except Exc (Slot × Heap)}
    (hmerge : Copies n merge) (hc : Copying h base es h₁) (hbase : h.Bounded (.ref base))
    (hes : ∀ e ∈ es, h.Bounded e.2) (he : h.Bounded e.2) (hshallow : h.Shallow n e.2)
    (hnew : e.1 ∉ es.map Prod.fst) :
    ∃ h₂, copyEntry merge h.next h₁ e = .ok h₂ ∧ Copying h base (es ++ [e]) h₂ := by
  obtain ⟨k, s⟩ := e
  have hkept : (h₁.cell h.next).get? k = (h.cell base).get? k := hc.kept k hnew
  have hagree : Agree h h₁ s := hc.grown.agree he
  by_cases hboth : ∃ b v, (h.cell base).get? k = some (.ref b) ∧ s = .ref v
  · obtain ⟨b, v, hb, rfl⟩ := hboth
    have hbbounded : h.Bounded (.ref b) := fun a ha => hbase a (ha.child hb)
    have hbagree : Agree h h₁ (.ref b) := hc.grown.agree hbbounded
    have hbounded : ∀ t, h.Bounded t → Agree h h₁ t → h₁.Bounded t := by
      intro t ht hagree a ha
      exact Nat.lt_of_lt_of_le (ht a (hagree.inside_iff.mp ha)) hc.grown.next
    obtain ⟨t, h₂, hrun, hcopied⟩ := hmerge b v h₁ (hbounded _ hbbounded hbagree)
      (hbounded _ he hagree) (hagree.shallow hshallow)
    refine ⟨h₂.setItem h.next k t, ?_, hc.setItem hbase hes he hnew ⟨hcopied.grown, ?_, ?_⟩⟩
    · simp only [copyEntry, hkept, hb, hrun, bind, Except.bind, pure, Except.pure]
    · rw [hcopied.contents, hbagree.contents, hagree.contents, hb]
    · intro a ha
      rcases hcopied.inside a ha with ha | ha | ⟨hle, hlt⟩
      · exact .inl ((hbagree.inside_iff.mp ha).child hb)
      · exact .inr (.inl (hagree.inside_iff.mp ha))
      · exact .inr (.inr ⟨Nat.lt_of_lt_of_le hc.next hle, hlt⟩)
  · refine ⟨h₁.setItem h.next k s, ?_, hc.setItem hbase hes he hnew ⟨.refl h₁, ?_, ?_⟩⟩
    · rw [copyEntry, hkept]
      split
      · next v b hv hb => exact absurd ⟨b, v, hb, hv⟩ hboth
      · rfl
    · rw [hagree.contents, merge_contents_other hboth]
    · intro a ha
      exact .inr (.inl (hagree.inside_iff.mp ha))

theorem foldlM_copyEntry_spec {merge : Slot → Slot → Heap → Except Exc (Slot × Heap)}
    (hmerge : Copies n merge) (hbase : h.Bounded (.ref base)) {front : List (String × Slot)}
    (hc : Copying h base front h₁) (hes : ∀ e ∈ front ++ es, h.Bounded e.2)
    (hshallow : ∀ e ∈ es, h.Shallow n e.2) (hkeys : ((front ++ es).map Prod.fst).Nodup) :
    ∃ h', es.foldlM (copyEntry merge h.next) h₁ = .ok h' ∧ Copying h base (front ++ es) h' := by
  induction es generalizing front h₁ with
  | nil => exact ⟨h₁, rfl, by rwa [List.append_nil]⟩
  | cons e es ih =>
    have hnew : e.1 ∉ front.map Prod.fst := by
      rw [List.map_append, List.map_cons] at hkeys
      intro hmem
      exact (List.nodup_append.mp hkeys).2.2 _ hmem _ List.mem_cons_self rfl
    have hfront : ∀ e' ∈ front, h.Bounded e'.2 := fun e' he' => hes e' (List.mem_append_left _ he')
    obtain ⟨h₂, hrun, hc₂⟩ := copyEntry_spec hmerge hc hbase hfront (hes e (by simp))
      (hshallow e List.mem_cons_self) hnew
    have hcons : front ++ e :: es = front ++ [e] ++ es := by
      rw [List.append_assoc, List.singleton_append]
    rw [hcons] at hes hkeys ⊢
    obtain ⟨h', hrest, hc'⟩ := ih hc₂ hes (fun e' he' => hshallow e' (List.mem_cons_of_mem e he'))
      hkeys
    refine ⟨h', ?_, hc'⟩
    rw [List.foldlM_cons, hrun]
    exact hrest

theorem copyMerge_copies (n : Nat) : Copies n (copyMerge n) := by
  induction n with
  | zero =>
    intro base upper h _ _ hshallow
    exact absurd (hshallow [] upper rfl) (Nat.not_lt_zero _)
  | succ n ih =>
    intro base upper h hbase hupper hshallow
    have hget : ∀ e ∈ (h.cell upper).entries, (h.cell upper).get? e.1 = some e.2 :=
      fun e he => Dict.get?_eq_some_iff.mpr he
    obtain ⟨h', hrun, hc⟩ := foldlM_copyEntry_spec ih hbase (copying_nil hbase)
      (fun e he a ha => hupper a (ha.child (hget e he))) (fun e he => hshallow.child (hget e he))
      (h.cell upper).nodup
    refine ⟨.ref h.next, h', ?_, hc.grown, ?_, ?_⟩
    · rw [copyMerge, hrun]
      rfl
    · funext path
      cases path with
      | nil => rfl
      | cons k ks =>
        refine (congrFun (hc.contents k) ks).trans ?_
        rw [List.nil_append, Dict.lookup_entries]
        rfl
    · intro a ha
      rcases inside_ref_iff.mp ha with rfl | ⟨k, s, hs, ha⟩
      · exact .inr (.inr ⟨Nat.le_refl _, hc.next⟩)
      · rcases hc.inside k s hs a ha with ha | ⟨e, he, ha⟩ | ⟨hlt, hlt'⟩
        · exact .inl ha
        · exact .inr (.inl (ha.child (hget e he)))
        · exact .inr (.inr ⟨Nat.le_of_lt hlt, hlt'⟩)

end Loop

theorem copyMerge_spec {n : Nat} {h : Heap} {base upper : Slot} (hbase : h.Bounded base)
    (hupper : h.Bounded upper) (hshallow : h.Shallow (n + 1) upper) :
    ∃ s h', copyMerge (n + 1) base upper h = .ok (s, h') ∧ Copied h base upper s h' := by
  by_cases hboth : ∃ b v, base = .ref b ∧ upper = .ref v
  · obtain ⟨b, v, rfl, rfl⟩ := hboth
    exact copyMerge_copies (n + 1) b v h hbase hupper hshallow
  · refine ⟨upper, h, ?_, .refl h, ?_, fun a ha => .inr (.inl ha)⟩
    · cases base with
      | value w => rfl
      | ref b =>
        cases upper with
        | value w => rfl
        | ref v => exact absurd ⟨b, v, rfl, rfl⟩ hboth
    · refine (merge_contents_other ?_).symm
      rintro ⟨b, v, hb, rfl⟩
      exact hboth ⟨b, v, Option.some.inj hb, rfl⟩

end Heap

end DomainRag
