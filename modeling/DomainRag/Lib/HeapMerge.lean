import DomainRag.Lib.DictHeap

/-! # Merging dictionaries in place

A merge writes into the dictionary it is given, and goes down into those it finds below it. A merge
of one tree into another that has no dictionary in common with it reads as a merge of their
contents, and changes no dictionary of the heap but those of the first tree which it comes to.
-/

namespace DomainRag

namespace Heap

def recursionError : Exc := ⟨"RecursionError", "maximum recursion depth exceeded"⟩

/-- One turn of the loop over the entries of an override. -/
def mergeEntry (merge : Nat → Nat → Heap → Except Exc Heap) (base : Nat) (h : Heap)
    (e : String × Slot) : Except Exc Heap :=
  match e.2, (h.cell base).get? e.1 with
  | .ref v, some (.ref b) => merge b v h
  | _, _ => .ok (h.setItem base e.1 e.2)

/-- Nested calls go as deep as the first argument allows. -/
def deepMerge : Nat → Nat → Nat → Heap → Except Exc Heap
  | 0, _, _, _ => .error recursionError
  | n + 1, base, upper, h => (h.cell upper).entries.foldlM (mergeEntry (deepMerge n) base) h

/-- A merge of the dictionary at one address into the one at another. -/
structure MergedInto (h : Heap) (base upper : Nat) (h' : Heap) : Prop where
  next : h'.next = h.next
  frame : ∀ a, ¬ h.Inside (.ref base) a → h'.cell a = h.cell a
  contents : h'.contents (some (.ref base)) =
    (h.contents (some (.ref base))).merge (h.contents (some (.ref upper)))
  unshared : h'.Unshared (.ref base)
  inside : ∀ a, h'.Inside (.ref base) a → h.Inside (.ref base) a ∨ h.Inside (.ref upper) a

/-- A dictionary into which the entries can be merged one by one. -/
structure Mergeable (n : Nat) (h : Heap) (base : Nat) (es : List (String × Slot)) : Prop where
  tree : h.Unshared (.ref base)
  keys : (es.map Prod.fst).Nodup
  entries : ∀ e ∈ es, h.Unshared e.2 ∧ h.Apart (.ref base) e.2 ∧ h.Shallow n e.2
  separate : ∀ e ∈ es, ∀ e' ∈ es, e.1 ≠ e'.1 → h.Apart e.2 e'.2

/-- Both the dictionary and the entries have a dictionary under the key. -/
def Meet (h : Heap) (base : Nat) (es : List (String × Slot)) (k : String) (c d : Nat) : Prop :=
  (h.cell base).get? k = some (.ref c) ∧ (k, Slot.ref d) ∈ es

/-- The entries have been merged, each by itself. -/
structure Merged (h : Heap) (base : Nat) (es : List (String × Slot)) (h' : Heap) : Prop where
  next : h'.next = h.next
  frame : ∀ a, a ≠ base → (∀ k c d, Meet h base es k c d → ¬ h.Inside (.ref c) a) →
    h'.cell a = h.cell a
  met : ∀ k c d, Meet h base es k c d → (h'.cell base).get? k = some (.ref c) ∧
    h'.contents (some (.ref c)) =
      (h.contents (some (.ref c))).merge (h.contents (some (.ref d))) ∧
    h'.Unshared (.ref c) ∧
    ∀ a, h'.Inside (.ref c) a → h.Inside (.ref c) a ∨ h.Inside (.ref d) a
  replaced : ∀ k s, (k, s) ∈ es → (∀ c d, ¬ Meet h base es k c d) →
    (h'.cell base).get? k = some s
  kept : ∀ k, k ∉ es.map Prod.fst → (h'.cell base).get? k = (h.cell base).get? k

/-- The dictionaries that stand under a key, of the dictionary or of the entries. -/
def Owned (h : Heap) (base : Nat) (es : List (String × Slot)) (k : String) (a : Nat) : Prop :=
  (∃ s, (h.cell base).get? k = some s ∧ h.Inside s a) ∨ ∃ s, (k, s) ∈ es ∧ h.Inside s a

section Entries

variable {n : Nat} {h h' : Heap} {base : Nat} {es : List (String × Slot)} {k : String} {s : Slot}

theorem Mergeable.owned_key (hm : Mergeable n h base es) {k' : String} {a : Nat}
    (hown : Owned h base es k a) (hown' : Owned h base es k' a) : k = k' := by
  obtain ⟨s, hs, ha⟩ | ⟨s, hs, ha⟩ := hown
  · obtain ⟨t, ht, ha'⟩ | ⟨t, ht, ha'⟩ := hown'
    · exact hm.tree.key_eq hs ht ha ha'
    · exact absurd ha' ((hm.entries _ ht).2.1 a (ha.child hs))
  · obtain ⟨t, ht, ha'⟩ | ⟨t, ht, ha'⟩ := hown'
    · exact absurd ha ((hm.entries _ hs).2.1 a (ha'.child ht))
    · by_contra hne
      exact hm.separate _ hs _ ht hne a ha ha'

theorem Mergeable.not_owned (hm : Mergeable n h base es) : ¬ Owned h base es k base := by
  rintro (⟨s, hs, ha⟩ | ⟨s, hs, ha⟩)
  · exact hm.tree.not_inside_child hs ha
  · exact (hm.entries _ hs).2.1 base (inside_self h base) ha

/-- What is owned under a key where no two dictionaries meet stays as it is. -/
theorem Merged.agree (h₁ : Merged h base es h') (hm : Mergeable n h base es)
    (hown : ∀ a, h.Inside s a → Owned h base es k a)
    (hapart : ∀ c d, Meet h base es k c d → ∀ a, h.Inside s a → ¬ h.Inside (.ref c) a) :
    Agree h h' s := by
  refine agree_of_cell fun a ha => h₁.frame a ?_ ?_
  · rintro rfl
    exact hm.not_owned (hown a ha)
  · intro k' c d hmeet hc
    obtain rfl := hm.owned_key (hown a ha) (.inl ⟨_, hmeet.1, hc⟩)
    exact hapart c d hmeet a ha hc

/-- What stood under a key before is still a tree, and has no more than belongs to the key. -/
theorem Merged.old (h₁ : Merged h base es h') (hm : Mergeable n h base es)
    (hs : (h.cell base).get? k = some s) :
    h'.Unshared s ∧ ∀ a, h'.Inside s a → Owned h base es k a := by
  by_cases hmeet : ∃ c d, Meet h base es k c d
  · obtain ⟨c, d, hmeet⟩ := hmeet
    obtain rfl := Option.some.inj (hs.symm.trans hmeet.1)
    obtain ⟨-, -, hunshared, hinside⟩ := h₁.met k c d hmeet
    refine ⟨hunshared, fun a ha => ?_⟩
    obtain ha | ha := hinside a ha
    · exact .inl ⟨_, hs, ha⟩
    · exact .inr ⟨_, hmeet.2, ha⟩
  · have hagree : Agree h h' s := h₁.agree hm (fun a ha => .inl ⟨s, hs, ha⟩)
      fun c d hcd => absurd ⟨c, d, hcd⟩ hmeet
    exact ⟨hagree.unshared (hm.tree.child hs), fun a ha => .inl ⟨s, hs, hagree.inside_iff.mp ha⟩⟩

theorem Merged.new (h₁ : Merged h base es h') (hm : Mergeable n h base es)
    (hs : (h'.cell base).get? k = some s) :
    h'.Unshared s ∧ ∀ a, h'.Inside s a → Owned h base es k a := by
  by_cases hkey : k ∈ es.map Prod.fst
  · obtain ⟨⟨k', t⟩, ht, rfl⟩ := List.mem_map.mp hkey
    by_cases hmeet : ∃ c d, Meet h base es k' c d
    · obtain ⟨c, d, hmeet⟩ := hmeet
      obtain rfl := Option.some.inj (hs.symm.trans (h₁.met k' c d hmeet).1)
      exact h₁.old hm hmeet.1
    · have hnone : ∀ c d, ¬ Meet h base es k' c d := fun c d hcd => hmeet ⟨c, d, hcd⟩
      obtain rfl := Option.some.inj (hs.symm.trans (h₁.replaced k' t ht hnone))
      have hagree : Agree h h' s := h₁.agree hm (fun a ha => .inr ⟨s, ht, ha⟩)
        fun c d hcd => absurd hcd (hnone c d)
      exact ⟨hagree.unshared (hm.entries _ ht).1,
        fun a ha => .inr ⟨s, ht, hagree.inside_iff.mp ha⟩⟩
  · rw [h₁.kept k hkey] at hs
    exact h₁.old hm hs

/-- A dictionary with the same keys as the one that was merged into before the merge, or the one
itself, is a tree afterwards. -/
theorem Merged.unshared_holder (h₁ : Merged h base es h') (hm : Mergeable n h base es) {a : Nat}
    (ha : ∀ k, ¬ Owned h base es k a)
    (hcell : ∀ k s, (h'.cell a).get? k = some s →
      (h.cell base).get? k = some s ∨ (h'.cell base).get? k = some s) :
    h'.Unshared (.ref a) := by
  refine unshared_of_children (fun k s hs => ?_) ha fun k k' x => hm.owned_key
  obtain hold | hnew := hcell k s hs
  · exact h₁.old hm hold
  · exact h₁.new hm hnew

theorem Merged.unshared (h₁ : Merged h base es h') (hm : Mergeable n h base es) :
    h'.Unshared (.ref base) :=
  h₁.unshared_holder hm (fun _ => hm.not_owned) fun _ _ hs => .inr hs

theorem Merged.inside (h₁ : Merged h base es h') (hm : Mergeable n h base es) {a : Nat}
    (ha : h'.Inside (.ref base) a) : h.Inside (.ref base) a ∨ ∃ e ∈ es, h.Inside e.2 a := by
  obtain rfl | ⟨k, s, hs, ha⟩ := inside_ref_iff.mp ha
  · exact .inl (inside_self h a)
  · obtain ⟨t, ht, ha⟩ | ⟨t, ht, ha⟩ := (h₁.new hm hs).2 a ha
    · exact .inl (ha.child ht)
    · exact .inr ⟨_, ht, ha⟩

theorem Merged.agree_old (h₁ : Merged h base es h') (hm : Mergeable n h base es)
    (hs : (h.cell base).get? k = some s) (hnone : ∀ c d, ¬ Meet h base es k c d) :
    Agree h h' s :=
  h₁.agree hm (fun _ ha => .inl ⟨s, hs, ha⟩) fun c d hcd => absurd hcd (hnone c d)

theorem Merged.contents_old (h₁ : Merged h base es h') (hm : Mergeable n h base es)
    (hnone : ∀ c d, ¬ Meet h base es k c d) :
    h'.contents ((h.cell base).get? k) = h.contents ((h.cell base).get? k) := by
  cases hs : (h.cell base).get? k with
  | none => rfl
  | some s => exact (h₁.agree_old hm hs hnone).contents

end Entries

section Contents

variable {n : Nat} {h h' : Heap} {base upper : Nat} {k : String}

theorem meet_iff {c d : Nat} : Meet h base (h.cell upper).entries k c d ↔
    (h.cell base).get? k = some (.ref c) ∧ (h.cell upper).get? k = some (.ref d) :=
  and_congr_right fun _ => Dict.get?_eq_some_iff.symm

/-- No two dictionaries meet under a key where one of the two has none. -/
theorem not_meet (hboth : ¬ (h.contents ((h.cell base).get? k) [] = some .dict ∧
    h.contents ((h.cell upper).get? k) [] = some .dict)) (c d : Nat) :
    ¬ Meet h base (h.cell upper).entries k c d := by
  intro hmeet
  obtain ⟨hc, hd⟩ := meet_iff.mp hmeet
  exact hboth ⟨contents_root_eq_dict_iff.mpr ⟨c, hc⟩, contents_root_eq_dict_iff.mpr ⟨d, hd⟩⟩

theorem Merged.contents_under (h₁ : Merged h base (h.cell upper).entries h')
    (hm : Mergeable n h base (h.cell upper).entries) (k : String) :
    h'.contents ((h'.cell base).get? k) =
      (h.contents ((h.cell base).get? k)).merge (h.contents ((h.cell upper).get? k)) := by
  by_cases hboth : h.contents ((h.cell base).get? k) [] = some .dict ∧
      h.contents ((h.cell upper).get? k) [] = some .dict
  · obtain ⟨c, hc⟩ := contents_root_eq_dict_iff.mp hboth.1
    obtain ⟨d, hd⟩ := contents_root_eq_dict_iff.mp hboth.2
    obtain ⟨hcell, hcontents, -, -⟩ := h₁.met k c d (meet_iff.mpr ⟨hc, hd⟩)
    rw [hcell, hcontents, hc, hd]
  · have hnone := not_meet hboth
    cases ht : (h.cell upper).get? k with
    | none =>
      rw [Contents.merge_absent rfl, h₁.kept k (Dict.get?_eq_none_iff.mp ht)]
      exact h₁.contents_old hm hnone
    | some t =>
      have hmem : (k, t) ∈ (h.cell upper).entries := Dict.get?_eq_some_iff.mp ht
      have hagree : Agree h h' t := h₁.agree hm (fun a ha => .inr ⟨t, hmem, ha⟩)
        fun c d hcd => absurd hcd (hnone c d)
      rw [h₁.replaced k t hmem hnone, hagree.contents, Contents.merge_other]
      · rw [contents_root]
        exact Option.some_ne_none _
      · intro hbase hdict
        exact hboth ⟨hbase, ht ▸ hdict⟩

theorem Merged.contents (h₁ : Merged h base (h.cell upper).entries h')
    (hm : Mergeable n h base (h.cell upper).entries) :
    h'.contents (some (.ref base)) =
      (h.contents (some (.ref base))).merge (h.contents (some (.ref upper))) := by
  funext path
  cases path with
  | nil => rfl
  | cons k ks => exact congrFun (h₁.contents_under hm k) ks

/-- A dictionary that has the keys of the one that was merged into as they were before. -/
theorem Merged.absorbed (h₁ : Merged h base (h.cell upper).entries h')
    (hm : Mergeable n h base (h.cell upper).entries) {a : Nat}
    (ha : ∀ k, (h'.cell a).get? k = (h.cell base).get? k) :
    h'.contents (some (.ref a)) =
      (h.contents (some (.ref base))).absorb (h.contents (some (.ref upper))) := by
  funext path
  cases path with
  | nil => rfl
  | cons k ks =>
    change h'.contents ((h'.cell a).get? k) ks = _
    rw [ha, Contents.absorb]
    split
    · rename_i hc hd
      obtain ⟨c, hc'⟩ := contents_root_eq_dict_iff.mp hc
      obtain ⟨d, hd'⟩ := contents_root_eq_dict_iff.mp hd
      obtain ⟨-, hcontents, -, -⟩ := h₁.met k c d (meet_iff.mpr ⟨hc', hd'⟩)
      rw [hc', hcontents, Heap.contents_under, Heap.contents_under, hc', hd']
    · rename_i hnot
      exact congrFun (h₁.contents_old hm (not_meet fun hboth => hnot hboth.1 hboth.2)) ks

end Contents

section Loop

variable {n : Nat} {h h₁ h' : Heap} {base : Nat} {e : String × Slot} {es : List (String × Slot)}

theorem Mergeable.head (hm : Mergeable n h base (e :: es)) : Mergeable n h base [e] where
  tree := hm.tree
  keys := List.nodup_singleton _
  entries e' he' := hm.entries e' (List.mem_singleton.mp he' ▸ List.mem_cons_self)
  separate e' he' e'' he'' hne := by
    rw [List.mem_singleton.mp he', List.mem_singleton.mp he''] at hne
    exact absurd rfl hne

theorem Mergeable.ne_of_mem (hm : Mergeable n h base (e :: es)) {e' : String × Slot}
    (he' : e' ∈ es) : e'.1 ≠ e.1 := by
  intro heq
  exact (List.nodup_cons.mp hm.keys).1 (heq ▸ List.mem_map_of_mem he')

theorem Merged.agree_rest (h₁' : Merged h base [e] h₁) (hm : Mergeable n h base (e :: es))
    {e' : String × Slot} (he' : e' ∈ es) : Agree h h₁ e'.2 := by
  have hmem : e' ∈ e :: es := List.mem_cons_of_mem e he'
  refine agree_of_cell fun a ha => h₁'.frame a ?_ ?_
  · rintro rfl
    exact (hm.entries e' hmem).2.1 a (inside_self h a) ha
  · intro k c d hmeet hc
    exact (hm.entries e' hmem).2.1 a (hc.child hmeet.1) ha

/-- The entries that are left can still be merged after one of them. -/
theorem Mergeable.tail (hm : Mergeable n h base (e :: es)) (h₁' : Merged h base [e] h₁) :
    Mergeable n h₁ base es where
  tree := h₁'.unshared hm.head
  keys := (List.nodup_cons.mp hm.keys).2
  entries e' he' := by
    have hagree := h₁'.agree_rest hm he'
    obtain ⟨hunshared, hapart, hshallow⟩ := hm.entries e' (List.mem_cons_of_mem e he')
    refine ⟨hagree.unshared hunshared, fun a ha ha' => ?_, hagree.shallow hshallow⟩
    rw [hagree.inside_iff] at ha'
    obtain ha | ⟨e'', he'', ha⟩ := h₁'.inside hm.head ha
    · exact hapart a ha ha'
    · rw [List.mem_singleton.mp he''] at ha
      exact hm.separate e List.mem_cons_self e' (List.mem_cons_of_mem e he')
        (Ne.symm (hm.ne_of_mem he')) a ha ha'
  separate e' he' e'' he'' hne a ha ha' := by
    rw [(h₁'.agree_rest hm he').inside_iff] at ha
    rw [(h₁'.agree_rest hm he'').inside_iff] at ha'
    exact hm.separate e' (List.mem_cons_of_mem e he') e'' (List.mem_cons_of_mem e he'') hne a ha ha'

/-- Under the keys that are left the dictionary is what it was. -/
theorem Merged.kept_rest (h₁' : Merged h base [e] h₁) {k : String} (hk : k ≠ e.1) :
    (h₁.cell base).get? k = (h.cell base).get? k :=
  h₁'.kept k fun hmem => hk (List.mem_singleton.mp hmem)

theorem not_meet_head {k : String} (hk : k ≠ e.1) (c d : Nat) :
    ¬ Meet h base [e] k c d := by
  intro hmeet
  exact hk (congrArg Prod.fst (List.mem_singleton.mp hmeet.2))

theorem Merged.meet_rest_iff (h₁' : Merged h base [e] h₁) {k : String} (hk : k ≠ e.1) {c d : Nat} :
    Meet h₁ base es k c d ↔ Meet h base (e :: es) k c d := by
  rw [Meet, Meet, h₁'.kept_rest hk]
  refine and_congr_right fun _ => ⟨List.mem_cons_of_mem e, fun hmem => ?_⟩
  obtain heq | hmem := List.mem_cons.mp hmem
  · exact absurd (congrArg Prod.fst heq) hk
  · exact hmem

theorem Meet.cons {k : String} {c d : Nat} (hmeet : Meet h base [e] k c d) :
    Meet h base (e :: es) k c d :=
  ⟨hmeet.1, List.mem_singleton.mp hmeet.2 ▸ List.mem_cons_self⟩

theorem Merged.cons (hm : Mergeable n h base (e :: es)) (h₁' : Merged h base [e] h₁)
    (h₂ : Merged h₁ base es h') : Merged h base (e :: es) h' := by
  have hm₁ := hm.tail h₁'
  have hhead : e.1 ∉ es.map Prod.fst := (List.nodup_cons.mp hm.keys).1
  have hrest : ∀ k, k ∈ es.map Prod.fst → k ≠ e.1 := fun k hk heq => hhead (heq ▸ hk)
  have hold : ∀ k c d, k ≠ e.1 → Meet h base (e :: es) k c d → Agree h h₁ (.ref c) :=
    fun k c d hk hmeet => h₁'.agree_old hm.head hmeet.1 (not_meet_head hk)
  refine ⟨h₂.next.trans h₁'.next, ?_, ?_, ?_, ?_⟩
  · intro a hne hnot
    rw [h₂.frame a hne, h₁'.frame a hne fun k c d hmeet => hnot k c d hmeet.cons]
    intro k c d hmeet
    have hk : k ≠ e.1 := hrest k (List.mem_map_of_mem hmeet.2)
    have hmeet' := (h₁'.meet_rest_iff hk).mp hmeet
    rw [(hold k c d hk hmeet').inside_iff]
    exact hnot k c d hmeet'
  · intro k c d hmeet
    by_cases hk : k = e.1
    · -- The head is merged first, and the rest leaves it alone.
      subst hk
      have hmem : (e.1, Slot.ref d) = e := by
        obtain heq | hmem := List.mem_cons.mp hmeet.2
        · exact heq
        · exact absurd (List.mem_map_of_mem hmem) hhead
      obtain ⟨hcell, hcontents, hunshared, hinside⟩ :=
        h₁'.met e.1 c d ⟨hmeet.1, List.mem_singleton.mpr hmem⟩
      have hnone : ∀ c' d', ¬ Meet h₁ base es e.1 c' d' :=
        fun c' d' hmeet' => hhead (List.mem_map.mpr ⟨_, hmeet'.2, rfl⟩)
      have hagree : Agree h₁ h' (.ref c) := h₂.agree_old hm₁ hcell hnone
      refine ⟨(h₂.kept e.1 hhead).trans hcell, hagree.contents.trans hcontents,
        hagree.unshared hunshared, fun a ha => hinside a (hagree.inside_iff.mp ha)⟩
    · obtain ⟨hcell, hcontents, hunshared, hinside⟩ :=
        h₂.met k c d ((h₁'.meet_rest_iff hk).mpr hmeet)
      have hmem : (k, Slot.ref d) ∈ es := ((h₁'.meet_rest_iff hk).mpr hmeet).2
      have hc := hold k c d hk hmeet
      have hd : Agree h h₁ (.ref d) := h₁'.agree_rest hm hmem
      rw [hc.contents, hd.contents] at hcontents
      refine ⟨hcell, hcontents, hunshared, fun a ha => ?_⟩
      exact (hinside a ha).imp hc.inside_iff.mp hd.inside_iff.mp
  · intro k s hmem hnone
    obtain heq | hmem := List.mem_cons.mp hmem
    · subst heq
      rw [h₂.kept k hhead]
      exact h₁'.replaced k s (List.mem_singleton_self _) fun c d hmeet => hnone c d hmeet.cons
    · have hk : k ≠ e.1 := hrest k (List.mem_map_of_mem hmem)
      exact h₂.replaced k s hmem fun c d hmeet => hnone c d ((h₁'.meet_rest_iff hk).mp hmeet)
  · intro k hk
    rw [List.map_cons, List.mem_cons, not_or] at hk
    rw [h₂.kept k hk.2, h₁'.kept_rest hk.1]

theorem Merged.of_setItem {k : String} {s : Slot} (hnone : ∀ c d, ¬ Meet h base [(k, s)] k c d) :
    Merged h base [(k, s)] (h.setItem base k s) where
  next := rfl
  frame _ hne _ := cell_setItem_of_ne hne
  met k' c d hmeet := by
    obtain ⟨hk, -⟩ := Prod.mk.inj (List.mem_singleton.mp hmeet.2)
    exact absurd (hk ▸ hmeet) (hnone c d)
  replaced k' s' hmem _ := by
    obtain ⟨rfl, rfl⟩ := Prod.mk.inj (List.mem_singleton.mp hmem)
    rw [cell_setItem_self, Dict.get?_set, if_pos rfl]
  kept k' hk' := by
    have hne : k' ≠ k := fun heq => hk' (List.mem_singleton.mpr heq)
    rw [cell_setItem_self, Dict.get?_set, if_neg hne]

theorem Merged.of_into {k : String} {c d : Nat} (hm : Mergeable n h base [(k, .ref d)])
    (hc : (h.cell base).get? k = some (.ref c)) (h₁' : MergedInto h c d h₁) :
    Merged h base [(k, .ref d)] h₁ := by
  have hbase : h₁.cell base = h.cell base := h₁'.frame base (hm.tree.not_inside_child hc)
  have hmeet : Meet h base [(k, .ref d)] k c d := ⟨hc, List.mem_singleton_self _⟩
  refine ⟨h₁'.next, fun a _ hnot => h₁'.frame a (hnot k c d hmeet), ?_, ?_, ?_⟩
  · intro k' c' d' hmeet'
    obtain ⟨rfl, heq⟩ := Prod.mk.inj (List.mem_singleton.mp hmeet'.2)
    cases heq
    obtain rfl := Slot.ref.inj (Option.some.inj (hc.symm.trans hmeet'.1))
    exact ⟨(congrArg (fun cell => Dict.get? cell k') hbase).trans hc, h₁'.contents, h₁'.unshared,
      h₁'.inside⟩
  · intro k' s' hmem hnone
    obtain ⟨rfl, rfl⟩ := Prod.mk.inj (List.mem_singleton.mp hmem)
    exact absurd hmeet (hnone c d)
  · intro k' _
    rw [hbase]

/-- The assertion about a nested call on which one turn of the loop relies. -/
def Merges (n : Nat) (merge : Nat → Nat → Heap → Except Exc Heap) : Prop :=
  ∀ base upper h, h.Unshared (.ref base) → h.Unshared (.ref upper) →
    h.Apart (.ref base) (.ref upper) → h.Shallow n (.ref upper) →
      ∃ h', merge base upper h = .ok h' ∧ MergedInto h base upper h'

theorem mergeEntry_spec {merge : Nat → Nat → Heap → Except Exc Heap} (hmerge : Merges n merge)
    (hm : Mergeable n h base [e]) :
    ∃ h₁, mergeEntry merge base h e = .ok h₁ ∧ Merged h base [e] h₁ := by
  obtain ⟨k, s⟩ := e
  by_cases hboth : ∃ c d, Meet h base [(k, s)] k c d
  · obtain ⟨c, d, hc, hd⟩ := hboth
    obtain rfl := (Prod.mk.inj (List.mem_singleton.mp hd)).2
    obtain ⟨hunshared, hapart, hshallow⟩ := hm.entries _ (List.mem_singleton_self _)
    obtain ⟨h₁, hrun, hinto⟩ := hmerge c d h (hm.tree.child hc) hunshared
      (fun a ha => hapart a (ha.child hc)) hshallow
    refine ⟨h₁, ?_, .of_into hm hc hinto⟩
    simpa only [mergeEntry, hc] using hrun
  · refine ⟨h.setItem base k s, ?_, .of_setItem fun c d hmeet => hboth ⟨c, d, hmeet⟩⟩
    rw [mergeEntry]
    split
    · rename_i d c hd hc
      exact absurd ⟨c, d, hc, hd ▸ List.mem_singleton_self _⟩ hboth
    · rfl

theorem Merged.nil (h : Heap) (base : Nat) : Merged h base [] h where
  next := rfl
  frame _ _ _ := rfl
  met _ _ _ hmeet := absurd hmeet.2 List.not_mem_nil
  replaced _ _ hmem := absurd hmem List.not_mem_nil
  kept _ _ := rfl

theorem foldlM_mergeEntry_spec {merge : Nat → Nat → Heap → Except Exc Heap}
    (hmerge : Merges n merge) (hm : Mergeable n h base es) :
    ∃ h', es.foldlM (mergeEntry merge base) h = .ok h' ∧ Merged h base es h' := by
  induction es generalizing h with
  | nil => exact ⟨h, rfl, .nil h base⟩
  | cons e es ih =>
    obtain ⟨h₁, hrun, h₁'⟩ := mergeEntry_spec hmerge hm.head
    obtain ⟨h', hrest, h₂⟩ := ih (hm.tail h₁')
    refine ⟨h', ?_, h₁'.cons hm h₂⟩
    rw [List.foldlM_cons, hrun]
    exact hrest

theorem mergeable_of_unshared {upper : Nat} (hbase : h.Unshared (.ref base))
    (hupper : h.Unshared (.ref upper)) (hapart : h.Apart (.ref base) (.ref upper))
    (hshallow : h.Shallow (n + 1) (.ref upper)) : Mergeable n h base (h.cell upper).entries where
  tree := hbase
  keys := (h.cell upper).nodup
  entries e he := by
    have hget : (h.cell upper).get? e.1 = some e.2 := Dict.get?_eq_some_iff.mpr he
    exact ⟨hupper.child hget, fun a ha ha' => hapart a ha (ha'.child hget), hshallow.child hget⟩
  separate e he e' he' hne a ha ha' :=
    hne (hupper.key_eq (Dict.get?_eq_some_iff.mpr he) (Dict.get?_eq_some_iff.mpr he') ha ha')

/-- The merge of a tree into another that has nothing in common with it. -/
theorem deepMerge_merges (n : Nat) : Merges n (deepMerge n) := by
  induction n with
  | zero =>
    intro base upper h _ _ _ hshallow
    exact absurd (hshallow [] upper rfl) (Nat.not_lt_zero _)
  | succ n ih =>
    intro base upper h hbase hupper hapart hshallow
    have hm := mergeable_of_unshared hbase hupper hapart hshallow
    obtain ⟨h', hrun, h₁⟩ := foldlM_mergeEntry_spec ih hm
    refine ⟨h', hrun, h₁.next, fun a ha => ?_, h₁.contents hm, h₁.unshared hm, fun a ha => ?_⟩
    · refine h₁.frame a (fun heq => ha (heq ▸ inside_self h base)) fun k c d hmeet hc => ?_
      exact ha (hc.child hmeet.1)
    · obtain ha | ⟨e, he, ha⟩ := h₁.inside hm ha
      · exact .inl ha
      · exact .inr (ha.child (Dict.get?_eq_some_iff.mpr he))

/-- As many nested calls as there are dictionaries are enough. -/
theorem deepMerge_next {upper : Nat} (hbase : h.Tree base) (hupper : h.Tree upper)
    (hapart : h.Apart (.ref base) (.ref upper)) :
    ∃ h' n, h.deepMerge h.next base upper = .ok h' ∧ Mergeable n h base (h.cell upper).entries ∧
      Merged h base (h.cell upper).entries h' := by
  have hshallow := shallow_of_unshared hupper.unshared hupper.bounded
  cases hnext : h.next with
  | zero => exact absurd (hupper.bounded upper (inside_self h upper)) (by rw [hnext]; omega)
  | succ n =>
    rw [hnext] at hshallow
    have hm := mergeable_of_unshared hbase.unshared hupper.unshared hapart hshallow
    obtain ⟨h', hrun, h₁⟩ := foldlM_mergeEntry_spec (deepMerge_merges n) hm
    exact ⟨h', n, hrun, hm, h₁⟩

end Loop

end Heap

end DomainRag
