import DomainRag.Lib.Contents
import DomainRag.Lib.Dict
import Mathlib.Data.Finset.Card
import Mathlib.Logic.Function.Basic

/-! # Dictionaries shared by reference

Dictionaries live at addresses and hold values and references to each other. Whoever refers to a
dictionary sees what is written into it. A tree is a dictionary below which no dictionary is met on
two paths; a value is stored as one.
-/

namespace DomainRag

inductive Slot where
  | value (v : Value)
  | ref (a : Nat)

def Slot.view : Slot → View
  | .value v => .other v
  | .ref _ => .dict

structure Heap where
  next : Nat
  cell : Nat → Dict String Slot

namespace Heap

def empty : Heap := ⟨0, fun _ => .empty⟩

def push (h : Heap) (d : Dict String Slot) : Heap :=
  ⟨h.next + 1, Function.update h.cell h.next d⟩

def setItem (h : Heap) (a : Nat) (k : String) (s : Slot) : Heap :=
  { h with cell := Function.update h.cell a ((h.cell a).set k s) }

mutual

/-- A value with a dictionary of its own for each dictionary in it. -/
def store : Value → Heap → Slot × Heap
  | .dict kvs, h =>
    let (d, h') := storeEntries kvs .empty h
    (.ref h'.next, h'.push d)
  | v, h => (.value v, h)

def storeEntries : List (String × Value) → Dict String Slot → Heap → Dict String Slot × Heap
  | [], d, h => (d, h)
  | (k, v) :: rest, d, h =>
    let (s, h') := store v h
    storeEntries rest (d.set k s) h'

end

def storeDict (kvs : List (String × Value)) (h : Heap) : Nat × Heap :=
  let (d, h') := storeEntries kvs .empty h
  (h'.next, h'.push d)

/-- What is met at the end of a path. -/
def at? (h : Heap) : Slot → List String → Option Slot
  | s, [] => some s
  | .ref a, k :: ks => ((h.cell a).get? k).bind fun s => h.at? s ks
  | .value _, _ :: _ => none

def contents (h : Heap) (o : Option Slot) : Contents :=
  fun path => (o.bind fun s => h.at? s path).map Slot.view

/-- The dictionary at the address is the slot's or lies below it. -/
def Inside (h : Heap) (s : Slot) (a : Nat) : Prop := ∃ path, h.at? s path = some (.ref a)

/-- No dictionary is met on two paths. -/
def Unshared (h : Heap) (s : Slot) : Prop :=
  ∀ p q a, h.at? s p = some (.ref a) → h.at? s q = some (.ref a) → p = q

def Apart (h : Heap) (s t : Slot) : Prop := ∀ a, h.Inside s a → ¬ h.Inside t a

/-- Every dictionary lies on fewer than `n` keys. -/
def Shallow (h : Heap) (n : Nat) (s : Slot) : Prop :=
  ∀ path a, h.at? s path = some (.ref a) → path.length < n

section Paths

variable {h h' : Heap} {s t : Slot} {a b x : Nat} {k : String}

theorem cell_setItem_self : (h.setItem a k s).cell a = (h.cell a).set k s :=
  Function.update_self _ _ _

theorem cell_setItem_of_ne (hne : x ≠ a) : (h.setItem a k s).cell x = h.cell x :=
  Function.update_of_ne hne _ _

theorem cell_push_self {d : Dict String Slot} : (h.push d).cell h.next = d :=
  Function.update_self _ _ _

theorem cell_push_of_ne {d : Dict String Slot} (hne : x ≠ h.next) :
    (h.push d).cell x = h.cell x := Function.update_of_ne hne _ _

theorem at?_ref_cons {ks : List String} (hs : (h.cell a).get? k = some s) :
    h.at? (.ref a) (k :: ks) = h.at? s ks := by
  rw [at?, hs, Option.bind_some]

theorem contents_root : h.contents (some s) [] = some s.view := by
  cases s <;> rfl

theorem contents_root_eq_dict_iff {o : Option Slot} :
    h.contents o [] = some .dict ↔ ∃ a, o = some (.ref a) := by
  cases o with
  | none => exact ⟨nofun, nofun⟩
  | some s =>
    cases s with
    | value v => exact ⟨nofun, nofun⟩
    | ref a => exact ⟨fun _ => ⟨a, rfl⟩, fun _ => rfl⟩

theorem contents_under (h : Heap) (a : Nat) (k : String) :
    (h.contents (some (.ref a))).under k = h.contents ((h.cell a).get? k) := rfl

theorem inside_self (h : Heap) (a : Nat) : h.Inside (.ref a) a := ⟨[], rfl⟩

theorem not_inside_value (v : Value) : ¬ h.Inside (.value v) a := by
  rintro ⟨path, hpath⟩
  cases path with
  | nil => cases hpath
  | cons k ks => cases hpath

theorem Inside.child (hx : h.Inside s x) (hs : (h.cell a).get? k = some s) :
    h.Inside (.ref a) x := by
  obtain ⟨path, hpath⟩ := hx
  exact ⟨k :: path, (at?_ref_cons hs).trans hpath⟩

theorem inside_ref_iff : h.Inside (.ref a) x ↔
    x = a ∨ ∃ k s, (h.cell a).get? k = some s ∧ h.Inside s x := by
  constructor
  · rintro ⟨path, hpath⟩
    cases path with
    | nil =>
      cases hpath
      exact .inl rfl
    | cons k ks =>
      rw [at?, Option.bind_eq_some_iff] at hpath
      obtain ⟨s, hs, hks⟩ := hpath
      exact .inr ⟨k, s, hs, ks, hks⟩
  · rintro (rfl | ⟨k, s, hs, hx⟩)
    · exact inside_self h x
    · exact hx.child hs

/-- The heaps have the same dictionaries inside a slot. -/
def Agree (h h' : Heap) (s : Slot) : Prop := ∀ path, h'.at? s path = h.at? s path

theorem agree_of_cell (hcell : ∀ a, h.Inside s a → h'.cell a = h.cell a) : Agree h h' s := by
  intro path
  induction path generalizing s with
  | nil => rw [at?, at?]
  | cons k ks ih =>
    cases s with
    | value v => rfl
    | ref a =>
      rw [at?, at?, hcell a (inside_self h a)]
      cases hs : (h.cell a).get? k with
      | none => rfl
      | some t => exact ih fun x hx => hcell x (hx.child hs)

theorem Agree.contents (hs : Agree h h' s) : h'.contents (some s) = h.contents (some s) :=
  funext fun path => congrArg (Option.map Slot.view) (hs path)

theorem Agree.inside_iff (hs : Agree h h' s) : h'.Inside s x ↔ h.Inside s x :=
  exists_congr fun path => by rw [hs path]

theorem Agree.unshared (hs : Agree h h' s) (hu : h.Unshared s) : h'.Unshared s := by
  intro p q a hp hq
  exact hu p q a ((hs p).symm.trans hp) ((hs q).symm.trans hq)

theorem Agree.shallow {n : Nat} (hs : Agree h h' s) (hn : h.Shallow n s) : h'.Shallow n s :=
  fun path a hpath => hn path a ((hs path).symm.trans hpath)

theorem unshared_value (v : Value) : h.Unshared (.value v) :=
  fun p _ _ hp _ => absurd ⟨p, hp⟩ (not_inside_value v)

theorem Unshared.child (hu : h.Unshared (.ref a)) (hs : (h.cell a).get? k = some s) :
    h.Unshared s := by
  intro p q x hp hq
  exact (List.cons.inj (hu (k :: p) (k :: q) x ((at?_ref_cons hs).trans hp)
    ((at?_ref_cons hs).trans hq))).2

theorem Unshared.not_inside_child (hu : h.Unshared (.ref a)) (hs : (h.cell a).get? k = some s) :
    ¬ h.Inside s a := by
  rintro ⟨path, hpath⟩
  cases hu [] (k :: path) a rfl ((at?_ref_cons hs).trans hpath)

theorem Unshared.key_eq {k' : String} (hu : h.Unshared (.ref a))
    (hs : (h.cell a).get? k = some s) (ht : (h.cell a).get? k' = some t) (hxs : h.Inside s x)
    (hxt : h.Inside t x) : k = k' := by
  obtain ⟨p, hp⟩ := hxs
  obtain ⟨q, hq⟩ := hxt
  exact (List.cons.inj (hu (k :: p) (k' :: q) x ((at?_ref_cons hs).trans hp)
    ((at?_ref_cons ht).trans hq))).1

/-- A dictionary is a tree if trees that have nothing in common stand under its keys. -/
theorem unshared_of_children {owned : String → Nat → Prop}
    (hchild : ∀ k s, (h.cell a).get? k = some s → h.Unshared s ∧ ∀ x, h.Inside s x → owned k x)
    (hself : ∀ k, ¬ owned k a) (hkey : ∀ k k' x, owned k x → owned k' x → k = k') :
    h.Unshared (.ref a) := by
  have hbelow : ∀ k ks x, h.at? (.ref a) (k :: ks) = some (.ref x) →
      ∃ s, (h.cell a).get? k = some s ∧ h.at? s ks = some (.ref x) ∧ owned k x := by
    intro k ks x hpath
    rw [at?, Option.bind_eq_some_iff] at hpath
    obtain ⟨s, hs, hks⟩ := hpath
    exact ⟨s, hs, hks, (hchild k s hs).2 x ⟨ks, hks⟩⟩
  intro p q x hp hq
  cases p with
  | nil =>
    cases hp
    cases q with
    | nil => rfl
    | cons k ks =>
      obtain ⟨-, -, -, hown⟩ := hbelow k ks a hq
      exact absurd hown (hself k)
  | cons k ks =>
    obtain ⟨s, hs, hks, hown⟩ := hbelow k ks x hp
    cases q with
    | nil =>
      cases hq
      exact absurd hown (hself k)
    | cons k' ks' =>
      obtain ⟨s', hs', hks', hown'⟩ := hbelow k' ks' x hq
      obtain rfl := hkey k k' x hown hown'
      rw [hs] at hs'
      cases hs'
      rw [(hchild k s hs).1 ks ks' x hks hks']

theorem Apart.symm (hst : h.Apart s t) : h.Apart t s := fun a ht hs => hst a hs ht

theorem Shallow.child {n : Nat} (hn : h.Shallow (n + 1) (.ref a))
    (hs : (h.cell a).get? k = some s) : h.Shallow n s := by
  intro path x hpath
  exact Nat.lt_of_succ_lt_succ (hn (k :: path) x ((at?_ref_cons hs).trans hpath))

/-- A tree is no deeper than it has dictionaries. -/
theorem shallow_of_subset {F : Finset Nat} (hu : h.Unshared s) (hF : ∀ a, h.Inside s a → a ∈ F) :
    h.Shallow F.card s := by
  intro path x hpath
  induction path generalizing s F with
  | nil => exact Finset.card_pos.mpr ⟨x, hF x ⟨[], hpath⟩⟩
  | cons k ks ih =>
    cases s with
    | value v => cases hpath
    | ref a =>
      rw [at?, Option.bind_eq_some_iff] at hpath
      obtain ⟨t, ht, hks⟩ := hpath
      have ha : a ∈ F := hF a (inside_self h a)
      have hlt : ks.length < (F.erase a).card := by
        refine ih (hu.child ht) (fun b hb => Finset.mem_erase.mpr ⟨?_, hF b (hb.child ht)⟩) hks
        rintro rfl
        exact hu.not_inside_child ht hb
      rw [Finset.card_erase_of_mem ha] at hlt
      exact Nat.add_lt_of_lt_sub hlt

theorem shallow_of_unshared (hu : h.Unshared s) (hs : ∀ a, h.Inside s a → a < h.next) :
    h.Shallow h.next s := by
  have hcard : h.Shallow (Finset.range h.next).card s :=
    shallow_of_subset hu fun a ha => Finset.mem_range.mpr (hs a ha)
  rwa [Finset.card_range] at hcard

/-- A dictionary of the heap that is a tree. -/
structure Tree (h : Heap) (a : Nat) : Prop where
  unshared : h.Unshared (.ref a)
  bounded : ∀ x, h.Inside (.ref a) x → x < h.next

section Twin

variable (hcell : ∀ k, (h.cell b).get? k = (h.cell a).get? k)

include hcell

/-- Two dictionaries with the same keys and what stands under them. -/
theorem contents_twin : h.contents (some (.ref b)) = h.contents (some (.ref a)) := by
  funext path
  cases path with
  | nil => rfl
  | cons k ks =>
    change h.contents ((h.cell b).get? k) ks = _
    rw [hcell]
    rfl

theorem inside_twin (hx : h.Inside (.ref b) x) : x = b ∨ (h.Inside (.ref a) x) := by
  obtain rfl | ⟨k, s, hs, hx⟩ := inside_ref_iff.mp hx
  · exact .inl rfl
  · exact .inr (hx.child ((hcell k).symm.trans hs))

theorem unshared_twin (hu : h.Unshared (.ref a)) (hb : ¬ h.Inside (.ref a) b) :
    h.Unshared (.ref b) := by
  refine @unshared_of_children h b (fun k x => ∃ s, (h.cell a).get? k = some s ∧ h.Inside s x) ?_ ?_
    ?_
  · intro k s hs
    rw [hcell] at hs
    exact ⟨hu.child hs, fun x hx => ⟨s, hs, hx⟩⟩
  · rintro k ⟨s, hs, hx⟩
    exact hb (hx.child hs)
  · rintro k k' x ⟨s, hs, hx⟩ ⟨t, ht, hx'⟩
    exact hu.key_eq hs ht hx hx'

end Twin

end Paths

section Store

/-- A value is stored at a slot: what was in the heap before is as it was, and the slot has only new
dictionaries, each on one path. -/
structure Stored (h : Heap) (v : Option Value) (o : Option Slot) (h' : Heap) : Prop where
  contents : h'.contents o = Value.contents v
  unshared : ∀ s, o = some s → h'.Unshared s
  fresh : ∀ s, o = some s → ∀ a, h'.Inside s a → h.next ≤ a ∧ a < h'.next

/-- A heap that has grown. -/
structure Grown (h h' : Heap) : Prop where
  next : h.next ≤ h'.next
  frame : ∀ a, a < h.next → h'.cell a = h.cell a

variable {h h₁ h' : Heap} {v : Option Value} {o : Option Slot} {s : Slot}

theorem Grown.refl (h : Heap) : Grown h h := ⟨Nat.le_refl _, fun _ _ => rfl⟩

theorem Grown.trans (hg : Grown h h₁) (hg' : Grown h₁ h') : Grown h h' where
  next := Nat.le_trans hg.next hg'.next
  frame a ha := (hg'.frame a (Nat.lt_of_lt_of_le ha hg.next)).trans (hg.frame a ha)

theorem grown_push (h : Heap) (d : Dict String Slot) : Grown h (h.push d) where
  next := Nat.le_succ _
  frame _ ha := cell_push_of_ne (Nat.ne_of_lt ha)

theorem eq_of_inside_push (h : Heap) {a : Nat}
    (ha : (h.push .empty).Inside (.ref h.next) a) : a = h.next := by
  obtain rfl | ⟨k, s, hs, -⟩ := inside_ref_iff.mp ha
  · rfl
  · rw [cell_push_self] at hs
    cases hs

/-- A new dictionary without entries is a tree of its own. -/
theorem tree_push (h : Heap) : (h.push .empty).Tree h.next := by
  refine ⟨@unshared_of_children _ _ (fun _ _ => False) ?_ (fun _ => id) ?_, ?_⟩
  · intro k s hs
    rw [cell_push_self] at hs
    cases hs
  · exact fun _ _ _ hown => hown.elim
  · intro a ha
    rw [eq_of_inside_push h ha]
    exact Nat.lt_succ_self _

theorem Grown.agree (hg : Grown h h') (hs : ∀ a, h.Inside s a → a < h.next) : Agree h h' s :=
  agree_of_cell fun a ha => hg.frame a (hs a ha)

theorem Stored.mono (hst : Stored h₁ v o h') (hg : Grown h h₁) : Stored h v o h' where
  contents := hst.contents
  unshared := hst.unshared
  fresh s hs a ha := (hst.fresh s hs a ha).imp_left (Nat.le_trans hg.next)

theorem Stored.grown (hst : Stored h v o h₁) (hg : Grown h₁ h') : Stored h v o h' := by
  cases o with
  | none => exact ⟨hst.contents, nofun, nofun⟩
  | some s =>
    have hagree : Agree h₁ h' s := hg.agree fun a ha => (hst.fresh s rfl a ha).2
    refine ⟨hagree.contents.trans hst.contents, ?_, ?_⟩
    · rintro _ ⟨⟩
      exact hagree.unshared (hst.unshared s rfl)
    · rintro _ ⟨⟩ a ha
      exact (hst.fresh s rfl a (hagree.inside_iff.mp ha)).imp_right
        (Nat.lt_of_lt_of_le · hg.next)

theorem stored_other {w : Value} (hw : w.isDict = false) (h : Heap) :
    Stored h (some w) (some (.value w)) h where
  contents := by
    funext path
    cases path with
    | nil =>
      cases w with
      | dict kvs => cases hw
      | null | bool | int | float | str | list => rfl
    | cons k ks =>
      cases w with
      | dict kvs => cases hw
      | null | bool | int | float | str | list => exact (Value.contents_none ks).symm
  unshared := by
    rintro _ ⟨⟩
    exact unshared_value w
  fresh := by
    rintro _ ⟨⟩ a ha
    exact absurd ha (not_inside_value w)

/-- The entries are stored, those under two keys apart from each other. -/
structure StoredEntries (h : Heap) (kvs : List (String × Value)) (d : Dict String Slot) (h' : Heap) :
    Prop where
  stored : ∀ k, Stored h (kvs.lookup k) (d.get? k) h'
  apart : ∀ k k' s s', k ≠ k' → d.get? k = some s → d.get? k' = some s' → h'.Apart s s'

theorem storedEntries_nil (h : Heap) : StoredEntries h [] .empty h where
  stored _ := ⟨funext fun path => (Value.contents_none path).symm, nofun, nofun⟩
  apart _ _ _ _ _ hs := nomatch hs

theorem StoredEntries.append {front : List (String × Value)} {d : Dict String Slot} {k : String}
    {w : Value} (hst : StoredEntries h front d h₁) (hk : k ∉ front.map Prod.fst)
    (hgrown : Grown h h₁) (hg : Grown h₁ h') (hs : Stored h₁ (some w) (some s) h') :
    StoredEntries h (front ++ [(k, w)]) (d.set k s) h' := by
  have hagree : ∀ k' s', d.get? k' = some s' → Agree h₁ h' s' :=
    fun k' s' hs' => hg.agree fun a ha => ((hst.stored k').fresh s' hs' a ha).2
  -- The new dictionaries lie behind all those of the entries before.
  have hbehind : ∀ k' s', d.get? k' = some s' → h'.Apart s' s := by
    intro k' s' hs' a ha ha'
    rw [(hagree k' s' hs').inside_iff] at ha
    exact absurd ((hst.stored k').fresh s' hs' a ha).2 (Nat.not_lt.mpr (hs.fresh s rfl a ha').1)
  constructor
  · intro k'
    rw [Dict.get?_set, List.lookup_append]
    by_cases hk' : k' = k
    · subst hk'
      rw [if_pos rfl, Value.lookup_eq_none_of_notMem hk, Option.none_or, List.lookup_cons_self]
      exact hs.mono hgrown
    · rw [if_neg hk', Value.lookup_cons_ne hk', List.lookup_nil, Option.or_none]
      exact (hst.stored k').grown hg
  · intro k₁ k₂ s₁ s₂ hne hs₁ hs₂
    rw [Dict.get?_set] at hs₁ hs₂
    split at hs₁
    · rename_i hk₁
      cases hs₁
      rw [if_neg fun hk₂ => hne (hk₁.trans hk₂.symm)] at hs₂
      exact (hbehind k₂ s₂ hs₂).symm
    · split at hs₂
      · cases hs₂
        exact hbehind k₁ s₁ hs₁
      · intro a ha ha'
        rw [(hagree k₁ s₁ hs₁).inside_iff] at ha
        rw [(hagree k₂ s₂ hs₂).inside_iff] at ha'
        exact hst.apart k₁ k₂ s₁ s₂ hne hs₁ hs₂ a ha ha'

/-- A dictionary over stored entries. -/
theorem StoredEntries.push {kvs : List (String × Value)} {d : Dict String Slot}
    (hst : StoredEntries h kvs d h') (hnext : h.next ≤ h'.next) :
    Stored h (some (.dict kvs)) (some (.ref h'.next)) (h'.push d) := by
  have hentry : ∀ k, Stored h (kvs.lookup k) (d.get? k) (h'.push d) :=
    fun k => (hst.stored k).grown (grown_push h' d)
  have hagree : ∀ k s, d.get? k = some s → Agree h' (h'.push d) s :=
    fun k s hs => (grown_push h' d).agree fun a ha => ((hst.stored k).fresh s hs a ha).2
  refine ⟨?_, ?_, ?_⟩
  · funext path
    cases path with
    | nil => rfl
    | cons k ks =>
      change (h'.push d).contents (((h'.push d).cell h'.next).get? k) ks = _
      rw [cell_push_self, (hentry k).contents]
      rfl
  · rintro _ ⟨⟩
    refine @unshared_of_children (h'.push d) h'.next
      (fun k a => ∃ s, d.get? k = some s ∧ (h'.push d).Inside s a) ?_ ?_ ?_
    · intro k s hs
      rw [cell_push_self] at hs
      exact ⟨(hentry k).unshared s hs, fun a ha => ⟨s, hs, ha⟩⟩
    · rintro k ⟨s, hs, ha⟩
      rw [(hagree k s hs).inside_iff] at ha
      exact Nat.lt_irrefl _ ((hst.stored k).fresh s hs _ ha).2
    · rintro k k' a ⟨s, hs, ha⟩ ⟨s', hs', ha'⟩
      rw [(hagree k s hs).inside_iff] at ha
      rw [(hagree k' s' hs').inside_iff] at ha'
      by_contra hne
      exact hst.apart k k' s s' hne hs hs' a ha ha'
  · rintro _ ⟨⟩ a ha
    obtain rfl | ⟨k, s, hs, ha⟩ := inside_ref_iff.mp ha
    · exact ⟨hnext, Nat.lt_succ_self _⟩
    · rw [cell_push_self] at hs
      exact (hentry k).fresh s hs a ha

theorem store_spec {w : Value} (hw : w.Distinct) (h : Heap) :
    Grown h (store w h).2 ∧ Stored h (some w) (some (store w h).1) (store w h).2 := by
  induction hw generalizing h with
  | @dict kvs keys values ih =>
    -- The entries that are left are stored beside those that are stored already.
    have hentries : ∀ rest front d h₁, kvs = front ++ rest → Grown h h₁ →
        StoredEntries h front d h₁ →
          Grown h (storeEntries rest d h₁).2 ∧
            StoredEntries h kvs (storeEntries rest d h₁).1 (storeEntries rest d h₁).2 := by
      intro rest
      induction rest with
      | nil =>
        intro front d h₁ hkvs hg hst
        rw [hkvs, List.append_nil]
        exact ⟨hg, hst⟩
      | cons e rest ihrest =>
        intro front d h₁ hkvs hg hst
        obtain ⟨hgrown, hstored⟩ := ih e (hkvs ▸ List.mem_append_right _ List.mem_cons_self) h₁
        refine ihrest (front ++ [e]) (d.set e.1 (store e.2 h₁).1) (store e.2 h₁).2 ?_
          (hg.trans hgrown) ?_
        · rw [hkvs, List.append_assoc]
          rfl
        · have hk : e.1 ∉ front.map Prod.fst := by
            rw [hkvs, List.map_append, List.map_cons] at keys
            intro hmem
            exact (List.nodup_append.mp keys).2.2 _ hmem _ List.mem_cons_self rfl
          exact hst.append hk hg hgrown hstored
    obtain ⟨hgrown, hstored⟩ := hentries kvs [] .empty h rfl (.refl h) (storedEntries_nil h)
    rw [store]
    exact ⟨hgrown.trans (grown_push _ _), hstored.push hgrown.next⟩
  | @other w hw =>
    cases w with
    | dict kvs => cases hw
    | null | bool | int | float | str | list => exact ⟨.refl h, stored_other rfl h⟩

theorem storeDict_spec {kvs : List (String × Value)} (hkvs : (Value.dict kvs).Distinct) (h : Heap) :
    Grown h (storeDict kvs h).2 ∧
      Stored h (some (.dict kvs)) (some (.ref (storeDict kvs h).1)) (storeDict kvs h).2 := by
  have hstore := store_spec hkvs h
  rwa [store] at hstore

end Store

end Heap

end DomainRag
