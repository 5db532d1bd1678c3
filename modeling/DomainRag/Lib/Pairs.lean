import DomainRag.Lib.Shape

/-! # The constructor `dict`

A dictionary is made of another one or of a sequence of pairs, of which the last one for a key
counts. Its keys need not be texts; the entries whose keys are texts behave as those of a parsed
dictionary.
-/

namespace DomainRag

def setValue (k v : Value) : List (Value × Value) → List (Value × Value)
  | [] => [(k, v)]
  | e :: rest => if e.1.eq k then (e.1, v) :: rest else e :: setValue k v rest

/-- `dict.setdefault` -/
def setDefault (k v : Value) (pairs : List (Value × Value)) : List (Value × Value) :=
  if pairs.any fun e => e.1.eq k then pairs else setValue k v pairs

/-- An element of the sequence that a dictionary is made of, and its index. -/
def pairOf (item : Value) (i : Nat) : Except Exc (Value × Value) :=
  match item.iter with
  | .error _ =>
    .error (.typeError s!"cannot convert dictionary update sequence element #{i} to a sequence")
  | .ok [k, v] => do
    let _ ← k.intKey?
    return (k, v)
  | .ok vs => .error ⟨"ValueError",
      s!"dictionary update sequence element #{i} has length {vs.length}; 2 is required"⟩

def addPair (pairs : List (Value × Value)) (element : Value × Nat) :
    Except Exc (List (Value × Value)) := do
  let (k, v) ← pairOf element.1 element.2
  return setValue k v pairs

def dictOf : Value → Except Exc (List (Value × Value))
  | .dict kvs => .ok (kvs.map fun e => (.str e.1, e.2))
  | v => do (← v.iter).zipIdx.foldlM addPair []

section Mapping

variable {v item : Value}

def IsPair (item : Value) : Prop := ∃ k v, item.iter = .ok [k, v] ∧ k.Hashable

def IsMapping (v : Value) : Prop :=
  v.isDict = true ∨ ∃ items, v.iter = .ok items ∧ ∀ item ∈ items, IsPair item

theorem pairOf_of_iter {k w : Value} (h : item.iter = .ok [k, w]) (hk : k.Hashable) (i : Nat) :
    pairOf item i = .ok (k, w) := by
  obtain ⟨key, hkey⟩ := hk
  rw [pairOf, h]
  exact Except.bind_eq_ok_iff.mpr ⟨key, hkey, rfl⟩

theorem pairOf_eq_ok {i : Nat} {pair : Value × Value} (h : pairOf item i = .ok pair) :
    item.iter = .ok [pair.1, pair.2] ∧ pair.1.Hashable := by
  rw [pairOf] at h
  split at h
  · cases h
  · rename_i hiter
    obtain ⟨key, hkey, h⟩ := Except.bind_eq_ok_iff.mp h
    cases h
    exact ⟨hiter, key, hkey⟩
  · cases h

theorem returns_pairOf_iff (i : Nat) : Returns (pairOf item i) ↔ IsPair item := by
  constructor
  · rintro ⟨pair, h⟩
    exact ⟨pair.1, pair.2, pairOf_eq_ok h⟩
  · rintro ⟨k, w, hitem, hk⟩
    exact ⟨(k, w), pairOf_of_iter hitem hk i⟩

theorem dictOf_of_isDict_eq_false (h : v.isDict = false) :
    dictOf v = v.iter >>= fun items => items.zipIdx.foldlM addPair [] := by
  cases v with
  | dict kvs => cases h
  | null | bool | int | float | str | list => rfl

theorem returns_dictOf_iff : Returns (dictOf v) ↔ IsMapping v := by
  cases hdict : v.isDict with
  | true =>
    cases v with
    | dict kvs => exact ⟨fun _ => .inl rfl, fun _ => returns_ok _⟩
    | null | bool | int | float | str | list => cases hdict
  | false =>
    have hadd : ∀ pairs (element : Value × Nat),
        Returns (addPair pairs element) ↔ IsPair element.1 := by
      intro pairs element
      rw [addPair, returns_bind_iff_and fun kw => iff_true_intro (returns_pure _),
        returns_pairOf_iff, and_true]
    have hall : ∀ items : List Value,
        (∀ element ∈ items.zipIdx, IsPair element.1) ↔ ∀ item ∈ items, IsPair item := by
      intro items
      conv_rhs => rw [← List.zipIdx_map_fst 0 items]
      exact List.forall_mem_map.symm
    rw [dictOf_of_isDict_eq_false hdict, returns_bind_iff, IsMapping, hdict]
    simp only [returns_foldlM_iff hadd, hall, Bool.false_eq_true, false_or]

end Mapping

def textField (e : Value × Value) : Option (String × Value) :=
  match e.1 with
  | .str k => some (k, e.2)
  | _ => none

/-- The entries whose keys are texts. -/
def textFields (fields : List (Value × Value)) : List (String × Value) :=
  fields.filterMap textField

def givenPair (item : Value) : Option (Value × Value) :=
  match item.iter with
  | .ok [k, w] => some (k, w)
  | _ => none

/-- The pairs that a value has for the constructor `dict`. -/
def givenPairs : Value → List (Value × Value)
  | .dict kvs => kvs.map fun e => (.str e.1, e.2)
  | v => (v.iter.toOption.getD []).filterMap givenPair

theorem text_or_other (k : Value) : (∃ s, k = .str s) ∨ ∀ s, k ≠ .str s := by
  by_cases hk : ∃ s, k = .str s
  · exact .inl hk
  · exact .inr fun s hs => hk ⟨s, hs⟩

theorem textField_eq_none {k : Value} (hk : ∀ s, k ≠ .str s) (v : Value) :
    textField (k, v) = none := by
  cases k with
  | str s => exact absurd rfl (hk s)
  | null | bool | int | float | list | dict => rfl

theorem textFields_cons (e : Value × Value) (d : List (Value × Value)) :
    textFields (e :: d) = (textField e).toList ++ textFields d := by
  rw [textFields, List.filterMap_cons]
  cases textField e <;> rfl

theorem textFields_map_str (kvs : List (String × Value)) :
    textFields (kvs.map fun e => (.str e.1, e.2)) = kvs := by
  rw [textFields, List.filterMap_map]
  exact List.filterMap_some

theorem textFields_setValue_str (s : String) (v : Value) (d : List (Value × Value)) :
    textFields (setValue (.str s) v d) = Value.setKey s v (textFields d) := by
  induction d with
  | nil => rfl
  | cons e d ih =>
    obtain ⟨k, w⟩ := e
    rw [setValue]
    by_cases hs : k.eq (.str s) = true
    · obtain rfl := Value.eq_str_iff.mp hs
      rw [if_pos hs, textFields_cons, textFields_cons]
      simp [textField, Value.setKey]
    · rw [if_neg hs, textFields_cons, textFields_cons, ih]
      rcases text_or_other k with ⟨t, rfl⟩ | hk
      · have hne : t ≠ s := by
          rintro rfl
          exact hs (Value.eq_str_iff.mpr rfl)
        simp [textField, Value.setKey, hne]
      · rw [textField_eq_none hk]
        rfl

theorem textFields_setValue_other {k : Value} (hk : ∀ s, k ≠ .str s) (v : Value)
    (d : List (Value × Value)) : textFields (setValue k v d) = textFields d := by
  induction d with
  | nil =>
    rw [setValue, textFields_cons, textField_eq_none hk]
    rfl
  | cons e d ih =>
    obtain ⟨k', w⟩ := e
    rw [setValue]
    split
    · next heq =>
      -- what equals no text is no text
      have hother : ∀ s, k' ≠ .str s := by
        rintro s rfl
        cases k with
        | str t => exact hk t rfl
        | null | bool | int | float | list | dict => cases heq
      rw [textFields_cons, textFields_cons, textField_eq_none hother, textField_eq_none hother]
    · rw [textFields_cons, textFields_cons, ih]

theorem textFields_foldl_setValue (es d : List (Value × Value)) :
    textFields (es.foldl (fun d e => setValue e.1 e.2 d) d) =
      (textFields es).foldl (fun d e => Value.setKey e.1 e.2 d) (textFields d) := by
  induction es generalizing d with
  | nil => rfl
  | cons e es ih =>
    obtain ⟨k, v⟩ := e
    rw [List.foldl_cons, ih, textFields_cons]
    rcases text_or_other k with ⟨s, rfl⟩ | hk
    · rw [textFields_setValue_str]
      rfl
    · rw [textFields_setValue_other hk, textField_eq_none hk]
      rfl

theorem foldlM_addPair {items : List Value} (hpairs : ∀ item ∈ items, IsPair item) (i : Nat)
    (d : List (Value × Value)) :
    (items.zipIdx i).foldlM addPair d =
      .ok ((items.filterMap givenPair).foldl (fun d e => setValue e.1 e.2 d) d) := by
  induction items generalizing i d with
  | nil => rfl
  | cons item items ih =>
    rw [List.forall_mem_cons] at hpairs
    obtain ⟨⟨k, w, hitem, hk⟩, hpairs⟩ := hpairs
    have hadd : addPair d (item, i) = .ok (setValue k w d) := by
      rw [addPair, pairOf_of_iter hitem hk]
      rfl
    rw [List.zipIdx_cons, List.foldlM_cons, hadd, List.filterMap_cons, givenPair, hitem]
    exact ih hpairs (i + 1) _

/-- The entries under texts of a dictionary that is made of pairs are set one after the other. -/
theorem textFields_dictOf {v : Value} {pairs : List (Value × Value)} (h : dictOf v = .ok pairs)
    (hdict : v.isDict = false) :
    textFields pairs =
      (textFields (givenPairs v)).foldl (fun d e => Value.setKey e.1 e.2 d) [] := by
  obtain hmapping | ⟨items, hitems, hpairs⟩ := returns_dictOf_iff.mp ⟨pairs, h⟩
  · rw [hdict] at hmapping
    cases hmapping
  · have hgiven : givenPairs v = items.filterMap givenPair := by
      cases v with
      | dict kvs => cases hdict
      | null | bool | int | float | str | list =>
        rw [givenPairs, hitems]
        · rfl
        · rintro _ ⟨⟩
    rw [dictOf_of_isDict_eq_false hdict, hitems] at h
    obtain rfl := Except.ok.inj ((foldlM_addPair hpairs 0 []).symm.trans h)
    rw [textFields_foldl_setValue, hgiven]
    rfl

theorem lookup_textFields_dictOf {v : Value} {pairs : List (Value × Value)} (k : String)
    (h : dictOf v = .ok pairs) :
    (textFields pairs).reverse.lookup k = (textFields (givenPairs v)).reverse.lookup k := by
  cases hdict : v.isDict with
  | true =>
    cases v with
    | dict kvs =>
      cases h
      rfl
    | null | bool | int | float | str | list => cases hdict
  | false =>
    have hempty : (([] : List (String × Value)).map Prod.fst).Nodup := List.nodup_nil
    rw [textFields_dictOf h hdict, Value.lookup_reverse (Value.nodup_foldl_setKey hempty),
      Value.lookup_foldl_setKey]
    exact Option.or_none

end DomainRag
