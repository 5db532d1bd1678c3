import Mathlib.Data.List.Dedup

/-! # Insertion-ordered dictionaries

A key keeps the place of its first insertion, and setting it again only changes its value.
-/

namespace DomainRag

structure Dict (K V : Type) where
  entries : List (K × V)
  nodup : (entries.map Prod.fst).Nodup
  deriving DecidableEq

namespace Dict

variable {K V W : Type}

def empty : Dict K V := ⟨[], List.nodup_nil⟩

instance : Inhabited (Dict K V) := ⟨empty⟩

def keys (d : Dict K V) : List K := d.entries.map Prod.fst

def values (d : Dict K V) : List V := d.entries.map Prod.snd

def filterKeys (d : Dict K V) (p : K → Bool) : Dict K V where
  entries := d.entries.filter fun e => p e.1
  nodup := (List.Sublist.map Prod.fst List.filter_sublist).nodup d.nodup

def mapValues (d : Dict K V) (f : K → V → W) : Dict K W where
  entries := d.entries.map fun e => (e.1, f e.1 e.2)
  nodup := by
    have h := d.nodup
    simpa only [List.map_map, Function.comp_def] using h

variable [DecidableEq K]

def get? (d : Dict K V) (k : K) : Option V :=
  (d.entries.find? fun e => e.1 = k).map Prod.snd

theorem get?_eq_some_iff {d : Dict K V} {k : K} {v : V} :
    d.get? k = some v ↔ (k, v) ∈ d.entries := by
  constructor
  · intro h
    obtain ⟨⟨k', v'⟩, hfind, rfl⟩ := Option.map_eq_some_iff.mp h
    have hkey : k' = k := by simpa using List.find?_some hfind
    exact hkey ▸ List.mem_of_find?_eq_some hfind
  · intro h
    have hsome : (d.entries.find? fun e => e.1 = k).isSome := by
      rw [List.find?_isSome]
      exact ⟨(k, v), h, by simp⟩
    obtain ⟨⟨k', v'⟩, hfind⟩ := Option.isSome_iff_exists.mp hsome
    have hkey : k' = k := by simpa using List.find?_some hfind
    have hentry : (k', v') = (k, v) :=
      List.inj_on_of_nodup_map d.nodup (List.mem_of_find?_eq_some hfind) h hkey
    rw [get?, hfind, hentry]
    rfl

theorem lookup_entries (d : Dict K V) (k : K) : d.entries.lookup k = d.get? k := by
  rw [get?]
  induction d.entries with
  | nil => rfl
  | cons e es ih =>
    obtain ⟨k₀, v₀⟩ := e
    by_cases h : k₀ = k
    · subst h
      simp only [List.lookup_cons_self, List.find?_cons, decide_true, Option.map_some]
    · have hne : (k == k₀) = false := beq_eq_false_iff_ne.mpr (Ne.symm h)
      simp only [List.lookup_cons, hne, List.find?_cons, h, decide_false, ih]

theorem get?_isSome_iff {d : Dict K V} {k : K} : (d.get? k).isSome ↔ k ∈ d.keys := by
  simp only [Option.isSome_iff_exists, get?_eq_some_iff, keys, List.mem_map, Prod.exists,
    exists_and_right, exists_eq_right]

theorem mem_values_iff {d : Dict K V} {v : V} : v ∈ d.values ↔ ∃ k, d.get? k = some v := by
  simp only [values, List.mem_map, Prod.exists, exists_eq_right, get?_eq_some_iff]

theorem get?_eq_none_iff {d : Dict K V} {k : K} : d.get? k = none ↔ k ∉ d.keys := by
  rw [← get?_isSome_iff, Option.not_isSome_iff_eq_none]

@[simp] theorem get?_empty (k : K) : (empty : Dict K V).get? k = none := rfl

theorem get?_filterKeys (d : Dict K V) (p : K → Bool) (k : K) :
    (d.filterKeys p).get? k = if p k then d.get? k else none := by
  ext v
  rw [get?_eq_some_iff, filterKeys, List.mem_filter]
  by_cases h : p k
  · simp only [h, and_true, if_true, get?_eq_some_iff]
  · simp only [h, and_false, Bool.false_eq_true, if_false, reduceCtorEq]

theorem get?_mapValues (d : Dict K V) (f : K → V → W) (k : K) :
    (d.mapValues f).get? k = (d.get? k).map (f k) := by
  ext w
  simp only [get?_eq_some_iff, mapValues, List.mem_map, Option.map_eq_some_iff, Prod.exists,
    Prod.mk.injEq]
  constructor
  · rintro ⟨k', v, hv, rfl, rfl⟩
    exact ⟨v, hv, rfl⟩
  · rintro ⟨v, hv, rfl⟩
    exact ⟨k, v, hv, rfl, rfl⟩

def set (d : Dict K V) (k : K) (v : V) : Dict K V :=
  if hk : k ∈ d.keys then d.mapValues fun k' v' => if k' = k then v else v'
  else
    { entries := d.entries ++ [(k, v)]
      nodup := by
        rw [List.map_append, List.map_singleton]
        exact List.nodup_append.mpr ⟨d.nodup, List.nodup_singleton k, by
          intro a ha b hb hab
          rw [hab, List.mem_singleton.mp hb] at ha
          exact hk ha⟩ }

theorem get?_set (d : Dict K V) (k k' : K) (v : V) :
    (d.set k v).get? k' = if k' = k then some v else d.get? k' := by
  by_cases hk : k ∈ d.keys
  · obtain ⟨w, hw⟩ := Option.isSome_iff_exists.mp (get?_isSome_iff.mpr hk)
    rw [set, dif_pos hk, get?_mapValues]
    by_cases h : k' = k
    · rw [h, hw, Option.map_some, if_pos rfl, if_pos rfl]
    · simp only [if_neg h, Option.map_id_fun', id]
  · ext w
    rw [set, dif_neg hk, get?_eq_some_iff, List.mem_append, List.mem_singleton, Prod.mk.injEq]
    by_cases h : k' = k
    · have habsent : (k, w) ∉ d.entries := fun hmem => hk (List.mem_map_of_mem hmem)
      simp only [h, habsent, true_and, false_or, if_true, Option.some.injEq, eq_comm]
    · simp only [h, false_and, or_false, if_false, get?_eq_some_iff]

/-- `dict.setdefault` -/
def setDefault (d : Dict K V) (k : K) (v : V) : Dict K V :=
  if (d.get? k).isSome then d else d.set k v

theorem values_set_of_new {d : Dict K V} {k : K} (h : d.get? k = none) (v : V) :
    (d.set k v).values = d.values ++ [v] := by
  rw [set, dif_neg (get?_eq_none_iff.mp h), values, values, List.map_append, List.map_singleton]

theorem values_set_of_known {d : Dict K V} {k : K} {w : V} (h : d.get? k = some w) (v : V) :
    (d.set k v).values = d.entries.map fun e => if e.1 = k then v else e.2 := by
  have hk : k ∈ d.keys := get?_isSome_iff.mp (by rw [h]; rfl)
  rw [set, dif_pos hk, values, mapValues, List.map_map]
  rfl

def erase (d : Dict K V) (k : K) : Dict K V := d.filterKeys fun k' => k' ≠ k

theorem get?_erase (d : Dict K V) (k k' : K) :
    (d.erase k).get? k' = if k' = k then none else d.get? k' := by
  rw [erase, get?_filterKeys]
  by_cases h : k' = k
  · simp only [h, ne_eq, not_true_eq_false, decide_false, Bool.false_eq_true, if_false, if_true]
  · simp only [h, ne_eq, not_false_eq_true, decide_true, if_true, if_false]

theorem get?_foldl_erase (d : Dict K V) (ks : List K) (k : K) :
    (ks.foldl erase d).get? k = if k ∈ ks then none else d.get? k := by
  induction ks generalizing d with
  | nil => rw [List.foldl_nil, if_neg List.not_mem_nil]
  | cons k' ks ih =>
    rw [List.foldl_cons, ih, get?_erase]
    by_cases hk : k ∈ ks
    · rw [if_pos hk, if_pos (List.mem_cons_of_mem k' hk)]
    · simp only [hk, if_false, List.mem_cons, or_false]

/-- The entries at the listed keys, set in the order of the list. -/
def pick (d : Dict K V) (f : V → W) (ks : List K) : Dict K W :=
  ks.foldl (fun out k => match d.get? k with
    | some v => out.set k (f v)
    | none => out) empty

theorem get?_pick (d : Dict K V) (f : V → W) (ks : List K) (k : K) :
    (d.pick f ks).get? k = if k ∈ ks then (d.get? k).map f else none := by
  have hfold : ∀ out : Dict K W, (∀ w, out.get? k = some w → (d.get? k).map f = some w) →
      (ks.foldl (fun out k => match d.get? k with
        | some v => out.set k (f v)
        | none => out) out).get? k = if k ∈ ks then (d.get? k).map f else out.get? k := by
    induction ks with
    | nil => intro out _; rfl
    | cons k' ks ih =>
      intro out hout
      rw [List.foldl_cons]
      cases hk' : d.get? k' with
      | none =>
        rw [ih out hout]
        by_cases h : k = k'
        · have hnone : out.get? k = none := by
            cases hk : out.get? k with
            | none => rfl
            | some w => rw [← hout w hk, h, hk']; rfl
          simp only [h, hk', List.mem_cons, true_or, if_true, Option.map_none]
          rw [← h, hnone, ite_self]
        · simp only [List.mem_cons, h, false_or]
      | some v =>
        rw [ih _ ?_, get?_set]
        · by_cases h : k = k'
          · simp only [h, hk', List.mem_cons, true_or, if_true, Option.map_some, ite_self]
          · simp only [List.mem_cons, h, false_or, if_false]
        · intro w hw
          rw [get?_set] at hw
          split at hw
          · rename_i h
            rw [h, hk', ← hw]
            rfl
          · exact hout w hw
  rw [pick, hfold empty (by simp only [get?_empty, reduceCtorEq, false_implies, implies_true])]
  rfl

def update (d : Dict K V) (kvs : List (K × V)) : Dict K V :=
  kvs.foldl (fun d e => d.set e.1 e.2) d

def ofList (kvs : List (K × V)) : Dict K V := empty.update kvs

theorem update_append (d : Dict K V) (kvs kvs' : List (K × V)) :
    d.update (kvs ++ kvs') = (d.update kvs).update kvs' :=
  List.foldl_append

theorem length_set_le (d : Dict K V) (k : K) (v : V) :
    (d.set k v).entries.length ≤ d.entries.length + 1 := by
  rw [set]
  split
  · simp [mapValues]
  · simp

theorem length_update_le (d : Dict K V) (kvs : List (K × V)) :
    (d.update kvs).entries.length ≤ d.entries.length + kvs.length := by
  induction kvs generalizing d with
  | nil => exact Nat.le_refl _
  | cons e kvs ih =>
    have hset := d.length_set_le e.1 e.2
    have hrest := ih (d.set e.1 e.2)
    rw [update, List.foldl_cons, ← update, List.length_cons]
    omega

theorem get?_mk_cons (p : K × V) (kvs : List (K × V)) (h : ((p :: kvs).map Prod.fst).Nodup)
    (k : K) : (⟨p :: kvs, h⟩ : Dict K V).get? k =
      if k = p.1 then some p.2 else (⟨kvs, (List.nodup_cons.mp h).2⟩ : Dict K V).get? k := by
  by_cases hk : k = p.1
  · simp only [get?, hk, List.find?_cons, decide_true, Option.map_some, if_true]
  · simp only [get?, List.find?_cons, Ne.symm hk, decide_false, hk, if_false]

theorem get?_update (d e : Dict K V) (k : K) :
    (d.update e.entries).get? k = (e.get? k).or (d.get? k) := by
  obtain ⟨kvs, hnodup⟩ := e
  induction kvs generalizing d with
  | nil => rfl
  | cons p kvs ih =>
    obtain ⟨hp, hkvs⟩ := List.nodup_cons.mp hnodup
    rw [get?_mk_cons, update, List.foldl_cons]
    refine (ih (d.set p.1 p.2) hkvs).trans ?_
    rw [get?_set]
    by_cases h : k = p.1
    · have hrest : (⟨kvs, hkvs⟩ : Dict K V).get? k = none := get?_eq_none_iff.mpr (h ▸ hp)
      rw [hrest, if_pos h, if_pos h]
      rfl
    · rw [if_neg h, if_neg h]

theorem get?_ofList_iff {kvs : List (K × V)} (h : (kvs.map Prod.fst).Nodup) {k : K} {v : V} :
    (ofList kvs).get? k = some v ↔ (k, v) ∈ kvs := by
  have hget : (ofList kvs).get? k = (⟨kvs, h⟩ : Dict K V).get? k :=
    (get?_update empty ⟨kvs, h⟩ k).trans (Option.or_none ..)
  rw [hget, get?_eq_some_iff]

/-- Of the entries with one key the last one stays. -/
theorem get?_update_list (d : Dict K V) (kvs : List (K × V)) (k : K) :
    (d.update kvs).get? k = ((ofList kvs).get? k).or (d.get? k) := by
  induction kvs generalizing d with
  | nil => rfl
  | cons e kvs ih =>
    have hd := ih (d.set e.1 e.2)
    have hempty := ih (empty.set e.1 e.2)
    rw [ofList, update, List.foldl_cons, ← update, hd, update, List.foldl_cons, ← update, hempty,
      Option.or_assoc, get?_set, get?_set]
    split <;> rfl

/-- What holds of the entries of a dictionary and of those that are set holds of all afterwards. -/
theorem forall_entry_update {P : K → V → Prop} {d : Dict K V} {kvs : List (K × V)}
    (hd : ∀ k v, d.get? k = some v → P k v) (hkvs : ∀ e ∈ kvs, P e.1 e.2) (k : K) (v : V)
    (h : (d.update kvs).get? k = some v) : P k v := by
  induction kvs generalizing d with
  | nil => exact hd k v h
  | cons e kvs ih =>
    rw [update, List.foldl_cons] at h
    refine ih ?_ (fun e' he' => hkvs e' (List.mem_cons_of_mem e he')) h
    intro k' v' hv'
    rw [get?_set] at hv'
    split at hv'
    · rename_i hk
      cases hv'
      exact hk ▸ hkvs e List.mem_cons_self
    · exact hd k' v' hv'

theorem forall_get?_update {P : V → Prop} {d : Dict K V} {kvs : List (K × V)}
    (hd : ∀ k v, d.get? k = some v → P v) (hkvs : ∀ e ∈ kvs, P e.2) (k : K) (v : V)
    (h : (d.update kvs).get? k = some v) : P v :=
  forall_entry_update (P := fun _ => P) hd hkvs k v h

theorem mem_keys_update {d : Dict K V} {kvs : List (K × V)} {k : K} :
    k ∈ (d.update kvs).keys ↔ k ∈ d.keys ∨ k ∈ kvs.map Prod.fst := by
  induction kvs generalizing d with
  | nil => simp [update]
  | cons e kvs ih =>
    have hset : k ∈ (d.set e.1 e.2).keys ↔ k = e.1 ∨ k ∈ d.keys := by
      rw [← get?_isSome_iff, ← get?_isSome_iff, get?_set]
      split <;> simp_all
    rw [update, List.foldl_cons, ← update, ih, hset, List.map_cons, List.mem_cons]
    tauto

/-- A dictionary has an entry for each of the keys that were set. -/
theorem length_ofList (kvs : List (K × V)) :
    (ofList kvs).entries.length = (kvs.map Prod.fst).dedup.length := by
  rw [← List.length_map Prod.fst]
  refine ((List.perm_ext_iff_of_nodup (ofList kvs).nodup (List.nodup_dedup _)).mpr fun k => ?_).length_eq
  rw [List.mem_dedup]
  exact mem_keys_update.trans (by simp [keys, empty])

theorem set_of_get?_eq {d : Dict K V} {k : K} {v : V} (h : d.get? k = some v) :
    d.set k v = d := by
  have hk : k ∈ d.keys := get?_isSome_iff.mp (by rw [h]; rfl)
  rw [set, dif_pos hk, mapValues]
  congr 1
  refine (List.map_congr_left ?_).trans (List.map_id d.entries)
  rintro ⟨k', v'⟩ hmem
  by_cases hkk : k' = k
  · have hv : some v' = some v := (get?_eq_some_iff.mpr hmem).symm.trans (hkk ▸ h)
    rw [if_pos hkk, Option.some.inj hv]
    rfl
  · rw [if_neg hkk]
    rfl

theorem update_of_get?_eq {d : Dict K V} {kvs : List (K × V)}
    (h : ∀ e ∈ kvs, d.get? e.1 = some e.2) : d.update kvs = d := by
  induction kvs with
  | nil => rfl
  | cons e kvs ih =>
    rw [update, List.foldl_cons, set_of_get?_eq (h e List.mem_cons_self)]
    exact ih fun e' he' => h e' (List.mem_cons_of_mem e he')

/-- Setting the same entries once more changes nothing. -/
theorem update_update (d e : Dict K V) :
    (d.update e.entries).update e.entries = d.update e.entries := by
  refine update_of_get?_eq ?_
  intro p hp
  rw [get?_update, get?_eq_some_iff.mpr hp]
  rfl

end Dict

end DomainRag
