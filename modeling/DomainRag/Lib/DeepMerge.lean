import DomainRag.Lib.Value
import Mathlib.Data.List.Nodup

/-! # Merging nested dictionaries

An override is merged into a tree of dictionaries key by key; every other value replaces what was
there. The rules below say what stands at a path afterwards: an override may write at the path, it
may cut the path off with a value that is no dictionary, or it may leave the path alone.
-/

namespace DomainRag

namespace Value

def setKey (k : String) (v : Value) : List (String × Value) → List (String × Value)
  | [] => [(k, v)]
  | e :: rest => if e.1 = k then (k, v) :: rest else e :: setKey k v rest

mutual

/-- What stands under a key after an override is merged into it. -/
def deepMerge (base : Option Value) : Value → Value
  | dict upper => match base with
    | some (dict kvs) => dict (mergeEntries kvs upper)
    | _ => dict upper
  | v => v

def mergeEntries (base : List (String × Value)) : List (String × Value) → List (String × Value)
  | [] => base
  | (k, v) :: rest => mergeEntries (setKey k (deepMerge (base.lookup k) v) base) rest

end

def isDict : Value → Bool
  | dict _ => true
  | _ => false

def entriesOf : Option Value → List (String × Value)
  | some (dict kvs) => kvs
  | _ => []

def look (base : Option Value) : List String → Option Value
  | [] => base
  | k :: ks => look ((entriesOf base).lookup k) ks

/-- A write at a path: dictionaries are put in the place of what is none on the way, and the value
is merged into what stands at the end. -/
def setAt (base : Option Value) : List String → Value → Value
  | [], v => deepMerge base v
  | k :: ks, v => dict (setKey k (setAt ((entriesOf base).lookup k) ks v) (entriesOf base))

/-- A value stands on the way of the path that is no dictionary. -/
def blocks : List String → Value → Bool
  | [], _ => false
  | k :: ks, dict kvs => (kvs.lookup k).any (blocks ks)
  | _ :: _, _ => true

/-- An override writes at the path or cuts it off. -/
def reaches (path : List String) (v : Value) : Bool :=
  blocks path v || (look (some v) path).isSome

/-- A write at a path cuts another path off. -/
def blocksAt : List String → Value → List String → Bool
  | [], v, path => blocks path v
  | _ :: _, _, [] => false
  | p :: ps, v, k :: ks => p = k && blocksAt ps v ks

/-- A write at a path writes at another path or cuts it off. -/
def reachesAt : List String → Value → List String → Bool
  | [], v, path => reaches path v
  | _ :: _, _, [] => true
  | p :: ps, v, k :: ks => p = k && reachesAt ps v ks

/-- What an override makes of the value at a path. -/
def overlay (x upper : Option Value) : Option Value :=
  match upper with
  | some w => some (deepMerge x w)
  | none => x

/-- What a write makes of the value at a path. -/
def written : List String → Value → List String → Option Value → Option Value
  | [], v, path, x => overlay x (look (some v) path)
  | p :: ps, v, [], x => some (setAt x (p :: ps) v)
  | p :: ps, v, k :: ks, x => if p = k then written ps v ks x else x

/-- No dictionary in the value has a key twice. -/
inductive Distinct : Value → Prop
  | dict {kvs : List (String × Value)} (keys : (kvs.map Prod.fst).Nodup)
      (values : ∀ e ∈ kvs, Distinct e.2) : Distinct (dict kvs)
  | other {v : Value} (h : v.isDict = false) : Distinct v

section Keys

variable {base upper : List (String × Value)} {k k' : String} {v w : Value}

theorem lookup_cons_ne (h : k' ≠ k) : ((k, v) :: base).lookup k' = base.lookup k' := by
  rw [List.lookup_cons]
  simp only [beq_eq_false_iff_ne.mpr h]

theorem lookup_setKey : (setKey k v base).lookup k' = if k' = k then some v else base.lookup k' := by
  induction base with
  | nil =>
    by_cases h : k' = k
    · rw [if_pos h, h]
      exact List.lookup_cons_self
    · rw [if_neg h]
      exact lookup_cons_ne h
  | cons e rest ih =>
    obtain ⟨k₀, v₀⟩ := e
    by_cases hk : k₀ = k
    · subst hk
      simp only [setKey, if_true]
      by_cases h : k' = k₀
      · rw [if_pos h, h]
        exact List.lookup_cons_self
      · rw [if_neg h, lookup_cons_ne h, lookup_cons_ne h]
    · simp only [setKey, hk, if_false]
      by_cases h₀ : k' = k₀
      · subst h₀
        rw [List.lookup_cons_self, List.lookup_cons_self, if_neg hk]
      · rw [lookup_cons_ne h₀, lookup_cons_ne h₀, ih]

theorem mem_setKey {e : String × Value} (h : e ∈ setKey k v base) : e = (k, v) ∨ e ∈ base := by
  induction base with
  | nil => exact .inl (List.mem_singleton.mp h)
  | cons e' rest ih =>
    rw [setKey] at h
    split at h
    · obtain h | h := List.mem_cons.mp h
      · exact .inl h
      · exact .inr (List.mem_cons_of_mem e' h)
    · obtain h | h := List.mem_cons.mp h
      · exact .inr (h ▸ List.mem_cons_self)
      · exact (ih h).imp_right (List.mem_cons_of_mem e')

theorem nodup_setKey (h : (base.map Prod.fst).Nodup) : ((setKey k v base).map Prod.fst).Nodup := by
  induction base with
  | nil => exact List.nodup_singleton k
  | cons e rest ih =>
    obtain ⟨hnot, hrest⟩ := List.nodup_cons.mp h
    rw [setKey]
    split
    · rename_i heq
      exact List.nodup_cons.mpr ⟨heq ▸ hnot, hrest⟩
    · rename_i hne
      refine List.nodup_cons.mpr ⟨?_, ih hrest⟩
      intro hmem
      obtain ⟨e', he', hkey⟩ := List.mem_map.mp hmem
      obtain rfl | he' := mem_setKey he'
      · exact hne hkey.symm
      · exact hnot (List.mem_map.mpr ⟨e', he', hkey⟩)

theorem lookup_eq_none_of_notMem (h : k ∉ upper.map Prod.fst) : upper.lookup k = none := by
  rw [List.lookup_eq_none_iff]
  intro e he
  exact bne_iff_ne.mpr fun heq => h (heq ▸ List.mem_map_of_mem he)

theorem mem_of_lookup (h : upper.lookup k = some v) : (k, v) ∈ upper := by
  obtain ⟨front, back, rfl, -⟩ := List.lookup_eq_some_iff.mp h
  exact List.mem_append_right front List.mem_cons_self

theorem lookup_eq_some_iff (h : (upper.map Prod.fst).Nodup) :
    upper.lookup k = some v ↔ (k, v) ∈ upper := by
  refine ⟨mem_of_lookup, fun hmem => ?_⟩
  cases hlookup : upper.lookup k with
  | none => exact absurd rfl (bne_iff_ne.mp (List.lookup_eq_none_iff.mp hlookup _ hmem))
  | some w =>
    have hsame : (k, w) = (k, v) := List.inj_on_of_nodup_map h (mem_of_lookup hlookup) hmem rfl
    rw [(Prod.mk.inj hsame).2]

theorem lookup_reverse (h : (upper.map Prod.fst).Nodup) : upper.reverse.lookup k = upper.lookup k := by
  have hreverse : (upper.reverse.map Prod.fst).Nodup := by
    rw [List.map_reverse]
    exact List.nodup_reverse.mpr h
  ext v
  rw [lookup_eq_some_iff hreverse, lookup_eq_some_iff h, List.mem_reverse]

/-- Of the entries that are written with one key the last one stands. -/
theorem lookup_foldl_setKey (upper base : List (String × Value)) :
    (upper.foldl (fun d e => setKey e.1 e.2 d) base).lookup k =
      (upper.reverse.lookup k).or (base.lookup k) := by
  induction upper generalizing base with
  | nil => rfl
  | cons e rest ih =>
    rw [List.foldl_cons, ih, lookup_setKey, List.reverse_cons, List.lookup_append, Option.or_assoc]
    congr 1
    by_cases hk : k = e.1
    · rw [if_pos hk, hk, List.lookup_cons_self, Option.some_or]
    · rw [if_neg hk, lookup_cons_ne hk, List.lookup_nil, Option.none_or]

theorem mem_foldl_setKey {e : String × Value}
    (h : e ∈ upper.foldl (fun d e => setKey e.1 e.2 d) base) : e ∈ upper ∨ e ∈ base := by
  induction upper generalizing base with
  | nil => exact .inr h
  | cons e' rest ih =>
    rcases ih h with hmem | hmem
    · exact .inl (List.mem_cons_of_mem e' hmem)
    · rcases mem_setKey hmem with rfl | hmem
      · exact .inl List.mem_cons_self
      · exact .inr hmem

theorem nodup_foldl_setKey (h : (base.map Prod.fst).Nodup) :
    ((upper.foldl (fun d e => setKey e.1 e.2 d) base).map Prod.fst).Nodup := by
  induction upper generalizing base with
  | nil => exact h
  | cons e rest ih => exact ih (nodup_setKey h)

/-- What stands under a key once all entries of an override are merged. -/
theorem lookup_mergeEntries (h : (upper.map Prod.fst).Nodup) :
    (mergeEntries base upper).lookup k = overlay (base.lookup k) (upper.lookup k) := by
  induction upper generalizing base with
  | nil => simp [mergeEntries, overlay]
  | cons e rest ih =>
    obtain ⟨k₀, v₀⟩ := e
    obtain ⟨hnot, hrest⟩ := List.nodup_cons.mp h
    rw [mergeEntries, ih hrest, lookup_setKey]
    by_cases hk : k = k₀
    · subst hk
      rw [lookup_eq_none_of_notMem hnot, if_pos rfl, List.lookup_cons_self]
      rfl
    · rw [if_neg hk, lookup_cons_ne hk]

end Keys

section Paths

variable {base : Option Value} {v : Value} {path ps : List String} {x : Option Value}

theorem look_none (path : List String) : look none path = none := by
  induction path with
  | nil => rfl
  | cons k ks ih => exact ih

theorem deepMerge_none (v : Value) : deepMerge none v = v := by
  cases v <;> simp only [deepMerge]

theorem deepMerge_dict (base : Option Value) (upper : List (String × Value)) :
    (∃ kvs, base = some (dict kvs) ∧ deepMerge base (dict upper) = dict (mergeEntries kvs upper)) ∨
      deepMerge base (dict upper) = dict upper := by
  cases base with
  | none => exact .inr (deepMerge_none _)
  | some b =>
    cases b with
    | dict kvs => exact .inl ⟨kvs, rfl, by rw [deepMerge]⟩
    | null | bool | int | float | str | list => exact .inr (by simp only [deepMerge])

theorem overlay_none (upper : Option Value) : overlay none upper = upper := by
  cases upper with
  | none => rfl
  | some w => exact congrArg some (deepMerge_none w)

/-- The entries under a key, of an override that is a dictionary. -/
theorem lookup_deepMerge {upper : List (String × Value)} (h : (upper.map Prod.fst).Nodup)
    (k : String) : (entriesOf (some (deepMerge base (dict upper)))).lookup k =
      overlay ((entriesOf base).lookup k) (upper.lookup k) := by
  cases base with
  | none => exact (overlay_none _).symm
  | some b =>
    cases b with
    | dict kvs =>
      rw [deepMerge]
      exact lookup_mergeEntries h
    | null | bool | int | float | str | list => exact (overlay_none _).symm

theorem Distinct.lookup {upper : List (String × Value)} {k : String} {w : Value}
    (h : Distinct (Value.dict upper)) (hw : upper.lookup k = some w) : Distinct w := by
  cases h with
  | dict _ values => exact values _ (mem_of_lookup hw)
  | other h => cases h

theorem Distinct.nodup {upper : List (String × Value)} (h : Distinct (Value.dict upper)) :
    (upper.map Prod.fst).Nodup := by
  cases h with
  | dict keys _ => exact keys
  | other h => cases h

/-- An override that does not cut the path off is laid over what stands at the path. -/
theorem look_deepMerge (hv : Distinct v) (hopen : blocks path v = false) :
    look (some (deepMerge base v)) path = overlay (look base path) (look (some v) path) := by
  induction path generalizing base v with
  | nil => rfl
  | cons k ks ih =>
    cases v with
    | dict upper =>
      rw [look, lookup_deepMerge hv.nodup]
      rw [blocks] at hopen
      simp only [look, entriesOf]
      cases hw : upper.lookup k with
      | none =>
        rw [look_none]
        rfl
      | some w =>
        rw [hw] at hopen
        exact ih (hv.lookup hw) hopen
    | null | bool | int | float | str | list => cases hopen

theorem look_setAt (hv : Distinct v) (hopen : blocksAt ps v path = false) :
    look (some (setAt base ps v)) path = written ps v path (look base path) := by
  induction ps generalizing base path with
  | nil => exact look_deepMerge hv hopen
  | cons p ps ih =>
    cases path with
    | nil => rfl
    | cons k ks =>
      simp only [look, setAt, entriesOf, written, lookup_setKey]
      by_cases hk : k = p
      · subst hk
        simp only [blocksAt, decide_true, Bool.true_and] at hopen
        rw [if_pos rfl, if_pos rfl]
        exact ih hopen
      · rw [if_neg hk, if_neg (Ne.symm hk)]

theorem blocks_under {k : String} {ks : List String} (h : base.any (blocks (k :: ks)) = false) :
    ((entriesOf base).lookup k).any (blocks ks) = false := by
  cases base with
  | none => rfl
  | some b =>
    cases b with
    | dict kvs => exact h
    | null | bool | int | float | str | list => rfl

theorem blocks_deepMerge (hv : Distinct v) (hbase : base.any (blocks path) = false)
    (hopen : blocks path v = false) : blocks path (deepMerge base v) = false := by
  induction path generalizing base v with
  | nil => rfl
  | cons k ks ih =>
    cases v with
    | dict upper =>
      have hlookup : (entriesOf (some (deepMerge base (dict upper)))).lookup k =
        overlay ((entriesOf base).lookup k) (upper.lookup k) := lookup_deepMerge hv.nodup k
      have hunder := blocks_under hbase
      obtain ⟨kvs, hkvs⟩ : ∃ kvs, deepMerge base (dict upper) = dict kvs := by
        obtain ⟨kvs, -, heq⟩ | heq := deepMerge_dict base upper
        · exact ⟨_, heq⟩
        · exact ⟨_, heq⟩
      rw [hkvs] at hlookup ⊢
      rw [blocks] at hopen ⊢
      simp only [entriesOf] at hlookup
      rw [hlookup]
      cases hw : upper.lookup k with
      | none => exact hunder
      | some w =>
        rw [hw] at hopen
        exact ih (hv.lookup hw) hunder hopen
    | null | bool | int | float | str | list => cases hopen

theorem blocks_setAt (hv : Distinct v) (hbase : base.any (blocks path) = false)
    (hopen : blocksAt ps v path = false) : blocks path (setAt base ps v) = false := by
  induction ps generalizing base path with
  | nil => exact blocks_deepMerge hv hbase hopen
  | cons p ps ih =>
    cases path with
    | nil => rfl
    | cons k ks =>
      have hunder := blocks_under hbase
      rw [setAt, blocks, lookup_setKey]
      by_cases hk : k = p
      · subst hk
        simp only [blocksAt, decide_true, Bool.true_and] at hopen
        rw [if_pos rfl]
        exact ih hunder hopen
      · rw [if_neg hk]
        exact hunder

/-- A write that does not reach a path leaves it open and its value as it is. -/
theorem of_not_reachesAt (h : reachesAt ps v path = false) :
    blocksAt ps v path = false ∧ written ps v path x = x := by
  induction ps generalizing path with
  | nil =>
    simp only [reachesAt, reaches, Bool.or_eq_false_iff, Option.isSome_eq_false_iff,
      Option.isNone_iff_eq_none] at h
    refine ⟨h.1, ?_⟩
    rw [written, h.2]
    rfl
  | cons p ps ih =>
    cases path with
    | nil => cases h
    | cons k ks =>
      by_cases hk : p = k
      · subst hk
        simp only [reachesAt, decide_true, Bool.true_and] at h
        simpa only [blocksAt, written, decide_true, Bool.true_and, if_true] using ih h
      · simp only [blocksAt, written, hk, decide_false, Bool.false_and, if_false, and_self]

end Paths

section Distinct

variable {base : Option Value} {v : Value} {ps : List String}

theorem distinct_empty : Distinct (dict []) :=
  .dict List.nodup_nil fun _ he => absurd he List.not_mem_nil

theorem distinct_single {v : Value} (k : String) (h : Distinct v) : Distinct (dict [(k, v)]) := by
  refine .dict (List.nodup_singleton k) ?_
  intro e he
  rw [List.mem_singleton.mp he]
  exact h

theorem distinct_entriesOf (h : ∀ b, base = some b → Distinct b) :
    Distinct (dict (entriesOf base)) := by
  cases base with
  | none => exact distinct_empty
  | some b =>
    cases b with
    | dict kvs => exact h _ rfl
    | null | bool | int | float | str | list => exact distinct_empty

theorem Distinct.setKey {kvs : List (String × Value)} {k : String} (h : Distinct (Value.dict kvs))
    (hv : Distinct v) : Distinct (Value.dict (setKey k v kvs)) := by
  refine .dict (nodup_setKey h.nodup) ?_
  intro e he
  obtain rfl | he := mem_setKey he
  · exact hv
  · cases h with
    | dict _ values => exact values e he
    | other h => cases h

theorem Distinct.deepMerge (hv : Distinct v) (hbase : ∀ b, base = some b → Distinct b) :
    Distinct (deepMerge base v) := by
  induction hv generalizing base with
  | @dict upper keys values ih =>
    have hentries : ∀ rest kvs, (∀ e ∈ rest, e ∈ upper) → Distinct (Value.dict kvs) →
        Distinct (Value.dict (mergeEntries kvs rest)) := by
      intro rest
      induction rest with
      | nil =>
        intro kvs _ hkvs
        rw [mergeEntries]
        exact hkvs
      | cons e rest ihrest =>
        intro kvs hmem hkvs
        rw [mergeEntries]
        refine ihrest _ (fun e' he' => hmem e' (List.mem_cons_of_mem e he')) (hkvs.setKey ?_)
        exact ih e (hmem e List.mem_cons_self) fun b hb => hkvs.lookup hb
    obtain ⟨kvs, rfl, heq⟩ | heq := deepMerge_dict base upper
    · rw [heq]
      exact hentries upper kvs (fun _ he => he) (hbase _ rfl)
    · rw [heq]
      exact .dict keys values
  | @other v h =>
    cases v with
    | dict upper => cases h
    | null | bool | int | float | str | list =>
      rw [Value.deepMerge]
      · exact .other rfl
      · nofun

theorem Distinct.setAt (hv : Distinct v) (hbase : ∀ b, base = some b → Distinct b) :
    Distinct (setAt base ps v) := by
  induction ps generalizing base with
  | nil => exact hv.deepMerge hbase
  | cons p ps ih =>
    have hentries := distinct_entriesOf hbase
    exact hentries.setKey (ih fun b hb => hentries.lookup hb)

end Distinct

end Value

end DomainRag
