import DomainRag.Config.Overrides
import DomainRag.Lib.Except
import DomainRag.Lib.Program

/-! # Restricted configuration keys

The guard of `patch` compares the whole key of a call with the restricted keys. A row may still
reach a restricted key from above or below: with a tree that has it inside, with a value that cuts
it off, or with a longer path. As long as no call does, and replaces no row that does, the effective
value of every restricted key stays as it was.
-/

namespace DomainRag.Config

open Value (deepMerge setAt setKey entriesOf look blocks reaches blocksAt reachesAt overlay written
  Distinct)

section Rows

/-- The attributes that cannot be set to a dictionary. -/
def rigid : List String := ["__class__", "__weakref__"]

def Override.parts (row : Override) : List String :=
  if row.path = "" then [] else splitDots row.path

/-- A row without a path counts only if its value is a dictionary. -/
def Override.ignored (row : Override) : Bool := row.path = "" && !row.value.isDict

def Override.target (row : Override) : List String :=
  if row.category = "__dict__" then row.parts else row.category :: row.parts

def Override.touches (path : List String) (row : Override) : Bool :=
  row.active && !row.ignored && reachesAt row.target row.value path

def Override.cuts (path : List String) (row : Override) : Bool :=
  row.active && !row.ignored && blocksAt row.target row.value path

/-- What the row makes of the value at a path of the tree of a category. -/
def Override.leafEffect (category : String) (path : List String) (x : Option Value)
    (row : Override) : Option Value :=
  if row.category = category ∧ row.ignored = false then written row.parts row.value path x else x

theorem splitDots_ne_nil (path : String) : splitDots path ≠ [] := by
  unfold splitDots
  rw [ne_eq, List.map_eq_nil_iff]
  exact List.splitOnP_ne_nil _ _

theorem setNested_of_ignored {row : Override} (target : Value) (h : row.ignored = true) :
    setNested target row.path row.value = target := by
  simp only [Override.ignored, Bool.and_eq_true, decide_eq_true_eq, Bool.not_eq_true'] at h
  simp only [setNested, h.1, h.2, if_true, Bool.false_eq_true, if_false]

theorem setNested_eq {row : Override} (target : Value) (h : row.ignored = false) :
    setNested target row.path row.value = setAt (some target) row.parts row.value := by
  rw [setNested, Override.parts]
  split
  · rename_i hpath
    simp only [Override.ignored, hpath, decide_true, Bool.true_and, Bool.not_eq_false'] at h
    rw [if_pos h]
    rfl
  · rfl

theorem isDict_setNested {target value : Value} {path : String} (h : target.isDict = true) :
    (setNested target path value).isDict = true := by
  rw [setNested]
  split
  · split
    · cases value with
      | dict upper =>
        obtain ⟨kvs, -, heq⟩ | heq := Value.deepMerge_dict (some target) upper
        · rw [heq]
          rfl
        · rw [heq]
          rfl
      | null | bool | int | float | str | list => contradiction
    · exact h
  · cases hparts : splitDots path with
    | nil => exact absurd hparts (splitDots_ne_nil path)
    | cons p ps => rfl

end Rows

section Unfold

variable {category : String} {path : List String} {x : Option Value}

theorem get?_unfoldRow (nested : Dict String Value) (row : Override) :
    (unfoldRow nested row).get? category = if category = row.category then
      some (setNested ((nested.get? row.category).getD (.dict [])) row.path row.value)
      else nested.get? category :=
  Dict.get?_set _ _ _ _

/-- The tree of a category has the value at the path, and leaves the path open. -/
structure Tracks (path : List String) (tree x : Option Value) : Prop where
  look : look tree path = x
  distinct : ∀ v, tree = some v → v.Distinct
  opened : tree.any (blocks path) = false

theorem Tracks.unfoldRow {nested : Dict String Value} {row : Override} (hpath : path ≠ [])
    (h : Tracks path (nested.get? category) x)
    (hopen : row.category = category → row.ignored = false →
      blocksAt row.parts row.value path = false) :
    Tracks path ((unfoldRow nested row).get? category) (row.leafEffect category path x) := by
  rw [get?_unfoldRow, Override.leafEffect]
  by_cases hcategory : row.category = category
  · subst hcategory
    -- An empty tree stands for a missing one.
    have hbase : Tracks path (some ((nested.get? row.category).getD (.dict []))) x := by
      cases htree : nested.get? row.category with
      | some tree => exact htree ▸ h
      | none =>
        rw [htree] at h
        obtain ⟨k, ks, rfl⟩ := List.exists_cons_of_ne_nil hpath
        refine ⟨h.look, ?_, rfl⟩
        rintro _ ⟨⟩
        exact Value.distinct_empty
    rw [if_pos rfl]
    cases hignored : row.ignored with
    | true =>
      rw [setNested_of_ignored _ hignored, if_neg (by simp)]
      exact hbase
    | false =>
      rw [setNested_eq _ hignored, if_pos ⟨rfl, rfl⟩]
      refine ⟨?_, ?_, ?_⟩
      · rw [Value.look_setAt row.distinct (hopen rfl hignored), hbase.look]
      · rintro _ ⟨⟩
        exact row.distinct.setAt hbase.distinct
      · exact Value.blocks_setAt row.distinct hbase.opened (hopen rfl hignored)
  · rw [if_neg (Ne.symm hcategory), if_neg (fun hand => hcategory hand.1)]
    exact h

theorem tracks_unfoldRows {rows : List Override} (hpath : path ≠ [])
    (hopen : ∀ row ∈ rows, row.category = category → row.ignored = false →
      blocksAt row.parts row.value path = false) :
    Tracks path ((unfoldRows rows).get? category)
      (rows.foldl (Override.leafEffect category path) none) := by
  have hfold : ∀ (rows : List Override) (nested : Dict String Value) (x : Option Value),
      (∀ row ∈ rows, row.category = category → row.ignored = false →
        blocksAt row.parts row.value path = false) →
      Tracks path (nested.get? category) x →
      Tracks path ((rows.foldl unfoldRow nested).get? category)
        (rows.foldl (Override.leafEffect category path) x) := by
    intro rows
    induction rows with
    | nil => exact fun nested x _ h => h
    | cons row rows ih =>
      intro nested x hopen h
      refine ih _ _ (fun row' hrow' => hopen row' (List.mem_cons_of_mem row hrow')) ?_
      exact h.unfoldRow hpath (hopen row List.mem_cons_self)
  refine hfold rows .empty none hopen ⟨Value.look_none path, ?_, rfl⟩
  rintro _ ⟨⟩

theorem isDict_unfoldRows (rows : List Override) (category : String) (tree : Value)
    (h : (unfoldRows rows).get? category = some tree) : tree.isDict = true := by
  have hfold : ∀ (rows : List Override) (nested : Dict String Value),
      (∀ c v, nested.get? c = some v → v.isDict = true) →
      ∀ c v, (rows.foldl unfoldRow nested).get? c = some v → v.isDict = true := by
    intro rows
    induction rows with
    | nil => exact fun nested h => h
    | cons row rows ih =>
      intro nested hnested
      refine ih _ ?_
      intro c v hv
      rw [get?_unfoldRow] at hv
      split at hv
      · rw [← Option.some.inj hv]
        refine isDict_setNested ?_
        cases htree : nested.get? row.category with
        | none => rfl
        | some tree => exact hnested _ _ htree
      · exact hnested c v hv
  refine hfold rows .empty ?_ category tree h
  rintro _ _ ⟨⟩

theorem isSome_unfoldRows {rows : List Override} :
    ((unfoldRows rows).get? category).isSome = rows.any (·.category = category) := by
  have hfold : ∀ (rows : List Override) (nested : Dict String Value),
      ((rows.foldl unfoldRow nested).get? category).isSome =
        ((nested.get? category).isSome || rows.any (·.category = category)) := by
    intro rows
    induction rows with
    | nil => simp
    | cons row rows ih =>
      intro nested
      rw [List.foldl_cons, ih, get?_unfoldRow, List.any_cons]
      by_cases h : category = row.category
      · simp only [h, if_true, Option.isSome_some, decide_true, Bool.true_or, Bool.or_true]
      · simp only [h, Ne.symm h, if_false, decide_false, Bool.false_or]
  exact hfold rows .empty

end Unfold

section Load

variable {sources : ConfigSources} {config config' : Value} {c : String} {ks : List String}

theorem isDict_of_opened {v : Value} (hks : ks ≠ []) (h : blocks ks v = false) :
    v.isDict = true := by
  obtain ⟨k, rest, rfl⟩ := List.exists_cons_of_ne_nil hks
  cases v with
  | dict kvs => rfl
  | null | bool | int | float | str | list => cases h

theorem look_orElse (current : Value) (hks : ks ≠ []) :
    look (some (current.orElse (.dict []))) ks = look (some current) ks := by
  obtain ⟨k, rest, rfl⟩ := List.exists_cons_of_ne_nil hks
  rw [Value.orElse]
  split
  · rfl
  · rename_i hfalsy
    cases current with
    | dict kvs =>
      cases kvs with
      | nil => rfl
      | cons e kvs => exact absurd rfl hfalsy
    | null | bool | int | float | str | list => rfl

/-- What one override makes of the value at a path below a plain attribute. -/
theorem look_withOverride {e : String × Value} (hks : ks ≠ []) (hplain : c ≠ "__dict__")
    (hattr : (look (some config) [c]).isSome)
    (hdict : e.1 = "__dict__" → Tracks (c :: ks) (some e.2) none)
    (hown : e.1 = c → e.2.Distinct ∧ blocks ks e.2 = false)
    (h : withOverride sources config e = .ok config') :
    (look (some config') [c]).isSome ∧ look (some config') (c :: ks) =
      if e.1 = c then overlay (look (some config) (c :: ks)) (look (some e.2) ks)
      else look (some config) (c :: ks) := by
  rw [withOverride] at h
  split at h
  · rename_i hflat
    cases h
    have hne : e.1 ≠ c := by
      intro heq
      rw [isDict_of_opened hks (hown heq).2] at hflat
      cases hflat
    exact ⟨hattr, (if_neg hne).symm⟩
  · split at h
    · rename_i hnotFlat hcategory
      cases h
      have htracks := hdict hcategory
      have hopen : blocks [c] e.2 = false := by
        cases hvalue : e.2 with
        | dict kvs =>
          rw [blocks]
          cases kvs.lookup c <;> rfl
        | null | bool | int | float | str | list => simp [hvalue, Value.isDict] at hnotFlat
      rw [if_neg (fun heq => hplain (heq.symm.trans hcategory)),
        Value.look_deepMerge (htracks.distinct _ rfl) hopen,
        Value.look_deepMerge (htracks.distinct _ rfl) htracks.opened, htracks.look]
      refine ⟨?_, rfl⟩
      cases look (some e.2) [c] with
      | none => exact hattr
      | some w => rfl
    · split at h
      · cases h
      · split at h
        · cases h
        · split at h
          · rename_i hnone
            cases h
            have hne : e.1 ≠ c := by
              rintro rfl
              rw [Option.or_eq_none_iff] at hnone
              rw [hnone.1] at hattr
              cases hattr
            exact ⟨hattr, (if_neg hne).symm⟩
          · rename_i current hcurrent
            cases h
            simp only [look, entriesOf, Value.lookup_setKey]
            by_cases heq : c = e.1
            · obtain ⟨hdistinct, hopen⟩ := hown heq.symm
              rw [← heq] at hcurrent
              have hold : (entriesOf (some config)).lookup c = some current :=
                (Option.or_of_isSome hattr).symm.trans hcurrent
              rw [if_pos heq, if_pos heq.symm]
              refine ⟨rfl, ?_⟩
              rw [Value.look_deepMerge hdistinct hopen, look_orElse current hks, ← hold]
              rfl
            · rw [if_neg heq, if_neg (Ne.symm heq)]
              exact ⟨hattr, rfl⟩

theorem withOverride_ok {e : String × Value} (config : Value) (h : e.1 ∉ rigid) :
    ∃ config', withOverride sources config e = .ok config' := by
  have hclass : e.1 ≠ "__class__" := fun heq => h (heq ▸ by decide)
  have hweak : e.1 ≠ "__weakref__" := fun heq => h (heq ▸ by decide)
  rw [withOverride]
  split
  · exact ⟨_, rfl⟩
  · split
    · exact ⟨_, rfl⟩
    · split <;> exact ⟨_, rfl⟩

/-- The overrides of all categories: only the tree of the path's own category writes at it. -/
theorem look_foldlM {es : List (String × Value)} (hks : ks ≠ []) (hplain : c ≠ "__dict__")
    (hattr : (look (some config) [c]).isSome)
    (hnodup : (es.map Prod.fst).Nodup) (hrigid : ∀ e ∈ es, e.1 ∉ rigid)
    (hdict : ∀ e ∈ es, e.1 = "__dict__" → Tracks (c :: ks) (some e.2) none)
    (hown : ∀ e ∈ es, e.1 = c → e.2.Distinct ∧ blocks ks e.2 = false) :
    ∃ config', es.foldlM (withOverride sources) config = .ok config' ∧
      look (some config') (c :: ks) =
        overlay (look (some config) (c :: ks)) (look (es.lookup c) ks) := by
  induction es generalizing config with
  | nil =>
    refine ⟨config, rfl, ?_⟩
    rw [List.lookup_nil, Value.look_none]
    rfl
  | cons e es ih =>
    obtain ⟨hnot, hrest⟩ := List.nodup_cons.mp hnodup
    obtain ⟨config₁, hstep⟩ : ∃ config', withOverride sources config e = .ok config' :=
      withOverride_ok config (hrigid e List.mem_cons_self)
    obtain ⟨hattr₁, hlook₁⟩ := look_withOverride hks hplain hattr
      (hdict e List.mem_cons_self) (hown e List.mem_cons_self) hstep
    obtain ⟨config₂, hfold, hlook₂⟩ := ih hattr₁ hrest
      (fun e' he' => hrigid e' (List.mem_cons_of_mem e he'))
      (fun e' he' => hdict e' (List.mem_cons_of_mem e he'))
      (fun e' he' => hown e' (List.mem_cons_of_mem e he'))
    refine ⟨config₂, ?_, ?_⟩
    · rw [List.foldlM_cons, hstep]
      exact hfold
    · rw [hlook₂, hlook₁]
      obtain ⟨k, v⟩ := e
      by_cases hk : k = c
      · subst hk
        rw [if_pos rfl, Value.lookup_eq_none_of_notMem hnot, Value.look_none,
          List.lookup_cons_self]
        rfl
      · rw [if_neg hk, Value.lookup_cons_ne (Ne.symm hk)]

/-- A category that cannot be set makes the load raise. -/
theorem foldlM_rigid {es : List (String × Value)} {e : String × Value} (he : e ∈ es)
    (hrigid : e.1 ∈ rigid) (hvalue : e.2.isDict = true) (config : Value) :
    ∃ err, es.foldlM (withOverride sources) config = .error err := by
  induction es generalizing config with
  | nil => exact absurd he List.not_mem_nil
  | cons e' es ih =>
    rw [List.foldlM_cons]
    cases hstep : withOverride sources config e' with
    | error err => exact ⟨err, rfl⟩
    | ok config' =>
      obtain rfl | he := List.mem_cons.mp he
      · have hraises : ∃ err, withOverride sources config e = .error err := by
          obtain ⟨k, v⟩ := e
          obtain rfl | hrigid := List.mem_cons.mp hrigid
          · simp [withOverride, hvalue]
          · obtain rfl := List.mem_singleton.mp hrigid
            simp [withOverride, hvalue]
        obtain ⟨err, herr⟩ := hraises
        rw [herr] at hstep
        cases hstep
      · exact ih he config'

theorem keys_of_mapM {f : String → Except Exc Value} {cs : List String}
    {sections : List (String × Value)}
    (h : (cs.mapM fun c => do return (c, ← f c)) = .ok sections) :
    sections.map Prod.fst = cs := by
  rw [mapM_eq_ok_iff] at h
  induction h with
  | nil => rfl
  | cons hload _ ih =>
    obtain ⟨v, -, hv⟩ := Except.bind_eq_ok_iff.mp hload
    cases hv
    rw [List.map_cons, ih]

theorem loadFromDisk_attr {domainId : String} (hc : c ∈ categories)
    (h : loadFromDisk sources domainId = .ok config) : (look (some config) [c]).isSome := by
  rw [loadFromDisk] at h
  obtain ⟨sections, hsections, h⟩ := Except.bind_eq_ok_iff.mp h
  obtain ⟨mode, -, h⟩ := Except.bind_eq_ok_iff.mp h
  cases h
  have hkeys := keys_of_mapM hsections
  obtain ⟨e, he, rfl⟩ := List.mem_map.mp (hkeys ▸ hc)
  refine List.lookup_isSome_iff.mpr ⟨e, ?_, beq_self_eq_true e.1⟩
  exact List.mem_append_left _ (List.mem_cons_of_mem _ he)

end Load

section Effective

variable {sources : ConfigSources} {service : TenantConfigService} {db : ConfigDb}
  {domainId c : String} {ks : List String}

theorem applyAll_get? (es : List (String × Value)) (s : TenantConfigService) :
    ((es.foldl (fun s e => s.applyRuntimeOverride domainId e.1 e.2) s).runtimeOverrides.get?
        domainId).getD .empty = ((s.runtimeOverrides.get? domainId).getD .empty).update es := by
  induction es generalizing s with
  | nil => rfl
  | cons e es ih =>
    rw [List.foldl_cons, ih, TenantConfigService.applyRuntimeOverride, Dict.get?_set, if_pos rfl]
    rfl

/-- After a reload the service has exactly the trees of the rows for the domain. -/
theorem get?_reloaded (category : String) :
    (((reloadTenantConfig service db domainId).runtimeOverrides.get? domainId).getD .empty).get?
      category = (unfoldRows (db.activeRows domainId)).get? category := by
  rw [reloadTenantConfig, applyAll_get?, TenantConfigService.clearRuntimeOverrides,
    Dict.get?_erase, if_pos rfl, Option.getD_none, Dict.get?_update, Dict.get?_empty, Option.or_none]

/-- What the rows of a domain make of the value at a path below a category. -/
def valueFrom (sources : ConfigSources) (domainId c : String) (ks : List String)
    (rows : List Override) : Option Value :=
  if rows.any (·.category ∈ rigid) then none
  else
    match loadFromDisk sources domainId with
    | .error _ => none
    | .ok config => overlay (look (some config) (c :: ks))
        (rows.foldl (Override.leafEffect c ks) none)

/-- The row leaves the path to its own category: it does not cut it off, and it does not come to
it through the instance dictionary. -/
structure Override.Regular (path : List String) (row : Override) : Prop where
  opened : row.cuts path = false
  plain : row.category = "__dict__" → row.touches path = false

theorem Override.Regular.opened_below {row : Override} (h : row.Regular (c :: ks))
    (hplain : c ≠ "__dict__") (hactive : row.active = true) (hcategory : row.category = c)
    (hignored : row.ignored = false) : blocksAt row.parts row.value ks = false := by
  have hcuts := h.opened
  have htarget : row.target = c :: row.parts := by
    rw [Override.target, hcategory, if_neg hplain]
  simpa only [Override.cuts, hactive, hignored, htarget, blocksAt, decide_true, Bool.true_and,
    Bool.not_false] using hcuts

theorem Override.Regular.reachesAt_dict {row : Override} {path : List String}
    (h : row.Regular path) (hactive : row.active = true) (hcategory : row.category = "__dict__")
    (hignored : row.ignored = false) : reachesAt row.parts row.value path = false := by
  have htouches := h.plain hcategory
  have htarget : row.target = row.parts := by
    rw [Override.target, if_pos hcategory]
  simpa only [Override.touches, hactive, hignored, htarget, Bool.true_and, Bool.not_false]
    using htouches

/-- The tree of the instance dictionary does not come to the path. -/
theorem tracks_dict {rows : List Override} (hactive : ∀ row ∈ rows, row.active = true)
    (hregular : ∀ row ∈ rows, row.Regular (c :: ks)) :
    Tracks (c :: ks) ((unfoldRows rows).get? "__dict__") none := by
  have hopen : ∀ row ∈ rows, row.category = "__dict__" → row.ignored = false →
      blocksAt row.parts row.value (c :: ks) = false := by
    intro row hrow hcategory hignored
    have hfree := (hregular row hrow).reachesAt_dict (hactive row hrow) hcategory hignored
    exact (Value.of_not_reachesAt (x := none) hfree).1
  have hkept : ∀ x, rows.foldl (Override.leafEffect "__dict__" (c :: ks)) x = x := by
    clear hopen
    induction rows with
    | nil => exact fun x => rfl
    | cons row rows ih =>
      intro x
      have heffect : row.leafEffect "__dict__" (c :: ks) x = x := by
        rw [Override.leafEffect]
        split
        · rename_i hand
          have hfree := (hregular row List.mem_cons_self).reachesAt_dict
            (hactive row List.mem_cons_self) hand.1 hand.2
          exact (Value.of_not_reachesAt hfree).2
        · rfl
      rw [List.foldl_cons, heffect]
      exact ih (fun row' hrow' => hactive row' (List.mem_cons_of_mem row hrow'))
        (fun row' hrow' => hregular row' (List.mem_cons_of_mem row hrow')) x
  have htracks := tracks_unfoldRows (List.cons_ne_nil c ks) hopen
  rwa [hkept none] at htracks

/-- The effective value at a path is the one that the rows of its category make of the value in
the files. -/
theorem effective_eq (hks : ks ≠ []) (hc : c ∈ categories) (hplain : c ≠ "__dict__")
    (hregular : ∀ row ∈ db.activeRows domainId, row.Regular (c :: ks)) :
    effective sources service db domainId (c :: ks) =
      valueFrom sources domainId c ks (db.activeRows domainId) := by
  generalize hrows : db.activeRows domainId = rows at hregular
  have hactive : ∀ row ∈ rows, row.active = true := by
    intro row hrow
    rw [← hrows, ConfigDb.activeRows, List.mem_filter] at hrow
    exact (of_decide_eq_true hrow.2).1
  have hget : ∀ category, (((reloadTenantConfig service db domainId).runtimeOverrides.get?
      domainId).getD .empty).get? category = (unfoldRows (db.activeRows domainId)).get? category :=
    get?_reloaded
  rw [hrows] at hget
  rw [effective, TenantConfigService.load, valueFrom]
  generalize ((reloadTenantConfig service db domainId).runtimeOverrides.get? domainId).getD
    .empty = trees at hget
  cases hdisk : loadFromDisk sources domainId with
  | error e => exact (ite_self none).symm
  | ok config =>
    by_cases hany : rows.any (·.category ∈ rigid) = true
    · obtain ⟨row, hrow, hcategory⟩ := List.any_eq_true.mp hany
      have hsome : ((unfoldRows rows).get? row.category).isSome := by
        rw [isSome_unfoldRows]
        exact List.any_eq_true.mpr ⟨row, hrow, decide_eq_true rfl⟩
      obtain ⟨tree, htree⟩ := Option.isSome_iff_exists.mp hsome
      obtain ⟨err, herr⟩ : ∃ err, trees.entries.foldlM (withOverride sources) config =
        .error err := foldlM_rigid (e := (row.category, tree))
          (Dict.get?_eq_some_iff.mp ((hget _).trans htree)) (of_decide_eq_true hcategory)
          (isDict_unfoldRows rows _ tree htree) config
      rw [if_pos hany]
      simp only [bind, Except.bind, herr]
    · have htracks : Tracks ks ((unfoldRows rows).get? c)
        (rows.foldl (Override.leafEffect c ks) none) := tracks_unfoldRows hks
        fun row hrow => (hregular row hrow).opened_below hplain (hactive row hrow)
      have hnone : ∀ e ∈ trees.entries, e.1 ∉ rigid := by
        intro e he hmem
        refine hany (List.any_eq_true.mpr ?_)
        have hsome : ((unfoldRows rows).get? e.1).isSome := by
          rw [← hget, Dict.get?_eq_some_iff.mpr he]
          rfl
        rw [isSome_unfoldRows] at hsome
        obtain ⟨row, hrow, hcategory⟩ := List.any_eq_true.mp hsome
        exact ⟨row, hrow, decide_eq_true (of_decide_eq_true hcategory ▸ hmem)⟩
      have hdict : ∀ e ∈ trees.entries, e.1 = "__dict__" → Tracks (c :: ks) (some e.2) none := by
        intro e he hcategory
        have htree := (hget e.1).symm.trans (Dict.get?_eq_some_iff.mpr he)
        rw [hcategory] at htree
        exact htree ▸ tracks_dict hactive hregular
      have hown : ∀ e ∈ trees.entries, e.1 = c → e.2.Distinct ∧ blocks ks e.2 = false := by
        rintro e he rfl
        have htree := (hget e.1).symm.trans (Dict.get?_eq_some_iff.mpr he)
        rw [htree] at htracks
        exact ⟨htracks.distinct _ rfl, htracks.opened⟩
      obtain ⟨config', hfold, hlook⟩ : ∃ config',
          trees.entries.foldlM (withOverride sources) config = .ok config' ∧
          look (some config') (c :: ks) =
            overlay (look (some config) (c :: ks)) (look (trees.entries.lookup c) ks) :=
        look_foldlM hks hplain (loadFromDisk_attr hc hdisk) trees.nodup hnone hdict hown
      rw [if_neg hany]
      simp only [bind, Except.bind, hfold, hlook, Dict.lookup_entries, hget, htracks.look]

end Effective

section Steps

variable {sources : ConfigSources} {service : TenantConfigService} {db : ConfigDb}
  {call : PatchCall} {domainId c : String} {ks path : List String}

/-- A write keeps the rows of a kind if neither the row nor the one that it replaces is of it. -/
theorem filter_upsert {rows : List Override} {row : Override} {p : Override → Bool}
    (position : Nat) (hnew : p row = false)
    (hold : ∀ old ∈ rows, old.key = row.key → p old = false) :
    (upsert rows row position).filter p = rows.filter p := by
  have hkept : (rows.filter (·.key ≠ row.key)).filter p = rows.filter p := by
    rw [List.filter_filter]
    refine List.filter_congr ?_
    intro old hmem
    by_cases hkey : old.key = row.key
    · simp only [hold old hmem hkey, Bool.false_and]
    · simp only [ne_eq, hkey, not_false_eq_true, decide_true, Bool.and_true]
  rw [upsert, List.filter_append, List.filter_cons, hnew, if_neg Bool.false_ne_true,
    ← List.filter_append, List.take_append_drop, hkept]

theorem mem_upsert {rows : List Override} {row old : Override} {position : Nat}
    (h : old ∈ upsert rows row position) : old = row ∨ old ∈ rows := by
  obtain h | h := List.mem_append.mp h
  · exact .inr (List.mem_filter.mp (List.mem_of_mem_take h)).1
  · obtain h | h := List.mem_cons.mp h
    · exact .inl h
    · exact .inr (List.mem_filter.mp (List.mem_of_mem_drop h)).1

/-- The rows that decide what stands at a path. -/
def Override.decides (path : List String) (row : Override) : Bool :=
  row.category ∈ rigid || row.touches path

theorem Override.leafEffect_of_not_touches {row : Override} (hplain : c ≠ "__dict__")
    (hactive : row.active = true) (h : row.touches (c :: ks) = false) (x : Option Value) :
    row.leafEffect c ks x = x := by
  rw [Override.leafEffect]
  split
  · rename_i hand
    have htarget : row.target = c :: row.parts := by
      rw [Override.target, hand.1, if_neg hplain]
    simp only [Override.touches, hactive, hand.2, htarget, reachesAt, decide_true, Bool.true_and,
      Bool.not_false] at h
    exact (Value.of_not_reachesAt h).2
  · rfl

/-- Rows that do not decide what stands at a path can be left out. -/
theorem valueFrom_filter {rows : List Override} (hplain : c ≠ "__dict__")
    (hactive : ∀ row ∈ rows, row.active = true) :
    valueFrom sources domainId c ks rows =
      valueFrom sources domainId c ks (rows.filter (Override.decides (c :: ks))) := by
  have hany : (rows.filter (Override.decides (c :: ks))).any (·.category ∈ rigid) =
      rows.any (·.category ∈ rigid) := by
    rw [List.any_filter]
    refine List.any_congr rfl ?_
    intro row
    rw [Override.decides]
    by_cases h : row.category ∈ rigid
    · simp only [h, decide_true, Bool.true_or, Bool.and_self]
    · simp only [h, decide_false, Bool.and_false]
  have hfold : (rows.filter (Override.decides (c :: ks))).foldl (Override.leafEffect c ks) none =
      rows.foldl (Override.leafEffect c ks) none := by
    rw [List.foldl_filter]
    refine List.foldl_ext _ _ _ ?_
    intro x row hrow
    split
    · rfl
    · rename_i h
      simp only [Override.decides, Bool.or_eq_true, not_or, Bool.not_eq_true] at h
      exact (Override.leafEffect_of_not_touches hplain (hactive row hrow) h.2 x).symm
  rw [valueFrom, valueFrom, hany, hfold]

/-- The keys that only a platform admin may change, as paths in the configuration. -/
def restrictedPaths : List (List String) := platformAdminRestrictedKeys.map splitDots

/-- A call leaves the restricted paths alone: neither the row that it writes nor the one that it
replaces reaches one of them, and the other rows of the domain only write at them from their own
category, through dictionaries. -/
structure PatchCall.Contained (call : PatchCall) (db : ConfigDb) : Prop where
  settable : call.category ∉ rigid
  written : ∀ path ∈ restrictedPaths, (call.row db).touches path = false
  replaced : ∀ path ∈ restrictedPaths, ∀ old ∈ db.overrides, old.key = (call.row db).key →
    old.touches path = false
  regular : ∀ path ∈ restrictedPaths, ∀ row ∈ db.activeRows call.domainId, row.Regular path

/-- The step condition: a call that is carried out is contained. -/
def PatchCall.Guarded (db : ConfigDb) (call : PatchCall) : Prop :=
  (∃ result, call.patch db = .ok result) → call.Contained db

theorem PatchCall.overrides_after {record : ConfigChangeRecord} {db' : ConfigDb}
    (h : call.patch db = .ok (record, db')) :
    db'.overrides = upsert db.overrides (call.row db) call.position := by
  rw [PatchCall.patch] at h
  split at h
  · cases h
  · split at h
    · cases h
    · cases h
      rfl

theorem active_of_mem {row : Override} (h : row ∈ db.activeRows domainId) : row.active = true :=
  (of_decide_eq_true (List.mem_filter.mp h).2).1

theorem activeRows_other {db' : ConfigDb} (hne : call.domainId ≠ domainId)
    (h : db'.overrides = upsert db.overrides (call.row db) call.position) :
    db'.activeRows domainId = db.activeRows domainId := by
  have hother : ∀ row : Override, row.domainId = call.domainId →
      decide (row.active = true ∧ row.domainId = domainId) = false :=
    fun row hrow => decide_eq_false fun hand => hne (hrow.symm.trans hand.2)
  rw [ConfigDb.activeRows, ConfigDb.activeRows, h]
  refine filter_upsert call.position (hother _ rfl) ?_
  intro old _ hkey
  exact hother old (congrArg Prod.fst hkey)

/-- The rows that decide what stands at a restricted path stay as they are. -/
theorem decidingRows_after {db' : ConfigDb} (hcontained : call.Contained db)
    (hpath : path ∈ restrictedPaths)
    (h : db'.overrides = upsert db.overrides (call.row db) call.position) :
    (db'.activeRows domainId).filter (Override.decides path) =
      (db.activeRows domainId).filter (Override.decides path) := by
  have hundecided : ∀ row : Override, row.category = call.category → row.touches path = false →
      row.decides path = false := by
    intro row hcategory htouches
    rw [Override.decides, hcategory, htouches, decide_eq_false hcontained.settable]
    rfl
  simp only [ConfigDb.activeRows, List.filter_filter, h]
  refine filter_upsert call.position ?_ ?_
  · rw [hundecided _ rfl (hcontained.written path hpath), Bool.false_and]
  · intro old hmem hkey
    have hcategory : old.category = call.category := congrArg (fun key => key.2.1) hkey
    rw [hundecided old hcategory (hcontained.replaced path hpath old hmem hkey), Bool.false_and]

theorem Override.regular_of_not_touches {row : Override} (h : row.touches path = false) :
    row.Regular path := by
  refine ⟨?_, fun _ => h⟩
  rw [Override.touches] at h
  rw [Override.cuts]
  by_cases hcounts : (row.active && !row.ignored) = true
  · rw [hcounts, Bool.true_and] at h ⊢
    exact (Value.of_not_reachesAt (x := none) h).1
  · rw [Bool.eq_false_iff.mpr hcounts, Bool.false_and]

theorem regular_after {db' : ConfigDb} (hcontained : call.Contained db)
    (hpath : path ∈ restrictedPaths)
    (h : db'.overrides = upsert db.overrides (call.row db) call.position) :
    ∀ row ∈ db'.activeRows call.domainId, row.Regular path := by
  intro row hrow
  obtain ⟨hmem, hkind⟩ := List.mem_filter.mp hrow
  rw [h] at hmem
  obtain rfl | hmem := mem_upsert hmem
  · exact Override.regular_of_not_touches (hcontained.written path hpath)
  · exact hcontained.regular path hpath row (List.mem_filter.mpr ⟨hmem, hkind⟩)

theorem restricted_shape (hpath : path ∈ restrictedPaths) :
    ∃ c ks, path = c :: ks ∧ ks ≠ [] ∧ c ∈ categories ∧ c ≠ "__dict__" := by
  have hall : ∀ path ∈ restrictedPaths, path.tail ≠ [] ∧
      path.head?.any (fun c => c ∈ categories ∧ c ≠ "__dict__") = true := by decide +kernel
  obtain ⟨htail, hhead⟩ := hall path hpath
  cases path with
  | nil => exact absurd rfl htail
  | cons c ks => exact ⟨c, ks, rfl, htail, of_decide_eq_true hhead⟩

/-- A call that meets the condition keeps the effective value at every restricted path of every
domain. -/
theorem effective_after (hguarded : call.Guarded db) (hpath : path ∈ restrictedPaths) :
    effective sources service (call.after db) domainId path =
      effective sources service db domainId path := by
  rw [PatchCall.after]
  cases hpatch : call.patch db with
  | error e => rfl
  | ok result =>
    obtain ⟨record, db'⟩ := result
    have hrows := PatchCall.overrides_after hpatch
    by_cases hdomain : call.domainId = domainId
    · subst hdomain
      have hcontained := hguarded ⟨_, hpatch⟩
      obtain ⟨c, ks, rfl, hks, hc, hplain⟩ := restricted_shape hpath
      rw [effective_eq hks hc hplain (regular_after hcontained hpath hrows),
        effective_eq hks hc hplain (hcontained.regular _ hpath),
        valueFrom_filter hplain fun _ h => active_of_mem h,
        decidingRows_after hcontained hpath hrows,
        ← valueFrom_filter hplain fun _ h => active_of_mem h]
    · have hsame := activeRows_other hdomain hrows
      simp only [effective, reloadTenantConfig, hsame]

/-- For every sequence of patches: after a reload the effective configuration of every domain has
the value that it had before at every restricted path, as long as each patch that is carried out is
contained. -/
theorem restricted_values_kept (sources : ConfigSources) (service : TenantConfigService)
    (db : ConfigDb) (calls : List PatchCall)
    (hguarded : Along PatchCall.after PatchCall.Guarded calls db) (domainId : String) :
    ∀ path ∈ restrictedPaths,
      effective sources service (calls.foldl PatchCall.after db) domainId path =
        effective sources service db domainId path := by
  intro path hpath
  refine hguarded.final (I := fun db' => effective sources service db' domainId path =
    effective sources service db domainId path) rfl ?_
  intro call _ db' hsame hcall
  exact (effective_after hcall hpath).trans hsame

end Steps

section Endpoint

theorem distinct_str (s : String) : (Value.str s).Distinct := .other rfl

def slmSources : ConfigSources where
  platform category :=
    if category = "model" then
      .dict [("endpoints", .dict [("tenant_slm", .dict [("base_url", .str "http://slm")])])]
    else .null
  tenant _ := none
  classAttrs _ := none

def slmPath : List String := splitDots "model.endpoints.tenant_slm.base_url"

def slmPatch (key : String) (value : Value) (h : value.Distinct) : PatchCall where
  domainId := "hr"
  category := "model"
  key := key
  value := value
  distinct := h
  actor := "clerk"
  isPlatformAdmin := false

def directPatch : PatchCall :=
  slmPatch "endpoints.tenant_slm.base_url" (.str "http://rogue") (distinct_str _)

def ancestorPatch : PatchCall :=
  slmPatch "endpoints" (.dict [("tenant_slm", .dict [("base_url", .str "http://rogue")])])
    (Value.distinct_single _ (Value.distinct_single _ (distinct_str _)))

def timeoutPatch : PatchCall :=
  slmPatch "endpoints.tenant_slm.timeout" (.str "30s") (distinct_str _)

theorem directPatch_rejected (db : ConfigDb) : ∃ e, directPatch.patch db = .error e := by
  have hrestricted : isPlatformAdminRestricted directPatch.category directPatch.key = true := by
    decide +kernel
  rw [PatchCall.patch, if_pos ⟨hrestricted, rfl⟩]
  exact ⟨_, rfl⟩

theorem eq_some_str_of_any {x : Option Value} {s : String}
    (h : x.any (·.eq (.str s)) = true) : x = some (.str s) := by
  cases x with
  | none => cases h
  | some v => exact congrArg some (Value.eq_str_iff.mp h)

/-- The tree that holds the restricted key passes the guard and changes its effective value. -/
theorem ancestor_patch_changes_endpoint :
    slmPath ∈ restrictedPaths ∧ ancestorPatch.isPlatformAdmin = false ∧
      effective slmSources {} {} "hr" slmPath = some (.str "http://slm") ∧
      effective slmSources {} ([ancestorPatch].foldl PatchCall.after {}) "hr" slmPath =
        some (.str "http://rogue") :=
  ⟨List.mem_map_of_mem (by decide), rfl, eq_some_str_of_any (by decide +kernel),
    eq_some_str_of_any (by decide +kernel)⟩

/-- The direct write is rejected, and a write beside the restricted key keeps it. -/
theorem timeout_patch_keeps_endpoint :
    slmPath ∈ restrictedPaths ∧
      effective slmSources {} ([directPatch, timeoutPatch].foldl PatchCall.after {}) "hr" slmPath =
        effective slmSources {} {} "hr" slmPath := by
  have hmem : slmPath ∈ restrictedPaths := List.mem_map_of_mem (by decide)
  have hdb : directPatch.after {} = {} := by
    obtain ⟨e, he⟩ := directPatch_rejected {}
    rw [PatchCall.after, he]
  refine ⟨hmem, restricted_values_kept slmSources {} {} [directPatch, timeoutPatch]
    ⟨?_, ?_, trivial⟩ "hr" slmPath hmem⟩
  · rintro ⟨result, hresult⟩
    obtain ⟨e, he⟩ := directPatch_rejected {}
    rw [he] at hresult
    cases hresult
  · intro _
    rw [hdb]
    refine ⟨by decide, by decide +kernel, ?_, ?_⟩
    · exact fun _ _ _ hold => absurd hold List.not_mem_nil
    · exact fun _ _ _ hrow => absurd hrow List.not_mem_nil

end Endpoint

end DomainRag.Config
