import DomainRag.Config.Preload
import DomainRag.Lib.Contents

/-! # The order of the rows

Both queries leave the order of the rows to the database, and the trees that they are unfolded to
depend on it where two rows put different things at one path. A preload besides keeps the trees of
the categories that have no row any more, which a reload clears.
-/

namespace DomainRag.Config

open Value (contents nest Distinct)

section Trees

variable {category : String}

/-- What a row contributes to the tree of its category. -/
def Override.tree (row : Override) : Value :=
  if row.ignored then .dict [] else nest row.parts row.value

/-- Two rows put the same at each path at which both put something. -/
def Override.Agrees (row row' : Override) : Prop :=
  (contents (some row.tree)).Compatible (contents (some row'.tree))

theorem Override.distinct_tree (row : Override) : row.tree.Distinct := by
  rw [Override.tree]
  split
  · exact Value.distinct_empty
  · exact Value.distinct_nest row.distinct row.parts

/-- A row lays its tree over the tree of its category. -/
theorem contents_setNested {target : Value} (h : target.isDict = true) (row : Override) :
    contents (some (setNested target row.path row.value)) =
      (contents (some target)).merge (contents (some row.tree)) := by
  cases hignored : row.ignored with
  | true =>
    obtain ⟨kvs, rfl⟩ := Value.exists_of_isDict h
    rw [setNested_of_ignored _ hignored, Override.tree, if_pos hignored]
    exact (Value.merge_empty kvs).symm
  | false =>
    rw [setNested_eq _ hignored, Override.tree, if_neg (by simp [hignored])]
    exact Value.contents_setAt row.distinct _ _

theorem Override.isDict_tree (row : Override) : row.tree.isDict = true := by
  cases hignored : row.ignored with
  | true =>
    rw [Override.tree, if_pos hignored]
    rfl
  | false =>
    rw [Override.tree, if_neg (by simp [hignored]), Override.parts]
    split
    · rename_i hpath
      simp only [Override.ignored, hpath, decide_true, Bool.true_and, Bool.not_eq_false'] at hignored
      exact hignored
    · cases hparts : splitDots row.path with
      | nil => exact absurd hparts (splitDots_ne_nil row.path)
      | cons p ps => rfl

/-- The tree of a category is made of the trees of its rows, one laid over the other. -/
theorem contents_unfoldRows (rows : List Override) :
    contents ((unfoldRows rows).get? category) =
      ((rows.filter (·.category = category)).map Override.tree).foldl
        (fun f t => f.merge (contents (some t))) (contents none) := by
  have hfold : ∀ (rows : List Override) (nested : Dict String Value),
      (∀ tree, nested.get? category = some tree → tree.isDict = true) →
      contents ((rows.foldl unfoldRow nested).get? category) =
        ((rows.filter (·.category = category)).map Override.tree).foldl
          (fun f t => f.merge (contents (some t))) (contents (nested.get? category)) := by
    intro rows
    induction rows with
    | nil => exact fun nested _ => rfl
    | cons row rows ih =>
      intro nested hdict
      rw [List.foldl_cons, List.filter_cons]
      by_cases hcategory : row.category = category
      · subst hcategory
        have hbase : ((nested.get? row.category).getD (.dict [])).isDict = true := by
          cases htree : nested.get? row.category with
          | none => rfl
          | some tree => exact hdict tree htree
        -- An empty tree stands for a missing one.
        have hstep : contents ((unfoldRow nested row).get? row.category) =
            (contents (nested.get? row.category)).merge (contents (some row.tree)) := by
          rw [get?_unfoldRow, if_pos rfl, contents_setNested hbase]
          cases nested.get? row.category with
          | some tree => rfl
          | none =>
            obtain ⟨kvs, hkvs⟩ := Value.exists_of_isDict row.isDict_tree
            rw [Value.none_merge, hkvs]
            exact Value.empty_merge kvs
        rw [ih, hstep, if_pos (decide_eq_true rfl)]
        · rfl
        · intro tree htree
          rw [get?_unfoldRow, if_pos rfl] at htree
          exact Option.some.inj htree ▸ isDict_setNested hbase
      · have hsame : (unfoldRow nested row).get? category = nested.get? category := by
          rw [get?_unfoldRow, if_neg (Ne.symm hcategory)]
        rw [ih _ (hsame ▸ hdict), hsame, if_neg (by simpa using hcategory)]
  exact hfold rows .empty nofun

end Trees

section Order

variable {service : TenantConfigService} {db : ConfigDb} {domainId : String}

/-- The same trees, whatever the order of the keys in their dictionaries. -/
def SameTrees (trees trees' : Dict String Value) : Prop :=
  ∀ category, contents (trees.get? category) = contents (trees'.get? category)

/-- Neither load depends on the order in which the database returns the rows, and both install the
same trees for every tenant. -/
structure OrderFree (service : TenantConfigService) (db : ConfigDb) : Prop where
  preload : ∀ rows, rows.Perm db.overrides → ∀ domainId,
    SameTrees ((preloadTenantConfigs service { db with overrides := rows }).runtime domainId)
      ((preloadTenantConfigs service db).runtime domainId)
  reload : ∀ rows, rows.Perm db.overrides → ∀ domainId,
    SameTrees ((reloadTenantConfig service { db with overrides := rows } domainId).runtime domainId)
      ((reloadTenantConfig service db domainId).runtime domainId)
  same : ∀ domainId, SameTrees ((preloadTenantConfigs service db).runtime domainId)
    ((reloadTenantConfig service db domainId).runtime domainId)

/-- Any two active rows of a tenant and a category agree, and the service has no trees of a category
without rows. -/
structure Settled (service : TenantConfigService) (db : ConfigDb) : Prop where
  agree : ∀ row ∈ db.overrides, ∀ row' ∈ db.overrides, row.active = true → row'.active = true →
    row.domainId = row'.domainId → row.category = row'.category → row.Agrees row'
  known : ∀ domainId category, ((service.runtime domainId).get? category).isSome →
    ∃ row ∈ db.activeRows domainId, row.category = category

theorem contents_preloaded (category : String) :
    contents (((preloadTenantConfigs service db).runtime domainId).get? category) =
      contents (((unfoldRows (db.activeRows domainId)).get? category).or
        ((service.runtime domainId).get? category)) := by
  rw [get?_preloaded]

theorem contents_reloaded (category : String) :
    contents (((reloadTenantConfig service db domainId).runtime domainId).get? category) =
      contents ((unfoldRows (db.activeRows domainId)).get? category) :=
  congrArg contents (get?_reloaded category)

/-- The trees of a tenant's rows do not depend on their order if the rows agree. -/
theorem Settled.contents_perm (h : Settled service db) {rows : List Override}
    (hperm : rows.Perm db.overrides) (domainId category : String) :
    contents ((unfoldRows (({ db with overrides := rows } : ConfigDb).activeRows domainId)).get?
      category) = contents ((unfoldRows (db.activeRows domainId)).get? category) := by
  rw [contents_unfoldRows, contents_unfoldRows]
  have htrees := ((hperm.filter fun row => row.active ∧ row.domainId = domainId).filter
    (·.category = category)).map Override.tree
  refine (Value.contents_foldl_perm htrees.symm none ?_ ?_).symm
  · intro tree htree
    obtain ⟨row, -, rfl⟩ := List.mem_map.mp htree
    exact row.distinct_tree
  · intro tree htree tree' htree'
    obtain ⟨row, hrow, rfl⟩ := List.mem_map.mp htree
    obtain ⟨row', hrow', rfl⟩ := List.mem_map.mp htree'
    simp only [List.mem_filter, decide_eq_true_eq] at hrow hrow'
    obtain ⟨⟨hmem, hactive, hdomain⟩, hcategory⟩ := hrow
    obtain ⟨⟨hmem', hactive', hdomain'⟩, hcategory'⟩ := hrow'
    exact h.agree row hmem row' hmem' hactive hactive' (hdomain.trans hdomain'.symm)
      (hcategory.trans hcategory'.symm)

theorem Settled.orderFree (h : Settled service db) : OrderFree service db where
  preload rows hperm domainId category := by
    have hsame := h.contents_perm hperm domainId category
    have hroot := congrFun hsame []
    rw [contents_preloaded, contents_preloaded]
    cases htree : (unfoldRows (db.activeRows domainId)).get? category with
    | none =>
      rw [htree, Value.contents_none, Value.contents_root_eq_none_iff] at hroot
      rw [hroot]
    | some tree =>
      rw [htree] at hroot hsame
      obtain ⟨tree', htree'⟩ : ∃ tree', (unfoldRows (({ db with overrides := rows } :
          ConfigDb).activeRows domainId)).get? category = some tree' :=
        Option.ne_none_iff_exists'.mp fun hnone => by
          rw [hnone] at hroot
          cases hroot
      rw [htree'] at hsame ⊢
      exact hsame
  reload rows hperm domainId category := by
    rw [contents_reloaded, contents_reloaded]
    exact h.contents_perm hperm domainId category
  same domainId category := by
    rw [contents_preloaded, contents_reloaded]
    cases htree : (unfoldRows (db.activeRows domainId)).get? category with
    | some tree => rfl
    | none =>
      cases hold : (service.runtime domainId).get? category with
      | none => rfl
      | some old =>
        obtain ⟨row, hrow, hcategory⟩ := h.known domainId category (hold ▸ rfl)
        have hsome : ((unfoldRows (db.activeRows domainId)).get? category).isSome :=
          isSome_unfoldRows.trans (List.any_eq_true.mpr ⟨row, hrow, decide_eq_true hcategory⟩)
        rw [htree] at hsome
        cases hsome

/-- What the last row puts at a path stands there. -/
theorem contents_last (db : ConfigDb) (rows : List Override) {row : Override} {path : List String} {x : View}
    (hactive : row.active = true) (hx : contents (some row.tree) path = some x) :
    contents ((unfoldRows (({ db with overrides := rows ++ [row] } : ConfigDb).activeRows
      row.domainId)).get? row.category) path = some x := by
  rw [contents_unfoldRows, ConfigDb.activeRows, List.filter_append, List.filter_append,
    List.map_append, List.foldl_append]
  simp only [List.filter_cons, hactive, List.filter_nil, and_self, decide_true, if_true,
    List.map_cons, List.map_nil, List.foldl_cons, List.foldl_nil]
  exact Value.merge_of_contents _ hx

/-- Two rows of a table can be returned last, the one or the other at the end. -/
theorem perm_last {rows : List Override} {row row' : Override} (h : row ∈ rows) (h' : row' ∈ rows)
    (hne : row ≠ row') :
    ∃ rest, (rest ++ [row, row']).Perm rows ∧ (rest ++ [row', row]).Perm rows := by
  obtain ⟨front, back, rfl⟩ := List.append_of_mem h
  have hmem : row' ∈ front ++ back := by
    obtain hfront | hback := List.mem_append.mp h'
    · exact List.mem_append_left back hfront
    · exact List.mem_append_right front ((List.mem_cons.mp hback).resolve_left (Ne.symm hne))
  obtain ⟨front', back', heq⟩ := List.append_of_mem hmem
  have hmiddle : (row' :: (front' ++ back')).Perm (front ++ back) := by
    rw [heq]
    exact List.perm_middle.symm
  have hrest : (front' ++ back' ++ [row', row]).Perm (front ++ row :: back) :=
    (List.perm_append_comm.trans (List.Perm.swap row row' _)).trans
      ((hmiddle.cons row).trans List.perm_middle.symm)
  exact ⟨front' ++ back', ((List.Perm.swap row' row []).append_left _).trans hrest, hrest⟩

theorem OrderFree.settled (h : OrderFree service db) : Settled service db where
  agree row hrow row' hrow' hactive hactive' hdomain hcategory path x y hx hy := by
    by_cases heq : row = row'
    · subst heq
      exact Option.some.inj (hx.symm.trans hy)
    · obtain ⟨rest, hperm, hperm'⟩ := perm_last hrow hrow' heq
      have hlast := contents_last db (rest ++ [row]) hactive' hy
      have hlast' := contents_last db (rest ++ [row']) hactive hx
      rw [List.append_assoc] at hlast hlast'
      have hsame := (h.reload _ hperm row.domainId row.category).trans
        (h.reload _ hperm' row.domainId row.category).symm
      rw [contents_reloaded, contents_reloaded] at hsame
      rw [← hdomain, ← hcategory] at hlast
      exact Option.some.inj (hlast'.symm.trans ((congrFun hsame path).symm.trans hlast))
  known domainId category hsome := by
    have hsame := congrFun (h.same domainId category) []
    rw [contents_preloaded, contents_reloaded] at hsame
    have hrows : ((unfoldRows (db.activeRows domainId)).get? category).isSome := by
      cases htree : (unfoldRows (db.activeRows domainId)).get? category with
      | some tree => rfl
      | none =>
        obtain ⟨old, hold⟩ := Option.isSome_iff_exists.mp hsome
        rw [htree, hold] at hsame
        cases hsame
    rw [isSome_unfoldRows] at hrows
    obtain ⟨row, hrow, hcategory⟩ := List.any_eq_true.mp hrows
    exact ⟨row, hrow, of_decide_eq_true hcategory⟩

/-- The loads are free of the row order exactly if the rows of every tenant and category agree and
a preload meets no trees that have no rows any more. -/
theorem orderFree_iff : OrderFree service db ↔ Settled service db :=
  ⟨OrderFree.settled, Settled.orderFree⟩

def scalarPatch : PatchCall := slmPatch "endpoints" (.str "none") (distinct_str _)

def nestedPatch : PatchCall := slmPatch "endpoints.tenant_slm" (.str "http://slm") (distinct_str _)

/-- The table after two calls, of which the second writes below the first. -/
def overlappingDb : ConfigDb := [scalarPatch, nestedPatch].foldl PatchCall.after {}

theorem overlapping_rows_depend_on_order : ¬ OrderFree {} overlappingDb := by
  intro h
  have hsame := congrFun (h.preload overlappingDb.overrides.reverse (List.reverse_perm _) "hr"
    "model") ["endpoints", "tenant_slm"]
  have hreversed : (contents (((preloadTenantConfigs {} { overlappingDb with
      overrides := overlappingDb.overrides.reverse }).runtime "hr").get? "model")
      ["endpoints", "tenant_slm"]).isSome = true := by decide +kernel
  have horder : (contents (((preloadTenantConfigs {} overlappingDb).runtime "hr").get? "model")
      ["endpoints", "tenant_slm"]).isSome = false := by decide +kernel
  rw [hsame, horder] at hreversed
  cases hreversed

end Order

end DomainRag.Config
