import DomainRag.Config.Restricted

/-! # Loading the overrides of all tenants

A preload unfolds the rows of all tenants at once and installs one tree for each tenant and
category. Unlike a reload it does not first clear what a tenant has.
-/

namespace DomainRag.Config

/-- The trees that a load merges for a tenant. -/
def TenantConfigService.runtime (service : TenantConfigService) (domainId : String) :
    Dict String Value :=
  (service.runtimeOverrides.get? domainId).getD .empty

def groupRow (grouped : Dict (String × String) Value) (row : Override) :
    Dict (String × String) Value :=
  grouped.set (row.domainId, row.category)
    (setNested ((grouped.get? (row.domainId, row.category)).getD (.dict [])) row.path row.value)

def groupRows (rows : List Override) : Dict (String × String) Value := rows.foldl groupRow .empty

def preloadTenantConfigs (service : TenantConfigService) (db : ConfigDb) : TenantConfigService :=
  (groupRows (db.overrides.filter Override.active)).entries.foldl
    (fun s e => s.applyRuntimeOverride e.1.1 e.1.2 e.2) service

section Groups

variable {service : TenantConfigService} {db : ConfigDb} {domainId category : String}

/-- The group of a tenant and a category is the tree of the tenant's rows. -/
theorem get?_groupRows (rows : List Override) :
    (groupRows rows).get? (domainId, category) =
      (unfoldRows (rows.filter (·.domainId = domainId))).get? category := by
  have hfold : ∀ (rows : List Override) (grouped : Dict (String × String) Value)
      (nested : Dict String Value), (∀ c, grouped.get? (domainId, c) = nested.get? c) →
        (rows.foldl groupRow grouped).get? (domainId, category) =
          ((rows.filter (·.domainId = domainId)).foldl unfoldRow nested).get? category := by
    intro rows
    induction rows with
    | nil => exact fun grouped nested h => h category
    | cons row rows ih =>
      intro grouped nested h
      rw [List.foldl_cons, List.filter_cons]
      by_cases hdomain : row.domainId = domainId
      · rw [if_pos (decide_eq_true hdomain), List.foldl_cons]
        refine ih _ _ fun c => ?_
        rw [groupRow, Dict.get?_set, get?_unfoldRow, hdomain, h]
        by_cases hc : c = row.category
        · rw [if_pos (congrArg (Prod.mk domainId) hc), if_pos hc]
        · rw [if_neg (fun heq => hc (Prod.mk.inj heq).2), if_neg hc, h]
      · rw [if_neg (by simpa using hdomain)]
        refine ih _ _ fun c => ?_
        rw [groupRow, Dict.get?_set, if_neg (fun heq => hdomain (Prod.mk.inj heq).1.symm), h]
  exact hfold rows .empty .empty fun _ => rfl

theorem get?_runtime_apply (service : TenantConfigService) (domain cat : String) (value : Value) :
    ((service.applyRuntimeOverride domain cat value).runtime domainId).get? category =
      if (domainId, category) = (domain, cat) then some value
      else (service.runtime domainId).get? category := by
  rw [TenantConfigService.runtime, TenantConfigService.applyRuntimeOverride, Dict.get?_set]
  by_cases hdomain : domainId = domain
  · subst hdomain
    rw [if_pos rfl, Option.getD_some, Dict.get?_set]
    by_cases hc : category = cat
    · rw [if_pos hc, if_pos (congrArg (Prod.mk domainId) hc)]
    · rw [if_neg hc, if_neg fun heq => hc (Prod.mk.inj heq).2]
      rfl
  · rw [if_neg hdomain, if_neg fun heq => hdomain (Prod.mk.inj heq).1]
    rfl

/-- After a preload a tenant has the trees of its rows, and what it had in other categories. -/
theorem get?_preloaded : ((preloadTenantConfigs service db).runtime domainId).get? category =
    ((unfoldRows (db.activeRows domainId)).get? category).or
      ((service.runtime domainId).get? category) := by
  have hfold : ∀ (es : List ((String × String) × Value)) (hnodup : (es.map Prod.fst).Nodup)
      (s : TenantConfigService),
      ((es.foldl (fun s e => s.applyRuntimeOverride e.1.1 e.1.2 e.2) s).runtime domainId).get?
        category = ((Dict.mk es hnodup).get? (domainId, category)).or
          ((s.runtime domainId).get? category) := by
    intro es
    induction es with
    | nil => exact fun _ s => rfl
    | cons e es ih =>
      intro hnodup s
      obtain ⟨hnot, hrest⟩ := List.nodup_cons.mp hnodup
      rw [List.foldl_cons, ih hrest, get?_runtime_apply, Dict.get?_mk_cons]
      by_cases he : (domainId, category) = e.1
      · have habsent : (Dict.mk es hrest).get? (domainId, category) = none :=
          Dict.get?_eq_none_iff.mpr (he ▸ hnot)
        rw [habsent, if_pos he, if_pos he]
        rfl
      · rw [if_neg he, if_neg he]
  rw [preloadTenantConfigs, hfold _ (Dict.nodup _)]
  change ((groupRows _).get? _).or _ = _
  rw [get?_groupRows, List.filter_filter]
  have hrows : db.overrides.filter (fun row => decide (row.domainId = domainId) && row.active) =
      db.activeRows domainId := by
    refine List.filter_congr fun row _ => ?_
    rw [Bool.and_comm]
    simp
  rw [hrows]

end Groups

end DomainRag.Config
