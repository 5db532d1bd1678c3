import DomainRag.Config.Preload

/-! # Configuration changes reach the running service

A server loads all rows when it starts and whenever its listener comes back, and the rows of one
tenant when it is notified of a change. The SELECT of a load and its installation are steps of their
own, so that a load may install rows that are out of date by then.
-/

namespace DomainRag.Config

section Server

/-- Where `_run` stands: it waits before a reconnection, loads what it may have missed, holds the
rows of that load, or has installed them and is not listening yet. -/
inductive Listener where
  | waiting
  | preloading
  | loaded (snapshot : ConfigDb)
  | connecting
  | listening

namespace Listener

def hears : Listener → Bool
  | listening => true
  | _ => false

/-- A preload is still to be installed. -/
def catchesUp : Listener → Bool
  | waiting | preloading | loaded _ => true
  | connecting | listening => false

end Listener

/-- A task of `reload_tenant_config`, before its SELECT and after it. -/
inductive Reload where
  | scheduled (domainId : String)
  | selected (domainId : String) (snapshot : ConfigDb)

/-- The tables, one server, the notifications on their way to it and its reload tasks. -/
structure Server where
  db : ConfigDb
  service : TenantConfigService := {}
  listener : Listener := .preloading
  notifications : List String := []
  reloads : List Reload := []

inductive Event where
  | patch (call : PatchCall)
  | disconnect
  | run
  | deliver
  | reload (task : Nat)

namespace Server

variable (s : Server)

/-- A change is announced by `patch` and by the trigger of the table. -/
def patch (call : PatchCall) : Server :=
  match call.patch s.db with
  | .error _ => s
  | .ok (_, db) =>
    let announced := if s.listener.hears then [call.domainId, call.domainId] else []
    { s with db := db, notifications := s.notifications ++ announced }

def disconnect : Server :=
  match s.listener with
  | .connecting | .listening => { s with listener := .waiting, notifications := [] }
  | .waiting | .preloading | .loaded _ => s

/-- The next step of `_run`. -/
def run : Server :=
  match s.listener with
  | .waiting => { s with listener := .preloading }
  | .preloading => { s with listener := .loaded s.db }
  | .loaded snapshot =>
    { s with service := preloadTenantConfigs s.service snapshot, listener := .connecting }
  | .connecting => { s with listener := .listening }
  | .listening => s

/-- `_on_config_changed` is started as a task for the next notification. -/
def deliver : Server :=
  match s.notifications with
  | [] => s
  | tid :: rest =>
    { s with
      notifications := rest
      reloads := if tid = "" then s.reloads else s.reloads ++ [.scheduled tid] }

def reload (task : Nat) : Server :=
  match s.reloads[task]? with
  | none => s
  | some (.scheduled domainId) =>
    { s with reloads := s.reloads.set task (.selected domainId s.db) }
  | some (.selected domainId snapshot) =>
    { s with
      service := reloadTenantConfig s.service snapshot domainId
      reloads := s.reloads.eraseIdx task }

def step : Event → Server
  | .patch call => s.patch call
  | .disconnect => s.disconnect
  | .run => s.run
  | .deliver => s.deliver
  | .reload task => s.reload task

/-- The listener is connected, and no notification or reload is pending. -/
def Quiet : Prop := s.listener.hears = true ∧ s.notifications = [] ∧ s.reloads = []

/-- The trees of a tenant are those of its active rows. -/
def Installed (domainId : String) : Prop :=
  ∀ category, (s.service.runtime domainId).get? category =
    (unfoldRows (s.db.activeRows domainId)).get? category

end Server

/-- The rows of a tenant unfold to the same trees as those of the snapshot. -/
def ConfigDb.Current (db snapshot : ConfigDb) (domainId : String) : Prop :=
  ∀ category, (unfoldRows (snapshot.activeRows domainId)).get? category =
    (unfoldRows (db.activeRows domainId)).get? category

/-- The task will install the current trees of the tenant. -/
def Reload.Current (db : ConfigDb) (domainId : String) : Reload → Prop
  | .scheduled tid => tid = domainId
  | .selected tid snapshot => tid = domainId ∧ db.Current snapshot domainId

/-- A load of the tenant is still to come. -/
def Server.Due (s : Server) (domainId : String) : Prop :=
  s.listener.catchesUp = true ∨ domainId ≠ "" ∧ domainId ∈ s.notifications ∨
    ∃ task ∈ s.reloads, task.Current s.db domainId

/-- The step condition. A patch commits while a preload is still to come, while the listener hears
of it, or before a reload of the tenant that has not read yet. Rows that are out of date are
installed only if another load of the tenant is still to come. -/
def Server.Safe (s : Server) : Event → Prop
  | .patch call => (∃ result, call.patch s.db = .ok result) →
      s.listener.catchesUp = true ∨ s.listener.hears = true ∧ call.domainId ≠ "" ∨
        .scheduled call.domainId ∈ s.reloads
  | .run => ∀ snapshot, s.listener = .loaded snapshot → ∀ domainId,
      s.db.Current snapshot domainId ∨
        ({ s with listener := .connecting } : Server).Due domainId
  | .reload task => ∀ domainId snapshot, s.reloads[task]? = some (.selected domainId snapshot) →
      s.db.Current snapshot domainId ∨
        ({ s with reloads := s.reloads.eraseIdx task } : Server).Due domainId
  | .disconnect | .deliver => True

end Server

section Tables

variable {db db' : ConfigDb} {call : PatchCall} {record : ConfigChangeRecord} {domainId : String}

def ConfigDb.Has (db : ConfigDb) (domainId category : String) : Prop :=
  ∃ row ∈ db.activeRows domainId, row.category = category

theorem upsert_perm (rows : List Override) (row : Override) (position : Nat) :
    (upsert rows row position).Perm (row :: rows.filter (·.key ≠ row.key)) := by
  rw [upsert]
  refine List.perm_middle.trans ?_
  rw [List.take_append_drop]

/-- A patch keeps the key of the table. -/
theorem nodup_after (h : call.patch db = .ok (record, db'))
    (hunique : (db.overrides.map Override.key).Nodup) :
    (db'.overrides.map Override.key).Nodup := by
  rw [PatchCall.overrides_after h, ((upsert_perm _ _ _).map Override.key).nodup_iff, List.map_cons,
    List.nodup_cons]
  constructor
  · intro hmem
    obtain ⟨row, hrow, hkey⟩ := List.mem_map.mp hmem
    exact of_decide_eq_true (List.mem_filter.mp hrow).2 hkey
  · exact hunique.sublist (List.filter_sublist.map Override.key)

/-- A patch leaves no category of a tenant without active rows. -/
theorem ConfigDb.Has.after {category : String} (h : call.patch db = .ok (record, db'))
    (hunique : (db.overrides.map Override.key).Nodup) (hhas : db.Has domainId category) :
    db'.Has domainId category := by
  obtain ⟨row, hrow, hcategory⟩ := hhas
  obtain ⟨hmem, hactive⟩ := List.mem_filter.mp hrow
  have hnew : ∀ row', row' ∈ call.row db :: db.overrides.filter (·.key ≠ (call.row db).key) →
      row' ∈ db'.overrides := by
    intro row' hrow'
    rw [PatchCall.overrides_after h]
    exact (upsert_perm _ _ _).mem_iff.mpr hrow'
  by_cases hkey : row.key = (call.row db).key
  · have hexisting : call.existing db = some row := by
      have hsome : (call.existing db).isSome :=
        List.find?_isSome.mpr ⟨row, hmem, decide_eq_true hkey⟩
      obtain ⟨old, hold⟩ := Option.isSome_iff_exists.mp hsome
      have hfound := List.find?_some hold
      have holdkey : old.key = (call.row db).key := of_decide_eq_true hfound
      rw [hold, List.inj_on_of_nodup_map hunique (List.mem_of_find?_eq_some hold) hmem
        (holdkey.trans hkey.symm)]
    have hrowActive : (call.row db).active = row.active := by
      rw [PatchCall.row, hexisting]
      rfl
    have hsame := of_decide_eq_true hactive
    refine ⟨call.row db, List.mem_filter.mpr ⟨hnew _ List.mem_cons_self, decide_eq_true ?_⟩, ?_⟩
    · exact ⟨hrowActive.trans hsame.1, (congrArg Prod.fst hkey).symm.trans hsame.2⟩
    · exact (congrArg (fun key => key.2.1) hkey).symm.trans hcategory
  · refine ⟨row, List.mem_filter.mpr ⟨hnew _ (List.mem_cons_of_mem _ ?_), hactive⟩, hcategory⟩
    exact List.mem_filter.mpr ⟨hmem, decide_eq_true hkey⟩

end Tables

section Runs

variable {s : Server} {domainId category : String}

theorem runtime_reloaded (service : TenantConfigService) (db : ConfigDb) (domain : String) :
    ((reloadTenantConfig service db domain).runtime domainId).get? category =
      if domainId = domain then (unfoldRows (db.activeRows domainId)).get? category
      else (service.runtime domainId).get? category := by
  by_cases hdomain : domainId = domain
  · subst hdomain
    rw [if_pos rfl]
    exact get?_reloaded category
  · rw [if_neg hdomain]
    have hfold : ∀ (es : List (String × Value)) (s : TenantConfigService),
        (es.foldl (fun s e => s.applyRuntimeOverride domain e.1 e.2) s).runtime domainId =
          s.runtime domainId := by
      intro es
      induction es with
      | nil => exact fun _ => rfl
      | cons e es ih =>
        intro s
        rw [List.foldl_cons, ih, TenantConfigService.runtime,
          TenantConfigService.applyRuntimeOverride, Dict.get?_set, if_neg hdomain]
        rfl
    rw [reloadTenantConfig, hfold, TenantConfigService.runtime,
      TenantConfigService.clearRuntimeOverrides, Dict.get?_erase, if_neg hdomain]
    rfl

theorem ConfigDb.has_iff {db : ConfigDb} :
    db.Has domainId category ↔ ((unfoldRows (db.activeRows domainId)).get? category).isSome := by
  rw [isSome_unfoldRows, List.any_eq_true]
  simp only [decide_eq_true_eq, ConfigDb.Has]

/-- What holds in every state of a safe run: what is not installed yet is still to come, and no load
brings a category that has no rows. -/
structure Server.Sound (s : Server) : Prop where
  unique : (s.db.overrides.map Override.key).Nodup
  due : ∀ domainId, s.Installed domainId ∨ s.Due domainId
  known : ∀ domainId category, ((s.service.runtime domainId).get? category).isSome →
    s.db.Has domainId category
  fetched : ∀ tid snapshot, .selected tid snapshot ∈ s.reloads → ∀ domainId category,
    snapshot.Has domainId category → s.db.Has domainId category
  preloaded : ∀ snapshot, s.listener = .loaded snapshot → ∀ domainId category,
    snapshot.Has domainId category → s.db.Has domainId category

/-- What is due stays due if the tables of the tenant, the tasks and the listener allow it. -/
theorem Server.Due.mono {s' : Server} (h : s.Due domainId)
    (hlistener : s.listener.catchesUp = true → s'.Due domainId)
    (hnotified : domainId ≠ "" → domainId ∈ s.notifications → s'.Due domainId)
    (htask : ∀ task ∈ s.reloads, task.Current s.db domainId → s'.Due domainId) :
    s'.Due domainId := by
  obtain hcatches | ⟨hne, hmem⟩ | ⟨task, htaskMem, hcurrent⟩ := h
  · exact hlistener hcatches
  · exact hnotified hne hmem
  · exact htask task htaskMem hcurrent

theorem Server.Sound.patch (h : s.Sound) (call : PatchCall) (hsafe : s.Safe (.patch call)) :
    (s.patch call).Sound := by
  cases hpatch : call.patch s.db with
  | error e =>
    rw [Server.patch, hpatch]
    exact h
  | ok result =>
    obtain ⟨record, db'⟩ := result
    have hmono : ∀ domainId category, s.db.Has domainId category → db'.Has domainId category :=
      fun _ _ => ConfigDb.Has.after hpatch h.unique
    rw [Server.patch, hpatch]
    refine ⟨nodup_after hpatch h.unique, ?_, fun t c hsome => hmono t c (h.known t c hsome),
      fun tid snapshot hmem t c hhas => hmono t c (h.fetched tid snapshot hmem t c hhas),
      fun snapshot hloaded t c hhas => hmono t c (h.preloaded snapshot hloaded t c hhas)⟩
    intro domainId
    by_cases hdomain : call.domainId = domainId
    · subst hdomain
      obtain hcatches | ⟨hhears, hne⟩ | htask := hsafe ⟨_, hpatch⟩
      · exact .inr (.inl hcatches)
      · refine .inr (.inr (.inl ⟨hne, List.mem_append_right _ ?_⟩))
        rw [if_pos hhears]
        exact List.mem_cons_self
      · exact .inr (.inr (.inr ⟨_, htask, rfl⟩))
    · have hrows : db'.activeRows domainId = s.db.activeRows domainId :=
        activeRows_other hdomain (PatchCall.overrides_after hpatch)
      obtain hinstalled | hdue := h.due domainId
      · refine .inl fun category => ?_
        rw [hinstalled category, ← hrows]
      · refine .inr (hdue.mono .inl ?_ ?_)
        · exact fun hne hmem => .inr (.inl ⟨hne, List.mem_append_left _ hmem⟩)
        · intro task htask hcurrent
          refine .inr (.inr ⟨task, htask, ?_⟩)
          cases task with
          | scheduled tid => exact hcurrent
          | selected tid snapshot =>
            refine ⟨hcurrent.1, fun category => ?_⟩
            rw [hcurrent.2 category, hrows]

theorem Server.Sound.disconnect (h : s.Sound) : s.disconnect.Sound := by
  have hwaiting : ({ s with listener := .waiting, notifications := [] } : Server).Sound :=
    ⟨h.unique, fun _ => .inr (.inl rfl), h.known, h.fetched, nofun⟩
  rw [Server.disconnect]
  split
  · exact hwaiting
  · exact hwaiting
  · exact h
  · exact h
  · exact h

/-- A preload of current rows installs the trees of a tenant: no others are in their way. -/
theorem Server.Sound.installed (h : s.Sound) {snapshot : ConfigDb}
    (hcurrent : s.db.Current snapshot domainId) :
    ({ s with service := preloadTenantConfigs s.service snapshot } : Server).Installed
      domainId := by
  intro category
  change ((preloadTenantConfigs s.service snapshot).runtime domainId).get? category = _
  rw [get?_preloaded, hcurrent category]
  cases htree : (unfoldRows (s.db.activeRows domainId)).get? category with
  | some tree => rfl
  | none =>
    cases hold : (s.service.runtime domainId).get? category with
    | none => rfl
    | some old =>
      have hsome := ConfigDb.has_iff.mp (h.known domainId category (hold ▸ rfl))
      rw [htree] at hsome
      cases hsome

theorem Server.Sound.run (h : s.Sound) (hsafe : s.Safe .run) : s.run.Sound := by
  rw [Server.run]
  split
  · exact ⟨h.unique, fun _ => .inr (.inl rfl), h.known, h.fetched, nofun⟩
  · refine ⟨h.unique, fun _ => .inr (.inl rfl), h.known, h.fetched, ?_⟩
    rintro _ ⟨⟩ domainId category hhas
    exact hhas
  · rename_i snapshot hlistener
    refine ⟨h.unique, fun domainId => ?_, ?_, h.fetched, nofun⟩
    · obtain hcurrent | hdue := hsafe snapshot hlistener domainId
      · exact .inl (h.installed hcurrent)
      · exact .inr hdue
    · intro domainId category hsome
      change (((preloadTenantConfigs s.service snapshot).runtime domainId).get?
        category).isSome at hsome
      rw [get?_preloaded, Option.isSome_or, Bool.or_eq_true] at hsome
      obtain hsnapshot | hold := hsome
      · exact h.preloaded snapshot hlistener _ _ (ConfigDb.has_iff.mpr hsnapshot)
      · exact h.known domainId category hold
  · rename_i hlistener
    refine ⟨h.unique, fun domainId => ?_, h.known, h.fetched, nofun⟩
    refine (h.due domainId).imp id fun hdue => hdue.mono ?_ ?_ ?_
    · intro hcatches
      rw [hlistener] at hcatches
      cases hcatches
    · exact fun hne hmem => .inr (.inl ⟨hne, hmem⟩)
    · exact fun task htask hcurrent => .inr (.inr ⟨task, htask, hcurrent⟩)
  · exact h

theorem Server.Sound.deliver (h : s.Sound) : s.deliver.Sound := by
  rw [Server.deliver]
  split
  · exact h
  · rename_i tid rest hnotifications
    have hkept : ∀ task ∈ s.reloads,
        task ∈ if tid = "" then s.reloads else s.reloads ++ [.scheduled tid] := by
      intro task htask
      split
      · exact htask
      · exact List.mem_append_left _ htask
    refine ⟨h.unique, fun domainId => ?_, h.known, ?_, h.preloaded⟩
    · refine (h.due domainId).imp id fun hdue => hdue.mono .inl ?_ ?_
      · intro hne hmem
        rw [hnotifications] at hmem
        obtain rfl | hrest := List.mem_cons.mp hmem
        · refine .inr (.inr ⟨.scheduled domainId, ?_, rfl⟩)
          rw [if_neg hne]
          exact List.mem_append_right _ List.mem_cons_self
        · exact .inr (.inl ⟨hne, hrest⟩)
      · exact fun task htask hcurrent => .inr (.inr ⟨task, hkept task htask, hcurrent⟩)
    · intro tid' snapshot hmem
      dsimp only at hmem
      split at hmem
      · exact h.fetched tid' snapshot hmem
      · obtain hmem | hmem := List.mem_append.mp hmem
        · exact h.fetched tid' snapshot hmem
        · cases List.mem_singleton.mp hmem

theorem Server.Sound.reload (h : s.Sound) (task : Nat) (hsafe : s.Safe (.reload task)) :
    (s.reload task).Sound := by
  rw [Server.reload]
  split
  · exact h
  · rename_i tid htask
    have hbound : task < s.reloads.length := (List.getElem?_eq_some_iff.mp htask).1
    refine ⟨h.unique, fun domainId => ?_, h.known, ?_, h.preloaded⟩
    · refine (h.due domainId).imp id fun hdue => hdue.mono .inl ?_ ?_
      · exact fun hne hmem => .inr (.inl ⟨hne, hmem⟩)
      · intro other hother hcurrent
        obtain ⟨i, hi⟩ := List.mem_iff_getElem?.mp hother
        by_cases heq : task = i
        · subst heq
          cases htask.symm.trans hi
          exact .inr (.inr ⟨_, List.mem_set hbound _, hcurrent, fun _ => rfl⟩)
        · refine .inr (.inr ⟨other, List.mem_iff_getElem?.mpr ⟨i, ?_⟩, hcurrent⟩)
          rw [List.getElem?_set_ne heq, hi]
    · intro tid' snapshot hmem
      obtain hmem | hnew := List.mem_or_eq_of_mem_set hmem
      · exact h.fetched tid' snapshot hmem
      · cases hnew
        exact fun _ _ hhas => hhas
  · rename_i tid snapshot htask
    have hfetched := h.fetched tid snapshot (List.mem_of_getElem? htask)
    refine ⟨h.unique, fun domainId => ?_, fun domainId category hsome => ?_, ?_, h.preloaded⟩
    · by_cases hdomain : domainId = tid
      · subst hdomain
        refine (hsafe domainId snapshot htask).imp ?_ id
        intro hcurrent category
        change ((reloadTenantConfig s.service snapshot domainId).runtime domainId).get? _ = _
        rw [runtime_reloaded, if_pos rfl, hcurrent category]
      · refine (h.due domainId).imp ?_ fun hdue => hdue.mono .inl ?_ ?_
        · intro hinstalled category
          change ((reloadTenantConfig s.service snapshot tid).runtime domainId).get? _ = _
          rw [runtime_reloaded, if_neg hdomain, hinstalled category]
        · exact fun hne hmem => .inr (.inl ⟨hne, hmem⟩)
        · intro other hother hcurrent
          obtain ⟨i, hi⟩ := List.mem_iff_getElem?.mp hother
          refine .inr (.inr ⟨other, List.mem_eraseIdx_iff_getElem?.mpr ⟨i, ?_, hi⟩, hcurrent⟩)
          rintro rfl
          cases htask.symm.trans hi
          exact hdomain hcurrent.1.symm
    · change (((reloadTenantConfig s.service snapshot tid).runtime domainId).get?
        category).isSome at hsome
      rw [runtime_reloaded] at hsome
      split at hsome
      · exact hfetched _ _ (ConfigDb.has_iff.mpr hsome)
      · exact h.known domainId category hsome
    · exact fun tid' snapshot' hmem => h.fetched tid' snapshot' (List.mem_of_mem_eraseIdx hmem)

theorem Server.Sound.step (h : s.Sound) (event : Event) (hsafe : s.Safe event) :
    (s.step event).Sound := by
  cases event with
  | patch call => exact h.patch call hsafe
  | disconnect => exact h.disconnect
  | run => exact h.run hsafe
  | deliver => exact h.deliver
  | reload task => exact h.reload task hsafe

theorem Server.sound_start {db : ConfigDb} (h : (db.overrides.map Override.key).Nodup) :
    ({ db := db } : Server).Sound :=
  ⟨h, fun _ => .inr (.inl rfl), nofun, nofun, nofun⟩

/-- Nothing is due any more in a quiet state. -/
theorem Server.Quiet.not_due (h : s.Quiet) : ¬ s.Due domainId := by
  obtain ⟨hhears, hnotifications, hreloads⟩ := h
  rintro (hcatches | ⟨-, hmem⟩ | ⟨task, htask, -⟩)
  · cases hlistener : s.listener with
    | listening =>
      rw [hlistener] at hcatches
      cases hcatches
    | waiting | preloading | loaded | connecting =>
      rw [hlistener] at hhears
      cases hhears
  · rw [hnotifications] at hmem
    exact List.not_mem_nil hmem
  · rw [hreloads] at htask
    exact List.not_mem_nil htask

/-- In every quiet state of a safe run every tenant has the trees of its active rows. -/
theorem changes_reach_server {db : ConfigDb} (hunique : (db.overrides.map Override.key).Nodup)
    {events : List Event} (hsafe : Along Server.step Server.Safe events { db := db })
    (hquiet : (events.foldl Server.step { db := db }).Quiet) (domainId : String) :
    (events.foldl Server.step { db := db }).Installed domainId := by
  have hsound : (events.foldl Server.step { db := db }).Sound :=
    hsafe.final (Server.sound_start hunique) fun event _ s h hsafe => h.step event hsafe
  exact (hsound.due domainId).resolve_right hquiet.not_due

def retriesPatch : PatchCall := slmPatch "endpoints.tenant_slm.retries" (.str "3") (distinct_str _)

/-- A patch that is carried out, as a step of the server. -/
theorem Server.step_patch (s : Server) {call : PatchCall} (hfault : call.fault = none)
    (hopen : isPlatformAdminRestricted call.category call.key = false) :
    ∃ db, s.step (.patch call) = { s with
      db := db
      notifications := s.notifications ++
        if s.listener.hears then [call.domainId, call.domainId] else [] } := by
  have hok : ∃ record db, call.patch s.db = .ok (record, db) := by
    rw [PatchCall.patch, if_neg (by simp [hopen]), hfault]
    exact ⟨_, _, rfl⟩
  obtain ⟨record, db, hpatch⟩ := hok
  refine ⟨db, ?_⟩
  rw [Server.step, Server.patch, hpatch]

/-- A patch while the listener comes back, and a reload that is out of date when it is installed:
the reloads that the second notification and the second patch bring are still to come. -/
def healedRun : List Event :=
  [.run, .run, .run, .disconnect, .patch timeoutPatch, .run, .run, .run, .run,
    .patch retriesPatch, .deliver, .deliver, .reload 0, .patch timeoutPatch, .reload 0, .reload 0,
    .reload 0, .deliver, .deliver, .reload 0, .reload 0, .reload 0, .reload 0]

theorem healed_run_reaches_server :
    (healedRun.foldl Server.step { db := {} }).Quiet ∧
      (healedRun.foldl Server.step { db := {} }).Installed "hr" := by
  have htimeout : isPlatformAdminRestricted timeoutPatch.category timeoutPatch.key = false := by
    decide +kernel
  have hretries : isPlatformAdminRestricted retriesPatch.category retriesPatch.key = false := by
    decide +kernel
  have hquiet : (healedRun.foldl Server.step { db := {} }).Quiet :=
    ⟨by decide +kernel, by decide +kernel, by decide +kernel⟩
  refine ⟨hquiet, @changes_reach_server {} List.nodup_nil _ ?_ hquiet "hr"⟩
  refine ⟨nofun, ?_, nofun, trivial, fun _ => .inl rfl, ?_⟩
  · rintro _ ⟨⟩ domainId
    exact .inl fun _ => rfl
  obtain ⟨db₁, hdb₁⟩ := Server.step_patch _ rfl htimeout
  rw [hdb₁]
  refine ⟨nofun, nofun, ?_, nofun, fun _ => .inr (.inl ⟨rfl, by decide⟩), ?_⟩
  · rintro _ ⟨⟩ domainId
    exact .inl fun _ => rfl
  obtain ⟨db₂, hdb₂⟩ := Server.step_patch _ rfl hretries
  rw [hdb₂]
  refine ⟨trivial, trivial, nofun, fun _ => .inr (.inl ⟨rfl, by decide⟩), ?_⟩
  obtain ⟨db₃, hdb₃⟩ := Server.step_patch _ rfl htimeout
  rw [hdb₃]
  change Along Server.step Server.Safe _
    { db := db₃, service := _, listener := .listening, notifications := ["hr", "hr"],
      reloads := [.selected "hr" db₂, .scheduled "hr"] }
  refine ⟨?_, nofun, ?_, ?_⟩
  · rintro _ _ ⟨⟩
    exact .inr (.inr (.inr ⟨.scheduled "hr", List.mem_cons_self, rfl⟩))
  · rintro _ _ ⟨⟩
    exact .inl fun _ => rfl
  change Along Server.step Server.Safe _
    { db := db₃, service := _, listener := .listening, notifications := ["hr", "hr"] }
  refine ⟨trivial, trivial, nofun, ?_, nofun, ?_, trivial⟩
  · rintro _ _ ⟨⟩
    exact .inl fun _ => rfl
  · rintro _ _ ⟨⟩
    exact .inl fun _ => rfl

/-- The patch commits after the SELECT of the first load and before the listener is connected. -/
def missedRun : List Event := [.run, .patch timeoutPatch, .run, .run]

/-- The first reload reads before the second patch and installs its rows last. -/
def overlappingRun : List Event :=
  [.run, .run, .run, .patch timeoutPatch, .deliver, .deliver, .reload 1, .reload 1, .reload 0,
    .patch retriesPatch, .deliver, .deliver, .reload 2, .reload 2, .reload 1, .reload 1, .reload 0]

/-- Both runs end in a quiet state without the trees of the last patch. -/
theorem changes_are_lost :
    (missedRun.foldl Server.step { db := {} }).Quiet ∧
      ¬ (missedRun.foldl Server.step { db := {} }).Installed "hr" ∧
      (overlappingRun.foldl Server.step { db := {} }).Quiet ∧
      ¬ (overlappingRun.foldl Server.step { db := {} }).Installed "hr" := by
  have hmissing : ∀ (s : Server) (path : List String),
      (Value.look ((s.service.runtime "hr").get? "model") path).isSome = false →
      (Value.look ((unfoldRows (s.db.activeRows "hr")).get? "model") path).isSome = true →
      ¬ s.Installed "hr" := by
    intro s path hold hnew hinstalled
    rw [hinstalled "model", hnew] at hold
    cases hold
  refine ⟨⟨by decide +kernel, by decide +kernel, by decide +kernel⟩, ?_,
    ⟨by decide +kernel, by decide +kernel, by decide +kernel⟩, ?_⟩
  · exact hmissing _ [] (by decide +kernel) (by decide +kernel)
  · exact hmissing _ ["endpoints", "tenant_slm", "retries"] (by decide +kernel) (by decide +kernel)

end Runs

end DomainRag.Config
