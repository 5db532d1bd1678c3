import DomainRag.Lifecycle.Tenants

/-! # Status changes and deletions side by side

A deleted tenant should stay deleted, and its data should go only while it is archived or after it
was deleted. Neither call looks at the status again when it writes, so a status change that was
checked before a deletion can undo it, and can make a tenant active whose data is still being
deleted.
-/

namespace DomainRag.Lifecycle

open PostgresTenantLifecycleService

/-- A step took a row, the collection or an object of the tenant away. -/
def Erases (domainId : String) (s s' : Platform) : Prop :=
  (∃ table, ∃ row ∈ s.tables table, row.domainId = domainId ∧ row ∉ s'.tables table) ∨
    (s.vectors.collections.get? domainId ≠ none ∧ s'.vectors.collections.get? domainId = none) ∨
    ∃ o, s.objects.content o ≠ none ∧ s'.objects.content o = none

/-- What holds in every state of a run: `deleted` is final, and data goes only from an archived
tenant or after the tenant was deleted. -/
structure Lawful (service : PostgresTenantLifecycleService) (domainId : String)
    (p : Pool Platform Stage) (ms : List (Move TenantCall Turn)) : Prop where
  terminal : ∀ pre mid post, ms = pre ++ mid ++ post →
    ((service.calls domainId).run p pre).shared.status? domainId = some "deleted" →
    ((service.calls domainId).run p (pre ++ mid)).shared.status? domainId = some "deleted"
  guarded : ∀ pre m post, ms = pre ++ m :: post →
    Erases domainId ((service.calls domainId).run p pre).shared
      ((service.calls domainId).run p (pre ++ [m])).shared →
    ((service.calls domainId).run p pre).shared.status? domainId = some "archived" ∨
      ∃ earlier, earlier <+: pre ∧
        ((service.calls domainId).run p earlier).shared.status? domainId = some "deleted"

/-- A deletion that has passed its check and has not made its last step. -/
def Stage.MayErase : Stage → Prop
  | .marking _ => True
  | .deleting _ (_ :: _) => True
  | _ => False

/-- A status change does not write over `deleted`, and makes no tenant active or suspended while a
deletion of it may still erase. -/
def Unraced (domainId : String) (p : Pool Platform Stage) : Move TenantCall Turn → Prop
  | .start _ => True
  | .advance i turn =>
    match p.threads[i]? with
    | some (.writing _ toStatus _ _) => turn.fault = none →
      p.shared.status? domainId ≠ some "deleted" ∧
        (toStatus = "archived" ∨ ∀ l ∈ p.threads, ¬ l.MayErase)
    | _ => True

section Steps

variable {service : PostgresTenantLifecycleService} {domainId : String} {turn : Turn} {s : Platform}
  {l : Stage}

theorem status?_updateTenant (f : TenantRow → TenantRow) :
    (s.updateTenant domainId f).status? domainId =
      (s.tenants.get? domainId).map fun row => (f row).status := by
  rw [Platform.updateTenant, Platform.status?]
  cases hrow : s.tenants.get? domainId with
  | none => simp [hrow]
  | some row => simp [Dict.get?_set]

theorem status?_map_const (status : String) :
    ((s.tenants.get? domainId).map fun _ => status) = (s.status? domainId).map fun _ => status := by
  rw [Platform.status?, Option.map_map]
  rfl

theorem tenants_exec (step : DeleteStep) :
    (step.exec turn domainId s).1.tenants = s.tenants := by
  cases step with
  | postgres table =>
    rw [DeleteStep.exec]
    split <;> rfl
  | qdrant =>
    rw [DeleteStep.exec]
    split <;> rfl
  | storage store =>
    rw [DeleteStep.exec]
    split <;> rfl

theorem status?_close (now : Nat) (deletion : Deletion) :
    (close domainId now deletion s).status? domainId =
      (s.status? domainId).map fun _ => "deleted" := by
  rw [← status?_map_const]
  exact status?_updateTenant _

/-- A step leaves the status, or writes the one of a status change, or closes a deletion. -/
theorem step_status (service : PostgresTenantLifecycleService) (domainId : String) (turn : Turn)
    (s : Platform) (l : Stage) :
    (service.step domainId turn s l).1.status? domainId = s.status? domainId ∨
      (∃ record toStatus actor reason, l = .writing record toStatus actor reason ∧
        turn.fault = none ∧ (service.step domainId turn s l).1.status? domainId =
          (s.status? domainId).map fun _ => toStatus) ∨
      (service.step domainId turn s l).1.status? domainId =
        (s.status? domainId).map fun _ => "deleted" := by
  cases l with
  | reading call =>
    left
    rw [step]
    split <;> rfl
  | writing record toStatus actor reason =>
    cases hfault : turn.fault with
    | some e => simp [step, hfault]
    | none =>
      refine .inr (.inl ⟨record, toStatus, actor, reason, rfl, rfl, ?_⟩)
      simp only [step, hfault]
      rw [status?_updateTenant, ← status?_map_const]
  | marking deletion =>
    left
    rw [step]
    split
    · rfl
    · exact status?_updateTenant _
  | deleting deletion steps =>
    cases steps with
    | nil =>
      rw [step]
      split
      · exact .inl rfl
      · exact .inr (.inr (status?_close _ _))
    | cons step steps =>
      left
      rw [PostgresTenantLifecycleService.step, Platform.status?, tenants_exec, Platform.status?]
  | publishing record entry =>
    left
    rw [step, publish]
    split <;> rfl
  | ended result => exact .inl rfl

theorem not_erases_of_eq {s' : Platform} (htables : s'.tables = s.tables)
    (hvectors : s'.vectors = s.vectors) (hobjects : s'.objects = s.objects) :
    ¬ Erases domainId s s' := by
  rintro (⟨table, row, hrow, -, hgone⟩ | ⟨hsome, hnone⟩ | ⟨o, hsome, hnone⟩)
  · rw [htables] at hgone
    exact hgone hrow
  · rw [hvectors] at hnone
    exact hsome hnone
  · rw [hobjects] at hnone
    exact hsome hnone

theorem not_erases_updateTenant (f : TenantRow → TenantRow) :
    ¬ Erases domainId s (s.updateTenant domainId f) := by
  rw [Platform.updateTenant]
  split
  · exact not_erases_of_eq rfl rfl rfl
  · exact not_erases_of_eq rfl rfl rfl

theorem mayErase_of_erases (h : Erases domainId s (service.step domainId turn s l).1) :
    l.MayErase := by
  have hsame : ¬ Erases domainId s s := not_erases_of_eq rfl rfl rfl
  cases l with
  | reading call =>
    rw [step] at h
    split at h <;> exact absurd h hsame
  | writing record toStatus actor reason =>
    rw [step] at h
    split at h
    · exact absurd h hsame
    · exact absurd h (not_erases_updateTenant _)
  | marking deletion => trivial
  | deleting deletion steps =>
    cases steps with
    | nil =>
      rw [step] at h
      split at h
      · exact absurd h hsame
      · exact absurd h (not_erases_updateTenant _)
    | cons step steps => trivial
  | publishing record entry =>
    rw [step, publish] at h
    split at h
    · exact absurd h (not_erases_of_eq rfl rfl rfl)
    · exact absurd h hsame
  | ended result => exact absurd h hsame

theorem status?_of_check {call : TenantCall} {row : Option TenantRow} {now : Nat}
    (h : (check domainId call (row.map (·.record domainId now))).MayErase) :
    row.map (·.status) = some "archived" := by
  cases row with
  | none => cases call <;> exact h.elim
  | some row =>
    cases call with
    | updateStatus toStatus actor reason =>
      simp only [check, Option.map_some] at h
      split at h
      · exact h.elim
      · split at h <;> exact h.elim
    | hardDelete actor reason =>
      simp only [check, Option.map_some] at h
      split at h
      · exact h.elim
      · rename_i harchived
        have hread : textOr (some row.status) "active" = "archived" := not_not.mp harchived
        rw [textOr] at hread
        split at hread
        · exact absurd hread (by decide)
        · rw [Option.map_some, hread]

/-- A call comes to a deletion only when it reads that the tenant is archived. -/
theorem mayErase_step (h : (service.step domainId turn s l).2.MayErase) :
    l.MayErase ∨ s.status? domainId = some "archived" ∧
      (service.step domainId turn s l).1 = s := by
  cases l with
  | reading call =>
    rw [step] at h ⊢
    split at h
    · exact h.elim
    · exact .inr ⟨status?_of_check h, rfl⟩
  | writing record toStatus actor reason =>
    rw [step] at h
    split at h <;> exact h.elim
  | marking deletion => exact .inl trivial
  | deleting deletion steps =>
    cases steps with
    | nil =>
      rw [step] at h
      split at h <;> exact h.elim
    | cons step steps => exact .inl trivial
  | publishing record entry => exact h.elim
  | ended result => exact h.elim

end Steps

section Runs

variable {service : PostgresTenantLifecycleService} {domainId : String}

/-- The status allows a deletion to go on. -/
def Deletable (domainId : String) (s : Platform) : Prop :=
  s.status? domainId = some "archived" ∨ s.status? domainId = some "deleted"

/-- Every call that may still erase does so to an archived or deleted tenant. -/
def Covered (domainId : String) : Pool Platform Stage → Prop :=
  Pool.Asserts fun s l => l.MayErase → Deletable domainId s

theorem Deletable.map_const {s s' : Platform} {status : String} (h : Deletable domainId s)
    (hs' : s'.status? domainId = (s.status? domainId).map fun _ => status) :
    s'.status? domainId = some status := by
  obtain h | h := h
  · rw [hs', h]
    rfl
  · rw [hs', h]
    rfl

theorem Covered.move {p : Pool Platform Stage} {m : Move TenantCall Turn}
    (h : Covered domainId p) (hm : Unraced domainId p m) :
    Covered domainId ((service.calls domainId).move p m) := by
  refine Pool.Asserts.move h ?_ ?_ ?_
  · intro call _ hmay
    exact hmay.elim
  · rintro i turn l rfl hl hown hmay
    obtain hmay | ⟨harchived, hsame⟩ := mayErase_step hmay
    · obtain hstatus | ⟨record, toStatus, actor, reason, rfl, -, -⟩ | hstatus :=
        step_status service domainId turn p.shared l
      · have hdeletable := hown hmay
        rwa [Deletable, ← hstatus] at hdeletable
      · exact hmay.elim
      · exact .inr ((hown hmay).map_const hstatus)
    · exact .inl ((congrArg (Platform.status? · domainId) hsame).trans harchived)
  · rintro i turn l rfl hl - l' hl' hother hmay
    obtain hstatus | ⟨record, toStatus, actor, reason, rfl, hfault, hstatus⟩ | hstatus :=
      step_status service domainId turn p.shared l
    · have hdeletable := hother hmay
      rwa [Deletable, ← hstatus] at hdeletable
    · -- A status change beside a deletion only repeats `archived`.
      simp only [Unraced, hl] at hm
      obtain ⟨-, rfl | hnone⟩ := hm hfault
      · exact .inl ((hother hmay).map_const hstatus)
      · exact absurd hmay (hnone l' hl')
    · exact .inr ((hother hmay).map_const hstatus)

theorem deleted_move {p : Pool Platform Stage} {m : Move TenantCall Turn}
    (hm : Unraced domainId p m) (h : p.shared.status? domainId = some "deleted") :
    ((service.calls domainId).move p m).shared.status? domainId = some "deleted" := by
  refine Threads.shared_move (P := fun s : Platform => s.status? domainId = some "deleted") h ?_
  rintro i turn l rfl hl
  obtain hstatus | ⟨record, toStatus, actor, reason, rfl, hfault, -⟩ | hstatus :=
    step_status service domainId turn p.shared l
  · exact hstatus.trans h
  · simp only [Unraced, hl] at hm
    exact absurd h (hm hfault).1
  · rw [h] at hstatus
    exact hstatus

theorem deletable_of_erases {p : Pool Platform Stage} {m : Move TenantCall Turn}
    (h : Covered domainId p)
    (herases : Erases domainId p.shared ((service.calls domainId).move p m).shared) :
    Deletable domainId p.shared := by
  have hsame : ¬ Erases domainId p.shared p.shared := not_erases_of_eq rfl rfl rfl
  obtain ⟨call, rfl, hmove⟩ | ⟨i, turn, rfl, -, hmove⟩ | ⟨i, turn, l, rfl, hl, hmove⟩ :=
    (service.calls domainId).move_cases p m
  · rw [hmove] at herases
    exact absurd herases hsame
  · rw [hmove] at herases
    exact absurd herases hsame
  · rw [hmove] at herases
    exact h l (List.mem_of_getElem? hl) (mayErase_of_erases herases)

/-- In every run in which no status change races with a deletion, a deleted tenant stays deleted and
data goes only from an archived or deleted tenant. -/
theorem lawful_of_unraced (service : PostgresTenantLifecycleService) (domainId : String)
    (s : Platform) (ms : List (Move TenantCall Turn))
    (h : Along (service.calls domainId).move (Unraced domainId) ms ⟨s, []⟩) :
    Lawful service domainId ⟨s, []⟩ ms where
  terminal := by
    rintro pre mid post rfl hdeleted
    have hmid : Along (service.calls domainId).move (Unraced domainId) mid
        ((service.calls domainId).run ⟨s, []⟩ pre) := h.of_append.after
    rw [Threads.run_append]
    refine hmid.final (I := fun p : Pool Platform Stage =>
      p.shared.status? domainId = some "deleted") hdeleted ?_
    exact fun m _ p hp hm => deleted_move hm hp
  guarded := by
    rintro pre m post rfl herases
    have hcovered : Covered domainId ((service.calls domainId).run ⟨s, []⟩ pre) :=
      h.of_append.final nofun fun m _ p hp hm => Covered.move hp hm
    rw [Threads.run_append] at herases
    obtain harchived | hdeleted := deletable_of_erases hcovered herases
    · exact .inl harchived
    · exact .inr ⟨pre, List.prefix_refl pre, hdeleted⟩

end Runs

def hrPlatform (status : String) : Platform where
  tenants := .ofList [("hr", { displayName := "HR", status := status })]
  tables := fun table => if table = "chunks" then [⟨"hr", []⟩] else []
  vectors := ⟨.empty⟩
  objects := ⟨.empty, .empty, []⟩

def tablesOnly : PostgresTenantLifecycleService := ⟨false, none, false⟩

theorem archive_then_delete :
    Lawful tablesOnly "hr" ⟨hrPlatform "active", []⟩
      [.start (.updateStatus "archived" "root" none), .advance 0 {}, .advance 0 {},
        .start (.hardDelete "root" "closed"), .advance 1 {}, .advance 1 {}, .advance 1 {},
        .advance 1 {}] := by
  refine lawful_of_unraced tablesOnly "hr" _ _ ⟨trivial, trivial, ?_, trivial, trivial, trivial,
    trivial, trivial, trivial⟩
  intro _
  exact ⟨by decide, .inl rfl⟩

/-- A recovery is checked, a deletion runs to its end, and the recovery is written. -/
def staleRecovery : List (Move TenantCall Turn) :=
  [.start (.updateStatus "active" "root" none), .advance 0 {},
    .start (.hardDelete "root" "closed")] ++ List.replicate 20 (.advance 1 {})

/-- A deletion is checked, a recovery runs to its end, and the deletion goes on. -/
def staleDeletion : List (Move TenantCall Turn) :=
  [.start (.hardDelete "root" "closed"), .advance 0 {}, .start (.updateStatus "active" "root" none),
    .advance 1 {}, .advance 1 {}, .advance 0 {}, .advance 0 {}]

theorem recovery_races_with_deletion :
    ¬ Lawful tablesOnly "hr" ⟨hrPlatform "archived", []⟩ (staleRecovery ++ [.advance 0 {}]) ∧
      ¬ Lawful tablesOnly "hr" ⟨hrPlatform "archived", []⟩ (staleDeletion ++ [.advance 0 {}]) := by
  constructor
  · intro h
    have hactive := h.terminal staleRecovery [.advance 0 {}] [] (List.append_nil _).symm (by decide)
    exact absurd hactive (by decide)
  · intro h
    have herases : Erases "hr"
        ((tablesOnly.calls "hr").run ⟨hrPlatform "archived", []⟩ staleDeletion).shared
        ((tablesOnly.calls "hr").run ⟨hrPlatform "archived", []⟩
          (staleDeletion ++ [.advance 0 {}])).shared :=
      .inl ⟨"chunks", ⟨"hr", []⟩, List.mem_singleton_self _, rfl, List.not_mem_nil⟩
    obtain harchived | ⟨earlier, hearlier, hdeleted⟩ :=
      h.guarded staleDeletion (.advance 0 {}) [] rfl herases
    · exact absurd harchived (by decide)
    · have hnever : ∀ e ∈ staleDeletion.inits, ((tablesOnly.calls "hr").run
          ⟨hrPlatform "archived", []⟩ e).shared.status? "hr" ≠ some "deleted" := by decide
      exact hnever earlier ((List.mem_inits _ _).mpr hearlier) hdeleted

end DomainRag.Lifecycle
