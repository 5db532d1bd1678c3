import DomainRag.Indexing.Reindex

/-! # The job table during an execution

An indexing run writes no row of the job table but its own, and whatever fails in it, it leaves
its job in a final status. What can go wrong lies before the run: `execute` gives up the request
first, and an error of the configuration loader then leaves the job pending for good.
-/

namespace DomainRag.Indexing

open Store Program

def jobDoc (job : IndexingJobRecord) : DocKey := ⟨job.domainId, job.docId, job.docVersion⟩

/-- Two states of one job. -/
structure SameJob (job job' : IndexingJobRecord) : Prop where
  doc : jobDoc job' = jobDoc job
  filename : job'.filename = job.filename

/-- No row but the one of the job has changed, and that one is still the same job. -/
structure Touches (jobId : String) (j j' : JobRepository) : Prop where
  others : ∀ id, id ≠ jobId → j'.get id = j.get id
  own : Option.Rel SameJob (j.get jobId) (j'.get jobId)

def Ended (j : JobRepository) (jobId : String) : Prop :=
  ∃ status, statusOf j jobId = some status ∧ status.active = false

section Touches

variable {jobId : String} {j j' : JobRepository}

theorem Touches.refl (jobId : String) (j : JobRepository) : Touches jobId j j :=
  ⟨fun _ _ => rfl, optionRel_refl (fun _ => ⟨rfl, rfl⟩) _⟩

theorem Touches.trans {j'' : JobRepository} (h : Touches jobId j j') (h' : Touches jobId j' j'') :
    Touches jobId j j'' where
  others id hid := (h'.others id hid).trans (h.others id hid)
  own := by
    refine optionRel_trans (R := SameJob) ?_ h.own h'.own
    intro _ _ _ h₁ h₂
    exact ⟨h₂.doc.trans h₁.doc, h₂.filename.trans h₁.filename⟩

theorem exists_of_update {patch : JobPatch} (h : j.update jobId patch = .ok j') :
    ∃ job, j.get jobId = some job ∧ j' = ⟨j.jobs.set jobId (patch.apply job)⟩ := by
  rw [JobRepository.update] at h
  cases hget : j.jobs.get? jobId with
  | none =>
    rw [hget] at h
    cases h
  | some job =>
    rw [hget] at h
    cases h
    exact ⟨job, hget, rfl⟩

theorem exists_update (h : Knows j jobId) (patch : JobPatch) :
    ∃ j', j.update jobId patch = .ok j' := by
  obtain ⟨job, hjob⟩ := Option.isSome_iff_exists.mp h
  exact ⟨_, by rw [JobRepository.update, show j.jobs.get? jobId = some job from hjob]⟩

theorem touches_update {patch : JobPatch} (h : j.update jobId patch = .ok j') :
    Touches jobId j j' := by
  obtain ⟨job, hget, rfl⟩ := exists_of_update h
  refine ⟨?_, ?_⟩
  · intro id hid
    rw [JobRepository.get, JobRepository.get, Dict.get?_set, if_neg hid]
  · rw [hget, JobRepository.get, Dict.get?_set, if_pos rfl]
    exact .some ⟨rfl, rfl⟩

theorem statusOf_update {patch : JobPatch} {status : JobStatus} (hpatch : patch.status = some status)
    (h : j.update jobId patch = .ok j') : statusOf j' jobId = some status := by
  obtain ⟨job, -, rfl⟩ := exists_of_update h
  rw [statusOf, JobRepository.get, Dict.get?_set, if_pos rfl, Option.map_some, JobPatch.apply,
    hpatch, Option.getD_some]

theorem Touches.knows (h : Touches jobId j j') (hj : Knows j jobId) : Knows j' jobId := by
  have hown := h.own
  obtain ⟨job, hjob⟩ := Option.isSome_iff_exists.mp hj
  rw [hjob] at hown
  rw [Knows]
  generalize j'.get jobId = row at hown
  cases hown with
  | some _ => rfl

end Touches

/-- One write of a run that is under way: its own row, which stays active, or another table. -/
inductive Progress (jobId : String) (s : Stores) : Stores → Prop where
  | job (patch : JobPatch) (j : JobRepository)
      (status : patch.status.map JobStatus.active = some true)
      (updated : s.jobs.update jobId patch = .ok j) : Progress jobId s { s with jobs := j }
  | rest (v : VectorStore) (d : DocumentRepository) (c : ChunkRepository) :
      Progress jobId s ⟨v, d, c, s.jobs⟩

abbrev Progresses (jobId : String) : Stores → Stores → Prop := Relation.ReflTransGen (Progress jobId)

/-- A run that writes a final status at its end. -/
inductive Finishes (jobId : String) (s : Stores) : Stores → Prop where
  | mk (s₁ : Stores) (patch : JobPatch) (j : JobRepository) (progress : Progresses jobId s s₁)
      (status : patch.status.map JobStatus.active = some false)
      (updated : s₁.jobs.update jobId patch = .ok j) : Finishes jobId s { s₁ with jobs := j }

section Progress

variable {jobId : String} {s s' s'' : Stores}

theorem Progresses.touches (h : Progresses jobId s s') : Touches jobId s.jobs s'.jobs := by
  induction h with
  | refl => exact .refl jobId s.jobs
  | tail _ hstep ih =>
    cases hstep with
    | job patch j _ hupdated => exact ih.trans (touches_update hupdated)
    | rest v d c => exact ih

theorem Finishes.touches (h : Finishes jobId s s') : Touches jobId s.jobs s'.jobs := by
  cases h with
  | mk s₁ patch j hprogress _ hupdated => exact hprogress.touches.trans (touches_update hupdated)

theorem Finishes.ended (h : Finishes jobId s s') : Ended s'.jobs jobId := by
  cases h with
  | mk s₁ patch j _ hstatus hupdated =>
    obtain ⟨status, hpatch, hfinal⟩ := Option.map_eq_some_iff.mp hstatus
    exact ⟨status, statusOf_update hpatch hupdated, hfinal⟩

theorem Finishes.after (h : Progresses jobId s s') (h' : Finishes jobId s' s'') :
    Finishes jobId s s'' := by
  cases h' with
  | mk s₁ patch j hprogress hstatus hupdated =>
    exact ⟨s₁, patch, j, h.trans hprogress, hstatus, hupdated⟩

theorem follows_updateJob {patch : JobPatch}
    (hstatus : patch.status.map JobStatus.active = some true) :
    Follows (Progresses jobId) (updateJob jobId patch) :=
  follows_update fun _ j hj => .single (.job patch j hstatus hj)

theorem follows_of_jobs {f : Stores → Stores} (h : ∀ s, (f s).jobs = s.jobs) :
    Follows (Progresses jobId) (modify f : StoreTask PUnit) := by
  refine follows_modify fun s => .single ?_
  have hrest := @Progress.rest jobId s (f s).vectors (f s).documents (f s).chunks
  rw [← h s] at hrest
  exact hrest

/-- An update raises only where the table does not know the job. -/
theorem ensures_updateJob_updates {patch : JobPatch} :
    Ensures (updateJob jobId patch) s
      (fun _ s' => ∃ j, s.jobs.update jobId patch = .ok j ∧ s' = { s with jobs := j })
      fun _ s' => ¬ Knows s.jobs jobId ∧ s' = s := by
  rw [updateJob, ensures_bind, ensures_get, ensures_bind, ensures_ofExcept]
  refine ⟨fun j hj => ⟨j, hj, rfl⟩, fun e he => ⟨fun hknows => ?_, rfl⟩⟩
  obtain ⟨j, hj⟩ := exists_update hknows patch
  cases he.symm.trans hj

theorem ensures_updateJob_finishes {patch : JobPatch}
    (hstatus : patch.status.map JobStatus.active = some false) :
    Ensures (updateJob jobId patch) s (fun _ => Finishes jobId s)
      fun _ s' => ¬ Knows s.jobs jobId ∧ s' = s := by
  refine ensures_updateJob_updates.mono ?_ fun _ _ h => h
  rintro _ _ ⟨j, hj, rfl⟩
  exact ⟨s, patch, j, .refl, hstatus, hj⟩

end Progress

section Runs

variable {svc : IndexingService} {request : IndexingRequest} {jobId : String} {piiConfig : Value}
  {s : Stores}

theorem follows_upsertToQdrant (chunks : List Chunk) (vectors : Dict String Embedding)
    (warnings : Dict String ChunkPIIWarning) :
    Follows (Progresses jobId) (svc.upsertToQdrant request chunks vectors warnings) := by
  refine .ite (follows_pure _) (.failing (follows_update fun s v _ => ?_))
  exact .single (.rest v s.documents s.chunks)

theorem follows_writeChunksAndDocument (records : List ChunkRecord) :
    Follows (Progresses jobId) (svc.writeChunksAndDocument request records) :=
  .bind (.failing (follows_of_jobs fun _ => rfl)) fun _ => .failing (follows_of_jobs fun _ => rfl)

theorem follows_listByDoc (fault : Option Exc) (doc : DocKey) (parserVersion : Option String) :
    Follows (Progresses jobId) (listByDoc fault doc parserVersion) := by
  refine .failing fun s => ?_
  rw [ensures_bind, ensures_get]
  exact .refl

theorem follows_updateMetadata (fault : Option Exc) (domainId : String) (ids : List String)
    (metadata : Dict String Value) :
    Follows (Progresses jobId) (updateMetadata fault domainId ids metadata) :=
  .failing (follows_of_jobs fun _ => rfl)

theorem follows_setPayload (fault : Option Exc) (domainId : String) (ids : List String)
    (payload : Dict String Value) :
    Follows (Progresses jobId) (setPayload fault domainId ids payload) :=
  .failing (follows_update fun s v _ => .single (.rest v s.documents s.chunks))

theorem follows_relabelRow (pages : List ParsedPage) (c : ChunkRecord × Nat) :
    Follows (Progresses jobId) (svc.relabelRow request pages c) := by
  refine .bind (follows_ofExcept _) fun page? => ?_
  cases page? with
  | none => exact follows_pure _
  | some page =>
    exact .bind (follows_updateMetadata _ _ _ _) fun _ =>
      .tryCatch (follows_setPayload _ _ _ _) fun _ => follows_pure _

/-- The way of a run: it returns with a final status written, or raises before that. -/
def Completes (jobId : String) (x : StoreTask IndexingResult) : Prop :=
  ∀ s, Ensures x s (fun _ => Finishes jobId s) fun _ => Progresses jobId s

theorem Completes.bind {A : Type} {x : StoreTask A} {f : A → StoreTask IndexingResult}
    (hx : Follows (Progresses jobId) x) (hf : ∀ a, Completes jobId (f a)) :
    Completes jobId (x >>= f) := by
  intro s
  refine ensures_bind.mpr ((hx s).mono ?_ fun _ _ h => h)
  intro a s₁ h₁
  exact (hf a s₁).mono (fun _ _ h => .after h₁ h) fun _ _ h => h₁.trans h

theorem Completes.ite {p : Prop} [Decidable p] {x y : StoreTask IndexingResult}
    (hx : Completes jobId x) (hy : Completes jobId y) : Completes jobId (if p then x else y) := by
  split
  · exact hx
  · exact hy

theorem completes_updateJob {patch : JobPatch} {result : IndexingResult}
    (hstatus : patch.status.map JobStatus.active = some false) :
    Completes jobId (do
      updateJob jobId patch
      return result) := by
  intro s
  refine ensures_bind.mpr ((ensures_updateJob_finishes hstatus).mono (fun _ _ h => h) ?_)
  rintro _ s' ⟨-, rfl⟩
  exact .refl

theorem completes_failRun {message : String} {total high : Nat} {failed : List FailedChunk}
    {rate : Rat} : Completes jobId (IndexingService.failRun jobId message total failed high rate) :=
  completes_updateJob rfl

theorem completes_finishRun {total high : Nat} {failed : List FailedChunk} {rate : Rat} :
    Completes jobId (IndexingService.finishRun jobId total failed high rate) := by
  refine completes_updateJob ?_
  cases failed with
  | nil => rfl
  | cons c cs => rfl

theorem completes_indexFull : Completes jobId (svc.indexFull request jobId piiConfig) := by
  refine .bind (follows_updateJob rfl) fun _ => .bind (follows_ofExcept _) fun pages => ?_
  refine .bind (follows_updateJob rfl) fun _ => .bind (follows_ofExcept _) fun chunks => ?_
  refine .bind (follows_ofExcept _) fun warnings => .bind (follows_updateJob rfl) fun _ => ?_
  refine .bind (follows_updateJob rfl) fun _ => .ite completes_failRun ?_
  refine .bind (follows_upsertToQdrant _ _ _) fun _ => ?_
  exact .bind (follows_writeChunksAndDocument _) fun _ => completes_finishRun

theorem completes_reindexParserOnly :
    Completes jobId (svc.reindexParserOnly request jobId piiConfig) := by
  refine .bind (follows_updateJob rfl) fun _ => .bind (follows_ofExcept _) fun pages => ?_
  refine .bind (follows_listByDoc _ _ _) fun existing => .ite completes_indexFull ?_
  refine .bind (follows_updateJob rfl) fun _ => ?_
  refine .bind (.forM fun c => follows_relabelRow pages c) fun _ => ?_
  exact completes_updateJob rfl

theorem completes_reindexEmbeddingOnly :
    Completes jobId (svc.reindexEmbeddingOnly request jobId piiConfig) := by
  refine .bind (follows_listByDoc _ _ _) fun existing => .ite completes_indexFull ?_
  refine .bind (follows_ofExcept _) fun chunks => .bind (follows_ofExcept _) fun warnings => ?_
  refine .bind (follows_updateJob rfl) fun _ => .ite completes_failRun ?_
  refine .bind (follows_upsertToQdrant _ _ _) fun _ => ?_
  exact .bind (follows_updateMetadata _ _ _ _) fun _ => completes_finishRun

/-- Whatever fails in it, a run writes a final status at its end and none before. -/
theorem ensures_runWithExistingJob_finishes (hs : Knows s.jobs jobId) :
    Ensures (svc.runWithExistingJob request jobId piiConfig) s
      (fun _ => Finishes jobId s) fun _ => Finishes jobId s := by
  refine ensures_runWithExistingJob_of (fun _ => completes_indexFull s)
    (fun _ => completes_reindexParserOnly s) (fun _ => completes_reindexEmbeddingOnly s) ?_
  intro e s₁ h₁
  refine (ensures_updateJob_finishes rfl).mono ?_ ?_
  · exact fun _ _ h => .after h₁ h
  · rintro _ _ ⟨hunknown, -⟩
    exact absurd (h₁.touches.knows hs) hunknown

end Runs

section Execute

variable {orch : IndexingOrchestrator} {jobId : String} {b : Backend}

theorem ensures_execute_unknown (h : b.pending.get? jobId = none) :
    Ensures (orch.execute jobId) b (fun _ b' => b' = b) fun _ _ => False := by
  rw [IndexingOrchestrator.execute, ensures_bind, ensures_get, h]
  exact rfl

/-- An execution drops its request. Without a configuration it then raises. -/
theorem ensures_execute_unconfigured {request : IndexingRequest} {e : Exc}
    (hpending : b.pending.get? jobId = some request)
    (hconfig : orch.loadPiiConfig request.domainId = .error e) :
    Ensures (orch.execute jobId) b (fun _ _ => False) fun _ b' =>
      b'.pending = b.pending.erase jobId ∧ b'.stores.jobs = b.stores.jobs := by
  refine ensures_execute_of hpending fun s _ hjobs => ⟨fun _ hloaded => ?_, fun _ _ => ⟨rfl, hjobs⟩⟩
  cases hconfig.symm.trans hloaded

theorem ensures_execute_ended {request : IndexingRequest} {piiConfig : Value}
    (hpending : b.pending.get? jobId = some request) (hknows : Knows b.stores.jobs jobId)
    (hconfig : orch.loadPiiConfig request.domainId = .ok piiConfig) :
    Ensures (orch.execute jobId) b (fun _ b' => Ended b'.stores.jobs jobId)
      fun _ b' => Ended b'.stores.jobs jobId := by
  refine ensures_execute_of hpending fun s _ hjobs => ⟨fun _ _ => ?_, fun _ hfailed => ?_⟩
  swap
  · cases hconfig.symm.trans hfailed
  refine (ensures_runWithExistingJob_finishes (hjobs.symm ▸ hknows)).mono ?_ ?_
  · exact fun _ _ h => h.ended
  · exact fun _ _ h => h.ended

/-- The orchestrator holds a request for the job, and the loader answers for its tenant. -/
def IndexingOrchestrator.CanStart (orch : IndexingOrchestrator) (b : Backend) (jobId : String) :
    Prop :=
  ∃ request piiConfig, b.pending.get? jobId = some request ∧
    orch.loadPiiConfig request.domainId = .ok piiConfig

/-- An execution of a pending job ends it, whatever fails in the run, exactly when it has a
request for the job and gets the configuration. -/
theorem execute_ends_iff_can_start (orch : IndexingOrchestrator) (b : Backend) (jobId : String)
    (hpending : statusOf b.stores.jobs jobId = some .pending) :
    Ended ((orch.execute jobId).final b).stores.jobs jobId ↔ orch.CanStart b jobId := by
  have hactive : ¬ Ended b.stores.jobs jobId := by
    rintro ⟨status, hstatus, hended⟩
    cases hpending.symm.trans hstatus
    cases hended
  cases hrequest : b.pending.get? jobId with
  | none =>
    refine iff_of_false ?_ ?_
    · have hsame : (orch.execute jobId).final b = b :=
        ((ensures_execute_unknown hrequest).mono (fun _ _ h => h) fun _ _ h => h.elim).final
      rw [hsame]
      exact hactive
    · rintro ⟨request, piiConfig, hsome, -⟩
      rw [hrequest] at hsome
      cases hsome
  | some request =>
    cases hconfig : orch.loadPiiConfig request.domainId with
    | error e =>
      refine iff_of_false ?_ ?_
      · have hjobs : ((orch.execute jobId).final b).stores.jobs = b.stores.jobs :=
          ((ensures_execute_unconfigured hrequest hconfig).mono (fun _ _ h => h.elim)
            fun _ _ h => h.2).final
        rw [hjobs]
        exact hactive
      · rintro ⟨request', piiConfig, hsome, hloaded⟩
        cases hrequest.symm.trans hsome
        rw [hconfig] at hloaded
        cases hloaded
    | ok piiConfig =>
      refine iff_of_true ?_ ⟨request, piiConfig, hrequest, hconfig⟩
      exact (ensures_execute_ended hrequest (knows_of_statusOf hpending) hconfig).final

end Execute

section Handbook

def registered : Backend := (uploadHandbook .empty).final Backend.empty

def unconfigured : IndexingOrchestrator :=
  { desk with loadPiiConfig := fun _ => .error ⟨"YAMLError", "could not parse pii.yaml"⟩ }

theorem execute_ends_handbook : Ended ((desk.execute "J1").final registered).stores.jobs "J1" := by
  refine (execute_ends_iff_can_start desk registered "J1" (by decide +kernel)).mpr ?_
  obtain ⟨request, hrequest, -⟩ := (Option.any_eq_true (fun r => r.doc = handbook.doc)
    (registered.pending.get? "J1")).mp (by decide +kernel)
  exact ⟨request, .null, hrequest, rfl⟩

/-- The job stays pending, and nothing will execute it any more. -/
theorem unconfigured_job_stays_pending :
    statusOf registered.stores.jobs "J1" = some .pending ∧
    ((unconfigured.execute "J1").final registered).pending.get? "J1" = none ∧
    ¬ Ended ((unconfigured.execute "J1").final registered).stores.jobs "J1" := by
  have hpending : statusOf ((unconfigured.execute "J1").final registered).stores.jobs "J1" =
    some .pending := by decide +kernel
  refine ⟨by decide +kernel, ?_, ?_⟩
  · rw [← Option.not_isSome_iff_eq_none]
    decide +kernel
  · rintro ⟨status, hstatus, hended⟩
    cases hpending.symm.trans hstatus
    cases hended

end Handbook

end DomainRag.Indexing
