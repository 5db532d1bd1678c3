import DomainRag.Indexing.Jobs

/-! # One active job for a document version

The job table refuses a second active job when one is created. Jobs also become active again when
they are retried, and nothing is checked there. Calls of the orchestrator are interleaved with the
executions that are under way, which write their own rows of the table as they go.
-/

namespace DomainRag.Indexing

open Store Program

def Active (j : JobRepository) (jobId : String) : Prop :=
  ∃ job, j.get jobId = some job ∧ job.status.active = true

def Free (j : JobRepository) (doc : DocKey) : Prop :=
  ∀ id job, j.get id = some job → job.status.active = true → jobDoc job ≠ doc

def OneActive (j : JobRepository) : Prop :=
  ∀ id₁ id₂ job₁ job₂, j.get id₁ = some job₁ → j.get id₂ = some job₂ →
    job₁.status.active = true → job₂.status.active = true → jobDoc job₁ = jobDoc job₂ → id₁ = id₂

section Table

variable {j j' : JobRepository} {jobId : String}

theorem mem_values_of_get {id : String} {job : IndexingJobRecord} (h : j.get id = some job) :
    job ∈ j.jobs.values :=
  List.mem_map.mpr ⟨(id, job), Dict.get?_eq_some_iff.mp h, rfl⟩

theorem free_of_all {doc : DocKey}
    (h : j.jobs.values.all (fun job => !(job.status.active && decide (jobDoc job = doc))) = true) :
    Free j doc := by
  intro id job hget hactive hdoc
  have hjob := List.all_eq_true.mp h job (mem_values_of_get hget)
  rw [hactive, decide_eq_true hdoc] at hjob
  cases hjob

theorem free_of_create {job : IndexingJobRecord} (h : j.create job = .ok j') :
    Free j (jobDoc job) ∧ j'.jobs = j.jobs.set job.jobId job := by
  rw [JobRepository.create] at h
  split at h
  · cases h
  · rename_i hnone
    cases h
    refine ⟨?_, rfl⟩
    rintro id existing hget hactive heq
    obtain ⟨hdomain, hdoc, hversion⟩ := DocKey.mk.inj heq
    have hno := List.find?_eq_none.mp hnone existing (mem_values_of_get hget)
    exact hno (by simp only [hdomain, hdoc, hversion, hactive, and_self, decide_true])

theorem get_of_create {job : IndexingJobRecord} (h : j.create job = .ok j') (id : String) :
    j'.get id = if id = job.jobId then some job else j.get id := by
  rw [JobRepository.get, (free_of_create h).2, Dict.get?_set]
  rfl

theorem OneActive.create {job : IndexingJobRecord} (hone : OneActive j)
    (h : j.create job = .ok j') : OneActive j' := by
  have hfree := (free_of_create h).1
  have hget := get_of_create h
  intro id₁ id₂ job₁ job₂ h₁ h₂ ha₁ ha₂ hdoc
  rw [hget] at h₁ h₂
  split at h₁
  · rename_i hid₁
    split at h₂
    · rename_i hid₂
      exact hid₁.trans hid₂.symm
    · cases h₁
      exact absurd hdoc.symm (hfree id₂ job₂ h₂ ha₂)
  · split at h₂
    · cases h₂
      exact absurd hdoc (hfree id₁ job₁ h₁ ha₁)
    · exact hone id₁ id₂ job₁ job₂ h₁ h₂ ha₁ ha₂ hdoc

theorem Touches.get (h : Touches jobId j j') {job' : IndexingJobRecord}
    (hget : j'.get jobId = some job') :
    ∃ job, j.get jobId = some job ∧ jobDoc job' = jobDoc job := by
  have hown := h.own
  rw [hget] at hown
  generalize j.get jobId = row at hown
  cases hown with
  | some hsame => exact ⟨_, rfl, hsame.doc⟩

/-- A job may change its own row when it is active already or its document version is free. -/
theorem OneActive.touches (hone : OneActive j) (h : Touches jobId j j')
    (hjob : ∀ job, j.get jobId = some job → job.status.active = true ∨ Free j (jobDoc job)) :
    OneActive j' := by
  -- Another active job of the same version would have been there before.
  have hother : ∀ {id job job'}, id ≠ jobId → j'.get id = some job → job.status.active = true →
      j'.get jobId = some job' → jobDoc job = jobDoc job' → False := by
    intro id job job' hid hget hactive hget' hdoc
    rw [h.others id hid] at hget
    obtain ⟨before, hbefore, hsame⟩ := h.get hget'
    obtain hactive' | hfree := hjob before hbefore
    · exact hid (hone id jobId job before hget hbefore hactive hactive' (hdoc.trans hsame))
    · exact hfree id job hget hactive (hdoc.trans hsame)
  intro id₁ id₂ job₁ job₂ h₁ h₂ ha₁ ha₂ hdoc
  by_cases hid₁ : id₁ = jobId
  · subst hid₁
    by_contra hne
    exact hother (Ne.symm hne) h₂ ha₂ h₁ hdoc.symm
  · by_cases hid₂ : id₂ = jobId
    · subst hid₂
      exact (hother hid₁ h₁ ha₁ h₂ hdoc).elim
    · rw [h.others id₁ hid₁] at h₁
      rw [h.others id₂ hid₂] at h₂
      exact hone id₁ id₂ job₁ job₂ h₁ h₂ ha₁ ha₂ hdoc

theorem Touches.active {id : String} (h : Touches jobId j j') (hid : id ≠ jobId)
    (hactive : Active j id) : Active j' id := by
  obtain ⟨job, hget, ha⟩ := hactive
  exact ⟨job, (h.others id hid).trans hget, ha⟩

end Table

section Calls

variable {orch : IndexingOrchestrator} {b : Backend}

/-- What a call that registers a new job does to the table and to the waiting requests. -/
inductive Registers (newJobId : String) (b b' : Backend) : Prop where
  | refused (jobs : b'.stores.jobs = b.stores.jobs) (pending : b'.pending = b.pending)
  | created (job : IndexingJobRecord) (id : job.jobId = newJobId)
      (fresh : job.status = .pending) (jobs : b.stores.jobs.create job = .ok b'.stores.jobs)
      (pending : ∀ id, id ≠ newJobId → b'.pending.get? id = b.pending.get? id)

theorem ensures_register_registers {newJobId : String} {doc : DocKey} {filename : Value}
    {build : Except Exc IndexingRequest} {prepared : String → PreparedIndexing} :
    Ensures (do
        let jobId ← onStores (registerJob newJobId doc filename)
        let request ← Program.ofExcept build
        modify fun b : Backend => { b with pending := b.pending.set jobId request }
        return prepared jobId : BackendTask PreparedIndexing) b
      (fun _ => Registers newJobId b) fun _ => Registers newJobId b := by
  refine ensures_register.mpr ⟨fun jobs hjobs => ?_, fun _ _ => .refused rfl rfl⟩
  refine ⟨fun request _ => .created _ rfl rfl hjobs fun id hid => ?_, fun _ _ => ?_⟩
  · rw [Dict.get?_set, if_neg hid]
  · exact .created _ rfl rfl hjobs fun _ _ => rfl

theorem ensures_prepareUpload_registers {newDocId newJobId domainId version title filename : String}
    {docId : Option String} {inputType : Value} {metadata : Dict String Value} :
    Ensures (orch.prepareUpload newDocId newJobId domainId docId version title filename inputType
      metadata) b (fun _ => Registers newJobId b) fun _ => Registers newJobId b := by
  refine ensures_bind.mpr (ensures_ofExcept.mpr ⟨fun stored _ => ?_, fun _ _ => ?_⟩)
  · exact ensures_register_registers
  · exact .refused rfl rfl

theorem ensures_prepareReindex_registers {newJobId : String} {doc : DocKey} {mode : ReindexMode}
    {metadata : Dict String Value} :
    Ensures (orch.prepareReindex newJobId doc mode metadata) b
      (fun _ => Registers newJobId b) fun _ => Registers newJobId b := by
  rw [IndexingOrchestrator.prepareReindex, ensures_bind, ensures_get]
  cases b.stores.documents.get doc with
  | none => exact .refused rfl rfl
  | some existing => exact ensures_register_registers

/-- The jobs that `retry_job` takes: they have failed in part or altogether, and the document has
a row. -/
structure Retryable (b : Backend) (domainId jobId : String) (job : IndexingJobRecord) : Prop where
  known : b.stores.jobs.get jobId = some job
  tenant : job.domainId = domainId
  status : job.status = .failed ∨ job.status = .partial_
  document : (b.stores.documents.get (jobDoc job)).isSome

/-- What a retry does to the table and to the waiting requests. -/
inductive Retries (domainId jobId : String) (b b' : Backend) : Prop where
  | refused (jobs : b'.stores.jobs = b.stores.jobs) (pending : b'.pending = b.pending)
  | reset (job : IndexingJobRecord) (taken : Retryable b domainId jobId job)
      (touches : Touches jobId b.stores.jobs b'.stores.jobs)
      (status : statusOf b'.stores.jobs jobId = some .pending)
      (pending : ∀ id, id ≠ jobId → b'.pending.get? id = b.pending.get? id)

theorem ensures_reset {s : Stores} {jobId : String} {patch : JobPatch}
    (hknows : Knows s.jobs jobId) (hpatch : patch.status = some .pending) :
    Ensures (updateJob jobId patch) s (fun _ s' => statusOf s'.jobs jobId = some .pending)
      fun _ _ => False :=
  ensures_updateJob_status hpatch hknows fun _ hj => hj

theorem ensures_retryJob_retries {domainId jobId : String} :
    Ensures (orch.retryJob domainId jobId) b (fun _ => Retries domainId jobId b)
      fun _ => Retries domainId jobId b := by
  refine ensures_retryJob_of (fun _ _ => .refused rfl rfl) fun job record request h => ?_
  have htaken : Retryable b domainId jobId job := by
    refine ⟨h.known, h.tenant, h.status, ?_⟩
    rw [jobDoc, h.tenant, h.document]
    rfl
  refine Ensures.mono ((follows_updateJob rfl b.stores).and (ensures_reset h.knows rfl)) ?_
    fun _ _ hs => hs.2.elim
  rintro _ s ⟨hprogress, hreset⟩
  refine .reset job htaken hprogress.touches hreset fun id hid => ?_
  exact (Dict.get?_set b.pending jobId id request).trans (if_neg hid)

end Calls

/-- The first part of `execute`, up to the run: whether the run begins. -/
def IndexingOrchestrator.start (orch : IndexingOrchestrator) (jobId : String) : BackendTask Bool := do
  match (← get).pending.get? jobId with
  | none => return false
  | some request =>
    modify fun b => { b with pending := b.pending.erase jobId }
    onStores (orch.ensureCollectionExists request.domainId)
    let _ ← Program.ofExcept (orch.loadPiiConfig request.domainId)
    return true

/-- The backend with the jobs whose executions are under way. -/
structure Process where
  backend : Backend
  running : List String

/-- The calls of the orchestrator and the single writes of the executions that are under way. -/
inductive Act where
  | prepareUpload (orch : IndexingOrchestrator) (newDocId newJobId domainId : String)
      (docId : Option String) (version title filename : String) (inputType : Value)
      (metadata : Dict String Value)
  | prepareReindex (orch : IndexingOrchestrator) (newJobId : String) (doc : DocKey)
      (mode : ReindexMode) (metadata : Dict String Value)
  | retryJob (orch : IndexingOrchestrator) (domainId jobId : String)
  | execute (orch : IndexingOrchestrator) (jobId : String)
  | start (orch : IndexingOrchestrator) (jobId : String)
  | update (jobId : String) (patch : JobPatch)
  | write (vectors : VectorStore) (documents : DocumentRepository) (chunks : ChunkRepository)

namespace Process

def call {A : Type} (p : Process) (x : BackendTask A) : Process :=
  { p with backend := x.final p.backend }

/-- An execution that has started may update its job until it has written a final status. -/
def step (p : Process) : Act → Process
  | .prepareUpload orch newDocId newJobId domainId docId version title filename inputType metadata =>
    p.call (orch.prepareUpload newDocId newJobId domainId docId version title filename inputType
      metadata)
  | .prepareReindex orch newJobId doc mode metadata =>
    p.call (orch.prepareReindex newJobId doc mode metadata)
  | .retryJob orch domainId jobId => p.call (orch.retryJob domainId jobId)
  | .execute orch jobId => p.call (orch.execute jobId)
  | .start orch jobId =>
    { backend := (orch.start jobId).final p.backend
      running := if (orch.start jobId).result? p.backend = some true then jobId :: p.running
        else p.running }
  | .update jobId patch =>
    if jobId ∈ p.running then
      { backend := (onStores (updateJob jobId patch)).final p.backend
        running := if patch.status.map JobStatus.active = some false then p.running.erase jobId
          else p.running }
    else p
  | .write vectors documents chunks =>
    { p with backend := { p.backend with
        stores := ⟨vectors, documents, chunks, p.backend.stores.jobs⟩ } }

abbrev jobs (p : Process) : JobRepository := p.backend.stores.jobs

/-- The new names are drawn at random by the host, so that no job has them yet. -/
def Fresh (p : Process) : Act → Prop
  | .prepareUpload _ _ newJobId _ _ _ _ _ _ _ => ¬ Knows p.jobs newJobId
  | .prepareReindex _ newJobId _ _ _ => ¬ Knows p.jobs newJobId
  | _ => True

/-- A job is not retried while another one indexes its document version. -/
def RetriesFree (p : Process) : Act → Prop
  | .retryJob _ domainId jobId =>
    ∀ job, Retryable p.backend domainId jobId job → Free p.jobs (jobDoc job)
  | _ => True

/-- A process that has just come up, over a job table from before. -/
structure Idle (p : Process) : Prop where
  unique : OneActive p.jobs
  pending : p.backend.pending = .empty
  running : p.running = []

/-- What every act keeps: the jobs that wait and the jobs under way are active, and no job is
both. -/
structure Exclusive (p : Process) : Prop where
  unique : OneActive p.jobs
  waiting : ∀ id, (p.backend.pending.get? id).isSome → Active p.jobs id
  running : ∀ id ∈ p.running, Active p.jobs id
  apart : ∀ id ∈ p.running, p.backend.pending.get? id = none
  nodup : p.running.Nodup

theorem Idle.exclusive {p : Process} (h : p.Idle) : p.Exclusive where
  unique := h.unique
  waiting id hid := by
    rw [h.pending] at hid
    cases hid
  running id hid := by
    rw [h.running] at hid
    cases hid
  apart id hid := by
    rw [h.running] at hid
    cases hid
  nodup := h.running ▸ List.nodup_nil

end Process

theorem Active.knows {j : JobRepository} {id : String} (h : Active j id) : Knows j id := by
  obtain ⟨job, hget, -⟩ := h
  exact Option.isSome_iff_exists.mpr ⟨job, hget⟩

theorem active_of_statusOf {j : JobRepository} {id : String} {status : JobStatus}
    (h : statusOf j id = some status) (hactive : status.active = true) : Active j id := by
  obtain ⟨job, hget, rfl⟩ := Option.map_eq_some_iff.mp h
  exact ⟨job, hget, hactive⟩

namespace Process

variable {p : Process}

theorem Exclusive.congr {b : Backend} (h : p.Exclusive) (hjobs : b.stores.jobs = p.jobs)
    (hpending : ∀ id, (b.pending.get? id).isSome → (p.backend.pending.get? id).isSome) :
    Exclusive { p with backend := b } := by
  refine ⟨?_, ?_, ?_, ?_, h.nodup⟩
  · rw [jobs, hjobs]
    exact h.unique
  · intro id hid
    rw [jobs, hjobs]
    exact h.waiting id (hpending id hid)
  · intro id hid
    rw [jobs, hjobs]
    exact h.running id hid
  · intro id hid
    rw [← Option.not_isSome_iff_eq_none]
    intro hsome
    have hnone := h.apart id hid
    rw [← Option.not_isSome_iff_eq_none] at hnone
    exact hnone (hpending id hsome)

/-- A job that is not under way is given a request and made active. -/
theorem Exclusive.queue {jobId : String} {b : Backend} (h : p.Exclusive)
    (hunique : OneActive b.stores.jobs) (hnew : Active b.stores.jobs jobId) (hidle : jobId ∉ p.running)
    (hkept : ∀ id, id ≠ jobId → Active p.jobs id → Active b.stores.jobs id)
    (hpending : ∀ id, id ≠ jobId → b.pending.get? id = p.backend.pending.get? id) :
    Exclusive { p with backend := b } := by
  refine ⟨hunique, ?_, ?_, ?_, h.nodup⟩
  · intro id hid
    by_cases hsame : id = jobId
    · exact hsame ▸ hnew
    · exact hkept id hsame (h.waiting id ((hpending id hsame) ▸ hid))
  · intro id hid
    exact hkept id (ne_of_mem_of_not_mem hid hidle) (h.running id hid)
  · intro id hid
    exact (hpending id (ne_of_mem_of_not_mem hid hidle)).trans (h.apart id hid)

theorem Exclusive.registers {newJobId : String} {b : Backend} (h : p.Exclusive)
    (hfresh : ¬ Knows p.jobs newJobId) (hb : Registers newJobId p.backend b) :
    Exclusive { p with backend := b } := by
  cases hb with
  | refused hjobs hpending => exact h.congr hjobs fun id hid => hpending ▸ hid
  | created job hid hstatus hjobs hpending =>
    subst hid
    have hget := get_of_create hjobs
    refine h.queue (h.unique.create hjobs) ⟨job, ?_, ?_⟩ ?_ ?_ hpending
    · rw [hget, if_pos rfl]
    · rw [hstatus]
      rfl
    · exact fun hmem => hfresh (h.running _ hmem).knows
    · rintro id hid ⟨row, hrow, hactive⟩
      exact ⟨row, by rw [hget, if_neg hid, hrow], hactive⟩

theorem Exclusive.retries {domainId jobId : String} {b : Backend} (h : p.Exclusive)
    (hfree : ∀ job, Retryable p.backend domainId jobId job → Free p.jobs (jobDoc job))
    (hb : Retries domainId jobId p.backend b) : Exclusive { p with backend := b } := by
  cases hb with
  | refused hjobs hpending => exact h.congr hjobs fun id hid => hpending ▸ hid
  | reset job htaken htouches hstatus hpending =>
    refine h.queue ?_ (active_of_statusOf hstatus rfl) ?_ ?_ hpending
    · refine h.unique.touches htouches fun row hget => .inr (hfree row ?_)
      cases hget.symm.trans htaken.known
      exact htaken
    · intro hmem
      obtain ⟨row, hget, hactive⟩ := h.running jobId hmem
      cases hget.symm.trans htaken.known
      obtain hfailed | hpart := htaken.status
      · rw [hfailed] at hactive
        cases hactive
      · rw [hpart] at hactive
        cases hactive
    · exact fun id hid => htouches.active hid

/-- The request is taken out before anything else, and no job changes. -/
theorem ensures_start {orch : IndexingOrchestrator} {jobId : String} {b : Backend} :
    Ensures (orch.start jobId) b
      (fun began b' => b'.stores.jobs = b.stores.jobs ∧
        ((began = false ∧ b' = b) ∨
          (b.pending.get? jobId).isSome ∧ b'.pending = b.pending.erase jobId))
      fun _ b' => b'.stores.jobs = b.stores.jobs ∧ b'.pending = b.pending.erase jobId := by
  rw [IndexingOrchestrator.start, ensures_bind, ensures_get]
  cases hpending : b.pending.get? jobId with
  | none => exact ⟨rfl, .inl ⟨rfl, rfl⟩⟩
  | some request =>
    rw [ensures_bind, ensures_modify, ensures_bind, ensures_onStores]
    refine Ensures.mono ensures_ensureCollectionExists ?_ fun _ _ h => h.elim
    rintro _ s ⟨-, hjobs⟩
    rw [ensures_bind, ensures_ofExcept]
    exact ⟨fun _ _ => ⟨hjobs, .inr ⟨rfl, rfl⟩⟩, fun _ _ => ⟨hjobs, rfl⟩⟩

theorem isSome_of_erase {jobId id : String} {pending : Dict String IndexingRequest}
    (h : ((pending.erase jobId).get? id).isSome) : (pending.get? id).isSome := by
  rw [Dict.get?_erase] at h
  split at h
  · cases h
  · exact h

theorem Exclusive.start (h : p.Exclusive) (orch : IndexingOrchestrator) (jobId : String) :
    (p.step (.start orch jobId)).Exclusive := by
  rw [step]
  split
  · rename_i hbegan
    obtain ⟨hjobs, ⟨hfalse, -⟩ | ⟨hsome, hpending⟩⟩ := ensures_start.of_result? hbegan
    · cases hfalse
    have hrest : Exclusive { p with backend := (orch.start jobId).final p.backend } :=
      h.congr hjobs fun id hid => isSome_of_erase (hpending ▸ hid)
    have hnone : ((orch.start jobId).final p.backend).pending.get? jobId = none := by
      rw [hpending, Dict.get?_erase, if_pos rfl]
    have hnew : jobId ∉ p.running := by
      intro hmem
      rw [h.apart jobId hmem] at hsome
      cases hsome
    refine ⟨hrest.unique, hrest.waiting, ?_, ?_, List.nodup_cons.mpr ⟨hnew, h.nodup⟩⟩
    · refine List.forall_mem_cons.mpr ⟨?_, hrest.running⟩
      rw [jobs, hjobs]
      exact h.waiting jobId hsome
    · exact List.forall_mem_cons.mpr ⟨hnone, hrest.apart⟩
  · refine Ensures.final (P := fun b => Exclusive { p with backend := b }) ?_
    refine ensures_start.mono ?_ ?_
    · rintro _ b ⟨hjobs, ⟨-, rfl⟩ | ⟨-, hpending⟩⟩
      · exact h
      · exact h.congr hjobs fun _ hid => isSome_of_erase (hpending ▸ hid)
    · rintro _ b ⟨hjobs, hpending⟩
      exact h.congr hjobs fun _ hid => isSome_of_erase (hpending ▸ hid)

theorem final_updateJob {b : Backend} {jobId : String} {patch : JobPatch} {j : JobRepository}
    (h : b.stores.jobs.update jobId patch = .ok j) :
    (onStores (updateJob jobId patch)).final b = { b with stores := { b.stores with jobs := j } } := by
  refine Ensures.final (P := fun b' => b' = _) (ensures_onStores.mpr ?_)
  rw [updateJob, ensures_bind, ensures_get, ensures_bind, h]
  exact rfl

theorem active_update {j j' : JobRepository} {jobId : String} {patch : JobPatch}
    (h : j.update jobId patch = .ok j') (hactive : Active j jobId)
    (hpatch : patch.status.map JobStatus.active ≠ some false) : Active j' jobId := by
  obtain ⟨job, hget, hjob⟩ := hactive
  obtain ⟨row, hrow, rfl⟩ := exists_of_update h
  cases hget.symm.trans hrow
  refine ⟨_, by rw [JobRepository.get, Dict.get?_set, if_pos rfl], ?_⟩
  rw [JobPatch.apply]
  cases hstatus : patch.status with
  | none => exact hjob
  | some status =>
    rw [hstatus] at hpatch
    exact Bool.eq_true_of_not_eq_false fun hfalse => hpatch (congrArg some hfalse)

theorem Exclusive.update (h : p.Exclusive) (jobId : String) (patch : JobPatch) :
    (p.step (.update jobId patch)).Exclusive := by
  rw [step]
  split
  swap
  · exact h
  rename_i hmem
  have hactive := h.running jobId hmem
  obtain ⟨j, hj⟩ := exists_update hactive.knows patch
  have htouches := touches_update hj
  rw [final_updateJob hj]
  have hunique : OneActive j := by
    refine h.unique.touches htouches fun row hrow => .inl ?_
    obtain ⟨job, hget, hjob⟩ := hactive
    cases hget.symm.trans hrow
    exact hjob
  have hwaiting : ∀ id, (p.backend.pending.get? id).isSome → Active j id := by
    intro id hid
    refine htouches.active ?_ (h.waiting id hid)
    rintro rfl
    rw [h.apart id hmem] at hid
    cases hid
  split
  · -- A final status ends the execution.
    refine ⟨hunique, hwaiting, ?_, ?_, h.nodup.erase jobId⟩
    · intro id hid
      obtain ⟨hne, hrun⟩ := h.nodup.mem_erase_iff.mp hid
      exact htouches.active hne (h.running id hrun)
    · exact fun id hid => h.apart id (List.mem_of_mem_erase hid)
  · rename_i hpatch
    refine ⟨hunique, hwaiting, ?_, h.apart, h.nodup⟩
    intro id hid
    by_cases hsame : id = jobId
    · exact hsame ▸ active_update hj hactive hpatch
    · exact htouches.active hsame (h.running id hid)

theorem Exclusive.write (h : p.Exclusive) (v : VectorStore) (d : DocumentRepository)
    (c : ChunkRepository) : (p.step (.write v d c)).Exclusive :=
  ⟨h.unique, h.waiting, h.running, h.apart, h.nodup⟩

def opened (orch : IndexingOrchestrator) (jobId domainId : String) (b : Backend) : Backend :=
  ⟨(orch.ensureCollectionExists domainId).final b.stores, b.pending.erase jobId⟩

theorem jobs_opened (orch : IndexingOrchestrator) (jobId domainId : String) (b : Backend) :
    (opened orch jobId domainId b).stores.jobs = b.stores.jobs := by
  refine Ensures.final (P := fun s : Stores => s.jobs = b.stores.jobs) ?_
  exact ensures_ensureCollectionExists.mono (fun _ _ h => h.2) fun _ _ h => h.elim

/-- What `execute` and its first part have in common, with any continuation. -/
theorem opening_eq {A : Type} {orch : IndexingOrchestrator} {jobId domainId : String} {b : Backend}
    {k : Value → BackendTask A} :
    (do
      modify fun b : Backend => { b with pending := b.pending.erase jobId }
      onStores (orch.ensureCollectionExists domainId)
      let piiConfig ← Program.ofExcept (orch.loadPiiConfig domainId)
      k piiConfig : BackendTask A) b =
    (Program.ofExcept (orch.loadPiiConfig domainId) >>= k) (opened orch jobId domainId b) := by
  have hensures : Ensures (orch.ensureCollectionExists domainId) b.stores _ _ :=
    ensures_ensureCollectionExists
  obtain ⟨u, hu⟩ := hensures.exists_result
  have hcreate := eq_ok_of_result? hu
  have hmodify : (modify fun b : Backend => { b with pending := b.pending.erase jobId } :
      BackendTask PUnit) b = .ok ⟨⟩ { b with pending := b.pending.erase jobId } := rfl
  rw [bind_apply hmodify]
  simp only [bind, EStateM.bind, onStores, hcreate, opened]

section Start

variable {orch : IndexingOrchestrator} {jobId : String} {b : Backend}

theorem start_of_unknown (h : b.pending.get? jobId = none) : orch.start jobId b = .ok false b := by
  rw [IndexingOrchestrator.start, get_bind_apply, h]
  rfl

theorem execute_of_unknown (h : b.pending.get? jobId = none) : orch.execute jobId b = .ok () b := by
  rw [IndexingOrchestrator.execute, get_bind_apply, h]
  rfl

theorem start_of_request {request : IndexingRequest} (h : b.pending.get? jobId = some request) :
    orch.start jobId b =
      (Program.ofExcept (orch.loadPiiConfig request.domainId) >>= fun _ => pure true)
        (opened orch jobId request.domainId b) := by
  rw [← opening_eq (k := fun _ => pure true), IndexingOrchestrator.start, get_bind_apply, h]

theorem execute_of_request {request : IndexingRequest} (h : b.pending.get? jobId = some request) :
    orch.execute jobId b =
      (Program.ofExcept (orch.loadPiiConfig request.domainId) >>= fun piiConfig =>
        tryCatch
          (do
            let _ ← onStores (orch.service.runWithExistingJob request jobId piiConfig)
            return)
          fun _ => return)
        (opened orch jobId request.domainId b) := by
  rw [← opening_eq, IndexingOrchestrator.execute, get_bind_apply, h]

/-- An execution that does not begin, or one that starts and then writes a final status. -/
inductive Executes (orch : IndexingOrchestrator) (jobId : String) (b b' : Backend) : Prop where
  | stopped (began : (orch.start jobId).result? b ≠ some true)
      (left : b' = (orch.start jobId).final b)
  | ran (began : (orch.start jobId).result? b = some true)
      (run : Finishes jobId ((orch.start jobId).final b).stores b'.stores)
      (pending : b'.pending = ((orch.start jobId).final b).pending)

theorem executes_execute (hknows : (b.pending.get? jobId).isSome → Knows b.stores.jobs jobId) :
    Executes orch jobId b ((orch.execute jobId).final b) := by
  cases hpending : b.pending.get? jobId with
  | none =>
    refine .stopped ?_ ?_
    · rw [Program.result?, start_of_unknown hpending]
      simp
    · rw [Program.final, Program.final, start_of_unknown hpending, execute_of_unknown hpending]
  | some request =>
    have hstart : orch.start jobId b = _ := start_of_request hpending
    have hexecute : orch.execute jobId b = _ := execute_of_request hpending
    cases hconfig : orch.loadPiiConfig request.domainId with
    | error e =>
      rw [hconfig] at hstart hexecute
      refine .stopped ?_ ?_
      · rw [Program.result?, hstart]
        rintro ⟨⟩
      · rw [final_congr hstart, final_congr hexecute]
        rfl
    | ok piiConfig =>
      rw [hconfig] at hstart hexecute
      have hleft : (orch.start jobId).final b = opened orch jobId request.domainId b :=
        final_congr hstart
      have hjob : Knows (opened orch jobId request.domainId b).stores.jobs jobId :=
        (jobs_opened orch jobId request.domainId b).symm ▸ hknows (hpending ▸ rfl)
      rw [final_congr hexecute]
      refine Ensures.final (P := fun b' => Executes orch jobId b b') ?_
      rw [ensures_bind]
      refine ensures_pure.mpr ?_
      rw [ensures_tryCatch, ensures_bind, ensures_onStores]
      have hran : ∀ s', Finishes jobId (opened orch jobId request.domainId b).stores s' →
          Executes orch jobId b ⟨s', (opened orch jobId request.domainId b).pending⟩ := by
        intro s' hs'
        refine .ran ?_ ?_ ?_
        · rw [Program.result?, hstart]
          rfl
        · rw [hleft]
          exact hs'
        · rw [hleft]
      exact (ensures_runWithExistingJob_finishes hjob).mono (fun _ s' hs' => hran s' hs')
        fun _ s' hs' => hran s' hs'

end Start

/-- The writes that an execution makes after its start. -/
def ByRun (jobId : String) : Act → Prop
  | .update id _ => id = jobId
  | .write _ _ _ => True
  | _ => False

theorem step_update {jobId : String} {patch : JobPatch} {j : JobRepository} (hmem : jobId ∈ p.running)
    (h : p.jobs.update jobId patch = .ok j) :
    p.step (.update jobId patch) =
      { backend := { p.backend with stores := { p.backend.stores with jobs := j } }
        running := if patch.status.map JobStatus.active = some false then p.running.erase jobId
          else p.running } := by
  rw [step, if_pos hmem, final_updateJob h]

theorem progresses_by_steps {jobId : String} {s s' : Stores} (h : Progresses jobId s s')
    (pending : Dict String IndexingRequest) {running : List String} (hmem : jobId ∈ running) :
    ∃ acts : List Act, (∀ a ∈ acts, ByRun jobId a) ∧
      acts.foldl step ⟨⟨s, pending⟩, running⟩ = ⟨⟨s', pending⟩, running⟩ := by
  induction h with
  | refl => exact ⟨[], List.forall_mem_nil _, rfl⟩
  | @tail s₁ s₂ _ hstep ih =>
    obtain ⟨acts, hacts, hfold⟩ := ih
    have hmore : ∀ {a s''}, ByRun jobId a →
        step ⟨⟨s₁, pending⟩, running⟩ a = ⟨⟨s'', pending⟩, running⟩ → ∃ acts : List Act,
          (∀ a ∈ acts, ByRun jobId a) ∧
          acts.foldl step ⟨⟨s, pending⟩, running⟩ = ⟨⟨s'', pending⟩, running⟩ := by
      intro a s'' ha hlast
      refine ⟨acts ++ [a], ?_, ?_⟩
      · exact List.forall_mem_append.mpr ⟨hacts, List.forall_mem_singleton.mpr ha⟩
      · rw [List.foldl_append, hfold, List.foldl_cons, List.foldl_nil, hlast]
    cases hstep with
    | job patch j hstatus hupdated =>
      refine hmore (a := .update jobId patch) rfl ?_
      rw [step_update hmem hupdated, if_neg (hstatus ▸ nofun)]
    | rest v d c => exact hmore (a := .write v d c) trivial rfl

/-- A whole execution does what its start and single writes do. -/
theorem Exclusive.execute_by_steps (h : p.Exclusive) (orch : IndexingOrchestrator)
    (jobId : String) : ∃ acts : List Act, (∀ a ∈ acts, ByRun jobId a) ∧
      acts.foldl step (p.step (.start orch jobId)) = p.step (.execute orch jobId) := by
  have hknows : (p.backend.pending.get? jobId).isSome → Knows p.backend.stores.jobs jobId :=
    fun hsome => (h.waiting jobId hsome).knows
  have hexecutes : Executes orch jobId p.backend ((orch.execute jobId).final p.backend) :=
    executes_execute hknows
  generalize hb : (orch.execute jobId).final p.backend = b at hexecutes
  have hlast : p.step (.execute orch jobId) = ⟨b, p.running⟩ := by
    rw [← hb]
    rfl
  cases hexecutes with
  | stopped hbegan hleft =>
    refine ⟨[], List.forall_mem_nil _, ?_⟩
    rw [hlast, hleft, List.foldl_nil, step, if_neg hbegan]
  | ran hbegan hrun hpending =>
    rw [hlast, step, if_pos hbegan]
    generalize (orch.start jobId).final p.backend = b₁ at hrun hpending
    obtain ⟨s, pending⟩ := b
    obtain ⟨s₀, pending₀⟩ := b₁
    cases hpending
    cases hrun with
    | mk s₁ patch j hprogress hstatus hupdated =>
      obtain ⟨acts, hacts, hfold⟩ :=
        progresses_by_steps hprogress pending (List.mem_cons_self (a := jobId) (l := p.running))
      refine ⟨acts ++ [.update jobId patch], ?_, ?_⟩
      · exact List.forall_mem_append.mpr ⟨hacts, List.forall_mem_singleton.mpr rfl⟩
      · rw [List.foldl_append, hfold, List.foldl_cons, List.foldl_nil,
          step_update List.mem_cons_self hupdated, if_pos hstatus, List.erase_cons_head]

theorem Exclusive.execute (h : p.Exclusive) (orch : IndexingOrchestrator) (jobId : String) :
    (p.step (.execute orch jobId)).Exclusive := by
  obtain ⟨acts, hacts, hfold⟩ := h.execute_by_steps orch jobId
  rw [← hfold]
  refine Along.final (P := fun _ a => ByRun jobId a) (.of_forall acts fun a ha _ => hacts a ha)
    (h.start orch jobId) fun a _ p hp ha => ?_
  cases a with
  | update id patch => exact hp.update id patch
  | write v d c => exact hp.write v d c
  | _ => exact ha.elim

theorem Exclusive.step {a : Act} (h : p.Exclusive) (hfresh : p.Fresh a) (hfree : p.RetriesFree a) :
    (p.step a).Exclusive := by
  cases a with
  | prepareUpload orch newDocId newJobId domainId docId version title filename inputType metadata =>
    exact h.registers hfresh ensures_prepareUpload_registers.final
  | prepareReindex orch newJobId doc mode metadata =>
    exact h.registers hfresh ensures_prepareReindex_registers.final
  | retryJob orch domainId jobId => exact h.retries hfree ensures_retryJob_retries.final
  | execute orch jobId => exact h.execute orch jobId
  | start orch jobId => exact h.start orch jobId
  | update jobId patch => exact h.update jobId patch
  | write v d c => exact h.write v d c

end Process

/-- A document version has at most one active job at every moment, whatever calls come in and
however the executions interleave, when no job is retried while another one of its version is
active. -/
theorem one_active_of_retries_free (p : Process) (hidle : p.Idle) (acts past : List Act)
    (hacts : Along Process.step (fun p a => p.Fresh a ∧ p.RetriesFree a) acts p)
    (hpast : past <+: acts) : OneActive (past.foldl Process.step p).jobs := by
  obtain ⟨rest, rfl⟩ := hpast
  have hexclusive : (past.foldl Process.step p).Exclusive :=
    hacts.of_append.final hidle.exclusive fun a _ p hp ha => hp.step ha.1 ha.2
  exact hexclusive.unique

section Handbook

def Process.empty : Process := ⟨Backend.empty, []⟩

def unreadable : IndexingOrchestrator :=
  { desk with service := { splitting ["a"] with
      parse := fun _ => .error ⟨"ParserError", "handbook.txt: not a text file"⟩ } }

def failedReindex : List Act :=
  [.prepareUpload desk "DOC-0" "J1" "hr" (some "handbook") "v1" "Handbook" "handbook.txt" .null
    .empty, .execute desk "J1", .prepareReindex desk "J2" handbook.doc .full .empty,
    .execute unreadable "J2"]

/-- The failed reindex is retried while the next one waits. -/
def crossingRetry : List Act :=
  failedReindex ++ [.prepareReindex desk "J3" handbook.doc .full .empty, .retryJob desk "hr" "J2"]

/-- The failed reindex is retried, and its execution comes to the parser. -/
def plainRetry : List Act :=
  failedReindex ++ [.retryJob desk "hr" "J2", .start desk "J2",
    .update "J2" { status := some .parsing }]

theorem idle_empty : Process.empty.Idle where
  unique _ _ _ _ h := by cases h
  pending := rfl
  running := rfl

theorem one_active_plain_retry :
    ("J2" ∈ (plainRetry.foldl Process.step .empty).running) ∧
      OneActive (plainRetry.foldl Process.step .empty).jobs := by
  refine ⟨by decide +kernel, ?_⟩
  refine one_active_of_retries_free .empty idle_empty plainRetry plainRetry ?_ List.prefix_rfl
  have hfree : ∀ job, Retryable (failedReindex.foldl Process.step .empty).backend "hr" "J2" job →
      Free (failedReindex.foldl Process.step .empty).jobs (jobDoc job) := by
    intro job hjob
    obtain ⟨row, hrow, hdoc⟩ := (Option.any_eq_true (fun job => jobDoc job = handbook.doc)
      ((failedReindex.foldl Process.step .empty).jobs.get "J2")).mp (by decide +kernel)
    cases hrow.symm.trans hjob.known
    rw [of_decide_eq_true hdoc]
    exact free_of_all (by decide +kernel)
  refine ⟨⟨?_, trivial⟩, ⟨trivial, trivial⟩, ⟨?_, trivial⟩, ⟨trivial, trivial⟩, ⟨trivial, hfree⟩,
    ⟨trivial, trivial⟩, ⟨trivial, trivial⟩, trivial⟩
  · exact Bool.eq_false_iff.mp (by decide +kernel)
  · exact Bool.eq_false_iff.mp (by decide +kernel)

theorem crossing_retry_two_active :
    Along Process.step Process.Fresh crossingRetry .empty ∧
      ¬ OneActive (crossingRetry.foldl Process.step .empty).jobs := by
  refine ⟨?_, fun hone => ?_⟩
  · refine ⟨?_, trivial, ?_, trivial, ?_, trivial, trivial⟩
    · exact Bool.eq_false_iff.mp (by decide +kernel)
    · exact Bool.eq_false_iff.mp (by decide +kernel)
    · exact Bool.eq_false_iff.mp (by decide +kernel)
  · have hactive : ∀ id ∈ ["J2", "J3"], ∃ job,
        (crossingRetry.foldl Process.step .empty).jobs.get id = some job ∧
          job.status.active = true ∧ jobDoc job = handbook.doc := by
      intro id hid
      have hall : ["J2", "J3"].all (fun id =>
        ((crossingRetry.foldl Process.step .empty).jobs.get id).any fun job =>
          job.status.active = true ∧ jobDoc job = handbook.doc) = true := by decide +kernel
      obtain ⟨job, hget, hjob⟩ := (Option.any_eq_true _ _).mp (List.all_eq_true.mp hall id hid)
      exact ⟨job, hget, of_decide_eq_true hjob⟩
    obtain ⟨job₂, hget₂, hactive₂, hdoc₂⟩ := hactive "J2" (by decide)
    obtain ⟨job₃, hget₃, hactive₃, hdoc₃⟩ := hactive "J3" (by decide)
    have hsame := hone "J2" "J3" job₂ job₃ hget₂ hget₃ hactive₂ hactive₃ (hdoc₂.trans hdoc₃.symm)
    exact absurd hsame (by decide)

end Handbook

end DomainRag.Indexing
