import DomainRag.Indexing.Exclusive

/-! # Retrying a job

`retry_job` builds the request of a failed job again from the row of its document. The run writes
that row near its end. A job whose run failed before has a row only if an earlier run left one.
-/

namespace DomainRag.Indexing

open Store Program

section Row

variable {svc : IndexingService} {request : IndexingRequest} {piiConfig : Value} {jobId : String}
  {s : Stores}

/-- What a run has to pass before it writes the row of its document. -/
structure IndexingService.WritesDocument (svc : IndexingService) (request : IndexingRequest)
    (piiConfig : Value) (s : Stores) : Prop where
  listed : request.mode = .parserOnly ∨ request.mode = .embeddingOnly → svc.faults.listByDoc = none
  path : svc.takesFull request s.chunks = true
  reaches : ∃ p, svc.prepare request piiConfig = .ok p ∧
    svc.overThreshold (IndexingService.failureRate p.chunks p.embed.failed) = false ∧
    svc.CanUpsert s.vectors request.domainId (svc.points request p)
  document : svc.faults.upsertDocument = none

/-- The row of the document is written exactly when the run comes so far. -/
inductive DocumentLeft (svc : IndexingService) (request : IndexingRequest) (piiConfig : Value)
    (s s' : Stores) : Prop where
  | written (writes : svc.WritesDocument request piiConfig s)
      (documents : s'.documents = s.documents.upsert request.doc (svc.buildDocument request))
  | kept (fails : ¬ svc.WritesDocument request piiConfig s)
      (documents : s'.documents = s.documents)

theorem DocumentLeft.congr {s₁ s₂ : Stores} (h : DocumentLeft svc request piiConfig s s₁)
    (h' : s₂.documents = s₁.documents) : DocumentLeft svc request piiConfig s s₂ := by
  cases h with
  | written hwrites hdocuments => exact .written hwrites (h'.trans hdocuments)
  | kept hfails hdocuments => exact .kept hfails (h'.trans hdocuments)

def SameDocuments (s s' : Stores) : Prop := s'.documents = s.documents

instance : Std.Refl SameDocuments := ⟨fun _ => rfl⟩

instance : IsTrans Stores SameDocuments := ⟨fun _ _ _ h h' => Eq.trans h' h⟩

theorem follows_updateJob_documents (patch : JobPatch) :
    Follows SameDocuments (updateJob jobId patch) :=
  follows_update fun _ _ _ => rfl

theorem FullReturned.documentLeft {r : IndexingResult} {s' : Stores}
    (h : FullReturned svc request piiConfig jobId s r s')
    (hlisted : request.mode = .parserOnly ∨ request.mode = .embeddingOnly →
      svc.faults.listByDoc = none)
    (hpath : svc.takesFull request s.chunks = true) : DocumentLeft svc request piiConfig s s' := by
  cases h with
  | gaveUp p hprepared hover _ hkept =>
    refine .kept ?_ hkept.documents
    rintro ⟨-, -, ⟨p', hprepared', hbelow, -⟩, -⟩
    cases hprepared.symm.trans hprepared'
    cases hover.symm.trans hbelow
  | done p hdocument _ houtcome =>
    exact .written ⟨hlisted, hpath, ⟨p, houtcome.prepared, houtcome.below,
      houtcome.written.upsert⟩, hdocument⟩ houtcome.written.documents

theorem FullRaised.documentLeft {s' : Stores}
    (h : FullRaised svc request piiConfig jobId s s')
    (hlisted : request.mode = .parserOnly ∨ request.mode = .embeddingOnly →
      svc.faults.listByDoc = none)
    (hpath : svc.takesFull request s.chunks = true) : DocumentLeft svc request piiConfig s s' := by
  cases h with
  | unprepared hprepared hkept =>
    refine .kept ?_ hkept.documents
    rintro ⟨-, -, ⟨p', hprepared', -⟩, -⟩
    exact hprepared p' hprepared'
  | points p hprepared hrefused hkept =>
    refine .kept ?_ hkept.documents
    rintro ⟨-, -, ⟨p', hprepared', -, hcan⟩, -⟩
    cases hprepared.symm.trans hprepared'
    exact hrefused hcan
  | document p _ _ _ hfault _ hdocuments =>
    exact .kept (fun hwrites => hfault hwrites.document) hdocuments
  | rows p hprepared hbelow hcan hdocument _ _ hdocuments =>
    exact .written ⟨hlisted, hpath, ⟨p, hprepared, hbelow, hcan⟩, hdocument⟩ hdocuments

theorem ensures_indexFull_left (hjob : Knows s.jobs jobId)
    (hlisted : request.mode = .parserOnly ∨ request.mode = .embeddingOnly →
      svc.faults.listByDoc = none)
    (hpath : svc.takesFull request s.chunks = true) :
    Ensures (svc.indexFull request jobId piiConfig) s
      (fun _ => DocumentLeft svc request piiConfig s)
      fun _ => DocumentLeft svc request piiConfig s := by
  refine (ensures_indexFull_ends hjob).mono ?_ ?_
  · exact fun _ _ h => h.1.documentLeft hlisted hpath
  · exact fun _ _ h => h.documentLeft hlisted hpath

/-- A run that works on the stored chunks never comes to the row of the document. -/
theorem left_of_stored {s' : Stores} (hpath : svc.takesFull request s.chunks = false)
    (hdocuments : s'.documents = s.documents) : DocumentLeft svc request piiConfig s s' := by
  refine .kept (fun hwrites => ?_) hdocuments
  cases hpath.symm.trans hwrites.path

theorem ensures_reindexParserOnly_left (hjob : Knows s.jobs jobId)
    (hmode : request.mode = .parserOnly) :
    Ensures (svc.reindexParserOnly request jobId piiConfig) s
      (fun _ => DocumentLeft svc request piiConfig s)
      fun _ => DocumentLeft svc request piiConfig s := by
  refine (ensures_reindexParserOnly_ends hjob hmode).mono ?_ ?_
  · rintro r s' ⟨⟨hpath, hlisted, hreturned⟩ | ⟨hpath, -, hrelabelled⟩, -⟩
    · exact hreturned.documentLeft (fun _ => hlisted) hpath
    · exact left_of_stored hpath hrelabelled.relabels.documents
  · rintro e s' (⟨hpath, hlisted, hraised⟩ | ⟨hstopped, hrelabelled⟩)
    · exact hraised.documentLeft (fun _ => hlisted) hpath
    · refine .kept ?_ hrelabelled.relabels.documents
      rintro ⟨hlisted, hpath, ⟨p, hprepared, -⟩, -⟩
      obtain hunprepared | hfault | hstored := hstopped
      · exact hunprepared p hprepared
      · exact hfault (hlisted (.inl hmode))
      · cases hstored.symm.trans hpath

theorem ensures_reindexEmbeddingOnly_left (hjob : Knows s.jobs jobId)
    (hmode : request.mode = .embeddingOnly) :
    Ensures (svc.reindexEmbeddingOnly request jobId piiConfig) s
      (fun _ => DocumentLeft svc request piiConfig s)
      fun _ => DocumentLeft svc request piiConfig s := by
  refine (ensures_reindexEmbeddingOnly_ends hjob hmode).mono ?_ ?_
  · rintro r s' ⟨⟨hpath, hlisted, hreturned⟩ | ⟨hpath, ⟨-, -, hkept⟩ | ⟨p, -, hpointed, -⟩⟩, -⟩
    · exact hreturned.documentLeft (fun _ => hlisted) hpath
    · exact left_of_stored hpath hkept.documents
    · exact left_of_stored hpath hpointed.documents
  · rintro e s' (⟨hpath, hlisted, hraised⟩ | ⟨hfault | ⟨hpath, -⟩, hkept⟩ |
      ⟨hpath, p, -, hpointed, -⟩)
    · exact hraised.documentLeft (fun _ => hlisted) hpath
    · exact .kept (fun hwrites => hfault (hwrites.listed (.inr hmode))) hkept.documents
    · exact left_of_stored hpath hkept.documents
    · exact left_of_stored hpath hpointed.documents

/-- What becomes of the row of the document, whatever fails in the run. -/
theorem ensures_runWithExistingJob_left (hjob : Knows s.jobs jobId) :
    Ensures (svc.runWithExistingJob request jobId piiConfig) s
      (fun _ => DocumentLeft svc request piiConfig s)
      fun _ => DocumentLeft svc request piiConfig s := by
  refine ensures_runWithExistingJob_of (fun hmode => ?_) (ensures_reindexParserOnly_left hjob)
    (ensures_reindexEmbeddingOnly_left hjob) ?_
  · exact ensures_indexFull_left hjob (fun h => absurd h (not_listing_of_full hmode))
      (IndexingService.takesFull_of_full hmode _)
  · intro e s₁ h₁
    refine (follows_updateJob_documents _ s₁).mono ?_ ?_
    · exact fun _ _ h₂ => h₁.congr h₂
    · exact fun _ _ h₂ => h₁.congr h₂

end Row

/-- The two calls that register a job of their own. -/
inductive Entry where
  | upload (newDocId newJobId domainId : String) (docId : Option String)
      (version title filename : String) (inputType : Value) (metadata : Dict String Value)
  | reindex (newJobId : String) (doc : DocKey) (mode : ReindexMode) (metadata : Dict String Value)

def Entry.prepare (orch : IndexingOrchestrator) : Entry → BackendTask PreparedIndexing
  | .upload newDocId newJobId domainId docId version title filename inputType metadata =>
    orch.prepareUpload newDocId newJobId domainId docId version title filename inputType metadata
  | .reindex newJobId doc mode metadata => orch.prepareReindex newJobId doc mode metadata

/-- A job waits with the request that it was registered for. -/
structure Registered (b : Backend) (jobId : String) (request : IndexingRequest) : Prop where
  pending : b.pending.get? jobId = some request
  job : ∃ job, b.stores.jobs.get jobId = some job ∧ job.status = .pending ∧
    jobDoc job = request.doc
  file : request.filePath.orElse (.str "") = request.filePath

section Registering

variable {orch : IndexingOrchestrator} {b : Backend}

theorem orElse_orElse (v w : Value) : (v.orElse w).orElse w = v.orElse w := by
  by_cases hv : v.truthy = true
  · have hvw : v.orElse w = v := if_pos hv
    rw [hvw, hvw]
  · have hvw : v.orElse w = w := if_neg hv
    rw [hvw]
    exact ite_self w

theorem str_orElse_empty (text : String) : (Value.str text).orElse (.str "") = .str text := by
  by_cases h : text = ""
  · rw [h]
    rfl
  · rw [Value.orElse, if_pos (by rw [Value.truthy, decide_eq_true_eq]; exact h)]

theorem ensures_register_request {newJobId : String} {doc : DocKey} {filename : Value}
    {build : Except Exc IndexingRequest} {prepared : String → PreparedIndexing}
    (hid : ∀ id, (prepared id).jobId = id)
    (hbuild : ∀ request, build = .ok request → request.doc = doc ∧
      request.filePath.orElse (.str "") = request.filePath) :
    Ensures (do
        let jobId ← onStores (registerJob newJobId doc filename)
        let request ← Program.ofExcept build
        modify fun b : Backend => { b with pending := b.pending.set jobId request }
        return prepared jobId : BackendTask PreparedIndexing) b
      (fun p b' => ∃ request, Registered b' p.jobId request) fun _ _ => True := by
  refine ensures_register.mpr ⟨fun jobs hjobs => ⟨fun request hrequest => ?_, fun _ _ => trivial⟩,
    fun _ _ => trivial⟩
  obtain ⟨hdoc, hfile⟩ := hbuild request hrequest
  rw [hid]
  have hget := (get_of_create hjobs newJobId).trans (if_pos rfl)
  refine ⟨request, ?_, ⟨_, hget, rfl, hdoc.symm⟩, hfile⟩
  exact (Dict.get?_set b.pending newJobId newJobId request).trans (if_pos rfl)

theorem ensures_prepare_registered (entry : Entry) :
    Ensures (entry.prepare orch) b (fun p b' => ∃ request, Registered b' p.jobId request)
      fun _ _ => True := by
  cases entry with
  | upload newDocId newJobId domainId docId version title filename inputType metadata =>
    refine ensures_bind.mpr (ensures_ofExcept.mpr ⟨fun stored _ => ?_, fun _ _ => trivial⟩)
    refine ensures_register_request (fun _ => rfl) fun request hrequest => ?_
    obtain ⟨acl, -, hrequest⟩ := Except.bind_eq_ok_iff.mp hrequest
    obtain ⟨tags, -, hrequest⟩ := Except.bind_eq_ok_iff.mp hrequest
    cases hrequest
    exact ⟨rfl, str_orElse_empty _⟩
  | reindex newJobId doc mode metadata =>
    rw [Entry.prepare, IndexingOrchestrator.prepareReindex, ensures_bind, ensures_get]
    cases b.stores.documents.get doc with
    | none => trivial
    | some existing =>
      refine ensures_register_request (fun _ => rfl) fun request hrequest => ?_
      obtain ⟨acl, -, hrequest⟩ := Except.bind_eq_ok_iff.mp hrequest
      simp only at hrequest
      split at hrequest
      · obtain ⟨tags, -, hrequest⟩ := Except.bind_eq_ok_iff.mp hrequest
        cases hrequest
        exact ⟨rfl, orElse_orElse _ _⟩
      · obtain ⟨tags, -, hrequest⟩ := Except.bind_eq_ok_iff.mp hrequest
        cases hrequest
        exact ⟨rfl, orElse_orElse _ _⟩

end Registering

/-- The document has a row from which a retry can read its tags, and which names the file. -/
def RowFor (documents : DocumentRepository) (request : IndexingRequest) : Prop :=
  ∃ record tags, documents.get request.doc = some record ∧
    (record (.shared .tags)).iter = .ok tags ∧
    (record .sourcePath).orElse (.str "") = request.filePath

/-- A retry of the job succeeds, and a request for the same document version and the same file
waits again. -/
def Reregisters (orch : IndexingOrchestrator) (b : Backend) (jobId : String)
    (request : IndexingRequest) : Prop :=
  ∃ prepared b' again, orch.retryJob request.domainId jobId b = .ok prepared b' ∧
    b'.pending.get? jobId = some again ∧ again.doc = request.doc ∧
    again.filePath = request.filePath

section Retrying

variable {orch : IndexingOrchestrator} {b : Backend} {jobId : String} {request : IndexingRequest}
  {job : IndexingJobRecord}

theorem of_retryRequest {doc : DocKey} {record : DocumentRecord} {again : IndexingRequest}
    (h : orch.retryRequest doc record = .ok again) :
    ∃ tags, (record (.shared .tags)).iter = .ok tags ∧ again.doc = doc ∧
      again.filePath = (record .sourcePath).orElse (.str "") := by
  obtain ⟨tags, htags, h⟩ := Except.bind_eq_ok_iff.mp h
  cases h
  exact ⟨tags, htags, rfl, rfl⟩

theorem ensures_retryJob_reads (hjob : b.stores.jobs.get jobId = some job)
    (hdoc : jobDoc job = request.doc) (hstatus : job.status = .failed ∨ job.status = .partial_) :
    Ensures (orch.retryJob request.domainId jobId) b
      (fun _ b' => ∃ record tags again, b.stores.documents.get request.doc = some record ∧
        (record (.shared .tags)).iter = .ok tags ∧ b'.pending.get? jobId = some again ∧
        again.doc = request.doc ∧ again.filePath = (record .sourcePath).orElse (.str ""))
      fun _ _ => ∀ record tags, b.stores.documents.get request.doc = some record →
        (record (.shared .tags)).iter ≠ .ok tags := by
  obtain ⟨hdomain, hid, hversion⟩ := DocKey.mk.inj hdoc
  have hkey : (⟨request.domainId, job.docId, job.docVersion⟩ : DocKey) = request.doc := by
    rw [hid, hversion]
    rfl
  refine ensures_retryJob_of (fun hnone _ => ?_) fun job' record again h => ?_
  · intro record tags hdocument htags
    have hbuilt : ∃ again, orch.retryRequest request.doc record = .ok again := by
      rw [IndexingOrchestrator.retryRequest, htags]
      exact ⟨_, rfl⟩
    obtain ⟨again, hagain⟩ := hbuilt
    refine hnone job record again ⟨hjob, hdomain, hstatus, ?_, ?_⟩
    · rw [hkey, hdocument]
    · rw [hkey, hagain]
  · obtain rfl := Option.some.inj (hjob.symm.trans h.known)
    obtain ⟨tags, htags, hdoc', hfile⟩ := of_retryRequest h.built
    refine (ensures_reset h.knows rfl).mono ?_ fun _ _ hs => hs.elim
    intro _ s _
    refine ⟨record, tags, again, hkey ▸ h.document, htags, ?_, hdoc'.trans hkey, hfile⟩
    exact (Dict.get?_set b.pending jobId jobId again).trans (if_pos rfl)

theorem reregisters_iff_rowFor (hjob : b.stores.jobs.get jobId = some job)
    (hdoc : jobDoc job = request.doc) (hstatus : job.status = .failed ∨ job.status = .partial_) :
    Reregisters orch b jobId request ↔ RowFor b.stores.documents request := by
  have hretry : Ensures (orch.retryJob request.domainId jobId) b _ _ :=
    ensures_retryJob_reads hjob hdoc hstatus
  constructor
  · rintro ⟨prepared, b', again, hok, hpending, -, hfile⟩
    obtain ⟨record, tags, again', hdocument, htags, hpending', -, hfile'⟩ := hretry.of_ok hok
    cases hpending.symm.trans hpending'
    exact ⟨record, tags, hdocument, htags, hfile'.symm.trans hfile⟩
  · rintro ⟨record, tags, hdocument, htags, hfile⟩
    cases hresult : orch.retryJob request.domainId jobId b with
    | error e b' => exact absurd htags (hretry.of_error hresult record tags hdocument)
    | ok prepared b' =>
      obtain ⟨record', _, again, hdocument', -, hpending, hdoc', hfile'⟩ := hretry.of_ok hresult
      cases hdocument.symm.trans hdocument'
      exact ⟨prepared, b', again, hresult, hpending, hdoc', hfile'.trans hfile⟩

end Retrying

namespace IndexingOrchestrator

/-- An execution finds a collection for its points, or makes one. -/
def HasCollection (orch : IndexingOrchestrator) (b : Backend) (domainId : String) : Prop :=
  (b.stores.vectors.collections.get? domainId).isSome ∨ orch.service.faults.createCollection = none

/-- What an execution of the request has to pass before it writes the row of the document. -/
structure ReachesDocument (orch : IndexingOrchestrator) (b : Backend) (request : IndexingRequest) :
    Prop where
  listed : request.mode = .parserOnly ∨ request.mode = .embeddingOnly →
    orch.service.faults.listByDoc = none
  path : orch.service.takesFull request b.stores.chunks = true
  reaches : ∃ piiConfig p, orch.loadPiiConfig request.domainId = .ok piiConfig ∧
    orch.service.prepare request piiConfig = .ok p ∧
    orch.service.overThreshold (IndexingService.failureRate p.chunks p.embed.failed) = false ∧
    (orch.service.points request p = [] ∨
      orch.service.faults.upsertChunks = none ∧ orch.HasCollection b request.domainId)
  document : orch.service.faults.upsertDocument = none

end IndexingOrchestrator

section Executing

variable {orch : IndexingOrchestrator} {b : Backend} {jobId : String} {request : IndexingRequest}
  {piiConfig : Value}

theorem ensures_ensureCollectionExists_has {domainId : String} :
    Ensures (orch.ensureCollectionExists domainId) b.stores
      (fun _ s => (s.vectors.collections.get? domainId).isSome ↔ orch.HasCollection b domainId)
      fun _ _ => False := by
  rw [IndexingOrchestrator.ensureCollectionExists, ensures_tryCatch, ensures_failing]
  refine ⟨fun e he => ?_, fun hnone => ?_⟩
  · refine ensures_pure.mpr ⟨.inl, ?_⟩
    rintro (hsome | hnone)
    · exact hsome
    · cases he.symm.trans hnone
  · rw [ensures_bind, ensures_get, ensures_bind, ensures_ofExcept]
    refine ⟨fun v hv => ?_, fun e he => ?_⟩
    · refine iff_of_true ?_ (.inr hnone)
      rw [VectorStore.createCollection] at hv
      split at hv
      · cases hv
      · cases hv
        rw [Dict.get?_set, if_pos rfl]
        rfl
    · refine ensures_pure.mpr (iff_of_true ?_ (.inr hnone))
      rw [VectorStore.createCollection] at he
      split at he
      · rename_i hmem
        exact Dict.get?_isSome_iff.mpr hmem
      · cases he

theorem opened_spec (orch : IndexingOrchestrator) (b : Backend) (jobId domainId : String) :
    ((Process.opened orch jobId domainId b).stores.documents = b.stores.documents ∧
      (Process.opened orch jobId domainId b).stores.chunks = b.stores.chunks) ∧
    (((Process.opened orch jobId domainId b).stores.vectors.collections.get? domainId).isSome ↔
      orch.HasCollection b domainId) := by
  refine Ensures.final (P := fun s : Stores => (s.documents = b.stores.documents ∧
    s.chunks = b.stores.chunks) ∧
      ((s.vectors.collections.get? domainId).isSome ↔ orch.HasCollection b domainId)) ?_
  refine (ensures_ensureCollectionExists.and ensures_ensureCollectionExists_has).mono ?_
    fun _ _ h => h.1.elim
  rintro _ s ⟨⟨hsame, -⟩, hhas⟩
  exact ⟨⟨hsame.documents, hsame.chunks⟩, hhas⟩

theorem writesDocument_opened_iff (hconfig : orch.loadPiiConfig request.domainId = .ok piiConfig) :
    orch.service.WritesDocument request piiConfig
        (Process.opened orch jobId request.domainId b).stores ↔
      orch.ReachesDocument b request := by
  obtain ⟨⟨-, hchunks⟩, hhas⟩ := opened_spec orch b jobId request.domainId
  constructor
  · rintro ⟨hlisted, hpath, ⟨p, hprepared, hbelow, hcan⟩, hdocument⟩
    refine ⟨hlisted, hchunks ▸ hpath, ⟨piiConfig, p, hconfig, hprepared, hbelow, ?_⟩, hdocument⟩
    exact hcan.imp_right (And.imp_right hhas.mp)
  · rintro ⟨hlisted, hpath, ⟨piiConfig', p, hconfig', hprepared, hbelow, hcan⟩, hdocument⟩
    cases hconfig.symm.trans hconfig'
    refine ⟨hlisted, hchunks.symm ▸ hpath, ⟨p, hprepared, hbelow, ?_⟩, hdocument⟩
    exact hcan.imp_right (And.imp_right hhas.mpr)

/-- What an execution that starts does to its job and to the row of its document. -/
theorem executed (hpending : b.pending.get? jobId = some request)
    (hknows : Knows b.stores.jobs jobId)
    (hconfig : orch.loadPiiConfig request.domainId = .ok piiConfig) :
    Touches jobId b.stores.jobs ((orch.execute jobId).final b).stores.jobs ∧
      DocumentLeft orch.service request piiConfig
        (Process.opened orch jobId request.domainId b).stores
        ((orch.execute jobId).final b).stores := by
  have hexecute : orch.execute jobId b = _ := Process.execute_of_request hpending
  have hjobs := Process.jobs_opened orch jobId request.domainId b
  rw [final_congr hexecute, hconfig]
  refine Ensures.final (P := fun b' : Backend => Touches jobId b.stores.jobs b'.stores.jobs ∧
    DocumentLeft orch.service request piiConfig
      (Process.opened orch jobId request.domainId b).stores b'.stores) ?_
  rw [ensures_bind]
  refine ensures_pure.mpr ?_
  rw [ensures_tryCatch, ensures_bind, ensures_onStores]
  have hknows' : Knows (Process.opened orch jobId request.domainId b).stores.jobs jobId :=
    hjobs.symm ▸ hknows
  refine ((ensures_runWithExistingJob_finishes hknows').and
    (ensures_runWithExistingJob_left hknows')).mono ?_ ?_
  · rintro _ s ⟨hfinishes, hleft⟩
    exact ⟨hjobs ▸ hfinishes.touches, hleft⟩
  · rintro _ s ⟨hfinishes, hleft⟩
    exact ⟨hjobs ▸ hfinishes.touches, hleft⟩

end Executing

theorem rowFor_upsert {documents : DocumentRepository} {svc : IndexingService}
    {request : IndexingRequest} (hfile : request.filePath.orElse (.str "") = request.filePath) :
    RowFor (documents.upsert request.doc (svc.buildDocument request)) request := by
  refine ⟨svc.buildDocument request, request.tags, ?_, rfl, hfile⟩
  exact (Dict.get?_set documents.docs request.doc request.doc _).trans (if_pos rfl)

/-- A job whose execution has failed, in part or altogether, can be retried exactly when the run
came to write the row of the document, or when a row for the same file was there before. The other
tables may have changed between the call that registered the job and its execution. -/
theorem retry_reregisters_iff (entry : Entry) (registrar orch retrier : IndexingOrchestrator)
    (b₀ b₁ b : Backend) (prepared : PreparedIndexing) (request : IndexingRequest)
    (hprepare : entry.prepare registrar b₀ = .ok prepared b₁)
    (hrequest : b₁.pending.get? prepared.jobId = some request)
    (hpending : b.pending.get? prepared.jobId = b₁.pending.get? prepared.jobId)
    (hjob : b.stores.jobs.get prepared.jobId = b₁.stores.jobs.get prepared.jobId)
    (hfailed : statusOf ((orch.execute prepared.jobId).final b).stores.jobs prepared.jobId =
        some .failed ∨
      statusOf ((orch.execute prepared.jobId).final b).stores.jobs prepared.jobId =
        some .partial_) :
    Reregisters retrier ((orch.execute prepared.jobId).final b) prepared.jobId request ↔
      orch.ReachesDocument b request ∨ RowFor b.stores.documents request := by
  obtain ⟨request', hregistered⟩ := (ensures_prepare_registered entry).of_ok hprepare
  cases hrequest.symm.trans hregistered.pending
  obtain ⟨job, hget, hstatus, hdoc⟩ := hregistered.job
  rw [← hjob] at hget
  rw [← hpending] at hrequest
  have hknows : Knows b.stores.jobs prepared.jobId := Option.isSome_iff_exists.mpr ⟨job, hget⟩
  have hwaiting : statusOf b.stores.jobs prepared.jobId = some .pending := by
    rw [statusOf, hget, Option.map_some, hstatus]
  cases hconfig : orch.loadPiiConfig request.domainId with
  | error e =>
    -- The job would still be pending.
    have hjobs : ((orch.execute prepared.jobId).final b).stores.jobs = b.stores.jobs :=
      ((ensures_execute_unconfigured hrequest hconfig).mono (fun _ _ h => h.elim)
        fun _ _ h => h.2).final
    rw [hjobs, hwaiting] at hfailed
    obtain hfailed | hfailed := hfailed <;> cases hfailed
  | ok piiConfig =>
    obtain ⟨htouches, hleft⟩ := executed hrequest hknows hconfig
    have hended : ∃ job', ((orch.execute prepared.jobId).final b).stores.jobs.get prepared.jobId =
        some job' ∧ (job'.status = .failed ∨ job'.status = .partial_) := by
      obtain hfailed | hfailed := hfailed
      · obtain ⟨job', hget', hstatus'⟩ := Option.map_eq_some_iff.mp hfailed
        exact ⟨job', hget', .inl hstatus'⟩
      · obtain ⟨job', hget', hstatus'⟩ := Option.map_eq_some_iff.mp hfailed
        exact ⟨job', hget', .inr hstatus'⟩
    obtain ⟨job', hget', hstatus'⟩ := hended
    obtain ⟨before, hbefore, hsame⟩ := htouches.get hget'
    cases hget.symm.trans hbefore
    rw [reregisters_iff_rowFor hget' (hsame.trans hdoc) hstatus']
    have hdocuments := (opened_spec orch b prepared.jobId request.domainId).1.1
    cases hleft with
    | written hwrites hwritten =>
      rw [hwritten]
      exact iff_of_true (rowFor_upsert hregistered.file)
        (.inl ((writesDocument_opened_iff hconfig).mp hwrites))
    | kept hfails hkept =>
      rw [hkept, hdocuments]
      exact (or_iff_right fun h => hfails ((writesDocument_opened_iff hconfig).mpr h)).symm

section Handbook

def uploadEntry : Entry :=
  .upload "DOC-0" "J1" "hr" (some "handbook") "v1" "Handbook" "handbook.txt" .null .empty

def rowless : IndexingOrchestrator :=
  { desk with service := { splitting ["a"] with
      faults := { replaceChunks := some ⟨"OperationalError", "connection lost"⟩ } } }

def enrolled : Backend := (uploadEntry.prepare desk).final Backend.empty

theorem pending_enrolled : enrolled.pending.get? "J1" = some handbook := rfl

/-- The row was written before the chunk table failed. -/
theorem retry_reregisters_rowless :
    statusOf ((rowless.execute "J1").final enrolled).stores.jobs "J1" = some .failed ∧
      Reregisters desk ((rowless.execute "J1").final enrolled) "J1" handbook := by
  have hfailed : statusOf ((rowless.execute "J1").final enrolled).stores.jobs "J1" =
      some .failed := by decide +kernel
  obtain ⟨⟨jobId, docId, version, stored⟩, hprepare, hid⟩ := (Option.any_eq_true
    (fun p => p.jobId = "J1")
    ((uploadEntry.prepare desk).result? Backend.empty)).mp (by decide +kernel)
  obtain rfl : jobId = "J1" := of_decide_eq_true hid
  obtain ⟨p, hp, hbelow⟩ := exists_ok_of_any (x := rowless.service.prepare handbook .null)
    (p := fun p =>
      !rowless.service.overThreshold (IndexingService.failureRate p.chunks p.embed.failed))
    (by decide +kernel)
  refine ⟨hfailed, (retry_reregisters_iff uploadEntry desk rowless desk Backend.empty enrolled
    enrolled ⟨"J1", docId, version, stored⟩ handbook (eq_ok_of_result? hprepare) pending_enrolled
    rfl rfl (.inl hfailed)).mpr (.inl ?_)⟩
  rw [Bool.not_eq_true'] at hbelow
  exact ⟨fun _ => rfl, rfl, ⟨.null, p, rfl, hp, hbelow, .inr ⟨rfl, .inr rfl⟩⟩, rfl⟩

/-- A first upload that the parser cannot read leaves a failed job and no row. -/
theorem unread_upload_cannot_be_retried :
    statusOf ((unreadable.execute "J1").final enrolled).stores.jobs "J1" = some .failed ∧
      ¬ Reregisters desk ((unreadable.execute "J1").final enrolled) "J1" handbook := by
  refine ⟨by decide +kernel, ?_⟩
  rintro ⟨prepared, b', -, hok, -⟩
  have hnone : ((desk.retryJob "hr" "J1").result?
      ((unreadable.execute "J1").final enrolled)).isSome = false := by decide +kernel
  rw [Program.result?, show desk.retryJob "hr" "J1" _ = _ from hok] at hnone
  cases hnone

end Handbook

end DomainRag.Indexing
