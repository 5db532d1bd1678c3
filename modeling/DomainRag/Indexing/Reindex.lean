import DomainRag.Indexing.Consistency
import DomainRag.Indexing.Orchestrator

/-! # What a reindex keeps

A reindex builds its request from the document's row. That row has no access control list, and
the request takes neither the input type nor the domain metadata from it, so the stores that a
mode writes again lose them.
-/

namespace DomainRag.Indexing

open Store Program

def accessFields : List ChunkField :=
  [.acl, .shared .securityLevel, .shared .approvalStatus, .shared .validFrom, .shared .validUntil]

/-- Every row and every point of the document version carries the given labels. -/
structure Guarded (s : Stores) (doc : DocKey) (label : ChunkField → Value) : Prop where
  rows : ∀ row ∈ s.chunks.listByDoc doc none, ∀ f ∈ accessFields, row.attrs f = label f
  points : ∀ id p, s.vectors.point? doc.domainId id = some p → Carries p doc →
    ∀ f ∈ accessFields, p.payload.get? f.name = some (label f)

def labels (record : DocumentRecord) (acl : List Value) : ChunkField → Value
  | .acl => .list acl
  | .shared f => record (.shared f)
  | _ => .null

/-- A document that was indexed with a row and an access control list; its validity window was
written as ISO dates. -/
structure Indexed (repr : Value → String) (s : Stores) (doc : DocKey) (record : DocumentRecord)
    (acl : List Value) : Prop where
  document : s.documents.get doc = some record
  guarded : Guarded s doc (labels record acl)
  validFrom : toIsoDate repr (record (.shared .validFrom)) = record (.shared .validFrom)
  validUntil : toIsoDate repr (record (.shared .validUntil)) = record (.shared .validUntil)

/-- Rows, points and the document's row keep what they said about access, input type and
metadata, and rows and points agree. -/
structure Preserved (s' : Stores) (doc : DocKey) (record : DocumentRecord) (acl : List Value) :
    Prop where
  rowAcl : ∀ row ∈ s'.chunks.listByDoc doc none, row.attrs .acl = .list acl
  pointAcl : ∀ id p, s'.vectors.point? doc.domainId id = some p → Carries p doc →
    p.payload.get? "acl" = some (.list acl)
  document : ∃ record', s'.documents.get doc = some record' ∧
    record' .inputType = record .inputType ∧ record' .metadata = record .metadata
  agree : ∀ row ∈ s'.chunks.listByDoc doc none, ∀ id p,
    s'.vectors.point? doc.domainId id = some p → Carries p doc →
    ∀ f ∈ accessFields, p.payload.get? f.name = some (row.attrs f)

theorem Guarded.preserved {s' : Stores} {doc : DocKey} {record record' : DocumentRecord}
    {acl : List Value} (h : Guarded s' doc (labels record acl))
    (hdocument : s'.documents.get doc = some record')
    (hinput : record' .inputType = record .inputType)
    (hmetadata : record' .metadata = record .metadata) : Preserved s' doc record acl where
  rowAcl row hrow := h.rows row hrow .acl List.mem_cons_self
  pointAcl id p hp hcarries := h.points id p hp hcarries .acl List.mem_cons_self
  document := ⟨record', hdocument, hinput, hmetadata⟩
  agree row hrow id p hp hcarries f hf := by
    rw [h.rows row hrow f hf]
    exact h.points id p hp hcarries f hf

section Guards

variable {s s' : Stores} {doc : DocKey} {label : ChunkField → Value}

theorem Guarded.relabels {names : List String} (h : Guarded s doc label)
    (hs : Relabels names s s') (hdoc : "doc_id" ∉ names) (hversion : "doc_version" ∉ names)
    (hnames : ∀ f ∈ accessFields, f.name ∉ names) : Guarded s' doc label where
  rows row' hrow' f hf := by
    obtain ⟨key, hkey, hmem⟩ := ChunkRepository.mem_listByDoc.mp hrow'
    obtain ⟨i, hi⟩ := ChunkRepository.mem_rows_iff.mp hmem
    have hrel := hs.rows ⟨key, i⟩
    rw [hi] at hrel
    generalize hrow : s.chunks.row? ⟨key, i⟩ = o at hrel
    cases hrel with
    | some hsame =>
      rw [hsame.attrs f (hnames f hf)]
      refine h.rows _ (ChunkRepository.mem_listByDoc.mpr ⟨key, hkey, ?_⟩) f hf
      exact ChunkRepository.mem_rows_iff.mpr ⟨i, hrow⟩
  points id p' hp' hcarries f hf := by
    obtain ⟨p, hp, hsame⟩ := hs.point?_eq_some hp'
    rw [hsame.payload f.name (hnames f hf)]
    refine h.points id p hp ⟨?_, ?_⟩ f hf
    · rw [← hsame.payload _ hdoc]
      exact hcarries.1
    · rw [← hsame.payload _ hversion]
      exact hcarries.2

variable {svc : IndexingService} {request : IndexingRequest} {piiConfig : Value} {jobId : String}

def requestLabel (request : IndexingRequest) : ChunkField → Value
  | .acl => .list request.acl
  | .shared f => request.shared f
  | _ => .null

theorem payload_get?_access (warning : ChunkPIIWarning) (c : Chunk) {f : ChunkField}
    (hf : f ∈ accessFields) :
    (svc.payload request warning c).get? f.name = some (requestLabel request f) := by
  simp only [accessFields, List.mem_cons, List.not_mem_nil, or_false] at hf
  rcases hf with rfl | rfl | rfl | rfl | rfl <;> rfl

theorem buildRecord_access (warning : ChunkPIIWarning) (c : Chunk) {f : ChunkField}
    (hf : f ∈ accessFields) :
    (svc.buildRecord request warning c).attrs f = requestLabel request f := by
  simp only [accessFields, List.mem_cons, List.not_mem_nil, or_false] at hf
  rcases hf with rfl | rfl | rfl | rfl | rfl <;> rfl

variable {chunks : List Chunk} {vectors : Dict String Embedding}
  {warnings : Dict String ChunkPIIWarning}

theorem buildPoints_access {p : Point} (hp : p ∈ svc.buildPoints request chunks vectors warnings)
    {f : ChunkField} (hf : f ∈ accessFields) :
    p.payload.get? f.name = some (requestLabel request f) := by
  obtain ⟨c, -, hc⟩ := List.mem_filterMap.mp hp
  obtain ⟨v, -, rfl⟩ := Option.map_eq_some_iff.mp hc
  exact payload_get?_access _ c hf

theorem buildRecords_access {row : ChunkRecord}
    (hrow : row ∈ svc.buildRecords request chunks vectors warnings) {f : ChunkField}
    (hf : f ∈ accessFields) : row.attrs f = requestLabel request f := by
  obtain ⟨c, -, hc⟩ := List.mem_filterMap.mp hrow
  obtain ⟨v, -, rfl⟩ := Option.map_eq_some_iff.mp hc
  exact buildRecord_access _ c hf

/-- The request writes the labels that are already there, or it writes no chunk. -/
def Relabelling (request : IndexingRequest) (label : ChunkField → Value) (ids : List String) :
    Prop :=
  (∀ f ∈ accessFields, requestLabel request f = label f) ∨ ids = []

theorem points_of_upserted
    (h : Upserted s.vectors s'.vectors request.domainId
      (svc.buildPoints request chunks vectors warnings))
    (hguarded : Guarded s doc label)
    (hlabels : Relabelling request label (embeddedIds chunks vectors)) (id : String) (p : Point)
    (hp : s'.vectors.point? doc.domainId id = some p) (hcarries : Carries p doc) (f : ChunkField)
    (hf : f ∈ accessFields) : p.payload.get? f.name = some (label f) := by
  obtain ⟨-, q, hq, hid, hpoint⟩ | ⟨-, hpoint⟩ := h.cases doc.domainId id
  · obtain rfl : q = p := Option.some.inj (hpoint.symm.trans hp)
    obtain hsame | hnone := hlabels
    · rw [buildPoints_access hq hf, hsame f hf]
    · have hmem := mem_buildPoints_ids.mp ⟨q, hq, hid⟩
      rw [hnone] at hmem
      exact absurd hmem List.not_mem_nil
  · exact hguarded.points id p (hpoint.symm.trans hp) hcarries f hf

theorem Guarded.written {p : Prepared} (h : Guarded s request.doc label)
    (hw : Written svc request p jobId s s')
    (hlabels : Relabelling request label (embeddedIds p.chunks p.embed.vectors)) :
    Guarded s' request.doc label where
  rows row hrow f hf := by
    obtain ⟨key, hkey, hmem⟩ := ChunkRepository.mem_listByDoc.mp hrow
    rw [hw.rows, ChunkRepository.rows_replaceChunks] at hmem
    split at hmem
    · obtain hsame | hnone := hlabels
      · rw [buildRecords_access hmem hf, hsame f hf]
      · have hid := mem_buildRecords_ids.mp ⟨row, hmem, rfl⟩
        rw [hnone] at hid
        exact absurd hid List.not_mem_nil
    · exact h.rows row (ChunkRepository.mem_listByDoc.mpr ⟨key, hkey, hmem⟩) f hf
  points := points_of_upserted hw.points h hlabels

def modelNames : List String := ["embedding_model", "embedding_version"]

theorem Guarded.reembedded {r : IndexingResult} (h : Guarded s request.doc label)
    (hr : Reembedded svc request jobId s r s' chunks warnings)
    (hlabels : Relabelling request label
      (embeddedIds chunks (svc.embedSafely chunks).vectors)) :
    Guarded s' request.doc label where
  rows := by
    obtain ⟨ids, hrows⟩ := hr.rows
    have hkeys : (Dict.ofList [("embedding_model", Value.str svc.modelName),
        ("embedding_version", .str svc.modelName)]).keys ⊆ modelNames := List.Subset.refl modelNames
    have hguarded := h.relabels (Relabels.updateMetadata s request.domainId ids hkeys)
      (by decide) (by decide) (by decide)
    intro row hrow
    rw [hrows] at hrow
    exact hguarded.rows row hrow
  points := points_of_upserted hr.points h hlabels

end Guards

/-- The two ways to index a stored document again, without overriding its metadata. -/
inductive Restart where
  | reindex (newJobId : String) (doc : DocKey) (mode : ReindexMode)
  | retry (domainId jobId : String)

def Restart.prepare (orch : IndexingOrchestrator) : Restart → BackendTask PreparedIndexing
  | .reindex newJobId doc mode => orch.prepareReindex newJobId doc mode .empty
  | .retry domainId jobId => orch.retryJob domainId jobId

structure Rebuilt (repr : Value → String) (record : DocumentRecord) (request : IndexingRequest) :
    Prop where
  acl : request.acl = []
  inputType : request.inputType = .null
  metadata : request.metadata = .empty
  securityLevel : request.securityLevel = record (.shared .securityLevel)
  approvalStatus : request.approvalStatus = record (.shared .approvalStatus)
  validFrom : request.validFrom = toIsoDate repr (record (.shared .validFrom))
  validUntil : request.validUntil = toIsoDate repr (record (.shared .validUntil))

/-- A job was registered and its rebuilt request waits for it. -/
structure Restarted (repr : Value → String) (b : Backend) (prepared : PreparedIndexing)
    (b₁ : Backend) (request : IndexingRequest) (record : DocumentRecord) : Prop where
  document : b.stores.documents.get request.doc = some record
  rebuilt : Rebuilt repr record request
  pending : b₁.pending.get? prepared.jobId = some request
  vectors : b₁.stores.vectors = b.stores.vectors
  documents : b₁.stores.documents = b.stores.documents
  chunks : b₁.stores.chunks = b.stores.chunks
  knows : Knows b₁.stores.jobs prepared.jobId

section Restarts

variable {orch : IndexingOrchestrator} {doc : DocKey} {record : DocumentRecord} {b : Backend}

theorem rebuilt_reindexRequest {mode : ReindexMode} {request : IndexingRequest}
    (h : orch.reindexRequest doc mode record .empty = .ok request) :
    Rebuilt orch.repr record request ∧ request.doc = doc := by
  obtain ⟨acl, hacl, h⟩ := Except.bind_eq_ok_iff.mp h
  obtain ⟨tags, -, h⟩ := Except.bind_eq_ok_iff.mp h
  cases hacl
  cases h
  exact ⟨⟨rfl, rfl, rfl, rfl, rfl, rfl, rfl⟩, rfl⟩

theorem rebuilt_retryRequest {request : IndexingRequest}
    (h : orch.retryRequest doc record = .ok request) :
    Rebuilt orch.repr record request ∧ request.doc = doc := by
  obtain ⟨tags, -, h⟩ := Except.bind_eq_ok_iff.mp h
  cases h
  exact ⟨⟨rfl, rfl, rfl, rfl, rfl, rfl, rfl⟩, rfl⟩

theorem ensures_onStores {A : Type} {x : StoreTask A} {Q : A → Backend → Prop}
    {R : Exc → Backend → Prop} :
    Ensures (onStores x) b Q R ↔ Ensures x b.stores (fun a s => Q a { b with stores := s })
      fun e s => R e { b with stores := s } := by
  simp only [Ensures, onStores]
  cases x b.stores <;> rfl

/-- The end that an upload and a reindex have in common: the job is registered, and then its
request is built and set to wait. -/
theorem ensures_register {newJobId : String} {filename : Value}
    {build : Except Exc IndexingRequest} {prepared : String → PreparedIndexing}
    {Q : PreparedIndexing → Backend → Prop} {R : Exc → Backend → Prop} :
    Ensures (do
        let jobId ← onStores (registerJob newJobId doc filename)
        let request ← Program.ofExcept build
        modify fun b : Backend => { b with pending := b.pending.set jobId request }
        return prepared jobId : BackendTask PreparedIndexing) b Q R ↔
      (∀ jobs, b.stores.jobs.create
          { jobId := newJobId, domainId := doc.domainId, docId := doc.docId
            docVersion := doc.version, filename := filename } = .ok jobs →
        (∀ request, build = .ok request → Q (prepared newJobId)
          ⟨{ b.stores with jobs := jobs }, b.pending.set newJobId request⟩) ∧
        ∀ e, build = .error e → R e ⟨{ b.stores with jobs := jobs }, b.pending⟩) ∧
      ∀ e, b.stores.jobs.create
          { jobId := newJobId, domainId := doc.domainId, docId := doc.docId
            docVersion := doc.version, filename := filename } = .error e → R e b := by
  rw [ensures_bind, ensures_onStores, registerJob, ensures_bind, ensures_get, ensures_bind,
    ensures_ofExcept]
  refine and_congr (forall_congr' fun jobs => imp_congr_right fun _ => ?_) Iff.rfl
  rw [ensures_bind, ensures_set, ensures_pure, ensures_bind, ensures_ofExcept]
  exact Iff.rfl

theorem ensures_prepareReindex {newJobId : String} {mode : ReindexMode} :
    Ensures (orch.prepareReindex newJobId doc mode .empty) b
      (fun prepared b₁ => ∃ request record, Restarted orch.repr b prepared b₁ request record)
      fun _ _ => True := by
  rw [IndexingOrchestrator.prepareReindex, ensures_bind, ensures_get]
  cases hdocument : b.stores.documents.get doc with
  | none => trivial
  | some record =>
    refine ensures_register.mpr ⟨fun jobs hjobs => ⟨fun request hrequest => ?_, fun _ _ => trivial⟩,
      fun _ _ => trivial⟩
    obtain ⟨hrebuilt, rfl⟩ := rebuilt_reindexRequest hrequest
    refine ⟨request, record, hdocument, hrebuilt, ?_, rfl, rfl, rfl, knows_of_create hjobs⟩
    exact (Dict.get?_set b.pending newJobId newJobId request).trans (if_pos rfl)

/-- What `retry_job` finds before it changes anything: a failed job of the tenant and a row of its
document, from which the request can be built. -/
structure Taken (orch : IndexingOrchestrator) (b : Backend) (domainId jobId : String)
    (job : IndexingJobRecord) (record : DocumentRecord) (request : IndexingRequest) : Prop where
  known : b.stores.jobs.get jobId = some job
  tenant : job.domainId = domainId
  status : job.status = .failed ∨ job.status = .partial_
  document : b.stores.documents.get ⟨domainId, job.docId, job.docVersion⟩ = some record
  built : orch.retryRequest ⟨domainId, job.docId, job.docVersion⟩ record = .ok request

theorem Taken.knows {domainId jobId : String} {job : IndexingJobRecord}
    {request : IndexingRequest} (h : Taken orch b domainId jobId job record request) :
    Knows b.stores.jobs jobId :=
  Option.isSome_iff_exists.mpr ⟨job, h.known⟩

/-- A retry is refused while the backend is as it was, or its request waits and the job is set
back. -/
theorem ensures_retryJob_of {domainId jobId : String} {Q : PreparedIndexing → Backend → Prop}
    {R : Exc → Backend → Prop}
    (hrefused : (∀ job record request, ¬ Taken orch b domainId jobId job record request) →
      ∀ e, R e b)
    (htaken : ∀ job record request, Taken orch b domainId jobId job record request →
      Ensures (updateJob jobId { status := some .pending, progress := some 0
                                 indexedChunks := some 0, failedChunks := some [] }) b.stores
        (fun _ s => Q ⟨jobId, job.docId, job.docVersion, none⟩ ⟨s, b.pending.set jobId request⟩)
        fun e s => R e ⟨s, b.pending.set jobId request⟩) :
    Ensures (orch.retryJob domainId jobId) b Q R := by
  rw [IndexingOrchestrator.retryJob, ensures_bind, ensures_get]
  cases hjob : b.stores.jobs.get jobId with
  | none =>
    refine hrefused (fun job record request h => ?_) _
    cases hjob.symm.trans h.known
  | some job =>
    -- each check that fails contradicts one field of `Taken`
    have hsame : ∀ {job' record request}, Taken orch b domainId jobId job' record request →
        job' = job := fun h => Option.some.inj (h.known.symm.trans hjob)
    refine ensures_ite.mpr ⟨fun hother => hrefused (fun job' record request h => ?_) _,
      fun htenant => ?_⟩
    · exact hother (hsame h ▸ h.tenant)
    refine ensures_ite.mpr ⟨fun hneither => hrefused (fun job' record request h => ?_) _,
      fun hstatus => ?_⟩
    · exact not_or.mpr hneither (hsame h ▸ h.status)
    cases hdocument : b.stores.documents.get ⟨domainId, job.docId, job.docVersion⟩ with
    | none =>
      simp only [hdocument]
      refine hrefused (fun job' record request h => ?_) _
      obtain rfl := hsame h
      cases hdocument.symm.trans h.document
    | some record =>
      simp only [hdocument]
      rw [ensures_bind, ensures_ofExcept]
      refine ⟨fun request hrequest => ?_, fun e he => hrefused (fun job' record' request h => ?_) e⟩
      · rw [ensures_bind, ensures_modify, ensures_bind, ensures_onStores]
        exact htaken job record request ⟨hjob, not_not.mp htenant,
          (not_and_or.mp hstatus).imp not_not.mp not_not.mp, hdocument, hrequest⟩
      · obtain rfl := hsame h
        cases hdocument.symm.trans h.document
        cases he.symm.trans h.built

theorem ensures_retryJob {domainId jobId : String} :
    Ensures (orch.retryJob domainId jobId) b
      (fun prepared b₁ => ∃ request record, Restarted orch.repr b prepared b₁ request record)
      fun _ _ => True := by
  refine ensures_retryJob_of (fun _ _ => trivial) fun job record request h => ?_
  obtain ⟨hrebuilt, hdoc⟩ := rebuilt_retryRequest h.built
  refine ensures_updateJob rfl h.knows fun j hj => ?_
  refine ⟨request, record, hdoc ▸ h.document, hrebuilt, ?_, rfl, rfl, rfl, hj⟩
  exact (Dict.get?_set b.pending jobId jobId request).trans (if_pos rfl)

theorem ensures_restart {start : Restart} :
    Ensures (start.prepare orch) b
      (fun prepared b₁ => ∃ request record, Restarted orch.repr b prepared b₁ request record)
      fun _ _ => True := by
  cases start with
  | reindex newJobId doc mode => exact ensures_prepareReindex
  | retry domainId jobId => exact ensures_retryJob

/-- The collection step changes no point and no row. -/
structure SameContents (s s' : Stores) : Prop where
  points : ∀ d id, s'.vectors.point? d id = s.vectors.point? d id
  documents : s'.documents = s.documents
  chunks : s'.chunks = s.chunks

theorem ensures_ensureCollectionExists {domainId : String} {s : Stores} :
    Ensures (orch.ensureCollectionExists domainId) s
      (fun _ s' => SameContents s s' ∧ s'.jobs = s.jobs) fun _ _ => False := by
  have hsame : SameContents s s := ⟨fun _ _ => rfl, rfl, rfl⟩
  rw [IndexingOrchestrator.ensureCollectionExists, ensures_tryCatch, ensures_failing]
  refine ⟨fun _ _ => ⟨hsame, rfl⟩, fun _ => ?_⟩
  rw [ensures_bind, ensures_get, ensures_bind, ensures_ofExcept]
  refine ⟨fun v hv => ⟨⟨VectorStore.point?_createCollection hv, rfl, rfl⟩, rfl⟩, fun _ _ => ?_⟩
  exact ⟨hsame, rfl⟩

/-- The rule for an execution that has a request: the configuration is loaded after the
collection step, and whatever the run raises is swallowed. -/
theorem ensures_execute_of {jobId : String} {request : IndexingRequest}
    {Q : Unit → Backend → Prop} {R : Exc → Backend → Prop}
    (hpending : b.pending.get? jobId = some request)
    (hrun : ∀ s, SameContents b.stores s → s.jobs = b.stores.jobs →
      (∀ piiConfig, orch.loadPiiConfig request.domainId = .ok piiConfig →
        Ensures (orch.service.runWithExistingJob request jobId piiConfig) s
          (fun _ s' => Q () ⟨s', b.pending.erase jobId⟩)
          fun _ s' => Q () ⟨s', b.pending.erase jobId⟩) ∧
      ∀ e, orch.loadPiiConfig request.domainId = .error e → R e ⟨s, b.pending.erase jobId⟩) :
    Ensures (orch.execute jobId) b Q R := by
  rw [IndexingOrchestrator.execute, ensures_bind, ensures_get]
  simp only [hpending]
  rw [ensures_bind, ensures_modify, ensures_bind, ensures_onStores]
  refine Ensures.mono ensures_ensureCollectionExists ?_ fun _ _ h => h.elim
  rintro _ s ⟨hsame, hjobs⟩
  obtain ⟨hconfigured, hunconfigured⟩ := hrun s hsame hjobs
  rw [ensures_bind, ensures_ofExcept]
  refine ⟨fun piiConfig hconfig => ?_, hunconfigured⟩
  rw [ensures_tryCatch, ensures_bind, ensures_onStores]
  exact hconfigured piiConfig hconfig

/-- A job that `execute` leaves completed was run to its end. -/
theorem ensures_execute_job {jobId : String} {request : IndexingRequest} {piiConfig : Value}
    (hwork : orch.service.faults.TablesWork) (hpending : b.pending.get? jobId = some request)
    (hknows : Knows b.stores.jobs jobId)
    (hconfig : orch.loadPiiConfig request.domainId = .ok piiConfig) :
    Ensures (orch.execute jobId) b
      (fun _ b' => statusOf b'.stores.jobs jobId = some .completed →
        ∃ s r, SameContents b.stores s ∧ r.status = .completed ∧
          RunOutcome orch.service request piiConfig jobId s r b'.stores)
      fun _ _ => True := by
  refine ensures_execute_of hpending fun s hsame hjobs => ⟨fun config hloaded => ?_, fun _ _ => trivial⟩
  cases hconfig.symm.trans hloaded
  refine (ensures_runWithExistingJob hwork (hjobs.symm ▸ hknows)).mono ?_ ?_
  · rintro r s' ⟨houtcome, hrecorded⟩ hdone
    exact ⟨s, r, hsame, Option.some.inj (hrecorded.symm.trans hdone), houtcome⟩
  · rintro _ s' ⟨-, hrecorded⟩ hdone
    exact nomatch hrecorded.symm.trans hdone

end Restarts

/-- No chunk of the run receives a vector. -/
def IndexingService.EmbedsNothing (svc : IndexingService) (request : IndexingRequest)
    (piiConfig : Value) (chunkRows : ChunkRepository) : Prop :=
  if svc.takesFull request chunkRows then
    ∀ p, svc.prepare request piiConfig = .ok p → embeddedIds p.chunks p.embed.vectors = []
  else
    ∀ chunks, (chunkRows.listByDoc request.doc none).mapM chunkOfRow = .ok chunks →
      embeddedIds chunks (svc.embedSafely chunks).vectors = []

/-- The documents that a reindex does not harm: `parser_only` with rows to work on harms none,
the other runs need an empty access control list unless they embed nothing, and a run on the full
path needs a document without input type and domain metadata. -/
structure Unharmed (svc : IndexingService) (request : IndexingRequest) (piiConfig : Value)
    (chunkRows : ChunkRepository) (record : DocumentRecord) (acl : List Value) : Prop where
  acl : request.mode = .parserOnly ∧ svc.takesFull request chunkRows = false ∨
    acl = [] ∨ svc.EmbedsNothing request piiConfig chunkRows
  inputType : svc.takesFull request chunkRows = true → record .inputType = .null
  metadata : svc.takesFull request chunkRows = true → record .metadata = .dict []

section Outcomes

variable {svc : IndexingService} {request : IndexingRequest} {piiConfig : Value} {jobId : String}
  {repr : Value → String} {record : DocumentRecord} {acl : List Value} {s s' : Stores}

theorem Rebuilt.requestLabel_eq (h : Rebuilt repr record request)
    (hindexed : Indexed repr s request.doc record acl) {f : ChunkField} (hf : f ∈ accessFields) :
    requestLabel request f = labels record [] f := by
  simp only [accessFields, List.mem_cons, List.not_mem_nil, or_false] at hf
  rcases hf with rfl | rfl | rfl | rfl | rfl
  · exact congrArg Value.list h.acl
  · exact h.securityLevel
  · exact h.approvalStatus
  · exact h.validFrom.trans hindexed.validFrom
  · exact h.validUntil.trans hindexed.validUntil

theorem Rebuilt.relabelling (h : Rebuilt repr record request)
    (hindexed : Indexed repr s request.doc record acl) {ids : List String}
    (hkeeps : acl = [] ∨ ids = []) : Relabelling request (labels record acl) ids := by
  obtain rfl | hnone := hkeeps
  · exact .inl fun f hf => h.requestLabel_eq hindexed hf
  · exact .inr hnone

theorem eq_nil_of_list_eq {acl : List Value} (h : Value.list [] = .list acl) : acl = [] := by
  cases h
  rfl

theorem preserved_iff_of_full {p : Prepared} {r : IndexingResult}
    (hindexed : Indexed repr s request.doc record acl) (hrebuilt : Rebuilt repr record request)
    (hpath : svc.takesFull request s.chunks = true)
    (h : FullOutcome svc request piiConfig jobId s r s' p) :
    Preserved s' request.doc record acl ↔ Unharmed svc request piiConfig s.chunks record acl := by
  have hdocument : s'.documents.get request.doc = some (svc.buildDocument request) := by
    rw [h.written.documents]
    exact (Dict.get?_set _ _ _ _).trans (if_pos rfl)
  have hnothing : svc.EmbedsNothing request piiConfig s.chunks ↔
      embeddedIds p.chunks p.embed.vectors = [] := by
    rw [IndexingService.EmbedsNothing, if_pos hpath, h.prepared]
    constructor
    · intro hall
      exact hall p rfl
    · rintro hnone q ⟨⟩
      exact hnone
  constructor
  · intro hpreserved
    obtain ⟨record', hget, hinput, hmetadata⟩ := hpreserved.document
    obtain rfl : svc.buildDocument request = record' := Option.some.inj (hdocument.symm.trans hget)
    refine ⟨.inr ?_, fun _ => ?_, fun _ => ?_⟩
    · rw [hnothing]
      cases hids : embeddedIds p.chunks p.embed.vectors with
      | nil => exact .inr rfl
      | cons id ids =>
        have hid : id ∈ embeddedIds p.chunks p.embed.vectors := by
          rw [hids]
          exact List.mem_cons_self
        obtain ⟨row, hrow, -⟩ : ∃ row ∈ svc.records request p, row.chunkId = id :=
          mem_buildRecords_ids.mpr hid
        have hstored : row ∈ s'.chunks.listByDoc request.doc none := by
          refine ChunkRepository.mem_listByDoc.mpr ⟨⟨request.doc, svc.parserVersion⟩, rfl, ?_⟩
          rw [h.written.rows, ChunkRepository.rows_replaceChunks, if_pos rfl]
          exact hrow
        have hacl := hpreserved.rowAcl row hstored
        rw [buildRecords_access hrow List.mem_cons_self,
          hrebuilt.requestLabel_eq hindexed List.mem_cons_self] at hacl
        exact .inl (eq_nil_of_list_eq hacl)
    · exact hinput.symm.trans hrebuilt.inputType
    · refine hmetadata.symm.trans ?_
      rw [IndexingService.buildDocument, hrebuilt.metadata]
      rfl
  · intro hunharmed
    have hkeeps : acl = [] ∨ embeddedIds p.chunks p.embed.vectors = [] := by
      rw [← hnothing]
      obtain ⟨-, hfalse⟩ | hkeeps := hunharmed.acl
      · exact absurd (hpath.symm.trans hfalse) nofun
      · exact hkeeps
    refine (hindexed.guarded.written h.written (hrebuilt.relabelling hindexed hkeeps)).preserved
      hdocument ?_ ?_
    · exact hrebuilt.inputType.trans (hunharmed.inputType hpath).symm
    · refine Eq.trans ?_ (hunharmed.metadata hpath).symm
      rw [IndexingService.buildDocument, hrebuilt.metadata]
      rfl

theorem preserved_of_relabelled (hindexed : Indexed repr s request.doc record acl)
    (h : Relabelled jobId s s') : Preserved s' request.doc record acl := by
  have hdocument : s'.documents.get request.doc = some record := by
    rw [h.relabels.documents]
    exact hindexed.document
  exact (hindexed.guarded.relabels h.relabels (by decide) (by decide) (by decide)).preserved
    hdocument rfl rfl

theorem preserved_iff_of_reembedded {r : IndexingResult} {chunks : List Chunk}
    {warnings : Dict String ChunkPIIWarning}
    (hindexed : Indexed repr s request.doc record acl) (hrebuilt : Rebuilt repr record request)
    (hmode : request.mode = .embeddingOnly) (hpath : svc.takesFull request s.chunks = false)
    (h : Reembedded svc request jobId s r s' chunks warnings) :
    Preserved s' request.doc record acl ↔ Unharmed svc request piiConfig s.chunks record acl := by
  have hdocument : s'.documents.get request.doc = some record := by
    rw [h.documents]
    exact hindexed.document
  have hnothing : svc.EmbedsNothing request piiConfig s.chunks ↔
      embeddedIds chunks (svc.embedSafely chunks).vectors = [] := by
    rw [IndexingService.EmbedsNothing, hpath, h.stored]
    constructor
    · intro hall
      exact hall chunks rfl
    · rintro hnone _ ⟨⟩
      exact hnone
  have hnotFull : svc.takesFull request s.chunks ≠ true := Bool.eq_false_iff.mp hpath
  constructor
  · intro hpreserved
    refine ⟨.inr ?_, fun hfull => absurd hfull hnotFull, fun hfull => absurd hfull hnotFull⟩
    rw [hnothing]
    cases hids : embeddedIds chunks (svc.embedSafely chunks).vectors with
    | nil => exact .inr rfl
    | cons id ids =>
      have hid : id ∈ embeddedIds chunks (svc.embedSafely chunks).vectors := by
        rw [hids]
        exact List.mem_cons_self
      have hnew : ∃ p ∈ svc.buildPoints request chunks (svc.embedSafely chunks).vectors warnings,
          p.id = id := mem_buildPoints_ids.mpr hid
      obtain ⟨-, p, hp, -, hpoint⟩ | ⟨hnot, -⟩ := h.points.cases request.domainId id
      · have hcarries := (ownerOf_eq_some_iff.mp (ownerOf_buildPoints hp)).2
        have hacl := hpreserved.pointAcl id p hpoint hcarries
        have hlabel : p.payload.get? "acl" = some (requestLabel request .acl) :=
          buildPoints_access hp List.mem_cons_self
        rw [hlabel, hrebuilt.requestLabel_eq hindexed List.mem_cons_self] at hacl
        exact .inl (eq_nil_of_list_eq (Option.some.inj hacl))
      · exact absurd ⟨rfl, hnew⟩ hnot
  · intro hunharmed
    have hkeeps : acl = [] ∨ embeddedIds chunks (svc.embedSafely chunks).vectors = [] := by
      rw [← hnothing]
      obtain ⟨hparser, -⟩ | hkeeps := hunharmed.acl
      · exact absurd (hmode.symm.trans hparser) nofun
      · exact hkeeps
    exact (hindexed.guarded.reembedded h (hrebuilt.relabelling hindexed hkeeps)).preserved
      hdocument rfl rfl

theorem preserved_iff_of_outcome {r : IndexingResult}
    (hindexed : Indexed repr s request.doc record acl) (hrebuilt : Rebuilt repr record request)
    (hdone : r.status = .completed) (h : RunOutcome svc request piiConfig jobId s r s') :
    Preserved s' request.doc record acl ↔ Unharmed svc request piiConfig s.chunks record acl := by
  cases h with
  | gaveUp status _ => exact absurd (status.symm.trans hdone) nofun
  | full p path outcome => exact preserved_iff_of_full hindexed hrebuilt path outcome
  | relabelled mode path _ outcome =>
    have hnotFull : svc.takesFull request s.chunks ≠ true := Bool.eq_false_iff.mp path
    refine iff_of_true (preserved_of_relabelled hindexed outcome) ⟨.inl ⟨mode, path⟩, ?_, ?_⟩
    · exact fun hfull => absurd hfull hnotFull
    · exact fun hfull => absurd hfull hnotFull
  | reembedded mode path chunks warnings outcome =>
    exact preserved_iff_of_reembedded hindexed hrebuilt mode path outcome

theorem Guarded.congr {s s' : Stores} {doc : DocKey} {label : ChunkField → Value}
    (h : Guarded s doc label) (hs : SameContents s s') : Guarded s' doc label := by
  refine ⟨?_, ?_⟩
  · rw [hs.chunks]
    exact h.rows
  · intro id p hp
    rw [hs.points] at hp
    exact h.points id p hp

theorem Indexed.congr {doc : DocKey} (h : Indexed repr s doc record acl)
    (hs : SameContents s s') : Indexed repr s' doc record acl where
  document := by
    rw [hs.documents]
    exact h.document
  guarded := h.guarded.congr hs
  validFrom := h.validFrom
  validUntil := h.validUntil

end Outcomes

section Uploads

variable {orch : IndexingOrchestrator} {b : Backend}

/-- A full run labels everything that it stores with its request. -/
theorem Written.indexed {svc : IndexingService} {request : IndexingRequest} {p : Prepared}
    {jobId : String} {s s' : Stores} {repr : Value → String}
    (hw : Written svc request p jobId s s')
    (hguarded : Guarded s request.doc (requestLabel request))
    (hfrom : toIsoDate repr request.validFrom = request.validFrom)
    (huntil : toIsoDate repr request.validUntil = request.validUntil) :
    Indexed repr s' request.doc (svc.buildDocument request) request.acl where
  document := by
    rw [hw.documents]
    exact (Dict.get?_set _ _ _ _).trans (if_pos rfl)
  guarded := by
    have hsame : ∀ f ∈ accessFields,
        requestLabel request f = labels (svc.buildDocument request) request.acl f := by
      intro f hf
      simp only [accessFields, List.mem_cons, List.not_mem_nil, or_false] at hf
      rcases hf with rfl | rfl | rfl | rfl | rfl <;> rfl
    have hwritten := hguarded.written hw (.inl fun _ _ => rfl)
    refine ⟨fun row hrow f hf => ?_, fun id q hq hcarries f hf => ?_⟩
    · exact (hwritten.rows row hrow f hf).trans (hsame f hf)
    · exact (hwritten.points id q hq hcarries f hf).trans (congrArg some (hsame f hf))
  validFrom := hfrom
  validUntil := huntil

theorem ensures_prepareUpload {newDocId newJobId domainId version title filename : String}
    {docId : Option String} {inputType : Value} {metadata : Dict String Value}
    (hrepr : ∀ v, orch.repr v ≠ "") :
    Ensures (orch.prepareUpload newDocId newJobId domainId docId version title filename inputType
        metadata) b
      (fun prepared b₁ => ∃ request, b₁.pending.get? prepared.jobId = some request ∧
        request.mode = .full ∧ toIsoDate orch.repr request.validFrom = request.validFrom ∧
        toIsoDate orch.repr request.validUntil = request.validUntil ∧
        SameContents b.stores b₁.stores ∧ Knows b₁.stores.jobs prepared.jobId)
      fun _ _ => True := by
  refine ensures_bind.mpr (ensures_ofExcept.mpr ⟨fun stored _ => ?_, fun _ _ => trivial⟩)
  refine ensures_register.mpr ⟨fun jobs hjobs => ⟨fun request hrequest => ?_, fun _ _ => trivial⟩,
    fun _ _ => trivial⟩
  refine ⟨request, (Dict.get?_set b.pending newJobId newJobId request).trans (if_pos rfl), ?_⟩
  obtain ⟨acl, -, hrequest⟩ := Except.bind_eq_ok_iff.mp hrequest
  obtain ⟨tags, -, hrequest⟩ := Except.bind_eq_ok_iff.mp hrequest
  cases hrequest
  exact ⟨rfl, toIsoDate_toIsoDate hrepr _, toIsoDate_toIsoDate hrepr _,
    ⟨fun _ _ => rfl, rfl, rfl⟩, knows_of_create hjobs⟩

/-- A completed upload of a new document leaves it indexed with the values of its request. -/
theorem indexed_of_upload {newDocId newJobId domainId version title filename : String}
    {docId : Option String} {inputType piiConfig : Value} {metadata : Dict String Value}
    {b₁ b₂ : Backend} {prepared : PreparedIndexing} {request : IndexingRequest}
    (hrepr : ∀ v, orch.repr v ≠ "") (hwork : orch.service.faults.TablesWork)
    (hprepare : orch.prepareUpload newDocId newJobId domainId docId version title filename
      inputType metadata b = .ok prepared b₁)
    (hrequest : b₁.pending.get? prepared.jobId = some request)
    (hnew : Guarded b.stores request.doc (requestLabel request))
    (hconfig : orch.loadPiiConfig request.domainId = .ok piiConfig)
    (hexecute : orch.execute prepared.jobId b₁ = .ok () b₂)
    (hdone : statusOf b₂.stores.jobs prepared.jobId = some .completed) :
    Indexed orch.repr b₂.stores request.doc (orch.service.buildDocument request) request.acl := by
  obtain ⟨request', hpending, hmode, hfrom, huntil, hsame, hknows⟩ :=
    (ensures_prepareUpload hrepr).of_ok hprepare
  obtain rfl : request' = request := Option.some.inj (hpending.symm.trans hrequest)
  obtain ⟨s, r, hsame', hstatus, houtcome⟩ :=
    (ensures_execute_job hwork hrequest hknows hconfig).of_ok hexecute hdone
  have hguarded := (hnew.congr hsame).congr hsame'
  cases houtcome with
  | gaveUp status _ => exact absurd (status.symm.trans hstatus) nofun
  | full p _ outcome => exact outcome.written.indexed hguarded hfrom huntil
  | relabelled mode _ _ _ => exact absurd (hmode.symm.trans mode) nofun
  | reembedded mode _ _ _ _ => exact absurd (hmode.symm.trans mode) nofun

end Uploads

/-- A completed reindex, or a completed retry, keeps access control and metadata exactly of the
documents that it does not harm. -/
theorem reindex_preserves_iff_unharmed (orch : IndexingOrchestrator) (start : Restart)
    (b b₁ b₂ : Backend) (prepared : PreparedIndexing) (request : IndexingRequest)
    (record : DocumentRecord) (acl : List Value) (piiConfig : Value)
    (hwork : orch.service.faults.TablesWork)
    (hstart : start.prepare orch b = .ok prepared b₁)
    (hrequest : b₁.pending.get? prepared.jobId = some request)
    (hindexed : Indexed orch.repr b.stores request.doc record acl)
    (hconfig : orch.loadPiiConfig request.domainId = .ok piiConfig)
    (hexecute : orch.execute prepared.jobId b₁ = .ok () b₂)
    (hdone : statusOf b₂.stores.jobs prepared.jobId = some .completed) :
    Preserved b₂.stores request.doc record acl ↔
      Unharmed orch.service request piiConfig b.stores.chunks record acl := by
  obtain ⟨request', record', hrestarted⟩ := ensures_restart.of_ok hstart
  obtain rfl : request' = request := Option.some.inj (hrestarted.pending.symm.trans hrequest)
  obtain rfl : record' = record :=
    Option.some.inj (hrestarted.document.symm.trans hindexed.document)
  obtain ⟨s, r, hsame, hstatus, houtcome⟩ :=
    (ensures_execute_job hwork hrequest hrestarted.knows hconfig).of_ok hexecute hdone
  have hsame' : SameContents b.stores s := by
    refine ⟨fun d id => ?_, hsame.documents.trans hrestarted.documents,
      hsame.chunks.trans hrestarted.chunks⟩
    rw [hsame.points, hrestarted.vectors]
  rw [preserved_iff_of_outcome (hindexed.congr hsame') hrestarted.rebuilt hstatus houtcome,
    hsame'.chunks]

section Handbook

def desk : IndexingOrchestrator where
  service := splitting ["a"]
  save _ _ _ _ := .ok ⟨"handbook.txt", .null⟩
  loadPiiConfig _ := .ok .null
  repr _ := "value"

def Backend.empty : Backend := ⟨Stores.empty, .empty⟩

def uploadHandbook (metadata : Dict String Value) : BackendTask PreparedIndexing :=
  desk.prepareUpload "DOC-0" "J1" "hr" (some "handbook") "v1" "Handbook" "handbook.txt" .null metadata

def uploaded (metadata : Dict String Value) : Backend :=
  (desk.execute "J1").final ((uploadHandbook metadata).final Backend.empty)

def restart (mode : ReindexMode) : Restart := .reindex "J2" ⟨"hr", "handbook", "v1"⟩ mode

def restarted (metadata : Dict String Value) (mode : ReindexMode) : Backend :=
  ((restart mode).prepare desk).final (uploaded metadata)

def reindexed (metadata : Dict String Value) (mode : ReindexMode) : Backend :=
  (desk.execute "J2").final (restarted metadata mode)

theorem guarded_empty (doc : DocKey) (label : ChunkField → Value) :
    Guarded Stores.empty doc label := by
  refine ⟨?_, ?_⟩
  · intro row hrow
    exact absurd hrow List.not_mem_nil
  · intro id p hp
    cases hp

/-- The uploads that `uploaded` stands for, seen from the request that they wait with. -/
theorem indexed_uploaded (metadata : Dict String Value) {request : IndexingRequest}
    {prepared : PreparedIndexing}
    (hprepare : (uploadHandbook metadata).result? Backend.empty = some prepared)
    (hjob : prepared.jobId = "J1")
    (hrequest : ((uploadHandbook metadata).final Backend.empty).pending.get? "J1" = some request)
    (hexecute : (desk.execute "J1").result? ((uploadHandbook metadata).final Backend.empty)
      = some ())
    (hdone : statusOf (uploaded metadata).stores.jobs "J1" = some .completed) :
    Indexed desk.repr (uploaded metadata).stores request.doc (desk.service.buildDocument request)
      request.acl := by
  obtain ⟨jobId, docId, version, stored⟩ := prepared
  obtain rfl : jobId = "J1" := hjob
  have hrepr : ("value" : String) ≠ "" := by decide
  exact indexed_of_upload (fun _ => hrepr) ⟨rfl, rfl, rfl, fun _ => rfl⟩
    (eq_ok_of_result? hprepare) hrequest (guarded_empty _ _) rfl (eq_ok_of_result? hexecute) hdone

def groupAcl : Dict String Value := .ofList [("acl", .list [.str "group:hr"])]

/-- The handbook was uploaded for one group; computing its vectors again publishes them. -/
theorem reindex_drops_group_acl :
    ∃ record acl, Indexed desk.repr (uploaded groupAcl).stores handbook.doc record acl ∧
      ((restart .embeddingOnly).prepare desk).result? (uploaded groupAcl) ≠ none ∧
      statusOf (reindexed groupAcl .embeddingOnly).stores.jobs "J2" = some .completed ∧
      ¬ Preserved (reindexed groupAcl .embeddingOnly).stores handbook.doc record acl := by
  obtain ⟨prepared, hprepare, hjob⟩ := (Option.any_eq_true (fun p => p.jobId = "J1")
    ((uploadHandbook groupAcl).result? Backend.empty)).mp (by decide +kernel)
  obtain ⟨request, hrequest, htest⟩ := (Option.any_eq_true
    (fun r => r.doc = handbook.doc ∧ r.acl.isEmpty = false)
    (((uploadHandbook groupAcl).final Backend.empty).pending.get? "J1")).mp (by decide +kernel)
  obtain ⟨hdoc, hacl⟩ := of_decide_eq_true htest
  have hindexed := indexed_uploaded groupAcl hprepare (of_decide_eq_true hjob) hrequest
    (by decide +kernel) (by decide +kernel)
  rw [hdoc] at hindexed
  refine ⟨_, _, hindexed, ?_, by decide +kernel, ?_⟩
  · obtain ⟨p, hp, -⟩ := (Option.any_eq_true (fun p => p.jobId = "J2")
      (((restart .embeddingOnly).prepare desk).result? (uploaded groupAcl))).mp (by decide +kernel)
    rw [hp]
    exact Option.some_ne_none p
  · intro hpreserved
    obtain ⟨p, hp, hpoint⟩ := (Option.any_eq_true
      (fun p => Carries p handbook.doc ∧ (p.payload.get? "acl").any fun v => !v.truthy)
      ((reindexed groupAcl .embeddingOnly).stores.vectors.point? "hr" "handbook:v1:p1:chunk:0")).mp
      (by decide +kernel)
    obtain ⟨hcarries, hempty⟩ := of_decide_eq_true hpoint
    rw [hpreserved.pointAcl _ p hp hcarries] at hempty
    simp only [Option.any_some, Value.truthy, hacl] at hempty
    exact absurd hempty (by decide)

/-- Its rows name the current parser, and a run that only reads their headings again does not harm
it. -/
theorem reindex_preserves_group_handbook :
    ∃ record acl, .str "group:hr" ∈ acl ∧
      Indexed desk.repr (uploaded groupAcl).stores handbook.doc record acl ∧
      Preserved (reindexed groupAcl .parserOnly).stores handbook.doc record acl := by
  obtain ⟨prepared, hprepare, hjob⟩ := (Option.any_eq_true (fun p => p.jobId = "J1")
    ((uploadHandbook groupAcl).result? Backend.empty)).mp (by decide +kernel)
  obtain ⟨request, hrequest, htest⟩ := (Option.any_eq_true
    (fun r => r.doc = handbook.doc ∧ (r.acl.any fun v => v.eq (.str "group:hr")) = true)
    (((uploadHandbook groupAcl).final Backend.empty).pending.get? "J1")).mp (by decide +kernel)
  obtain ⟨hdoc, hacl⟩ := of_decide_eq_true htest
  obtain ⟨v, hv, hgroup⟩ := List.any_eq_true.mp hacl
  obtain rfl := Value.eq_str_iff.mp hgroup
  have hindexed := indexed_uploaded groupAcl hprepare (of_decide_eq_true hjob) hrequest
    (by decide +kernel) (by decide +kernel)
  rw [hdoc] at hindexed
  refine ⟨_, _, hv, hindexed, ?_⟩
  obtain ⟨⟨jobId, docId, version, stored⟩, hstart, hjob₂⟩ := (Option.any_eq_true
    (fun p => p.jobId = "J2")
    (((restart .parserOnly).prepare desk).result? (uploaded groupAcl))).mp (by decide +kernel)
  obtain rfl : jobId = "J2" := of_decide_eq_true hjob₂
  obtain ⟨request₂, hrequest₂, htest₂⟩ := (Option.any_eq_true
    (fun r => r.doc = handbook.doc ∧ r.mode = .parserOnly ∧
      desk.service.takesFull r (uploaded groupAcl).stores.chunks = false)
    ((restarted groupAcl .parserOnly).pending.get? "J2")).mp (by decide +kernel)
  obtain ⟨hdoc₂, hmode, hpath⟩ := of_decide_eq_true htest₂
  have hnotFull := Bool.eq_false_iff.mp hpath
  have hexecute : (desk.execute "J2").result? (restarted groupAcl .parserOnly) = some () := by
    decide +kernel
  have hdone : statusOf (reindexed groupAcl .parserOnly).stores.jobs "J2" = some .completed := by
    decide +kernel
  rw [← hdoc₂] at hindexed ⊢
  refine (reindex_preserves_iff_unharmed desk (restart .parserOnly) (uploaded groupAcl)
    (restarted groupAcl .parserOnly) (reindexed groupAcl .parserOnly) ⟨"J2", docId, version, stored⟩
    request₂ _ request.acl .null ⟨rfl, rfl, rfl, fun _ => rfl⟩ (eq_ok_of_result? hstart) hrequest₂
    hindexed rfl (eq_ok_of_result? hexecute) hdone).mpr ?_
  exact ⟨.inl ⟨hmode, hpath⟩, fun hfull => absurd hfull hnotFull,
    fun hfull => absurd hfull hnotFull⟩

end Handbook

end DomainRag.Indexing
