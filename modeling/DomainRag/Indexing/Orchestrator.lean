import DomainRag.Indexing.Service

/-! # The indexing orchestrator

`IndexingOrchestrator` registers a job and remembers a request for it, and `execute` takes the
request out again and runs it. For a reindex and for a retry the request is built again from the
document's row.
-/

namespace DomainRag.Indexing

open Store

structure StoredDocument where
  localPath : String
  objectStoragePath : Value

structure PreparedIndexing where
  jobId : String
  docId : String
  version : String
  stored : Option StoredDocument

/-- The stores and the requests that wait for `execute`. -/
structure Backend where
  stores : Stores
  pending : Dict String IndexingRequest

abbrev BackendTask := Program Exc Backend

def onStores {A : Type} (x : StoreTask A) : BackendTask A := fun b =>
  match x b.stores with
  | .ok a s => .ok a { b with stores := s }
  | .error e s => .error e { b with stores := s }

/-- The orchestrator with the answers of its storage and its configuration during one request;
`repr` is the host's text of a value that is no string. -/
structure IndexingOrchestrator where
  service : IndexingService
  save : String → String → String → String → Except Exc StoredDocument
  loadPiiConfig : String → Except Exc Value
  repr : Value → String

def toIsoDate (repr : Value → String) : Value → Value
  | .null => .null
  | .str s => if s = "" then .null else .str s
  | v => .str (repr v)

theorem toIsoDate_toIsoDate {repr : Value → String} (hrepr : ∀ v, repr v ≠ "") (v : Value) :
    toIsoDate repr (toIsoDate repr v) = toIsoDate repr v := by
  have hstr : ∀ s : String, s ≠ "" → toIsoDate repr (.str s) = .str s := by
    intro s hs
    rw [toIsoDate, if_neg hs]
  cases v with
  | null => rfl
  | str s =>
    by_cases hs : s = ""
    · rw [toIsoDate, if_pos hs]
      rfl
    · rw [hstr s hs, hstr s hs]
  | bool b => exact hstr _ (hrepr _)
  | int n => exact hstr _ (hrepr _)
  | float q => exact hstr _ (hrepr _)
  | list vs => exact hstr _ (hrepr _)
  | dict kvs => exact hstr _ (hrepr _)

def registerJob (jobId : String) (doc : DocKey) (filename : Value) : StoreTask String := do
  let s ← get
  let jobs ← Program.ofExcept (s.jobs.create
    { jobId := jobId, domainId := doc.domainId, docId := doc.docId, docVersion := doc.version
      filename := filename })
  set { s with jobs := jobs }
  return jobId

def commonKeys : List String :=
  ["department", "doc_type", "security_level", "acl", "approval_status", "tags", "valid_from",
    "valid_until", "owner", "title", "input_type"]

def valueAt (metadata : Dict String Value) (key : String) (default : Value) : Value :=
  (metadata.get? key).getD default

namespace IndexingOrchestrator

variable (orch : IndexingOrchestrator)

def uploadRequest (doc : DocKey) (title : String) (stored : StoredDocument) (inputType : Value)
    (metadata : Dict String Value) : Except Exc IndexingRequest := do
  let acl ← ((valueAt metadata "acl" .null).orElse (.list [])).iter
  let tags ← ((valueAt metadata "tags" .null).orElse (.list [])).iter
  return {
    domainId := doc.domainId
    docId := doc.docId
    docVersion := doc.version
    filePath := .str stored.localPath
    title := .str title
    mode := .full
    department := valueAt metadata "department" .null
    docType := (valueAt metadata "doc_type" .null).orElse inputType
    inputType := inputType
    securityLevel := valueAt metadata "security_level" (.str "internal")
    acl := acl
    approvalStatus := valueAt metadata "approval_status" (.str "draft")
    tags := tags
    validFrom := toIsoDate orch.repr (valueAt metadata "valid_from" .null)
    validUntil := toIsoDate orch.repr (valueAt metadata "valid_until" .null)
    objectStoragePath := stored.objectStoragePath
    owner := valueAt metadata "owner" .null
    metadata := metadata.filterKeys fun k => k ∉ commonKeys }

/-- The names of a new document and a new job are drawn by the host. -/
def prepareUpload (newDocId newJobId : String) (domainId : String) (docId : Option String)
    (version title filename : String) (inputType : Value) (metadata : Dict String Value) :
    BackendTask PreparedIndexing := do
  let docId := match docId with
    | some d => if d = "" then newDocId else d
    | none => newDocId
  let doc : DocKey := ⟨domainId, docId, version⟩
  let stored ← Program.ofExcept (orch.save domainId docId version filename)
  let jobId ← onStores (registerJob newJobId doc (.str stored.localPath))
  let request ← Program.ofExcept (orch.uploadRequest doc title stored inputType metadata)
  modify fun b => { b with pending := b.pending.set jobId request }
  return ⟨jobId, docId, version, some stored⟩

/-- A request built from the document's row, with the metadata that a reindex may override. -/
def reindexRequest (doc : DocKey) (mode : ReindexMode) (existing : DocumentRecord)
    (metadata : Dict String Value) : Except Exc IndexingRequest := do
  let acl ← ((valueAt metadata "acl" .null).orElse (.list [])).iter
  let given := valueAt metadata "tags" .null
  let tags ← if given.truthy then given.iter else (existing (.shared .tags)).iter
  return {
    domainId := doc.domainId
    docId := doc.docId
    docVersion := doc.version
    filePath := (existing .sourcePath).orElse (.str "")
    title := existing (.shared .title)
    mode := mode
    department := valueAt metadata "department" (existing (.shared .department))
    docType := valueAt metadata "doc_type" (existing (.shared .docType))
    securityLevel := valueAt metadata "security_level" (existing (.shared .securityLevel))
    acl := acl
    approvalStatus := valueAt metadata "approval_status" (existing (.shared .approvalStatus))
    tags := tags
    validFrom := toIsoDate orch.repr (valueAt metadata "valid_from" (existing (.shared .validFrom)))
    validUntil :=
      toIsoDate orch.repr (valueAt metadata "valid_until" (existing (.shared .validUntil)))
    objectStoragePath := existing .objectStoragePath
    owner := valueAt metadata "owner" (existing .owner) }

def documentNotFound (doc : DocKey) : Exc :=
  ⟨"FileNotFoundError", s!"document not found: {doc.domainId}/{doc.docId}/{doc.version}"⟩

def prepareReindex (newJobId : String) (doc : DocKey) (mode : ReindexMode)
    (metadata : Dict String Value) : BackendTask PreparedIndexing := do
  match (← get).stores.documents.get doc with
  | none => throw (documentNotFound doc)
  | some existing =>
    let jobId ← onStores (registerJob newJobId doc ((existing .sourcePath).orElse (.str "")))
    let request ← Program.ofExcept (orch.reindexRequest doc mode existing metadata)
    modify fun b => { b with pending := b.pending.set jobId request }
    return ⟨jobId, doc.docId, doc.version, none⟩

def retryRequest (doc : DocKey) (existing : DocumentRecord) : Except Exc IndexingRequest := do
  let tags ← (existing (.shared .tags)).iter
  return {
    domainId := doc.domainId
    docId := doc.docId
    docVersion := doc.version
    filePath := (existing .sourcePath).orElse (.str "")
    title := existing (.shared .title)
    mode := .full
    department := existing (.shared .department)
    docType := existing (.shared .docType)
    securityLevel := existing (.shared .securityLevel)
    acl := []
    approvalStatus := existing (.shared .approvalStatus)
    tags := tags
    validFrom := toIsoDate orch.repr (existing (.shared .validFrom))
    validUntil := toIsoDate orch.repr (existing (.shared .validUntil))
    objectStoragePath := existing .objectStoragePath
    owner := existing .owner }

def retryJob (domainId jobId : String) : BackendTask PreparedIndexing := do
  let b ← get
  match b.stores.jobs.get jobId with
  | none => throw ⟨"FileNotFoundError", s!"job not found: {jobId}"⟩
  | some job =>
    if job.domainId ≠ domainId then
      throw ⟨"FileNotFoundError", s!"job not found: {jobId}"⟩
    if job.status ≠ .failed ∧ job.status ≠ .partial_ then
      throw ⟨"ValueError", "invalid_status"⟩
    let doc : DocKey := ⟨domainId, job.docId, job.docVersion⟩
    match b.stores.documents.get doc with
    | none => throw (documentNotFound doc)
    | some existing =>
      let request ← Program.ofExcept (orch.retryRequest doc existing)
      modify fun b => { b with pending := b.pending.set jobId request }
      onStores (updateJob jobId
        { status := some .pending, progress := some 0, indexedChunks := some 0
          failedChunks := some [] })
      return ⟨jobId, job.docId, job.docVersion, none⟩

/-- A collection that is there already, or that cannot be created, is no error. -/
def ensureCollectionExists (domainId : String) : StoreTask Unit :=
  tryCatch
    (Program.failing orch.service.faults.createCollection do
      let s ← get
      let vectors ← Program.ofExcept
        (s.vectors.createCollection domainId orch.service.denseDim true)
      set { s with vectors := vectors })
    fun _ => return

def execute (jobId : String) : BackendTask Unit := do
  match (← get).pending.get? jobId with
  | none => return
  | some request =>
    modify fun b => { b with pending := b.pending.erase jobId }
    onStores (orch.ensureCollectionExists request.domainId)
    let piiConfig ← Program.ofExcept (orch.loadPiiConfig request.domainId)
    tryCatch
      (do
        let _ ← onStores (orch.service.runWithExistingJob request jobId piiConfig)
        return)
      fun _ => return

end IndexingOrchestrator

end DomainRag.Indexing
