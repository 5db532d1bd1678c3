import DomainRag.Lib.Program
import DomainRag.Store.Tables
import DomainRag.Store.Vectors

/-! # The indexing service

`IndexingService` parses a document, cuts it into chunks, embeds them and writes points, the
document's row and the chunk rows, in this order. Two modes rewrite less: `parser_only` updates
the headings of the stored chunks and `embedding_only` their points.
-/

namespace DomainRag.Indexing

open Store

inductive ReindexMode where
  | parserOnly
  | chunkReSplit
  | embeddingOnly
  | full
  deriving DecidableEq, Repr

structure IndexingRequest where
  domainId : String
  docId : String
  docVersion : String
  filePath : Value
  title : Value
  mode : ReindexMode := .full
  department : Value := .null
  docType : Value := .null
  inputType : Value := .null
  securityLevel : Value := .str "internal"
  acl : List Value := []
  approvalStatus : Value := .str "draft"
  tags : List Value := []
  validFrom : Value := .null
  validUntil : Value := .null
  objectStoragePath : Value := .null
  owner : Value := .null
  metadata : Dict String Value := .empty

namespace IndexingRequest

def doc (request : IndexingRequest) : DocKey :=
  ⟨request.domainId, request.docId, request.docVersion⟩

def shared (request : IndexingRequest) : SharedField → Value
  | .approvalStatus => request.approvalStatus
  | .securityLevel => request.securityLevel
  | .validFrom => request.validFrom
  | .validUntil => request.validUntil
  | .title => request.title
  | .department => request.department
  | .docType => request.docType
  | .tags => .list request.tags

end IndexingRequest

structure IndexingResult where
  jobId : String
  status : JobStatus
  totalChunks : Nat
  indexedChunks : Nat
  failedChunks : List FailedChunk
  highPiiChunks : Nat
  failureRate : Rat

structure ParsedPage where
  pageNumber : Int
  text : String
  sectionTitle : Option String := none
  headingPath : Option (List String) := none

structure Chunk where
  chunkId : String
  chunkIndex : Nat
  content : String
  pageNumber : Value
  sectionTitle : Value
  headingPath : List Value
  startChar : Nat
  endChar : Nat
  tokenCount : Nat

structure Embedding where
  dense : List Rat
  sparse : Dict Nat Rat

structure ChunkPIIWarning where
  piiWarnings : List Value := []
  hasHighSeverity : Bool := false
  blockIndexing : Bool := false

structure EmbedResult where
  vectors : Dict String Embedding
  failed : List FailedChunk

/-- The calls of one run that raise, each with its error. A call in a loop is counted from
zero. -/
structure Faults where
  createCollection : Option Exc := none
  upsertChunks : Option Exc := none
  setPayload : Nat → Option Exc := fun _ => none
  listByDoc : Option Exc := none
  upsertDocument : Option Exc := none
  replaceChunks : Option Exc := none
  updateMetadata : Nat → Option Exc := fun _ => none

/-- The document and chunk tables answer; only the other services may fail. -/
structure Faults.TablesWork (faults : Faults) : Prop where
  listByDoc : faults.listByDoc = none
  upsertDocument : faults.upsertDocument = none
  replaceChunks : faults.replaceChunks = none
  updateMetadata : ∀ n, faults.updateMetadata n = none

/-- The service with what its parser, chunker, embedder and PII scanner answer during a run, and
the host's hash and number formats. -/
structure IndexingService where
  parserVersion : String
  parse : Value → Except Exc (List ParsedPage)
  chunkStrategy : String
  chunk : String → String → String → List ParsedPage → Except Exc (List Chunk)
  modelName : String
  denseDim : Nat
  embedBatch : List String → Except Exc (List Embedding)
  checkChunkPii : String → Value → Except Exc ChunkPIIWarning
  sha256 : String → String
  formatRate : Rat → String
  formatFloat : Rat → String
  failureThreshold : Rat
  faults : Faults

structure Stores where
  vectors : VectorStore
  documents : DocumentRepository
  chunks : ChunkRepository
  jobs : JobRepository

abbrev StoreTask := Program Exc Stores

def updateJob (jobId : String) (patch : JobPatch) : StoreTask Unit := do
  let s ← get
  let jobs ← Program.ofExcept (s.jobs.update jobId patch)
  set { s with jobs := jobs }

def listByDoc (fault : Option Exc) (doc : DocKey) (parserVersion : Option String) :
    StoreTask (List ChunkRecord) :=
  Program.failing fault do return (← get).chunks.listByDoc doc parserVersion

def updateMetadata (fault : Option Exc) (domainId : String) (chunkIds : List String)
    (metadata : Dict String Value) : StoreTask Unit :=
  Program.failing fault
    (modify fun s => { s with chunks := s.chunks.updateMetadata domainId chunkIds metadata })

def setPayload (fault : Option Exc) (domainId : String) (chunkIds : List String)
    (payload : Dict String Value) : StoreTask Unit :=
  Program.failing fault do
    let s ← get
    let vectors ← Program.ofExcept (s.vectors.setPayload domainId chunkIds payload)
    set { s with vectors := vectors }

namespace IndexingService

variable (svc : IndexingService)

def scanPii (chunks : List Chunk) (piiConfig : Value) :
    Except Exc (Dict String ChunkPIIWarning) :=
  chunks.foldlM (fun warnings c => do
    return warnings.set c.chunkId (← svc.checkChunkPii c.content piiConfig)) .empty

/-- A batch that raises counts every chunk as failed. -/
def embedSafely (chunks : List Chunk) : EmbedResult :=
  if chunks.isEmpty then ⟨.empty, []⟩
  else match svc.embedBatch (chunks.map Chunk.content) with
    | .ok pairs => ⟨(chunks.zip pairs).foldl (fun vectors e => vectors.set e.1.chunkId e.2) .empty, []⟩
    | .error e => ⟨.empty, chunks.map fun c => ⟨c.chunkId, "embed", e.message⟩⟩

def buildRecord (request : IndexingRequest) (warning : ChunkPIIWarning) (c : Chunk) :
    ChunkRecord where
  domainId := request.domainId
  chunkId := c.chunkId
  docId := request.docId
  docVersion := request.docVersion
  parserVersion := svc.parserVersion
  chunkStrategy := svc.chunkStrategy
  chunkIndex := c.chunkIndex
  content := c.content
  contentHash := svc.sha256 c.content
  startChar := c.startChar
  endChar := c.endChar
  tokenCount := c.tokenCount
  attrs
    | .shared f => request.shared f
    | .acl => .list request.acl
    | .pageNumber => c.pageNumber
    | .sectionTitle => c.sectionTitle
    | .headingPath => .list c.headingPath
    | .embeddingModel => .str svc.modelName
    | .embeddingVersion => .str svc.modelName
    | .vectorId => .str c.chunkId
    | .piiWarnings => .list warning.piiWarnings

/-- A chunk without a vector gets no row; the next run tries it again. -/
def buildRecords (request : IndexingRequest) (chunks : List Chunk)
    (vectors : Dict String Embedding) (warnings : Dict String ChunkPIIWarning) :
    List ChunkRecord :=
  chunks.filterMap fun c => (vectors.get? c.chunkId).map fun _ =>
    svc.buildRecord request ((warnings.get? c.chunkId).getD {}) c

def payload (request : IndexingRequest) (warning : ChunkPIIWarning) (c : Chunk) :
    Dict String Value where
  entries :=
    [("domain_id", .str request.domainId),
     ("doc_id", .str request.docId),
     ("doc_version", .str request.docVersion),
     ("parser_version", .str svc.parserVersion),
     ("chunk_strategy", .str svc.chunkStrategy),
     ("chunk_index", .int c.chunkIndex),
     ("content", .str c.content),
     ("title", request.title),
     ("page_number", c.pageNumber),
     ("section_title", c.sectionTitle),
     ("heading_path", .list c.headingPath),
     ("department", request.department),
     ("doc_type", request.docType),
     ("security_level", request.securityLevel),
     ("acl", .list request.acl),
     ("approval_status", request.approvalStatus),
     ("tags", .list request.tags),
     ("valid_from", request.validFrom),
     ("valid_until", request.validUntil),
     ("pii_warnings", .list warning.piiWarnings)]
  nodup := by
    simp only [List.map_cons, List.map_nil]
    decide

def buildPoints (request : IndexingRequest) (chunks : List Chunk)
    (vectors : Dict String Embedding) (warnings : Dict String ChunkPIIWarning) : List Point :=
  chunks.filterMap fun c => (vectors.get? c.chunkId).map fun v =>
    ⟨c.chunkId, v.dense, v.sparse,
      svc.payload request ((warnings.get? c.chunkId).getD {}) c⟩

def upsertToQdrant (request : IndexingRequest) (chunks : List Chunk)
    (vectors : Dict String Embedding) (warnings : Dict String ChunkPIIWarning) : StoreTask Unit := do
  let points := svc.buildPoints request chunks vectors warnings
  if points.isEmpty then return
  Program.failing svc.faults.upsertChunks do
    let s ← get
    let vectors ← Program.ofExcept (s.vectors.upsertChunks request.domainId points)
    set { s with vectors := vectors }

def buildDocument (request : IndexingRequest) : DocumentRecord
  | .shared f => request.shared f
  | .domainId => .str request.domainId
  | .docId => .str request.docId
  | .version => .str request.docVersion
  | .inputType => request.inputType
  | .sourceType => .null
  | .sourcePath => request.filePath
  | .objectStoragePath => request.objectStoragePath
  | .owner => request.owner
  | .language => .str "ko"
  | .fileHash => .null
  | .parserVersion => .str svc.parserVersion
  | .metadata => .dict request.metadata.entries

def writeChunksAndDocument (request : IndexingRequest) (records : List ChunkRecord) :
    StoreTask Unit := do
  Program.failing svc.faults.upsertDocument
    (modify fun s => { s with
      documents := s.documents.upsert request.doc (svc.buildDocument request) })
  Program.failing svc.faults.replaceChunks
    (modify fun s => { s with
      chunks := s.chunks.replaceChunks ⟨request.doc, svc.parserVersion⟩ records })

def failureRate (chunks : List Chunk) (failed : List FailedChunk) : Rat :=
  if chunks.isEmpty then 0 else failed.length / max 1 chunks.length

def highPii (warnings : Dict String ChunkPIIWarning) : Nat :=
  warnings.values.countP ChunkPIIWarning.hasHighSeverity

def overThreshold (rate : Rat) : Bool := svc.failureThreshold < rate

def failRun (jobId : String) (message : String) (total : Nat) (failed : List FailedChunk)
    (high : Nat) (rate : Rat) : StoreTask IndexingResult := do
  updateJob jobId
    { status := some .failed, failedChunks := some failed, failureRate := some rate,
      errorMessage := some message }
  return ⟨jobId, .failed, total, 0, failed, high, rate⟩

def finishRun (jobId : String) (total : Nat) (failed : List FailedChunk) (high : Nat)
    (rate : Rat) : StoreTask IndexingResult := do
  let status := if failed.isEmpty then JobStatus.completed else JobStatus.partial_
  updateJob jobId
    { status := some status, step := some "done", progress := some 100,
      indexedChunks := some (total - failed.length), failedChunks := some failed,
      failureRate := some rate }
  return ⟨jobId, status, total, total - failed.length, failed, high, rate⟩

def indexFull (request : IndexingRequest) (jobId : String) (piiConfig : Value) :
    StoreTask IndexingResult := do
  updateJob jobId { status := some .parsing, step := some "parse", progress := some 10 }
  let pages ← Program.ofExcept (svc.parse request.filePath)
  updateJob jobId { status := some .chunking, step := some "chunk", progress := some 30 }
  let chunks ← Program.ofExcept
    (svc.chunk request.docId request.docVersion svc.parserVersion pages)
  let warnings ← Program.ofExcept (svc.scanPii chunks piiConfig)
  updateJob jobId
    { status := some .embedding, step := some "embed", progress := some 60,
      totalChunks := some chunks.length }
  let embed := svc.embedSafely chunks
  updateJob jobId { status := some .indexing, step := some "upsert", progress := some 80 }
  let records := svc.buildRecords request chunks embed.vectors warnings
  let rate := failureRate chunks embed.failed
  if svc.overThreshold rate then
    failRun jobId s!"failure_rate {svc.formatRate rate} > threshold {svc.formatFloat svc.failureThreshold}"
      chunks.length embed.failed (highPii warnings) rate
  else
    svc.upsertToQdrant request chunks embed.vectors warnings
    svc.writeChunksAndDocument request records
    finishRun jobId chunks.length embed.failed (highPii warnings) rate

def pageMeta (page : ParsedPage) : Dict String Value where
  entries :=
    [("section_title", (page.sectionTitle.map Value.str).getD .null),
     ("heading_path", .list ((page.headingPath.getD []).map Value.str))]
  nodup := by
    simp only [List.map_cons, List.map_nil]
    decide

/-- The last page with a number, as in the map `{p.page_number: p for p in pages}`. -/
def pageFor (pages : List ParsedPage) (row : ChunkRecord) : Except Exc (Option ParsedPage) := do
  let number ← ((row.attrs .pageNumber).orElse (.int 1)).intKey?
  return number.bind fun n => pages.reverse.find? fun p => p.pageNumber = n

/-- One round of the `parser_only` loop. A payload that cannot be set is only logged. -/
def relabelRow (request : IndexingRequest) (pages : List ParsedPage) (c : ChunkRecord × Nat) :
    StoreTask Unit := do
  match ← Program.ofExcept (pageFor pages c.1) with
  | none => return
  | some page =>
    updateMetadata (svc.faults.updateMetadata c.2) request.domainId [c.1.chunkId] (pageMeta page)
    tryCatch
      (setPayload (svc.faults.setPayload c.2) request.domainId [c.1.chunkId] (pageMeta page))
      fun _ => return

def reindexParserOnly (request : IndexingRequest) (jobId : String) (piiConfig : Value) :
    StoreTask IndexingResult := do
  updateJob jobId { status := some .parsing, step := some "parse", progress := some 20 }
  let pages ← Program.ofExcept (svc.parse request.filePath)
  let existing ← listByDoc svc.faults.listByDoc request.doc (some svc.parserVersion)
  if existing.isEmpty then
    svc.indexFull request jobId piiConfig
  else
    updateJob jobId { status := some .indexing, step := some "metadata_update", progress := some 70 }
    forM existing.zipIdx (svc.relabelRow request pages)
    updateJob jobId
      { status := some .completed, step := some "done", progress := some 100,
        totalChunks := some existing.length, indexedChunks := some existing.length,
        failureRate := some 0 }
    return ⟨jobId, .completed, existing.length, existing.length, [], 0, 0⟩

def chunkOfRow (row : ChunkRecord) : Except Exc Chunk := do
  return {
    chunkId := row.chunkId
    chunkIndex := row.chunkIndex
    content := row.content
    pageNumber := row.attrs .pageNumber
    sectionTitle := row.attrs .sectionTitle
    headingPath := ← (row.attrs .headingPath).iter
    startChar := row.startChar
    endChar := row.endChar
    tokenCount := row.tokenCount }

def isHigh (warning : Value) : Except Exc Bool := do
  return ((← warning.get "severity").getD .null).eq (.str "high")

/-- The warnings that a row already carries; the text is not scanned again. -/
def storedWarnings (rows : List ChunkRecord) : Except Exc (Dict String ChunkPIIWarning) :=
  rows.foldlM (fun warnings row => do
    let piiWarnings ← (row.attrs .piiWarnings).iter
    let high ← piiWarnings.anyM isHigh
    return warnings.set row.chunkId { piiWarnings := piiWarnings, hasHighSeverity := high }) .empty

def reindexEmbeddingOnly (request : IndexingRequest) (jobId : String) (piiConfig : Value) :
    StoreTask IndexingResult := do
  let existing ← listByDoc svc.faults.listByDoc request.doc none
  if existing.isEmpty then
    svc.indexFull request jobId piiConfig
  else
    let chunks ← Program.ofExcept (existing.mapM chunkOfRow)
    let warnings ← Program.ofExcept (storedWarnings existing)
    updateJob jobId
      { status := some .embedding, step := some "embed", progress := some 40,
        totalChunks := some existing.length }
    let embed := svc.embedSafely chunks
    let rate := failureRate chunks embed.failed
    if svc.overThreshold rate then
      failRun jobId s!"failure_rate {svc.formatRate rate} > threshold"
        existing.length embed.failed (highPii warnings) rate
    else
      svc.upsertToQdrant request chunks embed.vectors warnings
      updateMetadata (svc.faults.updateMetadata 0) request.domainId
        ((chunks.map Chunk.chunkId).filter fun id => id ∉ embed.failed.map FailedChunk.chunkId)
        (.ofList [("embedding_model", .str svc.modelName),
          ("embedding_version", .str svc.modelName)])
      finishRun jobId existing.length embed.failed (highPii warnings) rate

/-- The run of a job that is already in the job table; an error marks the job and goes on. -/
def runWithExistingJob (request : IndexingRequest) (jobId : String) (piiConfig : Value) :
    StoreTask IndexingResult :=
  tryCatch
    (match request.mode with
    | .embeddingOnly => svc.reindexEmbeddingOnly request jobId piiConfig
    | .parserOnly => svc.reindexParserOnly request jobId piiConfig
    | .full | .chunkReSplit => svc.indexFull request jobId piiConfig)
    fun e => do
      updateJob jobId { status := some .failed, errorMessage := some e.message }
      throw e

def run (request : IndexingRequest) (jobId : String) (piiConfig : Value) :
    StoreTask IndexingResult := do
  let s ← get
  let jobs ← Program.ofExcept (s.jobs.create
    { jobId := jobId, domainId := request.domainId, docId := request.docId,
      docVersion := request.docVersion, filename := request.filePath })
  set { s with jobs := jobs }
  svc.runWithExistingJob request jobId piiConfig

end IndexingService

end DomainRag.Indexing
