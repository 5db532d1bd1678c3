import DomainRag.Lib.Attributes

/-! # Rows of the document, chunk and job tables

The eight shared fields are stored three times: in the document's row, in each of its chunk rows
and in the payload of each of its points.
-/

namespace DomainRag.Store

inductive SharedField where
  | approvalStatus
  | securityLevel
  | validFrom
  | validUntil
  | title
  | department
  | docType
  | tags
  deriving DecidableEq, Repr

namespace SharedField

def name : SharedField → String
  | approvalStatus => "approval_status"
  | securityLevel => "security_level"
  | validFrom => "valid_from"
  | validUntil => "valid_until"
  | title => "title"
  | department => "department"
  | docType => "doc_type"
  | tags => "tags"

def all : List SharedField :=
  [approvalStatus, securityLevel, validFrom, validUntil, title, department, docType, tags]

theorem mem_all (f : SharedField) : f ∈ all := by cases f <;> decide

end SharedField

inductive DocumentField where
  | shared (f : SharedField)
  | domainId
  | docId
  | version
  | inputType
  | sourceType
  | sourcePath
  | objectStoragePath
  | owner
  | language
  | fileHash
  | parserVersion
  | metadata
  deriving DecidableEq, Repr

namespace DocumentField

def name : DocumentField → String
  | shared f => f.name
  | domainId => "domain_id"
  | docId => "doc_id"
  | version => "version"
  | inputType => "input_type"
  | sourceType => "source_type"
  | sourcePath => "source_path"
  | objectStoragePath => "object_storage_path"
  | owner => "owner"
  | language => "language"
  | fileHash => "file_hash"
  | parserVersion => "parser_version"
  | metadata => "metadata"

def all : List DocumentField :=
  SharedField.all.map shared ++ [domainId, docId, version, inputType, sourceType, sourcePath,
    objectStoragePath, owner, language, fileHash, parserVersion, metadata]

theorem mem_all (f : DocumentField) : f ∈ all := by
  cases f with
  | shared f => exact List.mem_append_left _ (List.mem_map_of_mem f.mem_all)
  | _ => decide

instance : FieldNames DocumentField where
  fields := all
  name := name
  mem_fields := mem_all
  names_nodup := by decide

end DocumentField

abbrev DocumentRecord := Record DocumentField

inductive ChunkField where
  | shared (f : SharedField)
  | acl
  | pageNumber
  | sectionTitle
  | headingPath
  | embeddingModel
  | embeddingVersion
  | vectorId
  | piiWarnings
  deriving DecidableEq, Repr

namespace ChunkField

def name : ChunkField → String
  | shared f => f.name
  | acl => "acl"
  | pageNumber => "page_number"
  | sectionTitle => "section_title"
  | headingPath => "heading_path"
  | embeddingModel => "embedding_model"
  | embeddingVersion => "embedding_version"
  | vectorId => "vector_id"
  | piiWarnings => "pii_warnings"

def all : List ChunkField :=
  SharedField.all.map shared ++ [acl, pageNumber, sectionTitle, headingPath, embeddingModel,
    embeddingVersion, vectorId, piiWarnings]

theorem mem_all (f : ChunkField) : f ∈ all := by
  cases f with
  | shared f => exact List.mem_append_left _ (List.mem_map_of_mem f.mem_all)
  | _ => decide

instance : FieldNames ChunkField where
  fields := all
  name := name
  mem_fields := mem_all
  names_nodup := by decide

end ChunkField

/-- A chunk row. What identifies the chunk, and its text, is fixed when the row is built; the
other attributes may be updated later. The time of its archival is set by the archiver only. -/
structure ChunkRecord where
  domainId : String
  chunkId : String
  docId : String
  docVersion : String
  parserVersion : String
  chunkStrategy : String
  chunkIndex : Nat
  content : String
  contentHash : String
  startChar : Nat
  endChar : Nat
  tokenCount : Nat
  attrs : Record ChunkField
  archivedAt : Option Nat := none

def ChunkRecord.setattrs (row : ChunkRecord) (metadata : Dict String Value) : ChunkRecord :=
  { row with attrs := row.attrs.setattrs metadata }

theorem ChunkRecord.setattrs_setattrs (row : ChunkRecord) (metadata : Dict String Value) :
    (row.setattrs metadata).setattrs metadata = row.setattrs metadata := by
  simp only [setattrs, Record.setattrs_setattrs]

inductive JobStatus where
  | pending
  | parsing
  | chunking
  | embedding
  | indexing
  | completed
  | partial_
  | failed
  deriving DecidableEq, Repr

/-- The statuses in `_ACTIVE_STATES`. -/
def JobStatus.active : JobStatus → Bool
  | pending | parsing | chunking | embedding | indexing => true
  | completed | partial_ | failed => false

structure FailedChunk where
  chunkId : String
  step : String
  error : String
  deriving DecidableEq, Repr

structure IndexingJobRecord where
  jobId : String
  domainId : String
  docId : String
  docVersion : String
  status : JobStatus := .pending
  step : Option String := none
  progress : Nat := 0
  totalChunks : Nat := 0
  indexedChunks : Nat := 0
  failedChunks : List FailedChunk := []
  errorMessage : Option String := none
  failureRate : Option Rat := none
  retryCount : Nat := 0
  filename : Value := .null

end DomainRag.Store
