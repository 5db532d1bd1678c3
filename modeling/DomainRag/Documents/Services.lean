import Mathlib.Data.List.Sort
import DomainRag.Indexing.Service

/-! # Approval and metadata of documents

Both services write a change three times: into the document's row, into its chunk rows and into
the payloads of the points under the ids of these rows. The last write may fail without the caller
noticing.
-/

namespace DomainRag.Documents

open Store Indexing

structure ApprovalResult where
  document : DocumentRecord
  affectedChunks : Nat

/-- The service with the error of its `set_payload` call, if it raises, and of its audit. -/
structure DocumentApprovalService where
  setPayloadFault : Option Exc := none
  audit : Except Exc Unit := .ok ()

/-- The chunk rows and the payloads under the given ids are set to the same values; a payload
that cannot be set is only logged. -/
def syncChunks (fault : Option Exc) (domainId : String) (chunkIds : List String)
    (values : Dict String Value) : StoreTask Unit :=
  if chunkIds.isEmpty then return
  else do
    updateMetadata none domainId chunkIds values
    tryCatch (setPayload fault domainId chunkIds values) fun _ => return

def DocumentApprovalService.setApproval (svc : DocumentApprovalService) (doc : DocKey)
    (approvalStatus : String) : StoreTask (Option ApprovalResult) := do
  let s ← get
  match s.documents.updateApproval doc approvalStatus with
  | none => return none
  | some (updated, documents) =>
    set { s with documents := documents }
    let chunkIds := (s.chunks.listByDoc doc none).map ChunkRecord.chunkId
    syncChunks svc.setPayloadFault doc.domainId chunkIds
      (.ofList [("approval_status", .str approvalStatus)])
    Program.ofExcept svc.audit
    return some ⟨updated, chunkIds.length⟩

def chunkSyncKeys : List String :=
  ["title", "department", "doc_type", "security_level", "tags", "valid_from", "valid_until"]

structure MetadataUpdateResult where
  document : DocumentRecord
  affectedChunks : Nat
  syncedKeys : List String

/-- The service with its input schemas, the error of its `set_payload` call, if it raises, and of
its audit. -/
structure DocumentMetadataService where
  validate : String → Value → Dict String Value → Except Exc Unit
  setPayloadFault : Option Exc := none
  audit : Except Exc Unit := .ok ()

def objectEntries : Value → Except Exc (List (String × Value))
  | .dict kvs => .ok kvs
  | v => .error (.typeError s!"'{v.typeName}' object is not iterable")

def mergeForValidation (existing : DocumentRecord) (patch : Dict String Value)
    (existingAcl : List Value) : Except Exc (Dict String Value) := do
  let tags ← ((existing (.shared .tags)).orElse (.list [])).iter
  let base : Dict String Value := .ofList
    [("title", existing (.shared .title)),
     ("security_level", existing (.shared .securityLevel)),
     ("owner", existing .owner),
     ("acl", .list existingAcl),
     ("tags", .list tags),
     ("valid_from", existing (.shared .validFrom)),
     ("valid_until", existing (.shared .validUntil)),
     ("department", existing (.shared .department)),
     ("doc_type", existing (.shared .docType)),
     ("input_type", existing .inputType)]
  let stored ← if (existing .metadata).truthy then objectEntries (existing .metadata) else .ok []
  let base := (base.update stored).update (patch.entries.filter fun e => e.1 ≠ "metadata")
  return match (patch.get? "metadata").getD .null with
    | .dict kvs => base.update kvs
    | _ => base

namespace DocumentMetadataService

variable (svc : DocumentMetadataService)

def check (doc : DocKey) (existing : DocumentRecord) (rows : List ChunkRecord)
    (patch : Dict String Value) : Except Exc Unit := do
  let existingAcl ← match rows with
    | [] => .ok []
    | row :: _ => (row.attrs .acl).iter
  let merged ← mergeForValidation existing patch existingAcl
  let inputType := ((merged.get? "input_type").getD .null).orElse (existing .inputType)
  if inputType.truthy then svc.validate doc.domainId inputType merged
  else return

def update (doc : DocKey) (patch : Dict String Value) : StoreTask (Option MetadataUpdateResult) := do
  let s ← get
  match s.documents.get doc with
  | none => return none
  | some existing =>
    Program.ofExcept (svc.check doc existing (s.chunks.listByDoc doc none) patch)
    match s.documents.updatePartial doc patch with
    | none => return none
    | some (updated, documents) =>
      set { s with documents := documents }
      let syncPayload := patch.filterKeys fun k => k ∈ chunkSyncKeys
      let chunkIds := if syncPayload.entries.isEmpty then []
        else (s.chunks.listByDoc doc none).map ChunkRecord.chunkId
      syncChunks svc.setPayloadFault doc.domainId chunkIds syncPayload
      Program.ofExcept svc.audit
      return some ⟨updated, chunkIds.length, syncPayload.keys.insertionSort (· ≤ ·)⟩

end DocumentMetadataService

end DomainRag.Documents
