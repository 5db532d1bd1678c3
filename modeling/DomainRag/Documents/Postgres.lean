import DomainRag.Documents.Services

/-! # Metadata updates of the documents table

The columns a patch may set are a fixed list, and any other key of it is dropped. The database may
refuse a value; one that it takes reads back as it was given, but for the defaults of empty
columns. A record is built from its row after the row was written.
-/

namespace DomainRag.Documents

open Store Indexing Program

def partialColumns : List DocumentField :=
  [.shared .title, .inputType, .sourceType, .objectStoragePath, .shared .department,
    .shared .docType, .shared .securityLevel, .owner, .language, .shared .validFrom,
    .shared .validUntil, .shared .tags, .metadata]

/-- One element of a sequence that is made a dictionary. An entry whose key is no string is left
out: no name finds it. -/
def toEntry (i : Nat) (v : Value) : Except Exc (Option (String × Value)) :=
  match v.iter with
  | .error _ => .error (.typeError
      s!"cannot convert dictionary update sequence element #{i} to a sequence")
  | .ok [.str k, x] => .ok (some (k, x))
  | .ok [.list _, _] => .error (.typeError "unhashable type: 'list'")
  | .ok [.dict _, _] => .error (.typeError "unhashable type: 'dict'")
  | .ok [_, _] => .ok none
  | .ok vs => .error ⟨"ValueError",
      s!"dictionary update sequence element #{i} has length {vs.length}; 2 is required"⟩

def toDict : Value → Except Exc (List (String × Value))
  | .dict kvs => .ok kvs
  | v => do
    let entries ← (← v.iter).zipIdx.mapM fun e => toEntry e.2 e.1
    return (Dict.ofList (entries.filterMap id)).entries

/-- The record that a row of the table reads as. -/
def rowToDoc (doc : DocKey) (row : DocumentRecord) : Except Exc DocumentRecord := do
  let tags ← ((row (.shared .tags)).orElse (.list [])).iter
  let metadata ← toDict ((row .metadata).orElse (.dict []))
  return fun
    | .domainId => .str doc.domainId
    | .docId => .str doc.docId
    | .version => .str doc.version
    | .shared .securityLevel => (row (.shared .securityLevel)).orElse (.str "internal")
    | .shared .tags => .list tags
    | .language => (row .language).orElse (.str "ko")
    | .shared .approvalStatus => (row (.shared .approvalStatus)).orElse (.str "draft")
    | .parserVersion => (row .parserVersion).orElse (.str "p1")
    | .metadata => .dict metadata
    | f => row f

def setColumns (patch : Dict String Value) (row : DocumentRecord) : DocumentRecord := fun f =>
  if f ∈ partialColumns then (patch.get? f.name).getD (row f) else row f

def refusal (refuses : DocumentField → Value → Option Exc) (patch : Dict String Value) :
    Option Exc :=
  partialColumns.findSome? fun f => (patch.get? f.name).bind (refuses f)

/-- The operations of a document repository that a metadata update uses. -/
structure DocumentStore where
  get : DocKey → StoreTask (Option DocumentRecord)
  updatePartial : DocKey → Dict String Value → StoreTask (Option DocumentRecord)

def inMemory : DocumentStore where
  get doc := do return (← get).documents.get doc
  updatePartial doc patch := do
    let s ← get
    match s.documents.updatePartial doc patch with
    | none => return none
    | some (updated, documents) =>
      set { s with documents := documents }
      return some updated

def readDoc (doc : DocKey) : StoreTask (Option DocumentRecord) := do
  match (← get).documents.get doc with
  | none => return none
  | some row => return some (← Program.ofExcept (rowToDoc doc row))

def postgres (refuses : DocumentField → Value → Option Exc) : DocumentStore where
  get := readDoc
  updatePartial doc patch :=
    if partialColumns.all fun f => (patch.get? f.name).isNone then readDoc doc
    else Program.failing (refusal refuses patch) do
      let s ← get
      match s.documents.get doc with
      | none => return none
      | some row =>
        -- The write is committed before the record is built, which may still raise.
        set { s with documents := s.documents.upsert doc (setColumns patch row) }
        return some (← Program.ofExcept (rowToDoc doc (setColumns patch row)))

namespace DocumentMetadataService

variable (svc : DocumentMetadataService)

def updateOn (docs : DocumentStore) (doc : DocKey) (patch : Dict String Value) :
    StoreTask (Option MetadataUpdateResult) := do
  match ← docs.get doc with
  | none => return none
  | some existing =>
    let s ← get
    Program.ofExcept (svc.check doc existing (s.chunks.listByDoc doc none) patch)
    match ← docs.updatePartial doc patch with
    | none => return none
    | some updated =>
      let s ← get
      let syncPayload := patch.filterKeys fun k => k ∈ chunkSyncKeys
      let chunkIds := if syncPayload.entries.isEmpty then []
        else (s.chunks.listByDoc doc none).map ChunkRecord.chunkId
      syncChunks svc.setPayloadFault doc.domainId chunkIds syncPayload
      Program.ofExcept svc.audit
      return some ⟨updated, chunkIds.length, syncPayload.keys.insertionSort (· ≤ ·)⟩

theorem update_eq_updateOn (doc : DocKey) (patch : Dict String Value) :
    svc.update doc patch = svc.updateOn inMemory doc patch := by
  funext s
  have hget : inMemory.get doc s = .ok (s.documents.get doc) s := rfl
  rw [update, updateOn, get_bind_apply, bind_apply hget]
  cases hdoc : s.documents.get doc with
  | none => rfl
  | some existing =>
    cases hcheck : svc.check doc existing (s.chunks.listByDoc doc none) patch with
    | error e =>
      dsimp only
      rw [get_bind_apply, hcheck]
      rfl
    | ok u =>
      dsimp only
      rw [get_bind_apply, hcheck]
      have hupdated : s.documents.updatePartial doc patch =
          some (existing.setattrs patch, s.documents.upsert doc (existing.setattrs patch)) := by
        rw [DocumentRepository.updatePartial, hdoc]
        rfl
      have hwritten : inMemory.updatePartial doc patch s =
          .ok (some (existing.setattrs patch))
            { s with documents := s.documents.upsert doc (existing.setattrs patch) } := by
        refine get_bind_apply.trans ?_
        rw [hupdated]
        rfl
      have hchecked : (Program.ofExcept (.ok u) : StoreTask Unit) s = .ok u s := rfl
      rw [hupdated, bind_apply hchecked, bind_apply hchecked, bind_apply hwritten]
      rfl

end DocumentMetadataService

end DomainRag.Documents
