import DomainRag.Lib.Threads
import DomainRag.Storage.Service
import DomainRag.Store.Vectors

/-! # The lifecycle of a tenant

`PostgresTenantLifecycleService` changes the status of a tenant and deletes an archived one. Both
calls read the row of the tenant in one transaction and write it in another, and a deletion goes
through the tables, the collection and the objects of the tenant in between. A call stands before
its next transaction or service call, and others may take their steps there.
-/

namespace DomainRag.Lifecycle

structure TenantRow where
  displayName : String
  domainType : Option String := none
  embeddingModel : Option String := some "bge-m3"
  embeddingMigrationState : Option String := some "idle"
  status : String := "active"
  modules : Option (List String) := some ["rag"]
  createdAt : Option Nat := none
  updatedAt : Option Nat := none
  deleteStatus : Option String := none
  deletedAt : Option Nat := none
  enrollmentPolicy : String := "assigned"
  deriving DecidableEq

structure TenantRecord where
  domainId : String
  displayName : String
  domainType : Option String
  embeddingModel : String
  embeddingMigrationState : String
  status : String
  enrollmentPolicy : String
  modules : List String
  createdAt : Nat
  updatedAt : Nat
  deleteStatus : Option String
  deletedAt : Option Nat
  deriving DecidableEq

/-- A row of a table that has a `domain_id`, with its other columns. -/
structure ScopedRow where
  domainId : String
  columns : List (String × Value)

structure DeleteFailure where
  domainId : String
  failedStep : String
  errorMessage : String
  deriving DecidableEq

structure LedgerEntry where
  domainId : String
  actor : String
  action : String
  details : List (String × Value)

structure Platform where
  tenants : Dict String TenantRow
  tables : String → List ScopedRow
  vectors : Store.VectorStore
  objects : Storage.World
  deleteFailures : List DeleteFailure := []
  ledger : List LedgerEntry := []

def Platform.status? (s : Platform) (domainId : String) : Option String :=
  (s.tenants.get? domainId).map (·.status)

def transitions : String → List String
  | "active" => ["suspended", "archived"]
  | "suspended" => ["active", "archived"]
  | "archived" => ["active"]
  | _ => []

def tenantScopedTables : List String :=
  ["chunks_archive", "chunks", "documents", "indexing_jobs",
   "evaluation_jobs", "messages", "conversations", "chat_logs",
   "tenant_config_change_logs", "tenant_config_overrides",
   "tenant_input_schemas", "tenant_lifecycle_logs",
   "adapter_registry", "assessment_items", "assessment_logs",
   "pii_storage_approvals", "user_tenant_membership"]

def tenantNotFoundError (domainId : String) : Exc :=
  ⟨"TenantNotFoundError", s!"tenant not found: {domainId}"⟩

def invalidStatusTransitionError (frm target : String) : Exc :=
  ⟨"InvalidStatusTransitionError", s!"status transition not allowed: {frm} -> {target}"⟩

def tenantNotArchivedError (status : String) : Exc :=
  ⟨"TenantNotArchivedError", s!"tenant must be in 'archived' status for hard_delete, got {status}"⟩

/-- The parts that a service was given, `none` and `false` where it has none. -/
structure PostgresTenantLifecycleService where
  vectorStore : Bool
  storage : Option Storage.DocumentStorage
  ledger : Bool

/-- What the host gives to one step: the time, the error of the step, if it raises, and the errors
of the object store. -/
structure Turn where
  now : Nat := 0
  fault : Option Exc := none
  host : Storage.Host := {}

inductive TenantCall where
  | updateStatus (toStatus actor : String) (reason : Option String)
  | hardDelete (actor reason : String)

inductive DeleteStep where
  | postgres (table : String)
  | qdrant
  | storage (storage : Storage.DocumentStorage)

structure Deletion where
  record : TenantRecord
  actor : String
  reason : String
  /-- The failed steps with their errors. -/
  failed : List (String × String) := []

/-- Where a call stands. A deletion without further steps is about to close. -/
inductive Stage where
  | reading (call : TenantCall)
  | writing (record : TenantRecord) (toStatus actor : String) (reason : Option String)
  | marking (deletion : Deletion)
  | deleting (deletion : Deletion) (steps : List DeleteStep)
  | publishing (record : TenantRecord) (entry : LedgerEntry)
  | ended (result : Except Exc TenantRecord)

def textOr (value : Option String) (default : String) : String :=
  match value with
  | some s => if s = "" then default else s
  | none => default

/-- `_fetch`; the clock is read where the row has no times. -/
def TenantRow.record (row : TenantRow) (domainId : String) (now : Nat) : TenantRecord where
  domainId := domainId
  displayName := row.displayName
  domainType := row.domainType
  embeddingModel := textOr row.embeddingModel "bge-m3"
  embeddingMigrationState := textOr row.embeddingMigrationState "idle"
  status := textOr (some row.status) "active"
  enrollmentPolicy := textOr (some row.enrollmentPolicy) "assigned"
  modules := match row.modules with
    | some (m :: ms) => m :: ms
    | _ => ["rag"]
  createdAt := row.createdAt.getD now
  updatedAt := (row.updatedAt.or row.createdAt).getD now
  deleteStatus := row.deleteStatus
  deletedAt := row.deletedAt

/-- `UPDATE tenants .. WHERE domain_id = :tid`. -/
def Platform.updateTenant (s : Platform) (domainId : String) (f : TenantRow → TenantRow) :
    Platform :=
  match s.tenants.get? domainId with
  | some row => { s with tenants := s.tenants.set domainId (f row) }
  | none => s

def DeleteStep.name : DeleteStep → String
  | postgres table => s!"postgres:{table}"
  | qdrant => "qdrant"
  | storage _ => "storage"

/-- One step of a deletion and the error it raised, if it did. -/
def DeleteStep.exec (turn : Turn) (domainId : String) (s : Platform) :
    DeleteStep → Platform × Option Exc
  | postgres table =>
    match turn.fault with
    | some e => (s, some e)
    | none =>
      ({ s with
        tables := fun t =>
          if t = table then (s.tables t).filter (·.domainId ≠ domainId) else s.tables t }, none)
  | qdrant =>
    match turn.fault with
    | some e => (s, some e)
    | none => ({ s with vectors := s.vectors.deleteCollection domainId }, none)
  | storage store =>
    match Program.failing turn.fault (store.delete turn.host domainId "" none) s.objects with
    | .ok _ objects => ({ s with objects := objects }, none)
    | .error e objects => ({ s with objects := objects }, some e)

def Deletion.note (deletion : Deletion) (step : DeleteStep) : Option Exc → Deletion
  | none => deletion
  | some e => { deletion with failed := deletion.failed ++ [(step.name, e.message)] }

def Deletion.deleteStatus (deletion : Deletion) : String :=
  if deletion.failed = [] then "completed" else "partial"

namespace PostgresTenantLifecycleService

variable (service : PostgresTenantLifecycleService) (domainId : String)

def deleteSteps : List DeleteStep :=
  tenantScopedTables.map .postgres ++ (if service.vectorStore then [.qdrant] else []) ++
    service.storage.toList.map .storage

/-- What follows in a call after the row of the tenant was read. -/
def check : TenantCall → Option TenantRecord → Stage
  | _, none => .ended (.error (tenantNotFoundError domainId))
  | .updateStatus toStatus actor reason, some record =>
    if record.status = toStatus then .ended (.ok record)
    else if toStatus ∉ transitions record.status then
      .ended (.error (invalidStatusTransitionError record.status toStatus))
    else .writing record toStatus actor reason
  | .hardDelete actor reason, some record =>
    if record.status ≠ "archived" then .ended (.error (tenantNotArchivedError record.status))
    else .marking { record := record, actor := actor, reason := reason }

def statusChanged (toStatus actor : String) (reason : Option String) : LedgerEntry where
  domainId := domainId
  actor := actor
  action := "tenant_status_changed"
  details := [("from", .str "(prev)"), ("to", .str toStatus),
    ("reason", (reason.map Value.str).getD .null)]

def hardDeleted (deletion : Deletion) : LedgerEntry where
  domainId := domainId
  actor := deletion.actor
  action := "tenant_hard_deleted"
  details := [("reason", .str deletion.reason), ("delete_status", .str deletion.deleteStatus),
    ("failed_steps", .list (deletion.failed.map fun f => .str f.1))]

/-- The last transaction of a deletion: the row of the tenant, and the failed steps. -/
def close (now : Nat) (deletion : Deletion) (s : Platform) : Platform :=
  { s.updateTenant domainId fun row =>
      { row with
        status := "deleted", deleteStatus := some deletion.deleteStatus,
        deletedAt := some now, updatedAt := some now } with
    deleteFailures := s.deleteFailures ++
      deletion.failed.map fun f => ⟨domainId, f.1, f.2⟩ }

def publish (fault : Option Exc) (entry : LedgerEntry) (s : Platform) : Platform :=
  if service.ledger ∧ fault = none then { s with ledger := s.ledger ++ [entry] } else s

def step (turn : Turn) (s : Platform) : Stage → Platform × Stage
  | .reading call =>
    match turn.fault with
    | some e => (s, .ended (.error e))
    | none => (s, check domainId call ((s.tenants.get? domainId).map (·.record domainId turn.now)))
  | .writing record toStatus actor reason =>
    match turn.fault with
    | some e => (s, .ended (.error e))
    | none =>
      (s.updateTenant domainId fun row =>
          { row with status := toStatus, updatedAt := some turn.now },
        .publishing { record with status := toStatus, updatedAt := turn.now }
          (statusChanged domainId toStatus actor reason))
  | .marking deletion =>
    match turn.fault with
    | some e => (s, .ended (.error e))
    | none =>
      (s.updateTenant domainId fun row => { row with deleteStatus := some "in_progress" },
        .deleting deletion service.deleteSteps)
  | .deleting deletion (step :: steps) =>
    -- A failed step is noted, and the deletion goes on.
    let (s', fault) := step.exec turn domainId s
    (s', .deleting (deletion.note step fault) steps)
  | .deleting deletion [] =>
    match turn.fault with
    | some e => (s, .ended (.error e))
    | none =>
      (close domainId turn.now deletion s,
        .publishing { deletion.record with
            status := "deleted", deleteStatus := some deletion.deleteStatus,
            deletedAt := some turn.now, updatedAt := turn.now }
          (hardDeleted domainId deletion))
  | .publishing record entry => (service.publish turn.fault entry s, .ended (.ok record))
  | .ended result => (s, .ended result)

def calls : Threads Platform Stage TenantCall Turn where
  enter := .reading
  step := service.step domainId

end PostgresTenantLifecycleService

end DomainRag.Lifecycle
