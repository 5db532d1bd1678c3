import DomainRag.Chat.Storage

/-! # Approvals of plain storage

The platform approves and revokes the plain storage of a tenant's questions. The loader of a chat
request asks for the approval and writes the answer into the tenant's configuration. That
configuration is cached: requests share one object, and with it one `storage` dictionary, so that
dictionaries have an identity here and requests run in steps.
-/

namespace DomainRag.Approval

open Chat (TenantConfig RAGState ChatRequest RAGGraphDeps StreamingChatService
  StreamingRequest ChatLogPayload Call StreamCall RetrievalSection execNode nextNode entered)
open Verifier (CitationConfig)

section Records

inductive ApprovalStatus where
  | active
  | revoked
  deriving DecidableEq, Repr

/-- A `datetime`; one with a time zone cannot be compared with one without. -/
structure Deadline where
  moment : Rat
  aware : Bool

structure PiiApprovalRecord where
  approvalId : String
  domainId : String
  policy : String
  reason : String
  approvedBy : String
  validFrom : Rat
  validUntil : Option Deadline
  status : ApprovalStatus
  revokedAt : Option Rat := none
  revokedBy : Option String := none
  revokeReason : Option String := none

structure AuditEvent where
  domainId : String
  action : String
  actor : String
  reason : String
  approvalId : String

/-- The state of `InMemoryPiiStorageApprovalService` for one tenant. -/
structure ApprovalService where
  domainId : String
  active : Option PiiApprovalRecord := none
  history : List PiiApprovalRecord := []
  auditEvents : List AuditEvent := []

end Records

namespace ApprovalService

variable (service : ApprovalService) (now : Rat)

def approvePlain (approvalId reason approvedBy : String) (validUntil : Option Deadline) :
    Except Exc (PiiApprovalRecord × ApprovalService) :=
  match service.active with
  | some existing => .error ⟨"PiiApprovalConflictError",
      "active approval already exists: " ++ existing.approvalId⟩
  | none =>
    let record : PiiApprovalRecord :=
      { approvalId := approvalId
        domainId := service.domainId
        policy := "plain"
        reason := reason
        approvedBy := approvedBy
        validFrom := now
        validUntil := validUntil
        status := .active }
    .ok (record,
      { service with
        active := some record
        history := service.history ++ [record]
        auditEvents := service.auditEvents ++
          [⟨service.domainId, "pii_storage_plain_approved", approvedBy, reason, approvalId⟩] })

def replaceLast (history : List PiiApprovalRecord) (revoked : PiiApprovalRecord) :
    List PiiApprovalRecord :=
  if history.getLast?.any fun r => r.approvalId = revoked.approvalId then
    history.dropLast ++ [revoked]
  else history

def revokeActive (revokedBy revokeReason : String) :
    Except Exc (PiiApprovalRecord × ApprovalService) :=
  match service.active with
  | none => .error ⟨"PiiApprovalNotFoundError",
      "no active approval for tenant " ++ service.domainId⟩
  | some existing =>
    let revoked : PiiApprovalRecord :=
      { existing with
        domainId := service.domainId
        status := .revoked
        revokedAt := some now
        revokedBy := some revokedBy
        revokeReason := some revokeReason }
    .ok (revoked,
      { service with
        active := none
        history := replaceLast service.history revoked
        auditEvents := service.auditEvents ++
          [⟨service.domainId, "pii_storage_plain_revoked", revokedBy, revokeReason,
            existing.approvalId⟩] })

def isPlainApproved : Except Exc Bool :=
  match service.active with
  | none => .ok false
  | some record =>
    match record.validUntil with
    | none => .ok true
    | some deadline =>
      if deadline.aware then
        .error (.typeError "can't compare offset-naive and offset-aware datetimes")
      else .ok (now < deadline.moment)

end ApprovalService

section Memory

/-- What stands under a key of a configuration. A value that is no dictionary may still be true
or false. -/
inductive Entry (A : Type) where
  | missing
  | other (truthy : Bool)
  | dict (a : A)

structure StorageSection where
  piiStoragePolicy : Option String := none
  plainApproved : Option Bool := none

/-- The section `pii`: the keys that the service reads besides `storage`, and what stands under
`storage`. -/
structure PiiSection (A : Type) where
  rest : Pii.PiiConfig := {}
  storage : Entry A := .missing

/-- A `TenantConfig`, as read from the disk or as an object whose sections are dictionaries with
an identity. -/
structure TenantConfigObject (S P : Type) where
  citation : Option (CitationConfig S) := none
  retrieval : RetrievalSection := {}
  model : Value := .null
  routing : Value := .null
  queryClassifier : Value := .null
  pii : Entry P
  complianceMode : String := "standard"

/-- A configuration as the files have it. The sections other than `pii.storage` come as they are
after the runtime overrides. -/
abbrev DiskConfig (S : Type) := TenantConfigObject S (PiiSection StorageSection)

/-- The objects and dictionaries of the process. The position of one is its identity. -/
structure Memory (S : Type) where
  storages : List StorageSection := []
  piis : List (PiiSection Nat) := []
  configs : List (TenantConfigObject S Nat) := []

namespace Memory

variable {S : Type} (m : Memory S)

def addStorage : Entry StorageSection → Memory S × Entry Nat
  | .missing => (m, .missing)
  | .other truthy => (m, .other truthy)
  | .dict s => ({ m with storages := m.storages ++ [s] }, .dict m.storages.length)

/-- `_deep_merge` under the key `storage`. Where only the override has a dictionary, the merged
section is that dictionary itself. -/
def mergeStorage (static : Entry StorageSection) : Entry Nat → Memory S × Entry Nat
  | .missing => m.addStorage static
  | .other truthy => (m, .other truthy)
  | .dict a =>
    match static with
    | .dict s =>
      let upper := m.storages[a]?.getD {}
      m.addStorage (.dict
        { piiStoragePolicy := upper.piiStoragePolicy.orElse fun _ => s.piiStoragePolicy
          plainApproved := upper.plainApproved.orElse fun _ => s.plainApproved })
    | _ => (m, .dict a)

def addPii (rest : Pii.PiiConfig) (storage : Entry Nat) : Memory S × Entry Nat :=
  ({ m with piis := m.piis ++ [⟨rest, storage⟩] }, .dict m.piis.length)

def overridden (runtime : Option Nat) : PiiSection Nat :=
  (runtime.bind (m.piis[·]?)).getD {}

/-- The section `pii` of a configuration that is read anew, under the runtime override. -/
def loadPii (static : Entry (PiiSection StorageSection)) (runtime : Option Nat) :
    Memory S × Entry Nat :=
  match static, runtime with
  | .other truthy, none => (m, .other truthy)
  | .other true, some o => (m, .dict o)
  | .dict p, _ =>
    let merged := m.mergeStorage p.storage (m.overridden runtime).storage
    merged.1.addPii p.rest merged.2
  | _, _ =>
    m.addPii (m.overridden runtime).rest (m.overridden runtime).storage

def addConfig (config : TenantConfigObject S Nat) : Memory S × Nat :=
  ({ m with configs := m.configs ++ [config] }, m.configs.length)

def piiAt (cfg : Nat) : Option Nat :=
  match m.configs[cfg]? with
  | some { pii := .dict p, .. } => some p
  | _ => none

def storageAt (cfg : Nat) : Option Nat :=
  match (m.piiAt cfg).bind (m.piis[·]?) with
  | some { storage := .dict a, .. } => some a
  | _ => none

/-- What the loader writes; it raises where a section is no dictionary. -/
def inject (cfg : Nat) (approved : Bool) : Option (Memory S) :=
  match m.piiAt cfg with
  | none => none
  | some p =>
    match m.piis[p]? with
    | none => none
    | some pii =>
      match pii.storage with
      | .missing => some
          { m with
            storages := m.storages ++ [{ plainApproved := some approved }]
            piis := m.piis.set p { pii with storage := .dict m.storages.length } }
      | .other _ => none
      | .dict a => m.storages[a]?.map fun s =>
          { m with storages := m.storages.set a { s with plainApproved := some approved } }

def storageOf (cfg : Nat) : StorageSection :=
  ((m.storageAt cfg).bind (m.storages[·]?)).getD {}

def piiOf (cfg : Nat) : Option Pii.PiiConfig :=
  ((m.piiAt cfg).bind (m.piis[·]?)).map fun pii =>
    { pii.rest with
      piiStoragePolicy := (m.storageOf cfg).piiStoragePolicy
      plainApproved := (m.storageOf cfg).plainApproved }

/-- `_config_to_dict`, which leaves the compliance mode out. -/
def configToDict (cfg : Nat) : TenantConfig S :=
  match m.configs[cfg]? with
  | none => {}
  | some config =>
    { citation := config.citation
      retrieval := config.retrieval
      model := config.model
      routing := config.routing
      queryClassifier := config.queryClassifier
      pii := m.piiOf cfg }

end Memory

end Memory

section Requests

/-- A chat request: a run of the graph or a stream, with the services that it calls. -/
inductive Work (V S : Type) where
  | structured (deps : RAGGraphDeps V S) (request : ChatRequest)
  | streamed (service : StreamingChatService S) (request : StreamingRequest)

/-- How far a request has come. The resolver only reads the request's own state, so that a
request starts with the load of its configuration; `approved` is what its own lookup returned. -/
inductive Stage (V S : Type) where
  | loading (work : Work V S)
  | asking (work : Work V S) (cfg : Nat)
  | injecting (work : Work V S) (cfg : Nat) (approved : Bool)
  | running (deps : RAGGraphDeps V S) (cfg : Nat) (approved : Bool) (n : Chat.Node)
      (state : RAGState S)
  | streaming (service : StreamingChatService S) (request : StreamingRequest) (cfg : Nat)
      (approved : Bool)
  | finished

/-- A row of the chat log, with the answer that the lookup of its request returned. -/
structure StoredRow (S : Type) where
  request : Nat
  approved : Bool
  payload : ChatLogPayload S

/-- One tenant: its approvals, its cached configuration and the time it was loaded, the `pii`
section of its runtime override, its requests and the rows that they have written. -/
structure World (V S : Type) where
  now : Rat
  approvals : ApprovalService
  memory : Memory S := {}
  runtimePii : Option Nat := none
  cache : Option (Nat × Rat) := none
  requests : List (Stage V S) := []
  rows : List (StoredRow S) := []

inductive Op (V S : Type) where
  | clock (now : Rat)
  | approve (approvalId reason approvedBy : String) (validUntil : Option Deadline)
  | revoke (revokedBy revokeReason : String)
  | arrive (work : Work V S)
  | load (i : Nat) (disk : DiskConfig S)
  | advance (i : Nat)

end Requests

namespace World

variable {V S : Type}

section Cache

variable (w : World V S)

def ttl : Rat := 60

/-- The object of `TenantConfigService.load`: the cached one, or one that is read from the disk. -/
def load (disk : DiskConfig S) : World V S × Nat :=
  let fresh :=
    let pii := w.memory.loadPii disk.pii w.runtimePii
    let added := pii.1.addConfig { disk with pii := pii.2 }
    ({ w with memory := added.1, cache := some (added.2, w.now) }, added.2)
  match w.cache with
  | some (cfg, at_) => if w.now - at_ < ttl then (w, cfg) else fresh
  | none => fresh

def setStage (i : Nat) (stage : Stage V S) : World V S :=
  { w with requests := w.requests.set i stage }

def addRows (i : Nat) (approved : Bool) (payloads : List (ChatLogPayload S)) : World V S :=
  { w with rows := w.rows ++ payloads.map fun payload => ⟨i, approved, payload⟩ }

def seen (cfg : Nat) (state : RAGState S) : RAGState S :=
  { state with tenantConfig := { state.tenantConfig with pii := w.memory.piiOf cfg } }

end Cache

def loggedBy : Call S → Option (ChatLogPayload S)
  | .logged payload => some payload
  | _ => none

def streamedBy : StreamCall S → Option (ChatLogPayload S)
  | .logged payload => some payload
  | _ => none

section Steps

variable [LinearOrder S] [Zero S] [One S] [Add S] [Sub S] [Mul S] [Div S] [NatCast S]
  [OfScientific S] (w : World V S)

def start (m : Memory S) (cfg : Nat) (approved : Bool) : Work V S → Stage V S
  | .structured deps request => .running deps cfg approved .checkInputPii
      { (entered request : RAGState S) with tenantConfig := m.configToDict cfg }
  | .streamed service request => .streaming service request cfg approved

def afterNode (deps : RAGGraphDeps V S) (cfg : Nat) (approved : Bool) (n : Chat.Node) :
    Except Exc (RAGState S) → Stage V S
  | .error _ => .finished
  | .ok state =>
    match nextNode n state with
    | none => .finished
    | some n' => .running deps cfg approved n' state

def advance (i : Nat) : Stage V S → World V S
  | .loading _ | .finished => w
  | .asking work cfg =>
    match w.approvals.isPlainApproved w.now with
    | .error _ => w.setStage i .finished
    | .ok approved => w.setStage i (.injecting work cfg approved)
  | .injecting work cfg approved =>
    match w.memory.inject cfg approved with
    | none => w.setStage i .finished
    | some m => { w with memory := m }.setStage i (start m cfg approved work)
  | .running deps cfg approved n state =>
    let done := execNode deps n (w.seen cfg state)
    (w.addRows i approved (done.1.filterMap loggedBy)).setStage i
      (afterNode deps cfg approved n done.2)
  | .streaming service request cfg approved =>
    let run := service.stream request (w.memory.configToDict cfg)
    (w.addRows i approved (run.calls.filterMap streamedBy)).setStage i .finished

def step : Op V S → World V S
  | .clock now => { w with now := now }
  | .approve approvalId reason approvedBy validUntil =>
    match w.approvals.approvePlain w.now approvalId reason approvedBy validUntil with
    | .error _ => w
    | .ok (_, approvals) => { w with approvals := approvals }
  | .revoke revokedBy revokeReason =>
    match w.approvals.revokeActive w.now revokedBy revokeReason with
    | .error _ => w
    | .ok (_, approvals) => { w with approvals := approvals }
  | .arrive work => { w with requests := w.requests ++ [.loading work] }
  | .load i disk =>
    match w.requests[i]? with
    | some (.loading work) => (w.load disk).1.setStage i (.asking work (w.load disk).2)
    | _ => w
  | .advance i =>
    match w.requests[i]? with
    | some stage => w.advance i stage
    | none => w

end Steps

end World

end DomainRag.Approval
