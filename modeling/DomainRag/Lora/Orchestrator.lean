import DomainRag.Lora.Service

/-! # The activation of adapters

An activation fetches the weights of an adapter, writes them into the directory that is shared with
the model server, makes the server load them and then marks the adapter as active. When a stage
fails, the ones before it are undone as for an adapter that was not active.
-/

namespace DomainRag.Lora

open Program Storage

inductive ActivateError where
  | notFound (adapterId : String)
  | invalidTransition (current target : String)
  | orchestration (message : String)
  | raised (e : Exc)
  deriving DecidableEq

/-- The registry, the shared directory, and what the model server has loaded: names of adapters with
the directories of their weights. -/
structure Cluster where
  registry : LoRARegistry
  files : FileSystem Bytes
  loaded : Dict String String

/-- What the KeyHub answers to a reference, and what the other services raise. -/
structure ActivateCall where
  domainId : String
  adapterId : String
  fetch : String → Except Exc Bytes
  loadFault : Option Exc := none
  registerFault : Option Exc := none
  unloadFault : Option Exc := none
  now : Nat := 0

structure RetireCall where
  domainId : String
  adapterId : String
  unloadFault : Option Exc := none
  now : Nat := 0

namespace LoRARegistry

variable (registry : LoRARegistry) (domainId adapterId : String)

def activate (now : Nat) : Except ActivateError (AdapterRecord × LoRARegistry) :=
  match registry.get domainId adapterId with
  | none => .error (.notFound adapterId)
  | some rec =>
    if rec.status = .retired then .error (.invalidTransition "retired" "active")
    else .ok (activated rec now, registry.set adapterId (activated rec now))

def retire (now : Nat) : Except ActivateError (AdapterRecord × LoRARegistry) :=
  match registry.get domainId adapterId with
  | none => .error (.notFound adapterId)
  | some rec => .ok (retired rec now, registry.set adapterId (retired rec now))

def delete : Except Exc (Nat × LoRARegistry) :=
  match registry.get domainId adapterId with
  | none => .ok (0, registry)
  | some rec =>
    if rec.status = .active then
      .error ⟨"LoRADeleteForbiddenError", s!"adapter active, cannot delete: {adapterId}"⟩
    else .ok (1, registry.erase adapterId)

end LoRARegistry

structure LoRAOrchestrator where
  /-- Whether there is a model server. -/
  vllm : Bool
  sharedLoraPath : List String

namespace LoRAOrchestrator

variable (orchestrator : LoRAOrchestrator)

def adapterDir (domainId adapterId : String) : PurePath :=
  ((PurePath.mk "/" orchestrator.sharedLoraPath).join domainId).join adapterId

def weightsFile (domainId adapterId : String) : List String :=
  (orchestrator.adapterDir domainId adapterId).parts ++ ["adapter_model.bin"]

def fetchWeights (call : ActivateCall) (record : AdapterRecord) : Except ActivateError Bytes :=
  match record.keyhubSecretRef with
  | none | some "" =>
    .error (.orchestration s!"adapter {call.adapterId}: keyhub_secret_ref missing")
  | some ref => (call.fetch ref).mapError fun e =>
    .orchestration s!"keyhub fetch failed for {ref}: {e.message}"

def writeWeights (domainId adapterId : String) (blob : Bytes) :
    Program Exc (FileSystem Bytes) (List String) := do
  let _ ← FileSystem.mkdirs (orchestrator.adapterDir domainId adapterId).parts
  FileSystem.writeFile (orchestrator.weightsFile domainId adapterId) blob

/-- The weights are taken away again, as far as that goes. -/
def discardWeights (domainId adapterId : String) : Program Exc (FileSystem Bytes) Unit := do
  FileSystem.unlink (orchestrator.weightsFile domainId adapterId)
  FileSystem.rmdir (orchestrator.adapterDir domainId adapterId).parts

/-- The registry's own step of an activation. -/
def register (call : ActivateCall) (s : Cluster) : Cluster × Except ActivateError AdapterRecord :=
  match call.registerFault with
  | some e => (s, .error (.raised e))
  | none =>
    match s.registry.activate call.domainId call.adapterId call.now with
    | .error e => (s, .error e)
    | .ok (record, registry) => ({ s with registry := registry }, .ok record)

def unload (adapterId : String) (fault : Option Exc) (s : Cluster) : Cluster :=
  match fault with
  | some _ => s
  | none => { s with loaded := s.loaded.erase adapterId }

def discard (domainId adapterId : String) (s : Cluster) : Cluster :=
  { s with files := (orchestrator.discardWeights domainId adapterId).final s.files }

/-- The weights are in place. -/
def serve (call : ActivateCall) (s : Cluster) : Cluster × Except ActivateError AdapterRecord :=
  match call.loadFault with
  | some e => (orchestrator.discard call.domainId call.adapterId s,
      .error (.orchestration s!"vllm load failed for {call.adapterId}: {e.message}"))
  | none =>
    let dir := (orchestrator.adapterDir call.domainId call.adapterId).str
    match register call { s with loaded := s.loaded.set call.adapterId dir } with
    | (s', .ok record) => (s', .ok record)
    | (s', .error e) => (orchestrator.discard call.domainId call.adapterId
        (unload call.adapterId call.unloadFault s'), .error e)

def activate (call : ActivateCall) (s : Cluster) : Cluster × Except ActivateError AdapterRecord :=
  match s.registry.get call.domainId call.adapterId with
  | none => (s, .error (.notFound call.adapterId))
  | some record =>
    if record.status = .retired then (s, .error (.invalidTransition "retired" "active"))
    else if orchestrator.vllm = false then register call s
    else
      match fetchWeights call record with
      | .error e => (s, .error e)
      | .ok blob =>
        match orchestrator.writeWeights call.domainId call.adapterId blob s.files with
        | .error e files => ({ s with files := files }, .error (.raised e))
        | .ok _ files => orchestrator.serve call { s with files := files }

/-- The weights stay in the shared directory. -/
def retire (call : RetireCall) (s : Cluster) : Cluster × Except ActivateError AdapterRecord :=
  match s.registry.retire call.domainId call.adapterId call.now with
  | .error e => (s, .error e)
  | .ok (record, registry) =>
    let s' := { s with registry := registry }
    (if orchestrator.vllm && record.status = .retired then unload call.adapterId call.unloadFault s'
      else s', .ok record)

end LoRAOrchestrator

inductive AdapterOp where
  | upload (record : AdapterRecord) (now : Nat)
  | activate (call : ActivateCall)
  | retire (call : RetireCall)
  | delete (domainId adapterId : String)

namespace LoRAOrchestrator

variable (orchestrator : LoRAOrchestrator)

def step (s : Cluster) : AdapterOp → Cluster
  | .upload record now =>
    match s.registry.upload record now with
    | .ok (_, registry) => { s with registry := registry }
    | .error _ => s
  | .activate call => (orchestrator.activate call s).1
  | .retire call => (orchestrator.retire call s).1
  | .delete domainId adapterId =>
    match s.registry.delete domainId adapterId with
    | .ok (_, registry) => { s with registry := registry }
    | .error _ => s

/-- No adapter is registered, no file is there and nothing is loaded. -/
def start : Cluster := ⟨.empty, .empty, .empty⟩

def run (ops : List AdapterOp) : Cluster := ops.foldl orchestrator.step start

end LoRAOrchestrator

end DomainRag.Lora
