import Mathlib.Data.Prod.Lex
import Mathlib.Data.String.Basic
import DomainRag.Chat.Generation
import DomainRag.Lib.Overlay

/-! # Prompts that a tenant edits

An edit is kept under the tenant, the task, the version and the slot. The generator asks for the
task alone, and gets the first record of it, those of the platform and those of the tenant in one
order.
-/

namespace DomainRag.Chat

structure PromptRecord where
  task : String
  version : String
  abSlot : String
  system : String
  user : String
  schemaVersion : Value := .null
  responseSchemaPath : Value := .null
  source : String := "platform"
  updatedAt : Option Int := none
  updatedBy : Option String := none
  reason : Option String := none

abbrev RecordKey := String × String × String

def PromptRecord.key (r : PromptRecord) : RecordKey := (r.task, r.version, r.abSlot)

def PromptRecord.order (r : PromptRecord) : String ×ₗ String ×ₗ String :=
  toLex (r.task, toLex (r.version, r.abSlot))

structure PromptChangeRecord where
  domainId : String
  task : String
  version : String
  abSlot : String
  old : Option PromptRecord
  new : PromptRecord
  changedAt : Int
  changedBy : Option String
  reason : Option String

/-- The edits of all tenants, each under its tenant and its key. -/
structure PromptRuntime where
  records : Dict (String × RecordKey) PromptRecord := .empty
  history : List PromptChangeRecord := []

/-- The files of the platform's prompts, in the order of their names, each with what the YAML reader
makes of it, if it does not raise. -/
structure PromptStudioService where
  files : List (Option Value)
  repr : Value → String

structure PromptPatch where
  domainId : String
  task : String
  version : String
  abSlot : String
  system : Option String := none
  user : Option String := none
  actor : Option String := none
  reason : Option String := none
  now : Int := 0

namespace PromptStudioService

variable (studio : PromptStudioService)

def loadYamlRecord : Option Value → Except Exc (Option PromptRecord)
  | none => return none
  | some data => do
    let data := data.orElse (.dict [])
    let name ← data.getD "name" .null
    if name.truthy then
      return some
        { task := name.text studio.repr
          version := (← data.getD "version" (.str "v1")).text studio.repr
          abSlot := (← data.getD "ab_slot" (.str "control")).text studio.repr
          system := (← data.getD "system" (.str "")).text studio.repr
          user := (← data.getD "user" (.str "")).text studio.repr
          schemaVersion := ← data.getD "schema_version" .null
          responseSchemaPath := ← data.getD "response_schema_path" .null }
    else return none

def addFile (records : Dict RecordKey PromptRecord) (file : Option Value) :
    Except Exc (Dict RecordKey PromptRecord) := do
  match ← studio.loadYamlRecord file with
  | none => return records
  | some r => return records.set r.key r

def platformRecords : Except Exc (Dict RecordKey PromptRecord) :=
  studio.files.foldlM studio.addFile .empty

def listTasks (runtime : PromptRuntime) (domainId : String) : Except Exc (List PromptRecord) := do
  let platform ← studio.platformRecords
  let records := platform.update (runtime.records.sectionAt domainId).entries
  return records.values.insertionSort fun r r' => r.order ≤ r'.order

def getPrompt (runtime : PromptRuntime) (domainId task : String)
    (version abSlot : Option String := none) : Except Exc (Option PromptRecord) := do
  let candidates := (← studio.listTasks runtime domainId).filter fun r => r.task = task
  let candidates := match version with
    | none => candidates
    | some version => candidates.filter fun r => r.version = version
  let candidates := match abSlot with
    | none => candidates
    | some abSlot => candidates.filter fun r => r.abSlot = abSlot
  return candidates.head?

/-- The record that a patch is made on, if there is one, and the record that it makes. -/
def revise (runtime : PromptRuntime) (p : PromptPatch) :
    Except Exc (Option PromptRecord × PromptRecord) :=
  if p.system.isNone ∧ p.user.isNone then .error ⟨"ValueError", "empty_patch"⟩
  else do
    let existing ← studio.getPrompt runtime p.domainId p.task (some p.version) (some p.abSlot)
    let base := existing.getD
      { task := p.task, version := p.version, abSlot := p.abSlot, system := "", user := "" }
    return (existing,
      { task := base.task, version := base.version, abSlot := base.abSlot
        system := p.system.getD base.system
        user := p.user.getD base.user
        schemaVersion := base.schemaVersion
        responseSchemaPath := base.responseSchemaPath
        source := "tenant_runtime"
        updatedAt := some p.now
        updatedBy := p.actor
        reason := p.reason })

def patch (runtime : PromptRuntime) (p : PromptPatch) :
    Except Exc (PromptChangeRecord × PromptRuntime) := do
  let (existing, new) ← studio.revise runtime p
  let change : PromptChangeRecord :=
    { domainId := p.domainId, task := p.task, version := p.version, abSlot := p.abSlot
      old := existing, new, changedAt := p.now, changedBy := p.actor, reason := p.reason }
  return (change,
    { records := runtime.records.set (p.domainId, p.task, p.version, p.abSlot) new
      history := runtime.history ++ [change] })

/-- The provider of the generator asks for the task alone. -/
def buildPromptProvider (runtime : PromptRuntime) (fallback : GenerationPrompt)
    (domainId : String) : Except Exc (Option GenerationPrompt) := do
  match ← studio.getPrompt runtime domainId "chat_answer" with
  | none => return none
  | some record =>
    return some
      { system := record.system, user := record.user, responseSchema := fallback.responseSchema }

/-- The prompt that the generator obtains for a tenant. -/
def obtained (service : GenerationService) (runtime : PromptRuntime) (domainId : String) :
    GenerationPrompt :=
  { service with
    promptProvider := some (studio.buildPromptProvider runtime service.prompt) }.effectivePrompt
      domainId

end PromptStudioService

end DomainRag.Chat
