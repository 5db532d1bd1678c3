import DomainRag.Lib.DeepMerge

/-! # Configuration overrides

`TenantConfigOverrideService.patch` keeps the overrides of a tenant as rows with a dotted path and
a JSON value. A reload unfolds the rows into one tree for each category, and a load merges these
trees into the configuration that the files give.
-/

namespace DomainRag.Config

open Value (deepMerge setAt setKey entriesOf look)

section Keys

/-- The keys that only a platform admin may change, as a category and a dotted path. -/
def platformAdminRestrictedKeys : List String :=
  ["model.endpoints.tenant_slm.base_url", "model.endpoints.shared_llm.base_url",
    "model.endpoints.embedder.base_url", "model.endpoints.reranker.base_url",
    "model.endpoints.ollama_vision.base_url", "model.endpoints.tenant_slm.tensor_parallel_size",
    "model.endpoints.shared_llm.tensor_parallel_size", "retrieval.embedding.model",
    "retrieval.dense_dim", "auth.authfusion.issuer", "auth.authfusion.jwks_uri",
    "lifecycle.archival.chunks_archive_days", "lifecycle.deletion.default"]

def fullKey (category key : String) : String := category ++ "." ++ key

def isPlatformAdminRestricted (category key : String) : Bool :=
  fullKey category key ∈ platformAdminRestrictedKeys

@[irreducible] def splitDots (path : String) : List String :=
  (path.toList.splitOn '.').map String.ofList

end Keys

section Tables

/-- A row of `tenant_config_overrides`. A JSON object has no key twice. -/
structure Override where
  domainId : String
  category : String
  path : String
  value : Value
  distinct : value.Distinct
  reason : Option String := none
  author : String
  active : Bool := true

def Override.key (row : Override) : String × String × String :=
  (row.domainId, row.category, row.path)

structure ChangeLog where
  domainId : String
  category : String
  path : String
  oldValue : Option Value
  newValue : Value
  author : String
  reason : Option String
  createdAt : Rat

/-- The tables, with the rows in the order in which a query returns them. -/
structure ConfigDb where
  overrides : List Override := []
  changeLogs : List ChangeLog := []

structure ConfigChangeRecord where
  domainId : String
  category : String
  key : String
  oldValue : Option Value
  newValue : Value
  changedBy : String
  changedAt : Rat
  reason : Option String

/-- A call of `patch`. The database may refuse it with `fault`; otherwise `changedAt` is the time
that it draws and `position` the place that the new version of the row gets among the rows. -/
structure PatchCall where
  domainId : String
  category : String
  key : String
  value : Value
  distinct : value.Distinct
  actor : String
  isPlatformAdmin : Bool
  reason : Option String := none
  changedAt : Rat := 0
  position : Nat := 0
  fault : Option Exc := none

end Tables

section Patch

def PatchCall.existing (call : PatchCall) (db : ConfigDb) : Option Override :=
  db.overrides.find? fun row => row.key = (call.domainId, call.category, call.key)

/-- The row that a call writes: an update leaves the flag `active` as it is. -/
def PatchCall.row (call : PatchCall) (db : ConfigDb) : Override where
  domainId := call.domainId
  category := call.category
  path := call.key
  value := call.value
  distinct := call.distinct
  reason := call.reason
  author := call.actor
  active := (call.existing db).elim true Override.active

/-- The insert that turns into an update when the row exists. -/
def upsert (rows : List Override) (row : Override) (position : Nat) : List Override :=
  (rows.filter (·.key ≠ row.key)).take position ++
    row :: (rows.filter (·.key ≠ row.key)).drop position

def PatchCall.patch (call : PatchCall) (db : ConfigDb) :
    Except Exc (ConfigChangeRecord × ConfigDb) :=
  if isPlatformAdminRestricted call.category call.key ∧ call.isPlatformAdmin = false then
    .error ⟨"ConfigKeyRestrictedError",
      "key requires platform_admin: " ++ fullKey call.category call.key⟩
  else
    match call.fault with
    | some e => .error e
    | none =>
      let oldValue := (call.existing db).map Override.value
      .ok ({ domainId := call.domainId
             category := call.category
             key := call.key
             oldValue := oldValue
             newValue := call.value
             changedBy := call.actor
             changedAt := call.changedAt
             reason := call.reason },
        { overrides := upsert db.overrides (call.row db) call.position
          changeLogs := db.changeLogs ++
            [{ domainId := call.domainId
               category := call.category
               path := call.key
               oldValue := oldValue
               newValue := call.value
               author := call.actor
               reason := call.reason
               createdAt := call.changedAt }] })

/-- The tables after a call; one that raises is rolled back. -/
def PatchCall.after (db : ConfigDb) (call : PatchCall) : ConfigDb :=
  match call.patch db with
  | .ok (_, db') => db'
  | .error _ => db

end Patch

section Reload

def setNested (target : Value) (dottedPath : String) (value : Value) : Value :=
  if dottedPath = "" then
    if value.isDict then deepMerge (some target) value else target
  else setAt (some target) (splitDots dottedPath) value

/-- The overrides that `load` merges, by domain and category. -/
structure TenantConfigService where
  runtimeOverrides : Dict String (Dict String Value) := .empty

namespace TenantConfigService

variable (service : TenantConfigService)

def applyRuntimeOverride (domainId category : String) (value : Value) : TenantConfigService where
  runtimeOverrides := service.runtimeOverrides.set domainId
    (((service.runtimeOverrides.get? domainId).getD .empty).set category value)

def clearRuntimeOverrides (domainId : String) : TenantConfigService where
  runtimeOverrides := service.runtimeOverrides.erase domainId

end TenantConfigService

def ConfigDb.activeRows (db : ConfigDb) (domainId : String) : List Override :=
  db.overrides.filter fun row => row.active ∧ row.domainId = domainId

def unfoldRow (nested : Dict String Value) (row : Override) : Dict String Value :=
  nested.set row.category
    (setNested ((nested.get? row.category).getD (.dict [])) row.path row.value)

def unfoldRows (rows : List Override) : Dict String Value := rows.foldl unfoldRow .empty

def reloadTenantConfig (service : TenantConfigService) (db : ConfigDb) (domainId : String) :
    TenantConfigService :=
  (unfoldRows (db.activeRows domainId)).entries.foldl
    (fun s e => s.applyRuntimeOverride domainId e.1 e.2) (service.clearRuntimeOverrides domainId)

end Reload

section Load

def categories : List String :=
  ["citation", "retrieval", "model", "routing", "query_classifier", "lifecycle", "auth", "pii",
    "audit", "data_retention"]

/-- What the process reads besides the tables: the files of the platform and of a tenant, and the
attributes that `TenantConfig` has as a class. -/
structure ConfigSources where
  platform : String → Value
  tenant : String → Option Value
  classAttrs : String → Option Value

variable (sources : ConfigSources)

def merged (domainId : String) : Value :=
  let platform := Value.dict (categories.map fun c => (c, (sources.platform c).orElse (.dict [])))
  match sources.tenant domainId with
  | none => platform
  | some overrides => deepMerge (some platform) (overrides.orElse (.dict []))

/-- The instance dictionary of the `TenantConfig` that is read from the files. -/
def loadFromDisk (domainId : String) : Except Exc Value := do
  let sections ← categories.mapM fun c => do
    return (c, ← (merged sources domainId).getD c (.dict []))
  let mode ← (merged sources domainId).getD "compliance_mode" (.str "standard")
  return .dict (("domain_id", .str domainId) :: sections ++
    [("compliance_mode", mode), ("_sources", .dict [])])

/-- `setattr(config, category, _deep_merge(getattr(config, category) or {}, value))` for a category
that is an attribute. Three attributes are no plain ones: `__dict__` is the instance dictionary,
`__class__` only takes a class and `__weakref__` cannot be written. -/
def withOverride (config : Value) (override : String × Value) : Except Exc Value :=
  if override.2.isDict = false then .ok config
  else if override.1 = "__dict__" then .ok (deepMerge (some config) override.2)
  else if override.1 = "__class__" then
    .error (.typeError "__class__ must be set to a class, not 'dict' object")
  else if override.1 = "__weakref__" then
    .error ⟨"AttributeError", "attribute '__weakref__' of 'TenantConfig' objects is not writable"⟩
  else
    match (look (some config) [override.1]).or (sources.classAttrs override.1) with
    | none => .ok config
    | some current => .ok (.dict (setKey override.1
        (deepMerge (some (current.orElse (.dict []))) override.2) (entriesOf (some config))))

/-- `TenantConfigService.load`, which a reload leaves without a cached configuration. -/
def TenantConfigService.load (service : TenantConfigService) (domainId : String) :
    Except Exc Value := do
  let config ← loadFromDisk sources domainId
  ((service.runtimeOverrides.get? domainId).getD .empty).entries.foldlM (withOverride sources)
    config

/-- What the effective configuration has at a path once the overrides are reloaded. -/
def effective (service : TenantConfigService) (db : ConfigDb) (domainId : String)
    (path : List String) : Option Value :=
  match (reloadTenantConfig service db domainId).load sources domainId with
  | .ok config => look (some config) path
  | .error _ => none

end Load

end DomainRag.Config
