import Mathlib.Data.List.Dedup
import Mathlib.Data.List.Sort
import DomainRag.Lib.Threads
import DomainRag.Lib.Value

/-! # The editor of input schemas

Every domain has numbered versions of its input schema, and the newest one is active. A put checks
its schema against the active version, and then inserts it as the next version if the version
that the client has named is still the active one. Other puts may run between the two steps.
-/

namespace DomainRag.InputSchema

structure TenantInputSchemaRecord where
  schemaId : String
  domainId : String
  schemaVersion : Int
  status : String
  schemaYaml : Value
  uiSchemaYaml : Value
  createdAt : Option Nat
  deprecatedAt : Option Nat

inductive PutError where
  | backwardCompat (errors : List String)
  | versionConflict (current base : Option Int)
  | other (e : Exc)
  deriving DecidableEq

def versionText : Option Int → String
  | none => "None"
  | some version => toString version

def PutError.message : PutError → String
  | backwardCompat errors => "; ".intercalate errors
  | versionConflict current base =>
    s!"schema version conflict: current={versionText current} base={versionText base}"
  | other e => e.message

structure InMemoryTenantInputSchemaRepository where
  records : Dict String (List TenantInputSchemaRecord) := .empty
  idCounter : Nat := 0

namespace InMemoryTenantInputSchemaRepository

variable (repo : InMemoryTenantInputSchemaRepository) (domainId : String)

def rows : List TenantInputSchemaRecord := (repo.records.get? domainId).getD []

def getActive : Option TenantInputSchemaRecord :=
  (repo.rows domainId).reverse.find? (·.status = "active")

/-- The first active row of a list is deprecated where it stands. -/
def deprecateFirst (now : Nat) : List TenantInputSchemaRecord → List TenantInputSchemaRecord
  | [] => []
  | row :: rows =>
    if row.status = "active" then
      { row with status := "deprecated", deprecatedAt := some now } :: rows
    else row :: deprecateFirst now rows

def newRecord (now : Nat) (current : Option Int) (schemaYaml uiSchemaYaml : Value) :
    TenantInputSchemaRecord where
  schemaId := "schema-" ++ String.ofList (List.leftpad 8 '0' (toString (repo.idCounter + 1)).toList)
  domainId := domainId
  schemaVersion := current.getD 0 + 1
  status := "active"
  schemaYaml := schemaYaml.orElse (.dict [])
  uiSchemaYaml := uiSchemaYaml.orElse (.dict [])
  createdAt := some now
  deprecatedAt := none

def insertNewActive (now : Nat) (baseVersion : Option Int) (schemaYaml uiSchemaYaml : Value) :
    InMemoryTenantInputSchemaRepository × Except PutError TenantInputSchemaRecord :=
  let currentVersion := (repo.getActive domainId).map (·.schemaVersion)
  if currentVersion = baseVersion then
    let record := repo.newRecord domainId now currentVersion schemaYaml uiSchemaYaml
    let kept := (deprecateFirst now (repo.rows domainId).reverse).reverse
    (⟨repo.records.set domainId (kept ++ [record]), repo.idCounter + 1⟩, .ok record)
  else (repo, .error (.versionConflict currentVersion baseVersion))

end InMemoryTenantInputSchemaRepository

section Names

variable (repr : Value → String)

def inputTypeError (i : Nat) : Value → Option String
  | .dict kvs =>
    if ((kvs.lookup "name").getD .null).truthy then none else some s!"input_types[{i}]_missing_name"
  | _ => some s!"input_types[{i}]_not_dict"

def validateStructure : Value → List String
  | .dict kvs =>
    match kvs.lookup "input_types" with
    | none | some .null => ["input_types_missing"]
    | some (.list types) => types.zipIdx.filterMap fun (type, i) => inputTypeError i type
    | some _ => ["input_types_not_list"]
  | _ => ["schema_yaml_not_dict"]

def inputTypeName : Value → Option String
  | .dict kvs =>
    let name := (kvs.lookup "name").getD .null
    if name.truthy then some (name.text repr) else none
  | _ => none

def collectNames (yaml : Value) : Except Exc (List String) := do
  let types ← yaml.getD "input_types" .null
  let items ← (types.orElse (.list [])).iter
  return items.filterMap (inputTypeName repr)

def removedInputTypes (oldYaml newYaml : Value) : Except Exc (List String) := do
  let oldNames ← collectNames repr oldYaml
  let newNames ← collectNames repr newYaml
  return (oldNames.filter (· ∉ newNames)).dedup.insertionSort (· ≤ ·)

end Names

namespace SchemaEditorService

structure PutCall where
  domainId : String
  baseVersion : Option Int
  schemaYaml : Value
  uiSchemaYaml : Value

structure SchemaPutResult where
  record : TenantInputSchemaRecord
  deprecatedVersion : Option Int

inductive Stage where
  | reading (call : PutCall)
  | inserting (call : PutCall) (current : Option Int)
  | ended (result : Except PutError SchemaPutResult)

variable (repr : Value → String)

/-- The check against the version that is active when the call reads it. -/
def check (call : PutCall) : Option TenantInputSchemaRecord → Stage
  | none => .inserting call none
  | some current =>
    match removedInputTypes repr current.schemaYaml call.schemaYaml with
    | .error e => .ended (.error (.other e))
    | .ok [] => .inserting call (some current.schemaVersion)
    | .ok removed =>
      .ended (.error (.backwardCompat (removed.map fun name => s!"input_type_removed: {name}")))

def read (repo : InMemoryTenantInputSchemaRepository) (call : PutCall) : Stage :=
  match validateStructure call.schemaYaml with
  | [] => check repr call (repo.getActive call.domainId)
  | errors => .ended (.error (.backwardCompat errors))

def step (now : Nat) (repo : InMemoryTenantInputSchemaRepository) :
    Stage → InMemoryTenantInputSchemaRepository × Stage
  | .reading call => (repo, read repr repo call)
  | .inserting call current =>
    let (repo', record) :=
      repo.insertNewActive call.domainId now call.baseVersion call.schemaYaml call.uiSchemaYaml
    (repo', .ended (record.map fun record => ⟨record, current⟩))
  | .ended result => (repo, .ended result)

def puts : Threads InMemoryTenantInputSchemaRepository Stage PutCall Nat where
  enter := .reading
  step := step repr

end SchemaEditorService

end DomainRag.InputSchema
