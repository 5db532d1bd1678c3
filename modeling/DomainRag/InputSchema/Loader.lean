import DomainRag.InputSchema.Editor
import DomainRag.InputSchema.Validator
import DomainRag.Lib.Pairs
import DomainRag.Lib.Program

/-! # The loader of input schemas

The schema that was put last for a domain stands before the domain's file. Its list of input types
is kept as a dictionary by name. Each type has the common fields, and its own over them. A type may
give its fields as a list of pairs, and then their keys need not be texts.
-/

namespace DomainRag.InputSchema

structure CommonFields where
  required : List String := []
  definitions : Dict String Value := .empty

/-- An input type as it is loaded, with the keys that its fields have. -/
structure LoadedType where
  required : List Value
  fields : List (Value × Value)

abbrev Schemas := Dict String LoadedType

def fromKeys (vs : List Value) : List Value :=
  vs.foldl (fun keys v => if v.mem keys then keys else keys ++ [v]) []

def requiresItself (fdef : Value) : Bool :=
  match fdef with
  | .dict kvs => match kvs.lookup "required" with
    | some (.bool true) => true
    | _ => false
  | _ => false

def merged (common : CommonFields) (domainFields : List (Value × Value)) : LoadedType where
  required :=
    let domainRequired := (domainFields.filter fun e => requiresItself e.2).map Prod.fst
    fromKeys ((common.required.filter fun r => r ≠ "domain_id" ∧ r ≠ "input_type").map Value.str ++
      domainRequired)
  fields :=
    let shared := common.definitions.entries.filter fun e => e.1 ≠ "domain_id" ∧ e.1 ≠ "input_type"
    domainFields.foldl (fun d e => setValue e.1 e.2 d) (shared.map fun e => (Value.str e.1, e.2))

def loadType (common : CommonFields) (typeDef : Value) : Except Exc LoadedType := do
  let domainFields ← typeDef.getD "domain_fields" .null
  return merged common (← dictOf (domainFields.orElse (.dict [])))

section Normalize

variable (repr : Value → String)

def namedType : Value → Option (String × Value)
  | .dict kvs =>
    let name := (kvs.lookup "name").getD .null
    if name.truthy then some (name.text repr, .dict (kvs.filter fun e => e.1 ≠ "name")) else none
  | _ => none

def namedTypes (types : List Value) : List (String × Value) :=
  (types.filterMap (namedType repr)).foldl (fun d e => Value.setKey e.1 e.2 d) []

/-- The list of input types is made a dictionary. Of those with one name the last one counts. -/
def normalize : Value → Value
  | .dict kvs => match kvs.lookup "input_types" with
    | some (.list types) =>
      .dict (Value.setKey "input_types" (.dict (namedTypes repr types)) kvs)
    | _ => .dict kvs
  | v => v

end Normalize

/-- What the loader keeps: the schemas that it has loaded and those that were put. -/
structure InputSchemaLoader where
  cache : Dict String Schemas := .empty
  runtimeYaml : Dict String Value := .empty

/-- The files of the platform and of the tenants, and what is used of the standard library. -/
structure SchemaFiles where
  common : CommonFields
  tenant : String → Option Value
  lib : Library

namespace InputSchemaLoader

def applyRuntimeOverride (repr : Value → String) (domainId : String) (schemaYaml : Value)
    (loader : InputSchemaLoader) : InputSchemaLoader where
  cache := loader.cache.filterKeys fun k => k ≠ domainId
  runtimeYaml := loader.runtimeYaml.set domainId (normalize repr (schemaYaml.orElse (.dict [])))

variable (files : SchemaFiles)

def loadTypes (tenant : Value) : Except Exc Schemas := do
  let types ← (← tenant.getD "input_types" .null).orElse (.dict []) |>.items
  types.foldlM (fun schemas e => do return schemas.set e.1 (← loadType files.common e.2)) .empty

def load (domainId : String) : Program Exc InputSchemaLoader Schemas := do
  let loader ← get
  match loader.cache.get? domainId with
  | some cached => return cached
  | none =>
    let result ← match (loader.runtimeYaml.get? domainId).or (files.tenant domainId) with
      | none => pure .empty
      | some tenant => Program.ofExcept (loadTypes files tenant)
    modify fun loader => { loader with cache := loader.cache.set domainId result }
    return result

end InputSchemaLoader

def entryOf (metadata : Dict String Value) : Value → Option Value
  | .str k => metadata.get? k
  | _ => none

def loadedErrors (lib : Library) (schema : LoadedType) (metadata : Dict String Value) :
    Except Exc (List FieldError) := do
  let absent := schema.required.flatMap fun r =>
    if missing (entryOf metadata r) then
      let name := r.text lib.repr
      [⟨s!"metadata.{name}", "missing", s!"필수 필드 누락: {name}"⟩]
    else []
  let found ← schema.fields.mapM fun e =>
    checkField lib (e.1.text lib.repr) e.2 (entryOf metadata e.1)
  return absent ++ found.flatten

/-- The check of the metadata of a document, with the schemas that the loader has. -/
def validateLoaded (files : SchemaFiles) (domainId : String) (inputType : Option String)
    (metadata : Dict String Value) : Program Exc InputSchemaLoader Unit :=
  match inputType with
  | none => return
  | some inputType => do
    match (← InputSchemaLoader.load files domainId).get? inputType with
    | none =>
      let message := s!"input_type '{inputType}'은 tenant '{domainId}'에 정의되지 않음"
      throw (validationError [⟨"input_type", "unknown_input_type", message⟩])
    | some schema =>
      let found ← Program.ofExcept (loadedErrors files.lib schema metadata)
      if found.isEmpty then return else throw (validationError found)

end DomainRag.InputSchema
