import DomainRag.Lib.Except
import DomainRag.Lib.Value

/-! # Input schemas

The validator collects an error for every required field that is missing and for every keyword
that the value of a defined field violates. A schema is data of its own, so a keyword with a value
of the wrong type raises some other error.
-/

namespace DomainRag.InputSchema

structure FieldError where
  path : String
  code : String
  message : String
  deriving DecidableEq, Repr

structure InputTypeSchema where
  required : List String := []
  fields : Dict String Value := .empty

/-- What is used of the standard library: `re.search`, whether the `fromisoformat` parsers of
dates and of times take a text, and `repr`. -/
structure Library where
  search : Value → String → Except Exc Bool
  date : String → Bool
  datetime : String → Bool
  repr : Value → String

def typeNames : String → Option (List String)
  | "string" => some ["str"]
  | "integer" => some ["int"]
  | "number" => some ["int", "float"]
  | "boolean" => some ["bool"]
  | "array" => some ["list"]
  | "object" => some ["dict"]
  | "null" => some ["NoneType"]
  | _ => none

mutual

def typeMatch (value : Value) : Value → Bool
  | .list expected => typeMatchAny value expected
  | .str expected => match typeNames expected with
    | some names => value.typeName ∈ names
    | none => true
  | _ => true

def typeMatchAny (value : Value) : List Value → Bool
  | [] => false
  | e :: expected => (e.eq (.str "null") && value.typeName = "NoneType")
      || typeMatch value e || typeMatchAny value expected

end

def afterFirst (c : Char) (s : String) : List Char :=
  if c ∈ s.toList then (s.toList.dropWhile (· ≠ c)).tail else s.toList

def replaceZ (s : String) : String :=
  String.ofList (s.toList.flatMap fun c => if c = 'Z' then "+00:00".toList else [c])

section Fields

variable (lib : Library)

def formatOk (value : String) (fmt : Value) : Bool :=
  if fmt.eq (.str "date") then lib.date value
  else if fmt.mem [.str "date-time", .str "datetime"] then lib.datetime (replaceZ value)
  else if fmt.eq (.str "email") then '@' ∈ value.toList && '.' ∈ afterFirst '@' value
  else true

def keyword (fdef : List (String × Value)) (key : String) : Value :=
  (fdef.lookup key).getD .null

def typeErrors (path : String) (fdef : List (String × Value)) (value : Value) : List FieldError :=
  let expected := keyword fdef "type"
  if expected.truthy && !typeMatch value expected then
    [⟨path, "type", s!"기대 type {lib.repr expected}, 실제 {value.typeName}"⟩]
  else []

def enumErrors (path : String) (fdef : List (String × Value)) (value : Value) :
    Except Exc (List FieldError) :=
  match fdef.lookup "enum" with
  | none => .ok []
  | some allowed => do
    if ← value.containedIn allowed then return []
    else return [⟨path, "enum", s!"허용 값이 아님 (enum={allowed.text lib.repr})"⟩]

def patternErrors (path : String) (fdef : List (String × Value)) (value : String) :
    Except Exc (List FieldError) :=
  match fdef.lookup "pattern" with
  | none => .ok []
  | some pattern => do
    if ← lib.search pattern value then return []
    else return [⟨path, "pattern", s!"패턴 위반 (pattern={pattern.text lib.repr})"⟩]

/-- The comparison of a number with a bound, which is an error when it comes out as `bad`. An
absent bound is not compared. -/
def boundErrors (sign : String) (bad : Ordering) (n : Int) (bound : Value) (error : FieldError) :
    Except Exc (List FieldError) :=
  match bound with
  | .null => .ok []
  | bound => do
    return if (← Value.compare sign (.int n) bound) = bad then [error] else []

def rangeErrors (path : String) (fdef : List (String × Value)) (n : Int) :
    Except Exc (List FieldError) := do
  let lo := keyword fdef "minimum"
  let hi := keyword fdef "maximum"
  let low ← boundErrors "<" .lt n lo ⟨path, "range", s!"{n} < minimum {lo.text lib.repr}"⟩
  let high ← boundErrors ">" .gt n hi ⟨path, "range", s!"{n} > maximum {hi.text lib.repr}"⟩
  return low ++ high

def lengthErrors (path : String) (fdef : List (String × Value)) (value : String) :
    Except Exc (List FieldError) := do
  let n := value.toList.length
  let lo := (keyword fdef "min_length").orElse (keyword fdef "minLength")
  let hi := (keyword fdef "max_length").orElse (keyword fdef "maxLength")
  let low ← boundErrors "<" .lt n lo ⟨path, "length", s!"길이 {n} < {lo.text lib.repr}"⟩
  let high ← boundErrors ">" .gt n hi ⟨path, "length", s!"길이 {n} > {hi.text lib.repr}"⟩
  return low ++ high

def formatErrors (path : String) (fdef : List (String × Value)) (value : String) :
    List FieldError :=
  let fmt := keyword fdef "format"
  if fmt.truthy && !formatOk lib value fmt then
    [⟨path, "format", s!"format {lib.repr fmt} 위반"⟩]
  else []

def minItemsErrors (path : String) (fdef : List (String × Value)) (n : Nat) :
    Except Exc (List FieldError) :=
  let minItems := (keyword fdef "min_items").orElse (keyword fdef "minItems")
  boundErrors "<" .lt n minItems
    ⟨path, "length", s!"min_items {minItems.text lib.repr}, got {n}"⟩

/-- A value of the wrong type has that error only. -/
def ofType (fname : String) (fdef : List (String × Value)) (value : Value)
    (rest : Except Exc (List FieldError)) : Except Exc (List FieldError) :=
  match typeErrors lib s!"metadata.{fname}" fdef value with
  | [] => rest
  | errors => .ok errors

mutual

def validateField (fname : String) (fdef : List (String × Value)) :
    Value → Except Exc (List FieldError)
  | .str s => ofType lib fname fdef (.str s) do
    let path := s!"metadata.{fname}"
    let enum ← enumErrors lib path fdef (.str s)
    let pattern ← patternErrors lib path fdef s
    let length ← lengthErrors lib path fdef s
    return enum ++ pattern ++ length ++ formatErrors lib path fdef s
  | .int n => ofType lib fname fdef (.int n) do
    let path := s!"metadata.{fname}"
    let enum ← enumErrors lib path fdef (.int n)
    let range ← rangeErrors lib path fdef n
    return enum ++ range
  | .list vs => ofType lib fname fdef (.list vs) do
    let path := s!"metadata.{fname}"
    let enum ← enumErrors lib path fdef (.list vs)
    let items ← match keyword fdef "items" with
      | .dict itemsDef => validateItems fname itemsDef 0 vs
      | _ => .ok []
    let count ← minItemsErrors lib path fdef vs.length
    return enum ++ items ++ count
  | value => ofType lib fname fdef value (enumErrors lib s!"metadata.{fname}" fdef value)

def validateItems (fname : String) (itemsDef : List (String × Value)) :
    Nat → List Value → Except Exc (List FieldError)
  | _, [] => .ok []
  | i, value :: vs => do
    let errors ← validateField s!"{fname}[{i}]" itemsDef value
    let rest ← validateItems fname itemsDef (i + 1) vs
    return errors ++ rest

end

def missing (entry : Option Value) : Bool :=
  (entry.getD .null).mem [.null, .str "", .list []]

def requiredErrors (schema : InputTypeSchema) (metadata : Dict String Value) : List FieldError :=
  schema.required.flatMap fun r =>
    if missing (metadata.get? r) then
      [⟨s!"metadata.{r}", "missing", s!"필수 필드 누락: {r}"⟩]
    else []

/-- The check of one defined field; absent, null and empty values are not checked. -/
def checkField (fname : String) (fdef : Value) (entry : Option Value) :
    Except Exc (List FieldError) :=
  match fdef, entry with
  | .dict fdef, some value =>
    if value.mem [.null, .str ""] then .ok [] else validateField lib fname fdef value
  | _, _ => .ok []

def errors (schema : InputTypeSchema) (metadata : Dict String Value) :
    Except Exc (List FieldError) := do
  let found ← schema.fields.entries.mapM fun e => checkField lib e.1 e.2 (metadata.get? e.1)
  return requiredErrors schema metadata ++ found.flatten

end Fields

def validationError (errors : List FieldError) : Exc where
  typeName := "InputSchemaValidationError"
  message :=
    if errors.isEmpty then "0 field error(s)"
    else
      let summary := ", ".intercalate ((errors.take 5).map fun e => s!"{e.path}[{e.code}]")
      s!"{errors.length} field error(s): {summary}"

/-- The service with what its loader gives for a domain: the schemas of the input types. -/
structure InputSchemaService where
  load : String → Except Exc (Dict String InputTypeSchema)
  lib : Library

def findSchema (schemas : Dict String InputTypeSchema) :
    Value → Except Exc (Option InputTypeSchema)
  | .str inputType => .ok (schemas.get? inputType)
  | .list _ => .error (.typeError "unhashable type: 'list'")
  | .dict _ => .error (.typeError "unhashable type: 'dict'")
  | _ => .ok none

namespace InputSchemaService

variable (svc : InputSchemaService)

def getSchema (domainId : String) (inputType : Value) : Except Exc (Option InputTypeSchema) := do
  let schemas ← svc.load domainId
  findSchema schemas inputType

def validate (domainId : String) (inputType : Value) (metadata : Dict String Value) :
    Except Exc Unit :=
  match inputType with
  | .null => .ok ()
  | inputType => do
    match ← svc.getSchema domainId inputType with
    | none =>
      let message :=
        s!"input_type '{inputType.text svc.lib.repr}'은 tenant '{domainId}'에 정의되지 않음"
      throw (validationError [⟨"input_type", "unknown_input_type", message⟩])
    | some schema =>
      let found ← errors svc.lib schema metadata
      if found.isEmpty then return else throw (validationError found)

end InputSchemaService

/-- The entry at a key satisfies what a schema says about the key. -/
structure Accepts (lib : Library) (schema : InputTypeSchema) (k : String) (entry : Option Value) :
    Prop where
  present : k ∈ schema.required → missing entry = false
  checked : ∀ fdef, schema.fields.get? k = some fdef → checkField lib k fdef entry = .ok []

theorem requiredErrors_eq_nil_iff {schema : InputTypeSchema} {metadata : Dict String Value} :
    requiredErrors schema metadata = [] ↔
      ∀ r ∈ schema.required, missing (metadata.get? r) = false := by
  rw [requiredErrors, List.flatMap_eq_nil_iff]
  refine forall₂_congr fun r _ => ?_
  cases missing (metadata.get? r) with
  | true => exact ⟨nofun, nofun⟩
  | false => exact ⟨fun _ => rfl, fun _ => rfl⟩

theorem errors_eq_nil_iff {lib : Library} {schema : InputTypeSchema}
    {metadata : Dict String Value} :
    errors lib schema metadata = .ok [] ↔ ∀ k, Accepts lib schema k (metadata.get? k) := by
  rw [errors, Except.bind_eq_ok_iff]
  constructor
  · rintro ⟨found, hfound, h⟩
    obtain ⟨hrequired, hflat⟩ := List.append_eq_nil_iff.mp (Except.ok.inj h)
    intro k
    refine ⟨requiredErrors_eq_nil_iff.mp hrequired k, fun fdef hfdef => ?_⟩
    obtain ⟨i, hi⟩ := List.getElem?_of_mem (Dict.get?_eq_some_iff.mp hfdef)
    obtain ⟨es, hes, hcheck⟩ := getElem?_of_forall₂ (mapM_eq_ok_iff.mp hfound) hi
    rw [List.flatten_eq_nil_iff] at hflat
    rw [hcheck, hflat es (List.mem_of_getElem? hes)]
  · intro h
    have hfound : schema.fields.entries.mapM
        (fun e => checkField lib e.1 e.2 (metadata.get? e.1)) =
          .ok (schema.fields.entries.map fun _ => []) := by
      rw [mapM_eq_ok_iff, List.forall₂_map_right_iff, List.forall₂_same]
      rintro ⟨k, fdef⟩ hmem
      exact (h k).checked fdef (Dict.get?_eq_some_iff.mpr hmem)
    refine ⟨_, hfound, congrArg Except.ok (List.append_eq_nil_iff.mpr ⟨?_, ?_⟩)⟩
    · exact requiredErrors_eq_nil_iff.mpr fun r hr => (h r).present hr
    · rw [List.flatten_eq_nil_iff, List.forall_mem_map]
      exact fun _ _ => rfl

/-- Metadata with an input type pass when the domain has a schema of that name which accepts
every entry. -/
theorem InputSchemaService.validate_eq_ok_iff {svc : InputSchemaService} {domainId : String}
    {inputType : Value} {metadata : Dict String Value} (htype : inputType.truthy = true) :
    svc.validate domainId inputType metadata = .ok () ↔
      ∃ schema, svc.getSchema domainId inputType = .ok (some schema) ∧
        ∀ k, Accepts svc.lib schema k (metadata.get? k) := by
  have hvalidate : svc.validate domainId inputType metadata = (do
      match ← svc.getSchema domainId inputType with
      | none =>
        let message :=
          s!"input_type '{inputType.text svc.lib.repr}'은 tenant '{domainId}'에 정의되지 않음"
        throw (validationError [⟨"input_type", "unknown_input_type", message⟩])
      | some schema =>
        let found ← errors svc.lib schema metadata
        if found.isEmpty then return else throw (validationError found)) := by
    cases inputType with
    | null => cases htype
    | _ => rfl
  rw [hvalidate, Except.bind_eq_ok_iff]
  constructor
  · rintro ⟨schema, hschema, h⟩
    cases schema with
    | none => cases h
    | some schema =>
      obtain ⟨found, hfound, h⟩ := Except.bind_eq_ok_iff.mp h
      cases found with
      | nil => exact ⟨schema, hschema, errors_eq_nil_iff.mp hfound⟩
      | cons e es => cases h
  · rintro ⟨schema, hschema, h⟩
    exact ⟨some schema, hschema, Except.bind_eq_ok_iff.mpr ⟨[], errors_eq_nil_iff.mpr h, rfl⟩⟩

end DomainRag.InputSchema
