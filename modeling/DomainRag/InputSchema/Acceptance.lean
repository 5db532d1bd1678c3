import DomainRag.InputSchema.Fields

/-! # What becomes of an accepted schema

The editor looks at the list of input types and at their names, and at nothing below. Fields that
are no mapping raise when the loader makes the schemas of the domain, for every input type, and a
keyword with a value of the wrong type raises when metadata come to it.
-/

namespace DomainRag.InputSchema

section Names

variable {repr : Value → String} {types : List Value}

/-- The input types of an accepted schema, each with its name, as the loader keeps them. -/
def declaredTypes (repr : Value → String) (schemaYaml : Value) : List (String × Value) :=
  match schemaYaml.field "input_types" .null with
  | .list types => namedTypes repr types
  | _ => []

theorem nodup_namedTypes : ((namedTypes repr types).map Prod.fst).Nodup :=
  Value.nodup_foldl_setKey List.nodup_nil

theorem map_fst_namedType (v : Value) : (namedType repr v).map Prod.fst = inputTypeName repr v := by
  cases v with
  | dict kvs =>
    simp only [namedType, inputTypeName]
    split <;> rfl
  | null | bool | int | float | str | list => rfl

/-- The types that the loader keeps have the names that the editor collects. -/
theorem lookup_namedTypes_isSome (name : String) :
    ((namedTypes repr types).lookup name).isSome = true ↔
      name ∈ types.filterMap (inputTypeName repr) := by
  rw [namedTypes, Value.lookup_foldl_setKey, List.lookup_nil, Option.or_none,
    List.lookup_isSome_iff]
  simp only [List.mem_reverse, List.mem_filterMap, ← map_fst_namedType, Option.map_eq_some_iff]
  constructor
  · rintro ⟨e, ⟨v, hv, hnamed⟩, hname⟩
    exact ⟨v, hv, e, hnamed, (eq_of_beq hname).symm⟩
  · rintro ⟨v, hv, e, hnamed, hname⟩
    exact ⟨e, ⟨v, hv, hnamed⟩, beq_iff_eq.mpr hname.symm⟩

theorem isDict_of_mem_namedTypes {e : String × Value} (h : e ∈ namedTypes repr types) :
    e.2.isDict = true := by
  rcases Value.mem_foldl_setKey h with h | h
  · obtain ⟨v, -, hv⟩ := List.mem_filterMap.mp h
    cases v with
    | dict kvs =>
      simp only [namedType] at hv
      split at hv
      · cases hv
        rfl
      · cases hv
    | null | bool | int | float | str | list => cases hv
  · cases h

end Names

section Load

variable {files : SchemaFiles} {common : CommonFields} {typeDef : Value}

theorem loadType_eq (hdict : typeDef.isDict = true) :
    loadType common typeDef = merged common <$> dictOf (fieldsGiven typeDef) := by
  rw [loadType, Value.getD_of_isDict hdict]
  rfl

theorem returns_loadType_iff (hdict : typeDef.isDict = true) :
    Returns (loadType common typeDef) ↔ IsMapping (fieldsGiven typeDef) := by
  rw [loadType_eq hdict, ← returns_dictOf_iff]
  exact ⟨fun ⟨_, h⟩ => (Except.map_eq_ok_iff.mp h).imp fun _ => And.left,
    fun ⟨fields, h⟩ => ⟨merged common fields, Except.map_eq_ok_iff.mpr ⟨fields, h, rfl⟩⟩⟩

theorem dictOf_fieldsGiven (hmapping : IsMapping (fieldsGiven typeDef)) :
    dictOf (fieldsGiven typeDef) = .ok (ownFields typeDef) := by
  obtain ⟨fields, hfields⟩ := returns_dictOf_iff.mpr hmapping
  rw [ownFields, hfields]
  rfl

theorem loadType_of_isMapping (hdict : typeDef.isDict = true)
    (hmapping : IsMapping (fieldsGiven typeDef)) :
    loadType common typeDef = .ok (merged common (ownFields typeDef)) := by
  rw [loadType_eq hdict, dictOf_fieldsGiven hmapping]
  rfl

def loadEach (common : CommonFields) (types : List (String × Value)) (schemas : Schemas) :
    Except Exc Schemas :=
  types.foldlM (fun schemas e => do return schemas.set e.1 (← loadType common e.2)) schemas

theorem returns_loadEach_iff (common : CommonFields) {types : List (String × Value)}
    (hdict : ∀ e ∈ types, e.2.isDict = true) (schemas : Schemas) :
    Returns (loadEach common types schemas) ↔ ∀ e ∈ types, IsMapping (fieldsGiven e.2) := by
  have hstep : ∀ (schemas : Schemas) (e : String × Value), Returns (do
      return schemas.set e.1 (← loadType common e.2) : Except Exc Schemas) ↔
        Returns (loadType common e.2) := by
    intro schemas e
    rw [returns_bind_iff_and fun loaded => iff_true_intro (returns_pure _), and_true]
  rw [loadEach, returns_foldlM_iff hstep]
  exact forall₂_congr fun e he => returns_loadType_iff (hdict e he)

theorem loadEach_spec (common : CommonFields) {types : List (String × Value)}
    (hdict : ∀ e ∈ types, e.2.isDict = true)
    (hmapping : ∀ e ∈ types, IsMapping (fieldsGiven e.2)) (hkeys : (types.map Prod.fst).Nodup)
    (schemas : Schemas) :
    ∃ result, loadEach common types schemas = .ok result ∧ ∀ k, result.get? k =
      ((types.lookup k).map fun typeDef => merged common (ownFields typeDef)).or
        (schemas.get? k) := by
  induction types generalizing schemas with
  | nil => exact ⟨schemas, rfl, fun k => rfl⟩
  | cons e types ih =>
    obtain ⟨hmem, hkeys⟩ := List.nodup_cons.mp hkeys
    rw [List.forall_mem_cons] at hdict hmapping
    obtain ⟨result, hresult, hget⟩ := ih hdict.2 hmapping.2 hkeys
      (schemas.set e.1 (merged common (ownFields e.2)))
    refine ⟨result, ?_, fun k => ?_⟩
    · rw [loadEach, List.foldlM_cons, loadType_of_isMapping hdict.1 hmapping.1]
      exact hresult
    · rw [hget, Dict.get?_set]
      by_cases hk : k = e.1
      · subst hk
        rw [Value.lookup_eq_none_of_notMem hmem, List.lookup_cons_self, if_pos rfl]
        rfl
      · rw [if_neg hk, Value.lookup_cons_ne hk]

end Load

section Accepted

variable {repr : Value → String} {schemaYaml : Value}

/-- A put that reads one state of the repository and inserts into a later one returns. -/
def PutAccepted (repr : Value → String) (call : SchemaEditorService.PutCall) : Prop :=
  ∃ repo repo' : InMemoryTenantInputSchemaRepository, ∃ now current record,
    SchemaEditorService.read repr repo call = .inserting call current ∧
      (repo'.insertNewActive call.domainId now call.baseVersion call.schemaYaml
        call.uiSchemaYaml).2 = .ok record

/-- A dictionary that lists its input types. -/
structure Structured (schemaYaml : Value) (types : List Value) : Prop where
  dict : schemaYaml.isDict = true
  listed : schemaYaml.field "input_types" .null = .list types

theorem exists_structured (h : validateStructure schemaYaml = []) :
    ∃ types, Structured schemaYaml types := by
  cases schemaYaml with
  | dict kvs =>
    rw [validateStructure] at h
    split at h
    · cases h
    · cases h
    · next types htypes =>
      refine ⟨types, rfl, ?_⟩
      rw [Value.field, Value.entries, htypes, Option.getD_some]
    · cases h
  | null | bool | int | float | str | list => cases h

theorem validateStructure_of_putAccepted {call : SchemaEditorService.PutCall}
    (h : PutAccepted repr call) : validateStructure call.schemaYaml = [] := by
  obtain ⟨repo, repo', now, current, record, hread, -⟩ := h
  rw [SchemaEditorService.read] at hread
  split at hread
  · assumption
  · cases hread

variable {types : List Value}

theorem Structured.collectNames (h : Structured schemaYaml types) :
    collectNames repr schemaYaml = .ok (types.filterMap (inputTypeName repr)) := by
  rw [InputSchema.collectNames, Value.getD_of_isDict h.dict, h.listed]
  cases types <;> rfl

theorem Structured.declaredTypes (h : Structured schemaYaml types) :
    declaredTypes repr schemaYaml = namedTypes repr types := by
  rw [InputSchema.declaredTypes, h.listed]

theorem Structured.loadTypes (h : Structured schemaYaml types) (files : SchemaFiles) :
    InputSchemaLoader.loadTypes files (normalize repr (schemaYaml.orElse (.dict []))) =
      loadEach files.common (namedTypes repr types) .empty := by
  obtain ⟨kvs, rfl⟩ := Value.exists_of_isDict h.dict
  have hlookup : kvs.lookup "input_types" = some (.list types) := by
    have hlisted : (kvs.lookup "input_types").getD .null = .list types := h.listed
    cases hlookup : kvs.lookup "input_types" with
    | none =>
      rw [hlookup] at hlisted
      cases hlisted
    | some v =>
      rw [hlookup, Option.getD_some] at hlisted
      rw [hlisted]
  have hdict : (Value.dict kvs).orElse (.dict []) = .dict kvs := by cases kvs <;> rfl
  have hnamed : (Value.dict (namedTypes repr types)).orElse (.dict []) =
      .dict (namedTypes repr types) := by cases namedTypes repr types <;> rfl
  have hnormalize : normalize repr (.dict kvs) =
      .dict (Value.setKey "input_types" (.dict (namedTypes repr types)) kvs) := by
    rw [normalize, hlookup]
  rw [InputSchemaLoader.loadTypes, hdict, hnormalize, Value.getD_of_isDict rfl, Value.field,
    Value.entries, Value.lookup_setKey, if_pos rfl, Option.getD_some]
  simp only [bind, Except.bind, hnamed]
  rfl

section Applied

variable {files : SchemaFiles} {domainId : String} {loader : InputSchemaLoader}

/-- The first load after a schema was put makes the schemas of its input types. -/
theorem Structured.ensures_load (h : Structured schemaYaml types)
    {Q : Schemas → InputSchemaLoader → Prop} {R : Exc → InputSchemaLoader → Prop} :
    Program.Ensures (InputSchemaLoader.load files domainId)
        (loader.applyRuntimeOverride repr domainId schemaYaml) Q R ↔
      (∀ schemas, loadEach files.common (namedTypes repr types) .empty = .ok schemas →
        Q schemas
          { loader.applyRuntimeOverride repr domainId schemaYaml with
            cache := (loader.applyRuntimeOverride repr domainId schemaYaml).cache.set domainId
              schemas }) ∧
      ∀ e, loadEach files.common (namedTypes repr types) .empty = .error e →
        R e (loader.applyRuntimeOverride repr domainId schemaYaml) := by
  have hcache :
      (loader.applyRuntimeOverride repr domainId schemaYaml).cache.get? domainId = none := by
    rw [InputSchemaLoader.applyRuntimeOverride, Dict.get?_filterKeys, if_neg]
    simp
  have hruntime : (loader.applyRuntimeOverride repr domainId schemaYaml).runtimeYaml.get? domainId =
      some (normalize repr (schemaYaml.orElse (.dict []))) := by
    rw [InputSchemaLoader.applyRuntimeOverride, Dict.get?_set, if_pos rfl]
  rw [InputSchemaLoader.load, Program.ensures_bind, Program.ensures_get]
  simp only [hcache, hruntime, Option.some_or, h.loadTypes files]
  rw [Program.ensures_bind, Program.ensures_ofExcept]
  rfl

end Applied

end Accepted

/-- The fields of every input type are a mapping, and what the metadata have for the fields of their
input type can be checked against the definitions. -/
structure Workable (files : SchemaFiles) (schemaYaml : Value) (inputType : Option String)
    (metadata : Dict String Value) : Prop where
  mappings : ∀ e ∈ declaredTypes files.lib.repr schemaYaml, IsMapping (fieldsGiven e.2)
  checks : ∀ e ∈ declaredTypes files.lib.repr schemaYaml, inputType = some e.1 →
    ∀ k fdef, definitionOf files.common e.2 k = some fdef →
      Checks files.lib fdef (metadata.get? k)

/-- After a schema was put, the loader has the input types that it declares, and the validator
raises nothing but its own error. -/
structure Usable (files : SchemaFiles) (loader : InputSchemaLoader) (domainId : String)
    (schemaYaml : Value) (inputType : Option String) (metadata : Dict String Value) : Prop where
  names : Program.Ensures (InputSchemaLoader.load files domainId)
    (loader.applyRuntimeOverride files.lib.repr domainId schemaYaml)
    (fun schemas _ => ∃ names, collectNames files.lib.repr schemaYaml = .ok names ∧
      ∀ name, name ∈ schemas.keys ↔ name ∈ names) fun _ _ => False
  validates : Program.Ensures (validateLoaded files domainId inputType metadata)
    (loader.applyRuntimeOverride files.lib.repr domainId schemaYaml)
    (fun _ _ => True) fun e _ => e.typeName = "InputSchemaValidationError"

section Usable

variable {files : SchemaFiles} {loader : InputSchemaLoader} {domainId : String}
  {schemaYaml : Value} {types : List Value} {inputType : Option String}
  {metadata : Dict String Value}

def Made (files : SchemaFiles) (types : List Value) (schemas : Schemas) : Prop :=
  ∀ name, schemas.get? name = ((namedTypes files.lib.repr types).lookup name).map fun typeDef =>
    merged files.common (ownFields typeDef)

theorem exists_made
    (hmappings : ∀ e ∈ namedTypes files.lib.repr types, IsMapping (fieldsGiven e.2)) :
    ∃ schemas, loadEach files.common (namedTypes files.lib.repr types) .empty = .ok schemas ∧
      Made files types schemas := by
  obtain ⟨schemas, hschemas, hget⟩ := loadEach_spec files.common (fun e he => isDict_of_mem_namedTypes he) hmappings nodup_namedTypes .empty
  refine ⟨schemas, hschemas, fun name => ?_⟩
  rw [hget, Dict.get?_empty, Option.or_none]

theorem Made.mem_keys_iff {schemas : Schemas} (h : Made files types schemas) (name : String) :
    name ∈ schemas.keys ↔ name ∈ types.filterMap (inputTypeName files.lib.repr) := by
  rw [← lookup_namedTypes_isSome, ← not_iff_not, ← Dict.get?_eq_none_iff, h name,
    Option.map_eq_none_iff, Bool.not_eq_true, Option.isSome_eq_false_iff,
    Option.isNone_iff_eq_none]

theorem ensures_names_iff (h : Structured schemaYaml types) :
    Program.Ensures (InputSchemaLoader.load files domainId)
      (loader.applyRuntimeOverride files.lib.repr domainId schemaYaml)
      (fun schemas _ => ∃ names, collectNames files.lib.repr schemaYaml = .ok names ∧
        ∀ name, name ∈ schemas.keys ↔ name ∈ names) (fun _ _ => False) ↔
      ∀ e ∈ namedTypes files.lib.repr types, IsMapping (fieldsGiven e.2) := by
  rw [h.ensures_load]
  constructor
  · rintro ⟨-, herror⟩
    rw [← returns_loadEach_iff files.common (fun e he => isDict_of_mem_namedTypes he) .empty]
    cases hload : loadEach files.common (namedTypes files.lib.repr types) .empty with
    | ok schemas => exact returns_ok schemas
    | error e => exact (herror e hload).elim
  · intro hmappings
    obtain ⟨schemas, hschemas, hmade⟩ := exists_made hmappings
    rw [hschemas]
    refine ⟨?_, nofun⟩
    rintro _ ⟨⟩
    exact ⟨_, h.collectNames, hmade.mem_keys_iff⟩

/-- The validator reports what it found, or raises what the check of a field raises. -/
theorem ensures_report_iff (hsearch : SearchRaises files.lib) {schema : LoadedType}
    {state : InputSchemaLoader} :
    Program.Ensures (do
        let found ← Program.ofExcept (loadedErrors files.lib schema metadata)
        if found.isEmpty then return else throw (validationError found)) state
      (fun _ _ => True) (fun e _ => e.typeName = "InputSchemaValidationError") ↔
      ∀ f ∈ schema.fields, Checks files.lib f.2 (entryOf metadata f.1) := by
  rw [Program.ensures_bind, Program.ensures_ofExcept, ← returns_loadedErrors_iff]
  constructor
  · rintro ⟨-, herror⟩
    cases hfound : loadedErrors files.lib schema metadata with
    | ok found => exact returns_ok found
    | error e => exact absurd (herror e hfound) (throws_loadedErrors hsearch e hfound)
  · rintro ⟨found, hfound⟩
    rw [hfound]
    refine ⟨?_, nofun⟩
    rintro _ ⟨⟩
    cases found with
    | nil => trivial
    | cons e es => rfl

theorem ensures_validates_iff (h : Structured schemaYaml types) (hsearch : SearchRaises files.lib)
    (hmappings : ∀ e ∈ namedTypes files.lib.repr types, IsMapping (fieldsGiven e.2)) :
    Program.Ensures (validateLoaded files domainId inputType metadata)
      (loader.applyRuntimeOverride files.lib.repr domainId schemaYaml)
      (fun _ _ => True) (fun e _ => e.typeName = "InputSchemaValidationError") ↔
      ∀ e ∈ namedTypes files.lib.repr types, inputType = some e.1 →
        ∀ k fdef, definitionOf files.common e.2 k = some fdef →
          Checks files.lib fdef (metadata.get? k) := by
  obtain ⟨schemas, hschemas, hmade⟩ := exists_made hmappings
  cases inputType with
  | none => exact ⟨fun _ => nofun, fun _ => trivial⟩
  | some name =>
    rw [validateLoaded, Program.ensures_bind, h.ensures_load, hschemas]
    simp only [Except.ok.injEq, forall_eq', reduceCtorEq, false_imp_iff, implies_true, and_true,
      Option.some.injEq]
    cases hlookup : (namedTypes files.lib.repr types).lookup name with
    | none =>
      rw [hmade name, hlookup]
      refine ⟨?_, fun _ => rfl⟩
      rintro - e he rfl
      rw [List.lookup_eq_none_iff] at hlookup
      exact absurd rfl (bne_iff_ne.mp (hlookup e he))
    | some typeDef =>
      have hmem : (name, typeDef) ∈ namedTypes files.lib.repr types := Value.mem_of_lookup hlookup
      rw [hmade name, hlookup, Option.map_some, ensures_report_iff hsearch,
        forall_checks_iff (dictOf_fieldsGiven (hmappings _ hmem))]
      constructor
      · rintro hchecks e he rfl
        have hsame : e = (e.1, typeDef) :=
          List.inj_on_of_nodup_map nodup_namedTypes he hmem rfl
        rw [hsame]
        exact hchecks
      · intro hchecks
        exact hchecks (name, typeDef) hmem rfl

/-- The schemas of an accepted put are usable exactly where their fields are mappings and what the
metadata have for them can be checked. -/
theorem put_usable_iff {call : SchemaEditorService.PutCall}
    (hput : PutAccepted files.lib.repr call) (hsearch : SearchRaises files.lib) :
    Usable files loader call.domainId call.schemaYaml inputType metadata ↔
      Workable files call.schemaYaml inputType metadata := by
  obtain ⟨types, h⟩ := exists_structured (validateStructure_of_putAccepted hput)
  constructor
  · rintro ⟨hnames, hvalidates⟩
    have hmappings := (ensures_names_iff h).mp hnames
    refine ⟨?_, ?_⟩
    · rwa [h.declaredTypes]
    · rw [h.declaredTypes]
      exact (ensures_validates_iff h hsearch hmappings).mp hvalidates
  · rintro ⟨hmappings, hchecks⟩
    rw [h.declaredTypes] at hmappings hchecks
    exact ⟨(ensures_names_iff h).mpr hmappings,
      (ensures_validates_iff h hsearch hmappings).mpr hchecks⟩

end Usable

section Instances

/-- A pattern is found in every text, or is refused as `re` refuses what is no pattern. -/
def plainFiles : SchemaFiles where
  common := {}
  tenant _ := none
  lib :=
    { search := fun pattern _ => match pattern with
        | .str _ => .ok true
        | _ => .error (.typeError "first argument must be string or compiled pattern")
      date := fun _ => true
      datetime := fun _ => true
      repr := fun _ => "" }

def policyPut (fields : Value) : SchemaEditorService.PutCall where
  domainId := "d"
  baseVersion := none
  schemaYaml := .dict [("input_types",
    .list [.dict [("name", .str "policy"), ("domain_fields", fields)]])]
  uiSchemaYaml := .null

theorem putAccepted_policyPut (fields : Value) :
    PutAccepted plainFiles.lib.repr (policyPut fields) :=
  ⟨{}, {}, 0, none, _, rfl, rfl⟩

theorem searchRaises_plainFiles : SearchRaises plainFiles.lib := by
  intro pattern s
  cases pattern with
  | str p => exact throws_ok _
  | null | bool | int | float | list | dict => exact throws_error (isOther_typeError _)

/-- A field given by its name, as an input type is, is no pair. -/
def listedField : Value :=
  .list [.dict [("name", .str "grade"), ("type", .str "string"), ("required", .bool true)]]

theorem listed_fields_break_validation :
    ¬ ∀ (files : SchemaFiles) (loader : InputSchemaLoader) (call : SchemaEditorService.PutCall)
      (inputType : Option String) (metadata : Dict String Value),
      PutAccepted files.lib.repr call → SearchRaises files.lib →
        Usable files loader call.domainId call.schemaYaml inputType metadata := by
  intro h
  have husable := h plainFiles {} (policyPut listedField) (some "policy") .empty
    (putAccepted_policyPut _) searchRaises_plainFiles
  exact husable.names

def gradeFields : Value := .dict [("grade", .dict [("type", .str "string")])]

theorem put_usable_iff_grade : Usable plainFiles {} "d" (policyPut gradeFields).schemaYaml
    (some "policy") (Dict.empty.set "grade" (.str "A")) := by
  have hdeclared : declaredTypes plainFiles.lib.repr (policyPut gradeFields).schemaYaml =
      [("policy", .dict [("domain_fields", gradeFields)])] := rfl
  refine (put_usable_iff (putAccepted_policyPut _) searchRaises_plainFiles).mpr ⟨?_, ?_⟩
  · rw [hdeclared]
    intro e he
    rw [List.mem_singleton.mp he]
    exact .inl rfl
  · rw [hdeclared]
    intro e he _ k fdef hdef keywords value hkeywords hvalue _
    rw [List.mem_singleton.mp he] at hdef
    rw [Dict.get?_set] at hvalue
    split at hvalue
    · next hk =>
      subst hk
      cases hvalue
      cases hdef
      cases hkeywords
      refine fun _ => ⟨?_, ?_, .inl rfl, .inl rfl⟩
      · rintro _ ⟨⟩
      · rintro _ ⟨⟩
    · cases hvalue

end Instances

end DomainRag.InputSchema
