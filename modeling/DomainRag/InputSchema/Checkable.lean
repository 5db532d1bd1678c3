import DomainRag.InputSchema.Loader
import DomainRag.Lib.Shape

/-! # Field definitions that a value can be checked against

A keyword with a value of the wrong type raises where it is applied: an enumeration that cannot be
searched for the value, a pattern that is none, a bound that is no number. The keywords that do not
apply to the value are not looked at.
-/

namespace DomainRag.InputSchema

section Keywords

variable {lib : Library} {fdef : List (String × Value)} {value : Value}

def CanHold (value : Value) : Value → Prop
  | .list _ => True
  | .str _ => ∃ s, value = .str s
  | .dict _ => value.Hashable
  | _ => False

theorem returns_containedIn_iff {container : Value} :
    Returns (value.containedIn container) ↔ CanHold value container := by
  cases container with
  | list ws => exact ⟨fun _ => trivial, fun _ => returns_ok _⟩
  | str t =>
    cases value with
    | str s => exact ⟨fun _ => ⟨s, rfl⟩, fun _ => returns_ok _⟩
    | null | bool | int | float | list | dict =>
      refine ⟨fun h => absurd h (not_returns_error _), ?_⟩
      rintro ⟨s, h⟩
      cases h
  | dict kvs =>
    cases value with
    | list | dict =>
      refine ⟨fun h => absurd h (not_returns_error _), ?_⟩
      rintro ⟨key, h⟩
      cases h
    | null | bool | int | float | str => exact ⟨fun _ => ⟨_, rfl⟩, fun _ => returns_ok _⟩
  | null | bool | int | float => exact ⟨fun h => absurd h (not_returns_error _), False.elim⟩

def IsBound (bound : Value) : Prop := bound = .null ∨ bound.num?.isSome = true

theorem returns_boundErrors_iff {sign : String} {bad : Ordering} {n : Int} {bound : Value}
    {error : FieldError} : Returns (boundErrors sign bad n bound error) ↔ IsBound bound := by
  cases bound with
  | null => exact ⟨fun _ => .inl rfl, fun _ => returns_ok _⟩
  | bool | int | float => exact ⟨fun _ => .inr rfl, fun _ => returns_ok _⟩
  | str | list | dict =>
    refine ⟨fun h => absurd h (not_returns_error _), ?_⟩
    rintro (h | h)
    · cases h
    · cases h

def TypeFits (fdef : List (String × Value)) (value : Value) : Prop :=
  (keyword fdef "type").truthy = true → typeMatch value (keyword fdef "type") = true

theorem returns_ofType_iff {fname : String} {rest : Except Exc (List FieldError)} :
    Returns (ofType lib fname fdef value rest) ↔ (TypeFits fdef value → Returns rest) := by
  rw [ofType, typeErrors, TypeFits]
  cases (keyword fdef "type").truthy with
  | false => simp
  | true =>
    cases typeMatch value (keyword fdef "type") with
    | true => simp
    | false =>
      simp only [Bool.not_false, Bool.and_self, if_true, Bool.false_eq_true, imp_false,
        not_true_eq_false, false_imp_iff, iff_true]
      exact returns_ok _

def EnumSearchable (fdef : List (String × Value)) (value : Value) : Prop :=
  ∀ allowed, fdef.lookup "enum" = some allowed → CanHold value allowed

theorem returns_enumErrors_iff {path : String} :
    Returns (enumErrors lib path fdef value) ↔ EnumSearchable fdef value := by
  rw [enumErrors, EnumSearchable]
  cases fdef.lookup "enum" with
  | none => exact ⟨fun _ => nofun, fun _ => returns_ok _⟩
  | some allowed =>
    simp only [Option.some.injEq, forall_eq', returns_bind_iff, ← returns_containedIn_iff]
    refine exists_congr fun b => and_iff_left_of_imp fun _ => ?_
    cases b <;> exact returns_ok _

def PatternSearchable (lib : Library) (fdef : List (String × Value)) (s : String) : Prop :=
  ∀ pattern, fdef.lookup "pattern" = some pattern → Returns (lib.search pattern s)

theorem returns_patternErrors_iff {path s : String} :
    Returns (patternErrors lib path fdef s) ↔ PatternSearchable lib fdef s := by
  rw [patternErrors, PatternSearchable]
  cases fdef.lookup "pattern" with
  | none => exact ⟨fun _ => nofun, fun _ => returns_ok _⟩
  | some pattern =>
    simp only [Option.some.injEq, forall_eq', returns_bind_iff]
    refine exists_congr fun b => and_iff_left_of_imp fun _ => ?_
    cases b <;> exact returns_ok _

/-- The two spellings of a limit, of which the second counts where the first is empty. -/
def limit (fdef : List (String × Value)) (snake camel : String) : Value :=
  (keyword fdef snake).orElse (keyword fdef camel)

theorem returns_rangeErrors_iff {path : String} {n : Int} :
    Returns (rangeErrors lib path fdef n) ↔
      IsBound (keyword fdef "minimum") ∧ IsBound (keyword fdef "maximum") := by
  rw [rangeErrors, returns_bind_iff_and fun low => ?_, returns_boundErrors_iff]
  rw [returns_bind_iff_and fun high => iff_true_intro (returns_pure (low ++ high)),
    returns_boundErrors_iff, and_true]

theorem returns_lengthErrors_iff {path s : String} :
    Returns (lengthErrors lib path fdef s) ↔
      IsBound (limit fdef "min_length" "minLength") ∧
        IsBound (limit fdef "max_length" "maxLength") := by
  rw [lengthErrors, returns_bind_iff_and fun low => ?_, returns_boundErrors_iff, limit, limit]
  rw [returns_bind_iff_and fun high => iff_true_intro (returns_pure (low ++ high)),
    returns_boundErrors_iff, and_true]

theorem returns_minItemsErrors_iff {path : String} {n : Nat} :
    Returns (minItemsErrors lib path fdef n) ↔ IsBound (limit fdef "min_items" "minItems") :=
  returns_boundErrors_iff

end Keywords

mutual

/-- The keywords of the definition that are applied to the value can be applied. -/
def Checkable (lib : Library) (fdef : List (String × Value)) : Value → Prop
  | .str s => TypeFits fdef (.str s) →
    EnumSearchable fdef (.str s) ∧ PatternSearchable lib fdef s ∧
      IsBound (limit fdef "min_length" "minLength") ∧ IsBound (limit fdef "max_length" "maxLength")
  | .int n => TypeFits fdef (.int n) →
    EnumSearchable fdef (.int n) ∧ IsBound (keyword fdef "minimum") ∧
      IsBound (keyword fdef "maximum")
  | .list vs => TypeFits fdef (.list vs) →
    EnumSearchable fdef (.list vs) ∧
      (∀ itemsDef, keyword fdef "items" = .dict itemsDef → AllCheckable lib itemsDef vs) ∧
      IsBound (limit fdef "min_items" "minItems")
  | value => TypeFits fdef value → EnumSearchable fdef value

def AllCheckable (lib : Library) (itemsDef : List (String × Value)) : List Value → Prop
  | [] => True
  | v :: vs => Checkable lib itemsDef v ∧ AllCheckable lib itemsDef vs

end

mutual

theorem returns_validateField_iff (lib : Library) (fname : String) (fdef : List (String × Value)) :
    ∀ value, Returns (validateField lib fname fdef value) ↔ Checkable lib fdef value
  | .str s => by
    rw [validateField, Checkable, returns_ofType_iff]
    refine forall_congr' fun _ => ?_
    rw [returns_bind_iff_and fun enum => ?_, returns_enumErrors_iff]
    rw [returns_bind_iff_and fun pattern => ?_, returns_patternErrors_iff]
    rw [returns_bind_iff_and fun length => iff_true_intro (returns_pure _),
      returns_lengthErrors_iff, and_true]
  | .int n => by
    rw [validateField, Checkable, returns_ofType_iff]
    refine forall_congr' fun _ => ?_
    rw [returns_bind_iff_and fun enum => ?_, returns_enumErrors_iff]
    rw [returns_bind_iff_and fun range => iff_true_intro (returns_pure _), returns_rangeErrors_iff,
      and_true]
  | .list vs => by
    rw [validateField, Checkable, returns_ofType_iff]
    refine forall_congr' fun _ => ?_
    rw [returns_bind_iff_and fun enum => ?_, returns_enumErrors_iff]
    have hcount : ∀ items : List FieldError, Returns (do
        let count ← minItemsErrors lib s!"metadata.{fname}" fdef vs.length
        return enum ++ items ++ count) ↔ IsBound (limit fdef "min_items" "minItems") := by
      intro items
      rw [returns_bind_iff_and fun count => iff_true_intro (returns_pure _),
        returns_minItemsErrors_iff, and_true]
    cases hitems : keyword fdef "items" with
    | dict itemsDef =>
      simp only [Value.dict.injEq, forall_eq']
      rw [← returns_validateItems_iff lib fname itemsDef 0 vs]
      exact returns_bind_iff_and hcount
    | null | bool | int | float | str | list =>
      simp only [reduceCtorEq, false_imp_iff, implies_true, true_and]
      exact hcount []
  | .null => by
    simp only [validateField, Checkable, returns_ofType_iff, returns_enumErrors_iff]
  | .bool b => by
    simp only [validateField, Checkable, returns_ofType_iff, returns_enumErrors_iff]
  | .float q => by
    simp only [validateField, Checkable, returns_ofType_iff, returns_enumErrors_iff]
  | .dict kvs => by
    simp only [validateField, Checkable, returns_ofType_iff, returns_enumErrors_iff]

theorem returns_validateItems_iff (lib : Library) (fname : String)
    (itemsDef : List (String × Value)) :
    ∀ i vs, Returns (validateItems lib fname itemsDef i vs) ↔ AllCheckable lib itemsDef vs
  | _, [] => by
    rw [validateItems, AllCheckable]
    exact ⟨fun _ => trivial, fun _ => returns_ok _⟩
  | i, v :: vs => by
    rw [validateItems, AllCheckable, returns_bind_iff_and fun errors => ?_,
      returns_validateField_iff lib _ itemsDef v]
    rw [returns_bind_iff_and fun rest => iff_true_intro (returns_pure (errors ++ rest)),
      returns_validateItems_iff lib fname itemsDef (i + 1) vs, and_true]

end

/-- An error by which nothing is reported. -/
def IsOther (e : Exc) : Prop := e.typeName ≠ "InputSchemaValidationError"

theorem isOther_typeError (message : String) : IsOther (.typeError message) :=
  (by decide : "TypeError" ≠ "InputSchemaValidationError")

theorem throws_containedIn (value container : Value) :
    Throws IsOther (value.containedIn container) := by
  cases container with
  | list ws => exact throws_ok _
  | str t =>
    cases value with
    | str s => exact throws_ok _
    | null | bool | int | float | list | dict => exact throws_error (isOther_typeError _)
  | dict kvs =>
    cases value with
    | list | dict => exact throws_error (isOther_typeError _)
    | null | bool | int | float | str => exact throws_ok _
  | null | bool | int | float => exact throws_error (isOther_typeError _)

theorem throws_boundErrors (sign : String) (bad : Ordering) (n : Int) (bound : Value)
    (error : FieldError) : Throws IsOther (boundErrors sign bad n bound error) := by
  cases bound with
  | null => exact throws_ok _
  | bool | int | float => exact (throws_ok _).bind fun _ => throws_ok _
  | str | list | dict => exact (throws_error (isOther_typeError _)).bind fun _ => throws_ok _

/-- The search raises errors of its own. -/
def SearchRaises (lib : Library) : Prop := ∀ pattern s, Throws IsOther (lib.search pattern s)

section Fields

variable {lib : Library}

theorem throws_enumErrors (path : String) (fdef : List (String × Value)) (value : Value) :
    Throws IsOther (enumErrors lib path fdef value) := by
  rw [enumErrors]
  split
  · exact throws_ok _
  · refine (throws_containedIn _ _).bind fun found => ?_
    cases found <;> exact throws_ok _

theorem throws_ofType {fname : String} {fdef : List (String × Value)} {value : Value}
    {rest : Except Exc (List FieldError)} (h : Throws IsOther rest) :
    Throws IsOther (ofType lib fname fdef value rest) := by
  rw [ofType]
  split
  · exact h
  · exact throws_ok _

theorem throws_patternErrors (hsearch : SearchRaises lib) (path : String)
    (fdef : List (String × Value)) (s : String) :
    Throws IsOther (patternErrors lib path fdef s) := by
  rw [patternErrors]
  split
  · exact throws_ok _
  · refine (hsearch _ _).bind fun found => ?_
    cases found <;> exact throws_ok _

mutual

theorem throws_validateField (hsearch : SearchRaises lib) (fname : String)
    (fdef : List (String × Value)) :
    ∀ value, Throws IsOther (validateField lib fname fdef value)
  | .str s => by
    rw [validateField]
    refine throws_ofType ((throws_enumErrors _ _ _).bind fun _ => ?_)
    refine (throws_patternErrors hsearch _ _ _).bind fun _ => ?_
    exact ((throws_boundErrors _ _ _ _ _).bind fun _ => (throws_boundErrors _ _ _ _ _).bind
      fun _ => throws_ok _).bind fun _ => throws_ok _
  | .int n => by
    rw [validateField]
    refine throws_ofType ((throws_enumErrors _ _ _).bind fun _ => ?_)
    exact ((throws_boundErrors _ _ _ _ _).bind fun _ => (throws_boundErrors _ _ _ _ _).bind
      fun _ => throws_ok _).bind fun _ => throws_ok _
  | .list vs => by
    rw [validateField]
    refine throws_ofType ((throws_enumErrors _ _ _).bind fun enum => ?_)
    have hcount : ∀ items : List FieldError, Throws IsOther (do
        let count ← minItemsErrors lib s!"metadata.{fname}" fdef vs.length
        return enum ++ items ++ count) :=
      fun items => (throws_boundErrors _ _ _ _ _).bind fun _ => throws_ok _
    cases keyword fdef "items" with
    | dict itemsDef => exact (throws_validateItems hsearch fname itemsDef 0 vs).bind hcount
    | null | bool | int | float | str | list => exact hcount []
  | .null | .bool _ | .float _ | .dict _ => by
    simp only [validateField]
    exact throws_ofType (throws_enumErrors _ _ _)

theorem throws_validateItems (hsearch : SearchRaises lib) (fname : String)
    (itemsDef : List (String × Value)) :
    ∀ i vs, Throws IsOther (validateItems lib fname itemsDef i vs)
  | _, [] => by
    rw [validateItems]
    exact throws_ok _
  | i, v :: vs => by
    rw [validateItems]
    exact (throws_validateField hsearch _ itemsDef v).bind fun _ =>
      (throws_validateItems hsearch fname itemsDef (i + 1) vs).bind fun _ => throws_ok _

end

theorem throws_checkField (hsearch : SearchRaises lib) (fname : String) (fdef : Value)
    (entry : Option Value) : Throws IsOther (checkField lib fname fdef entry) := by
  unfold checkField
  split
  · split
    · exact throws_ok _
    · exact throws_validateField hsearch _ _ _
  · exact throws_ok _

end Fields

/-- What the metadata have for a field can be checked against its definition. -/
def Checks (lib : Library) (fdef : Value) (entry : Option Value) : Prop :=
  ∀ keywords value, fdef = .dict keywords → entry = some value →
    value.mem [.null, .str ""] = false → Checkable lib keywords value

theorem returns_checkField_iff {lib : Library} {fname : String} {fdef : Value}
    {entry : Option Value} :
    Returns (checkField lib fname fdef entry) ↔ Checks lib fdef entry := by
  unfold checkField Checks
  split
  · next keywords value =>
    simp only [Value.dict.injEq, Option.some.injEq]
    cases hempty : value.mem [.null, .str ""] with
    | true =>
      refine ⟨?_, fun _ => returns_ok _⟩
      rintro - _ _ rfl rfl hfull
      cases hempty.symm.trans hfull
    | false =>
      rw [if_neg Bool.false_ne_true, returns_validateField_iff]
      constructor
      · rintro h _ _ rfl rfl -
        exact h
      · intro h
        exact h keywords value rfl rfl hempty
  · next hnot =>
    refine ⟨?_, fun _ => returns_ok _⟩
    rintro - keywords value rfl rfl
    exact absurd rfl (hnot keywords value rfl)

section Errors

variable {lib : Library} {schema : LoadedType} {metadata : Dict String Value}

theorem returns_loadedErrors_iff : Returns (loadedErrors lib schema metadata) ↔
    ∀ e ∈ schema.fields, Checks lib e.2 (entryOf metadata e.1) := by
  have hfields : Returns (schema.fields.mapM fun e =>
      checkField lib (e.1.text lib.repr) e.2 (entryOf metadata e.1)) ↔
        ∀ e ∈ schema.fields, Checks lib e.2 (entryOf metadata e.1) := by
    rw [returns_mapM_iff]
    exact forall₂_congr fun e _ => returns_checkField_iff
  rw [← hfields, loadedErrors, returns_bind_iff_and fun found => iff_true_intro (returns_pure _),
    and_true]

theorem throws_loadedErrors (hsearch : SearchRaises lib) :
    Throws IsOther (loadedErrors lib schema metadata) :=
  (throws_mapM (fun _ => throws_checkField hsearch _ _ _) _).bind fun _ => throws_ok _

end Errors

end DomainRag.InputSchema
