import DomainRag.InputSchema.Checkable
import DomainRag.Lib.Contents

/-! # The fields of an input type

A type may give its fields as a dictionary or as pairs, and the last value for a key counts. They
stand over the fields that all types have. Metadata have texts for keys, so only the fields whose
keys are texts are checked.
-/

namespace DomainRag.InputSchema

section Fields

variable {common : CommonFields} {typeDef : Value}

def fieldsGiven (typeDef : Value) : Value :=
  (typeDef.field "domain_fields" .null).orElse (.dict [])

def ownFields (typeDef : Value) : List (Value × Value) :=
  (dictOf (fieldsGiven typeDef)).toOption.getD []

/-- The definition of a field: the last that the input type gives, else the one that all types
have. -/
def definitionOf (common : CommonFields) (typeDef : Value) (k : String) : Option Value :=
  ((textFields (givenPairs (fieldsGiven typeDef))).reverse.lookup k).or
    (if k = "domain_id" ∨ k = "input_type" then none else common.definitions.get? k)

variable {own : List (Value × Value)}

theorem textFields_merged : textFields (merged common own).fields =
    (textFields own).foldl (fun d e => Value.setKey e.1 e.2 d)
      (common.definitions.filterKeys fun k => k ≠ "domain_id" ∧ k ≠ "input_type").entries := by
  rw [merged, textFields_foldl_setValue, textFields_map_str]
  rfl

theorem nodup_merged : ((textFields (merged common own).fields).map Prod.fst).Nodup := by
  rw [textFields_merged]
  exact Value.nodup_foldl_setKey (Dict.nodup _)

theorem lookup_merged (h : dictOf (fieldsGiven typeDef) = .ok own) (k : String) :
    (textFields (merged common own).fields).lookup k = definitionOf common typeDef k := by
  rw [textFields_merged, Value.lookup_foldl_setKey, lookup_textFields_dictOf k h,
    Dict.lookup_entries, Dict.get?_filterKeys, definitionOf]
  congr 1
  by_cases hk : k = "domain_id" ∨ k = "input_type"
  · simp [hk]
    tauto
  · obtain ⟨hdomain, htype⟩ := not_or.mp hk
    simp [hdomain, htype]

/-- Of the fields of a type those that metadata can have are checked. -/
theorem forall_checks_iff {lib : Library} {metadata : Dict String Value}
    (h : dictOf (fieldsGiven typeDef) = .ok own) :
    (∀ f ∈ (merged common own).fields, Checks lib f.2 (entryOf metadata f.1)) ↔
      ∀ k fdef, definitionOf common typeDef k = some fdef →
        Checks lib fdef (metadata.get? k) := by
  have hmem : ∀ k fdef, definitionOf common typeDef k = some fdef ↔
      (.str k, fdef) ∈ (merged common own).fields := by
    intro k fdef
    rw [← lookup_merged h, Value.lookup_eq_some_iff nodup_merged, textFields, List.mem_filterMap]
    constructor
    · rintro ⟨⟨k', w⟩, hf, htext⟩
      rcases text_or_other k' with ⟨s, rfl⟩ | hk
      · cases htext
        exact hf
      · rw [textField_eq_none hk] at htext
        cases htext
    · intro hf
      exact ⟨_, hf, rfl⟩
  constructor
  · intro hchecks k fdef hdef
    exact hchecks _ ((hmem k fdef).mp hdef)
  · rintro hchecks ⟨k, fdef⟩ hf
    rcases text_or_other k with ⟨s, rfl⟩ | hk
    · exact hchecks s fdef ((hmem s fdef).mpr hf)
    · have hentry : entryOf metadata k = none := by
        cases k with
        | str s => exact absurd rfl (hk s)
        | null | bool | int | float | list | dict => rfl
      rw [hentry]
      rintro keywords value - ⟨⟩

end Fields

end DomainRag.InputSchema
