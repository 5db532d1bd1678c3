import Mathlib.Logic.Function.Basic
import DomainRag.Lib.Value

/-! # Records with named attributes

A record gives every field of its class a value. Attributes are set by name, and a name that is
no field of the class is skipped.
-/

namespace DomainRag

class FieldNames (F : Type) where
  fields : List F
  name : F → String
  mem_fields : ∀ f, f ∈ fields
  names_nodup : (fields.map name).Nodup

abbrev Record (F : Type) := F → Value

theorem FieldNames.name_inj {F : Type} [FieldNames F] {f g : F} (h : name f = name g) : f = g :=
  List.inj_on_of_nodup_map names_nodup (mem_fields f) (mem_fields g) h

namespace Record

variable {F : Type} [DecidableEq F] [FieldNames F]

def field? (name : String) : Option F :=
  (FieldNames.fields : List F).find? fun f => FieldNames.name f = name

omit [DecidableEq F] in
theorem field?_eq_some_iff {name : String} {f : F} :
    field? name = some f ↔ FieldNames.name f = name := by
  constructor
  · intro h
    simpa using List.find?_some h
  · intro h
    have hsome : ((FieldNames.fields : List F).find? fun g => FieldNames.name g = name).isSome := by
      rw [List.find?_isSome]
      exact ⟨f, FieldNames.mem_fields f, decide_eq_true h⟩
    obtain ⟨g, hg⟩ := Option.isSome_iff_exists.mp hsome
    have hname : FieldNames.name g = name := by simpa using List.find?_some hg
    rw [field?, hg, FieldNames.name_inj (hname.trans h.symm)]

/-- The calls `if hasattr(record, name): setattr(record, name, v)`. -/
def setattr (r : Record F) (name : String) (v : Value) : Record F :=
  match (field? name : Option F) with
  | some f => Function.update r f v
  | none => r

theorem setattr_apply (r : Record F) (name : String) (v : Value) (f : F) :
    r.setattr name v f = if name = FieldNames.name f then v else r f := by
  by_cases h : name = FieldNames.name f
  · rw [setattr, field?_eq_some_iff.mpr h.symm, if_pos h]
    exact Function.update_self f v r
  · rw [if_neg h, setattr]
    cases hg : (field? name : Option F) with
    | none => rfl
    | some g =>
      refine Function.update_of_ne ?_ v r
      rintro rfl
      exact h (field?_eq_some_iff.mp hg).symm

def setattrs (r : Record F) (patch : Dict String Value) : Record F :=
  patch.entries.foldl (fun r e => r.setattr e.1 e.2) r

theorem setattrs_apply (r : Record F) (patch : Dict String Value) (f : F) :
    r.setattrs patch f = (patch.get? (FieldNames.name f)).getD (r f) := by
  obtain ⟨kvs, hnodup⟩ := patch
  induction kvs generalizing r with
  | nil => rfl
  | cons p kvs ih =>
    obtain ⟨hp, hkvs⟩ := List.nodup_cons.mp hnodup
    rw [Dict.get?_mk_cons, setattrs, List.foldl_cons]
    refine (ih (r.setattr p.1 p.2) hkvs).trans ?_
    rw [setattr_apply]
    by_cases h : p.1 = FieldNames.name f
    · have hrest : (⟨kvs, hkvs⟩ : Dict String Value).get? (FieldNames.name f) = none :=
        Dict.get?_eq_none_iff.mpr (h ▸ hp)
      rw [hrest, if_pos h, if_pos h.symm]
      rfl
    · rw [if_neg h, if_neg (Ne.symm h)]

theorem setattrs_setattrs (r : Record F) (patch : Dict String Value) :
    (r.setattrs patch).setattrs patch = r.setattrs patch := by
  funext f
  simp only [setattrs_apply]
  cases patch.get? (FieldNames.name f) <;> rfl

theorem setattrs_of_not_mem {r : Record F} {patch : Dict String Value} {f : F}
    (h : FieldNames.name f ∉ patch.keys) : r.setattrs patch f = r f := by
  rw [setattrs_apply, Dict.get?_eq_none_iff.mpr h]
  rfl

end Record

end DomainRag
