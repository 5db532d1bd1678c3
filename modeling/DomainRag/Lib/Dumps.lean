import DomainRag.Lib.JsonText
import DomainRag.Lib.Value

/-! # Dynamic values as documents

`json.dumps(value, ensure_ascii=False)` puts a blank after every comma and colon and writes the
strings as they are. How a float is spelled is left open.
-/

namespace DomainRag

namespace Value

@[elab_as_elim]
theorem induct {P : Value → Prop} (null : P null) (bool : ∀ b, P (bool b)) (int : ∀ n, P (int n))
    (float : ∀ q, P (float q)) (str : ∀ s, P (str s))
    (list : ∀ vs, (∀ v ∈ vs, P v) → P (list vs))
    (dict : ∀ kvs, (∀ kv ∈ kvs, P kv.2) → P (dict kvs)) (v : Value) : P v :=
  @Value.rec P (fun vs => ∀ v ∈ vs, P v) (fun kvs => ∀ kv ∈ kvs, P kv.2) (fun kv => P kv.2)
    null bool int float str list dict
    (fun _ h => absurd h List.not_mem_nil)
    (fun _ _ hv hvs => List.forall_mem_cons.mpr ⟨hv, hvs⟩)
    (fun _ h => absurd h List.not_mem_nil)
    (fun _ _ hkv hkvs => List.forall_mem_cons.mpr ⟨hkv, hkvs⟩)
    (fun _ _ h => h) v

variable (floatText : Rat → List Char)

mutual

def json : Value → Json
  | null => .null
  | bool b => .bool b
  | int n => .number (Json.intText n)
  | float q => .number (floatText q)
  | str s => .string s.toList
  | list vs => .array (jsonItems vs)
  | dict kvs => .object (jsonMembers kvs)

def jsonItems : List Value → List Json
  | [] => []
  | v :: vs => json v :: jsonItems vs

def jsonMembers : List (String × Value) → List (List Char × Json)
  | [] => []
  | (key, v) :: kvs => (key.toList, json v) :: jsonMembers kvs

end

variable {floatText}

theorem itemsWellFormed_json {vs : List Value} (h : ∀ v ∈ vs, (v.json floatText).WellFormed) :
    Json.ItemsWellFormed (jsonItems floatText vs) := by
  induction vs with
  | nil => trivial
  | cons v vs ih =>
    obtain ⟨hv, hvs⟩ := List.forall_mem_cons.mp h
    exact ⟨hv, ih hvs⟩

theorem membersWellFormed_json {kvs : List (String × Value)}
    (h : ∀ kv ∈ kvs, (kv.2.json floatText).WellFormed) :
    Json.MembersWellFormed (jsonMembers floatText kvs) := by
  induction kvs with
  | nil => trivial
  | cons kv kvs ih =>
    obtain ⟨hkv, hkvs⟩ := List.forall_mem_cons.mp h
    exact ⟨hkv, ih hkvs⟩

/-- A value is written with numbers that are numbers, if the floats are. -/
theorem wellFormed_json (hfloat : ∀ q, Json.IsNumber (floatText q)) (v : Value) :
    (v.json floatText).WellFormed := by
  induction v using induct with
  | null | bool _ | str _ => trivial
  | int n => exact Json.isNumber_intText n
  | float q => exact hfloat q
  | list vs ih => exact itemsWellFormed_json ih
  | dict kvs ih => exact membersWellFormed_json ih

variable (floatText) in
/-- `json.dumps(v, ensure_ascii=False)` -/
def dumps (v : Value) : List Char := (v.json floatText).write [' ']

theorem parse_dumps (hfloat : ∀ q, Json.IsNumber (floatText q)) (v : Value) :
    Json.parse (v.dumps floatText) = some (v.json floatText) :=
  Json.parse_write (List.forall_mem_singleton.mpr (by decide)) (wellFormed_json hfloat v)

theorem printable_dumps (hfloat : ∀ q, Json.IsNumber (floatText q)) (v : Value) :
    Json.Printable (v.dumps floatText) :=
  Json.printable_write (by decide) (wellFormed_json hfloat v)

end Value

end DomainRag
