import Mathlib.Data.Rat.Defs
import DomainRag.Lib.Dict

/-! # Dynamic values

JSON values as a Python program sees them: truth, length, iteration, equality and order of
values whose type is only known when the program runs, and the errors that wrong types raise.
-/

namespace DomainRag

structure Exc where
  typeName : String
  message : String
  deriving DecidableEq, Repr

def Exc.typeError (message : String) : Exc := ⟨"TypeError", message⟩

inductive Value where
  | null
  | bool (b : Bool)
  | int (n : Int)
  | float (q : Rat)
  | str (s : String)
  | list (vs : List Value)
  | dict (kvs : List (String × Value))
  deriving Repr, Inhabited

namespace Value

def typeName : Value → String
  | null => "NoneType"
  | bool _ => "bool"
  | int _ => "int"
  | float _ => "float"
  | str _ => "str"
  | list _ => "list"
  | dict _ => "dict"

def truthy : Value → Bool
  | null => false
  | bool b => b
  | int n => n ≠ 0
  | float q => q ≠ 0
  | str s => s ≠ ""
  | list vs => !vs.isEmpty
  | dict kvs => !kvs.isEmpty

/-- The operator `v or w`. -/
def orElse (v w : Value) : Value := if v.truthy then v else w

def len : Value → Except Exc Nat
  | str s => .ok s.toList.length
  | list vs => .ok vs.length
  | dict kvs => .ok kvs.length
  | v => .error (.typeError s!"object of type '{v.typeName}' has no len()")

def iter : Value → Except Exc (List Value)
  | str s => .ok (s.toList.map fun c => str (String.singleton c))
  | list vs => .ok vs
  | dict kvs => .ok (kvs.map fun e => str e.1)
  | v => .error (.typeError s!"'{v.typeName}' object is not iterable")

theorem len_eq_ok_iff {v : Value} {n : Nat} :
    v.len = .ok n ↔ ∃ vs, v.iter = .ok vs ∧ vs.length = n := by
  cases v <;> simp only [len, iter, Except.ok.injEq, reduceCtorEq, false_and, exists_false,
    exists_eq_left', List.length_map]

theorem truthy_of_len_pos {v : Value} {n : Nat} (h : v.len = .ok n) (hn : 0 < n) :
    v.truthy = true := by
  cases v with
  | str s =>
    cases h
    have hs : s ≠ "" := by
      rintro rfl
      exact absurd hn (by decide)
    simpa only [truthy, decide_eq_true_eq] using hs
  | list vs =>
    cases h
    cases vs with
    | nil => exact absurd hn (Nat.lt_irrefl 0)
    | cons v vs => rfl
  | dict kvs =>
    cases h
    cases kvs with
    | nil => exact absurd hn (Nat.lt_irrefl 0)
    | cons e kvs => rfl
  | null | bool _ | int _ | float _ => cases h

def get (v : Value) (key : String) : Except Exc (Option Value) :=
  match v with
  | dict kvs => .ok (kvs.lookup key)
  | v => .error ⟨"AttributeError", s!"'{v.typeName}' object has no attribute 'get'"⟩

def getD (v : Value) (key : String) (default : Value) : Except Exc Value := do
  return (← v.get key).getD default

def items : Value → Except Exc (List (String × Value))
  | dict kvs => .ok kvs
  | v => .error ⟨"AttributeError", s!"'{v.typeName}' object has no attribute 'items'"⟩

/-- The text of a value, with `repr` for a value that is no string. -/
def text (repr : Value → String) : Value → String
  | str s => s
  | v => repr v

def num? : Value → Option Rat
  | bool b => some (if b then 1 else 0)
  | int n => some n
  | float q => some q
  | _ => none

/-- A value used to look an integer key up in a dictionary: numbers are found by their value,
and containers cannot be keys. -/
def intKey? : Value → Except Exc (Option Int)
  | list _ => .error (.typeError "unhashable type: 'list'")
  | dict _ => .error (.typeError "unhashable type: 'dict'")
  | v => .ok (v.num?.bind fun q => if q.den = 1 then some q.num else none)

mutual

/-- The operator `==`. -/
def eq : Value → Value → Bool
  | null, null => true
  | str s, str t => s = t
  | list vs, list ws => eqList vs ws
  | dict kvs, dict kws => kvs.length = kws.length && eqEntries kvs kws
  | v, w => match v.num?, w.num? with
    | some p, some q => p = q
    | _, _ => false

def eqList : List Value → List Value → Bool
  | [], [] => true
  | v :: vs, w :: ws => eq v w && eqList vs ws
  | _, _ => false

def eqEntries : List (String × Value) → List (String × Value) → Bool
  | [], _ => true
  | (k, v) :: kvs, kws => (match kws.lookup k with
      | some w => eq v w
      | none => false) && eqEntries kvs kws

end

theorem eq_str_iff {v : Value} {s : String} : v.eq (str s) = true ↔ v = str s := by
  cases v <;> simp [eq, num?]

theorem eq_true_iff {v : Value} : v.eq (bool true) = true ↔ v.num? = some 1 := by
  cases v <;> simp [eq, num?]

def mem (v : Value) (ws : List Value) : Bool := ws.any fun w => eq v w

theorem mem_map_str_iff {v : Value} {ss : List String} :
    v.mem (ss.map str) = true ↔ ∃ s ∈ ss, v = str s := by
  simp only [mem, List.any_map, List.any_eq_true, Function.comp_apply, eq_str_iff]

/-- The operator `v in container`. -/
def containedIn (v : Value) : Value → Except Exc Bool
  | list ws => .ok (v.mem ws)
  | str t => match v with
    | str s => .ok ((List.range (t.toList.length + 1)).any fun i =>
      s.toList.isPrefixOf (t.toList.drop i))
    | v => .error (.typeError s!"'in <string>' requires string as left operand, not {v.typeName}")
  | dict kvs => match v with
    | str s => .ok (kvs.lookup s).isSome
    | list _ => .error (.typeError "unhashable type: 'list'")
    | dict _ => .error (.typeError "unhashable type: 'dict'")
    | _ => .ok false
  | w => .error (.typeError s!"argument of type '{w.typeName}' is not iterable")

mutual

/-- How two values compare, with the operator that an error names. -/
def compare (sign : String) : Value → Value → Except Exc Ordering
  | str s, str t => .ok (compareOfLessAndEq s t)
  | list vs, list ws => compareList sign vs ws
  | v, w => match v.num?, w.num? with
    | some p, some q => .ok (compareOfLessAndEq p q)
    | _, _ => .error (.typeError
      s!"'{sign}' not supported between instances of '{v.typeName}' and '{w.typeName}'")

def compareList (sign : String) : List Value → List Value → Except Exc Ordering
  | [], [] => .ok .eq
  | [], _ :: _ => .ok .lt
  | _ :: _, [] => .ok .gt
  | v :: vs, w :: ws => if eq v w then compareList sign vs ws else compare sign v w

end

end Value

end DomainRag
