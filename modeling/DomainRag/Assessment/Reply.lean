import DomainRag.Lib.Shape
import DomainRag.Lib.Value
import DomainRag.Storage.Assets

/-! # The JSON of a reply

A model is asked for JSON and may put it into a code fence, or write something before it and after
it. Python reads `NaN`, `Infinity` and `-Infinity` as JSON, so a number in a reply may be any number of
floating point, and one that is no number compares as false with every other.
-/

namespace DomainRag.Assessment

open Storage (strip)

/-- `json.loads`, and the value at the start of a text that may go on after it. -/
structure JsonDecoder (J : Type) where
  loads : String → Except Exc J
  rawDecode : String → Except Exc J

/-- A text without the code fence around it. -/
def unfence (raw : String) : String :=
  let s := strip raw
  if "```".toList.isPrefixOf s.toList then
    let body := (s.toList.dropWhile (· = '\x60')).rdropWhile (· = '\x60')
    let named := (body.take 4).map Char.toLower = "json".toList
    strip (String.ofList (if named then body.drop 4 else body))
  else s

/-- The text from its first opening brace on. -/
def fromBrace? (s : String) : Option String :=
  let rest := s.toList.dropWhile (· ≠ '\x7b')
  if rest = [] then none else some (String.ofList rest)

namespace JsonDecoder

variable {J : Type} (json : JsonDecoder J) (isDict : J → Bool)

/-- The object at the first opening brace of a text, or what went wrong. -/
def firstObject (s : String) : Except String J :=
  match (fromBrace? s).map json.rawDecode with
  | some (.ok v) => if isDict v then .ok v else .error "json_parse_error: no JSON object found"
  | some (.error e) => .error s!"json_parse_error: {e.message}"
  | none => .error "json_parse_error: no JSON object found"

/-- Any JSON value that is the whole text, or the first object in it. -/
def parse (raw : String) : Except String J :=
  if raw = "" then .error "empty_response"
  else match json.loads (unfence raw) with
    | .ok v => .ok v
    | .error _ => json.firstObject isDict (unfence raw)

end JsonDecoder

section Floats

/-- A floating-point number. -/
inductive Score where
  | number (q : Rat)
  | infinity (negative : Bool)
  | nan
  deriving DecidableEq

/-- The comparison `score < 0.5`. -/
def Score.low : Score → Bool
  | number q => q < 1 / 2
  | infinity negative => negative
  | nan => false

/-- The comparison `x <= y`. -/
def Score.le : Score → Score → Bool
  | nan, _ => false
  | _, nan => false
  | infinity true, _ => true
  | _, infinity negative => !negative
  | infinity false, _ => false
  | number x, number y => x ≤ y

/-- A natural number rounded to 53 binary digits, ties to even. -/
def roundToFloat (n : Nat) : Nat :=
  let unit := 2 ^ (n.log2 - 52)
  let q := n / unit
  let r := n % unit
  (if unit < 2 * r ∨ (unit = 2 * r ∧ q % 2 = 1) then q + 1 else q) * unit

/-- The conversion of an integer. -/
def floatOfInt (n : Int) : Except Exc Score :=
  let m := roundToFloat n.natAbs
  if m < 2 ^ 1024 then .ok (.number (if n < 0 then -(m : Rat) else m))
  else .error ⟨"OverflowError", "int too large to convert to float"⟩

end Floats

/-- A JSON value as the decoder gives it. -/
inductive Reply where
  | null
  | bool (b : Bool)
  | int (n : Int)
  | float (x : Score)
  | str (s : String)
  | list (vs : List Reply)
  | dict (kvs : List (String × Reply))

namespace Reply

def typeName : Reply → String
  | null => "NoneType"
  | bool _ => "bool"
  | int _ => "int"
  | float _ => "float"
  | str _ => "str"
  | list _ => "list"
  | dict _ => "dict"

def isDict : Reply → Bool
  | dict _ => true
  | _ => false

/-- Among the floating-point numbers only zero counts as false. -/
def truthy : Reply → Bool
  | null => false
  | bool b => b
  | int n => n ≠ 0
  | float x => x ≠ .number 0
  | str s => s ≠ ""
  | list vs => !vs.isEmpty
  | dict kvs => !kvs.isEmpty

def orElse (v w : Reply) : Reply := if v.truthy then v else w

def iter : Reply → Except Exc (List Reply)
  | str s => .ok (s.toList.map fun c => str (String.singleton c))
  | list vs => .ok vs
  | dict kvs => .ok (kvs.map fun e => str e.1)
  | v => .error (.typeError s!"'{v.typeName}' object is not iterable")

def getD (v : Reply) (key : String) (default : Reply) : Except Exc Reply :=
  match v with
  | dict kvs => .ok ((kvs.lookup key).getD default)
  | v => .error ⟨"AttributeError", s!"'{v.typeName}' object has no attribute 'get'"⟩

/-- The text of a value, with `repr` for a value that is no string. -/
def text (repr : Reply → String) : Reply → String
  | str s => s
  | v => repr v

/-- The conversion `float(v)`, with a parser for texts, which gives nothing for a text that is no
number. -/
def toFloat (parse : String → Option Score) : Reply → Except Exc Score
  | bool b => .ok (.number (if b then 1 else 0))
  | int n => floatOfInt n
  | float x => .ok x
  | str s => match parse s with
    | some score => .ok score
    | none => .error ⟨"ValueError", s!"could not convert string to float: '{s}'"⟩
  | v => .error (.typeError
    s!"float() argument must be a string or a real number, not '{v.typeName}'")

/-- A number, which a truth value is not. -/
def number? : Reply → Option Score
  | int n => some (.number n)
  | float x => some x
  | _ => none

section Fields

variable {v w d : Reply} {k : String}

def entries : Reply → List (String × Reply)
  | dict kvs => kvs
  | _ => []

def Loops (v : Reply) : Prop := v.truthy = true → ∃ vs, v.iter = .ok vs

theorem loops_iff : v.Loops ↔ Returns (v.orElse (.list [])).iter := by
  rw [Loops, orElse]
  cases v.truthy with
  | false => exact ⟨fun _ => returns_ok [], fun _ => nofun⟩
  | true => exact ⟨fun h => h rfl, fun h _ => h⟩

/-- The value of an object at a key. -/
def field (v : Reply) (k : String) (d : Reply) : Reply := (v.entries.lookup k).getD d

theorem getD_eq_ok_iff : v.getD k d = .ok w ↔ v.isDict = true ∧ v.field k d = w := by
  cases v <;> simp [getD, isDict, field, entries]

/-- A program that asks an object for a field returns if what it does with the field does. -/
theorem returns_getD_bind_iff {A : Type} {f : Reply → Except Exc A} :
    Returns (v.getD k d >>= f) ↔ v.isDict = true ∧ Returns (f (v.field k d)) := by
  rw [returns_bind_iff]
  simp only [getD_eq_ok_iff]
  constructor
  · rintro ⟨_, ⟨hv, rfl⟩, hf⟩
    exact ⟨hv, hf⟩
  · exact fun h => ⟨_, ⟨h.1, rfl⟩, h.2⟩

end Fields

end Reply

end DomainRag.Assessment
