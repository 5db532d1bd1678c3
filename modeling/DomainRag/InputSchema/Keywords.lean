import DomainRag.InputSchema.Validator
import DomainRag.Lib.Shape
import Mathlib.Algebra.Order.Ring.Rat

/-! # The documented keywords

What the keywords of an input schema mean, and what of it the validator checks. A bound is compared
with integers only, a maximal length of zero counts as none, the maximal number of items is not
looked at, and a truth value is found among the numbers that are allowed.
-/

namespace DomainRag

namespace Value

mutual

/-- Equality of JSON values, where truth values are no numbers. -/
def same : Value → Value → Bool
  | bool a, bool b => a = b
  | bool _, _ => false
  | _, bool _ => false
  | list vs, list ws => sameList vs ws
  | dict kvs, dict kws => kvs.length = kws.length && sameEntries kvs kws
  | v, w => eq v w

def sameList : List Value → List Value → Bool
  | [], [] => true
  | v :: vs, w :: ws => same v w && sameList vs ws
  | _, _ => false

def sameEntries : List (String × Value) → List (String × Value) → Bool
  | [], _ => true
  | (k, v) :: kvs, kws => (match kws.lookup k with
      | some w => same v w
      | none => false) && sameEntries kvs kws

end

mutual

theorem eq_of_same : ∀ v w : Value, same v w = true → eq v w = true
  | bool a, w, h => by
    cases w with
    | bool b =>
      have hab : a = b := by simpa [same] using h
      simp [eq, num?, hab]
    | _ => simp [same] at h
  | list vs, w, h => by
    cases w with
    | list ws =>
      rw [same] at h
      rw [eq]
      exact eqList_of_same vs ws h
    | bool b => simp [same] at h
    | _ => simpa [same] using h
  | dict kvs, w, h => by
    cases w with
    | dict kws =>
      rw [same, Bool.and_eq_true] at h
      rw [eq, Bool.and_eq_true]
      exact ⟨h.1, eqEntries_of_same kvs kws h.2⟩
    | bool b => simp [same] at h
    | _ => simpa [same] using h
  | null, w, h => by cases w <;> simp_all [same]
  | int n, w, h => by cases w <;> simp_all [same]
  | float q, w, h => by cases w <;> simp_all [same]
  | str s, w, h => by cases w <;> simp_all [same]

theorem eqList_of_same : ∀ vs ws : List Value, sameList vs ws = true → eqList vs ws = true
  | [], ws, h => by
    cases ws with
    | nil => rfl
    | cons w ws => simp [sameList] at h
  | v :: vs, ws, h => by
    cases ws with
    | nil => simp [sameList] at h
    | cons w ws =>
      rw [sameList, Bool.and_eq_true] at h
      rw [eqList, Bool.and_eq_true]
      exact ⟨eq_of_same v w h.1, eqList_of_same vs ws h.2⟩

theorem eqEntries_of_same : ∀ kvs kws : List (String × Value),
    sameEntries kvs kws = true → eqEntries kvs kws = true
  | [], _, _ => by rw [eqEntries]
  | (k, v) :: kvs, kws, h => by
    rw [sameEntries, Bool.and_eq_true] at h
    rw [eqEntries, Bool.and_eq_true]
    refine ⟨?_, eqEntries_of_same kvs kws h.2⟩
    cases hk : kws.lookup k with
    | none => simp [hk] at h
    | some w =>
      rw [hk] at h
      exact eq_of_same v w h.1

end

end Value

namespace InputSchema

section Keywords

inductive JsonType where
  | string
  | integer
  | number
  | boolean
  | array
  | object
  | null
  deriving DecidableEq

def JsonType.name : JsonType → String
  | string => "string"
  | integer => "integer"
  | number => "number"
  | boolean => "boolean"
  | array => "array"
  | object => "object"
  | null => "null"

def JsonType.has : JsonType → Value → Bool
  | string, .str _ | integer, .int _ | number, .int _ | number, .float _ | boolean, .bool _
  | array, .list _ | object, .dict _ | null, .null => true
  | _, _ => false

/-- A type or a union of types. -/
inductive TypeSpec where
  | one (type : JsonType)
  | union (first : JsonType) (rest : List JsonType)

def TypeSpec.types : TypeSpec → List JsonType
  | one type => [type]
  | union first rest => first :: rest

def TypeSpec.value : TypeSpec → Value
  | one type => .str type.name
  | union first rest => .list ((first :: rest).map fun t => .str t.name)

inductive Bound where
  | int (n : Int)
  | float (q : Rat)

def Bound.value : Bound → Value
  | int n => .int n
  | float q => .float q

def Bound.rat : Bound → Rat
  | int n => n
  | float q => q

inductive Format where
  | date
  | dateTime
  | email

def Format.name : Format → String
  | date => "date"
  | dateTime => "date-time"
  | email => "email"

def Format.Holds (lib : Library) (value : String) : Format → Prop
  | date => lib.date value = true
  | dateTime => lib.datetime (replaceZ value) = true
  | email => '@' ∈ value.toList ∧ '.' ∈ afterFirst '@' value

/-- A limit, in snake case or in camel case. -/
inductive Limit where
  | snake (n : Int)
  | camel (n : Int)

def Limit.int : Limit → Int
  | snake n => n
  | camel n => n

def Limit.inSnake : Limit → Option Value
  | snake n => some (.int n)
  | camel _ => none

def Limit.inCamel : Limit → Option Value
  | snake _ => none
  | camel n => some (.int n)

/-- The keywords of a field, apart from the schema of its items. -/
structure Keywords where
  type : Option TypeSpec := none
  enum : Option (List Value) := none
  pattern : Option String := none
  minimum : Option Bound := none
  maximum : Option Bound := none
  minLength : Option Limit := none
  maxLength : Option Limit := none
  format : Option Format := none
  minItems : Option Limit := none
  maxItems : Option Limit := none

inductive FieldSchema where
  | plain (keywords : Keywords)
  | array (keywords : Keywords) (items : FieldSchema)

/-- A limit is in a definition in its spelling only. -/
structure LimitAs (limit : Option Limit) (fdef : List (String × Value)) (snake camel : String) :
    Prop where
  snake : fdef.lookup snake = limit.bind Limit.inSnake
  camel : fdef.lookup camel = limit.bind Limit.inCamel

/-- A definition in a schema file has these keywords. What else is in it does not matter. -/
structure Keywords.WrittenAs (kw : Keywords) (lib : Library) (fdef : List (String × Value)) :
    Prop where
  type : fdef.lookup "type" = kw.type.map TypeSpec.value
  enum : fdef.lookup "enum" = kw.enum.map .list
  pattern : fdef.lookup "pattern" = kw.pattern.map .str
  regex : ∀ p, kw.pattern = some p → ∀ s, Returns (lib.search (.str p) s)
  minimum : fdef.lookup "minimum" = kw.minimum.map Bound.value
  maximum : fdef.lookup "maximum" = kw.maximum.map Bound.value
  minLength : LimitAs kw.minLength fdef "min_length" "minLength"
  maxLength : LimitAs kw.maxLength fdef "max_length" "maxLength"
  format : fdef.lookup "format" = kw.format.map fun f => .str f.name
  minItems : LimitAs kw.minItems fdef "min_items" "minItems"
  maxItems : LimitAs kw.maxItems fdef "max_items" "maxItems"

inductive FieldSchema.WrittenAs (lib : Library) : FieldSchema → List (String × Value) → Prop
  | plain {kw fdef} : kw.WrittenAs lib fdef → fdef.lookup "items" = none →
    WrittenAs lib (.plain kw) fdef
  | array {kw items fdef itemsDef} : kw.WrittenAs lib fdef →
    fdef.lookup "items" = some (.dict itemsDef) → WrittenAs lib items itemsDef →
    WrittenAs lib (.array kw items) fdef

end Keywords

section Meaning

variable (lib : Library)

/-- What the keywords mean. -/
structure Keywords.Holds (kw : Keywords) (value : Value) : Prop where
  type : ∀ spec, kw.type = some spec → ∃ t ∈ spec.types, t.has value = true
  enum : ∀ allowed, kw.enum = some allowed → ∃ w ∈ allowed, value.same w = true
  pattern : ∀ p s, kw.pattern = some p → value = .str s → lib.search (.str p) s = .ok true
  minimum : ∀ b q, kw.minimum = some b → value.number? = some q → b.rat ≤ q
  maximum : ∀ b q, kw.maximum = some b → value.number? = some q → q ≤ b.rat
  minLength : ∀ m s, kw.minLength = some m → value = .str s → m.int ≤ s.toList.length
  maxLength : ∀ m s, kw.maxLength = some m → value = .str s → (s.toList.length : Int) ≤ m.int
  format : ∀ f s, kw.format = some f → value = .str s → f.Holds lib s
  minItems : ∀ m vs, kw.minItems = some m → value = .list vs → m.int ≤ vs.length
  maxItems : ∀ m vs, kw.maxItems = some m → value = .list vs → (vs.length : Int) ≤ m.int

/-- What the validator checks of the keywords. -/
structure Keywords.Checked (kw : Keywords) (value : Value) : Prop where
  type : ∀ spec, kw.type = some spec → ∃ t ∈ spec.types, t.has value = true
  enum : ∀ allowed, kw.enum = some allowed → value.mem allowed = true
  pattern : ∀ p s, kw.pattern = some p → value = .str s → lib.search (.str p) s = .ok true
  minimum : ∀ b n, kw.minimum = some b → value = .int n → b.rat ≤ n
  maximum : ∀ b n, kw.maximum = some b → value = .int n → (n : Rat) ≤ b.rat
  minLength : ∀ m s, kw.minLength = some m → value = .str s → m.int ≤ s.toList.length
  maxLength : ∀ m s, kw.maxLength = some m → m ≠ .snake 0 → value = .str s →
    (s.toList.length : Int) ≤ m.int
  format : ∀ f s, kw.format = some f → value = .str s → f.Holds lib s
  minItems : ∀ m vs, kw.minItems = some m → value = .list vs → m.int ≤ vs.length

/-- What else the keywords mean. -/
structure Keywords.Unchecked (kw : Keywords) (value : Value) : Prop where
  enum : ∀ allowed, kw.enum = some allowed → ∃ w ∈ allowed, value.same w = true
  minimum : ∀ b q, kw.minimum = some b → value = .float q → b.rat ≤ q
  maximum : ∀ b q, kw.maximum = some b → value = .float q → q ≤ b.rat
  maxLength : ∀ s, kw.maxLength = some (.snake 0) → value = .str s → s = ""
  maxItems : ∀ m vs, kw.maxItems = some m → value = .list vs → (vs.length : Int) ≤ m.int

variable {lib}

theorem Keywords.holds_iff {kw : Keywords} {value : Value} :
    kw.Holds lib value ↔ kw.Checked lib value ∧ kw.Unchecked value := by
  constructor
  · intro h
    refine ⟨⟨h.type, ?_, h.pattern, ?_, ?_, h.minLength, fun m s hm _ => h.maxLength m s hm,
      h.format, h.minItems⟩, ⟨h.enum, ?_, ?_, ?_, h.maxItems⟩⟩
    · intro allowed hallowed
      obtain ⟨w, hw, hsame⟩ := h.enum allowed hallowed
      exact List.any_eq_true.mpr ⟨w, hw, Value.eq_of_same value w hsame⟩
    · rintro b n hb rfl
      exact h.minimum b n hb rfl
    · rintro b n hb rfl
      exact h.maximum b n hb rfl
    · rintro b q hb rfl
      exact h.minimum b q hb rfl
    · rintro b q hb rfl
      exact h.maximum b q hb rfl
    · rintro s hzero rfl
      have hle := h.maxLength (.snake 0) s hzero rfl
      have hlength : s.toList.length = 0 := by
        simp only [Limit.int] at hle
        omega
      rwa [List.length_eq_zero_iff, String.toList_eq_nil_iff] at hlength
  · rintro ⟨hchecked, hunchecked⟩
    refine ⟨hchecked.type, hunchecked.enum, hchecked.pattern, ?_, ?_, hchecked.minLength, ?_,
      hchecked.format, hchecked.minItems, hunchecked.maxItems⟩
    · intro b q hb hq
      cases value with
      | int n =>
        cases hq
        exact hchecked.minimum b n hb rfl
      | float r =>
        cases hq
        exact hunchecked.minimum b _ hb rfl
      | _ => cases hq
    · intro b q hb hq
      cases value with
      | int n =>
        cases hq
        exact hchecked.maximum b n hb rfl
      | float r =>
        cases hq
        exact hunchecked.maximum b _ hb rfl
      | _ => cases hq
    · intro m s hm hs
      by_cases hzero : m = .snake 0
      · subst hzero
        rw [hunchecked.maxLength s hm hs]
        rfl
      · exact hchecked.maxLength m s hm hzero hs

namespace FieldSchema

variable (lib)

def Holds : FieldSchema → Value → Prop
  | plain kw, value => kw.Holds lib value
  | array kw items, value => kw.Holds lib value ∧ ∀ vs, value = .list vs → ∀ w ∈ vs, items.Holds w

def Checked : FieldSchema → Value → Prop
  | plain kw, value => kw.Checked lib value
  | array kw items, value =>
    kw.Checked lib value ∧ ∀ vs, value = .list vs → ∀ w ∈ vs, items.Checked w

def Unchecked : FieldSchema → Value → Prop
  | plain kw, value => kw.Unchecked value
  | array kw items, value =>
    kw.Unchecked value ∧ ∀ vs, value = .list vs → ∀ w ∈ vs, items.Unchecked w

variable {lib}

theorem holds_iff {schema : FieldSchema} {value : Value} :
    schema.Holds lib value ↔ schema.Checked lib value ∧ schema.Unchecked value := by
  induction schema generalizing value with
  | plain kw => exact kw.holds_iff
  | array kw items ih =>
    rw [Holds, Checked, Unchecked, kw.holds_iff]
    simp only [ih]
    constructor
    · rintro ⟨⟨hchecked, hunchecked⟩, hitems⟩
      exact ⟨⟨hchecked, fun vs hvs w hw => (hitems vs hvs w hw).1⟩,
        hunchecked, fun vs hvs w hw => (hitems vs hvs w hw).2⟩
    · rintro ⟨⟨hchecked, hitems⟩, hunchecked, hitems'⟩
      exact ⟨⟨hchecked, hunchecked⟩, fun vs hvs w hw => ⟨hitems vs hvs w hw, hitems' vs hvs w hw⟩⟩

end FieldSchema

end Meaning

section Reports

variable {lib : Library} {fname path : String} {fdef : List (String × Value)} {kw : Keywords}
  {value : Value} {N : FieldError → Prop} {P Q : Prop} {x y : Except Exc (List FieldError)}

/-- A check returns, with errors of a kind, and with none exactly if `P` holds. -/
def Reports (N : FieldError → Prop) (x : Except Exc (List FieldError)) (P : Prop) : Prop :=
  ∃ es, x = .ok es ∧ (es = [] ↔ P) ∧ ∀ e ∈ es, N e

theorem Reports.of_empty (h : P) : Reports N (.ok []) P :=
  ⟨[], rfl, iff_of_true rfl h, List.forall_mem_nil _⟩

theorem Reports.of_error {e : FieldError} (h : ¬ P) (he : N e) : Reports N (.ok [e]) P :=
  ⟨[e], rfl, iff_of_false (List.cons_ne_nil _ _) h, List.forall_mem_singleton.mpr he⟩

theorem Reports.congr (h : Reports N x P) (hPQ : P ↔ Q) : Reports N x Q := by
  obtain ⟨es, hx, hnil, hN⟩ := h
  exact ⟨es, hx, hnil.trans hPQ, hN⟩

theorem Reports.imp {N' : FieldError → Prop} (h : Reports N x P) (hN : ∀ e, N e → N' e) :
    Reports N' x P := by
  obtain ⟨es, hx, hnil, hes⟩ := h
  exact ⟨es, hx, hnil, fun e he => hN e (hes e he)⟩

theorem Reports.append (hx : Reports N x P) (hy : Reports N y Q) :
    Reports N (do return (← x) ++ (← y)) (P ∧ Q) := by
  obtain ⟨es, rfl, hes, hN⟩ := hx
  obtain ⟨es', rfl, hes', hN'⟩ := hy
  refine ⟨es ++ es', rfl, ?_, List.forall_mem_append.mpr ⟨hN, hN'⟩⟩
  rw [List.append_eq_nil_iff, hes, hes']

/-- The error is at a path. -/
def At (path : String) (e : FieldError) : Prop := e.path = path

theorem typeMatch_value (value : Value) (spec : TypeSpec) :
    typeMatch value spec.value = true ↔ ∃ t ∈ spec.types, t.has value = true := by
  have hone : ∀ t : JsonType, typeMatch value (.str t.name) = t.has value := by
    intro t
    cases t <;> cases value <;> rfl
  have hany : ∀ ts : List JsonType, typeMatchAny value (ts.map fun t => .str t.name) = true ↔
      ∃ t ∈ ts, t.has value = true := by
    intro ts
    induction ts with
    | nil => simp [typeMatchAny]
    | cons t ts ih =>
      have hnull : ((Value.str t.name).eq (.str "null") && value.typeName = "NoneType") = true →
          t.has value = true := by
        cases t <;> cases value <;> simp [Value.eq, JsonType.name, JsonType.has, Value.typeName]
      rw [List.map_cons, typeMatchAny, Bool.or_eq_true, Bool.or_eq_true, hone, ih]
      simp only [List.mem_cons, exists_eq_or_imp]
      tauto
  cases spec with
  | one t => simp [TypeSpec.value, TypeSpec.types, hone]
  | union first rest => exact hany (first :: rest)

/-- A value of the wrong type has that error only. -/
theorem Keywords.WrittenAs.ofType (h : kw.WrittenAs lib fdef)
    (hx : (∀ spec, kw.type = some spec → ∃ t ∈ spec.types, t.has value = true) →
      Reports N x P)
    (hN : ∀ e, At s!"metadata.{fname}" e → N e) :
    Reports N (InputSchema.ofType lib fname fdef value x)
      ((∀ spec, kw.type = some spec → ∃ t ∈ spec.types, t.has value = true) ∧ P) := by
  have htype : keyword fdef "type" = (kw.type.map TypeSpec.value).getD .null := by
    rw [keyword, h.type]
  rw [InputSchema.ofType, typeErrors, htype]
  cases hspec : kw.type with
  | none =>
    refine (hx (by simp [hspec])).congr ?_
    simp
  | some spec =>
    have htruthy : spec.value.truthy = true := by
      cases spec with
      | one t => cases t <;> rfl
      | union first rest => rfl
    have hmatch := typeMatch_value value spec
    simp only [Option.map_some, Option.getD_some, htruthy, Bool.true_and, Option.some.injEq,
      forall_eq']
    cases hb : typeMatch value spec.value with
    | true =>
      have hhas := hmatch.mp hb
      refine (hx (by simpa [hspec] using hhas)).congr ?_
      rw [and_iff_right hhas]
    | false =>
      refine Reports.of_error (fun hand => ?_) (hN _ rfl)
      rw [← hmatch, hb] at hand
      cases hand.1

theorem Keywords.WrittenAs.reports_enum (h : kw.WrittenAs lib fdef) (path : String)
    (value : Value) :
    Reports (At path) (enumErrors lib path fdef value)
      (∀ allowed, kw.enum = some allowed → value.mem allowed = true) := by
  rw [enumErrors, h.enum]
  cases henum : kw.enum with
  | none => exact Reports.of_empty nofun
  | some allowed =>
    cases hmem : value.mem allowed with
    | true =>
      simp only [Option.map_some, Value.containedIn, hmem]
      exact Reports.of_empty fun allowed' h => by rwa [← Option.some.inj h]
    | false =>
      simp only [Option.map_some, Value.containedIn, hmem]
      refine Reports.of_error (fun hall => ?_) rfl
      rw [hall allowed rfl] at hmem
      cases hmem

theorem Keywords.WrittenAs.reports_pattern (h : kw.WrittenAs lib fdef) (path : String)
    (s : String) :
    Reports (At path) (patternErrors lib path fdef s)
      (∀ p, kw.pattern = some p → lib.search (.str p) s = .ok true) := by
  rw [patternErrors, h.pattern]
  cases hpattern : kw.pattern with
  | none => exact Reports.of_empty nofun
  | some p =>
    obtain ⟨found, hfound⟩ := h.regex p hpattern s
    cases found with
    | true =>
      simp only [Option.map_some, hfound]
      exact Reports.of_empty fun p' h => by rwa [← Option.some.inj h]
    | false =>
      simp only [Option.map_some, hfound]
      refine Reports.of_error (fun hall => ?_) rfl
      have htrue := hall p rfl
      rw [hfound] at htrue
      cases htrue

/-- The comparison of a number with a bound that is a number. -/
theorem reports_bound {sign : String} {bad : Ordering} {error : FieldError} {n : Int}
    {bound : Value} {q : Rat} (hq : bound.num? = some q) (herror : error.path = path) :
    Reports (At path) (boundErrors sign bad n bound error)
      (compareOfLessAndEq (n : Rat) q ≠ bad) := by
  have hcompare : Value.compare sign (.int n) bound = .ok (compareOfLessAndEq (n : Rat) q) := by
    cases bound <;> simp_all [Value.compare, Value.num?]
  have hbound : boundErrors sign bad n bound error =
      .ok (if compareOfLessAndEq (n : Rat) q = bad then [error] else []) := by
    cases bound with
    | null => cases hq
    | _ =>
      simp only [boundErrors, hcompare]
      rfl
  rw [hbound]
  split
  case isTrue hbad => exact Reports.of_error (not_not.mpr hbad) herror
  case isFalse hbad => exact Reports.of_empty hbad

theorem compare_ne_lt {p q : Rat} : compareOfLessAndEq p q ≠ .lt ↔ q ≤ p := by
  rw [Ne, compareOfLessAndEq_eq_lt, not_lt]

theorem compare_ne_gt {p q : Rat} : compareOfLessAndEq p q ≠ .gt ↔ p ≤ q := by
  rw [compareOfLessAndEq]
  split
  case isTrue hlt => exact iff_of_true nofun hlt.le
  case isFalse hle =>
    split
    case isTrue heq => exact iff_of_true nofun heq.le
    case isFalse hne =>
      exact iff_of_false (not_not.mpr rfl) fun hpq => hne (le_antisymm hpq (not_lt.mp hle))

theorem reports_bound_null {sign : String} {bad : Ordering} {error : FieldError} {n : Int}
    (h : P) : Reports N (boundErrors sign bad n .null error) P :=
  Reports.of_empty h

theorem Bound.num?_value (b : Bound) : b.value.num? = some b.rat := by
  cases b <;> rfl

theorem Keywords.WrittenAs.reports_range (h : kw.WrittenAs lib fdef) (path : String)
    (n : Int) :
    Reports (At path) (rangeErrors lib path fdef n)
      ((∀ b, kw.minimum = some b → b.rat ≤ n) ∧ ∀ b, kw.maximum = some b → (n : Rat) ≤ b.rat) := by
  rw [rangeErrors, keyword, keyword, h.minimum, h.maximum]
  apply Reports.append
  · cases kw.minimum with
    | none => exact reports_bound_null nofun
    | some b =>
      refine (reports_bound b.num?_value rfl).congr ?_
      simp only [compare_ne_lt, Option.some.injEq, forall_eq']
  · cases kw.maximum with
    | none => exact reports_bound_null nofun
    | some b =>
      refine (reports_bound b.num?_value rfl).congr ?_
      simp only [compare_ne_gt, Option.some.injEq, forall_eq']

/-- A limit is compared in both spellings, but for a zero in snake case. -/
theorem LimitAs.reports {limit : Option Limit} {snake camel sign : String} {bad : Ordering}
    {error : FieldError} {n : Int} (h : LimitAs limit fdef snake camel)
    (herror : error.path = path) :
    Reports (At path)
      (boundErrors sign bad n ((keyword fdef snake).orElse (keyword fdef camel)) error)
      (∀ l, limit = some l → l ≠ .snake 0 → compareOfLessAndEq (n : Rat) l.int ≠ bad) := by
  rw [keyword, keyword, h.snake, h.camel]
  cases limit with
  | none => exact reports_bound_null nofun
  | some l =>
    by_cases hzero : l = .snake 0
    · subst hzero
      exact reports_bound_null fun l hl hl' => absurd (Option.some.inj hl).symm hl'
    · have hread : ((Option.bind (some l) Limit.inSnake).getD .null).orElse
          ((Option.bind (some l) Limit.inCamel).getD .null) = .int l.int := by
        cases l with
        | camel m => rfl
        | snake m =>
          have hm : m ≠ 0 := fun hm => hzero (congrArg _ hm)
          simp [Limit.inSnake, Value.orElse, Value.truthy, hm, Limit.int]
      rw [hread]
      refine (reports_bound rfl herror).congr ?_
      simp only [Option.some.injEq, forall_eq', ne_eq, hzero, not_false_eq_true, forall_const]

theorem LimitAs.reports_min {limit : Option Limit} {snake camel : String} {error : FieldError}
    {n : Nat} (h : LimitAs limit fdef snake camel) (herror : error.path = path) :
    Reports (At path)
      (boundErrors "<" .lt n ((keyword fdef snake).orElse (keyword fdef camel)) error)
      (∀ l, limit = some l → l.int ≤ n) := by
  refine (h.reports herror).congr (forall₂_congr fun l _ => ?_)
  rw [compare_ne_lt, Rat.intCast_le_intCast]
  constructor
  · intro hle
    by_cases hzero : l = .snake 0
    · subst hzero
      exact Int.natCast_nonneg n
    · exact hle hzero
  · exact fun hle _ => hle

theorem LimitAs.reports_max {limit : Option Limit} {snake camel : String} {error : FieldError}
    {n : Nat} (h : LimitAs limit fdef snake camel) (herror : error.path = path) :
    Reports (At path)
      (boundErrors ">" .gt n ((keyword fdef snake).orElse (keyword fdef camel)) error)
      (∀ l, limit = some l → l ≠ .snake 0 → (n : Int) ≤ l.int) := by
  refine (h.reports herror).congr (forall₃_congr fun l _ _ => ?_)
  rw [compare_ne_gt, Rat.intCast_le_intCast]

theorem Keywords.WrittenAs.reports_length (h : kw.WrittenAs lib fdef) (path : String)
    (s : String) :
    Reports (At path) (lengthErrors lib path fdef s)
      ((∀ l, kw.minLength = some l → l.int ≤ s.toList.length) ∧
        ∀ l, kw.maxLength = some l → l ≠ .snake 0 → (s.toList.length : Int) ≤ l.int) :=
  (h.minLength.reports_min rfl).append (h.maxLength.reports_max rfl)

theorem formatOk_name (s : String) (f : Format) :
    formatOk lib s (.str f.name) = true ↔ f.Holds lib s := by
  cases f with
  | date => simp [formatOk, Format.Holds, Format.name, Value.eq_str_iff]
  | dateTime => simp [formatOk, Format.Holds, Format.name, Value.mem, Value.eq]
  | email => simp [formatOk, Format.Holds, Format.name, Value.mem, Value.eq]

theorem Keywords.WrittenAs.reports_format (h : kw.WrittenAs lib fdef) (path : String)
    (s : String) :
    Reports (At path) (.ok (formatErrors lib path fdef s))
      (∀ f, kw.format = some f → f.Holds lib s) := by
  rw [formatErrors, keyword, h.format]
  cases kw.format with
  | none => exact Reports.of_empty nofun
  | some f =>
    have htruthy : (Value.str f.name).truthy = true := by
      cases f <;> rfl
    have hok : formatOk lib s (.str f.name) = true ↔ f.Holds lib s := formatOk_name s f
    simp only [Option.map_some, Option.getD_some, htruthy, Bool.true_and, Option.some.injEq,
      forall_eq']
    cases hb : formatOk lib s (.str f.name) with
    | true => exact Reports.of_empty (hok.mp hb)
    | false =>
      refine Reports.of_error (fun hholds => ?_) rfl
      rw [← hok, hb] at hholds
      cases hholds

theorem Keywords.WrittenAs.reports_minItems (h : kw.WrittenAs lib fdef) (path : String)
    (n : Nat) :
    Reports (At path) (minItemsErrors lib path fdef n)
      (∀ l, kw.minItems = some l → l.int ≤ n) :=
  h.minItems.reports_min rfl

/-- The error is at a field, or at a place in its items. -/
def Names (fname : String) (e : FieldError) : Prop :=
  ∃ places : List Nat, e.path = places.foldl (fun path i => s!"{path}[{i}]") s!"metadata.{fname}"

theorem names_of_at {e : FieldError} (h : At s!"metadata.{fname}" e) : Names fname e :=
  ⟨[], h⟩

theorem names_of_item {e : FieldError} {i : Nat} (h : Names s!"{fname}[{i}]" e) :
    Names fname e := by
  obtain ⟨places, hplaces⟩ := h
  refine ⟨i :: places, hplaces.trans ?_⟩
  rw [List.foldl_cons]
  congr 1

theorem Keywords.checked_iff : kw.Checked lib value ↔
    (∀ spec, kw.type = some spec → ∃ t ∈ spec.types, t.has value = true) ∧
    (∀ allowed, kw.enum = some allowed → value.mem allowed = true) ∧
    (∀ n, value = .int n → (∀ b, kw.minimum = some b → b.rat ≤ n) ∧
      ∀ b, kw.maximum = some b → (n : Rat) ≤ b.rat) ∧
    (∀ s, value = .str s → (∀ p, kw.pattern = some p → lib.search (.str p) s = .ok true) ∧
      ((∀ l, kw.minLength = some l → l.int ≤ s.toList.length) ∧
        ∀ l, kw.maxLength = some l → l ≠ .snake 0 → (s.toList.length : Int) ≤ l.int) ∧
      ∀ f, kw.format = some f → f.Holds lib s) ∧
    ∀ vs, value = .list vs → ∀ l, kw.minItems = some l → l.int ≤ vs.length := by
  constructor
  · intro h
    exact ⟨h.type, h.enum,
      fun n hn => ⟨fun b hb => h.minimum b n hb hn, fun b hb => h.maximum b n hb hn⟩,
      fun s hs => ⟨fun p hp => h.pattern p s hp hs,
        ⟨fun l hl => h.minLength l s hl hs, fun l hl hzero => h.maxLength l s hl hzero hs⟩,
        fun f hf => h.format f s hf hs⟩,
      fun vs hvs l hl => h.minItems l vs hl hvs⟩
  · rintro ⟨htype, henum, hint, hstr, hlist⟩
    exact ⟨htype, henum, fun p s hp hs => (hstr s hs).1 p hp,
      fun b n hb hn => (hint n hn).1 b hb, fun b n hb hn => (hint n hn).2 b hb,
      fun l s hl hs => (hstr s hs).2.1.1 l hl, fun l s hl hzero hs => (hstr s hs).2.1.2 l hl hzero,
      fun f s hf hs => (hstr s hs).2.2 f hf, fun l vs hl hvs => hlist vs hvs l hl⟩

/-- The items that a definition has a schema for. -/
def itemErrors (lib : Library) (fname : String) (fdef : List (String × Value)) (vs : List Value) :
    Except Exc (List FieldError) :=
  match keyword fdef "items" with
  | .dict itemsDef => validateItems lib fname itemsDef 0 vs
  | _ => .ok []

theorem Keywords.WrittenAs.reports_str (h : kw.WrittenAs lib fdef) (s : String) :
    Reports (Names fname) (validateField lib fname fdef (.str s)) (kw.Checked lib (.str s)) := by
  rw [validateField]
  refine (h.ofType (P := (∀ allowed, kw.enum = some allowed → (Value.str s).mem allowed = true) ∧
    (∀ p, kw.pattern = some p → lib.search (.str p) s = .ok true) ∧
    ((∀ l, kw.minLength = some l → l.int ≤ s.toList.length) ∧
      ∀ l, kw.maxLength = some l → l ≠ .snake 0 → (s.toList.length : Int) ≤ l.int) ∧
    ∀ f, kw.format = some f → f.Holds lib s) (fun _ => ?_) fun e => names_of_at).congr ?_
  · refine Reports.imp (N := At s!"metadata.{fname}") ?_ fun e => names_of_at
    obtain ⟨es, hes, hesnil, hesat⟩ := h.reports_enum s!"metadata.{fname}" (.str s)
    obtain ⟨ps, hps, hpsnil, hpsat⟩ := h.reports_pattern s!"metadata.{fname}" s
    obtain ⟨ls, hls, hlsnil, hlsat⟩ := h.reports_length s!"metadata.{fname}" s
    obtain ⟨fs, hfs, hfsnil, hfsat⟩ := h.reports_format s!"metadata.{fname}" s
    cases hfs
    dsimp only
    rw [hes, hps, hls]
    refine ⟨_, rfl, ?_, ?_⟩
    · simp only [List.append_eq_nil_iff, hesnil, hpsnil, hlsnil, hfsnil, and_assoc]
    · simp only [List.forall_mem_append]
      exact ⟨⟨⟨hesat, hpsat⟩, hlsat⟩, hfsat⟩
  · simp [Keywords.checked_iff]

theorem Keywords.WrittenAs.reports_int (h : kw.WrittenAs lib fdef) (n : Int) :
    Reports (Names fname) (validateField lib fname fdef (.int n)) (kw.Checked lib (.int n)) := by
  rw [validateField]
  have hrest := ((h.reports_enum s!"metadata.{fname}" (.int n)).append
    (h.reports_range s!"metadata.{fname}" n)).imp fun e => names_of_at
  refine (h.ofType (fun _ => hrest) fun e => names_of_at).congr ?_
  simp [Keywords.checked_iff]

theorem Keywords.WrittenAs.reports_list {Q : Prop} {vs : List Value} (h : kw.WrittenAs lib fdef)
    (hitems : Reports (Names fname) (itemErrors lib fname fdef vs) Q) :
    Reports (Names fname) (validateField lib fname fdef (.list vs))
      (kw.Checked lib (.list vs) ∧ Q) := by
  rw [validateField]
  refine (h.ofType (P := (∀ allowed, kw.enum = some allowed → (Value.list vs).mem allowed = true) ∧
    Q ∧ ∀ l, kw.minItems = some l → l.int ≤ vs.length) (fun _ => ?_) fun e => names_of_at).congr ?_
  · obtain ⟨es, hes, hesnil, hesat⟩ :=
      h.reports_enum s!"metadata.{fname}" (.list vs)
    obtain ⟨is, his, hisnil, hisnames⟩ := hitems
    obtain ⟨ms, hms, hmsnil, hmsat⟩ :=
      h.reports_minItems s!"metadata.{fname}" vs.length
    rw [itemErrors] at his
    dsimp only
    rw [hes, hms]
    dsimp only [bind, Except.bind]
    refine ⟨es ++ is ++ ms, ?_, ?_, ?_⟩
    · cases hk : keyword fdef "items" with
      | dict itemsDef =>
        rw [hk] at his
        dsimp only at his ⊢
        rw [his]
        rfl
      | _ =>
        rw [hk] at his
        cases his
        rfl
    · simp only [List.append_eq_nil_iff, hesnil, hisnil, hmsnil, and_assoc]
    · simp only [List.forall_mem_append]
      exact ⟨⟨fun e he => names_of_at (hesat e he), hisnames⟩, fun e he => names_of_at (hmsat e he)⟩
  · simp only [Keywords.checked_iff]
    simp
    tauto

/-- The keywords of a value are checked by its kind. -/
theorem Keywords.WrittenAs.reports {Q : List Value → Prop} (h : kw.WrittenAs lib fdef)
    (hitems : ∀ vs, Reports (Names fname) (itemErrors lib fname fdef vs) (Q vs)) :
    Reports (Names fname) (validateField lib fname fdef value)
      (kw.Checked lib value ∧ ∀ vs, value = .list vs → Q vs) := by
  have henum := (h.reports_enum s!"metadata.{fname}" value).imp fun e => names_of_at
  cases value with
  | str s => exact (h.reports_str s).congr (by simp)
  | int n => exact (h.reports_int n).congr (by simp)
  | list vs => exact (h.reports_list (hitems vs)).congr (by simp)
  | _ =>
    rw [validateField]
    · exact (h.ofType (fun _ => henum) fun e => names_of_at).congr (by simp [Keywords.checked_iff])
    all_goals rintro _ ⟨⟩

theorem reports_items {itemsDef : List (String × Value)} {items : FieldSchema}
    (hitem : ∀ fname value,
      Reports (Names fname) (validateField lib fname itemsDef value) (items.Checked lib value))
    (vs : List Value) (i : Nat) :
    Reports (Names fname) (validateItems lib fname itemsDef i vs)
      (∀ w ∈ vs, items.Checked lib w) := by
  induction vs generalizing i with
  | nil =>
    rw [validateItems]
    exact Reports.of_empty (List.forall_mem_nil _)
  | cons value vs ih =>
    rw [validateItems]
    have hvalue := (hitem s!"{fname}[{i}]" value).imp fun e => names_of_item
    exact (hvalue.append (ih (i + 1))).congr List.forall_mem_cons.symm

theorem FieldSchema.WrittenAs.reports {schema : FieldSchema} (h : schema.WrittenAs lib fdef)
    (fname : String) (value : Value) :
    Reports (Names fname) (validateField lib fname fdef value) (schema.Checked lib value) := by
  induction h generalizing fname value with
  | @plain kw fdef hkw hitems =>
    refine (hkw.reports (Q := fun _ => True) fun vs => ?_).congr ?_
    · rw [itemErrors, keyword, hitems]
      exact Reports.of_empty trivial
    · simp [Checked]
  | @array kw items fdef itemsDef hkw hitems _ ih =>
    refine hkw.reports fun vs => ?_
    rw [itemErrors, keyword, hitems]
    exact reports_items ih vs 0

end Reports

section Service

/-- What the fields of a schema are, by name. -/
def Documents (lib : Library) (schema : InputTypeSchema) (doc : String → Option FieldSchema) :
    Prop :=
  ∀ k, match doc k with
    | some s => ∃ fdef, schema.fields.get? k = some (.dict fdef) ∧ s.WrittenAs lib fdef
    | none => schema.fields.get? k = none

/-- Null and the empty text are no values of a field. -/
def present? (entry : Option Value) : Option Value :=
  entry.filter fun value => !value.mem [.null, .str ""]

/-- Every keyword holds for a field, which is there if it is required. -/
structure FieldHolds (lib : Library) (required : List String) (doc : String → Option FieldSchema)
    (k : String) (entry : Option Value) : Prop where
  required : k ∈ required → missing entry = false
  holds : ∀ s value, doc k = some s → present? entry = some value → s.Holds lib value

/-- An error that a field has by itself. -/
inductive ErrorOf (lib : Library) (schema : InputTypeSchema) (metadata : Dict String Value)
    (k : String) (e : FieldError) : Prop
  | missing : k ∈ schema.required → e ∈ requiredErrors { required := [k] } metadata →
    ErrorOf lib schema metadata k e
  | keyword {fdef es} : schema.fields.get? k = some fdef →
    checkField lib k fdef (metadata.get? k) = .ok es → e ∈ es → ErrorOf lib schema metadata k e

/-- The metadata are accepted if every keyword holds, and otherwise every field that violates one
has an error of its own in the report, at its path. -/
structure Implements (svc : InputSchemaService) (domainId inputType : String)
    (schema : InputTypeSchema) (doc : String → Option FieldSchema) (metadata : Dict String Value) :
    Prop where
  accepts : svc.validate domainId (.str inputType) metadata = .ok () ↔
    ∀ k, FieldHolds svc.lib schema.required doc k (metadata.get? k)
  reports : (¬ ∀ k, FieldHolds svc.lib schema.required doc k (metadata.get? k)) →
    ∃ es, errors svc.lib schema metadata = .ok es ∧
      svc.validate domainId (.str inputType) metadata = .error (validationError es) ∧
      ∀ k, ¬ FieldHolds svc.lib schema.required doc k (metadata.get? k) →
        ∃ e ∈ es, ErrorOf svc.lib schema metadata k e ∧ Names k e

/-- What the validator checks of a field. -/
structure FieldChecked (lib : Library) (required : List String) (doc : String → Option FieldSchema)
    (k : String) (entry : Option Value) : Prop where
  required : k ∈ required → missing entry = false
  checked : ∀ s value, doc k = some s → present? entry = some value → s.Checked lib value

variable {svc : InputSchemaService} {lib : Library} {schema : InputTypeSchema}
  {doc : String → Option FieldSchema} {metadata : Dict String Value} {k : String}
  {entry : Option Value}

theorem fieldHolds_iff {required : List String} : FieldHolds lib required doc k entry ↔
    FieldChecked lib required doc k entry ∧
      ∀ s value, doc k = some s → present? entry = some value → s.Unchecked value := by
  constructor
  · rintro ⟨hrequired, hholds⟩
    exact ⟨⟨hrequired, fun s value hs hv => (FieldSchema.holds_iff.mp (hholds s value hs hv)).1⟩,
      fun s value hs hv => (FieldSchema.holds_iff.mp (hholds s value hs hv)).2⟩
  · rintro ⟨⟨hrequired, hchecked⟩, hunchecked⟩
    exact ⟨hrequired, fun s value hs hv =>
      FieldSchema.holds_iff.mpr ⟨hchecked s value hs hv, hunchecked s value hs hv⟩⟩

theorem Documents.reports_field (hdoc : Documents lib schema doc) {fdef : Value}
    (hfdef : schema.fields.get? k = some fdef) (entry : Option Value) :
    Reports (Names k) (checkField lib k fdef entry)
      (∀ s value, doc k = some s → present? entry = some value → s.Checked lib value) := by
  have hk := hdoc k
  cases hs : doc k with
  | none =>
    rw [hs] at hk
    rw [hk] at hfdef
    cases hfdef
  | some s =>
    rw [hs] at hk
    obtain ⟨kvs, hkvs, hwritten⟩ := hk
    cases hkvs.symm.trans hfdef
    cases entry with
    | none => exact Reports.of_empty nofun
    | some value =>
      rw [checkField, present?, Option.filter_some]
      cases hmem : value.mem [.null, .str ""] with
      | true => exact Reports.of_empty nofun
      | false =>
        refine (hwritten.reports k value).congr ?_
        simp

theorem Documents.accepts_iff (hdoc : Documents lib schema doc) :
    Accepts lib schema k entry ↔ FieldChecked lib schema.required doc k entry := by
  constructor
  · rintro ⟨hpresent, hchecked⟩
    refine ⟨hpresent, fun s value hs hv => ?_⟩
    have hk := hdoc k
    rw [hs] at hk
    obtain ⟨kvs, hkvs, _⟩ := hk
    obtain ⟨es, hes, hnil, _⟩ := hdoc.reports_field hkvs entry
    rw [hchecked _ hkvs] at hes
    exact hnil.mp (Except.ok.inj hes).symm s value hs hv
  · rintro ⟨hrequired, hchecked⟩
    refine ⟨hrequired, fun fdef hfdef => ?_⟩
    obtain ⟨es, hes, hnil, _⟩ := hdoc.reports_field hfdef entry
    rw [hes, hnil.mpr hchecked]

/-- The validator returns its errors, of which every field that fails a check has one. -/
theorem Documents.errors_eq_ok (hdoc : Documents lib schema doc) (metadata : Dict String Value) :
    ∃ es, errors lib schema metadata = .ok es ∧
      ∀ k, ¬ FieldChecked lib schema.required doc k (metadata.get? k) →
        ∃ e ∈ es, ErrorOf lib schema metadata k e ∧ Names k e := by
  have hreturns : Returns (schema.fields.entries.mapM
      fun e => checkField lib e.1 e.2 (metadata.get? e.1)) := by
    rw [returns_mapM_iff]
    rintro ⟨k, fdef⟩ hmem
    obtain ⟨es, hes, _⟩ :=
      hdoc.reports_field (Dict.get?_eq_some_iff.mpr hmem) (metadata.get? k)
    exact ⟨es, hes⟩
  obtain ⟨found, hfound⟩ := hreturns
  refine ⟨_, Except.bind_eq_ok_iff.mpr ⟨found, hfound, rfl⟩, fun k hk => ?_⟩
  by_cases hrequired : k ∈ schema.required → missing (metadata.get? k) = false
  · have hunchecked : ¬ ∀ s value, doc k = some s →
        present? (metadata.get? k) = some value → s.Checked lib value :=
      fun hall => hk ⟨hrequired, hall⟩
    cases hfdef : schema.fields.get? k with
    | none =>
      refine absurd (fun s value hs _ => ?_) hunchecked
      have hk := hdoc k
      rw [hs, hfdef] at hk
      obtain ⟨_, hnone, _⟩ := hk
      cases hnone
    | some fdef =>
      obtain ⟨es, hes, hnil, hnames⟩ := hdoc.reports_field hfdef (metadata.get? k)
      obtain ⟨e, he⟩ := List.exists_mem_of_ne_nil es fun h => hunchecked (hnil.mp h)
      obtain ⟨es', hes', hcheck⟩ := exists_of_mem_forall₂ (mapM_eq_ok_iff.mp hfound)
        (Dict.get?_eq_some_iff.mp hfdef)
      cases hes.symm.trans hcheck
      exact ⟨e, List.mem_append_right _ (List.mem_flatten_of_mem hes' he), .keyword hfdef hes he,
        hnames e he⟩
  · rw [Classical.not_imp, Bool.not_eq_false] at hrequired
    obtain ⟨hmem, hmissing⟩ := hrequired
    have herror : ∀ required, k ∈ required →
        ⟨s!"metadata.{k}", "missing", s!"필수 필드 누락: {k}"⟩ ∈
          requiredErrors { required } metadata := by
      intro required hk
      refine List.mem_flatMap.mpr ⟨k, hk, ?_⟩
      rw [hmissing]
      exact List.mem_singleton_self _
    exact ⟨_, List.mem_append_left _ (herror schema.required hmem),
      .missing hmem (herror [k] (List.mem_singleton_self k)), names_of_at rfl⟩

theorem ErrorOf.not_checked {e : FieldError} (hdoc : Documents lib schema doc)
    (h : ErrorOf lib schema metadata k e) :
    ¬ FieldChecked lib schema.required doc k (metadata.get? k) := by
  intro hchecked
  cases h with
  | missing hmem he =>
    have hnil : requiredErrors { required := [k] } metadata = [] :=
      requiredErrors_eq_nil_iff.mpr
        (List.forall_mem_singleton.mpr (hchecked.required hmem))
    rw [hnil] at he
    cases he
  | keyword hfdef hes he =>
    rw [(hdoc.accepts_iff.mpr hchecked).checked _ hfdef] at hes
    cases hes
    cases he

theorem validate_of_errors {domainId inputType : String} {es : List FieldError}
    (hschema : svc.getSchema domainId (.str inputType) = .ok (some schema))
    (hes : errors svc.lib schema metadata = .ok es) :
    svc.validate domainId (.str inputType) metadata =
      if es.isEmpty then .ok () else .error (validationError es) := by
  rw [InputSchemaService.validate, hschema]
  dsimp only [bind, Except.bind]
  rw [hes]
  · rfl
  · nofun

/-- The documented keywords are implemented for metadata of which every field that passes the checks
satisfies the rest of its keywords too. -/
theorem implements_iff {domainId inputType : String}
    (hschema : svc.getSchema domainId (.str inputType) = .ok (some schema))
    (hdoc : Documents svc.lib schema doc) :
    Implements svc domainId inputType schema doc metadata ↔
      ∀ k s value, doc k = some s → present? (metadata.get? k) = some value →
        (k ∈ schema.required → missing (metadata.get? k) = false) → s.Checked svc.lib value →
        s.Unchecked value := by
  obtain ⟨es, hes, hreported⟩ := hdoc.errors_eq_ok metadata
  have hvalidate := validate_of_errors hschema hes
  have hnil : es = [] ↔ ∀ k, FieldChecked svc.lib schema.required doc k (metadata.get? k) := by
    have hnil : es = [] ↔ errors svc.lib schema metadata = .ok [] := by
      rw [hes, Except.ok.injEq]
    rw [hnil, errors_eq_nil_iff]
    exact forall_congr' fun k => hdoc.accepts_iff
  constructor
  · intro h k s value hs hvalue hrequired hchecked
    have hfield : FieldChecked svc.lib schema.required doc k (metadata.get? k) := by
      refine ⟨hrequired, fun s' value' hs' hvalue' => ?_⟩
      cases hs.symm.trans hs'
      cases hvalue.symm.trans hvalue'
      exact hchecked
    by_contra hunchecked
    have hviolated : ¬ FieldHolds svc.lib schema.required doc k (metadata.get? k) :=
      fun hholds => hunchecked ((fieldHolds_iff.mp hholds).2 s value hs hvalue)
    obtain ⟨_, _, _, hall⟩ := h.reports fun hholds => hviolated (hholds k)
    obtain ⟨e, _, herror, _⟩ := hall k hviolated
    exact herror.not_checked hdoc hfield
  · intro hcond
    have hholds : ∀ k, FieldHolds svc.lib schema.required doc k (metadata.get? k) ↔
        FieldChecked svc.lib schema.required doc k (metadata.get? k) := by
      intro k
      rw [fieldHolds_iff, and_iff_left_iff_imp]
      exact fun hchecked s value hs hvalue => hcond k s value hs hvalue hchecked.required
        (hchecked.checked s value hs hvalue)
    refine ⟨?_, fun hnot => ?_⟩
    · simp only [hvalidate, hholds, ← hnil]
      cases es with
      | nil => exact iff_of_true rfl rfl
      | cons e es => exact iff_of_false (by simp) (List.cons_ne_nil e es)
    · simp only [hholds, ← hnil] at hnot
      refine ⟨es, hes, ?_, fun k hk => hreported k fun hchecked => hk ((hholds k).mpr hchecked)⟩
      rw [hvalidate, if_neg (by rwa [List.isEmpty_iff])]

/-- Tags, of which a report has one to three. -/
def tagsSchema : FieldSchema :=
  .array { type := some (.one .array), minItems := some (.snake 1), maxItems := some (.snake 3) }
    (.plain { type := some (.one .string) })

def tagsDef : List (String × Value) :=
  [("type", .str "array"), ("items", .dict [("type", .str "string")]), ("min_items", .int 1),
    ("max_items", .int 3)]

def reportSchema : InputTypeSchema where
  required := ["tags"]
  fields := .ofList [("tags", .dict tagsDef)]

def reportDoc (k : String) : Option FieldSchema := if k = "tags" then some tagsSchema else none

/-- A service with one input type, and no patterns or dates in its schemas. -/
def reportService : InputSchemaService where
  load _ := .ok (.ofList [("report", reportSchema)])
  lib := {
    search := fun _ _ => .error (.typeError "first argument must be string or compiled pattern")
    date := fun _ => false
    datetime := fun _ => false
    repr := Value.typeName }

def tagged (tags : List String) : Dict String Value := .ofList [("tags", .list (tags.map .str))]

theorem documents_report : Documents reportService.lib reportSchema reportDoc := by
  intro k
  by_cases hk : k = "tags"
  · subst hk
    refine ⟨tagsDef, rfl, .array ?_ rfl (.plain ?_ rfl)⟩
    · exact ⟨rfl, rfl, rfl, nofun, rfl, rfl, ⟨rfl, rfl⟩, ⟨rfl, rfl⟩, rfl, ⟨rfl, rfl⟩, ⟨rfl, rfl⟩⟩
    · exact ⟨rfl, rfl, rfl, nofun, rfl, rfl, ⟨rfl, rfl⟩, ⟨rfl, rfl⟩, rfl, ⟨rfl, rfl⟩, ⟨rfl, rfl⟩⟩
  · rw [reportDoc, if_neg hk]
    refine Dict.get?_eq_none_iff.mpr fun hmem => hk ?_
    exact List.mem_singleton.mp hmem

theorem implements_tagged :
    Implements reportService "acme" "report" reportSchema reportDoc (tagged ["보안", "망"]) := by
  apply (implements_iff rfl documents_report).mpr
  intro k s value hs hvalue _ _
  rw [reportDoc, Option.ite_none_right_eq_some] at hs
  obtain ⟨rfl, hs⟩ := hs
  cases hs
  cases hvalue
  refine ⟨⟨nofun, nofun, nofun, nofun, ?_⟩, fun vs _ w _ => ⟨nofun, nofun, nofun, nofun, nofun⟩⟩
  intro m vs hm hvs
  cases hm
  cases hvs
  decide

/-- The number of items has no upper bound. -/
theorem four_tags_accepted :
    ¬ Implements reportService "acme" "report" reportSchema reportDoc
      (tagged ["보안", "망", "서버", "계정"]) := by
  intro h
  have haccepted := h.accepts.mp rfl "tags"
  have hholds := haccepted.holds tagsSchema _ rfl rfl
  exact absurd (hholds.1.maxItems (.snake 3) _ rfl rfl) (by decide)

end Service

end InputSchema

end DomainRag
