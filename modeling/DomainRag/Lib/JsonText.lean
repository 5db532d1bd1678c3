import Mathlib.Data.List.Infix
import Mathlib.Data.List.TakeWhile

/-! # The text of a JSON document

A writer that puts a gap of its choice after a comma and a colon, and a parser that takes any
white space. A number is kept as its text: what it stands for is left to the reader of the
document.
-/

inductive Json where
  | null
  | bool (b : Bool)
  | number (text : List Char)
  | string (s : List Char)
  | array (items : List Json)
  | object (members : List (List Char × Json))
  deriving Repr, Inhabited

namespace Json

/-- Induction on the values that an array and an object hold. -/
@[elab_as_elim, induction_eliminator]
theorem induct {P : Json → Prop} (null : P null) (bool : ∀ b, P (bool b))
    (number : ∀ text, P (number text)) (string : ∀ s, P (string s))
    (array : ∀ items, (∀ item ∈ items, P item) → P (array items))
    (object : ∀ members, (∀ member ∈ members, P member.2) → P (object members)) (v : Json) :
    P v :=
  @Json.rec P (fun items => ∀ item ∈ items, P item)
    (fun members => ∀ member ∈ members, P member.2) (fun member => P member.2)
    null bool number string array object
    (fun _ h => absurd h List.not_mem_nil)
    (fun _ _ hitem hitems => List.forall_mem_cons.mpr ⟨hitem, hitems⟩)
    (fun _ h => absurd h List.not_mem_nil)
    (fun _ _ hmember hmembers => List.forall_mem_cons.mpr ⟨hmember, hmembers⟩)
    (fun _ _ h => h) v

section Strings

/-- How a string writer spells a character. -/
def escape (c : Char) : List Char :=
  if c = '"' then ['\\', '"']
  else if c = '\\' then ['\\', '\\']
  else if c = '\n' then ['\\', 'n']
  else if c = '\r' then ['\\', 'r']
  else if c = '\t' then ['\\', 't']
  else if c = '\x08' then ['\\', 'b']
  else if c = '\x0c' then ['\\', 'f']
  else if c.toNat < 0x20 then
    ['\\', 'u', '0', '0', Nat.digitChar (c.toNat / 16), Nat.digitChar (c.toNat % 16)]
  else [c]

def hexValue? (c : Char) : Option Nat :=
  if '0' ≤ c ∧ c ≤ '9' then some (c.toNat - '0'.toNat)
  else if 'a' ≤ c ∧ c ≤ 'f' then some (c.toNat - 'a'.toNat + 10)
  else if 'A' ≤ c ∧ c ≤ 'F' then some (c.toNat - 'A'.toNat + 10)
  else none

/-- What a scanner inside a string waits for. A code that is one half of a surrogate pair waits
for the other half. -/
inductive Scan where
  | plain
  | escape
  | code (high : Option Nat) (missing value : Nat)
  | pair (high : Nat)
  | pairEscape (high : Nat)
  deriving DecidableEq, Repr

def unescape? (c : Char) : Option Char :=
  if c = '"' ∨ c = '\\' ∨ c = '/' then some c
  else if c = 'n' then some '\n'
  else if c = 'r' then some '\r'
  else if c = 't' then some '\t'
  else if c = 'b' then some '\x08'
  else if c = 'f' then some '\x0c'
  else none

/-- The end of a code. Half a pair is no character. -/
def Scan.finish (high : Option Nat) (value : Nat) : Option (Scan × List Char) :=
  match high with
  | none =>
    if value < 0xD800 ∨ 0xDFFF < value then some (.plain, [Char.ofNat value])
    else if value < 0xDC00 then some (.pair value, [])
    else none
  | some high =>
    if 0xDC00 ≤ value ∧ value ≤ 0xDFFF then
      some (.plain, [Char.ofNat ((high - 0xD800) * 0x400 + (value - 0xDC00) + 0x10000)])
    else none

def Scan.push (state : Scan) (c : Char) : Option (Scan × List Char) :=
  match state with
  | .plain =>
    if c = '\\' then some (.escape, [])
    else if c.toNat < 0x20 then none
    else some (.plain, [c])
  | .escape =>
    if c = 'u' then some (.code none 3 0, [])
    else (unescape? c).map fun c => (.plain, [c])
  | .code high missing value =>
    (hexValue? c).bind fun digit =>
      match missing with
      | 0 => finish high (value * 16 + digit)
      | missing + 1 => some (.code high missing (value * 16 + digit), [])
  | .pair high => if c = '\\' then some (.pairEscape high, []) else none
  | .pairEscape high => if c = 'u' then some (.code (some high) 3 0, []) else none

/-- The rest of a string, up to its closing quote. -/
def scanString : Scan → List Char → Option (List Char × List Char)
  | _, [] => none
  | state, c :: rest =>
    if state = .plain ∧ c = '"' then some ([], rest)
    else (state.push c).bind fun next =>
      (scanString next.1 rest).map fun p => (next.2 ++ p.1, p.2)

theorem hexValue?_digitChar : ∀ digit < 16, hexValue? (Nat.digitChar digit) = some digit := by
  decide

variable {c : Char} {rest : List Char}

theorem scanString_silent {state : Scan} (next : Scan) (h : ¬ (state = .plain ∧ c = '"'))
    (hpush : state.push c = some (next, [])) : scanString state (c :: rest) =
      scanString next rest := by
  rw [scanString, if_neg h, hpush, Option.bind_some]
  exact Option.map_id'

theorem scanString_emit {state next : Scan} {d : Char} (h : ¬ (state = .plain ∧ c = '"'))
    (hpush : state.push c = some (next, [d])) : scanString state (c :: rest) =
      (scanString next rest).map fun p => (d :: p.1, p.2) := by
  rw [scanString, if_neg h, hpush, Option.bind_some]
  rfl

theorem scanString_unescape {d : Char} (hu : d ≠ 'u') (hd : unescape? d = some c) :
    scanString .plain ('\\' :: d :: rest) =
      (scanString .plain rest).map fun p => (c :: p.1, p.2) := by
  rw [scanString_silent .escape (by decide) rfl]
  apply scanString_emit (by simp)
  rw [Scan.push, if_neg hu, hd, Option.map_some]

theorem scanString_control (h : c.toNat < 0x20) :
    scanString .plain ('\\' :: 'u' :: '0' :: '0' :: Nat.digitChar (c.toNat / 16) ::
      Nat.digitChar (c.toNat % 16) :: rest) =
      (scanString .plain rest).map fun p => (c :: p.1, p.2) := by
  have hhigh := hexValue?_digitChar (c.toNat / 16) (by omega)
  have hlow := hexValue?_digitChar (c.toNat % 16) (by omega)
  have hvalue : c.toNat / 16 * 16 + c.toNat % 16 = c.toNat := by omega
  have hplain : c.toNat < 0xD800 ∨ 0xDFFF < c.toNat := by omega
  rw [scanString_silent .escape (by decide) rfl,
    scanString_silent (.code none 3 0) (by simp) rfl,
    scanString_silent (.code none 2 0) (by simp) rfl,
    scanString_silent (.code none 1 0) (by simp) rfl,
    scanString_silent (.code none 0 (c.toNat / 16)) (by simp)]
  · apply scanString_emit (by simp)
    rw [Scan.push, hlow, Option.bind_some]
    simp only [hvalue, Scan.finish, if_pos hplain, Char.ofNat_toNat]
  · rw [Scan.push, hhigh, Option.bind_some]
    simp

theorem scanString_escape (c : Char) (rest : List Char) : scanString .plain (escape c ++ rest) =
    (scanString .plain rest).map fun p => (c :: p.1, p.2) := by
  by_cases hquote : c = '"'
  · subst hquote
    exact scanString_unescape (by decide) rfl
  by_cases hbackslash : c = '\\'
  · subst hbackslash
    exact scanString_unescape (by decide) rfl
  by_cases hn : c = '\n'
  · subst hn
    exact scanString_unescape (by decide) rfl
  by_cases hr : c = '\r'
  · subst hr
    exact scanString_unescape (by decide) rfl
  by_cases ht : c = '\t'
  · subst ht
    exact scanString_unescape (by decide) rfl
  by_cases hb : c = '\x08'
  · subst hb
    exact scanString_unescape (by decide) rfl
  by_cases hf : c = '\x0c'
  · subst hf
    exact scanString_unescape (by decide) rfl
  rw [escape, if_neg hquote, if_neg hbackslash, if_neg hn, if_neg hr, if_neg ht, if_neg hb,
    if_neg hf]
  split
  · rename_i hcontrol
    exact scanString_control hcontrol
  · rename_i hcontrol
    rw [List.singleton_append]
    apply scanString_emit fun h => hquote h.2
    rw [Scan.push, if_neg hbackslash, if_neg hcontrol]

def writeString (s : List Char) : List Char := '"' :: (s.flatMap escape ++ ['"'])

theorem scanString_flatMap (s rest : List Char) :
    scanString .plain (s.flatMap escape ++ '"' :: rest) = some (s, rest) := by
  induction s with
  | nil => rfl
  | cons c s ih => rw [List.flatMap_cons, List.append_assoc, scanString_escape, ih]; rfl

end Strings

section Numbers

def numberChar (c : Char) : Bool :=
  c.isDigit || c = '-' || c = '+' || c = '.' || c = 'e' || c = 'E'

def digits (cs : List Char) : Bool := !cs.isEmpty && cs.all Char.isDigit

def wholeNumber (cs : List Char) : Bool := cs = ['0'] || (digits cs && cs.head? ≠ some '0')

def exponent : List Char → Bool
  | [] => true
  | c :: cs => (c = 'e' || c = 'E') &&
    match cs with
    | '-' :: ds => digits ds
    | '+' :: ds => digits ds
    | ds => digits ds

/-- The grammar of a number. -/
def validNumber (text : List Char) : Bool :=
  let text := if text.head? = some '-' then text.tail else text
  wholeNumber (text.takeWhile Char.isDigit) &&
    match text.dropWhile Char.isDigit with
    | '.' :: rest => digits (rest.takeWhile Char.isDigit) &&
      exponent (rest.dropWhile Char.isDigit)
    | rest => exponent rest

/-- The characters of a number, checked against the grammar. -/
def scanNumber (cs : List Char) : Option (Json × List Char) :=
  if validNumber (cs.takeWhile numberChar) then
    some (.number (cs.takeWhile numberChar), cs.dropWhile numberChar)
  else none

def IsNumber (text : List Char) : Prop := text.all numberChar ∧ validNumber text

instance (text : List Char) : Decidable (IsNumber text) :=
  inferInstanceAs (Decidable (_ ∧ _))

/-- What follows a number in a document. -/
def Ends (rest : List Char) : Prop := rest.takeWhile numberChar = []

variable {text rest : List Char}

theorem scanNumber_append (h : IsNumber text) (hrest : Ends rest) :
    scanNumber (text ++ rest) = some (.number text, rest) := by
  have hall : ∀ c ∈ text, numberChar c := List.all_eq_true.mp h.1
  have htake : (text ++ rest).takeWhile numberChar = text := by
    rw [List.takeWhile_append_of_pos hall, hrest, List.append_nil]
  have hdrop : (text ++ rest).dropWhile numberChar = rest := by
    have hsplit := List.takeWhile_append_dropWhile (p := numberChar) (l := text ++ rest)
    rw [htake] at hsplit
    exact List.append_cancel_left hsplit
  rw [scanNumber, htake, hdrop, if_pos h.2]

theorem IsNumber.ne_nil (h : IsNumber text) : text ≠ [] := by
  rintro rfl
  exact absurd h.2 (by decide)

/-- The text of an integer. -/
def intText (n : Int) : List Char :=
  if n < 0 then '-' :: Nat.toDigits 10 n.natAbs else Nat.toDigits 10 n.natAbs

theorem all_isDigit_toDigits (n : Nat) : ∀ c ∈ Nat.toDigits 10 n, c.isDigit :=
  fun _ hc => Nat.isDigit_of_mem_toDigits (by decide) (by decide) hc

theorem head?_toDigits {n : Nat} (hn : 0 < n) : (Nat.toDigits 10 n).head? ≠ some '0' := by
  induction n using Nat.strongRecOn with
  | ind n ih =>
    by_cases hlt : n < 10
    · rw [Nat.toDigits_of_lt_base hlt, List.head?_cons, ne_eq, Option.some.injEq]
      exact (by decide : ∀ n < 10, 0 < n → Nat.digitChar n ≠ '0') n hlt hn
    · have hdiv : 0 < n / 10 := by omega
      rw [Nat.toDigits_of_base_le (by decide) (by omega), List.head?_append,
        List.head?_eq_some_head Nat.toDigits_ne_nil, Option.some_or,
        ← List.head?_eq_some_head Nat.toDigits_ne_nil]
      exact ih (n / 10) (by omega) hdiv

theorem wholeNumber_toDigits (n : Nat) : wholeNumber (Nat.toDigits 10 n) := by
  cases n with
  | zero => decide
  | succ n =>
    have hdigits : digits (Nat.toDigits 10 (n + 1)) := by
      rw [digits, Bool.and_eq_true, List.all_eq_true]
      refine ⟨?_, all_isDigit_toDigits _⟩
      simp only [List.isEmpty_eq_false_iff.mpr Nat.toDigits_ne_nil, Bool.not_false]
    have hhead := head?_toDigits (Nat.succ_pos n)
    simp only [wholeNumber, hdigits, hhead, ne_eq, not_false_eq_true, decide_true, Bool.and_self,
      Bool.or_true]

theorem validNumber_unsigned {ds : List Char} (hall : ∀ c ∈ ds, c.isDigit) (h : wholeNumber ds)
    (hhead : text = ds ∨ text = '-' :: ds) : validNumber text := by
  have htake : ds.takeWhile Char.isDigit = ds := List.takeWhile_eq_self_iff.mpr hall
  have hdrop : ds.dropWhile Char.isDigit = [] := List.dropWhile_eq_nil_iff.mpr hall
  have hsign : (if text.head? = some '-' then text.tail else text) = ds := by
    rcases hhead with rfl | rfl
    · rw [if_neg]
      intro hminus
      exact absurd (hall '-' (List.mem_of_head? hminus)) (by decide)
    · rfl
  simp only [validNumber, hsign, htake, hdrop, h, exponent, Bool.and_self]

theorem isNumber_intText (n : Int) : IsNumber (intText n) := by
  have hall := all_isDigit_toDigits n.natAbs
  have hchars : ∀ c ∈ Nat.toDigits 10 n.natAbs, numberChar c := by
    intro c hc
    simp only [numberChar, hall c hc, Bool.true_or]
  rw [intText]
  split
  · refine ⟨List.all_eq_true.mpr fun c hc => ?_,
      validNumber_unsigned hall (wholeNumber_toDigits _) (Or.inr rfl)⟩
    rcases List.mem_cons.mp hc with rfl | hc
    · rfl
    · exact hchars c hc
  · exact ⟨List.all_eq_true.mpr hchars,
      validNumber_unsigned hall (wholeNumber_toDigits _) (Or.inl rfl)⟩

end Numbers

section Documents

variable (gap : List Char)

mutual

/-- The text of a value, with a gap after every comma and colon. -/
def write : Json → List Char
  | null => "null".toList
  | bool true => "true".toList
  | bool false => "false".toList
  | number text => text
  | string s => writeString s
  | array [] => "[]".toList
  | array (item :: items) => '[' :: (write item ++ writeItems items)
  | object [] => "{}".toList
  | object (member :: members) =>
    '{' :: (writeString member.1 ++ ':' :: (gap ++ (write member.2 ++ writeMembers members)))

/-- The items after the first one. -/
def writeItems : List Json → List Char
  | [] => [']']
  | item :: items => ',' :: (gap ++ (write item ++ writeItems items))

def writeMembers : List (List Char × Json) → List Char
  | [] => ['}']
  | member :: members => ',' :: (gap ++ (writeString member.1 ++ ':' :: (gap ++
    (write member.2 ++ writeMembers members))))

end

def isSpace (c : Char) : Bool := c = ' ' || c = '\t' || c = '\n' || c = '\r'

def skip (cs : List Char) : List Char := cs.dropWhile isSpace

/-- A literal name or a number. -/
def scanScalar (cs : List Char) : Option (Json × List Char) :=
  if "null".toList <+: cs then some (null, cs.drop 4)
  else if "true".toList <+: cs then some (bool true, cs.drop 4)
  else if "false".toList <+: cs then some (bool false, cs.drop 5)
  else scanNumber cs

/-- A key with its colon. -/
def scanKey (cs : List Char) : Option (List Char × List Char) :=
  match skip cs with
  | '"' :: rest => (scanString .plain rest).bind fun p =>
    match skip p.2 with
    | ':' :: rest => some (p.1, rest)
    | _ => none
  | _ => none

mutual

def scan : Nat → List Char → Option (Json × List Char)
  | 0, _ => none
  | turns + 1, cs =>
    match skip cs with
    | '"' :: rest => (scanString .plain rest).map fun p => (string p.1, p.2)
    | '[' :: rest =>
      match skip rest with
      | ']' :: rest => some (array [], rest)
      | _ => (scanItems turns rest).map fun p => (array p.1, p.2)
    | '{' :: rest =>
      match skip rest with
      | '}' :: rest => some (object [], rest)
      | _ => (scanMembers turns rest).map fun p => (object p.1, p.2)
    | cs => scanScalar cs

def scanItems : Nat → List Char → Option (List Json × List Char)
  | 0, _ => none
  | turns + 1, cs => (scan turns cs).bind fun p =>
    match skip p.2 with
    | ',' :: rest => (scanItems turns rest).map fun q => (p.1 :: q.1, q.2)
    | ']' :: rest => some ([p.1], rest)
    | _ => none

def scanMembers : Nat → List Char → Option (List (List Char × Json) × List Char)
  | 0, _ => none
  | turns + 1, cs => (scanKey cs).bind fun key => (scan turns key.2).bind fun p =>
    match skip p.2 with
    | ',' :: rest => (scanMembers turns rest).map fun q => ((key.1, p.1) :: q.1, q.2)
    | '}' :: rest => some ([(key.1, p.1)], rest)
    | _ => none

end

/-- The value of a document: the nesting is no deeper than the text is long. -/
def parse (text : List Char) : Option Json :=
  (scan (2 * text.length) text).bind fun p => if skip p.2 = [] then some p.1 else none

mutual

/-- The numbers of a value are numbers. -/
def WellFormed : Json → Prop
  | number text => IsNumber text
  | array items => ItemsWellFormed items
  | object members => MembersWellFormed members
  | _ => True

def ItemsWellFormed : List Json → Prop
  | [] => True
  | item :: items => WellFormed item ∧ ItemsWellFormed items

def MembersWellFormed : List (List Char × Json) → Prop
  | [] => True
  | member :: members => WellFormed member.2 ∧ MembersWellFormed members

end

mutual

/-- The turns that a value takes. -/
def size : Json → Nat
  | array items => 1 + itemsSize items
  | object members => 1 + membersSize members
  | _ => 1

def itemsSize : List Json → Nat
  | [] => 0
  | item :: items => 1 + size item + itemsSize items

def membersSize : List (List Char × Json) → Nat
  | [] => 0
  | member :: members => 1 + size member.2 + membersSize members

end

variable {gap} {rest : List Char} {turns : Nat}

theorem skip_of_not_isSpace {c : Char} (h : isSpace c = false) : skip (c :: rest) = c :: rest := by
  rw [skip, List.dropWhile_cons_of_neg (by rw [h]; decide)]

theorem skip_gap (hgap : ∀ c ∈ gap, isSpace c) (cs : List Char) : skip (gap ++ cs) = skip cs :=
  List.dropWhile_append_of_pos hgap

theorem scan_gap (hgap : ∀ c ∈ gap, isSpace c) (cs : List Char) :
    scan turns (gap ++ cs) = scan turns cs := by
  cases turns with
  | zero => simp only [scan]
  | succ turns => simp only [scan, skip_gap hgap]

theorem scanKey_gap (hgap : ∀ c ∈ gap, isSpace c) (cs : List Char) :
    scanKey (gap ++ cs) = scanKey cs := by
  rw [scanKey, scanKey, skip_gap hgap]

theorem scanItems_gap (hgap : ∀ c ∈ gap, isSpace c) (cs : List Char) :
    scanItems turns (gap ++ cs) = scanItems turns cs := by
  cases turns with
  | zero => simp only [scanItems]
  | succ turns => simp only [scanItems, scan_gap hgap]

theorem scanMembers_gap (hgap : ∀ c ∈ gap, isSpace c) (cs : List Char) :
    scanMembers turns (gap ++ cs) = scanMembers turns cs := by
  cases turns with
  | zero => simp only [scanMembers]
  | succ turns => simp only [scanMembers, scanKey_gap hgap]

theorem scanString_write (s rest : List Char) :
    ∃ body, writeString s ++ rest = '"' :: body ∧ scanString .plain body = some (s, rest) := by
  refine ⟨s.flatMap escape ++ '"' :: rest, ?_, scanString_flatMap s rest⟩
  simp only [writeString, List.cons_append, List.append_assoc, List.nil_append]

theorem scanKey_write (s : List Char) (rest : List Char) :
    scanKey (writeString s ++ ':' :: rest) = some (s, rest) := by
  obtain ⟨body, hbody, hscan⟩ := scanString_write s (':' :: rest)
  have hcolon : skip (':' :: rest) = ':' :: rest := skip_of_not_isSpace rfl
  rw [hbody, scanKey, skip_of_not_isSpace rfl]
  simp only [hscan, Option.bind_some, hcolon]

/-- The first character of a number tells it from every other value. -/
theorem scan_number {text : List Char} (h : IsNumber text) (hrest : Ends rest) :
    scan (turns + 1) (text ++ rest) = some (number text, rest) := by
  obtain ⟨c, cs, rfl⟩ := List.exists_cons_of_ne_nil h.ne_nil
  have hc : numberChar c = true := List.all_eq_true.mp h.1 c List.mem_cons_self
  have hother : ∀ d, numberChar d = false → c ≠ d := by
    rintro d hd rfl
    rw [hc] at hd
    cases hd
  have hspace : isSpace c = false := by
    simp only [isSpace, hother ' ' rfl, hother '\t' rfl, hother '\n' rfl, hother '\r' rfl,
      decide_false, Bool.or_self]
  have hscalar : scanScalar (c :: cs ++ rest) = some (number (c :: cs), rest) := by
    rw [scanScalar, if_neg, if_neg, if_neg, scanNumber_append h hrest]
    · exact fun hprefix => hother 'f' rfl (List.cons_prefix_cons.mp hprefix).1.symm
    · exact fun hprefix => hother 't' rfl (List.cons_prefix_cons.mp hprefix).1.symm
    · exact fun hprefix => hother 'n' rfl (List.cons_prefix_cons.mp hprefix).1.symm
  rw [scan, List.cons_append, skip_of_not_isSpace hspace]
  split
  · rename_i heq
    exact absurd (List.cons.inj heq).1 (hother '"' rfl)
  · rename_i heq
    exact absurd (List.cons.inj heq).1 (hother '[' rfl)
  · rename_i heq
    exact absurd (List.cons.inj heq).1 (hother '{' rfl)
  · exact hscalar

theorem ends_cons {c : Char} (h : numberChar c = false) : Ends (c :: rest) :=
  List.takeWhile_cons_of_neg (by rw [h]; decide)

theorem ends_writeItems (items : List Json) : Ends (writeItems gap items ++ rest) := by
  cases items <;> exact ends_cons rfl

theorem ends_writeMembers (members : List (List Char × Json)) :
    Ends (writeMembers gap members ++ rest) := by
  cases members <;> exact ends_cons rfl

variable (gap) in
/-- A value is read back from its text, whatever comes after it. -/
def Scans (v : Json) : Prop := ∀ turns rest, v.size ≤ turns → Ends rest →
  scan turns (write gap v ++ rest) = some (v, rest)

theorem scanItems_write (hgap : ∀ c ∈ gap, isSpace c) {item : Json} {items : List Json}
    (h : ∀ v ∈ item :: items, Scans gap v) (hturns : itemsSize (item :: items) ≤ turns) :
    scanItems turns (write gap item ++ (writeItems gap items ++ rest)) =
      some (item :: items, rest) := by
  induction items generalizing item turns with
  | nil =>
    obtain ⟨hitem, -⟩ := List.forall_mem_cons.mp h
    cases turns with
    | zero => simp only [itemsSize] at hturns; omega
    | succ turns =>
      have hclose : skip (']' :: rest) = ']' :: rest := skip_of_not_isSpace rfl
      simp only [itemsSize] at hturns
      rw [scanItems, hitem turns _ (by omega) (ends_writeItems [])]
      simp only [writeItems, List.cons_append, List.nil_append, Option.bind_some, hclose]
  | cons next items ih =>
    obtain ⟨hitem, hitems⟩ := List.forall_mem_cons.mp h
    cases turns with
    | zero => simp only [itemsSize] at hturns; omega
    | succ turns =>
      have hcomma : ∀ cs, skip (',' :: cs) = ',' :: cs := fun _ => skip_of_not_isSpace rfl
      simp only [itemsSize] at hturns
      rw [scanItems, hitem turns _ (by omega) (ends_writeItems (next :: items))]
      simp only [writeItems, List.cons_append, List.append_assoc, Option.bind_some, hcomma]
      rw [scanItems_gap hgap, ih hitems (by simp only [itemsSize]; omega), Option.map_some]

theorem scanMembers_write (hgap : ∀ c ∈ gap, isSpace c) {member : List Char × Json}
    {members : List (List Char × Json)} (h : ∀ m ∈ member :: members, Scans gap m.2)
    (hturns : membersSize (member :: members) ≤ turns) :
    scanMembers turns (writeString member.1 ++ ':' :: (gap ++ (write gap member.2 ++
      (writeMembers gap members ++ rest)))) = some (member :: members, rest) := by
  induction members generalizing member turns with
  | nil =>
    obtain ⟨hmember, -⟩ := List.forall_mem_cons.mp h
    cases turns with
    | zero => simp only [membersSize] at hturns; omega
    | succ turns =>
      have hclose : skip ('}' :: rest) = '}' :: rest := skip_of_not_isSpace rfl
      simp only [membersSize] at hturns
      rw [scanMembers, scanKey_write, Option.bind_some, scan_gap hgap,
        hmember turns _ (by omega) (ends_writeMembers [])]
      simp only [writeMembers, List.cons_append, List.nil_append, Option.bind_some, hclose]
  | cons next members ih =>
    obtain ⟨hmember, hmembers⟩ := List.forall_mem_cons.mp h
    cases turns with
    | zero => simp only [membersSize] at hturns; omega
    | succ turns =>
      have hcomma : ∀ cs, skip (',' :: cs) = ',' :: cs := fun _ => skip_of_not_isSpace rfl
      simp only [membersSize] at hturns
      rw [scanMembers, scanKey_write, Option.bind_some, scan_gap hgap,
        hmember turns _ (by omega) (ends_writeMembers (next :: members))]
      simp only [writeMembers, List.cons_append, List.append_assoc, Option.bind_some, hcomma]
      rw [scanMembers_gap hgap, ih hmembers (by simp only [membersSize]; omega), Option.map_some]

theorem exists_write_cons (gap : List Char) {v : Json} (h : v.WellFormed) :
    ∃ c cs, write gap v = c :: cs ∧ isSpace c = false ∧ c ≠ ']' := by
  cases v with
  | null => exact ⟨'n', _, rfl, rfl, by decide⟩
  | bool b => cases b <;> exact ⟨_, _, rfl, rfl, by decide⟩
  | number text =>
    obtain ⟨c, cs, rfl⟩ := List.exists_cons_of_ne_nil (IsNumber.ne_nil h)
    have hc : numberChar c = true := List.all_eq_true.mp h.1 c List.mem_cons_self
    refine ⟨c, cs, rfl, ?_, ?_⟩
    · rw [Bool.eq_false_iff]
      intro hspace
      simp only [isSpace, Bool.or_eq_true, decide_eq_true_eq] at hspace
      rcases hspace with ((rfl | rfl) | rfl) | rfl <;> cases hc
    · rintro rfl
      cases hc
  | string s => exact ⟨'"', _, rfl, rfl, by decide⟩
  | array items => cases items <;> exact ⟨_, _, rfl, rfl, by decide⟩
  | object members => cases members <;> exact ⟨_, _, rfl, rfl, by decide⟩

theorem itemsWellFormed_iff {items : List Json} :
    ItemsWellFormed items ↔ ∀ item ∈ items, item.WellFormed := by
  induction items with
  | nil => simp only [ItemsWellFormed, List.not_mem_nil, false_imp_iff, implies_true]
  | cons item items ih => simp only [ItemsWellFormed, ih, List.forall_mem_cons]

theorem membersWellFormed_iff {members : List (List Char × Json)} :
    MembersWellFormed members ↔ ∀ member ∈ members, member.2.WellFormed := by
  induction members with
  | nil => simp only [MembersWellFormed, List.not_mem_nil, false_imp_iff, implies_true]
  | cons member members ih => simp only [MembersWellFormed, ih, List.forall_mem_cons]

theorem scan_array (hgap : ∀ c ∈ gap, isSpace c) {items : List Json}
    (hitems : ∀ item ∈ items, item.WellFormed) (h : ∀ item ∈ items, Scans gap item) :
    Scans gap (array items) := by
  rintro turns rest hturns -
  simp only [size] at hturns
  obtain ⟨turns, rfl⟩ := Nat.exists_eq_add_of_le' (Nat.le_of_add_right_le hturns)
  cases items with
  | nil => rfl
  | cons item items =>
    obtain ⟨c, cs, hwrite, hspace, hclose⟩ := exists_write_cons gap
      (hitems item List.mem_cons_self)
    have hopen : ∀ cs, skip ('[' :: cs) = '[' :: cs := fun _ => skip_of_not_isSpace rfl
    have hscan : scanItems turns (write gap item ++ (writeItems gap items ++ rest)) =
        some (item :: items, rest) := scanItems_write hgap h (by omega)
    rw [hwrite, List.cons_append] at hscan
    simp only [write, hwrite, List.cons_append, List.append_assoc, scan, hopen,
      skip_of_not_isSpace hspace]
    split
    · rename_i heq
      exact absurd (List.cons.inj heq).1 hclose
    · rw [hscan, Option.map_some]

theorem scan_object (hgap : ∀ c ∈ gap, isSpace c) {members : List (List Char × Json)}
    (h : ∀ member ∈ members, Scans gap member.2) : Scans gap (object members) := by
  rintro turns rest hturns -
  simp only [size] at hturns
  obtain ⟨turns, rfl⟩ := Nat.exists_eq_add_of_le' (Nat.le_of_add_right_le hturns)
  cases members with
  | nil => rfl
  | cons member members =>
    have hopen : ∀ cs, skip ('{' :: cs) = '{' :: cs := fun _ => skip_of_not_isSpace rfl
    have hquote : ∀ cs, skip ('"' :: cs) = '"' :: cs := fun _ => skip_of_not_isSpace rfl
    have hscan : scanMembers turns (writeString member.1 ++ ':' :: (gap ++ (write gap member.2 ++
        (writeMembers gap members ++ rest)))) = some (member :: members, rest) :=
      scanMembers_write hgap h (by omega)
    simp only [writeString, List.cons_append, List.append_assoc] at hscan
    simp only [write, writeString, List.cons_append, List.append_assoc, scan, hopen, hquote]
    rw [hscan]
    rfl

theorem scans_of_wellFormed (hgap : ∀ c ∈ gap, isSpace c) {v : Json} (h : v.WellFormed) :
    Scans gap v := by
  induction v with
  | null =>
    rintro turns rest hturns -
    obtain ⟨turns, rfl⟩ := Nat.exists_eq_add_of_le' hturns
    rfl
  | bool b =>
    rintro turns rest hturns -
    obtain ⟨turns, rfl⟩ := Nat.exists_eq_add_of_le' hturns
    cases b <;> rfl
  | number text =>
    rintro turns rest hturns hrest
    obtain ⟨turns, rfl⟩ := Nat.exists_eq_add_of_le' hturns
    rw [write]
    exact scan_number h hrest
  | string s =>
    rintro turns rest hturns -
    obtain ⟨turns, rfl⟩ := Nat.exists_eq_add_of_le' hturns
    obtain ⟨body, hbody, hscan⟩ := scanString_write s rest
    have hquote : skip ('"' :: body) = '"' :: body := skip_of_not_isSpace rfl
    simp only [write, hbody, size, scan, hquote, hscan, Option.map_some]
  | array items ih =>
    have hitems := itemsWellFormed_iff.mp h
    exact scan_array hgap hitems fun item hitem => ih item hitem (hitems item hitem)
  | object members ih =>
    have hmembers := membersWellFormed_iff.mp h
    exact scan_object hgap fun member hmember => ih member hmember (hmembers member hmember)

theorem itemsSize_le {item : Json} {items : List Json}
    (h : ∀ v ∈ item :: items, v.size ≤ 2 * (write gap v).length) :
    itemsSize (item :: items) ≤ 2 * (write gap item ++ writeItems gap items).length := by
  induction items generalizing item with
  | nil =>
    have hitem := h item List.mem_cons_self
    simp only [itemsSize, writeItems, List.length_append, List.length_singleton]
    omega
  | cons next items ih =>
    obtain ⟨hitem, hitems⟩ := List.forall_mem_cons.mp h
    have hnext := ih hitems
    simp only [itemsSize, writeItems, List.length_append, List.length_cons] at hnext ⊢
    omega

theorem membersSize_le {member : List Char × Json} {members : List (List Char × Json)}
    (h : ∀ m ∈ member :: members, m.2.size ≤ 2 * (write gap m.2).length) :
    membersSize (member :: members) ≤
      2 * (write gap member.2 ++ writeMembers gap members).length := by
  induction members generalizing member with
  | nil =>
    have hmember := h member List.mem_cons_self
    simp only [membersSize, writeMembers, List.length_append, List.length_singleton]
    omega
  | cons next members ih =>
    obtain ⟨hmember, hmembers⟩ := List.forall_mem_cons.mp h
    have hnext := ih hmembers
    simp only [membersSize, writeMembers, List.length_append, List.length_cons] at hnext ⊢
    omega

theorem size_le {v : Json} (h : v.WellFormed) : v.size ≤ 2 * (write gap v).length := by
  induction v with
  | null => simp [size, write]
  | bool b => cases b <;> simp [size, write]
  | number text =>
    have hpos := List.length_pos_iff.mpr (IsNumber.ne_nil h)
    simp only [size, write]
    omega
  | string s =>
    simp only [size, write, writeString, List.length_cons]
    omega
  | array items ih =>
    cases items with
    | nil => simp [size, itemsSize, write]
    | cons item items =>
      have hitems := itemsWellFormed_iff.mp h
      have hsize := itemsSize_le fun v hv => ih v hv (hitems v hv)
      simp only [size, write, List.length_cons] at hsize ⊢
      omega
  | object members ih =>
    cases members with
    | nil => simp [size, membersSize, write]
    | cons member members =>
      have hmembers := membersWellFormed_iff.mp h
      have hsize := membersSize_le fun m hm => ih m hm (hmembers m hm)
      simp only [size, write, List.length_append, List.length_cons] at hsize ⊢
      omega

/-- A document is read back from its text. -/
theorem parse_write (hgap : ∀ c ∈ gap, isSpace c) {v : Json} (h : v.WellFormed) :
    parse (write gap v) = some v := by
  have hscan := scans_of_wellFormed hgap h (2 * (write gap v).length) [] (size_le h) rfl
  rw [List.append_nil] at hscan
  rw [parse, hscan, Option.bind_some]
  rfl

/-- The text of an object stands between its brackets. -/
theorem write_object (gap : List Char) (members : List (List Char × Json)) :
    ∃ body, write gap (object members) = '{' :: (body ++ ['}']) := by
  cases members with
  | nil => exact ⟨[], rfl⟩
  | cons member members =>
    have hmembers : ∀ members : List (List Char × Json),
        ∃ body, writeMembers gap members = body ++ ['}'] := by
      intro members
      induction members with
      | nil => exact ⟨[], rfl⟩
      | cons member members ih =>
        obtain ⟨body, hbody⟩ := ih
        refine ⟨',' :: (gap ++ (writeString member.1 ++ ':' :: (gap ++
          (write gap member.2 ++ body)))), ?_⟩
        simp only [writeMembers, hbody, List.cons_append, List.append_assoc]
    obtain ⟨body, hbody⟩ := hmembers members
    refine ⟨writeString member.1 ++ ':' :: (gap ++ (write gap member.2 ++ body)), ?_⟩
    simp only [write, hbody, List.cons_append, List.append_assoc]

/-- A text of printable characters: a document keeps no line break of its strings. -/
def Printable (cs : List Char) : Prop := ∀ c ∈ cs, 0x20 ≤ c.toNat

instance (cs : List Char) : Decidable (Printable cs) := List.decidableBAll _ cs

theorem printable_cons {c : Char} {cs : List Char} :
    Printable (c :: cs) ↔ 0x20 ≤ c.toNat ∧ Printable cs := List.forall_mem_cons

theorem printable_append {cs ds : List Char} :
    Printable (cs ++ ds) ↔ Printable cs ∧ Printable ds := List.forall_mem_append

theorem printable_escape (c : Char) : Printable (escape c) := by
  rw [escape]
  split_ifs with _ _ _ _ _ _ _ hcontrol
  any_goals decide
  · have hdigit : ∀ digit < 16, 0x20 ≤ (Nat.digitChar digit).toNat := by decide
    have hhigh := hdigit (c.toNat / 16) (by omega)
    have hlow := hdigit (c.toNat % 16) (by omega)
    simp only [printable_cons]
    exact ⟨by decide, by decide, by decide, by decide, hhigh, hlow, by decide⟩
  · intro d hd
    rw [List.mem_singleton.mp hd]
    omega

theorem printable_writeString (s : List Char) : Printable (writeString s) := by
  rw [writeString, printable_cons, printable_append]
  refine ⟨by decide, fun c hc => ?_, by decide⟩
  obtain ⟨d, -, hd⟩ := List.mem_flatMap.mp hc
  exact printable_escape d c hd

theorem printable_number {text : List Char} (h : IsNumber text) : Printable text := by
  intro c hc
  have hchar : numberChar c = true := List.all_eq_true.mp h.1 c hc
  simp only [numberChar, Bool.or_eq_true, decide_eq_true_eq] at hchar
  rcases hchar with ((((hdigit | rfl) | rfl) | rfl) | rfl) | rfl
  · have hlower : '0'.toNat ≤ c.toNat := of_decide_eq_true (Bool.and_eq_true_iff.mp hdigit).1
    exact Nat.le_trans (by decide) hlower
  all_goals decide

theorem printable_writeItems (hgap : Printable gap) {items : List Json}
    (h : ∀ item ∈ items, Printable (write gap item)) : Printable (writeItems gap items) := by
  induction items with
  | nil => exact (by decide : Printable [']'])
  | cons item items ih =>
    obtain ⟨hitem, hitems⟩ := List.forall_mem_cons.mp h
    rw [writeItems, printable_cons, printable_append, printable_append]
    exact ⟨by decide, hgap, hitem, ih hitems⟩

theorem printable_writeMembers (hgap : Printable gap) {members : List (List Char × Json)}
    (h : ∀ member ∈ members, Printable (write gap member.2)) :
    Printable (writeMembers gap members) := by
  induction members with
  | nil => exact (by decide : Printable ['}'])
  | cons member members ih =>
    obtain ⟨hmember, hmembers⟩ := List.forall_mem_cons.mp h
    simp only [writeMembers, printable_cons, printable_append]
    exact ⟨by decide, hgap, printable_writeString _, by decide, hgap, hmember, ih hmembers⟩

theorem printable_write (hgap : Printable gap) {v : Json} (h : v.WellFormed) :
    Printable (write gap v) := by
  induction v with
  | null => exact (by decide : Printable "null".toList)
  | bool b =>
    cases b with
    | true => exact (by decide : Printable "true".toList)
    | false => exact (by decide : Printable "false".toList)
  | number text => exact printable_number h
  | string s => exact printable_writeString s
  | array items ih =>
    have hitems := itemsWellFormed_iff.mp h
    have hwrite := fun item hitem => ih item hitem (hitems item hitem)
    cases items with
    | nil => exact (by decide : Printable "[]".toList)
    | cons item items =>
      obtain ⟨hfirst, hothers⟩ := List.forall_mem_cons.mp hwrite
      rw [write, printable_cons, printable_append]
      exact ⟨by decide, hfirst, printable_writeItems hgap hothers⟩
  | object members ih =>
    have hmembers := membersWellFormed_iff.mp h
    have hwrite := fun member hmember => ih member hmember (hmembers member hmember)
    cases members with
    | nil => exact (by decide : Printable "{}".toList)
    | cons member members =>
      obtain ⟨hfirst, hothers⟩ := List.forall_mem_cons.mp hwrite
      simp only [write, printable_cons, printable_append]
      exact ⟨by decide, printable_writeString _, by decide, hgap, hfirst,
        printable_writeMembers hgap hothers⟩

end Documents

end Json
