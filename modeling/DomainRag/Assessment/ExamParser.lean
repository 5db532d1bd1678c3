import DomainRag.Lib.Except
import DomainRag.Storage.Assets

/-! # Reading an exam paper

The parser for papers of a fixed layout. Questions are numbered from one, choices start with a
circled digit, and the key at the end lists numbers and then as many glyphs. A glyph stands for its
place among all glyphs of the key.
-/

namespace DomainRag.Assessment

open Retrieval (isSpace)
open Storage (strip)

section Text

/-- The code points of the decimal digits zero. -/
def digitZeros : List Nat :=
  [0x30, 0x660, 0x6F0, 0x7C0, 0x966, 0x9E6, 0xA66, 0xAE6, 0xB66, 0xBE6, 0xC66, 0xCE6, 0xD66, 0xDE6,
    0xE50, 0xED0, 0xF20, 0x1040, 0x1090, 0x17E0, 0x1810, 0x1946, 0x19D0, 0x1A80, 0x1A90, 0x1B50,
    0x1BB0, 0x1C40, 0x1C50, 0xA620, 0xA8D0, 0xA900, 0xA9D0, 0xA9F0, 0xAA50, 0xABF0, 0xFF10, 0x104A0,
    0x10D30, 0x11066, 0x110F0, 0x11136, 0x111D0, 0x112F0, 0x11450, 0x114D0, 0x11650, 0x116C0,
    0x11730, 0x118E0, 0x11950, 0x11C50, 0x11D50, 0x11DA0, 0x16A60, 0x16AC0, 0x16B50, 0x1D7CE,
    0x1D7D8, 0x1D7E2, 0x1D7EC, 0x1D7F6, 0x1E140, 0x1E2F0, 0x1E950, 0x1FBF0]

def digit? (c : Char) : Option Nat :=
  (digitZeros.find? fun z => z ≤ c.toNat ∧ c.toNat ≤ z + 9).map (c.toNat - ·)

def isDigit (c : Char) : Bool := (digit? c).isSome

/-- `int` of a text of digits. -/
def intOf (digits : List Char) : Except Exc Nat :=
  if 4300 < digits.length then
    .error ⟨"ValueError", "Exceeds the limit (4300 digits) for integer string conversion: value has "
      ++ toString digits.length ++ " digits; use sys.set_int_max_str_digits() to increase the limit"⟩
  else .ok (digits.foldl (fun n c => 10 * n + (digit? c).getD 0) 0)

def splitLines (s : String) : List String := (s.toList.splitOn '\n').map String.ofList

def joinLines (lines : List String) : String := "\n".intercalate lines

def lstrip (s : List Char) : String := String.ofList (s.dropWhile isSpace)

def hasText (text content : String) : Bool := text.toList <:+: content.toList

def indexError : Exc := ⟨"IndexError", "list index out of range"⟩

/-- `xs[i]`, where a negative index counts from the end. -/
def pyGet {A : Type} (xs : List A) (i : Int) : Except Exc A :=
  match xs[(if i < 0 then i + xs.length else i).toNat]? with
  | some x => if i + xs.length < 0 then .error indexError else .ok x
  | none => .error indexError

end Text

structure ParsedExamItem where
  number : Int
  subject : Option String
  subjectLabel : Value
  questionText : String
  choices : List String
  answerIndex : Option Nat
  answerValue : Option String
  figureDependent : Bool := false
  flags : List String := []

structure ExamParseResult where
  items : List ParsedExamItem := []
  parsedCount : Nat := 0
  answerKeyCount : Nat := 0
  answerGlyphMap : Dict Char Nat := .empty

def defaultGisaSubjectMap : Dict String String :=
  .ofList [("1", "software_design"), ("2", "software_dev"), ("3", "database"), ("4", "programming"),
    ("5", "info_system")]

def defaultNoiseTokens : List String :=
  ["eduon", "지식충전소", "수험번호", "자격종목", "시험시간", "감독위원", "OMR", "마킹", "수험자", "★", "비번호",
    "문제지", "답안카드", "성명", "응시", "※"]

/-- A question as it was read, with the pieces of its text and of its choices. -/
structure RawItem where
  number : Nat
  subjectNo : Option String
  q : List String
  choices : Fin 4 → List String

structure ExamPaperParser where
  subjectMap : Dict String String := defaultGisaSubjectMap
  noise : List String := defaultNoiseTokens

section Key

inductive KeyToken where
  | num (n : Nat)
  | ans (glyph : Char)
  deriving DecidableEq

def keyToken? (line : String) : Except Exc (Option KeyToken) :=
  match (strip line).toList with
  | [] => .ok none
  | c :: cs =>
    if (c :: cs).all isDigit then (intOf (c :: cs)).map fun n => some (.num n)
    else if cs = [] ∧ 128 ≤ c.toNat then .ok (some (.ans c))
    else .ok none

/-- The answers so far, and the numbers and glyphs of the block that is being read. -/
structure KeyReading where
  answers : Dict Nat Char := .empty
  bufNums : List Nat := []
  bufAns : List Char := []

def KeyReading.closed (r : KeyReading) : Dict Nat Char := r.answers.update (r.bufNums.zip r.bufAns)

def KeyReading.token (r : KeyReading) : KeyToken → KeyReading
  | .num n =>
    if r.bufAns = [] then { r with bufNums := r.bufNums ++ [n] }
    else { answers := r.closed, bufNums := [n] }
  | .ans glyph => { r with bufAns := r.bufAns ++ [glyph] }

def parseAnswerKey (answerPage : String) : Except Exc (Dict Nat Char × Dict Char Nat) := do
  let tokens ← (splitLines answerPage).mapM keyToken?
  let answers := ((tokens.filterMap id).foldl KeyReading.token {}).closed
  let distinct := answers.values.dedup.insertionSort (· ≤ ·)
  return (answers, .ofList distinct.zipIdx)

end Key

section Lines

def dropText (text : String) (cs : List Char) : Option (List Char) :=
  if text.toList.isPrefixOf cs then some (cs.drop text.length) else none

/-- What follows the footer of a page, if the text starts with one. -/
def afterFooter (cs : List Char) : Option (List Char) := do
  let cs ← dropText "국가기술자격" cs
  let cs ← dropText "필기시험문제" (cs.dropWhile isSpace)
  let cs := cs.drop ((cs.take 4).takeWhile isDigit).length
  let cs := (dropText "년" cs).getD cs
  let cs := (dropText "도" cs).getD cs
  let cs ← dropText "기사" (cs.dropWhile isSpace)
  let cs ← dropText "제" (cs.dropWhile isSpace)
  if cs.takeWhile isDigit = [] then none
  let cs ← dropText "회" (cs.dropWhile isDigit)
  let cs ← dropText "필기시험(기사)정보처리기사형" (cs.dropWhile isSpace)
  dropText "별" (cs.dropWhile isSpace)

/-- The text without its footers; `skip` characters of a footer are still to be left out. -/
def removeFooters : (skip : Nat) → List Char → List Char
  | _, [] => []
  | skip + 1, _ :: cs => removeFooters skip cs
  | 0, c :: cs => match afterFooter (c :: cs) with
    | some rest => removeFooters (cs.length - rest.length) cs
    | none => c :: removeFooters 0 cs

def circled? (c : Char) : Option (Fin 4) :=
  match c with
  | '①' => some 0
  | '②' => some 1
  | '③' => some 2
  | '④' => some 3
  | _ => none

/-- Every circled digit that something precedes starts a line; `spaces` are the blanks before the
rest, and `begun` says whether there is something before them. -/
def breakMarkers (begun : Bool) (spaces : List Char) : List Char → List Char
  | [] => spaces
  | c :: cs =>
    if isSpace c then breakMarkers begun (spaces ++ [c]) cs
    else if begun && (circled? c).isSome then '\n' :: c :: breakMarkers true [] cs
    else spaces ++ c :: breakMarkers true [] cs

/-- A line keeps the blanks at its end, which separate it from the next one. -/
def ExamPaperParser.cleanLines (parser : ExamPaperParser) (questionPages : List String) :
    List String :=
  let raw := breakMarkers false [] (removeFooters 0 (joinLines questionPages).toList)
  ((splitLines (String.ofList raw)).map fun ln => lstrip ln.toList).filter fun content =>
    strip content ≠ "" && !parser.noise.any fun tok => hasText tok content

end Lines

section Questions

def subjectHeader? (ln : List Char) : Option String :=
  match ln with
  | '【' :: rest =>
    if rest.takeWhile isDigit ≠ [] ∧ "과목】".toList.isPrefixOf (rest.dropWhile isDigit) then
      some (String.ofList (rest.takeWhile isDigit))
    else none
  | _ => none

/-- The digits of the number that a line starts with, and the text behind it. -/
def numbered? (ln : List Char) : Option (List Char × String) :=
  if ln.takeWhile isDigit = [] then none
  else match ln.dropWhile isDigit with
    | '.' :: rest => some (ln.takeWhile isDigit, lstrip rest)
    | _ => none

/-- The field of the current question that a line without a marker belongs to. -/
inductive Field where
  | question
  | choice (i : Fin 4)
  deriving DecidableEq

structure Reading where
  rawItems : List RawItem := []
  cur : Option RawItem := none
  state : Option Field := none
  curSubj : Option String := none
  expected : Nat := 1

def RawItem.push (item : RawItem) (s : String) : Field → RawItem
  | .question => { item with q := item.q ++ [s] }
  | .choice i => { item with choices := fun j => item.choices j ++ if j = i then [s] else [] }

namespace Reading

variable (r : Reading)

def push (s : String) : Reading :=
  match r.state with
  | some field => { r with cur := r.cur.map fun item => item.push s field }
  | none => r

def openQuestion (text : String) : Reading where
  rawItems := r.rawItems ++ r.cur.toList
  cur := some {
    number := r.expected
    subjectNo := r.curSubj
    q := if text = "" then [] else [text]
    choices := fun _ => [] }
  state := some .question
  curSubj := r.curSubj
  expected := r.expected + 1

def markedLine (ln : String) : Except Exc Reading :=
  match ln.toList with
  | [] => .error ⟨"IndexError", "string index out of range"⟩
  | c :: cs => match circled? c with
    | none => .ok (r.push ln)
    | some i =>
      let marked := { r with state := some (.choice i) }
      if lstrip cs = "" then .ok marked
      else if r.cur.isNone then .error (.typeError "'NoneType' object is not subscriptable")
      else .ok (marked.push (lstrip cs))

def line (ln : String) : Except Exc Reading :=
  match subjectHeader? ln.toList with
  | some no => .ok { r with curSubj := some no }
  | none => match numbered? ln.toList with
    | none => r.markedLine ln
    | some (digits, text) => do
      if (← intOf digits) = r.expected then return r.openQuestion text else r.markedLine ln

end Reading

/-- The questions of the pages, before their answers are looked up. -/
def ExamPaperParser.rawItems (parser : ExamPaperParser) (questionPages : List String) :
    Except Exc (List RawItem) := do
  let r ← (parser.cleanLines questionPages).foldlM Reading.line {}
  return r.rawItems ++ r.cur.toList

end Questions

section Assemble

namespace RawItem

variable (r : RawItem)

def questionText : String := strip (String.join r.q)

def texts : List String := List.ofFn fun i => strip (String.join (r.choices i))

def nonempty : List String := r.texts.filter fun c => c ≠ ""

end RawItem

def codeTokens : List String :=
  [";", "\x7b", "\x7d", "printf", "#include", "public ", "void ", "int ", "class ", "SELECT",
    "CREATE", "static ", "return ", "System.out", "def "]

/-- The choice at the place of the answer, of a question with four choices. -/
def answerValueOf (nonempty : List String) : (ai : Option Nat) → Except Exc (Option String)
  | some i => if nonempty.length = 4 then (pyGet nonempty i).map some else .ok none
  | none => .ok none

def ExamPaperParser.assemble (parser : ExamPaperParser) (answersIdx : Dict Nat Nat) (r : RawItem) :
    Except Exc ParsedExamItem := do
  let qtext := r.questionText
  let nonempty := r.nonempty
  let ai := answersIdx.get? r.number
  let blob := qtext ++ " " ++ " ".intercalate nonempty
  let figures := ["그림", "도표", "다음 표", "보기와 같"].any fun t => hasText t qtext
  let flags :=
    (if nonempty.length ≠ 4 then ["choices=" ++ toString nonempty.length] else []) ++
    (if qtext.length < 8 then ["question_text_short"] else []) ++
    (if ai.isNone then ["no_answer"] else []) ++
    (if figures then ["figure_dependent"] else []) ++
    (if codeTokens.any fun t => hasText t blob then ["code_or_sql"] else [])
  let answerValue ← answerValueOf nonempty ai
  return {
    number := r.number
    subject := r.subjectNo.bind parser.subjectMap.get?
    subjectLabel := r.subjectNo.elim .null .str
    questionText := qtext
    choices := if nonempty.length = 4 then nonempty else r.texts
    answerIndex := ai
    answerValue := answerValue
    figureDependent := figures
    flags := flags }

/-- The questions of a paper and the places of their answers. -/
def ExamPaperParser.paper (parser : ExamPaperParser) (pageTexts : List String) (ansIdx : Int) :
    Except Exc (List RawItem × Dict Nat Char × Dict Char Nat) := do
  let answerPage ← pyGet pageTexts ansIdx
  let (answersGlyph, glyphMap) ← parseAnswerKey answerPage
  let raws ← parser.rawItems ((pageTexts.zipIdx.filter fun e => (e.2 : Int) ≠ ansIdx).map Prod.fst)
  return (raws, answersGlyph, glyphMap)

/-- Every glyph of the key has a place. -/
def answersIdx (answersGlyph : Dict Nat Char) (glyphMap : Dict Char Nat) : Dict Nat Nat :=
  answersGlyph.mapValues fun _ g => (glyphMap.get? g).getD 0

def ExamPaperParser.parse (parser : ExamPaperParser) (pageTexts : List String)
    (answerPageIndex : Option Int) : Except Exc ExamParseResult := do
  if pageTexts = [] then return {}
  let (raws, answersGlyph, glyphMap) ←
    parser.paper pageTexts (answerPageIndex.getD (pageTexts.length - 1))
  let key := answersIdx answersGlyph glyphMap
  let items ← raws.mapM (parser.assemble key)
  return {
    items := items
    parsedCount := items.length
    answerKeyCount := key.entries.length
    answerGlyphMap := glyphMap.mapValues fun _ i => i + 1 }

end Assemble

end DomainRag.Assessment
