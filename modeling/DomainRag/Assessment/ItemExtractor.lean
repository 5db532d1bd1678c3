import DomainRag.Assessment.ExamParser
import DomainRag.Lib.Program

/-! # Extracting the questions of an exam

An extractor reads questions from the pages of a paper: the parser, or a language model that is
asked for the questions of one chunk after the other. The model may answer anything, or not at all.
-/

namespace DomainRag.Assessment

open Retrieval (isSpace)
open Storage (strip)

section Labels

def labelToIdx : Dict String Nat :=
  .ofList [("①", 0), ("1", 0), ("가", 0), ("a", 0), ("A", 0),
    ("②", 1), ("2", 1), ("나", 1), ("b", 1), ("B", 1),
    ("③", 2), ("3", 2), ("다", 2), ("c", 2), ("C", 2),
    ("④", 3), ("4", 3), ("라", 3), ("d", 3), ("D", 3)]

def subjectEnums : List String := defaultGisaSubjectMap.values

def answerLabelToIndex (repr : Value → String) (label : Value) : Option Nat :=
  if label.truthy then labelToIdx.get? (strip (label.text repr)) else none

end Labels

section Grid

inductive GridToken where
  | num (n : Nat)
  | ans (idx : Nat)
  deriving DecidableEq

def gridToken? (line : String) : Option GridToken :=
  let cs := (strip line).toList
  if cs ≠ [] ∧ cs.length ≤ 3 ∧ cs.all isDigit then
    some (.num (cs.foldl (fun n c => 10 * n + (digit? c).getD 0) 0))
  else (labelToIdx.get? (strip line)).map .ans

/-- How many numbers in a row follow the number `n`, each one more than the one before. -/
def ascending (n : Nat) : List GridToken → Nat
  | .num m :: tokens => if m = n + 1 then ascending m tokens + 1 else 0
  | _ => 0

def GridToken.answer? : GridToken → Option Nat
  | .ans idx => some idx
  | .num n => if 1 ≤ n ∧ n ≤ 4 then some (n - 1) else none

/-- The answers of a block of `length` numbers that starts with `n`, if as many answers follow. -/
def gridBlock? (n length : Nat) (tokens : List GridToken) : Option (List (Nat × Nat)) :=
  let block := (tokens.drop length).take length
  if 3 ≤ length ∧ block.length = length ∧ n ≤ 100 then
    (block.mapM GridToken.answer?).map fun vals => (List.range' n length).zip vals
  else none

/-- The grid in the tokens, of which the first `skip` have been read as part of a block. -/
def readGrid (out : Dict Int Nat) : (skip : Nat) → List GridToken → Dict Int Nat
  | _, [] => out
  | skip + 1, _ :: tokens => readGrid out skip tokens
  | 0, .ans _ :: tokens => readGrid out 0 tokens
  | 0, .num n :: tokens =>
    let length := ascending n tokens + 1
    match gridBlock? n length (.num n :: tokens) with
    | some answers =>
      readGrid (out.update (answers.map fun e => ((e.1 : Int), e.2))) (2 * length - 1) tokens
    | none => readGrid out 0 tokens

def parseTransposedAnswerGrid (pageTexts : List String) : Dict Int Nat :=
  readGrid .empty 0 (pageTexts.flatMap fun text => (splitLines text).filterMap gridToken?)

end Grid

section Drift

def isHangul (c : Char) : Bool := 0xAC00 ≤ c.toNat && c.toNat ≤ 0xD7A3

def isHan (c : Char) : Bool := 0x4E00 ≤ c.toNat && c.toNat ≤ 0x9FFF

def scriptCounts (text : String) : Nat × Nat :=
  (text.toList.countP isHangul, text.toList.countP isHan)

def detectLanguageDrift (questionText : String) (sourceIsHangul : Bool) : Bool :=
  let (hangul, han) := scriptCounts questionText
  sourceIsHangul && (3 ≤ han && hangul < han)

end Drift

/-- The language model, whose answers may differ from call to call; `loads` is `json.loads`. -/
structure LlmItemExtractor where
  generate : Nat → String → Except Exc String
  loads : String → Except Exc Value
  repr : Value → String
  maxChars : Int := 2000
  maxQ : Int := 4

/-- A program that counts the calls of the model. -/
abbrev LlmTask := Program Exc Nat

namespace LlmItemExtractor

variable (x : LlmItemExtractor)

section Calls

/-- The text between the first opening brace and the last closing one. -/
def jsonBody? (raw : String) : Option String :=
  let body := raw.toList.dropWhile (· ≠ '\x7b')
  let rest := body.reverse.dropWhile (· ≠ '\x7d')
  if rest = [] then none else some (String.ofList rest.reverse)

def parseJson (raw : String) : Except Exc Value :=
  match x.loads raw with
  | .ok v => .ok v
  | .error e =>
    if e.typeName ∉ ["JSONDecodeError", "TypeError"] then .error e
    else match (jsonBody? raw).map x.loads with
      | none => .ok .null
      | some (.ok v) => .ok v
      | some (.error e) => if e.typeName ≠ "JSONDecodeError" then .error e else .ok .null

/-- A call of the model that is repeated up to `tries` times until its answer can be read. -/
def attempts (prompt : String) : (tries : Nat) → LlmTask Value
  | 0 => return .null
  | tries + 1 => do
    let call ← get
    set (call + 1)
    match x.generate call prompt with
    | .error _ => attempts prompt tries
    | .ok raw => match ← Program.ofExcept (x.parseJson raw) with
      | .null => attempts prompt tries
      | v => return v

/-- The answer of the model, or an empty dictionary if there is none. -/
def generateJson (prompt : String) : LlmTask Value := do
  let parsed ← x.attempts prompt 2
  return parsed.orElse (.dict [])

end Calls

section Prompts

def questionPrompt (chunk : String) : String :=
  "다음은 시험 문제지의 일부다. 모든 문항을 추출해 JSON으로 반환하라.\n" ++
  "- number: 문항 번호(정수)\n" ++
  "- question_text: 지문 전체(보기 제외)\n" ++
  "- choices: 보기 텍스트 배열(마커 ①②③④ 제외, 순서 유지)\n" ++
  "- subject: 다음 중 하나로 매핑 가능하면 그 값, 아니면 'legacy:<원문 과목명>'\n" ++
  "  ['database', 'info_system', 'programming', 'software_design', 'software_dev']\n" ++
  "**원문에 사용된 언어를 그대로 유지하라 — 다른 언어로 번역·치환하는 것을 절대 " ++
  "금지한다.** 원문 글자를 그대로 쓰되, 줄바꿈으로 끊긴 단어만 이어붙여라. " ++
  "없는 내용을 지어내지 마라.\n\n" ++
  "[문제지 텍스트]\n" ++ chunk ++ "\n"

def answerPrompt (text : String) : String :=
  "다음은 시험 정답표다. 각 문항 번호의 정답을 JSON으로 반환하라.\n" ++
  "- number: 문항 번호(정수)\n" ++
  "- answer: 정답 라벨(①②③④ 또는 1~4). 표에 있는 그대로.\n" ++
  "없는 번호를 지어내지 마라.\n\n" ++
  "[정답표 텍스트]\n" ++ text ++ "\n"

end Prompts

section Chunks

/-- The line starts with a number of at most three digits, a dot and a blank. -/
def startsQuestion (ln : String) : Bool :=
  let cs := ln.toList.dropWhile isSpace
  let digits := cs.takeWhile isDigit
  digits ≠ [] && digits.length ≤ 3 && match cs.dropWhile isDigit with
    | '.' :: c :: _ => isSpace c
    | _ => false

structure Chunking where
  chunks : List String := []
  cur : List String := []
  size : Nat := 0
  qcount : Nat := 0

def chunkLine (s : Chunking) (ln : String) : Chunking :=
  let isQ := startsQuestion ln
  let s := if isQ ∧ s.cur ≠ [] ∧ (x.maxQ ≤ s.qcount ∨ x.maxChars < s.size + ln.length) then
    { chunks := s.chunks ++ [joinLines s.cur] } else s
  { s with
    cur := s.cur ++ [ln]
    size := s.size + (ln.length + 1)
    qcount := if isQ then s.qcount + 1 else s.qcount }

def chunks (text : String) : List String :=
  let s := (splitLines text).foldl x.chunkLine {}
  let all := if s.cur = [] then s.chunks else s.chunks ++ [joinLines s.cur]
  if all = [] then [text] else all

end Chunks

section Extract

/-- `isinstance(v, int)`, which a truth value is as well. -/
def intValue? : Value → Option Int
  | .int n => some n
  | .bool b => some (if b then 1 else 0)
  | _ => none

def subjectOf (subj : Value) : Except Exc (Option String) :=
  match subj with
  | .list _ | .dict _ => .error (.typeError s!"unhashable type: '{subj.typeName}'")
  | .str s => .ok (if s ∈ subjectEnums then some s else none)
  | _ => .ok none

/-- The question that an entry of the model's answer describes, if it has a number. -/
def itemOf (entry : Value) : Except Exc (Option ParsedExamItem) := do
  match intValue? (← entry.getD "number" .null) with
  | none => return none
  | some num =>
    let choices ← ((← entry.getD "choices" .null).orElse (.list [])).iter
    let choices := (choices.map fun c => strip (c.text x.repr)).filter fun c => c ≠ ""
    let subj ← entry.getD "subject" .null
    let enum ← subjectOf subj
    return some {
      number := num
      subject := enum
      subjectLabel := subj
      questionText := strip ((← entry.getD "question_text" (.str "")).text x.repr)
      choices := choices
      answerIndex := none
      answerValue := none
      flags := if choices.length = 4 then [] else ["choices=" ++ toString choices.length] }

/-- The questions of a chunk replace earlier ones of the same number. -/
def addChunk (itemsByNum : Dict Int ParsedExamItem) (chunk : String) :
    LlmTask (Dict Int ParsedExamItem) := do
  let parsed ← x.generateJson (questionPrompt chunk)
  Program.ofExcept do
    let entries ← (← parsed.getD "items" (.list [])).iter
    let items ← entries.mapM x.itemOf
    return itemsByNum.update ((items.filterMap id).map fun item => (item.number, item))

def answerOf (entry : Value) : Except Exc (Option (Int × Nat)) := do
  let num ← entry.getD "number" .null
  let idx := answerLabelToIndex x.repr (← entry.getD "answer" .null)
  return match intValue? num, idx with
  | some n, some i => some (n, i)
  | _, _ => none

def extractAnswerKey (answerPage : String) : LlmTask (Dict Int Nat) := do
  if strip answerPage = "" then return .empty
  let parsed ← x.generateJson (answerPrompt answerPage)
  Program.ofExcept do
    let entries ← (← parsed.getD "answers" (.list [])).iter
    let answers ← entries.mapM x.answerOf
    return .ofList (answers.filterMap id)

/-- The grid of the paper is enough if it has at least four fifths of the questions; otherwise it
goes before the answers that the model reads. -/
def answerKey (pageTexts : List String) (answerPage : String) (count : Nat) :
    LlmTask (Dict Int Nat) := do
  let grid := parseTransposedAnswerGrid pageTexts
  if count ≠ 0 ∧ 4 * count ≤ 5 * grid.entries.length then return grid
  else return (← x.extractAnswerKey answerPage).update grid.entries

/-- The question with its answer, if the key has one and there are four choices. -/
def withAnswer (sourceIsHangul : Bool) (key : Dict Int Nat) (item : ParsedExamItem) :
    ParsedExamItem :=
  let flags := item.flags ++
    if detectLanguageDrift item.questionText sourceIsHangul then ["language_drift"] else []
  match key.get? item.number with
  | some ai =>
    if item.choices.length = 4 ∧ ai < 4 then
      { item with
        answerIndex := some ai
        answerValue := item.choices[ai]?
        flags := flags ++ ["answer_verified"] }
    else { item with flags := flags ++ ["answer_unverified"] }
  | none => { item with flags := flags ++ ["answer_unverified"] }

def extract (pageTexts : List String) (answerPageIndex : Option Int) : LlmTask ExamParseResult := do
  if pageTexts = [] then return {}
  let ansIdx := answerPageIndex.getD (pageTexts.length - 1)
  let questionText := joinLines
    ((pageTexts.zipIdx.filter fun e => (e.2 : Int) ≠ ansIdx).map Prod.fst)
  let answerPage := if 0 ≤ ansIdx then (pageTexts[ansIdx.toNat]?).getD "" else ""
  let (srcHangul, srcHan) := scriptCounts questionText
  let sourceIsHangul := 20 ≤ srcHangul && srcHan < srcHangul
  let itemsByNum ← (x.chunks questionText).foldlM x.addChunk .empty
  let key ← x.answerKey pageTexts answerPage itemsByNum.entries.length
  let items := itemsByNum.values.map (withAnswer sourceIsHangul key)
  let items := items.insertionSort fun a b => a.number ≤ b.number
  return { items := items, parsedCount := items.length, answerKeyCount := key.entries.length }

end Extract

end LlmItemExtractor

inductive ItemExtractor where
  | ruleBased (parser : ExamPaperParser)
  | llm (x : LlmItemExtractor)

def ItemExtractor.extract (extractor : ItemExtractor) (pageTexts : List String)
    (answerPageIndex : Option Int) : Except Exc ExamParseResult :=
  match extractor with
  | .ruleBased parser => parser.parse pageTexts answerPageIndex
  | .llm x => match x.extract pageTexts answerPageIndex 0 with
    | .ok result _ => .ok result
    | .error e _ => .error e

end DomainRag.Assessment
