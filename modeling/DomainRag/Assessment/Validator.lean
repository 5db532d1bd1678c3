import DomainRag.Assessment.ItemExtractor
import DomainRag.Assessment.Reply

/-! # Validating an item with a language model

Up to four validators ask the model about an item, and the item is reviewed if none of them objects.
A reply that cannot be read as JSON counts as an objection, but of the JSON that is read only some
shapes are expected.
-/

namespace DomainRag.Assessment

open Program

inductive ValidatorName where
  | answer
  | explanation
  | choices
  | difficulty
  deriving DecidableEq

def validatorNames : List ValidatorName := [.answer, .explanation, .choices, .difficulty]

def ValidatorName.text : ValidatorName → String
  | answer => "answer"
  | explanation => "explanation"
  | choices => "choices"
  | difficulty => "difficulty"

structure ValidatorRunResult where
  name : ValidatorName
  enabled : Bool := true
  valid : Bool := true
  score : Score := .number 1
  reasoning : String := ""
  suggestions : List Reply := []
  rawResponse : Option String := none
  parseError : Option String := none

/-- What an outcome tells about a validator. -/
structure ValidatorSummary where
  enabled : Bool
  valid : Bool
  score : Score
  reasoning : String
  suggestions : List Reply
  parseError : Option String

def ValidatorRunResult.summary (r : ValidatorRunResult) : ValidatorSummary :=
  ⟨r.enabled, r.valid, r.score, r.reasoning, r.suggestions, r.parseError⟩

structure ValidationOutcome where
  qualityStatus : String
  qualityScore : Score
  validatorResults : Dict ValidatorName ValidatorSummary

structure ValidatedItem where
  questionText : String
  choices : List Value
  answer : String
  explanation : Option String
  difficulty : Option String

abbrev ValidatorsConfig := Dict String (Dict String Value)

/-- The language model, whose replies may differ from call to call, and what is used of the standard
library: the JSON decoder, the parser of floating-point numbers, their mean rounded to four digits,
and `repr`. -/
structure AssessmentValidator where
  generate : Nat → String → Except Exc String
  json : JsonDecoder Reply
  float : String → Option Score
  mean : List Score → Score
  repr : Value → String
  reprReply : Reply → String

/-- What is known of a validator's reply. -/
structure Attempt where
  raw : String := ""
  parsed : Reply := .dict []
  err : Option String := some "empty_response"

/-- What the validators have said so far. -/
structure Verdicts where
  results : Dict ValidatorName ValidatorRunResult := .empty
  scores : List Score := []
  anyInvalid : Bool := false
  anyLow : Bool := false

namespace AssessmentValidator

variable (x : AssessmentValidator) (item : ValidatedItem) (cfg : ValidatorsConfig)

def isEnabled (name : ValidatorName) : Bool :=
  ((((cfg.get? name.text).getD .empty).get? "enable").getD (.bool true)).truthy

def replyShape : String :=
  "JSON 응답: \x7b\"valid\": bool, \"score\": 0~1, \"reasoning\": str, \"suggestions\": [str]\x7d"

def prompt (name : ValidatorName) : String :=
  let question := item.questionText
  let choices := ", ".intercalate (item.choices.map fun c => c.text x.repr)
  let explanation := item.explanation.getD ""
  match name with
  | .answer =>
    "다음 시험 문제의 정답이 논리적·사실적으로 옳은지 평가하세요.\n" ++
    "Q: " ++ question ++ "\n선택지: " ++ choices ++ "\n정답: " ++ item.answer ++ "\n해설: " ++
    explanation ++ "\n" ++ replyShape
  | .explanation =>
    "다음 해설이 정답을 정합하게 설명하는지 평가하세요.\n" ++
    "Q: " ++ question ++ "\n정답: " ++ item.answer ++ "\n해설: " ++ explanation ++ "\n" ++
    replyShape
  | .choices =>
    "다음 객관식 문제의 오답 보기들이 plausible한지(혼동 가능한지) 평가하세요.\n" ++
    "Q: " ++ question ++ "\n선택지: " ++ choices ++ "\n정답: " ++ item.answer ++ "\n" ++
    replyShape
  | .difficulty =>
    "다음 문제의 난이도 라벨이 실제 난이도와 일치하는지 평가하세요.\n" ++
    "Q: " ++ question ++ "\n선택지: " ++ choices ++ "\n라벨: " ++ item.difficulty.getD "" ++ "\n" ++
    replyShape

/-- A call of the model, after which the last reply is still known if the call failed. -/
def attempt (before : Attempt) : Except Exc String → Attempt
  | .error e => { before with err := some s!"llm_failed: {e.message}" }
  | .ok raw => match x.json.parse Reply.isDict raw with
    | .ok parsed => ⟨raw, parsed, none⟩
    | .error err => ⟨raw, .dict [], some err⟩

def attempts (prompt : String) : (tries : Nat) → Attempt → LlmTask Attempt
  | 0, before => return before
  | tries + 1, before => do
    let call ← get
    set (call + 1)
    let after := x.attempt before (x.generate call prompt)
    if after.err.isNone then return after else attempts prompt tries after

/-- What a reply says, if it has the expected shape. -/
def judge (name : ValidatorName) (raw : String) (parsed : Reply) :
    Except Exc ValidatorRunResult := do
  let valid := (← parsed.getD "valid" (.bool false)).truthy
  let score ←
    ((← parsed.getD "score" (.float (.number 0))).orElse (.float (.number 0))).toFloat x.float
  let reasoning ← parsed.getD "reasoning" (.str "")
  let suggestions ← ((← parsed.getD "suggestions" .null).orElse (.list [])).iter
  return {
    name := name
    valid := valid
    score := score
    reasoning := reasoning.text x.reprReply
    suggestions := suggestions
    rawResponse := some raw }

/-- What the validators have said, with the last reply to one of them. -/
def addReply (acc : Verdicts) (name : ValidatorName) (a : Attempt) : Except Exc Verdicts :=
  match a.err with
  | some err => return { acc with
      results := acc.results.set name {
        name := name
        valid := false
        score := .number 0
        rawResponse := if a.raw = "" then none else some a.raw
        parseError := some err }
      anyInvalid := true }
  | none => do
    let r ← x.judge name a.raw a.parsed
    return {
      results := acc.results.set name r
      scores := acc.scores ++ [r.score]
      anyInvalid := acc.anyInvalid || !r.valid
      anyLow := acc.anyLow || r.score.low }

def runValidator (acc : Verdicts) (name : ValidatorName) : LlmTask Verdicts := do
  if !isEnabled cfg name then
    return { acc with results := acc.results.set name { name := name, enabled := false } }
  let a ← x.attempts (x.prompt item name) 2 {}
  Program.ofExcept (x.addReply acc name a)

def validate (validatorsConfig : Option ValidatorsConfig) : LlmTask ValidationOutcome := do
  let cfg := validatorsConfig.getD .empty
  let acc ← validatorNames.foldlM (x.runValidator item cfg) {}
  return {
    qualityStatus := if acc.anyInvalid || acc.anyLow then "draft" else "reviewed"
    qualityScore := if acc.scores = [] then .number 1 else x.mean acc.scores
    validatorResults := acc.results.mapValues fun _ r => r.summary }

end AssessmentValidator

end DomainRag.Assessment
