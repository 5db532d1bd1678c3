import DomainRag.Assessment.Generators
import DomainRag.Lib.Loop

/-! # New questions from old ones

The generator asks a language model for new items, up to a number of times, and keeps those that pass
its guards: they are in Korean, need no picture, have choices that differ, and are not too similar
to an item of the bank. What it keeps may be validated before it is stored.
-/

namespace DomainRag.Assessment

open Program
open Storage (strip)
open Retrieval (isSpace)

section Guards

/-- A text has Chinese characters. -/
def hasCjkIdeograph (text : String) : Bool := text.toList.any isHan

def figureHints : List String :=
  ["그림", "다이어그램", "도식", "도표", "아래 표", "다음 표", "위 표", "보기의 표"]

def referencesFigure (text : String) : Bool := figureHints.any (contains text)

/-- The rest of a label: a dot or a bracket, and blanks. -/
def labelEnd? : List Char → Option (List Char)
  | mark :: c :: cs =>
    if (mark = '.' || mark = ')') && isSpace c then some (cs.dropWhile isSpace) else none
  | _ => none

/-- A text without the label that it starts with: a number in a circle, or a letter, a syllable or
up to two digits with a dot or a bracket. -/
def dropLabel : List Char → List Char
  | [] => []
  | c :: cs =>
    if 0x2460 ≤ c.toNat ∧ c.toNat ≤ 0x2473 then cs.dropWhile isSpace
    else if isHangul c || c.isAlpha then (labelEnd? cs).getD (c :: cs)
    else if isDigit c then
      match cs with
      | d :: rest => (labelEnd? (if isDigit d then rest else cs)).getD (c :: cs)
      | [] => c :: cs
    else c :: cs

def normChoice (text : TextLibrary) (c : Value) : String :=
  let s := strip (text.str (c.orElse (.str "")))
  text.lower (strip (String.ofList (dropLabel s.toList)))

/-- The choices that are not blank. -/
def shownChoices (text : TextLibrary) (choices : List Value) : List Value :=
  choices.filter fun c => strip (text.str c) ≠ ""

def degenerateChoices (text : TextLibrary) (choices : List Value) : Bool :=
  let norm := (shownChoices text choices).map (normChoice text)
  norm.length < 2 || norm.dedup.length < norm.length

end Guards

section Similarity

structure SimilarityThresholds where
  duplicate : Rat := 85 / 100
  similar : Rat := 65 / 100

structure SimilarCandidate where
  itemId : String
  similarity : Rat

structure SimilarityCheckResult where
  maxSimilarity : Rat := 0
  isDuplicate : Bool := false
  similarCandidates : List SimilarCandidate := []

/-- An item that the index has found, with its score. -/
structure Hit where
  itemId : String
  score : Rat

/-- The index of the items, which gives its hits in descending order of their scores. -/
structure ItemIndex where
  searchSimilar : String → List Hit
  sorted : ∀ text, (searchSimilar text).Pairwise fun h h' => h'.score ≤ h.score

/-- The similarity of a text to an item, and the rounding to four digits. -/
structure SimilarityChecker where
  similarity : String → ItemRecord → Rat
  thresholds : SimilarityThresholds
  round4 : Rat → Rat

namespace SimilarityChecker

variable (checker : SimilarityChecker)

def check (text : String) (candidates : List ItemRecord) : SimilarityCheckResult :=
  let maxSimilarity := candidates.foldl (fun m c => max m (checker.similarity text c)) 0
  if candidates = [] then {}
  else {
    maxSimilarity := maxSimilarity
    isDuplicate := checker.thresholds.duplicate ≤ maxSimilarity
    similarCandidates := (candidates.filter fun c =>
      checker.thresholds.similar ≤ checker.similarity text c).map fun c =>
        ⟨c.itemId, checker.round4 (checker.similarity text c)⟩ }

def checkHits (hits : List Hit) : SimilarityCheckResult :=
  let maxSimilarity := (hits.head?.map Hit.score).getD 0
  { maxSimilarity := maxSimilarity
    isDuplicate := checker.thresholds.duplicate ≤ maxSimilarity
    similarCandidates := (hits.filter fun h => checker.thresholds.similar ≤ h.score).map fun h =>
      ⟨h.itemId, checker.round4 h.score⟩ }

end SimilarityChecker

end Similarity

structure GenerateCriteria where
  subject : String
  chapter : Option String := none
  difficulty : String := "medium"
  count : Int := 5
  questionType : String := "multiple_choice"

structure SimilarityRecord where
  questionTextExcerpt : String
  maxSimilarity : Rat
  isDuplicate : Bool
  similarCandidates : List SimilarCandidate

/-- The result, with the scores that the validator's summary is computed from. -/
structure GenerateResult where
  items : List ItemRecord := []
  generatedCount : Nat := 0
  validatorScores : List Score := []
  similarityResults : List SimilarityRecord := []
  rejectedDuplicates : Nat := 0
  retriesUsed : Nat := 0

/-- The state of a run: how often the validators have called their model, and the bank. -/
structure GenerateState where
  calls : Nat
  rows : ItemRows

abbrev GenerateTask := Program Exc GenerateState

/-- The generator. Its model is called once in each try and may reply differently each time; `newId`
gives the digits of the id that the next item draws. -/
structure AssessmentGenerateService where
  llm : (retry : Nat) → String → Except Exc String
  loads : String → Except Exc Value
  text : TextLibrary
  similarity : SimilarityChecker
  validator : AssessmentValidator
  maxRetries : Int := 3
  itemIndex : Option ItemIndex := none
  newId : (made : Nat) → String

structure GenerateCall where
  domainId : String
  criteria : GenerateCriteria
  validatorsConfig : Option ValidatorsConfig := none
  persist : Bool := true
  validate : Bool := true

def onCalls {A : Type} (x : LlmTask A) : GenerateTask A := fun s =>
  match x s.calls with
  | .ok a calls => .ok a { s with calls := calls }
  | .error e calls => .error e { s with calls := calls }

namespace AssessmentGenerateService

variable (svc : AssessmentGenerateService) (call : GenerateCall)

section Candidates

/-- The question and the choices of a candidate, if it passes the guards. -/
def guarded (candidate : Value) : Except Exc (Option (String × List Value)) := do
  let qtext := strip (svc.text.str (← candidate.getD "question_text" (.str "")))
  if qtext = "" then return none
  let choicesRaw := (← candidate.getD "choices" .null).orElse (.list [])
  if hasCjkIdeograph qtext then return none
  let explanation := (← candidate.getD "explanation" .null).orElse (.str "")
  if hasCjkIdeograph (svc.text.str explanation) then return none
  let choices ← choicesRaw.iter
  if choices.any fun c => hasCjkIdeograph (svc.text.str c) then return none
  if referencesFigure qtext || choices.any fun c => referencesFigure (svc.text.str c) then
    return none
  if degenerateChoices svc.text choices then return none
  return some (qtext, choices)

/-- The items of the bank that a new question is compared with, if there is no index. -/
def refsForSimilarity (rows : ItemRows) : List ItemRecord :=
  rows.listCandidatesForExtract call.domainId
    { subject := some call.criteria.subject, qualityStatus := ["approved", "reviewed"] } 500

def checkSimilarity (refs : List ItemRecord) (qtext : String) : SimilarityCheckResult :=
  match svc.itemIndex with
  | some index => svc.similarity.checkHits (index.searchSimilar qtext)
  | none => svc.similarity.check qtext refs

def difficultyOf (candidate : Value) : Except Exc String := do
  return svc.text.str ((← candidate.getD "difficulty" .null).orElse (.str call.criteria.difficulty))

def validatedItem (candidate : Value) (qtext : String) (choices : List Value) :
    Except Exc ValidatedItem := do
  let answer ← candidate.getD "answer" (.str "")
  let explanation ← candidate.getD "explanation" .null
  let difficulty ← svc.difficultyOf call candidate
  return {
    questionText := qtext
    choices := choices
    answer := svc.text.str answer
    explanation := if explanation.truthy then some (svc.text.str explanation) else none
    difficulty := some difficulty }

/-- What the validators say of a candidate, or what stands for it if they are not asked. -/
def outcomeOf (candidate : Value) (qtext : String) (choices : List Value) :
    GenerateTask ValidationOutcome := do
  if call.validate then
    let item ← Program.ofExcept (svc.validatedItem call candidate qtext choices)
    onCalls (svc.validator.validate item call.validatorsConfig)
  else return ⟨"reviewed", .number 1, .empty⟩

def recordOf (made : Nat) (candidate : Value) (qtext : String) (choices : List Value)
    (outcome : ValidationOutcome) (sim : SimilarityCheckResult) : Except Exc ItemRecord := do
  let difficulty ← svc.difficultyOf call candidate
  let answer ← candidate.getD "answer" (.str "")
  let explanation := svc.text.str (← candidate.getD "explanation" (.str ""))
  let tags ← ((← candidate.getD "tags" .null).orElse (.list [])).iter
  let predicted ← candidate.getD "predicted_difficulty" .null
  return {
    itemId := "Q-" ++ svc.newId made
    domainId := call.domainId
    subject := some call.criteria.subject
    chapter := call.criteria.chapter
    difficulty := some difficulty
    questionType := some call.criteria.questionType
    questionText := qtext
    choices := choices
    answer := svc.text.str answer
    explanation := if explanation = "" then none else some explanation
    tags := tags
    qualityStatus := outcome.qualityStatus
    qualityScore := some outcome.qualityScore
    validatorResults := outcome.validatorResults
    source := some "generated"
    referenceItemIds := sim.similarCandidates.map (·.itemId)
    predictedDifficulty := svc.text.normPredictedDifficulty predicted }

def keep (result : GenerateResult) (candidate : Value) (qtext : String) (choices : List Value)
    (sim : SimilarityCheckResult) : GenerateTask GenerateResult := do
  let outcome ← svc.outcomeOf call candidate qtext choices
  let record ← Program.ofExcept
    (svc.recordOf call result.items.length candidate qtext choices outcome sim)
  if call.persist then modify fun s => { s with rows := s.rows.upsert record }
  return { result with
    items := result.items ++ [record]
    validatorScores := result.validatorScores ++
      if call.validate then [outcome.qualityScore] else [] }

def noteSimilarity (result : GenerateResult) (qtext : String) (sim : SimilarityCheckResult) :
    GenerateResult :=
  { result with similarityResults := result.similarityResults ++ [
    { questionTextExcerpt := String.ofList (qtext.toList.take 80)
      maxSimilarity := sim.maxSimilarity
      isDuplicate := sim.isDuplicate
      similarCandidates := sim.similarCandidates }] }

/-- A candidate is kept if it passes the guards and is no duplicate. -/
def addCandidate (refs : List ItemRecord) (result : GenerateResult) (candidate : Value) :
    GenerateTask GenerateResult := do
  match ← Program.ofExcept (svc.guarded candidate) with
  | none => return result
  | some (qtext, choices) =>
    let sim := svc.checkSimilarity refs qtext
    let result := noteSimilarity result qtext sim
    if sim.isDuplicate then
      return { result with rejectedDuplicates := result.rejectedDuplicates + 1 }
    else svc.keep call result candidate qtext choices sim

end Candidates

section Tries

def generatePrompt (refs : List ItemRecord) (needed : Int) : String :=
  let c := call.criteria
  let references := "\n".intercalate ((refs.take 5).map fun r =>
    s!"- [{r.itemId}] {r.questionText} (정답: {r.answer})")
  "당신은 시험 문제 출제 전문가입니다. 다음 조건에 맞춰 신규 문제 " ++ toString needed ++
  "개를 생성하세요.\n" ++
  "주제: " ++ c.subject ++ "\n장: " ++ c.chapter.getD "" ++ "\n난이도: " ++ c.difficulty ++
  "\n문제유형: " ++ c.questionType ++ "\n\n" ++
  "참고 문제:\n" ++ (if references = "" then "(참고 가능한 기존 문제 없음)" else references) ++
  "\n\n규칙:\n" ++
  "- 모든 텍스트(문제·보기·해설)는 반드시 한국어로 작성하세요. 한자·중국어·일본어를 절대 섞지 " ++
  "마세요(예: '공간'을 '空间'으로 쓰지 말 것). 기술 용어의 영문 표기(SQL, TCP/IP 등)는 허용합니다.\n" ++
  "- choices에는 보기 기호(①, 가., A. 등)를 붙이지 말고 보기 내용만 넣으세요. answer는 정답 보기의 " ++
  "내용(또는 번호)으로 명확히 표기하세요.\n" ++
  "- predicted_difficulty: 요청 난이도와 무관하게, 생성한 문항을 실제로 풀 때의 체감 난이도를 " ++
  "\"상\"/\"중\"/\"하\" 중 하나로 독립 평가하세요(상=어려움, 하=쉬움). " ++
  "보기 변별·풀이 단계·개념 깊이를 근거로.\n\n" ++
  "응답은 반드시 JSON: " ++
  "\x7b\"items\":[\x7b\"question_text\":str,\"choices\":[str],\"answer\":str,\"explanation\":str," ++
  "\"difficulty\":\"easy|medium|hard\",\"predicted_difficulty\":\"상|중|하\",\"tags\":[str]\x7d]\x7d"

/-- The list of items in a reply, or what went wrong. -/
def parseJsonItems (raw : String) : Except String (List Value) :=
  if raw = "" then .error "empty"
  else match svc.loads (unfence raw) with
    | .error e => .error s!"json_parse_error: {e.message}"
    | .ok (.dict kvs) => match kvs.lookup "items" with
      | some (.list items) => .ok items
      | _ => .error "items_not_list"
    | .ok _ => .error "items_not_list"

/-- The candidates in a reply; a call that failed and a reply that cannot be read have none. -/
def candidatesOf (reply : Except Exc String) : List Value :=
  match reply with
  | .error _ => []
  | .ok raw => match svc.parseJsonItems raw with
    | .error _ => []
    | .ok items => items

/-- There are as many items as were asked for. -/
def done (result : GenerateResult) : Bool := call.criteria.count ≤ result.items.length

/-- A try: one call of the model, and its candidates one after the other. -/
def tryOnce (refs similar : List ItemRecord) (result : GenerateResult) (retry : Nat) :
    GenerateTask GenerateResult :=
  let prompt := generatePrompt call refs (call.criteria.count - result.items.length)
  loopUntil (done call) (svc.addCandidate call similar) (svc.candidatesOf (svc.llm retry prompt))
    { result with retriesUsed := retry + 1 }

def generate : GenerateTask GenerateResult := do
  let rows := (← get).rows
  let refs := ((rows.listCandidatesForExtract call.domainId
    { subject := some call.criteria.subject, chapter := call.criteria.chapter } 20).filter
      fun r => !r.figureDependent).take 10
  let similar := if svc.itemIndex.isNone then refsForSimilarity call rows else []
  let result ← loopUntil (done call) (svc.tryOnce call refs similar)
    (List.range svc.maxRetries.toNat) {}
  return { result with generatedCount := result.items.length }

end Tries

end AssessmentGenerateService

end DomainRag.Assessment
