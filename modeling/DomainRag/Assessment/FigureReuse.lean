import DomainRag.Assessment.Generators
import DomainRag.Lib.Loop

/-! # New questions about the figures of old ones

The generator shows the figure of an approved item to a vision model, asks for a new question about
it and checks what comes back. A reference whose figure cannot be loaded, whose call fails or whose
question is not good enough is counted and passed over.
-/

namespace DomainRag.Assessment

open Program
open Storage (strip Bytes)

structure FigureReuseCriteria where
  subject : String
  chapter : Option String := none
  difficulty : String := "medium"
  count : Int := 3

structure FigureReuseResult where
  items : List ItemRecord := []
  generatedCount : Nat := 0
  referencesUsed : List String := []
  skippedNoImage : Nat := 0
  rejectedInvalid : Nat := 0
  vlmErrors : Nat := 0
  vlmUnavailable : Bool := false

def watermarkHints : List String := ["gisapass", "기사패스", "gisafirst", "comcbt"]

/-- The vision model and the loader of images, which may answer every round of the loop in their own
way. `newId` gives the digits of the id that a round draws. -/
structure AssessmentFigureReuseGenerator where
  health : Bool
  loadImage : (round : Nat) → Value → Except Exc Bytes
  describe : (round : Nat) → Bytes → String → Except Exc String
  json : JsonDecoder Value
  text : TextLibrary
  newId : (round : Nat) → String

abbrev FigureReuseTask := Program Exc ItemRows

namespace AssessmentFigureReuseGenerator

variable (g : AssessmentFigureReuseGenerator)

def buildVlmPrompt (ref : ItemRecord) : String :=
  let choices := " / ".intercalate (ref.choices.map g.text.str)
  "\n".intercalate (
    ["아래 그림은 정보처리기사 시험 문제에 사용된 그림이다.",
      "이 그림이 쓰인 원본 문제(참고용 — 그대로 베끼지 말 것):",
      "- 원본 문제: " ++ ref.questionText] ++
    (if choices = "" then [] else ["- 원본 보기: " ++ choices]) ++
    (if ref.answer = "" then [] else ["- 원본 정답: " ++ ref.answer]) ++
    (match ref.explanation with
      | none | some "" => []
      | some explanation => ["- 원본 해설: " ++ explanation]) ++
    ["",
      "위 원본 문제와 **같은 그림·같은 개념**을 평가하는 새로운 4지선다 객관식 문제 1개를 한국어로 만들어라.",
      "- 원본이 묻는 핵심 개념(예: 트리 순회 결과, 회로 동작, 자료구조 특성)을 유지하되, " ++
      "질문 표현·보기·정답은 새로 구성한다.",
      "- 그림에 찍힌 워터마크·로고·출처 표시(Gisapass, 기사패스, 사이트 주소 등)는 절대 문제의 " ++
      "소재로 쓰지 마라. 그것을 세거나 묻는 문제는 만들지 마라.",
      "- 보기 4개는 서로 모두 달라야 한다(동일 보기 금지).",
      "- 출력은 반드시 한국어로 하라. 다른 언어로 번역·치환하지 마라.",
      "- predicted_difficulty: 이 문항의 체감 난이도를 \"상\"/\"중\"/\"하\"로 독립 평가하라(상=어려움).",
      "- JSON만 출력: \x7b\"question_text\": str, \"choices\": [보기 4개 str], " ++
      "\"answer\": 정답 보기 텍스트(choices 중 하나와 정확히 일치), \"explanation\": str, " ++
      "\"predicted_difficulty\": \"상|중|하\"\x7d"])

def referencesWatermark (text : String) : Bool :=
  watermarkHints.any fun h => contains (g.text.lower text) h

def storageKey (ref : ItemRecord) : Value :=
  ((ref.assets.head?.join.getD .empty).get? "storage_key").getD .null

/-- The new item with the figure of its reference. -/
def newItem (domainId : String) (criteria : FigureReuseCriteria) (round : Nat) (ref : ItemRecord)
    (qtext : String) (choices : List String) (answer : String)
    (explanation predicted : Value) : ItemRecord where
  itemId := "Q-" ++ g.newId round
  domainId := domainId
  subject := match ref.subject with
    | none | some "" => some criteria.subject
    | subject => subject
  chapter := match ref.chapter with
    | none | some "" => criteria.chapter
    | chapter => chapter
  difficulty := some criteria.difficulty
  questionType := some "multiple_choice"
  questionText := qtext
  choices := choices.map .str
  answer := answer
  explanation := if g.text.str explanation = "" then none else some (g.text.str explanation)
  tags := [.str "figure_reuse"]
  qualityStatus := "draft"
  source := some "generated"
  referenceItemIds := [ref.itemId]
  assets := ref.assets
  figureDependent := true
  predictedDifficulty := g.text.normPredictedDifficulty predicted

/-- What a round makes of the JSON in a reply: an item, or nothing if it is not good enough. -/
def itemFrom (domainId : String) (criteria : FigureReuseCriteria) (round : Nat) (ref : ItemRecord)
    (parsed : Value) : Except Exc (Option ItemRecord) := do
  let qtext := strip (g.text.str (← parsed.getD "question_text" (.str "")))
  let given ← ((← parsed.getD "choices" .null).orElse (.list [])).iter
  let choices := (given.map fun c => strip (g.text.str c)).filter fun c => c ≠ ""
  let answer := strip (g.text.str (← parsed.getD "answer" (.str "")))
  if qtext = "" ∨ choices.length ≠ 4 ∨ answer ∉ choices then return none
  if (choices.map fun c => g.text.lower (strip c)).dedup.length < 4 then return none
  let shown := g.text.str ((← parsed.getD "explanation" .null).orElse (.str ""))
  if g.referencesWatermark (qtext ++ " " ++ " ".intercalate choices ++ " " ++ shown) then
    return none
  let explanation ← parsed.getD "explanation" (.str "")
  let predicted ← parsed.getD "predicted_difficulty" .null
  return some (g.newItem domainId criteria round ref qtext choices answer explanation predicted)

variable (domainId : String) (criteria : FigureReuseCriteria) (persist : Bool)

/-- A round of the loop. -/
def reuse (round : Nat) (ref : ItemRecord) (result : FigureReuseResult) :
    FigureReuseTask FigureReuseResult := do
  let key := storageKey ref
  if !key.truthy then return { result with skippedNoImage := result.skippedNoImage + 1 }
  match g.loadImage round key with
  | .error _ => return { result with skippedNoImage := result.skippedNoImage + 1 }
  | .ok image =>
  match g.describe round image (g.buildVlmPrompt ref) with
  | .error _ => return { result with vlmErrors := result.vlmErrors + 1 }
  | .ok raw =>
  match g.json.parse Value.isDict raw with
  | .error _ => return { result with rejectedInvalid := result.rejectedInvalid + 1 }
  | .ok parsed =>
    if !parsed.truthy then return { result with rejectedInvalid := result.rejectedInvalid + 1 }
    match ← Program.ofExcept (g.itemFrom domainId criteria round ref parsed) with
    | none => return { result with rejectedInvalid := result.rejectedInvalid + 1 }
    | some item =>
      if persist then modify fun rows => rows.upsert item
      return { result with
        items := result.items ++ [item]
        referencesUsed := result.referencesUsed ++ [ref.itemId] }

/-- There are as many items as were asked for. -/
def enough (result : FigureReuseResult) : Bool := criteria.count ≤ result.items.length

def generate : FigureReuseTask FigureReuseResult := do
  if !g.health then return { vlmUnavailable := true }
  let candidates := (← get).listCandidatesForExtract domainId
    { subject := some criteria.subject, chapter := criteria.chapter } 200
  let refs := candidates.filter fun c => c.figureDependent && !c.assets.isEmpty
  let result ← loopUntil (enough criteria)
    (fun result e => g.reuse domainId criteria persist e.2 e.1 result) refs.zipIdx {}
  return { result with generatedCount := result.items.length }

end AssessmentFigureReuseGenerator

end DomainRag.Assessment
