import DomainRag.Chat.State

/-! # Setting questions in the chat

The branch of the graph that answers with exam questions from the item bank: how many and of
which subjects is read off the question text, figures come from a second generator.
-/

namespace DomainRag.Chat

/-- The text functions of the host language that the chat uses: case folding, trimming, lines,
URL quoting, the numbers of questions that a text asks for (with their positions), the number
found by the narrower expression of the figure branch, and whether a choice already has a
label. -/
structure TextOps where
  lower : String → String
  strip : String → String
  splitLines : String → List String
  quote : String → String
  counts : String → List (Nat × Nat)
  figureCounts : String → List Nat
  labelled : String → Bool

def contains (text needle : String) : Bool := decide (needle.toList <:+: text.toList)

def containsAny (text : String) (needles : List String) : Bool := needles.any (contains text)

def findIndex (text needle : String) : Nat :=
  ((List.range (text.toList.length + 1)).find? fun i =>
    needle.toList.isPrefixOf (text.toList.drop i)).getD 0

def sliceTo {A : Type} (xs : List A) (n : Int) : List A :=
  if 0 ≤ n then xs.take n.toNat else xs.take (xs.length - n.natAbs)

def subjectAliases : List (String × List String) :=
  [ ("database", ["데이터베이스", "db", "디비"]),
    ("operating_system", ["운영체제", "운영체계", "운영 체제", "운영 체계", "os"]),
    ("software_engineering", ["소프트웨어공학", "소공"]),
    ("computer_structure", ["컴퓨터구조", "전산구조"]),
    ("data_communication", ["데이터통신", "통신", "네트워크"]),
    ("programming", ["프로그래밍", "프로그램언어", "언어"]),
    ("software_dev", ["소프트웨어개발", "개발"]),
    ("software_design", ["소프트웨어설계", "설계"]),
    ("info_system", ["정보시스템", "시스템관리"]),
    ("security", ["정보보안", "보안"]) ]

def allSubjectsHints : List String :=
  ["과목별", "각 과목", "전 과목", "모든 과목", "과목마다", "모의고사"]

def figureKeywords : List String :=
  ["이미지", "그림", "사진", "그래프", "도식", "다이어그램", "도표"]

structure AssessmentDefaults where
  defaultCount : Int
  maxTotal : Int
  maxSubjects : Int

def assessmentDefaults (cfg : AssessmentSection) : AssessmentDefaults where
  defaultCount := cfg.defaultCount.getD 3
  maxTotal := cfg.maxTotal.getD 20
  maxSubjects := cfg.maxSubjects.getD 6

section Plan

variable (text : TextOps)

def namedSubjects (question : String) (subjects : List String) : List String :=
  let ql := text.lower question
  subjects.filter fun subj =>
    let tokens := [text.lower subj, text.lower (subj.map fun c => if c = '_' then ' ' else c)]
    tokens.any (fun t => t ≠ "" && contains ql t) ||
      containsAny question ((subjectAliases.lookup subj).getD [])

def planDifficulty (q : String) : String :=
  if containsAny q ["어려운", "어렵게", "상", "hard"] then "hard"
  else if containsAny q ["쉬운", "쉽게", "하", "easy"] then "easy"
  else "medium"

def planAssessment (question : String) (subjects : List String) (defaults : AssessmentDefaults)
    (countOverride : Option Int) : List PlanEntry :=
  let asked := countOverride.getD (((text.counts question).head?.map fun m => (m.2 : Int)).getD
    defaults.defaultCount)
  let count := max 1 (min asked defaults.maxTotal)
  let difficulty := planDifficulty question
  let named := namedSubjects text question subjects
  let perSubject := containsAny question allSubjectsHints
  let chosen :=
    if subjects.isEmpty then []
    else if !named.isEmpty && !perSubject then sliceTo named defaults.maxSubjects
    else if perSubject then
      sliceTo (if named.isEmpty then subjects else named)
        (max 1 (min defaults.maxSubjects (defaults.maxTotal / count)))
    else subjects.take 1
  chosen.map fun s => { subject := some s, count := count, difficulty := difficulty }

def wantsFigure (question : String) : Bool := containsAny question figureKeywords

def difficultyFromQ (q : String) : String :=
  if containsAny q ["어려운", "어렵게", "hard"] then "hard"
  else if containsAny q ["쉬운", "쉽게", "easy"] then "easy"
  else "medium"

def argMin {A : Type} (key : A → Nat) : List A → Option A
  | [] => none
  | x :: xs => some (xs.foldl (fun best y => if key y < key best then y else best) x)

def distance (a b : Nat) : Nat := max a b - min a b

def figureCountNear (q : String) : Option Nat :=
  let positions := (figureKeywords.filter (contains q)).map (findIndex q)
  match positions with
  | [] => none
  | p :: ps =>
    let nearest := fun (m : Nat × Nat) =>
      ps.foldl (fun best p => min best (distance m.1 p)) (distance m.1 p)
    (argMin nearest (text.counts q)).map Prod.snd

/-- The total number of questions asked for, and how many of them with a figure. -/
def parseAssessmentCounts (q : String) (defaults : AssessmentDefaults) : Int × Int :=
  let nums := (text.counts q).map fun m => (m.2 : Int)
  if !wantsFigure q then (max 1 (nums.head?.getD defaults.defaultCount), 0)
  else
    let figures : Int := (figureCountNear text q).getD 1
    (max (nums.foldl max figures) figures, figures)

end Plan

structure GenerateCriteria where
  subject : Option String
  difficulty : String
  count : Int
  deriving DecidableEq, Repr

structure FigureReuseCriteria where
  subject : String
  difficulty : String
  count : Int
  deriving DecidableEq, Repr

structure GeneratedItem where
  subject : Option String
  difficulty : Option String
  predictedDifficulty : Option String
  questionText : String
  choices : List String
  answer : String
  explanation : Option String
  assetKey : Option String

structure FigureReuseResult where
  items : List GeneratedItem
  vlmUnavailable : Bool
  vlmErrors : Nat

/-- The generators of the item bank. Each call is answered in its own way, so an answer may
depend on the number of the call. -/
structure AssessmentServices where
  generate : Option (Nat → GenerateCriteria → Except Exc (List GeneratedItem))
  analyticsSummary : Option (String → Except Exc (List (String × Int)))
  figureReuse : Option (Nat → FigureReuseCriteria → Except Exc FigureReuseResult)

inductive GeneratorCall where
  | text (criteria : GenerateCriteria)
  | figure (criteria : FigureReuseCriteria)
  deriving DecidableEq, Repr

def itemToDict (text : TextOps) (item : GeneratedItem) (domainId : Option String) :
    AssessmentItem where
  subject := item.subject
  difficulty := item.difficulty
  predictedDifficulty := item.predictedDifficulty
  questionText := item.questionText
  choices := item.choices
  answer := item.answer
  explanation := item.explanation
  imageUrl :=
    match domainId, item.assetKey with
    | some d, some key => if d = "" ∨ key = "" then none
      else some ("/api/" ++ d ++ "/assessment/asset?key=" ++ text.quote key)
    | _, _ => none

/-- One call asks for at most five items. -/
def textBatches (plan : List PlanEntry) : List PlanEntry :=
  plan.flatMap fun e =>
    let rest : Nat := e.count.toNat % 5
    List.replicate (e.count.toNat / 5) { e with count := 5 } ++
      if rest = 0 then [] else [{ e with count := (rest : Int) }]

def collectTextItems (text : TextOps)
    (generate : Nat → GenerateCriteria → Except Exc (List GeneratedItem)) (plan : List PlanEntry)
    (maxTotal : Int) : List GeneratorCall × List AssessmentItem :=
  let criteria := (textBatches plan).map fun e =>
    ({ subject := e.subject, difficulty := e.difficulty, count := e.count } : GenerateCriteria)
  let items := criteria.zipIdx.flatMap fun (c, i) =>
    match generate i c with
    | .error _ => []
    | .ok items => items.map fun it => itemToDict text it none
  (criteria.map .text, sliceTo items maxTotal)

structure FigureState where
  calls : List GeneratorCall := []
  items : List AssessmentItem := []
  vlmUnavailable : Bool := false
  vlmErrors : Nat := 0

section Figures

variable (text : TextOps) (figureReuse : Nat → FigureReuseCriteria → Except Exc FigureReuseResult)
  (domainId : String) (count : Int) (difficulty : String)

def figurePass : List String → FigureState → FigureState
  | [], st => st
  | subj :: rest, st =>
    if count ≤ st.items.length then st
    else
      let criteria : FigureReuseCriteria := ⟨subj, difficulty, count - st.items.length⟩
      let called := { st with calls := st.calls ++ [.figure criteria] }
      match figureReuse st.calls.length criteria with
      | .error _ => figurePass rest called
      | .ok res =>
        if res.vlmUnavailable then { called with vlmUnavailable := true }
        else figurePass rest { called with
          vlmErrors := st.vlmErrors + res.vlmErrors
          items := st.items ++ res.items.map fun it => itemToDict text it (some domainId) }

/-- A second pass is made only when the first one came to nothing. -/
def collectFigureItems (tryList : List String) : FigureState :=
  if count ≤ 0 then {}
  else
    let first := figurePass text figureReuse domainId count difficulty (tryList.take 8) {}
    if first.vlmUnavailable || !first.items.isEmpty then first
    else figurePass text figureReuse domainId count difficulty (tryList.take 8) first

end Figures

def joinWith (sep : String) (xs : List String) : String := sep.intercalate xs

def formatAssessmentAnswer (text : TextOps) (items : List AssessmentItem)
    (plan : List PlanEntry) : String :=
  if items.isEmpty then
    "요청하신 과목에 승인된 문항이 부족해 지금은 출제할 수 없습니다. " ++
      "관리자가 해당 과목 문항을 검수·승인한 뒤 다시 시도해 주세요."
  else
    let subjects := ((plan.map fun p => p.subject.getD "None").dedup).insertionSort (· ≤ ·)
    let head := "문제은행을 근거로 " ++ toString items.length ++ "문제를 출제했습니다 (과목: " ++
      joinWith ", " subjects ++ ").\n"
    let body := items.zipIdx.flatMap fun (it, i) =>
      ("**" ++ toString (i + 1) ++ ". (" ++ it.subject.getD "" ++ ") " ++ it.questionText ++ "**") ::
      (it.choices.zipIdx.map fun (choice, ci) =>
        let c := text.strip choice
        if text.labelled c then "   " ++ c
        else "   " ++ String.singleton (Char.ofNat (65 + ci)) ++ ". " ++ c) ++ [""]
    let solutions := items.zipIdx.map fun (it, i) =>
      let explanation := it.explanation.getD ""
      toString (i + 1) ++ ". 정답: " ++ it.answer ++
        if explanation = "" then "" else " — " ++ explanation
    joinWith "\n" (head :: body ++ "---\n**정답 및 해설**" :: solutions)

/-- The answer of the branch; without items it is a plain message. -/
structure AssessmentAnswer where
  grounding : Grounding
  items : List AssessmentItem
  plan : List PlanEntry
  answer : String

def AssessmentAnswer.message (msg : String) : AssessmentAnswer := ⟨.ungrounded, [], [], msg⟩

section Branches

variable (text : TextOps) (domainId question : String) (subjects : List String)

def tryList : List String :=
  let named := namedSubjects text question subjects
  if named.isEmpty then subjects else named

def figureReuseBranch
    (figureReuse : Nat → FigureReuseCriteria → Except Exc FigureReuseResult) :
    List GeneratorCall × AssessmentAnswer :=
  let asked : Int := ((text.figureCounts question).head?.map fun n => (n : Int)).getD 1
  let count := max 1 (min asked 5)
  let difficulty := difficultyFromQ question
  let named := namedSubjects text question subjects
  let st := collectFigureItems text figureReuse domainId count difficulty
    (tryList text question subjects)
  if st.items.isEmpty then
    (st.calls, .message
      (if st.vlmUnavailable || st.vlmErrors > 0 then
        "그림 출제 모델(VLM)이 일시적으로 응답하지 못했습니다. 잠시 후 다시 시도해 주세요."
      else if !named.isEmpty then
        "'" ++ joinWith ", " named ++ "' 과목에는 재사용할 수 있는 그림 문항이 없습니다. " ++
          "관리자가 해당 과목의 그림 문항을 승인했는지 확인하거나, 다른 과목으로 요청해 주세요."
      else "재사용할 수 있는 그림 문항이 없습니다. 관리자가 그림 문항을 승인한 뒤 다시 시도해 주세요."))
  else
    let plan := st.items.map fun it =>
      ({ subject := it.subject, count := 1, difficulty := difficulty, figure := true } : PlanEntry)
    let note := if (st.items.length : Int) < count then
      "\n\n※ 요청하신 " ++ toString count ++ "개 중 재사용 가능한 그림 문항이 부족해 " ++
        toString st.items.length ++ "개만 출제했습니다." else ""
    (st.calls, ⟨.assessment, st.items, plan, formatAssessmentAnswer text st.items plan ++ note⟩)

def compoundTextItems (generate : Nat → GenerateCriteria → Except Exc (List GeneratedItem))
    (textCount : Int) (defaults : AssessmentDefaults) :
    List GeneratorCall × List AssessmentItem :=
  if textCount ≤ 0 then ([], [])
  else
    collectTextItems text generate (planAssessment text question subjects defaults (some textCount))
      defaults.maxTotal

def compoundAssessmentBranch
    (generate : Nat → GenerateCriteria → Except Exc (List GeneratedItem))
    (figureReuse : Nat → FigureReuseCriteria → Except Exc FigureReuseResult)
    (total figureCount : Int) (defaults : AssessmentDefaults) :
    List GeneratorCall × AssessmentAnswer :=
  let difficulty := difficultyFromQ question
  let textCount := max 0 (total - figureCount)
  let texts := compoundTextItems text question subjects generate textCount defaults
  let st := collectFigureItems text figureReuse domainId figureCount difficulty
    (tryList text question subjects)
  let items := texts.2 ++ st.items
  let calls := texts.1 ++ st.calls
  if items.isEmpty then
    (calls, .message ("요청하신 조건으로 출제할 수 있는 문항이 부족합니다. " ++
      "잠시 후 다시 시도하거나 다른 과목으로 요청해 주세요."))
  else
    let plan := items.map fun it =>
      ({ subject := it.subject, count := 1, difficulty := difficulty,
         figure := (it.imageUrl.getD "") ≠ "" } : PlanEntry)
    let figureNote := if (st.items.length : Int) < figureCount then
      ["그림 문항은 재사용 가능분이 부족해 " ++ toString st.items.length ++ "/" ++
        toString figureCount ++ "개만 포함했습니다."] else []
    let textNote := if 0 < textCount ∧ (texts.2.length : Int) < textCount then
      ["텍스트 문항은 " ++ toString texts.2.length ++ "/" ++ toString textCount ++
        "개 생성됐습니다."] else []
    let notes := figureNote ++ textNote
    let suffix := if notes.isEmpty then "" else "\n\n※ " ++ joinWith " " notes
    (calls, ⟨.assessment, items, plan, formatAssessmentAnswer text items plan ++ suffix⟩)

end Branches

/-- The subjects of the item bank, those with most items first; a failure leaves none. -/
def availableSubjects (services : AssessmentServices) (domainId : String) : List String :=
  match services.analyticsSummary with
  | none => []
  | some summary =>
    match summary domainId with
    | .error _ => []
    | .ok bySubject => (bySubject.insertionSort fun a b => b.2 ≤ a.2).map Prod.fst

def assessment (text : TextOps) (services : AssessmentServices) (cfg : AssessmentSection)
    (domainId question : String) : List GeneratorCall × AssessmentAnswer :=
  match services.generate with
  | none => ([], .message "출제 기능이 현재 비활성화되어 있습니다.")
  | some generate =>
    let subjects := availableSubjects services domainId
    let defaults := assessmentDefaults cfg
    let plain :=
      let plan := planAssessment text question subjects defaults none
      let texts := collectTextItems text generate plan defaults.maxTotal
      (texts.1, ⟨.assessment, texts.2, plan, formatAssessmentAnswer text texts.2 plan⟩)
    match services.figureReuse with
    | none => plain
    | some figureReuse =>
      if !wantsFigure question then plain
      else
        let (total, figureCount) := parseAssessmentCounts text question defaults
        if 0 < figureCount ∧ figureCount < total then
          compoundAssessmentBranch text domainId question subjects generate figureReuse total
            figureCount defaults
        else figureReuseBranch text domainId question subjects figureReuse

/-- The branch never leaves the grounding of a verified answer. -/
theorem assessment_not_grounded (text : TextOps) (services : AssessmentServices)
    (cfg : AssessmentSection) (domainId question : String) :
    (assessment text services cfg domainId question).2.grounding ≠ .grounded := by
  have hfigure : ∀ subjects figureReuse,
      (figureReuseBranch text domainId question subjects figureReuse).2.grounding ≠ .grounded := by
    intro subjects figureReuse
    rw [figureReuseBranch]
    split <;> simp [AssessmentAnswer.message]
  have hcompound : ∀ subjects generate figureReuse total figureCount defaults,
      (compoundAssessmentBranch text domainId question subjects generate figureReuse total
        figureCount defaults).2.grounding ≠ .grounded := by
    intro subjects generate figureReuse total figureCount defaults
    rw [compoundAssessmentBranch]
    split <;> simp [AssessmentAnswer.message]
  rw [assessment]
  cases services.generate with
  | none => simp [AssessmentAnswer.message]
  | some generate =>
    cases services.figureReuse with
    | none => simp
    | some figureReuse =>
      simp only
      split
      · simp
      · split
        · exact hcompound _ _ _ _ _ _
        · exact hfigure _ _

end DomainRag.Chat
