import DomainRag.Assessment.ItemExtractor

/-! # Importing an exam

An import stores the questions that an extractor reads from a paper, with the figures next to them.
It skips questions that are stored already, and may approve those whose answer is known. What it
stored before it raised stays stored.
-/

namespace DomainRag.Assessment

open Storage (strip Bytes AssetRecord)

section Dedup

/-- The parts of Python's text library that a key is made with: `fold` normalizes a text (NFKC) and
folds its case, `repr` is the text of a value that is no string. -/
structure TextRules where
  fold : String → String
  repr : Value → String

def isWordChar (c : Char) : Bool :=
  ('0' ≤ c && c ≤ '9') || ('a' ≤ c && c ≤ 'z') || ('가' ≤ c && c ≤ '힣')

variable (rules : TextRules)

def normText (s : String) : String := String.ofList ((rules.fold s).toList.filter isWordChar)

def dedupKey (questionText : String) (choices : List Value) : String :=
  let parts := (choices.map fun c => normText rules (c.text rules.repr)).filter fun p => p ≠ ""
  normText rules questionText ++ "|" ++ "|".intercalate (parts.insertionSort (· ≤ ·))

/-- The key by which a question is recognized, if its text is long enough for one. -/
def dedupKey? (questionText : String) (choices : List Value) : Option String :=
  if 10 ≤ (strip questionText).length then some (dedupKey rules questionText choices) else none

end Dedup

structure ExtractedFigure where
  pageNumber : Int
  bbox : List Value
  pngBytes : Bytes
  nearQuestionNumber : Option Int

structure ExtractedPdf where
  pageTexts : List String
  figures : List ExtractedFigure

structure AssessmentItemRecord where
  itemId : String
  domainId : String
  subject : Option String
  questionType : String
  questionText : String
  choices : List Value
  answer : String
  tags : List String
  assets : List AssetRecord
  figureDependent : Bool
  qualityStatus : String
  source : String

structure ImportItemResult where
  itemId : String
  number : Int
  subject : Option String
  figureDependent : Bool
  assetCount : Nat
  qualityStatus : String
  hasAnswer : Bool
  answerVerified : Bool
  flags : List String

structure ImportResult where
  created : Nat := 0
  figuresStored : Nat := 0
  parsedCount : Nat := 0
  answerKeyCount : Nat := 0
  duplicatesSkipped : Nat := 0
  figuresSkippedFurniture : Nat := 0
  items : List ImportItemResult := []

structure ImportCall where
  domainId : String
  itemIdPrefix : String
  answerPageIndex : Option Int := none
  defaultQualityStatus : String := "draft"
  tags : List String := []
  autoApprove : Bool := false

/-- The item repository with its rows `R`, and the storage of the figures with its state `W`. -/
structure Backing (W R : Type) where
  listActiveDedupPairs : R → (domainId : String) → Except Exc (List (String × List Value))
  upsert : R → AssessmentItemRecord → Except Exc R
  storeFigure : (domainId itemId : String) → ExtractedFigure → Program Exc W AssetRecord

/-- `stored` lists the questions of the import that were stored, with their records. -/
structure ImportState (W R : Type) where
  world : W
  rows : R
  stored : List (ParsedExamItem × AssessmentItemRecord) := []

abbrev ImportTask (W R : Type) := Program Exc (ImportState W R)

structure AssessmentImportService where
  itemExtractor : ItemExtractor
  rules : TextRules
  sha256 : Bytes → String
  furnitureMinPages : Nat := 2

section Figures

variable (service : AssessmentImportService) (pdf : ExtractedPdf) (ansIdx : Int)

/-- The same picture stands on several pages. -/
def AssessmentImportService.furniture (fig : ExtractedFigure) : Bool :=
  let same := pdf.figures.filter fun other =>
    service.sha256 other.pngBytes = service.sha256 fig.pngBytes
  max 2 service.furnitureMinPages ≤ (same.map ExtractedFigure.pageNumber).dedup.length

/-- The figures of a question, without those of the answer page. -/
def questionFigures : List ExtractedFigure :=
  pdf.figures.filter fun fig => fig.pageNumber - 1 ≠ ansIdx ∧ fig.nearQuestionNumber.isSome

def AssessmentImportService.figuresOf (number : Int) : List ExtractedFigure :=
  (questionFigures pdf ansIdx).filter fun fig =>
    fig.nearQuestionNumber = some number ∧ !service.furniture pdf fig

end Figures

/-- `{n:03d}` -/
def pad3 (n : Int) : String :=
  let sign := if n < 0 then "-" else ""
  let digits := toString n.natAbs
  sign ++ String.ofList (List.replicate (3 - sign.length - digits.length) '0') ++ digits

section Import

variable {W R : Type}

def onWorld {A : Type} (x : Program Exc W A) : ImportTask W R A := fun s =>
  match x s.world with
  | .ok a world => .ok a { s with world := world }
  | .error e world => .error e { s with world := world }

namespace ParsedExamItem

variable (item : ParsedExamItem)

def dedupKey? (rules : TextRules) : Option String :=
  Assessment.dedupKey? rules item.questionText (item.choices.map .str)

/-- The answer is known, and there are four choices. -/
def answerVerified : Bool := item.answerIndex.isSome && item.choices.length = 4

def qualityStatus (call : ImportCall) : String :=
  if call.autoApprove && item.answerVerified && "language_drift" ∉ item.flags then "approved"
  else call.defaultQualityStatus

end ParsedExamItem

namespace AssessmentImportService

variable (service : AssessmentImportService) (backing : Backing W R) (call : ImportCall)
  (pdf : ExtractedPdf) (ansIdx : Int)

def recordOf (item : ParsedExamItem) (figs : List ExtractedFigure) (assets : List AssetRecord) :
    AssessmentItemRecord where
  itemId := call.itemIdPrefix ++ pad3 item.number
  domainId := call.domainId
  subject := item.subject
  questionType := "multiple_choice"
  questionText := item.questionText
  choices := item.choices.map .str
  answer := item.answerValue.getD ""
  tags := call.tags
  assets := assets
  figureDependent := figs ≠ [] || item.figureDependent
  qualityStatus := item.qualityStatus call
  source := "imported"

def resultOf (item : ParsedExamItem) (record : AssessmentItemRecord) : ImportItemResult where
  itemId := record.itemId
  number := item.number
  subject := item.subject
  figureDependent := record.figureDependent
  assetCount := record.assets.length
  qualityStatus := record.qualityStatus
  hasAnswer := item.answerValue.getD "" ≠ ""
  answerVerified := item.answerVerified
  flags := item.flags

def storeItem (result : ImportResult) (item : ParsedExamItem) : ImportTask W R ImportResult := do
  let figs := service.figuresOf pdf ansIdx item.number
  let assets ← figs.mapM fun fig =>
    onWorld (backing.storeFigure call.domainId (call.itemIdPrefix ++ pad3 item.number) fig)
  let record := recordOf call item figs assets
  let s ← get
  let rows ← Program.ofExcept (backing.upsert s.rows record)
  set { s with rows := rows, stored := s.stored ++ [(item, record)] }
  return { result with
    created := result.created + 1
    figuresStored := result.figuresStored + assets.length
    items := result.items ++ [resultOf item record] }

/-- One question of the paper; `seenKeys` are those of the questions before it. -/
def importItem (seenKeys : List String) (result : ImportResult) (item : ParsedExamItem) :
    ImportTask W R (List String × ImportResult) := do
  match item.dedupKey? service.rules with
  | none => return (seenKeys, ← service.storeItem backing call pdf ansIdx result item)
  | some key =>
    if key ∈ seenKeys then
      return (seenKeys, { result with duplicatesSkipped := result.duplicatesSkipped + 1 })
    else return (key :: seenKeys, ← service.storeItem backing call pdf ansIdx result item)

def importPdf : ImportTask W R ImportResult := do
  let ansIdx := call.answerPageIndex.getD (pdf.pageTexts.length - 1)
  let parsed ← Program.ofExcept (service.itemExtractor.extract pdf.pageTexts (some ansIdx))
  let pairs ← Program.ofExcept (backing.listActiveDedupPairs (← get).rows call.domainId)
  let result : ImportResult := {
    parsedCount := parsed.parsedCount
    answerKeyCount := parsed.answerKeyCount
    figuresSkippedFurniture := (questionFigures pdf ansIdx).countP (service.furniture pdf) }
  let seenKeys := pairs.map fun pair => dedupKey service.rules pair.1 pair.2
  let (_, result) ← parsed.items.foldlM
    (fun acc item => service.importItem backing call pdf ansIdx acc.1 acc.2 item) (seenKeys, result)
  return result

end AssessmentImportService

end Import

end DomainRag.Assessment
