import DomainRag.Assessment.Generators
import DomainRag.Lib.Except
import DomainRag.Lib.Sampling

/-! # Taking items out of the bank

A request names the items that it wants, and how many of each difficulty. The service takes them
from the first thousand that match, and counts the use of what it took.
-/

namespace DomainRag.Assessment.Extract

open Sampling

/-- An item with its use. The times are in seconds. -/
structure AssessmentItemRecord extends ItemRecord where
  usedCount : Int := 0
  lastUsedAt : Option Rat := none

def AssessmentItemRecord.touch (now : Rat) (r : AssessmentItemRecord) : AssessmentItemRecord :=
  { r with usedCount := r.usedCount + 1, lastUsedAt := some now }

structure ExtractCriteria where
  subject : Option String := none
  chapter : Option String := none
  difficulty : Option String := none
  difficultyDistribution : Option (Dict String Int) := none
  qualityStatus : List String := ["approved"]
  excludeRecentDays : Option Int := none
  tagsAny : List String := []

def floatOfInt (n : Int) : Except Exc Rat :=
  let m := roundToFloat n.natAbs
  if m < 2 ^ 1024 then .ok (if n < 0 then -(m : Rat) else m)
  else .error ⟨"OverflowError", "int too large to convert to float"⟩

namespace ExtractCriteria

variable (criteria : ExtractCriteria)

/-- Items used since this time are left out. -/
def threshold (now : Rat) : Except Exc (Option Rat) := do
  match criteria.excludeRecentDays with
  | none => return none
  | some days => return some (now - (← floatOfInt (days * 86400)))

def selects (threshold : Option Rat) (r : AssessmentItemRecord) : Bool :=
  (criteria.subject.isNone || r.subject = criteria.subject) &&
  (criteria.chapter.isNone || r.chapter = criteria.chapter) &&
  (criteria.difficulty.isNone || r.difficulty = criteria.difficulty) &&
  (criteria.qualityStatus.isEmpty || r.qualityStatus ∈ criteria.qualityStatus) &&
  threshold.all (fun t => r.lastUsedAt.all (· < t))

/-- What a value is as an element of a set. -/
def element : Value → Except Exc Value
  | .list _ => .error (.typeError "unhashable type: 'list'")
  | .dict _ => .error (.typeError "unhashable type: 'dict'")
  | v => .ok v

def isWanted (tag : Value) : Bool :=
  match tag with
  | .str tag => tag ∈ criteria.tagsAny
  | _ => false

/-- The set of the item's tags has a wanted one. -/
def wants (r : AssessmentItemRecord) : Except Exc Bool := do
  return (← r.tags.mapM element).any criteria.isWanted

end ExtractCriteria

/-- The items of all domains, each under its domain and its id. -/
structure InMemoryAssessmentItemRepository where
  records : Dict (String × String) AssessmentItemRecord
  keyed : ∀ e ∈ records.entries, e.1 = (e.2.domainId, e.2.itemId)

namespace InMemoryAssessmentItemRepository

variable (repo : InMemoryAssessmentItemRepository)

def get (domainId itemId : String) : Option AssessmentItemRecord :=
  repo.records.get? (domainId, itemId)

/-- The items of a domain that match, in the order of the bank. -/
def candidates (now : Rat) (domainId : String) (criteria : ExtractCriteria) :
    Except Exc (List AssessmentItemRecord) := do
  let threshold ← criteria.threshold now
  let rows := (repo.records.entries.filter fun e =>
    e.1.1 = domainId ∧ criteria.selects threshold e.2).map Prod.snd
  if criteria.tagsAny.isEmpty then return rows else filterOk criteria.wants rows

def listCandidatesForExtract (now : Rat) (domainId : String) (criteria : ExtractCriteria)
    (limit : Nat := 200) : Except Exc (List AssessmentItemRecord) := do
  return (← repo.candidates now domainId criteria).take limit

def touch (now : Rat) (domainId itemId : String) : InMemoryAssessmentItemRepository where
  records := repo.records.mapValues fun key r => if key = (domainId, itemId) then r.touch now else r
  keyed := by
    intro e he
    obtain ⟨e, hmem, rfl⟩ := List.mem_map.mp he
    simp only
    split
    · exact repo.keyed e hmem
    · exact repo.keyed e hmem

def touchUsed (now : Rat) (domainId : String) (itemIds : List String) :
    InMemoryAssessmentItemRepository :=
  itemIds.foldl (fun repo itemId => repo.touch now domainId itemId) repo

end InMemoryAssessmentItemRepository

structure Citation where
  citationId : String
  marker : String
  domainId : String
  supportType : String := "direct"
  itemId : String
  subject : Option String
  chapter : Option String
  difficulty : Option String
  questionTextExcerpt : String
  verified : Bool

def itemToCitation (item : AssessmentItemRecord) (marker domainId : String) : Citation where
  citationId := s!"cite-item-{item.itemId}"
  marker
  domainId
  itemId := item.itemId
  subject := item.subject
  chapter := item.chapter
  difficulty := item.difficulty
  questionTextExcerpt := String.ofList (item.questionText.toList.take 120)
  verified := item.qualityStatus = "approved"

structure ExtractResult where
  items : List AssessmentItemRecord := []
  extractedCount : Int := 0
  citations : List Citation := []
  insufficientPool : Dict String Int := .empty

/-- `c.difficulty or "unknown"` -/
def difficultyKey (r : AssessmentItemRecord) : String :=
  match r.difficulty with
  | none | some "" => "unknown"
  | some d => d

/-- What the loop over the difficulties has taken. `calls` counts the questions to the generator. -/
structure Selection where
  selected : List AssessmentItemRecord := []
  insufficientPool : Dict String Int := .empty
  calls : Nat := 0

variable (rng : Sampler AssessmentItemRecord)

def selectStep (byDifficulty : Dict String (List AssessmentItemRecord)) (s : Selection)
    (e : String × Int) : Selection :=
  let pool := (byDifficulty.get? e.1).getD []
  let insufficientPool := if pool.length < e.2 then
    s.insufficientPool.set e.1 (e.2 - pool.length) else s.insufficientPool
  let pick := min (pool.length : Int) e.2
  if pool ≠ [] ∧ 0 < pick then
    { selected := s.selected ++ rng.sample s.calls pool pick.toNat
      insufficientPool
      calls := s.calls + 1 }
  else { s with insufficientPool }

/-- An empty distribution counts as none. -/
def select (criteria : ExtractCriteria) (candidates : List AssessmentItemRecord) : Selection :=
  match criteria.difficultyDistribution with
  | none => { selected := candidates }
  | some dist =>
    if dist.entries.isEmpty then { selected := candidates } else
      dist.entries.foldl (selectStep rng (groups difficultyKey candidates)) {}

/-- The records of the result are those of the bank, so they show the use that was just counted.
The bank reads the clock when it lists the candidates and when it counts the use. -/
def extract (listedAt touchedAt : Rat) (repo : InMemoryAssessmentItemRepository)
    (domainId : String) (criteria : ExtractCriteria) :
    Except Exc (ExtractResult × InMemoryAssessmentItemRepository) := do
  let candidates ← repo.listCandidatesForExtract listedAt domainId criteria 1000
  let selection := select rng criteria candidates
  let selected := selection.selected
  let repo := if selected.isEmpty then repo else
    repo.touchUsed touchedAt domainId (selected.map fun r => r.itemId)
  let items := selected.map fun r => (repo.get domainId r.itemId).getD r
  return ({ items
            extractedCount := items.length
            citations := (items.zipIdx 1).map fun e => itemToCitation e.1 s!"[{e.2}]" domainId
            insufficientPool := selection.insufficientPool }, repo)

end DomainRag.Assessment.Extract
