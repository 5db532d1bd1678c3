import Mathlib.Data.Finset.Sort
import Mathlib.Data.String.Basic
import DomainRag.Verifier.Segment

/-! # The conflict heuristic

A segment whose cited chunks state different dates, amounts or article numbers is retyped to
a conflict, with the chunks grouped by the values that they state.
-/

namespace DomainRag.Verifier

/-- What the regular expressions of the detector find in a text: the numbers of each date, the
value and unit of each amount, and the numbers of each article, with or without a clause. -/
structure Patterns where
  dates : String → List (Nat × Nat × Nat)
  numericUnits : String → List (String × String)
  articleClauses : String → List (Nat × Nat)
  articles : String → List Nat

def zeroPad (width n : Nat) : String :=
  let digits := toString n
  String.ofList (List.replicate (width - digits.toList.length) '0') ++ digits

def normalizeDate (parts : Nat × Nat × Nat) : String :=
  zeroPad 4 parts.1 ++ "-" ++ zeroPad 2 parts.2.1 ++ "-" ++ zeroPad 2 parts.2.2

namespace Patterns

variable (p : Patterns)

def extractDates (text : String) : Finset String :=
  ((p.dates text).map normalizeDate).toFinset

def extractNumericByUnit (text : String) : Dict String (Finset String) :=
  (p.numericUnits text).foldl (fun out (value, unit) =>
    out.set unit (insert (value.replace "," "") ((out.get? unit).getD ∅))) .empty

def extractRuleIds (text : String) : Finset String :=
  ((p.articleClauses text).map fun (art, clause) => s!"art-{art}-clause-{clause}").toFinset ∪
    ((p.articles text).map fun art => s!"art-{art}").toFinset

end Patterns

/-- The chunks that state the same set of values, in the order in which the sets turn up. -/
def groupChunksByValue (chunkIndices : List Int) (valuesPerChunk : Int → Finset String) :
    List (List Int) :=
  let groups := chunkIndices.foldl (fun (groups : Dict (Finset String) (List Int)) c =>
    let vals := valuesPerChunk c
    if vals = ∅ then groups
    else groups.set vals ((groups.get? vals).getD [] ++ [c])) .empty
  groups.values.map fun g => g.insertionSort (· ≤ ·)

structure ConflictDetails where
  unit : Option String
  valuesPerChunk : List (String × List String)

structure ConflictDetection where
  signal : Signal
  conflictGroups : List (List Int)
  details : ConflictDetails

structure ConflictDetector where
  patterns : Patterns
  enabledPatterns : List Signal

def ConflictDetector.enabled (detector : ConflictDetector) : Bool :=
  !detector.enabledPatterns.isEmpty

def sortedValues (values : Int → Finset String) (chunkIndices : List Int) :
    List (String × List String) :=
  chunkIndices.map fun c => (toString c, (values c).sort)

def uniqueValues (values : Int → Finset String) (chunkIndices : List Int) : Finset String :=
  chunkIndices.foldr (fun c acc => values c ∪ acc) ∅

/-- Distinct chunks that state some value, as the keys of the source's dictionaries. -/
def contributing (values : Int → Finset String) (cidxs : List Int) : List Int :=
  cidxs.eraseDups.filter fun c => values c ≠ ∅

def detectDateDiff (dates : Int → Finset String) (cidxs : List Int) :
    Option ConflictDetection :=
  let groups := groupChunksByValue cidxs dates
  if 2 ≤ (uniqueValues dates cidxs).card ∧ 2 ≤ groups.length then
    some {
      signal := .dateDiff
      conflictGroups := groups
      details := ⟨none, sortedValues dates (contributing dates cidxs)⟩ }
  else none

/-- The comparison that amounts of one unit and article numbers share. -/
def detectAmong (signal : Signal) (unit : Option String) (values : Int → Finset String)
    (cidxs : List Int) : Option ConflictDetection :=
  let chunks := contributing values cidxs
  let groups := groupChunksByValue chunks values
  if 2 ≤ chunks.length ∧ 2 ≤ (uniqueValues values chunks).card ∧ 2 ≤ groups.length then
    some {
      signal := signal
      conflictGroups := groups
      details := ⟨unit, sortedValues values chunks⟩ }
  else none

def detectNumericDiff (units : Int → Dict String (Finset String)) (cidxs : List Int) :
    Option ConflictDetection :=
  ((cidxs.flatMap fun c => (units c).keys).toFinset.sort).findSome? fun unit =>
    detectAmong .numericDiff (some unit) (fun c => ((units c).get? unit).getD ∅) cidxs

def detectRuleIdDiff (ids : Int → Finset String) (cidxs : List Int) :
    Option ConflictDetection :=
  detectAmong .ruleIdDiff none ids cidxs

variable {S : Type}

def SupportType.isConflict : SupportType → Bool
  | .conflict => true
  | _ => false

/-- `detect_in_segment`: the first enabled signal, if any. -/
def ConflictDetector.detectInSegment (detector : ConflictDetector) (segment : Segment S)
    (contexts : List (RetrievedChunk S)) : Option ConflictDetection :=
  let cidxs := segment.citations.filter (inRange contexts.length)
  let text := fun c => ((contextAt contexts c).map RetrievedChunk.content).getD ""
  if !detector.enabled || segment.supportType.isConflict || cidxs.length < 2 then none
  else
    let byDate := if .dateDiff ∈ detector.enabledPatterns then
      detectDateDiff (fun c => detector.patterns.extractDates (text c)) cidxs else none
    let byNumber := if .numericDiff ∈ detector.enabledPatterns then
      detectNumericDiff (fun c => detector.patterns.extractNumericByUnit (text c)) cidxs else none
    let byRule := if .ruleIdDiff ∈ detector.enabledPatterns then
      detectRuleIdDiff (fun c => detector.patterns.extractRuleIds (text c)) cidxs else none
    byDate.or (byNumber.or byRule)

def groupsValue (groups : List (List Int)) : Value :=
  .list (groups.map fun g => .list (g.map Value.int))

def retype (segment : Segment S) (detection : ConflictDetection) : Segment S :=
  { segment with
    supportType := .conflict
    conflictGroups := groupsValue detection.conflictGroups
    conflictSignal := some detection.signal }

structure ConflictRecord where
  segmentIndex : Nat
  signal : Signal
  groups : List (List Int)
  details : ConflictDetails

def markConflict (detector : ConflictDetector) (contexts : List (RetrievedChunk S))
    (segment : Segment S) : Segment S :=
  match detector.detectInSegment segment contexts with
  | none => segment
  | some detection => retype segment detection

def conflictRecords (detector : ConflictDetector) (contexts : List (RetrievedChunk S))
    (segments : List (Segment S)) : List ConflictRecord :=
  segments.filterMap fun seg => (detector.detectInSegment seg contexts).map fun detection =>
    ⟨seg.index, detection.signal, detection.conflictGroups, detection.details⟩

/-- `detect_conflict_heuristic_node` on one segment: nothing happens without an enabled
detector or without contexts. -/
def heuristicSegment (detector : Option ConflictDetector) (contexts : List (RetrievedChunk S))
    (segment : Segment S) : Segment S :=
  match detector with
  | none => segment
  | some d => if !d.enabled || contexts.isEmpty then segment else markConflict d contexts segment

def detectConflictHeuristic (detector : Option ConflictDetector)
    (contexts : List (RetrievedChunk S)) (segments : List (Segment S)) : List (Segment S) :=
  segments.map (heuristicSegment detector contexts)

theorem heuristicSegment_cases (detector : Option ConflictDetector)
    (contexts : List (RetrievedChunk S)) (segment : Segment S) :
    heuristicSegment detector contexts segment = segment ∨
      ∃ d detection, detector = some d ∧ d.detectInSegment segment contexts = some detection ∧
        heuristicSegment detector contexts segment = retype segment detection := by
  cases detector with
  | none => exact .inl rfl
  | some d =>
    simp only [heuristicSegment, markConflict]
    split
    · exact .inl rfl
    · cases hd : d.detectInSegment segment contexts with
      | none => exact .inl rfl
      | some detection => exact .inr ⟨d, detection, rfl, hd, rfl⟩

end DomainRag.Verifier
