import Mathlib.Algebra.GroupWithZero.Nat
import DomainRag.Lib.Value
import DomainRag.Lib.Except

/-! # Answer segments

The segments of an LLM answer arrive as JSON of any shape. `parseSegments` turns them into the
records that the verification stages rewrite, and Tier 1 drops the citations that name no
retrieved context.
-/

namespace DomainRag.Verifier

inductive SupportLevel where
  | strong
  | medium
  | weak
  deriving DecidableEq, Repr

/-- The support type of a segment; `other` holds what the LLM wrote when it is none of the
documented types. -/
inductive SupportType where
  | direct
  | synthesis
  | inference
  | conflict
  | other (raw : Value)
  deriving Repr, Inhabited

inductive DowngradeReason where
  | conflictGroupsMissing
  | conflictGroupWeak
  | judgeNotEnabled
  | tier2ChunkWeak
  | synthesisChunkWeak
  | judgeRejected
  deriving DecidableEq, Repr

inductive Signal where
  | dateDiff
  | numericDiff
  | ruleIdDiff
  deriving DecidableEq, Repr

structure RetrievedChunk (S : Type) where
  chunkId : String
  docId : String
  title : String
  content : String
  pageNumber : Value
  sectionTitle : Value
  denseScore : S
  sparseScore : S
  fusedScore : S
  payload : Dict String Value
  rerankScore : Option S := none

structure VerifierThresholds (S : Type) where
  strongThreshold : S
  mediumThreshold : S
  minVerifiedCount : Int
  maxUnsupportedRatio : S
  minConfidence : S
  weightRetrieval : S
  weightVerified : S
  weightSupported : S
  weightCoverage : S
  inferenceJudgeEnabled : Bool

/-- The result for one cited chunk of one segment. -/
structure VerifiedCitation (S : Type) where
  segmentIndex : Nat
  chunkIndex : Int
  similarity : S
  supportLevel : SupportLevel
  verified : Bool
  deriving DecidableEq, Repr

structure Segment (S : Type) where
  index : Nat
  text : String
  citations : List Int
  supportType : SupportType
  inferenceChain : Value
  conflictGroups : Value
  conflictSignal : Option Signal := none
  citationMeta : Dict Int (VerifiedCitation S) := .empty
  downgraded : Option DowngradeReason := none
  pendingJudge : Bool := false
  judgeReasoning : Option String := none
  judgeCaveat : Option Value := none

def SupportType.ofRaw (raw : Value) : SupportType :=
  match raw with
  | .str s =>
    if s = "none" then .direct
    else if s = "direct" then .direct
    else if s = "synthesis" then .synthesis
    else if s = "inference" then .inference
    else if s = "conflict" then .conflict
    else .other raw
  | _ => .other raw

def normalizeSupportType (seg : Value) : Except Exc SupportType := do
  let supportType := (← seg.get "support_type").getD .null
  let citationType := (← seg.get "citation_type").getD .null
  return .ofRaw (supportType.orElse (citationType.orElse (.str "direct")))

def isInt? : Value → Option Int
  | .int n => some n
  | .bool b => some (if b then 1 else 0)
  | _ => none

section Parse

variable {S : Type} (repr : Value → String)

/-- One segment of `parse_segments`; `repr` is what `str` makes of a value that is no string. -/
def parseSegment (i : Nat) (seg : Value) : Except Exc (Segment S) := do
  let text := ((← seg.get "text").getD (.str "")).text repr
  let citations ← (((← seg.get "citations").getD .null).orElse (.list [])).iter
  let supportType ← normalizeSupportType seg
  return {
    index := i
    text := text
    citations := citations.filterMap isInt?
    supportType := supportType
    inferenceChain := (← seg.get "inference_chain").getD .null
    conflictGroups := (← seg.get "conflict_groups").getD .null }

def parseSegments (rawSegments : List Value) : Except Exc (List (Segment S)) :=
  rawSegments.zipIdx.mapM fun (seg, i) => parseSegment repr i seg

end Parse

def inRange (numContexts : Nat) (c : Int) : Bool := 1 ≤ c && c ≤ numContexts

def contextAt {S : Type} (contexts : List (RetrievedChunk S)) (c : Int) :
    Option (RetrievedChunk S) :=
  if inRange contexts.length c then contexts[(c - 1).toNat]? else none

theorem contextAt_eq_some {S : Type} {contexts : List (RetrievedChunk S)} {c : Int}
    {ctx : RetrievedChunk S} (h : contextAt contexts c = some ctx) :
    1 ≤ c ∧ c ≤ contexts.length ∧ contexts[(c - 1).toNat]? = some ctx := by
  rw [contextAt] at h
  split at h
  · rename_i hrange
    simp only [inRange, Bool.and_eq_true, decide_eq_true_eq] at hrange
    exact ⟨hrange.1, hrange.2, h⟩
  · cases h

def tier1Segment {S : Type} (numContexts : Nat) (seg : Segment S) : Segment S :=
  { seg with citations := seg.citations.filter (inRange numContexts) }

def tier1Filter {S : Type} (segments : List (Segment S)) (numContexts : Nat) :
    List (Segment S) × Nat :=
  (segments.map (tier1Segment numContexts),
   (segments.map fun seg =>
      seg.citations.length - (tier1Segment numContexts seg).citations.length).sum)

/-- A freshly parsed segment: nothing of the later stages is set. -/
structure Segment.Fresh {S : Type} (seg : Segment S) : Prop where
  citationMeta : seg.citationMeta = .empty
  downgraded : seg.downgraded = none
  pendingJudge : seg.pendingJudge = false

theorem parseSegment_ok {S : Type} {repr : Value → String} {i : Nat} {raw : Value}
    {seg : Segment S} (h : parseSegment repr i raw = .ok seg) :
    seg.index = i ∧ normalizeSupportType raw = .ok seg.supportType ∧ seg.Fresh := by
  obtain ⟨text, -, h⟩ := Except.bind_eq_ok_iff.mp h
  obtain ⟨rawCitations, -, h⟩ := Except.bind_eq_ok_iff.mp h
  obtain ⟨citations, -, h⟩ := Except.bind_eq_ok_iff.mp h
  obtain ⟨supportType, hsupport, h⟩ := Except.bind_eq_ok_iff.mp h
  obtain ⟨chain, -, h⟩ := Except.bind_eq_ok_iff.mp h
  obtain ⟨groups, -, h⟩ := Except.bind_eq_ok_iff.mp h
  cases h
  exact ⟨rfl, hsupport, rfl, rfl, rfl⟩

end DomainRag.Verifier
