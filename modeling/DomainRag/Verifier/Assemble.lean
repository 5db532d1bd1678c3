import Mathlib.Order.Lattice
import DomainRag.Verifier.Tier2

/-! # Judging, assembling and gating an answer

The judge decides the inference segments that Tier 2 let through. What is left is turned into
citation objects, a confidence and the verdict of Gate 2.
-/

namespace DomainRag.Verifier

variable {V S : Type}

structure JudgeRequest (S : Type) where
  claimText : String
  citedChunks : List (RetrievedChunk S)
  inferenceChain : Value

structure JudgeResult (S : Type) where
  valid : Bool
  confidence : S
  reasoning : String
  caveat : Value
  parseOk : Bool

/-- The judge answers each call in its own way, so its answer may depend on the segment that
the call is about. -/
structure JudgeService (S : Type) where
  minConfidence : S
  judge : Nat → JudgeRequest S → Except Exc (JudgeResult S)

structure JudgeCall (S : Type) where
  segmentIndex : Nat
  request : JudgeRequest S
  result : JudgeResult S

def JudgeResult.passes [LE S] [DecidableLE S] (result : JudgeResult S) (minConfidence : S) :
    Bool :=
  result.valid && minConfidence ≤ result.confidence

def applyJudgeResult (segment : Segment S) (judgePasses : Bool) (reasoning : String)
    (caveat : Value) : Segment S :=
  let judged := { segment with
    pendingJudge := false
    judgeReasoning := if reasoning = "" then segment.judgeReasoning else some reasoning }
  if judgePasses then
    { judged with
      citationMeta := segment.citationMeta.mapValues fun _ a => a.capped
      judgeCaveat := if caveat.truthy then some caveat else segment.judgeCaveat }
  else judged.downgrade .judgeRejected .empty

section Judge

variable [LE S] [DecidableLE S]

def judgeRequest (contexts : List (RetrievedChunk S)) (seg : Segment S) : JudgeRequest S where
  claimText := seg.text
  citedChunks := seg.citations.filterMap (contextAt contexts)
  inferenceChain := seg.inferenceChain

def judgeSegment (service : JudgeService S) (contexts : List (RetrievedChunk S))
    (seg : Segment S) : Except Exc (Segment S × Option (JudgeCall S)) :=
  if !seg.pendingJudge then .ok (seg, none)
  else do
    let request := judgeRequest contexts seg
    let result ← service.judge seg.index request
    let passes := result.parseOk && result.passes service.minConfidence
    return (applyJudgeResult seg passes result.reasoning result.caveat,
      some ⟨seg.index, request, result⟩)

/-- `judge_inference_node` on its segments, with the calls that it made. -/
def judgeInference (service : Option (JudgeService S)) (contexts : List (RetrievedChunk S))
    (segments : List (Segment S)) : Except Exc (List (Segment S) × List (JudgeCall S)) :=
  match service with
  | none => .ok (segments, [])
  | some service => do
    let judged ← segments.mapM (judgeSegment service contexts)
    return (judged.map Prod.fst, judged.filterMap Prod.snd)

end Judge

structure Citation (S : Type) where
  marker : String
  domainId : String
  supportType : SupportType
  supportLevel : Option SupportLevel
  verified : Option Bool
  claimText : String
  docId : Option Value
  chunkId : String
  title : String
  pageNumber : Value
  sectionTitle : Value
  excerpt : String
  score : S
  rerankScore : Option S
  similarity : Option S

def citationOf (domainId : String) (seg : Segment S) (cidx : Int) (ctx : RetrievedChunk S) :
    Citation S :=
  let cited := seg.citationMeta.get? cidx
  { marker := s!"[{cidx}]"
    domainId := domainId
    supportType := seg.supportType
    supportLevel := cited.map VerifiedCitation.supportLevel
    verified := cited.map VerifiedCitation.verified
    claimText := seg.text
    docId := ctx.payload.get? "doc_id"
    chunkId := ctx.chunkId
    title := ctx.title
    pageNumber := ctx.pageNumber
    sectionTitle := ctx.sectionTitle
    excerpt := String.ofList (ctx.content.toList.take 200)
    score := ctx.fusedScore
    rerankScore := ctx.rerankScore
    similarity := cited.map VerifiedCitation.similarity }

def segmentCitations (domainId : String) (contexts : List (RetrievedChunk S))
    (seg : Segment S) : List (Citation S) :=
  seg.citations.filterMap fun c => (contextAt contexts c).map (citationOf domainId seg c)

def assembleCitations (segments : List (Segment S)) (contexts : List (RetrievedChunk S))
    (domainId : String) : List (Citation S) × List SupportType :=
  let out := segments.flatMap (segmentCitations domainId contexts)
  (out, out.map Citation.supportType)

def downgradeCaveat : String :=
  "일부 답변은 추론·충돌 검증이 결선되지 않아 인용을 제거했습니다. 담당 부서 확인을 권장합니다."

/-- The limitations of an answer, with the caveat when some segment was downgraded. -/
def mergeLimitations (repr : Value → String) (segments : List (Segment S))
    (limitations : Value) : Value :=
  if segments.any fun seg => seg.downgraded.isSome then
    if limitations.truthy then .str (limitations.text repr ++ "\n" ++ downgradeCaveat)
    else .str downgradeCaveat
  else limitations

def finalAnswer (segments : List (Segment S)) : String :=
  String.join (segments.map Segment.text)

section Gate

variable [LinearOrder S] [Zero S] [One S] [Add S] [Sub S] [Mul S] [Div S] [NatCast S]

def ratio (part whole : Nat) : S := if whole = 0 then 0 else (part : S) / (whole : S)

def tier3Unsupported (segments : List (Segment S)) : List Nat × S :=
  let unsupported := (segments.filter fun seg => seg.citations.isEmpty).map Segment.index
  (unsupported, ratio unsupported.length segments.length)

def RetrievedChunk.topScore (c : RetrievedChunk S) : S := c.rerankScore.getD c.fusedScore

def top1 : List (RetrievedChunk S) → S
  | [] => 0
  | c :: cs => cs.foldl (fun best c => max best c.topScore) c.topScore

def verifiedCount (citations : List (Citation S)) : Nat :=
  citations.countP fun c => c.verified = some true

def computeConfidence (segments : List (Segment S)) (citations : List (Citation S))
    (contexts : List (RetrievedChunk S)) (unsupportedRatio : S) (t : VerifierThresholds S) : S :=
  let retrieval := max 0 (min 1 (top1 contexts))
  let markerCount := (segments.map fun seg => seg.citations.length).sum
  let verified : S := ratio (verifiedCount citations) markerCount
  let supported := max 0 (1 - unsupportedRatio)
  let segWithCite := segments.countP fun seg => !seg.citations.isEmpty
  let coverage : S := ratio segWithCite segments.length
  let score := retrieval * t.weightRetrieval + verified * t.weightVerified
    + supported * t.weightSupported + coverage * t.weightCoverage
  max 0 (min 1 score)

inductive Gate2Reason where
  | belowMinVerifiedCount
  | aboveMaxUnsupportedRatio
  | belowMinConfidence
  deriving DecidableEq, Repr

def Gate2Reason.text : Gate2Reason → String
  | belowMinVerifiedCount => "below_min_verified_count"
  | aboveMaxUnsupportedRatio => "above_max_unsupported_ratio"
  | belowMinConfidence => "below_min_confidence"

/-- The first condition of Gate 2 that fails, or nothing when the answer passes. -/
def evaluateGate2 (citations : List (Citation S)) (unsupportedRatio confidence : S)
    (t : VerifierThresholds S) : Option Gate2Reason :=
  if (verifiedCount citations : Int) < t.minVerifiedCount then some .belowMinVerifiedCount
  else if t.maxUnsupportedRatio < unsupportedRatio then some .aboveMaxUnsupportedRatio
  else if confidence < t.minConfidence then some .belowMinConfidence
  else none

structure VerificationResult (S : Type) where
  segments : List (Segment S)
  citations : List (Citation S)
  citationTypes : List SupportType
  unsupportedSegmentIndices : List Nat
  unsupportedRatio : S
  tier1MarkersRemoved : Nat
  tier2AvgSimilarity : S
  confidence : S
  gate2 : Option Gate2Reason
  finalAnswer : String
  limitations : Value

/-- The one-shot verification, which has neither the heuristic nor the judge. -/
def run (repr : Value → String) (embedder : Embedder V) (cosine : V → V → S)
    (rawSegments : List Value) (contexts : List (RetrievedChunk S)) (domainId : String)
    (t : VerifierThresholds S) (limitations : Value) : Except Exc (VerificationResult S) := do
  let parsed ← parseSegments repr rawSegments
  let (filtered, removed) := tier1Filter parsed contexts.length
  let tier2 ← tier2Classify embedder cosine filtered contexts t
  let (unsupported, unsupportedRatio) := tier3Unsupported tier2.segments
  let (citations, types) := assembleCitations tier2.segments contexts domainId
  let confidence := computeConfidence tier2.segments citations contexts unsupportedRatio t
  return {
    segments := tier2.segments
    citations := citations
    citationTypes := types
    unsupportedSegmentIndices := unsupported
    unsupportedRatio := unsupportedRatio
    tier1MarkersRemoved := removed
    tier2AvgSimilarity := tier2.avgSimilarity
    confidence := confidence
    gate2 := evaluateGate2 citations unsupportedRatio confidence t
    finalAnswer := finalAnswer tier2.segments
    limitations := mergeLimitations repr tier2.segments limitations }

end Gate

end DomainRag.Verifier
