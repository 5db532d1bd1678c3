import DomainRag.Chat.Graph
import DomainRag.Evaluation.Dataset

/-! # What the runner records of a case

The metrics of one case and the result that is built from the last state of its run.
-/

namespace DomainRag

/-- A value used to look a string up in a set: containers cannot be looked up. -/
def Value.strKey? : Value → Except Exc (Option String)
  | list _ => .error (.typeError "unhashable type: 'list'")
  | dict _ => .error (.typeError "unhashable type: 'dict'")
  | str s => .ok (some s)
  | _ => .ok none

namespace Evaluation

open Chat (AnswerSegments FallbackReason responseAnswer)
open Verifier (Segment SupportType ratio)

/-- The label of a segment that the metric counts; the verifier has no such type. -/
def isUnsupported : SupportType → Bool
  | .other (.str s) => s = "unsupported"
  | _ => false

section Metrics

variable {S : Type} [Zero S] [One S] [Div S] [NatCast S]

def retrievalRecallAtK (retrievedChunkIds : List String) (expectedChunkIds : List Value) (k : Nat) :
    Except Exc S :=
  if expectedChunkIds.isEmpty then .ok 1
  else if retrievedChunkIds.isEmpty then .ok 0
  else do
    let keys ← expectedChunkIds.mapM Value.strKey?
    let hits := keys.countP fun key => key.any fun cid => cid ∈ retrievedChunkIds.take k
    return ratio hits expectedChunkIds.length

def citationAccuracy (citedChunkIds : List String) (expectedChunkIds : List Value) : Except Exc S :=
  if expectedChunkIds.isEmpty then .ok 1
  else if citedChunkIds.isEmpty then .ok 0
  else do
    let expectedSet ← expectedChunkIds.mapM Value.strKey?
    return ratio (citedChunkIds.countP fun c => some c ∈ expectedSet) citedChunkIds.length

/-- `seg.get("support_type") == "unsupported"` on a segment that was not parsed. -/
def rawUnsupported : Value → Bool
  | .dict kvs => match kvs.lookup "support_type" with
    | some (.str s) => s = "unsupported"
    | _ => false
  | _ => false

def unsupportedRatio : AnswerSegments S → S
  | .raw segments => ratio (segments.countP rawUnsupported) segments.length
  | .parsed segments =>
    ratio (segments.countP fun seg => isUnsupported seg.supportType) segments.length

end Metrics

structure EvalCaseResult (S : Type) where
  caseId : Value
  question : Value
  domainId : Value
  retrievedChunkIds : List String
  citedChunkIds : List String
  answerSegments : AnswerSegments S
  fallback : Bool
  fallbackReason : Option FallbackReason
  recallAt5 : S
  citationAcc : S
  unsupported : S
  passed : Bool
  failureReasons : List String

section Result

/-- The keyword with whether it is in the text; only a string can be looked for. -/
def keywordIn (answerText : String) : Value → Except Exc (String × Bool)
  | .str kw => .ok (kw, kw.toList <:+: answerText.toList)
  | v => .error (.typeError s!"'in <string>' requires string as left operand, not {v.typeName}")

def failureReasons (case : EvalCase) (answerText : String)
    (fallbackReason : Option FallbackReason) : Except Exc (List String) := do
  let wanted ← case.mustIncludeKeywords.mapM (keywordIn answerText)
  let unwanted ← case.mustNotIncludeKeywords.mapM (keywordIn answerText)
  let missing := (wanted.filter fun kw => !kw.2).map fun kw => "missing_keyword:" ++ kw.1
  let forbidden := (unwanted.filter fun kw => kw.2).map fun kw => "forbidden_keyword:" ++ kw.1
  let fallback := match fallbackReason with
    | none => if case.expectedFallback then ["expected_fallback_not_observed"] else []
    | some reason => if case.expectedFallback then [] else ["unexpected_fallback:" ++ reason.text]
  return missing ++ forbidden ++ fallback

variable {S : Type} [Zero S] [One S] [Div S] [NatCast S]

/-- `_build_case_result`: the chunks of the state carry no other id than that of the chunk. -/
def buildCaseResult (case : EvalCase) (state : Chat.RAGState S) :
    Except Exc (EvalCaseResult S) := do
  let retrieved := (state.retrievedChunks.map fun c => c.chunkId).filter (· ≠ "")
  let cited := (state.citations.map fun c => c.chunkId).filter (· ≠ "")
  let recallAt5 ← retrievalRecallAtK retrieved case.expectedChunkIds 5
  let citeAcc ← citationAccuracy cited case.expectedChunkIds
  let failures ← failureReasons case (responseAnswer state) state.fallbackReason
  return {
    caseId := case.caseId
    question := case.question
    domainId := case.domainId
    retrievedChunkIds := retrieved
    citedChunkIds := cited
    answerSegments := state.answerSegments
    fallback := state.fallbackReason.isSome
    fallbackReason := state.fallbackReason
    recallAt5 := recallAt5
    citationAcc := citeAcc
    unsupported := unsupportedRatio state.answerSegments
    passed := failures.isEmpty
    failureReasons := failures }

theorem buildCaseResult_unsupported {case : EvalCase} {state : Chat.RAGState S}
    {result : EvalCaseResult S} (h : buildCaseResult case state = .ok result) :
    result.unsupported = unsupportedRatio state.answerSegments := by
  obtain ⟨recallAt5, -, h⟩ := Except.bind_eq_ok_iff.mp h
  obtain ⟨citeAcc, -, h⟩ := Except.bind_eq_ok_iff.mp h
  obtain ⟨failures, -, h⟩ := Except.bind_eq_ok_iff.mp h
  cases h
  rfl

end Result

end Evaluation

end DomainRag
