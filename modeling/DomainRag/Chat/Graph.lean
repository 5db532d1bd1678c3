import DomainRag.Chat.Nodes
import DomainRag.Lib.Machine

/-! # The chat graph

The nodes of `build_chat_structured_full` with their edges and routers, and the response that
is built from the last state of a run.
-/

namespace DomainRag.Chat

open Verifier (RetrievedChunk Citation SupportType ConflictRecord JudgeCall)

inductive Node where
  | tenantResolver
  | loadTenantConfig
  | checkInputPii
  | buildAclFilter
  | classifyQuery
  | modelRouter
  | assessment
  | queryRewrite
  | retrieveContext
  | gate1
  | generateAnswer
  | generateUngrounded
  | parseResponse
  | verifyTier1
  | detectConflictHeuristic
  | verifyTier2
  | judgeInference
  | detectUnsupported
  | assembleResponse
  | maskResponsePii
  | computeConfidence
  | gate2
  | fallback
  | saveChatLog
  deriving DecidableEq, Repr

variable {V S : Type}

section Routers

def checkInputPiiRouter (state : RAGState S) : Node :=
  if state.inputBlocked then .fallback else .buildAclFilter

def assessmentIntentRouter (state : RAGState S) : Node :=
  if state.queryType = some "assessment_generation" then .assessment else .queryRewrite

def gate1FullRouter (state : RAGState S) : Node :=
  if state.gate1Passed then .generateAnswer else .generateUngrounded

def postMaskGroundingRouter (state : RAGState S) : Node :=
  if state.grounding = .grounded then .computeConfidence else .saveChatLog

def gate2Router (state : RAGState S) : Node :=
  if state.gate2Passed then .saveChatLog else .fallback

def nextNode (n : Node) (state : RAGState S) : Option Node :=
  match n with
  | .tenantResolver => some .loadTenantConfig
  | .loadTenantConfig => some .checkInputPii
  | .checkInputPii => some (checkInputPiiRouter state)
  | .buildAclFilter => some .classifyQuery
  | .classifyQuery => some .modelRouter
  | .modelRouter => some (assessmentIntentRouter state)
  | .assessment => some .maskResponsePii
  | .queryRewrite => some .retrieveContext
  | .retrieveContext => some .gate1
  | .gate1 => some (gate1FullRouter state)
  | .generateUngrounded => some .maskResponsePii
  | .generateAnswer => some .parseResponse
  | .parseResponse => some .verifyTier1
  | .verifyTier1 => some .detectConflictHeuristic
  | .detectConflictHeuristic => some .verifyTier2
  | .verifyTier2 => some .judgeInference
  | .judgeInference => some .detectUnsupported
  | .detectUnsupported => some .assembleResponse
  | .assembleResponse => some .maskResponsePii
  | .maskResponsePii => some (postMaskGroundingRouter state)
  | .computeConfidence => some .gate2
  | .gate2 => some (gate2Router state)
  | .fallback => some .saveChatLog
  | .saveChatLog => none

/-- The nodes in the reverse of an order in which every edge goes forward. -/
def Node.rank : Node → Nat
  | .tenantResolver => 21
  | .loadTenantConfig => 20
  | .checkInputPii => 19
  | .buildAclFilter => 18
  | .classifyQuery => 17
  | .modelRouter => 16
  | .queryRewrite => 15
  | .retrieveContext => 14
  | .gate1 => 13
  | .generateAnswer => 12
  | .parseResponse => 11
  | .verifyTier1 => 10
  | .detectConflictHeuristic => 9
  | .verifyTier2 => 8
  | .judgeInference => 7
  | .detectUnsupported => 6
  | .assembleResponse | .assessment | .generateUngrounded => 5
  | .maskResponsePii => 4
  | .computeConfidence => 3
  | .gate2 => 2
  | .fallback => 1
  | .saveChatLog => 0

theorem nextNode_descends (n : Node) (state : RAGState S) (n' : Node)
    (h : nextNode n state = some n') : n'.rank < n.rank := by
  cases n with
  | checkInputPii =>
    obtain rfl := Option.some.inj h
    rw [checkInputPiiRouter]
    split <;> decide
  | modelRouter =>
    obtain rfl := Option.some.inj h
    rw [assessmentIntentRouter]
    split <;> decide
  | gate1 =>
    obtain rfl := Option.some.inj h
    rw [gate1FullRouter]
    split <;> decide
  | maskResponsePii =>
    obtain rfl := Option.some.inj h
    rw [postMaskGroundingRouter]
    split <;> decide
  | gate2 =>
    obtain rfl := Option.some.inj h
    rw [gate2Router]
    split <;> decide
  | saveChatLog => cases h
  | _ =>
    obtain rfl := Option.some.inj h
    decide

theorem nextNode_eq_none_iff {n : Node} {state : RAGState S} :
    nextNode n state = none ↔ n = .saveChatLog := by
  cases n <;> simp [nextNode]

end Routers

section Graph

variable [LinearOrder S] [Zero S] [One S] [Add S] [Sub S] [Mul S] [Div S] [NatCast S]
  [OfScientific S]

def execNode (deps : RAGGraphDeps V S) (n : Node) (state : RAGState S) :
    List (Call S) × Except Exc (RAGState S) :=
  match n with
  | .tenantResolver => ([], .ok (tenantResolverNode state))
  | .loadTenantConfig => ([], loadTenantConfigNode deps state)
  | .checkInputPii => ([], .ok (checkInputPiiNode deps state))
  | .buildAclFilter => ([], .ok (buildAclFilterNode deps state))
  | .classifyQuery => ([], classifyQueryNode deps state)
  | .modelRouter => ([], modelRouterNode deps state)
  | .assessment => ((assessmentNode deps state).1, .ok (assessmentNode deps state).2)
  | .queryRewrite => ([], .ok (queryRewriteNode deps state))
  | .retrieveContext => ([], .ok (retrieveContextNode deps state))
  | .gate1 => ([], .ok (gate1Node state))
  | .generateAnswer => ((generateAnswerNode deps state).1, .ok (generateAnswerNode deps state).2)
  | .generateUngrounded =>
    ((generateUngroundedNode deps state).1, .ok (generateUngroundedNode deps state).2)
  | .parseResponse => ([], parseResponseNode deps state)
  | .verifyTier1 => ([], .ok (verifyTier1Node state))
  | .detectConflictHeuristic => ([], .ok (detectConflictHeuristicNode deps state))
  | .verifyTier2 => ([], verifyTier2Node deps state)
  | .judgeInference => ([], judgeInferenceNode deps state)
  | .detectUnsupported => ([], .ok (detectUnsupportedNode state))
  | .assembleResponse => ([], .ok (assembleResponseNode deps state))
  | .maskResponsePii => ([], .ok (maskResponsePiiNode deps state))
  | .computeConfidence => ([], .ok (computeConfidenceNode state))
  | .gate2 => ([], .ok (gate2Node state))
  | .fallback => ([], .ok (fallbackNode state))
  | .saveChatLog => saveChatLogNode deps state

def chatGraph (deps : RAGGraphDeps V S) : Machine Node (RAGState S) Exc (Call S) where
  exec := execNode deps
  next := nextNode
  rank := Node.rank
  descends := nextNode_descends

def chatRun (deps : RAGGraphDeps V S) (request : ChatRequest) :
    Machine.Run Node (RAGState S) Exc (Call S) :=
  (chatGraph deps).run .tenantResolver (.initial request)

def Comes (deps : RAGGraphDeps V S) (request : ChatRequest) (n : Node) (state : RAGState S) :
    Prop :=
  (chatGraph deps).Reach .tenantResolver (.initial request) n state

end Graph

section Response

inductive Status where
  | success
  | fallback
  deriving DecidableEq, Repr

structure FallbackBlock (S : Type) where
  reason : String
  blockedCategories : List String := []
  nearMisses : List (RetrievedChunk S) := []
  suggestedActions : List String
  retryAfterSeconds : Option Nat := none

structure ResponseMetadata (S : Type) where
  grounding : Grounding
  llmModel : Option String
  loraAdapter : Value
  gate1Metrics : Gate1Metrics S
  confidence : S
  citationTypes : List SupportType
  verifier : VerifierMetrics S
  inferenceJudgeResults : List (JudgeCall S)
  conflictGroups : List ConflictRecord
  inputPiiFound : List Pii.FindingRecord
  outputPiiMasked : List Pii.FindingRecord
  assessmentItems : List AssessmentItem
  assessmentPlan : List PlanEntry

structure ChatResponse (S : Type) where
  status : Status
  conversationId : String
  messageId : String
  answer : String
  answerSegments : AnswerSegments S
  fallback : Option (FallbackBlock S) := none
  citations : List (Citation S)
  limitations : Value
  metadata : ResponseMetadata S

/-- The texts of the segments in sequence; a segment without a text adds nothing. -/
def AnswerSegments.text : AnswerSegments S → String
  | raw segments => String.join (segments.map fun seg =>
      match seg with
      | .dict kvs => match kvs.lookup "text" with
        | some (.str s) => s
        | _ => ""
      | _ => "")
  | parsed segments => String.join (segments.map Verifier.Segment.text)

def responseAnswer (state : RAGState S) : String :=
  if state.finalAnswer = "" then state.answerSegments.text else state.finalAnswer

def responseMetadata (state : RAGState S) : ResponseMetadata S where
  grounding := state.grounding
  llmModel := state.selectedModel
  loraAdapter := state.selectedLora
  gate1Metrics := state.gate1Metrics
  confidence := state.confidence
  citationTypes := state.citationTypes
  verifier := state.verifierMetrics
  inferenceJudgeResults := state.inferenceJudgeResults
  conflictGroups := state.conflictGroups
  inputPiiFound := state.inputPiiFound
  outputPiiMasked := state.outputPiiMasked
  assessmentItems := if state.grounding = .assessment then state.assessmentItems else []
  assessmentPlan := if state.grounding = .assessment then state.assessmentPlan else []

def fallbackBlock (reason : FallbackReason) (state : RAGState S) : FallbackBlock S :=
  if reason = .inputPiiBlocked then
    { reason := reason.text
      blockedCategories := state.blockedCategories
      suggestedActions := ["민감 정보(주민번호·계좌·API key 등)를 제거하고 다시 시도하세요."] }
  else
    { reason := reason.text
      nearMisses := state.nearMisses
      suggestedActions := ["더 구체적인 키워드로 다시 질문해 보세요.", "관련 부서에 직접 문의하세요."]
      retryAfterSeconds := some 60 }

def buildChatResponse (state : RAGState S) (conversationId messageId : String) :
    ChatResponse S :=
  match state.fallbackReason with
  | some reason =>
    { status := .fallback
      conversationId := conversationId
      messageId := messageId
      answer := if responseAnswer state = "" then fallbackDefaultText else responseAnswer state
      answerSegments := .raw []
      fallback := some (fallbackBlock reason state)
      citations := []
      limitations := .null
      metadata := responseMetadata state }
  | none =>
    { status := .success
      conversationId := conversationId
      messageId := messageId
      answer := responseAnswer state
      answerSegments := state.answerSegments
      citations := state.citations
      limitations := state.limitations
      metadata := responseMetadata state }

theorem buildChatResponse_status {state : RAGState S} {conversationId messageId : String} :
    (buildChatResponse state conversationId messageId).status = .success ↔
      state.fallbackReason = none := by
  rw [buildChatResponse]
  cases state.fallbackReason <;> simp

theorem buildChatResponse_metadata (state : RAGState S) (conversationId messageId : String) :
    (buildChatResponse state conversationId messageId).metadata = responseMetadata state := by
  rw [buildChatResponse]
  split <;> rfl

theorem buildChatResponse_citations (state : RAGState S) (conversationId messageId : String) :
    (buildChatResponse state conversationId messageId).citations =
      if state.fallbackReason = none then state.citations else [] := by
  rw [buildChatResponse]
  cases state.fallbackReason <;> rfl

theorem buildChatResponse_answer {state : RAGState S} (conversationId messageId : String)
    {answer : String} (hanswer : answer ≠ "") (h : state.finalAnswer = answer) :
    (buildChatResponse state conversationId messageId).answer = answer := by
  have hresponse : responseAnswer state = answer := by
    rw [responseAnswer, h]
    exact if_neg hanswer
  rw [buildChatResponse, hresponse]
  split
  · exact if_neg hanswer
  · rfl

theorem fallbackInputPiiText_ne_empty : fallbackInputPiiText ≠ "" := by decide +kernel

end Response

end DomainRag.Chat
