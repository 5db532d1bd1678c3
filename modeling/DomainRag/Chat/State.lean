import DomainRag.Acl.Filter
import DomainRag.Pii.Service
import DomainRag.Verifier.Config

/-! # The state of a chat run

The shared state of the chat graph, the tenant configuration that it loads and the row that it
writes into the chat log.
-/

namespace DomainRag.Chat

open Verifier (RetrievedChunk Segment Citation SupportType CitationConfig ConflictRecord JudgeCall
  Gate2Reason)

inductive Grounding where
  | grounded
  | ungrounded
  | assessment
  deriving DecidableEq, Repr

inductive FallbackReason where
  | authError
  | inputPiiBlocked
  | routing (action : String)
  | retrievalUnavailable
  | gate1Failed
  | lowGenerationQuality
  | gate2 (reason : Gate2Reason)
  deriving DecidableEq, Repr

def FallbackReason.text : FallbackReason → String
  | authError => "auth_error"
  | inputPiiBlocked => "input_pii_blocked"
  | routing action => "routing_" ++ action
  | retrievalUnavailable => "retrieval_unavailable"
  | gate1Failed => "gate1_failed"
  | lowGenerationQuality => "low_generation_quality"
  | gate2 reason => "gate2_" ++ reason.text

structure Turn where
  role : String
  content : String

structure UserContext where
  userId : Option String := none
  clearance : Option String := none
  department : Option String := none
  domainGroups : List String := []

structure RewriteConfig where
  enable : Option Bool := none
  strategy : Option String := none
  endpoint : Option String := none
  model : Option String := none
  maxTokens : Option Int := none
  temperature : Option Rat := none
  maxTerms : Option Int := none

structure RetrievalSection where
  excludeArchived : Option Bool := none
  fusedTopK : Option Int := none
  rerankTopK : Option Int := none
  contextTopK : Option Int := none
  rerankerBypass : Option Bool := none
  queryRewriting : Option RewriteConfig := none

structure AssessmentSection where
  defaultCount : Option Int := none
  maxTotal : Option Int := none
  maxSubjects : Option Int := none

/-- The effective configuration of a tenant. The sections that only the classifier and the
router read are kept as they are. -/
structure TenantConfig (S : Type) where
  citation : Option (CitationConfig S) := none
  retrieval : RetrievalSection := {}
  model : Value := .null
  routing : Value := .null
  queryClassifier : Value := .null
  pii : Option Pii.PiiConfig := none
  complianceMode : Option String := none
  assessment : AssessmentSection := {}

structure ClassificationResult where
  queryType : String
  supportType : Option String := none
  complexity : Option String := none
  tier1Matched : Option String := none
  tier2Called : Bool := false
  tier2ParseOk : Bool := true
  tier2Error : Option String := none
  rawResponse : Option String := none

/-- What the chat log keeps of the classification; without a classifier it is the default
type. -/
inductive ClassifierDecision where
  | none
  | skipped (queryType : String)
  | result (r : ClassificationResult)

structure AssessmentItem where
  subject : Option String
  difficulty : Option String
  predictedDifficulty : Option String
  questionText : String
  choices : List String
  answer : String
  explanation : Option String
  imageUrl : Option String := Option.none
  deriving DecidableEq, Repr

structure PlanEntry where
  subject : Option String
  count : Int
  difficulty : String
  figure : Bool := false
  deriving DecidableEq, Repr

/-- The segments of an answer: raw JSON from the LLM or from a node that answers without
citations, and records once `parse_response` has run. -/
inductive AnswerSegments (S : Type) where
  | raw (segments : List Value)
  | parsed (segments : List (Segment S))

inductive Gate1Metrics (S : Type) where
  | none
  | emptyRetrieval
  | measured (top1Score : S) (strongCount : Nat) (minTop1 : S) (minStrong : Int) (strongChunk : S)

structure VerifierMetrics (S : Type) where
  tier1MarkersRemoved : Option Nat := none
  conflictHeuristicDetected : Option Nat := none
  tier2AvgSimilarity : Option S := none
  tier3UnsupportedSegments : Option (List Nat) := none

structure ModelFailure where
  model : String
  lora : Value
  label : String
  reason : String
  detail : Option String

structure RAGState (S : Type) where
  requestId : String
  domainId : String
  userId : String
  conversationId : Option String
  question : String
  conversationHistory : List Turn
  userContext : Option UserContext
  tenantConfig : TenantConfig S
  aclFilter : Option Acl.Filter
  queryType : Option String
  supportType : Option String
  complexity : Option String
  classifierDecision : ClassifierDecision
  matchedRule : Option String
  selectedModel : Option String
  selectedLora : Value
  useRag : Bool
  uiMode : String
  grounding : Grounding
  assessmentItems : List AssessmentItem
  assessmentPlan : List PlanEntry
  rewrittenQuery : String
  retrievedChunks : List (RetrievedChunk S)
  rerankedChunks : List (RetrievedChunk S)
  finalContexts : List (RetrievedChunk S)
  retrievalError : Option String
  gate1Passed : Bool
  gate1Metrics : Gate1Metrics S
  inputPiiFound : List Pii.FindingRecord
  inputBlocked : Bool
  blockedCategories : List String
  questionForStorage : String
  piiStoragePolicy : Pii.StoragePolicy
  rawResponse : String
  answerSegments : AnswerSegments S
  limitations : Value
  citations : List (Citation S)
  citationTypes : List SupportType
  verifierMetrics : VerifierMetrics S
  inferenceJudgeResults : List (JudgeCall S)
  conflictGroups : List ConflictRecord
  unsupportedRatio : S
  finalAnswer : String
  outputPiiMasked : List Pii.FindingRecord
  gate2Passed : Bool
  confidence : S
  fallbackReason : Option FallbackReason
  nearMisses : List (RetrievedChunk S)
  modelFailureChain : List ModelFailure
  error : Option String

structure ChatRequest where
  requestId : String
  domainId : String
  userId : String
  conversationId : Option String
  question : String
  history : List Turn
  userContext : Option UserContext
  defaultModel : Option String

def RAGState.initial {S : Type} [Zero S] (request : ChatRequest) : RAGState S where
  requestId := request.requestId
  domainId := request.domainId
  userId := request.userId
  conversationId := request.conversationId
  question := request.question
  conversationHistory := request.history
  userContext := request.userContext
  tenantConfig := {}
  aclFilter := none
  queryType := none
  supportType := none
  complexity := none
  classifierDecision := .none
  matchedRule := none
  selectedModel := request.defaultModel
  selectedLora := .null
  useRag := true
  uiMode := "chat_structured"
  grounding := .grounded
  assessmentItems := []
  assessmentPlan := []
  rewrittenQuery := ""
  retrievedChunks := []
  rerankedChunks := []
  finalContexts := []
  retrievalError := none
  gate1Passed := false
  gate1Metrics := .none
  inputPiiFound := []
  inputBlocked := false
  blockedCategories := []
  questionForStorage := ""
  piiStoragePolicy := .mask
  rawResponse := ""
  answerSegments := .raw []
  limitations := .null
  citations := []
  citationTypes := []
  verifierMetrics := {}
  inferenceJudgeResults := []
  conflictGroups := []
  unsupportedRatio := 0
  finalAnswer := ""
  outputPiiMasked := []
  gate2Passed := false
  confidence := 0
  fallbackReason := none
  nearMisses := []
  modelFailureChain := []
  error := none

structure RoutingRecord where
  matchedRule : Option String
  selectedModel : Option String
  selectedLora : Value
  useRag : Bool
  uiMode : String
  grounding : Option Grounding
  retrievalError : Option String
  assessmentItems : List AssessmentItem
  assessmentPlan : List PlanEntry

structure RetrievedExcerpt (S : Type) where
  chunkId : String
  docId : String
  title : String
  pageNumber : Value
  sectionTitle : Value
  fusedScore : S
  rerankScore : Option S
  content : String

structure ChatLogPayload (S : Type) where
  domainId : String
  requestId : String
  userId : String
  conversationId : Option String
  question : String
  answer : String
  retrievedChunks : List (RetrievedExcerpt S)
  citations : List (Citation S)
  citationTypes : List SupportType
  rewrittenQuery : Option String
  llmModel : Option String
  loraAdapter : Value
  uiMode : String
  confidence : S
  fallbackReason : Option String
  unsupportedRatio : S
  verifierMetrics : VerifierMetrics S
  routingDecision : RoutingRecord
  classifierDecision : ClassifierDecision
  modelFailureChain : List ModelFailure
  inferenceJudgeResults : List (JudgeCall S)
  conflictGroups : List ConflictRecord
  inputPiiFound : List Pii.FindingRecord
  outputPiiMasked : List Pii.FindingRecord
  piiStoragePolicy : Pii.StoragePolicy

end DomainRag.Chat
