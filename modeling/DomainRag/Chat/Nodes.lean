import DomainRag.Chat.Rewriter
import DomainRag.Chat.Router

/-! # The nodes of the chat graph

Each node reads the shared state and returns it with the fields that it writes. Services are
parameters of the nodes; calls to the generators and rows of the chat log are recorded.
-/

namespace DomainRag.Chat

open Verifier (RetrievedChunk Segment VerifierThresholds VerifierDeps Patterns ConflictDetector)

structure RetrievalConfig where
  fusedTopK : Int
  rerankTopK : Int
  contextTopK : Int
  rerankerBypass : Bool

structure RetrievalRequest where
  domainId : String
  question : String
  aclFilter : Option Acl.Filter
  config : RetrievalConfig

structure RetrievalResult (S : Type) where
  fused : List (RetrievedChunk S)
  reranked : List (RetrievedChunk S)
  contexts : List (RetrievedChunk S)

structure StructuredRequest (S : Type) where
  question : String
  contexts : List (RetrievedChunk S)
  loraAdapter : Value
  domainId : String
  modelOverride : String

structure GenerationResult where
  rawResponse : String
  answerSegments : List Value := []
  limitations : Value := .null
  parseOk : Bool := true
  parseError : Option String := none

structure ConversationalRequest where
  question : String
  loraAdapter : Value
  domainId : String
  modelOverride : String
  history : List Turn

/-- The services of the graph. Those that the graph can do without are optional. -/
structure RAGGraphDeps (V S : Type) where
  text : TextOps
  configLoader : String → Except Exc (TenantConfig S)
  todayProvider : Option Date := none
  retrieve : RetrievalRequest → Except Exc (RetrievalResult S)
  generateStructured : StructuredRequest S → Except Exc GenerationResult
  generateConversational : ConversationalRequest → Except Exc String
  verifier : VerifierDeps V S
  patterns : Patterns
  conflictDetector : Option ConflictDetector := none
  chatLogWriter : Option (ChatLogPayload S → Except Exc String) := none
  queryClassifier : Option (String → Value → Except Exc ClassificationResult) := none
  modelRouter : Option (RoutingRequest → Except Exc RoutingDecision) := none
  piiService : Option Pii.PIIService := none
  queryRewriter : Option QueryRewriter := none
  assessment : AssessmentServices

/-- The calls of a run that are accounted for. -/
inductive Call (S : Type) where
  | structured (request : StructuredRequest S)
  | conversational (request : ConversationalRequest)
  | assessment (call : GeneratorCall)
  | logged (payload : ChatLogPayload S)

def orDefault (value : Option String) (default : String) : String :=
  if value.getD "" = "" then default else value.getD ""

variable {V S : Type}

def resolverError (domainId : String) (context : Option UserContext) : Option String :=
  if domainId = "" then some "domain_id missing in state"
  else if context.isNone then some "user_context missing in state"
  else none

def tenantResolverNode (state : RAGState S) : RAGState S :=
  match resolverError state.domainId state.userContext with
  | none => state
  | some error => { state with error := some error, fallbackReason := some .authError }

def loadTenantConfigNode (deps : RAGGraphDeps V S) (state : RAGState S) :
    Except Exc (RAGState S) := do
  return { state with tenantConfig := ← deps.configLoader state.domainId }

section Pii

/-- The compliance mode under which a tenant's questions are stored. -/
def TenantConfig.storageMode (config : TenantConfig S) : String :=
  orDefault config.complianceMode "standard"

def TenantConfig.plainApproved (config : TenantConfig S) : Bool :=
  ((config.pii.getD {}).plainApproved).getD false

def storageDecision (service : Pii.PIIService) (config : TenantConfig S) (question : String) :
    Pii.StoragePIIDecision :=
  service.maskForStorage question config.pii (some config.storageMode) config.plainApproved

def withInputCheck (check : Pii.InputPIICheck) (state : RAGState S) : RAGState S :=
  if check.blocked then
    { state with
      inputPiiFound := check.findings
      inputBlocked := true
      fallbackReason := some .inputPiiBlocked
      blockedCategories := check.blockedCategories }
  else { state with inputPiiFound := check.findings }

def withStorage (storage : Pii.StoragePIIDecision) (state : RAGState S) : RAGState S :=
  { state with
    piiStoragePolicy := storage.policy
    questionForStorage :=
      if storage.policy = .mask then storage.text else state.questionForStorage }

def checkInputPiiNode (deps : RAGGraphDeps V S) (state : RAGState S) : RAGState S :=
  match deps.piiService with
  | none => state
  | some service =>
    withInputCheck (service.checkInput state.question state.tenantConfig.pii)
      (withStorage (storageDecision service state.tenantConfig state.question) state)

def maskResponsePiiNode (deps : RAGGraphDeps V S) (state : RAGState S) : RAGState S :=
  match deps.piiService with
  | none => state
  | some service =>
    let result := service.maskOutput state.finalAnswer state.tenantConfig.pii
    if state.finalAnswer = "" || result.findings.isEmpty then state
    else { state with finalAnswer := result.maskedText, outputPiiMasked := result.findings }

/-- The answer and its findings are all that the masking changes. -/
theorem exists_maskResponsePiiNode_eq (deps : RAGGraphDeps V S) (state : RAGState S) :
    ∃ answer findings, maskResponsePiiNode deps state =
      { state with finalAnswer := answer, outputPiiMasked := findings } := by
  rw [maskResponsePiiNode]
  cases deps.piiService with
  | none => exact ⟨state.finalAnswer, state.outputPiiMasked, rfl⟩
  | some service =>
    simp only
    split
    · exact ⟨state.finalAnswer, state.outputPiiMasked, rfl⟩
    · exact ⟨_, _, rfl⟩

end Pii

def aclUser (context : Option UserContext) : Acl.User :=
  let user := context.getD {}
  { userId := user.userId.getD ""
    clearance := user.clearance.getD "internal"
    department := user.department
    domainGroups := user.domainGroups }

def buildAclFilterNode (deps : RAGGraphDeps V S) (state : RAGState S) : RAGState S :=
  { state with
    aclFilter := some (Acl.buildQdrantAclFilter (aclUser state.userContext) deps.todayProvider
      (state.tenantConfig.retrieval.excludeArchived.getD true)) }

def classifyQueryNode (deps : RAGGraphDeps V S) (state : RAGState S) :
    Except Exc (RAGState S) :=
  match deps.queryClassifier with
  | none => .ok { state with
      queryType := some "document_qa"
      supportType := some "direct"
      complexity := some "medium"
      classifierDecision := .skipped "document_qa" }
  | some classify => do
    let result ← classify state.question state.tenantConfig.queryClassifier
    return { state with
      queryType := some result.queryType
      supportType := result.supportType
      complexity := result.complexity
      classifierDecision := .result result }

def routingRequest (state : RAGState S) : RoutingRequest where
  classification :=
    { queryType := orDefault state.queryType "document_qa"
      supportType := state.supportType
      complexity := state.complexity }
  routingConfig := state.tenantConfig.routing
  tenantModelConfig := state.tenantConfig.model.orElse (.dict [])

/-- The reason that a routing decision with an action leaves in the state. -/
def RoutingDecision.refusal? (repr : Value → String) (decision : RoutingDecision) :
    Option FallbackReason :=
  if decision.action.truthy then some (.routing (decision.action.text repr)) else none

def withRouting (repr : Value → String) (decision : RoutingDecision) (state : RAGState S) :
    RAGState S :=
  { state with
    matchedRule := some decision.matchedRule
    selectedModel := some decision.model
    selectedLora := decision.loraAdapter
    useRag := decision.useRag
    uiMode := decision.uiMode
    fallbackReason := (decision.refusal? repr).or state.fallbackReason }

def modelRouterNode (deps : RAGGraphDeps V S) (state : RAGState S) : Except Exc (RAGState S) :=
  match deps.modelRouter with
  | none => .ok { state with
      matchedRule := some "default_skipped"
      selectedModel := some "tenant_slm"
      useRag := true
      uiMode := "chat_structured" }
  | some decide => do
    return withRouting deps.verifier.repr (← decide (routingRequest state)) state

def queryRewriteNode (deps : RAGGraphDeps V S) (state : RAGState S) : RAGState S :=
  match deps.queryRewriter with
  | none => state
  | some rewriter => { state with
      rewrittenQuery := (rewriter.rewrite state.question
        state.tenantConfig.retrieval.queryRewriting).rewrittenQuery }

section Retrieval

variable [Zero S]

def retrievalConfigFromTenant (config : TenantConfig S) : RetrievalConfig where
  fusedTopK := config.retrieval.fusedTopK.getD 50
  rerankTopK := config.retrieval.rerankTopK.getD 10
  contextTopK := config.retrieval.contextTopK.getD 5
  rerankerBypass := config.retrieval.rerankerBypass.getD false

/-- A chunk as the state keeps it: the scores before fusion are dropped. -/
def chunkToDict (c : RetrievedChunk S) : RetrievedChunk S :=
  { c with denseScore := 0, sparseScore := 0 }

def retrievalRequest (state : RAGState S) : RetrievalRequest where
  domainId := state.domainId
  question := if state.rewrittenQuery = "" then state.question else state.rewrittenQuery
  aclFilter := state.aclFilter
  config := retrievalConfigFromTenant state.tenantConfig

/-- Retrieval that fails counts as retrieval that finds nothing. -/
def retrieveContextNode (deps : RAGGraphDeps V S) (state : RAGState S) : RAGState S :=
  match deps.retrieve (retrievalRequest state) with
  | .error e => { state with
      retrievedChunks := []
      rerankedChunks := []
      finalContexts := []
      retrievalError := some (e.typeName ++ ": " ++ e.message) }
  | .ok result => { state with
      retrievedChunks := result.fused.map chunkToDict
      rerankedChunks := result.reranked.map chunkToDict
      finalContexts := result.contexts.map chunkToDict }

end Retrieval

section Gate1

variable [LinearOrder S] [Zero S] [OfScientific S]

structure Gate1Thresholds (S : Type) where
  minTop1 : S
  minStrong : Int
  strongChunk : S

def gate1Thresholds (config : TenantConfig S) : Gate1Thresholds S :=
  let citation := config.citation.getD {}
  { minTop1 := citation.minTop1Rerank.getD 0.6
    minStrong := citation.minStrongChunks.getD 2
    strongChunk := citation.strongChunkThreshold.getD 0.5 }

def strongCount (t : Gate1Thresholds S) (chunks : List (RetrievedChunk S)) : Nat :=
  chunks.countP fun c => t.strongChunk ≤ c.topScore

def gate1Passes (t : Gate1Thresholds S) (chunks : List (RetrievedChunk S)) : Bool :=
  !chunks.isEmpty && t.minTop1 ≤ Verifier.top1 chunks &&
    t.minStrong ≤ (strongCount t chunks : Int)

def gate1Chunks (state : RAGState S) : List (RetrievedChunk S) :=
  if state.rerankedChunks.isEmpty then state.finalContexts else state.rerankedChunks

def gate1Node (state : RAGState S) : RAGState S :=
  let chunks := gate1Chunks state
  let t := gate1Thresholds state.tenantConfig
  let metrics := Gate1Metrics.measured (Verifier.top1 chunks) (strongCount t chunks) t.minTop1
    t.minStrong t.strongChunk
  if chunks.isEmpty then
    { state with
      gate1Passed := false
      gate1Metrics := .emptyRetrieval
      fallbackReason := some .retrievalUnavailable
      nearMisses := [] }
  else if gate1Passes t chunks then
    { state with gate1Passed := true, gate1Metrics := metrics }
  else
    { state with
      gate1Passed := false
      gate1Metrics := metrics
      fallbackReason := some .gate1Failed
      nearMisses := chunks.take 3 }

end Gate1

section Generation

structure ChainStep where
  model : String
  lora : Value
  label : String

def chainSteps (selectedModel : String) (selectedLora : Value) : List ChainStep :=
  ⟨selectedModel, selectedLora, "primary"⟩ ::
    ((if selectedModel = "tenant_slm" ∧ selectedLora.truthy = true then
        [⟨"tenant_slm", .null, "tenant_slm_no_lora"⟩] else []) ++
      if selectedModel ≠ "shared_llm" then [⟨"shared_llm", .null, "shared_llm"⟩] else [])

def ChainStep.failed (step : ChainStep) (reason : String) (detail : Option String) :
    ModelFailure where
  model := step.model
  lora := step.lora
  label := step.label
  reason := reason
  detail := detail

structure ChainOutcome (S : Type) where
  calls : List (Call S) := []
  failures : List ModelFailure
  answer : Option (ChainStep × GenerationResult) := none
  last : Option GenerationResult := none

def structuredRequest (state : RAGState S) (step : ChainStep) : StructuredRequest S where
  question := state.question
  contexts := state.finalContexts
  loraAdapter := step.lora
  domainId := state.domainId
  modelOverride := step.model

def runChain (deps : RAGGraphDeps V S) (state : RAGState S) :
    List ChainStep → ChainOutcome S → ChainOutcome S
  | [], acc => acc
  | step :: rest, acc =>
    let request := structuredRequest state step
    let called := { acc with calls := acc.calls ++ [Call.structured request] }
    match deps.generateStructured request with
    | .error e => runChain deps state rest
        { called with failures := acc.failures ++ [step.failed e.typeName (some e.message)] }
    | .ok result =>
      if result.parseOk && !result.answerSegments.isEmpty then
        { called with answer := some (step, result), last := some result }
      else runChain deps state rest
        { called with
          failures := acc.failures ++ [step.failed "parse_error" result.parseError]
          last := some result }

def withChain (outcome : ChainOutcome S) (state : RAGState S) : RAGState S :=
  match outcome.answer with
  | some (step, result) => { state with
      rawResponse := result.rawResponse
      answerSegments := .raw result.answerSegments
      limitations := result.limitations
      selectedModel := some step.model
      selectedLora := step.lora
      modelFailureChain := outcome.failures }
  | none => { state with
      rawResponse := (outcome.last.map GenerationResult.rawResponse).getD ""
      answerSegments := .raw []
      limitations := .null
      fallbackReason := some .lowGenerationQuality
      error := some "all_models_failed"
      modelFailureChain := outcome.failures }

def generateAnswerNode (deps : RAGGraphDeps V S) (state : RAGState S) :
    List (Call S) × RAGState S :=
  let steps := chainSteps (orDefault state.selectedModel "tenant_slm") state.selectedLora
  let outcome := runChain deps state steps { failures := state.modelFailureChain }
  (outcome.calls, withChain outcome state)

/-- A segment without citations, as the nodes that do not cite write it. -/
def plainSegment (text : String) : Value :=
  .dict [("text", .str text), ("citations", .list [])]

def conversationalRequest (state : RAGState S) : ConversationalRequest where
  question := state.question
  loraAdapter := state.selectedLora
  domainId := state.domainId
  modelOverride := orDefault state.selectedModel "tenant_slm"
  history := state.conversationHistory

variable [Zero S]

/-- The answer without sources: it is no refusal, so that the reason left by Gate 1 is
withdrawn. -/
def generateUngroundedNode (deps : RAGGraphDeps V S) (state : RAGState S) :
    List (Call S) × RAGState S :=
  let request := conversationalRequest state
  let step : ChainStep := ⟨request.modelOverride, request.loraAdapter, "ungrounded"⟩
  ([.conversational request],
    match deps.generateConversational request with
    | .error e => { state with
        grounding := .ungrounded
        answerSegments := .raw []
        finalAnswer := ""
        citations := []
        citationTypes := []
        confidence := 0
        fallbackReason := some .lowGenerationQuality
        error := some "ungrounded_generation_failed"
        modelFailureChain := state.modelFailureChain ++ [step.failed e.typeName (some e.message)] }
    | .ok text => { state with
        grounding := .ungrounded
        rawResponse := text
        answerSegments := .raw [plainSegment (deps.text.strip text)]
        finalAnswer := deps.text.strip text
        citations := []
        citationTypes := []
        confidence := 0
        fallbackReason := none })

/-- The items and the plan are written only with the grounding of a set of questions. -/
def withAssessment (answer : AssessmentAnswer) (state : RAGState S) : RAGState S :=
  { state with
    grounding := answer.grounding
    assessmentItems :=
      if answer.grounding = .assessment then answer.items else state.assessmentItems
    assessmentPlan :=
      if answer.grounding = .assessment then answer.plan else state.assessmentPlan
    finalAnswer := answer.answer
    answerSegments := .raw [plainSegment answer.answer]
    citations := []
    citationTypes := []
    confidence := 0
    fallbackReason := none }

def assessmentNode (deps : RAGGraphDeps V S) (state : RAGState S) :
    List (Call S) × RAGState S :=
  let result := assessment deps.text deps.assessment state.tenantConfig.assessment state.domainId
    state.question
  (result.1.map .assessment, withAssessment result.2 state)

def fallbackDefaultText : String := "현재 등록된 문서에서 충분한 근거를 찾지 못했습니다."

def fallbackInputPiiText : String :=
  "개인정보로 보이는 정보가 포함되어 있습니다. 민감한 정보를 제거하고 다시 시도해 주세요."

def fallbackText (reason : Option FallbackReason) : String :=
  if reason = some .inputPiiBlocked then fallbackInputPiiText else fallbackDefaultText

def fallbackNode (state : RAGState S) : RAGState S :=
  let text := fallbackText state.fallbackReason
  let support := if state.fallbackReason = some .inputPiiBlocked then "input_pii_blocked"
    else "fallback"
  { state with
    answerSegments := .raw [.dict [("text", .str text), ("citations", .list []),
      ("support_type", .str support)]]
    limitations := .str ("fallback_reason=" ++
      (state.fallbackReason.map FallbackReason.text).getD "unknown")
    finalAnswer := text
    confidence := 0 }

end Generation

section Verification

/-- The parsed segments; the nodes that ask for them come after the parser. -/
def RAGState.segments (state : RAGState S) : List (Segment S) :=
  match state.answerSegments with
  | .raw _ => []
  | .parsed segments => segments

def parseResponseNode (deps : RAGGraphDeps V S) (state : RAGState S) :
    Except Exc (RAGState S) :=
  match state.answerSegments with
  | .raw segments => do
    return { state with
      answerSegments := .parsed (← Verifier.parseSegments deps.verifier.repr segments) }
  | .parsed _ => .ok state

def verifyTier1Node (state : RAGState S) : RAGState S :=
  let result := Verifier.tier1Filter state.segments state.finalContexts.length
  { state with
    answerSegments := .parsed result.1
    verifierMetrics := { state.verifierMetrics with tier1MarkersRemoved := some result.2 } }

def withConflicts (detector : ConflictDetector) (state : RAGState S) : RAGState S :=
  let records := Verifier.conflictRecords detector state.finalContexts state.segments
  { state with
    answerSegments :=
      .parsed (state.segments.map (Verifier.markConflict detector state.finalContexts))
    conflictGroups := state.conflictGroups ++ records
    verifierMetrics :=
      { state.verifierMetrics with conflictHeuristicDetected := some records.length } }

def detectConflictHeuristicNode (deps : RAGGraphDeps V S) (state : RAGState S) : RAGState S :=
  match Verifier.detectorFor deps.patterns deps.conflictDetector state.tenantConfig.citation with
  | none => state
  | some detector =>
    if !detector.enabled || state.finalContexts.isEmpty then state
    else withConflicts detector state

def judgeInferenceNode [LE S] [DecidableLE S] (deps : RAGGraphDeps V S) (state : RAGState S) :
    Except Exc (RAGState S) :=
  match deps.verifier.judgeService with
  | none => .ok state
  | some service => do
    let judged ← Verifier.judgeInference (some service) state.finalContexts state.segments
    return { state with
      answerSegments := .parsed judged.1
      inferenceJudgeResults := state.inferenceJudgeResults ++ judged.2 }

def assembleResponseNode (deps : RAGGraphDeps V S) (state : RAGState S) : RAGState S :=
  let assembled := Verifier.assembleCitations state.segments state.finalContexts state.domainId
  { state with
    citations := assembled.1
    citationTypes := assembled.2
    finalAnswer := Verifier.finalAnswer state.segments
    limitations := Verifier.mergeLimitations deps.verifier.repr state.segments state.limitations }

variable [LinearOrder S] [Zero S] [One S] [Add S] [Sub S] [Mul S] [Div S] [NatCast S]
  [OfScientific S]

def thresholdsFromState (state : RAGState S) : VerifierThresholds S :=
  .fromConfig state.tenantConfig.citation

def verifyTier2Node (deps : RAGGraphDeps V S) (state : RAGState S) : Except Exc (RAGState S) := do
  let tier2 ← Verifier.tier2Classify deps.verifier.embedder deps.verifier.cosine state.segments
    state.finalContexts (thresholdsFromState state)
  return { state with
    answerSegments := .parsed tier2.segments
    verifierMetrics :=
      { state.verifierMetrics with tier2AvgSimilarity := some tier2.avgSimilarity } }

def detectUnsupportedNode (state : RAGState S) : RAGState S :=
  let result : List Nat × S := Verifier.tier3Unsupported state.segments
  { state with
    unsupportedRatio := result.2
    verifierMetrics := { state.verifierMetrics with tier3UnsupportedSegments := some result.1 } }

def computeConfidenceNode (state : RAGState S) : RAGState S :=
  { state with
    confidence := Verifier.computeConfidence state.segments state.citations state.finalContexts
      state.unsupportedRatio (thresholdsFromState state) }

def gate2Node (state : RAGState S) : RAGState S :=
  match Verifier.evaluateGate2 state.citations state.unsupportedRatio state.confidence
    (thresholdsFromState state) with
  | none => { state with gate2Passed := true }
  | some reason =>
    { state with gate2Passed := false, fallbackReason := some (.gate2 reason) }

end Verification

section Log

def excerptOf (c : RetrievedChunk S) : RetrievedExcerpt S where
  chunkId := c.chunkId
  docId := c.docId
  title := c.title
  pageNumber := c.pageNumber
  sectionTitle := c.sectionTitle
  fusedScore := c.fusedScore
  rerankScore := c.rerankScore
  content := c.content

def routingRecord (state : RAGState S) : RoutingRecord where
  matchedRule := state.matchedRule
  selectedModel := state.selectedModel
  selectedLora := state.selectedLora
  useRag := state.useRag
  uiMode := state.uiMode
  grounding := some state.grounding
  retrievalError := state.retrievalError
  assessmentItems := if state.grounding = .assessment then state.assessmentItems else []
  assessmentPlan :=
    if state.grounding = .assessment ∧ state.assessmentItems ≠ [] then state.assessmentPlan
    else []

def chatLogPayload (state : RAGState S) : ChatLogPayload S where
  domainId := state.domainId
  requestId := state.requestId
  userId := state.userId
  conversationId := state.conversationId
  question := if state.questionForStorage = "" then state.question else state.questionForStorage
  answer := state.finalAnswer
  retrievedChunks := state.finalContexts.map excerptOf
  citations := state.citations
  citationTypes := state.citationTypes
  rewrittenQuery := if state.rewrittenQuery = "" then none else some state.rewrittenQuery
  llmModel := state.selectedModel
  loraAdapter := state.selectedLora
  uiMode := state.uiMode
  confidence := state.confidence
  fallbackReason := state.fallbackReason.map FallbackReason.text
  unsupportedRatio := state.unsupportedRatio
  verifierMetrics := state.verifierMetrics
  routingDecision := routingRecord state
  classifierDecision := state.classifierDecision
  modelFailureChain := state.modelFailureChain
  inferenceJudgeResults := state.inferenceJudgeResults
  conflictGroups := state.conflictGroups
  inputPiiFound := state.inputPiiFound
  outputPiiMasked := state.outputPiiMasked
  piiStoragePolicy := state.piiStoragePolicy

def saveChatLogNode (deps : RAGGraphDeps V S) (state : RAGState S) :
    List (Call S) × Except Exc (RAGState S) :=
  match deps.chatLogWriter with
  | none => ([], .ok state)
  | some write =>
    ([.logged (chatLogPayload state)], do
      return { state with conversationId := some (← write (chatLogPayload state)) })

end Log

end DomainRag.Chat
