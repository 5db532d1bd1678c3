import DomainRag.Chat.Nodes

/-! # Streamed chat

`StreamingChatService.stream` answers without retrieval and without the graph: it checks the
input, classifies and routes the question, forwards the tokens of the LLM and writes the log.
-/

namespace DomainRag.Chat

structure StreamingRequest where
  domainId : String
  userId : String
  question : String
  conversationId : Option String := none
  requestId : Option String := none
  selectedModel : Option String := none
  selectedLora : Value := .null
  maxTokens : Int := 1024
  temperature : Rat := 0.5

structure LlmStreamRequest where
  prompt : String
  model : String
  maxTokens : Int
  temperature : Rat
  loraAdapter : Value

/-- The service. The LLM yields tokens and then stops or raises; `newRequestId` and
`newConversationId` are the identifiers that a request without its own is given. -/
structure StreamingChatService (S : Type) where
  llm : LlmStreamRequest → List String × Option Exc
  prompt : String → Except Exc String
  defaultModel : String
  repr : Value → String
  piiService : Option Pii.PIIService := none
  chatLogWriter : Option (ChatLogPayload S → Except Exc String) := none
  queryClassifier : Option (String → Value → Except Exc ClassificationResult) := none
  modelRouter : Option (RoutingRequest → Except Exc RoutingDecision) := none
  newRequestId : String
  newConversationId : String

structure StreamMetadata where
  llmModel : Option String
  loraAdapter : Value
  inputPiiFound : List Pii.FindingRecord
  outputPiiMasked : List Pii.FindingRecord
  classifierDecision : ClassifierDecision
  routingDecision : RoutingRecord

inductive StreamEvent where
  | token (text : String)
  | complete (messageId conversationId : String) (metadata : StreamMetadata)
  | error (reason detail : String)
  | fallback (reason : String) (blockedCategories : List String)
      (message messageId conversationId : String)

inductive StreamCall (S : Type) where
  | llm (request : LlmStreamRequest)
  | logged (payload : ChatLogPayload S)

/-- What a stream did: the events it emitted, the calls it made and the error it raised. -/
structure StreamRun (S : Type) where
  events : List StreamEvent
  calls : List (StreamCall S)
  raised : Option Exc := none

/-- The result of the input check: what is found, under which policy and in which form the
question is stored. -/
structure StreamCheck where
  check : Pii.InputPIICheck
  policy : Pii.StoragePolicy
  questionForLog : String

structure StreamRouting where
  selectedModel : Option String
  selectedLora : Value
  classifierDecision : ClassifierDecision := .none
  routingDecision : Option RoutingRecord := none

def blockedMessage : String :=
  "개인정보로 보이는 정보가 포함되어 있습니다. 민감한 정보를 제거하고 다시 시도해 주세요."

def refusalMessage : String := "현재 정책상 답변을 드릴 수 없는 요청입니다."

def streamRecord (matchedRule selectedModel : Option String) (selectedLora : Value)
    (useRag : Bool) (uiMode : String) : RoutingRecord where
  matchedRule := matchedRule
  selectedModel := selectedModel
  selectedLora := selectedLora
  useRag := useRag
  uiMode := uiMode
  grounding := none
  retrievalError := none
  assessmentItems := []
  assessmentPlan := []

namespace StreamingChatService

variable {S : Type} (service : StreamingChatService S) (request : StreamingRequest)
  (config : TenantConfig S)

def requestId : String := orDefault request.requestId service.newRequestId

def conversationId : String := orDefault request.conversationId service.newConversationId

def checkInput : StreamCheck :=
  match service.piiService with
  | none => ⟨{}, .mask, request.question⟩
  | some pii =>
    let storage := storageDecision pii config request.question
    { check := pii.checkInput request.question config.pii
      policy := storage.policy
      questionForLog := if storage.policy = .mask then storage.text else request.question }

def classify : Except Exc ClassificationResult :=
  match service.queryClassifier with
  | none => .ok { queryType := "free_chat" }
  | some classify => classify request.question config.queryClassifier

def route (cls : ClassificationResult) : Except Exc (Option RoutingDecision) :=
  match service.modelRouter with
  | none => .ok none
  | some decide => some <$> decide
      { classification := cls
        routingConfig := config.routing
        tenantModelConfig := config.model.orElse (.dict []) }

def routing (cls : ClassificationResult) (decision : Option RoutingDecision) : StreamRouting :=
  let classifierDecision : ClassifierDecision :=
    if service.queryClassifier.isNone then .skipped "free_chat" else .result cls
  match decision with
  | none =>
    { selectedModel := request.selectedModel
      selectedLora := request.selectedLora
      classifierDecision := classifierDecision
      routingDecision := some (streamRecord (some "default_skipped")
        (some (orDefault request.selectedModel "tenant_slm")) request.selectedLora false
        "chat_streaming") }
  | some d =>
    { selectedModel := if d.model = "" then request.selectedModel else some d.model
      selectedLora := d.loraAdapter.orElse request.selectedLora
      classifierDecision := classifierDecision
      routingDecision := some (streamRecord (some d.matchedRule) (some d.model) d.loraAdapter
        d.useRag d.uiMode) }

variable [Zero S]

def payload (checked : StreamCheck) (routing : StreamRouting) (answer : String)
    (fallbackReason : Option String) (outputPiiMasked : List Pii.FindingRecord) :
    ChatLogPayload S where
  domainId := request.domainId
  requestId := service.requestId request
  userId := request.userId
  conversationId := some (service.conversationId request)
  question := checked.questionForLog
  answer := answer
  retrievedChunks := []
  citations := []
  citationTypes := []
  rewrittenQuery := none
  llmModel := routing.selectedModel
  loraAdapter := routing.selectedLora
  uiMode := "chat_streaming"
  confidence := 0
  fallbackReason := fallbackReason
  unsupportedRatio := 0
  verifierMetrics := {}
  routingDecision := routing.routingDecision.getD
    (streamRecord none routing.selectedModel routing.selectedLora false "chat_streaming")
  classifierDecision := routing.classifierDecision
  modelFailureChain := []
  inferenceJudgeResults := []
  conflictGroups := []
  inputPiiFound := checked.check.findings
  outputPiiMasked := outputPiiMasked
  piiStoragePolicy := checked.policy

omit [Zero S] in
/-- `_save_log`, and the event that follows once the log is written. -/
def saveLog (run : StreamRun S) (payload : ChatLogPayload S)
    (event : Option String → StreamEvent) : StreamRun S :=
  match service.chatLogWriter with
  | none => { run with events := run.events ++ [event none] }
  | some write =>
    let logged := { run with calls := run.calls ++ [StreamCall.logged payload] }
    match write payload with
    | .error e => { logged with raised := some e }
    | .ok id => { logged with events := run.events ++ [event (some id)] }

def fallbackEvent (reason : String) (blockedCategories : List String) (message : String) :
    StreamEvent :=
  .fallback reason blockedCategories message (service.requestId request)
    (service.conversationId request)

def streamBlocked (checked : StreamCheck) : StreamRun S :=
  service.saveLog ⟨[], [], none⟩
    (service.payload request checked ⟨request.selectedModel, request.selectedLora, .none, none⟩
      blockedMessage (some "input_pii_blocked") [])
    fun _ => service.fallbackEvent request "input_pii_blocked" checked.check.blockedCategories
      blockedMessage

def streamRefused (checked : StreamCheck) (routing : StreamRouting) (reason : FallbackReason) :
    StreamRun S :=
  service.saveLog ⟨[], [], none⟩
    (service.payload request checked routing refusalMessage (some reason.text) [])
    fun _ => service.fallbackEvent request reason.text [] refusalMessage

def maskAnswer (text : String) : Pii.OutputPIIMask :=
  match service.piiService with
  | none => ⟨text, []⟩
  | some pii => if text = "" then ⟨text, []⟩ else pii.maskOutput text config.pii

def streamTokens (checked : StreamCheck) (routing : StreamRouting) (prompt : String) :
    StreamRun S :=
  let llmRequest : LlmStreamRequest :=
    { prompt := prompt
      model := orDefault routing.selectedModel service.defaultModel
      maxTokens := request.maxTokens
      temperature := request.temperature
      loraAdapter := routing.selectedLora }
  let tokens := (service.llm llmRequest).1.filter (· ≠ "")
  let run : StreamRun S := ⟨tokens.map .token, [.llm llmRequest], none⟩
  match (service.llm llmRequest).2 with
  | some e =>
    service.saveLog run (service.payload request checked routing (String.join tokens)
      (some ("llm_error:" ++ e.typeName)) []) fun _ => .error "llm_error" e.typeName
  | none =>
    let masked := service.maskAnswer config (String.join tokens)
    let logged := service.payload request checked routing masked.maskedText none masked.findings
    service.saveLog run logged fun id =>
      .complete (service.requestId request) (orDefault id (service.conversationId request))
        { llmModel := routing.selectedModel
          loraAdapter := routing.selectedLora
          inputPiiFound := checked.check.findings
          outputPiiMasked := masked.findings
          classifierDecision := routing.classifierDecision
          routingDecision := logged.routingDecision }

def streamRouted (checked : StreamCheck) (routing : StreamRouting)
    (refusal : Option FallbackReason) : StreamRun S :=
  match refusal with
  | some reason => service.streamRefused request checked routing reason
  | none =>
    match service.prompt request.question with
    | .error e => ⟨[], [], some e⟩
    | .ok prompt => service.streamTokens request config checked routing prompt

def stream : StreamRun S :=
  let checked := service.checkInput request config
  if checked.check.blocked then service.streamBlocked request checked
  else
    match service.classify request config with
    | .error e => ⟨[], [], some e⟩
    | .ok cls =>
      match service.route config cls with
      | .error e => ⟨[], [], some e⟩
      | .ok decision =>
        service.streamRouted request config checked (service.routing request cls decision)
          (decision.bind (RoutingDecision.refusal? service.repr))

end StreamingChatService

end DomainRag.Chat
