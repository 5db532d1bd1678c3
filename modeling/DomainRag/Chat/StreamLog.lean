import DomainRag.Chat.Storage

/-! # The log record of a stream

A stream ends at one of four exits: the input check blocks the question, the routing refuses it,
the LLM fails after some tokens, or it completes. Each exit builds its own record. Only the last
one masks the answer, so the record of a failed stream keeps the tokens as they were emitted.
-/

namespace DomainRag.Chat

variable {S : Type}

def StreamEvent.text? : StreamEvent → Option String
  | .token text => some text
  | _ => none

def StreamCall.record? : StreamCall S → Option (ChatLogPayload S)
  | .logged payload => some payload
  | .llm _ => none

def StreamRun.emitted (run : StreamRun S) : String :=
  String.join (run.events.filterMap StreamEvent.text?)

/-- One record is written, and after a call of the LLM its answer is the masked form of what was
emitted. -/
def LogsMasked (pii : Pii.PIIService) (config : TenantConfig S) (run : StreamRun S) : Prop :=
  ∃ p, run.calls.filterMap StreamCall.record? = [p] ∧
    ((∃ r, .llm r ∈ run.calls) → p.answer = (pii.maskOutput run.emitted config.pii).maskedText)

def MasksResponses (config : TenantConfig S) : Prop :=
  (config.pii.getD {}).responseEnable.getD true = true

theorem join_filter_nonempty (tokens : List String) :
    String.join (tokens.filter (· ≠ "")) = String.join tokens := by
  induction tokens with
  | nil => rfl
  | cons token tokens ih =>
    by_cases htoken : token = ""
    · simpa [htoken, String.join_cons] using ih
    · simpa [htoken, String.join_cons] using ih

theorem filterMap_text_tokens (tokens : List String) :
    (tokens.map StreamEvent.token).filterMap StreamEvent.text? = tokens := by
  rw [List.filterMap_map]
  exact List.filterMap_some

/-- Where answers are masked, the empty answer is no exception: nothing is found in it. -/
theorem maskOutput_eq {pii : Pii.PIIService} {config : TenantConfig S}
    (henabled : MasksResponses config) (text : String) :
    pii.maskOutput text config.pii = ⟨(Pii.mask pii.rules text).1,
      Pii.PIIService.maskedFindings (config.pii.getD {}) (Pii.mask pii.rules text).2⟩ := by
  have hon : (!(config.pii.getD {}).responseEnable.getD true) = false := by
    rw [show (config.pii.getD {}).responseEnable.getD true = true from henabled]
    rfl
  simp only [Pii.PIIService.maskOutput, hon, Bool.false_or, decide_eq_true_eq]
  split
  · rename_i hempty
    rw [hempty, Pii.mask, Pii.scan_empty]
    rfl
  · rfl

theorem maskOutput_text {pii : Pii.PIIService} {config : TenantConfig S}
    (henabled : MasksResponses config) (text : String) :
    (pii.maskOutput text config.pii).maskedText = (Pii.mask pii.rules text).1 := by
  rw [maskOutput_eq henabled]

namespace StreamingChatService

variable {service : StreamingChatService S} {request : StreamingRequest}
  {config : TenantConfig S} {pii : Pii.PIIService}
  {write : ChatLogPayload S → Except Exc String}

def llmRequest (service : StreamingChatService S) (request : StreamingRequest)
    (routing : StreamRouting) (prompt : String) : LlmStreamRequest where
  prompt := prompt
  model := orDefault routing.selectedModel service.defaultModel
  maxTokens := request.maxTokens
  temperature := request.temperature
  loraAdapter := routing.selectedLora

/-- The LLM ends its answer, or it fails after tokens in which nothing is to be masked. -/
def AnswerKept (service : StreamingChatService S) (pii : Pii.PIIService)
    (r : LlmStreamRequest) : Prop :=
  (service.llm r).2 = none ∨
    (Pii.mask pii.rules (String.join (service.llm r).1)).1 = String.join (service.llm r).1

/-- The question is blocked or refused, or the LLM is asked and its answer is kept. -/
def LogsWhen (service : StreamingChatService S) (request : StreamingRequest)
    (config : TenantConfig S) (pii : Pii.PIIService) : Prop :=
  (pii.checkInput request.question config.pii).blocked = true ∨
    ∃ cls decision, service.classify request config = .ok cls ∧
      service.route config cls = .ok decision ∧
      ((decision.bind (RoutingDecision.refusal? service.repr)).isSome = true ∨
        ∃ prompt, service.prompt request.question = .ok prompt ∧
          service.AnswerKept pii
            (service.llmRequest request (service.routing request cls decision) prompt))

theorem saveLog_calls (hwriter : service.chatLogWriter = some write) (run : StreamRun S)
    (payload : ChatLogPayload S) (event : Option String → StreamEvent) :
    (service.saveLog run payload event).calls = run.calls ++ [.logged payload] := by
  rw [saveLog, hwriter]
  dsimp only
  split <;> rfl

theorem saveLog_emitted {event : Option String → StreamEvent}
    (hevent : ∀ id, (event id).text? = none) (run : StreamRun S) (payload : ChatLogPayload S) :
    (service.saveLog run payload event).emitted = run.emitted := by
  have hend : ∀ id, (run.events ++ [event id]).filterMap StreamEvent.text? =
      run.events.filterMap StreamEvent.text? := by
    intro id
    rw [List.filterMap_append, List.filterMap_cons_none (hevent id)]
    exact List.append_nil _
  rw [saveLog]
  cases service.chatLogWriter with
  | none => exact congrArg String.join (hend none)
  | some write =>
    dsimp only
    split
    · rfl
    · exact congrArg String.join (hend _)

/-- The exits that do not ask the LLM write their one record. -/
theorem saveLog_unasked (hwriter : service.chatLogWriter = some write)
    (payload : ChatLogPayload S) (event : Option String → StreamEvent) :
    LogsMasked pii config (service.saveLog ⟨[], [], none⟩ payload event) := by
  refine ⟨payload, ?_, ?_⟩
  · rw [saveLog_calls hwriter]
    rfl
  · rintro ⟨r, hr⟩
    rw [saveLog_calls hwriter] at hr
    cases List.mem_singleton.mp hr

/-- The exits after the LLM was asked: the record has to hold the masked form of the tokens. -/
theorem saveLog_asked_iff (hwriter : service.chatLogWriter = some write)
    (henabled : MasksResponses config) {r : LlmStreamRequest} {tokens : List String}
    {payload : ChatLogPayload S} {event : Option String → StreamEvent}
    (hevent : ∀ id, (event id).text? = none) :
    LogsMasked pii config (service.saveLog ⟨tokens.map .token, [.llm r], none⟩ payload event) ↔
      payload.answer = (Pii.mask pii.rules (String.join tokens)).1 := by
  have hemitted : (service.saveLog ⟨tokens.map .token, [.llm r], none⟩ payload event).emitted =
      String.join tokens := by
    rw [saveLog_emitted hevent]
    exact congrArg String.join (filterMap_text_tokens tokens)
  rw [LogsMasked, hemitted, maskOutput_text henabled, saveLog_calls hwriter]
  constructor
  · rintro ⟨p, hp, hanswer⟩
    have heq : payload = p := List.singleton_injective hp
    rw [heq]
    exact hanswer ⟨r, List.mem_cons_self⟩
  · intro hanswer
    exact ⟨payload, rfl, fun _ => hanswer⟩

theorem not_logsMasked_raised (e : Exc) :
    ¬ LogsMasked pii config (⟨[], [], some e⟩ : StreamRun S) := by
  rintro ⟨p, hp, -⟩
  cases hp

variable [Zero S]

theorem streamTokens_logsMasked_iff (hpii : service.piiService = some pii)
    (hwriter : service.chatLogWriter = some write) (henabled : MasksResponses config)
    (checked : StreamCheck) (routing : StreamRouting) (prompt : String) :
    LogsMasked pii config (service.streamTokens request config checked routing prompt) ↔
      service.AnswerKept pii (service.llmRequest request routing prompt) := by
  have hmasked : ∀ text, (service.maskAnswer config text).maskedText =
      (Pii.mask pii.rules text).1 := by
    intro text
    rw [maskAnswer, hpii]
    dsimp only
    split
    · rename_i hempty
      rw [hempty, Pii.mask_empty]
    · exact maskOutput_text henabled text
  rw [AnswerKept, ← join_filter_nonempty (service.llm _).1, streamTokens]
  dsimp only
  split
  · rename_i e herror
    refine (saveLog_asked_iff hwriter henabled fun _ => rfl).trans ?_
    constructor
    · exact fun h => .inr h.symm
    · rintro (hnone | h)
      · cases herror.symm.trans hnone
      · exact h.symm
  · rename_i hnone
    refine (saveLog_asked_iff hwriter henabled fun _ => rfl).trans ?_
    exact iff_of_true (hmasked _) (.inl hnone)

theorem streamRouted_logsMasked_iff (hpii : service.piiService = some pii)
    (hwriter : service.chatLogWriter = some write) (henabled : MasksResponses config)
    (checked : StreamCheck) (routing : StreamRouting) (refusal : Option FallbackReason) :
    LogsMasked pii config (service.streamRouted request config checked routing refusal) ↔
      (refusal.isSome = true ∨ ∃ prompt, service.prompt request.question = .ok prompt ∧
        service.AnswerKept pii (service.llmRequest request routing prompt)) := by
  cases refusal with
  | some reason => exact iff_of_true (saveLog_unasked hwriter _ _) (.inl rfl)
  | none =>
    rw [streamRouted]
    cases service.prompt request.question with
    | error e =>
      refine iff_of_false (not_logsMasked_raised e) ?_
      rintro (hsome | ⟨prompt, hp, -⟩)
      · cases hsome
      · cases hp
    | ok prompt =>
      refine (streamTokens_logsMasked_iff hpii hwriter henabled checked routing prompt).trans ?_
      constructor
      · exact fun h => .inr ⟨prompt, rfl, h⟩
      · rintro (hsome | ⟨prompt', hp, h⟩)
        · cases hsome
        · cases hp
          exact h

/-- A stream writes exactly one record, with the masked answer, exactly when it is blocked or
refused, or the LLM completes or fails after tokens in which there is nothing to mask. -/
theorem stream_logs_masked_iff (service : StreamingChatService S) (request : StreamingRequest)
    (config : TenantConfig S) (pii : Pii.PIIService)
    (write : ChatLogPayload S → Except Exc String) (hpii : service.piiService = some pii)
    (hwriter : service.chatLogWriter = some write) (henabled : MasksResponses config) :
    LogsMasked pii config (service.stream request config) ↔
      service.LogsWhen request config pii := by
  have hblocked : (service.checkInput request config).check.blocked =
      (pii.checkInput request.question config.pii).blocked := by
    rw [checkInput, hpii]
  rw [stream, LogsWhen, ← hblocked]
  cases (service.checkInput request config).check.blocked with
  | true =>
    rw [if_pos rfl]
    exact iff_of_true (saveLog_unasked hwriter _ _) (.inl rfl)
  | false =>
    rw [if_neg Bool.false_ne_true]
    refine Iff.trans ?_ (or_iff_right Bool.false_ne_true).symm
    cases hcls : service.classify request config with
    | error e =>
      refine iff_of_false (not_logsMasked_raised e) ?_
      rintro ⟨cls, decision, hc, -⟩
      cases hc
    | ok cls =>
      cases hroute : service.route config cls with
      | error e =>
        refine iff_of_false ?_ ?_
        · simpa only [hroute] using not_logsMasked_raised e
        · rintro ⟨cls', decision, hc, hr, -⟩
          cases hc
          cases hroute.symm.trans hr
      | ok decision =>
        simp only [hroute]
        refine (streamRouted_logsMasked_iff hpii hwriter henabled _ _ _).trans ?_
        constructor
        · exact fun h => ⟨cls, decision, rfl, hroute, h⟩
        · rintro ⟨cls', decision', hc, hr, h⟩
          cases hc
          cases hroute.symm.trans hr
          exact h

end StreamingChatService

section Phone

def mobileStream (tokens : List String) (failure : Option Exc) : StreamingChatService ℚ where
  llm _ := (tokens, failure)
  prompt question := .ok question
  defaultModel := "qwen-7b"
  repr _ := ""
  piiService := some mobileService
  chatLogWriter := some fun payload => .ok payload.requestId
  newRequestId := "r1"
  newConversationId := "c1"

def mobileRequest : StreamingRequest where
  domainId := "hr"
  userId := "u1"
  question := "연락처 알려줘"

theorem stream_logs_masked_mobile : LogsMasked mobileService {}
    ((mobileStream ["010-", "", "1234-5678"] none).stream mobileRequest {}) := by
  refine (StreamingChatService.stream_logs_masked_iff (mobileStream _ none) mobileRequest {}
    mobileService _ rfl rfl rfl).mpr (.inr ?_)
  exact ⟨_, _, rfl, rfl, .inr ⟨_, rfl, .inl rfl⟩⟩

/-- The number that the LLM had said before it failed is logged as it is. -/
theorem mobile_number_logged : MasksResponses ({} : TenantConfig ℚ) ∧
    ¬ LogsMasked mobileService {}
      ((mobileStream ["010-", "1234-5678"] (some outage)).stream mobileRequest {}) := by
  refine ⟨rfl, ?_⟩
  rintro ⟨p, hp, hanswer⟩
  have hlogged : p.answer = "010-1234-5678" := by
    have hone := List.singleton_injective hp.symm
    rw [hone]
    decide +kernel
  rw [hanswer ⟨_, List.mem_cons_self⟩] at hlogged
  revert hlogged
  decide +kernel

end Phone

end DomainRag.Chat
