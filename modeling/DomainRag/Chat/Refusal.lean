import DomainRag.Chat.Invariant
import DomainRag.Chat.Streaming

/-! # Refusals

A routing decision with an action, or an error of the tenant resolver, should end a request
without any generator being called. The streamed chat does so. The graph only records the
reason in its state, and no node after the router looks at it.
-/

namespace DomainRag.Chat

open Machine (Run)

variable {V S : Type}

def Call.generates : Call S → Bool
  | structured _ | conversational _ | assessment _ => true
  | logged _ => false

/-- A run that ends as a refusal: nothing is generated, and the last state gives a reason. -/
structure Refused (run : Run Node (RAGState S) Exc (Call S)) : Prop where
  silent : ∀ c ∈ run.calls, c.generates = false
  reason : run.ending.state.fallbackReason ≠ none

theorem Refused.of_past {run : Run Node (RAGState S) Exc (Call S)} {ns : List Node}
    (h : Refused (run.past ns)) : Refused run := ⟨h.silent, h.reason⟩

theorem Refused.of_raised {ns : List Node} {n : Node} {state : RAGState S} {e : Exc}
    {reason : FallbackReason} (h : state.fallbackReason = some reason) :
    Refused (Run.past (C := Call S) ns ⟨[n], [], .raised n state e⟩) where
  silent _ hc := absurd hc List.not_mem_nil
  reason hnone := absurd (h.symm.trans hnone) nofun

section Generators

theorem mem_calls_runChain {deps : RAGGraphDeps V S} {state : RAGState S} {c : Call S}
    (steps : List ChainStep) {acc : ChainOutcome S} (h : c ∈ acc.calls) :
    c ∈ (runChain deps state steps acc).calls := by
  induction steps generalizing acc with
  | nil => exact h
  | cons step rest ih =>
    rw [runChain]
    cases deps.generateStructured (structuredRequest state step) with
    | error e => exact ih (List.mem_append_left _ h)
    | ok result =>
      simp only
      split
      · exact List.mem_append_left _ h
      · exact ih (List.mem_append_left _ h)

theorem runChain_calls (deps : RAGGraphDeps V S) (state : RAGState S) (step : ChainStep)
    (rest : List ChainStep) (acc : ChainOutcome S) :
    .structured (structuredRequest state step) ∈
      (runChain deps state (step :: rest) acc).calls := by
  have hcalled : Call.structured (structuredRequest state step) ∈
      acc.calls ++ [.structured (structuredRequest state step)] :=
    List.mem_append_right _ (List.mem_singleton_self _)
  rw [runChain]
  cases deps.generateStructured (structuredRequest state step) with
  | error e => exact mem_calls_runChain _ hcalled
  | ok result =>
    simp only
    split
    · exact hcalled
    · exact mem_calls_runChain _ hcalled

theorem saveChatLogNode_calls {deps : RAGGraphDeps V S} {state : RAGState S} {c : Call S}
    (h : c ∈ (saveChatLogNode deps state).1) : c = .logged (chatLogPayload state) := by
  rw [saveChatLogNode] at h
  cases hwriter : deps.chatLogWriter with
  | none =>
    rw [hwriter] at h
    exact absurd h List.not_mem_nil
  | some write =>
    rw [hwriter] at h
    exact List.mem_singleton.mp h

theorem generateAnswerNode_calls (deps : RAGGraphDeps V S) (state : RAGState S) :
    ∃ c ∈ (generateAnswerNode deps state).1, c.generates = true :=
  ⟨_, runChain_calls deps state _ _ _, rfl⟩

end Generators

variable [LinearOrder S] [Zero S] [One S] [Add S] [Sub S] [Mul S] [Div S] [NatCast S]
  [OfScientific S]

section Ends

variable (deps : RAGGraphDeps V S) (state : RAGState S)

theorem run_saveChatLog : (∀ c ∈ ((chatGraph deps).run .saveChatLog state).calls,
    c.generates = false) ∧
      ((chatGraph deps).run .saveChatLog state).ending.state.fallbackReason =
        state.fallbackReason := by
  have hcalls : ∀ c ∈ (saveChatLogNode deps state).1, c.generates = false := by
    intro c hc
    rw [saveChatLogNode_calls hc]
    rfl
  cases hsave : (saveChatLogNode deps state).2 with
  | error e =>
    have hstop := Machine.run_of_error (m := chatGraph deps) (n := .saveChatLog) hsave
    rw [hstop]
    exact ⟨hcalls, rfl⟩
  | ok state' =>
    have hstop := Machine.run_of_stop (m := chatGraph deps) (n := .saveChatLog) hsave rfl
    rw [hstop]
    refine ⟨hcalls, ?_⟩
    rw [saveChatLogNode_ok hsave]
    rfl

/-- Setting questions withdraws every reason for a refusal. -/
theorem run_assessment_not_refused : ¬ Refused ((chatGraph deps).run .assessment state) := by
  have hnone : (maskResponsePiiNode deps (assessmentNode deps state).2).fallbackReason = none := by
    rw [maskResponsePiiNode]
    cases deps.piiService with
    | none => rfl
    | some service =>
      simp only
      split <;> rfl
  have hrouter : postMaskGroundingRouter (maskResponsePiiNode deps (assessmentNode deps state).2) =
      .saveChatLog := by
    have hgrounding := congrArg Evidence.grounding
      (maskResponsePiiNode_eq deps (assessmentNode deps state).2).1
    rw [postMaskGroundingRouter]
    exact if_neg fun h => assessment_not_grounded _ _ _ _ _ (hgrounding.symm.trans h)
  have hassessment : (chatGraph deps).run .assessment state = .after .assessment
      (assessmentNode deps state).1
      ((chatGraph deps).run .maskResponsePii (assessmentNode deps state).2) :=
    Machine.run_of_next (m := chatGraph deps) (n := .assessment) rfl rfl
  have hmask : (chatGraph deps).run .maskResponsePii (assessmentNode deps state).2 =
      ((chatGraph deps).run .saveChatLog
        (maskResponsePiiNode deps (assessmentNode deps state).2)).past [.maskResponsePii] :=
    Machine.run_of_quiet rfl (congrArg some hrouter)
  intro h
  rw [hassessment, hmask] at h
  exact h.reason ((run_saveChatLog deps _).2.trans hnone)

theorem run_gate1_not_refused : ¬ Refused ((chatGraph deps).run (gate1FullRouter state) state) := by
  rw [gate1FullRouter]
  split
  · have hrun := Machine.run_of_next (m := chatGraph deps) (n := .generateAnswer) (s := state)
      rfl rfl
    obtain ⟨c, hc, hgenerates⟩ := generateAnswerNode_calls deps state
    intro h
    rw [hrun] at h
    have hsilent := h.silent c (List.mem_append_left _ hc)
    rw [hgenerates] at hsilent
    cases hsilent
  · have hrun := Machine.run_of_next (m := chatGraph deps) (n := .generateUngrounded) (s := state)
      rfl rfl
    intro h
    rw [hrun] at h
    cases h.silent _ (List.mem_append_left _ (List.mem_singleton_self _))

/-- Past the router every run generates or withdraws the reason. -/
theorem run_routed_not_refused :
    ¬ Refused ((chatGraph deps).run (assessmentIntentRouter state) state) := by
  rw [assessmentIntentRouter]
  split
  · exact run_assessment_not_refused deps state
  · have hrewrite : (chatGraph deps).exec .queryRewrite state =
      ([], .ok (queryRewriteNode deps state)) := rfl
    have hretrieve : (chatGraph deps).exec .retrieveContext (queryRewriteNode deps state) =
      ([], .ok (retrieveContextNode deps (queryRewriteNode deps state))) := rfl
    have hgate : (chatGraph deps).exec .gate1
      (retrieveContextNode deps (queryRewriteNode deps state)) =
      ([], .ok (gate1Node (retrieveContextNode deps (queryRewriteNode deps state)))) := rfl
    rw [Machine.run_of_quiet hrewrite rfl, Machine.run_of_quiet hretrieve rfl,
      Machine.run_of_quiet hgate rfl]
    intro h
    exact run_gate1_not_refused deps _ h.of_past.of_past.of_past

end Ends

section Main

def RefusedByRouter (deps : RAGGraphDeps V S) (request : ChatRequest) : Prop :=
  ∃ config cls decision, Routed deps request config cls (some decision) ∧
    decision.action.truthy = true

/-- A request that is refused, by the router or by the tenant resolver, ends as a refusal. -/
def HonoursRefusal (deps : RAGGraphDeps V S) (request : ChatRequest) : Prop :=
  RefusedByRouter deps request ∨ AuthError request → Refused (chatRun deps request)

/-- No request that gets past the router is a refused one. -/
def OnlyAcceptedRouted (deps : RAGGraphDeps V S) (request : ChatRequest) : Prop :=
  ∀ config cls decision, Routed deps request config cls decision →
    ¬ AuthError request ∧ ∀ d, decision = some d → d.action.truthy = false

theorem not_refused_of_routed {deps : RAGGraphDeps V S} {request : ChatRequest}
    {config : TenantConfig S} {cls : ClassificationResult} {decision : Option RoutingDecision}
    (h : Routed deps request config cls decision) : ¬ Refused (chatRun deps request) := by
  rw [chatRun_of_routed h]
  intro hrefused
  exact run_routed_not_refused deps _ hrefused.of_past

theorem refused_of_blocks {deps : RAGGraphDeps V S} {request : ChatRequest}
    {config : TenantConfig S} (hconfig : deps.configLoader request.domainId = .ok config)
    (hblocks : blocks deps config request.question = true) :
    Refused (chatRun deps request) := by
  have hreason : (fallbackNode (checked deps config request)).fallbackReason =
      some .inputPiiBlocked := by
    have hchecked := (checked_blocked deps config request).2
    rw [hblocks, if_pos rfl] at hchecked
    exact hchecked
  obtain ⟨hsilent, hend⟩ := run_saveChatLog deps (fallbackNode (checked deps config request))
  rw [chatRun_of_blocks hconfig hblocks]
  exact ⟨hsilent, fun h => absurd (hreason.symm.trans (hend.symm.trans h)) nofun⟩

/-- A request without a tenant or a user is refused unless it gets past the router. -/
theorem refused_of_authError {deps : RAGGraphDeps V S} {request : ChatRequest}
    (hauth : AuthError request)
    (hstopped : ∀ config cls decision, ¬ Routed deps request config cls decision) :
    Refused (chatRun deps request) := by
  have hentered := entered_of_authError (S := S) hauth
  cases hconfig : deps.configLoader request.domainId with
  | error e =>
    rw [chatRun_of_configError hconfig]
    exact .of_raised hentered
  | ok config =>
    cases hblocks : blocks deps config request.question with
    | true => exact refused_of_blocks hconfig hblocks
    | false =>
      have hchecked : (checked deps config request).fallbackReason = some .authError := by
        rw [(checked_blocked deps config request).2, hblocks]
        exact hentered
      cases hcls : classification deps config request.question with
      | error e =>
        rw [chatRun_of_classifyError hconfig hblocks hcls]
        exact .of_raised hchecked
      | ok cls =>
        cases hroute : routing deps config cls with
        | error e =>
          rw [chatRun_of_routingError hconfig hblocks hcls hroute]
          exact .of_raised hchecked
        | ok decision =>
          exact absurd ⟨hconfig, hblocks, hcls, hroute⟩ (hstopped config cls decision)

theorem honoursRefusal_iff (deps : RAGGraphDeps V S) (request : ChatRequest) :
    HonoursRefusal deps request ↔ OnlyAcceptedRouted deps request := by
  constructor
  · intro h config cls decision hrouted
    have hno : ¬ (RefusedByRouter deps request ∨ AuthError request) :=
      fun hrefused => not_refused_of_routed hrouted (h hrefused)
    obtain ⟨hrouter, hauth⟩ := not_or.mp hno
    refine ⟨hauth, ?_⟩
    rintro d rfl
    exact Bool.eq_false_iff.mpr fun haction => hrouter ⟨config, cls, d, hrouted, haction⟩
  · rintro h (⟨config, cls, decision, hrouted, haction⟩ | hauth)
    · have hnone := (h config cls _ hrouted).2 decision rfl
      exact absurd (haction.symm.trans hnone) nofun
    · exact refused_of_authError hauth fun config cls decision hrouted =>
        (h config cls decision hrouted).1 hauth

end Main

section Stream

/-- A streamed request with a refusing decision: the LLM is not called, the log gives the
reason, and the only event is the refusal. -/
structure StreamRefused (service : StreamingChatService S) (request : StreamingRequest)
    (reason : FallbackReason) (run : StreamRun S) : Prop where
  silent : ∀ c ∈ run.calls, ∃ payload, c = .logged payload ∧
    payload.fallbackReason = some reason.text
  event : run.raised = none →
    run.events = [service.fallbackEvent request reason.text [] refusalMessage]

omit [LinearOrder S] [One S] [Add S] [Sub S] [Mul S] [Div S] [NatCast S] [OfScientific S] in
theorem streamRefused_of_decision (service : StreamingChatService S) (request : StreamingRequest)
    (config : TenantConfig S) {cls : ClassificationResult} {decision : RoutingDecision}
    (hopen : (service.checkInput request config).check.blocked = false)
    (hcls : service.classify request config = .ok cls)
    (hroute : service.route config cls = .ok (some decision))
    (haction : decision.action.truthy = true) :
    StreamRefused service request (.routing (decision.action.text service.repr))
      (service.stream request config) := by
  have hrefusal : decision.refusal? service.repr =
      some (.routing (decision.action.text service.repr)) := by
    rw [RoutingDecision.refusal?, haction, if_pos rfl]
  simp only [StreamingChatService.stream, hopen, hcls, hroute, Option.bind_some, hrefusal,
    StreamingChatService.streamRouted, StreamingChatService.streamRefused, Bool.false_eq_true,
    if_false, StreamingChatService.saveLog]
  cases service.chatLogWriter with
  | none => exact ⟨fun c hc => absurd hc List.not_mem_nil, fun _ => rfl⟩
  | some write =>
    simp only
    split
    · refine ⟨fun c hc => ⟨_, List.mem_singleton.mp hc, rfl⟩, nofun⟩
    · exact ⟨fun c hc => ⟨_, List.mem_singleton.mp hc, rfl⟩, fun _ => rfl⟩

end Stream

/-- The graph honours the refusals of a request exactly when no refused request gets past the
router, while the streamed chat honours every routing decision with an action. -/
theorem refusal_honoured_iff_only_accepted_routed (deps : RAGGraphDeps V S)
    (request : ChatRequest) :
    (HonoursRefusal deps request ↔ OnlyAcceptedRouted deps request) ∧
      ∀ (service : StreamingChatService S) (streamed : StreamingRequest)
        (config : TenantConfig S) (cls : ClassificationResult) (decision : RoutingDecision),
        (service.checkInput streamed config).check.blocked = false →
        service.classify streamed config = .ok cls →
        service.route config cls = .ok (some decision) → decision.action.truthy = true →
        StreamRefused service streamed (.routing (decision.action.text service.repr))
          (service.stream streamed config) :=
  ⟨honoursRefusal_iff deps request, fun service streamed config _ _ hopen hcls hroute haction =>
    streamRefused_of_decision service streamed config hopen hcls hroute haction⟩

section Office

/-- A tenant whose routing rules refuse questions about documents. -/
def refusalRouting : Value :=
  .dict [("rules", .list [.dict [("name", .str "no_document_qa"),
    ("when", .dict [("query_type", .str "document_qa")]), ("action", .str "fallback_refusal")]])]

def officeRouter : ModelRouter where
  repr := fun _ => ""
  float := fun v => match v.num? with
    | some q => .ok q
    | none => .error ⟨"ValueError", "could not convert to float"⟩

/-- The office where nothing is found and every question about a document is to be refused. -/
def refusingDeps : RAGGraphDeps ℚ ℚ :=
  { officeDeps with
    configLoader := fun _ => .ok { routing := refusalRouting }
    retrieve := fun _ => .ok ⟨[], [], []⟩
    modelRouter := some officeRouter.decide }

/-- The refused question is answered by the LLM, and the answer counts as a success. -/
theorem refused_question_answered : ¬ HonoursRefusal refusingDeps leaveQuestion ∧
    (chatRun refusingDeps leaveQuestion).calls.any Call.generates = true ∧
    (chatRun refusingDeps leaveQuestion).ending.state.fallbackReason = none := by
  have hnone : (chatRun refusingDeps leaveQuestion).ending.state.fallbackReason = none := by
    decide +kernel
  refine ⟨fun h => ?_, by decide +kernel, hnone⟩
  obtain ⟨decision, hdecision, haction⟩ := exists_ok_of_any
    (x := officeRouter.decide
      { classification :=
          { queryType := "document_qa", supportType := some "direct", complexity := some "medium" }
        routingConfig := refusalRouting
        tenantModelConfig := .dict [] })
    (p := fun d => d.action.truthy) (by decide +kernel)
  have hrouted : Routed refusingDeps leaveQuestion { routing := refusalRouting }
      { queryType := "document_qa", supportType := some "direct", complexity := some "medium" }
      (some decision) :=
    ⟨rfl, rfl, rfl, congrArg (some <$> ·) hdecision⟩
  exact (h (.inl ⟨_, _, decision, hrouted, haction⟩)).reason hnone

end Office

end DomainRag.Chat
