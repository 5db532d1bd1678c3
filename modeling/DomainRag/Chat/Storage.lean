import DomainRag.Chat.Refusal

/-! # What the chat log keeps of a question

Under the storage policy `mask` the log should know a question only in its masked form: two
questions with the same masked form leave the same row. The streamed chat keeps this. The graph
also stores the query that went to retrieval, and falls back to the question itself when its
masked form is empty.
-/

namespace DomainRag.Chat

open Machine (Run)

variable {V S : Type}

section Rows

/-- The question and the query that the log keeps of a state. -/
def StoredQuestion.row (stored : StoredQuestion) : String × Option String :=
  (if stored.questionForStorage = "" then stored.question else stored.questionForStorage,
    if stored.rewrittenQuery = "" then none else some stored.rewrittenQuery)

def ChatLogPayload.row (payload : ChatLogPayload S) : String × Option String :=
  (payload.question, payload.rewrittenQuery)

theorem chatLogPayload_row (state : RAGState S) :
    (chatLogPayload state).row = state.stored.row := rfl

theorem runChain_structured {deps : RAGGraphDeps V S} {state : RAGState S} {c : Call S}
    (steps : List ChainStep) {acc : ChainOutcome S}
    (hacc : ∀ c ∈ acc.calls, ∃ request, c = .structured request)
    (hc : c ∈ (runChain deps state steps acc).calls) : ∃ request, c = .structured request := by
  induction steps generalizing acc with
  | nil => exact hacc c hc
  | cons step rest ih =>
    have hcalled : ∀ c ∈ acc.calls ++ [.structured (structuredRequest state step)],
        ∃ request, c = Call.structured request := by
      intro c hc
      obtain hc | hc := List.mem_append.mp hc
      · exact hacc c hc
      · exact ⟨_, List.mem_singleton.mp hc⟩
    rw [runChain] at hc
    cases hgenerate : deps.generateStructured (structuredRequest state step) with
    | error e =>
      simp only [hgenerate] at hc
      exact ih hcalled hc
    | ok result =>
      simp only [hgenerate] at hc
      split at hc
      · exact hcalled c hc
      · exact ih hcalled hc

end Rows

section Frame

variable [LinearOrder S] [Zero S] [One S] [Add S] [Sub S] [Mul S] [Div S] [NatCast S]
  [OfScientific S]

theorem execNode_logged {deps : RAGGraphDeps V S} {n : Node} {state : RAGState S}
    {payload : ChatLogPayload S} (h : .logged payload ∈ (execNode deps n state).1) :
    n = .saveChatLog ∧ payload = chatLogPayload state := by
  cases n with
  | saveChatLog =>
    have heq := saveChatLogNode_calls h
    cases heq
    exact ⟨rfl, rfl⟩
  | assessment =>
    obtain ⟨call, -, hcall⟩ := List.mem_map.mp h
    cases hcall
  | generateAnswer =>
    obtain ⟨request, hrequest⟩ := runChain_structured _
      (fun c hc => absurd hc List.not_mem_nil) h
    cases hrequest
  | generateUngrounded =>
    have heq := List.mem_singleton.mp h
    cases heq
  | _ => exact absurd h List.not_mem_nil

/-- The fields that one node writes at most. -/
structure Settings (S : Type) where
  domainId : String
  userId : String
  conversationId : Option String
  config : TenantConfig S
  stored : StoredQuestion
  policy : Pii.StoragePolicy

def RAGState.settings (state : RAGState S) : Settings S where
  domainId := state.domainId
  userId := state.userId
  conversationId := state.conversationId
  config := state.tenantConfig
  stored := state.stored
  policy := state.piiStoragePolicy

/-- What a node leaves as it was. -/
structure NodeFrame (n : Node) (state state' : RAGState S) : Prop where
  domainId : state'.domainId = state.domainId
  userId : state'.userId = state.userId
  conversationId : n ≠ .saveChatLog → state'.conversationId = state.conversationId
  config : n ≠ .loadTenantConfig → state'.tenantConfig = state.tenantConfig
  stored : n ≠ .checkInputPii → n ≠ .queryRewrite → state'.stored = state.stored
  policy : n ≠ .checkInputPii → state'.piiStoragePolicy = state.piiStoragePolicy

omit [LinearOrder S] [Zero S] [One S] [Add S] [Sub S] [Mul S] [Div S] [NatCast S]
  [OfScientific S] in
theorem NodeFrame.of_settings {n : Node} {state state' : RAGState S}
    (h : state'.settings = state.settings) : NodeFrame n state state' where
  domainId := congrArg Settings.domainId h
  userId := congrArg Settings.userId h
  conversationId _ := congrArg Settings.conversationId h
  config _ := congrArg Settings.config h
  stored _ _ := congrArg Settings.stored h
  policy _ := congrArg Settings.policy h

theorem execNode_frame {deps : RAGGraphDeps V S} {n : Node} {state state' : RAGState S}
    (hexec : (execNode deps n state).2 = .ok state') : NodeFrame n state state' := by
  cases n with
  | buildAclFilter | verifyTier1 | detectUnsupported | assembleResponse | computeConfidence
  | fallback | assessment =>
    cases hexec
    exact .of_settings rfl
  | tenantResolver =>
    cases hexec
    apply NodeFrame.of_settings
    rw [tenantResolverNode]
    split <;> rfl
  | loadTenantConfig =>
    obtain ⟨config, -, hexec⟩ := Except.bind_eq_ok_iff.mp hexec
    cases hexec
    exact ⟨rfl, rfl, fun _ => rfl, fun h => absurd rfl h, fun _ _ => rfl, fun _ => rfl⟩
  | checkInputPii =>
    cases hexec
    rw [checkInputPiiNode]
    cases deps.piiService with
    | none => exact .of_settings rfl
    | some service =>
      simp only [withInputCheck]
      split <;> exact ⟨rfl, rfl, fun _ => rfl, fun _ => rfl, fun h => absurd rfl h,
        fun h => absurd rfl h⟩
  | classifyQuery =>
    simp only [execNode, classifyQueryNode] at hexec
    split at hexec
    · cases hexec
      exact .of_settings rfl
    · obtain ⟨result, -, hexec⟩ := Except.bind_eq_ok_iff.mp hexec
      cases hexec
      exact .of_settings rfl
  | modelRouter =>
    simp only [execNode, modelRouterNode] at hexec
    split at hexec
    · cases hexec
      exact .of_settings rfl
    · obtain ⟨decision, -, hexec⟩ := Except.bind_eq_ok_iff.mp hexec
      cases hexec
      exact .of_settings rfl
  | queryRewrite =>
    cases hexec
    rw [queryRewriteNode]
    split
    · exact .of_settings rfl
    · exact ⟨rfl, rfl, fun _ => rfl, fun _ => rfl, fun _ h => absurd rfl h, fun _ => rfl⟩
  | retrieveContext =>
    cases hexec
    apply NodeFrame.of_settings
    rw [retrieveContextNode]
    split <;> rfl
  | gate1 =>
    cases hexec
    apply NodeFrame.of_settings
    rw [gate1Node]
    split
    · rfl
    · split <;> rfl
  | generateAnswer =>
    cases hexec
    apply NodeFrame.of_settings
    rw [generateAnswerNode, withChain]
    split <;> rfl
  | generateUngrounded =>
    cases hexec
    apply NodeFrame.of_settings
    simp only [generateUngroundedNode]
    cases deps.generateConversational (conversationalRequest state) <;> rfl
  | parseResponse =>
    simp only [execNode, parseResponseNode] at hexec
    split at hexec
    · obtain ⟨segs, -, hexec⟩ := Except.bind_eq_ok_iff.mp hexec
      cases hexec
      exact .of_settings rfl
    · cases hexec
      exact .of_settings rfl
  | detectConflictHeuristic =>
    cases hexec
    apply NodeFrame.of_settings
    rw [detectConflictHeuristicNode]
    split
    · rfl
    · split <;> rfl
  | verifyTier2 =>
    simp only [execNode, verifyTier2Node] at hexec
    obtain ⟨tier2, -, hexec⟩ := Except.bind_eq_ok_iff.mp hexec
    cases hexec
    exact .of_settings rfl
  | judgeInference =>
    simp only [execNode, judgeInferenceNode] at hexec
    split at hexec
    · cases hexec
      exact .of_settings rfl
    · obtain ⟨judged, -, hexec⟩ := Except.bind_eq_ok_iff.mp hexec
      cases hexec
      exact .of_settings rfl
  | maskResponsePii =>
    cases hexec
    apply NodeFrame.of_settings
    rw [maskResponsePiiNode]
    split
    · rfl
    · simp only
      split <;> rfl
  | gate2 =>
    cases hexec
    apply NodeFrame.of_settings
    simp only [gate2Node]
    split <;> rfl
  | saveChatLog =>
    rw [saveChatLogNode_ok hexec]
    exact ⟨rfl, rfl, fun h => absurd rfl h, fun _ => rfl, fun _ _ => rfl, fun _ => rfl⟩

/-- After the input check only the rewriter writes the stored forms of the question. -/
theorem execNode_stored {deps : RAGGraphDeps V S} {n : Node} {state state' : RAGState S}
    (hlate : n.rank < Node.checkInputPii.rank) (hn : n ≠ .queryRewrite)
    (hexec : (execNode deps n state).2 = .ok state') : state'.stored = state.stored := by
  refine (execNode_frame hexec).stored ?_ hn
  rintro rfl
  exact absurd hlate (by decide)

/-- The row of a run that has passed the input check, when nothing rewrites the query. -/
theorem logged_row {deps : RAGGraphDeps V S} {n : Node} {state : RAGState S}
    {payload : ChatLogPayload S} (hlate : n.rank < Node.checkInputPii.rank)
    (hrewriter : deps.queryRewriter = none ∨ n.rank < Node.queryRewrite.rank)
    (h : .logged payload ∈ ((chatGraph deps).run n state).calls) :
    payload.row = state.stored.row := by
  obtain ⟨k, t, hreach, hlogged⟩ := Machine.mem_calls_iff.mp h
  have hkept : t.stored = state.stored ∧ k.rank ≤ n.rank := by
    refine hreach.invariant (P := fun k t => t.stored = state.stored ∧ k.rank ≤ n.rank)
      ⟨rfl, le_rfl⟩ ?_
    rintro k t t' k' ⟨hstored, hle⟩ hexec hnext
    refine ⟨?_, (nextNode_descends k t' k' hnext).le.trans hle⟩
    by_cases hk : k = .queryRewrite
    · subst hk
      have hnone : deps.queryRewriter = none :=
        hrewriter.resolve_right fun hlt => absurd hle (not_le.mpr hlt)
      have hsame : queryRewriteNode deps t = t := by rw [queryRewriteNode, hnone]
      rw [← hstored, ← Except.ok.inj hexec, hsame]
    · exact (execNode_stored (hle.trans_lt hlate) hk hexec).trans hstored
  obtain ⟨-, rfl⟩ := execNode_logged hlogged
  rw [chatLogPayload_row, hkept.1]

end Frame

section Checked

variable [Zero S]

/-- The storage decision for the tenant's questions is `mask`. -/
def StoresMasked (service : Pii.PIIService) (config : TenantConfig S) : Prop :=
  service.storagePolicy config.pii (some config.storageMode) config.plainApproved = .mask

omit [Zero S] in
theorem storageDecision_masked {service : Pii.PIIService} {config : TenantConfig S}
    (question : String) (hmask : StoresMasked service config) :
    (storageDecision service config question).policy = .mask ∧
      (storageDecision service config question).text = (Pii.mask service.rules question).1 :=
  ⟨(service.maskForStorage_policy _ _ _ _).trans hmask,
    service.maskForStorage_text _ _ _ _ hmask⟩

theorem checked_stored {deps : RAGGraphDeps V S} {service : Pii.PIIService}
    {config : TenantConfig S} (request : ChatRequest) (hpii : deps.piiService = some service)
    (hmask : StoresMasked service config) : (checked deps config request).stored =
      ⟨request.question, (Pii.mask service.rules request.question).1, ""⟩ := by
  have hquestion := (checked_fromRequest deps config request).question
  have hrewritten := (checked_fromRequest deps config request).rewrittenQuery
  have hstorage : (checked deps config request).questionForStorage =
      (Pii.mask service.rules request.question).1 := by
    obtain ⟨hpolicy, htext⟩ := storageDecision_masked request.question hmask
    have hcheck : ∀ (check : Pii.InputPIICheck) (state : RAGState S),
        (withInputCheck check state).questionForStorage = state.questionForStorage := by
      intro check state
      rw [withInputCheck]
      split <;> rfl
    rw [checked, checkInputPiiNode, hpii]
    simp only [hcheck, withStorage, (entered_fromRequest (S := S) request).question]
    rw [if_pos hpolicy, htext]
  rw [RAGState.stored, hquestion, hrewritten, hstorage]

end Checked

section Outage

variable [Zero S]

def ChatRequest.asking (request : ChatRequest) (question : String) : ChatRequest :=
  { request with question := question }

def outage : Exc := ⟨"ConnectionError", "service unavailable"⟩

def outageDeps (V : Type) (service : Pii.PIIService) (config : TenantConfig S)
    (rewriter : Option QueryRewriter) : RAGGraphDeps V S where
  text := plainText
  configLoader := fun _ => .ok config
  retrieve := fun _ => .error outage
  generateStructured := fun _ => .error outage
  generateConversational := fun _ => .error outage
  verifier := ⟨fun _ => "", ⟨fun _ => .error outage⟩, fun _ _ => 0, none⟩
  patterns := ⟨fun _ => [], fun _ => [], fun _ => [], fun _ => []⟩
  chatLogWriter := some fun _ => .ok ""
  piiService := some service
  queryRewriter := rewriter
  assessment := ⟨none, none, none⟩

variable [LinearOrder S] [One S] [Add S] [Sub S] [Mul S] [Div S] [NatCast S] [OfScientific S]

/-- After retrieval has failed the run answers without sources and is logged. -/
theorem outage_logged (V : Type) (service : Pii.PIIService) (config : TenantConfig S)
    (rewriter : Option QueryRewriter) (state : RAGState S) : ∃ payload, .logged payload ∈
    ((chatGraph (outageDeps V service config rewriter)).run .retrieveContext state).calls := by
  let deps := outageDeps V service config rewriter
  let retrieved := retrieveContextNode deps state
  let gated := gate1Node retrieved
  let answered := (generateUngroundedNode deps gated).2
  have hgate : nextNode .gate1 gated = some .generateUngrounded := by
    have hfail : gated.gate1Passed = false := gate1Node_passed retrieved
    simp only [nextNode, gate1FullRouter, hfail, Bool.false_eq_true, if_false]
  have hmask : nextNode .maskResponsePii (maskResponsePiiNode deps answered) =
      some .saveChatLog := by
    have hgrounding : (maskResponsePiiNode deps answered).grounding = .ungrounded :=
      (congrArg Evidence.grounding (maskResponsePiiNode_eq deps answered).1).trans
        (generateUngroundedNode_uncited deps gated).1
    simp only [nextNode, postMaskGroundingRouter, hgrounding, reduceCtorEq, if_false]
  have hretrieved : (chatGraph deps).Reach .retrieveContext state .gate1 retrieved :=
    .step .start rfl rfl
  have hgated : (chatGraph deps).Reach .retrieveContext state .generateUngrounded gated :=
    .step hretrieved rfl hgate
  have hanswered : (chatGraph deps).Reach .retrieveContext state .maskResponsePii answered :=
    .step hgated rfl rfl
  have hreach : (chatGraph deps).Reach .retrieveContext state .saveChatLog
      (maskResponsePiiNode deps answered) := .step hanswered rfl hmask
  exact ⟨_, Machine.mem_calls_iff.mpr ⟨_, _, hreach, List.mem_singleton_self _⟩⟩

theorem outage_logs (V : Type) {service : Pii.PIIService} {config : TenantConfig S}
    (rewriter : Option QueryRewriter) {request : ChatRequest}
    (hopen : (service.checkInput request.question config.pii).blocked = false) : ∃ payload,
    .logged payload ∈ (chatRun (outageDeps V service config rewriter) request).calls := by
  have hrouted : Routed (outageDeps V service config rewriter) request config
      { queryType := "document_qa", supportType := some "direct", complexity := some "medium" }
      none := ⟨rfl, hopen, rfl, rfl⟩
  have hrun := chatRun_of_routed hrouted
  generalize hstate : routed (outageDeps V service config rewriter) config request _ none = state
    at hrun
  have hquery : assessmentIntentRouter state = .queryRewrite := by rw [← hstate]; rfl
  have hrewrite : (chatGraph (outageDeps V service config rewriter)).exec .queryRewrite state =
      ([], .ok (queryRewriteNode (outageDeps V service config rewriter) state)) := rfl
  obtain ⟨payload, hpayload⟩ := outage_logged V service config rewriter
    (queryRewriteNode (outageDeps V service config rewriter) state)
  rw [hquery, Machine.run_of_quiet hrewrite rfl] at hrun
  exact ⟨payload, by rw [hrun]; exact hpayload⟩

end Outage

section Query

variable [Zero S]

/-- The run of a question comes to the rewriter: the input check admits the question, and it does
not ask for an exercise. -/
def comesToRewriter (deps : RAGGraphDeps V S) (config : TenantConfig S) (question : String) :
    Bool :=
  !blocks deps config question && match classification deps config question with
    | .ok cls => cls.queryType ≠ "assessment_generation"
    | .error _ => false

/-- The query that a run has in the end. -/
def queryOf (deps : RAGGraphDeps V S) (config : TenantConfig S) (question : String) : String :=
  match deps.queryRewriter with
  | none => ""
  | some rewriter =>
    if comesToRewriter deps config question then
      (rewriter.rewrite question config.retrieval.queryRewriting).rewrittenQuery
    else ""

variable [LinearOrder S] [One S] [Add S] [Sub S] [Mul S] [Div S] [NatCast S] [OfScientific S]
  {deps : RAGGraphDeps V S} {service : Pii.PIIService} {config : TenantConfig S}
  {request : ChatRequest} {payload : ChatLogPayload S}

theorem row_of_unrewritten (hlogged : .logged payload ∈ (chatRun deps request).calls)
    (hpii : deps.piiService = some service)
    (hconfig : deps.configLoader request.domainId = .ok config)
    (hmask : StoresMasked service config)
    (hunrewritten : deps.queryRewriter = none ∨ blocks deps config request.question = true) :
    payload.row =
      StoredQuestion.row ⟨request.question, (Pii.mask service.rules request.question).1, ""⟩ := by
  rw [← checked_stored request hpii hmask]
  obtain hnone | hblocks := hunrewritten
  · rw [chatRun_of_config hconfig] at hlogged
    refine logged_row ?_ (.inl hnone) hlogged
    rw [checkInputPiiRouter]
    split <;> decide
  · rw [chatRun_of_blocks hconfig hblocks] at hlogged
    have hsaved : .logged payload ∈ ((chatGraph deps).run .saveChatLog
      (fallbackNode (checked deps config request))).calls := hlogged
    have hrow : payload.row = (fallbackNode (checked deps config request)).stored.row :=
      logged_row (by decide) (.inr (by decide)) hsaved
    exact hrow

theorem row_of_routed {cls : ClassificationResult} {decision : Option RoutingDecision}
    {rewriter : QueryRewriter} {question stored : String}
    (hlogged : .logged payload ∈ (chatRun deps request).calls)
    (hrouted : Routed deps request config cls decision)
    (hrewriter : deps.queryRewriter = some rewriter)
    (hstored : (checked deps config request).stored = ⟨question, stored, ""⟩) :
    payload.row = StoredQuestion.row ⟨question, stored,
      if cls.queryType ≠ "assessment_generation" then
        (rewriter.rewrite question config.retrieval.queryRewriting).rewrittenQuery
      else ""⟩ := by
  rw [chatRun_of_routed hrouted] at hlogged
  have hlogged : .logged payload ∈
      ((chatGraph deps).run (assessmentIntentRouter (routed deps config request cls decision))
        (routed deps config request cls decision)).calls := hlogged
  have hkept : (routed deps config request cls decision).stored = ⟨question, stored, ""⟩ := by
    rw [← hstored]
    cases decision <;> rfl
  have hconfig : (routed deps config request cls decision).tenantConfig = config := by
    cases decision <;> exact checked_tenantConfig deps config request
  have htype : (routed deps config request cls decision).queryType = some cls.queryType := by
    cases decision <;> rfl
  generalize routed deps config request cls decision = state at hlogged hkept hconfig htype
  obtain ⟨hquestion, hstorage, -⟩ := StoredQuestion.mk.inj hkept
  rw [assessmentIntentRouter, htype] at hlogged
  by_cases hkind : cls.queryType = "assessment_generation"
  · rw [hkind, if_pos rfl] at hlogged
    rw [if_neg (not_not.mpr hkind), ← hkept]
    exact logged_row (by decide) (.inr (by decide)) hlogged
  · have hexec : (chatGraph deps).exec .queryRewrite state =
        ([], .ok (queryRewriteNode deps state)) := rfl
    rw [if_neg fun h => hkind (Option.some.inj h), Machine.run_of_quiet hexec rfl] at hlogged
    have hlogged : .logged payload ∈
        ((chatGraph deps).run .retrieveContext (queryRewriteNode deps state)).calls := hlogged
    have hrewritten : (queryRewriteNode deps state).stored = ⟨question, stored,
        (rewriter.rewrite question config.retrieval.queryRewriting).rewrittenQuery⟩ := by
      rw [queryRewriteNode, hrewriter, ← hquestion, ← hstorage, ← hconfig]
      rfl
    rw [if_pos hkind, ← hrewritten]
    exact logged_row (by decide) (.inr (by decide)) hlogged

/-- What a run under the policy `mask` stores of its question. -/
theorem stored_row (hlogged : .logged payload ∈ (chatRun deps request).calls)
    (hpii : deps.piiService = some service)
    (hconfig : deps.configLoader request.domainId = .ok config)
    (hmask : StoresMasked service config) : payload.row =
      StoredQuestion.row ⟨request.question, (Pii.mask service.rules request.question).1,
        queryOf deps config request.question⟩ := by
  cases hrewriter : deps.queryRewriter with
  | none =>
    rw [queryOf, hrewriter]
    exact row_of_unrewritten hlogged hpii hconfig hmask (.inl hrewriter)
  | some rewriter =>
    have hquery : queryOf deps config request.question =
        if comesToRewriter deps config request.question then
          (rewriter.rewrite request.question config.retrieval.queryRewriting).rewrittenQuery
        else "" := by rw [queryOf, hrewriter]
    cases hblocks : blocks deps config request.question with
    | true =>
      have hcomes : comesToRewriter deps config request.question = false := by
        rw [comesToRewriter, hblocks]
        rfl
      rw [hquery, hcomes]
      exact row_of_unrewritten hlogged hpii hconfig hmask (.inr hblocks)
    | false =>
      cases hcls : classification deps config request.question with
      | error e =>
        rw [chatRun_of_classifyError hconfig hblocks hcls] at hlogged
        exact absurd hlogged List.not_mem_nil
      | ok cls =>
        cases hroute : routing deps config cls with
        | error e =>
          rw [chatRun_of_routingError hconfig hblocks hcls hroute] at hlogged
          exact absurd hlogged List.not_mem_nil
        | ok decision =>
          have hcomes : comesToRewriter deps config request.question =
              decide (cls.queryType ≠ "assessment_generation") := by
            rw [comesToRewriter, hblocks, hcls]
            rfl
          simp only [hquery, hcomes, decide_eq_true_iff]
          exact row_of_routed hlogged ⟨hconfig, hblocks, hcls, hroute⟩ hrewriter
            (checked_stored request hpii hmask)

/-- What the services that a run asks before it comes to retrieval answer to the two questions. -/
structure AnswersAlike (deps : RAGGraphDeps V S) (config : TenantConfig S) (q₁ q₂ : String) :
    Prop where
  classifier : ∀ classify, deps.queryClassifier = some classify →
    classify q₁ config.queryClassifier = classify q₂ config.queryClassifier
  llm : ∀ rewriter, deps.queryRewriter = some rewriter →
    ∀ endpoint generate, rewriter.llms endpoint = some generate →
    ∀ strategy, rewriter.askLlm (config.retrieval.queryRewriting.getD {}) q₁ strategy generate =
      rewriter.askLlm (config.retrieval.queryRewriting.getD {}) q₂ strategy generate

/-- The stored query says nothing of the question beyond its masked form. -/
inductive HidesQuery (deps : RAGGraphDeps V S) (config : TenantConfig S) (q₁ q₂ : String) : Prop
  | unwritten (h : deps.queryRewriter = none)
  | unreached (h₁ : comesToRewriter deps config q₁ = false)
      (h₂ : comesToRewriter deps config q₂ = false)
  | replied (rewriter : QueryRewriter) (strategy body : String)
      (hrewriter : deps.queryRewriter = some rewriter)
      (h₁ : comesToRewriter deps config q₁ = true) (h₂ : comesToRewriter deps config q₂ = true)
      (hreply : rewriter.reply? q₁ config.retrieval.queryRewriting = some (strategy, body))
      (hsame : strategy = "hyde" ∨
        rewriter.mergeExpandKeywords (config.retrieval.queryRewriting.getD {}) q₁ body =
          rewriter.mergeExpandKeywords (config.retrieval.queryRewriting.getD {}) q₂ body)

section Alike

omit [LinearOrder S] [Zero S] [One S] [Add S] [Sub S] [Mul S] [Div S] [NatCast S]
  [OfScientific S]

variable {q₁ q₂ : String} (halike : AnswersAlike deps config q₁ q₂)

include halike

theorem AnswersAlike.reply {rewriter : QueryRewriter}
    (hrewriter : deps.queryRewriter = some rewriter) :
    rewriter.reply? q₁ config.retrieval.queryRewriting =
      rewriter.reply? q₂ config.retrieval.queryRewriting := by
  rw [QueryRewriter.reply?, QueryRewriter.reply?]
  congr 1
  funext strategy
  rw [QueryRewriter.answer?, QueryRewriter.answer?]
  cases hllm : rewriter.llms ((config.retrieval.queryRewriting.getD {}).endpoint.getD
      "tenant_slm") with
  | none => rfl
  | some generate => simp only [Option.bind_some, halike.llm rewriter hrewriter _ generate hllm]

/-- The queries of two questions that an LLM is asked about. -/
theorem rewritten_eq_iff (h₁ : q₁ ≠ "") (h₂ : q₂ ≠ "") (hne : q₁ ≠ q₂) {rewriter : QueryRewriter}
    (hrewriter : deps.queryRewriter = some rewriter) :
    (rewriter.rewrite q₁ config.retrieval.queryRewriting).rewrittenQuery =
        (rewriter.rewrite q₂ config.retrieval.queryRewriting).rewrittenQuery ↔
      ∃ strategy body, rewriter.reply? q₁ config.retrieval.queryRewriting = some (strategy, body) ∧
        (strategy = "hyde" ∨
          rewriter.mergeExpandKeywords (config.retrieval.queryRewriting.getD {}) q₁ body =
            rewriter.mergeExpandKeywords (config.retrieval.queryRewriting.getD {}) q₂ body) := by
  rw [rewriter.rewrite_query q₁ _ h₁, rewriter.rewrite_query q₂ _ h₂, ← halike.reply hrewriter]
  cases rewriter.reply? q₁ config.retrieval.queryRewriting with
  | none => exact iff_of_false hne nofun
  | some reply =>
    obtain ⟨strategy, body⟩ := reply
    simp only [Option.map_some, Option.getD_some, QueryRewriter.rewriting, Option.some.injEq,
      Prod.mk.injEq]
    by_cases hhyde : strategy = "hyde"
    · simp only [hhyde, if_true, true_iff]
      exact ⟨_, _, ⟨rfl, rfl⟩, .inl rfl⟩
    · simp only [hhyde, if_false]
      constructor
      · exact fun hsame => ⟨_, _, ⟨rfl, rfl⟩, .inr hsame⟩
      · rintro ⟨_, _, ⟨rfl, rfl⟩, hsame⟩
        exact hsame.resolve_left hhyde

theorem queryOf_eq_iff (h₁ : q₁ ≠ "") (h₂ : q₂ ≠ "") (hne : q₁ ≠ q₂) :
    queryOf deps config q₁ = queryOf deps config q₂ ↔ HidesQuery deps config q₁ q₂ := by
  cases hrewriter : deps.queryRewriter with
  | none =>
    refine iff_of_true ?_ (.unwritten hrewriter)
    rw [queryOf, queryOf, hrewriter]
  | some rewriter =>
    have hquery (q : String) : queryOf deps config q = if comesToRewriter deps config q then
        (rewriter.rewrite q config.retrieval.queryRewriting).rewrittenQuery else "" := by
      rw [queryOf, hrewriter]
    have hwritten : ¬ deps.queryRewriter = none := by rw [hrewriter]; rintro ⟨⟩
    have hspoken₁ := rewriter.rewrite_ne_empty q₁ config.retrieval.queryRewriting h₁
    have hspoken₂ := rewriter.rewrite_ne_empty q₂ config.retrieval.queryRewriting h₂
    rw [hquery, hquery]
    cases hcomes₁ : comesToRewriter deps config q₁ with
    | false =>
      cases hcomes₂ : comesToRewriter deps config q₂ with
      | false => exact iff_of_true rfl (.unreached hcomes₁ hcomes₂)
      | true =>
        refine iff_of_false (fun h => hspoken₂ h.symm) fun h => ?_
        cases h with
        | unwritten hnone => exact hwritten hnone
        | unreached _ h₂ => cases hcomes₂.symm.trans h₂
        | replied _ _ _ _ h₁ => cases hcomes₁.symm.trans h₁
    | true =>
      cases hcomes₂ : comesToRewriter deps config q₂ with
      | false =>
        refine iff_of_false hspoken₁ fun h => ?_
        cases h with
        | unwritten hnone => exact hwritten hnone
        | unreached h₁ => cases hcomes₁.symm.trans h₁
        | replied _ _ _ _ _ h₂ => cases hcomes₂.symm.trans h₂
      | true =>
        rw [if_pos rfl, if_pos rfl, rewritten_eq_iff halike h₁ h₂ hne hrewriter]
        constructor
        · rintro ⟨strategy, body, hreply, hsame⟩
          exact .replied rewriter strategy body hrewriter hcomes₁ hcomes₂ hreply hsame
        · intro h
          cases h with
          | unwritten hnone => exact absurd hnone hwritten
          | unreached h₁ => cases hcomes₁.symm.trans h₁
          | replied rewriter' strategy body hrewriter' _ _ hreply hsame =>
            obtain rfl := Option.some.inj (hrewriter.symm.trans hrewriter')
            exact ⟨strategy, body, hreply, hsame⟩

end Alike

end Query

section Stream

variable {chat : StreamingChatService S} {request : StreamingRequest} {config : TenantConfig S}

theorem quiet_calls : ∀ c ∈ ([] : List (StreamCall S)), ∃ r, c = .llm r :=
  fun _ hc => absurd hc List.not_mem_nil

theorem saveLog_logged {run : StreamRun S} {payload p : ChatLogPayload S}
    {event : Option String → StreamEvent} (hrun : ∀ c ∈ run.calls, ∃ r, c = .llm r)
    (h : .logged p ∈ (chat.saveLog run payload event).calls) : p = payload := by
  have hlogged : .logged p ∈ run.calls ++ [.logged payload] → p = payload := by
    intro h
    obtain h | h := List.mem_append.mp h
    · obtain ⟨r, hr⟩ := hrun _ h
      cases hr
    · have heq := List.mem_singleton.mp h
      cases heq
      rfl
  rw [StreamingChatService.saveLog] at h
  cases hwriter : chat.chatLogWriter with
  | none =>
    rw [hwriter] at h
    exact hlogged (List.mem_append_left _ h)
  | some write =>
    simp only [hwriter] at h
    split at h <;> exact hlogged h

variable [Zero S]

/-- A row that a stream writes: the input check decides in which form it has the question. -/
def StreamPayload (chat : StreamingChatService S) (request : StreamingRequest)
    (checked : StreamCheck) (p : ChatLogPayload S) : Prop :=
  ∃ routing answer reason masked, p = chat.payload request checked routing answer reason masked

theorem streamTokens_logged {checked : StreamCheck} {routing : StreamRouting} {prompt : String}
    {p : ChatLogPayload S}
    (h : .logged p ∈ (chat.streamTokens request config checked routing prompt).calls) :
    StreamPayload chat request checked p := by
  have hllm : ∀ r, ∀ c ∈ ([.llm r] : List (StreamCall S)), ∃ r, c = .llm r :=
    fun r c hc => ⟨r, List.mem_singleton.mp hc⟩
  simp only [StreamingChatService.streamTokens] at h
  split at h
  · exact ⟨_, _, _, _, saveLog_logged (hllm _) h⟩
  · exact ⟨_, _, _, _, saveLog_logged (hllm _) h⟩

theorem streamRouted_logged {checked : StreamCheck} {routing : StreamRouting}
    {refusal : Option FallbackReason} {p : ChatLogPayload S}
    (h : .logged p ∈ (chat.streamRouted request config checked routing refusal).calls) :
    StreamPayload chat request checked p := by
  cases refusal with
  | some reason => exact ⟨_, _, _, _, saveLog_logged quiet_calls h⟩
  | none =>
    rw [StreamingChatService.streamRouted] at h
    split at h
    · exact absurd h List.not_mem_nil
    · exact streamTokens_logged h

theorem stream_logged {p : ChatLogPayload S} (h : .logged p ∈ (chat.stream request config).calls) :
    StreamPayload chat request (chat.checkInput request config) p := by
  rw [StreamingChatService.stream] at h
  split at h
  · exact ⟨_, _, _, _, saveLog_logged quiet_calls h⟩
  · split at h
    · exact absurd h List.not_mem_nil
    · split at h
      · exact absurd h List.not_mem_nil
      · exact streamRouted_logged h

theorem stream_row {service : Pii.PIIService} {p : ChatLogPayload S}
    (h : .logged p ∈ (chat.stream request config).calls)
    (hpii : chat.piiService = some service) (hmask : StoresMasked service config) :
    p.row = ((Pii.mask service.rules request.question).1, none) := by
  obtain ⟨hpolicy, htext⟩ := storageDecision_masked request.question hmask
  have hstored : (chat.checkInput request config).questionForLog =
      (Pii.mask service.rules request.question).1 := by
    simp only [StreamingChatService.checkInput, hpii]
    rw [if_pos hpolicy, htext]
  obtain ⟨routing, answer, reason, masked, rfl⟩ := stream_logged h
  rw [← hstored]
  rfl

end Stream

section Theorem

variable [LinearOrder S] [Zero S] [One S] [Add S] [Sub S] [Mul S] [Div S] [NatCast S]
  [OfScientific S]

def StreamingRequest.asking (request : StreamingRequest) (question : String) :
    StreamingRequest :=
  { request with question := question }

theorem row_eq_iff {masked w₁ w₂ q₁ q₂ : String} :
    StoredQuestion.row ⟨q₁, masked, w₁⟩ = StoredQuestion.row ⟨q₂, masked, w₂⟩ ↔
      (masked = "" → q₁ = q₂) ∧ w₁ = w₂ := by
  have hquery : ((if w₁ = "" then none else some w₁) = if w₂ = "" then none else some w₂) ↔
      w₁ = w₂ := by
    constructor
    · intro h
      split at h
      · rename_i h₁
        split at h
        · rename_i h₂
          rw [h₁, h₂]
        · cases h
      · split at h
        · cases h
        · exact Option.some.inj h
    · rintro rfl
      rfl
  rw [StoredQuestion.row, StoredQuestion.row, Prod.mk.injEq, hquery]
  refine and_congr_left fun _ => ?_
  by_cases hempty : masked = ""
  · simp only [hempty, if_true, true_imp_iff]
  · simp only [hempty, if_false, false_imp_iff]

/-- Of two questions with the same masked form that its services answer alike, a deployment stores
the same row exactly when they are equal, or the masked form is not empty and the stored query says
nothing beyond it. A stream always stores the same row. -/
theorem stored_row_hides_question_iff (service : Pii.PIIService) (config : TenantConfig S)
    (q₁ q₂ : String) (hmask : StoresMasked service config)
    (hsame : (Pii.mask service.rules q₁).1 = (Pii.mask service.rules q₂).1) :
    (∀ (deps : RAGGraphDeps V S) (request : ChatRequest), deps.piiService = some service →
        deps.configLoader request.domainId = .ok config → AnswersAlike deps config q₁ q₂ →
        ∀ p₁ p₂, .logged p₁ ∈ (chatRun deps (request.asking q₁)).calls →
          .logged p₂ ∈ (chatRun deps (request.asking q₂)).calls →
          (p₁.row = p₂.row ↔ q₁ = q₂ ∨
            (Pii.mask service.rules q₁).1 ≠ "" ∧ HidesQuery deps config q₁ q₂)) ∧
      ∀ (chat : StreamingChatService S) (request : StreamingRequest),
        chat.piiService = some service →
        ∀ p₁ p₂, .logged p₁ ∈ (chat.stream (request.asking q₁) config).calls →
          .logged p₂ ∈ (chat.stream (request.asking q₂) config).calls → p₁.row = p₂.row := by
  constructor
  · intro deps request hpii hconfig halike p₁ p₂ hp₁ hp₂
    rw [stored_row hp₁ hpii hconfig hmask, stored_row hp₂ hpii hconfig hmask]
    simp only [ChatRequest.asking, ← hsame, row_eq_iff]
    by_cases hne : q₁ = q₂
    · refine iff_of_true ⟨fun _ => hne, congrArg _ hne⟩ (.inl hne)
    · have hquery (hmasked : (Pii.mask service.rules q₁).1 ≠ "") :
          queryOf deps config q₁ = queryOf deps config q₂ ↔ HidesQuery deps config q₁ q₂ := by
        refine queryOf_eq_iff halike ?_ ?_ hne
        · rintro rfl
          exact hmasked (Pii.mask_empty service.rules)
        · rintro rfl
          exact hmasked (hsame.trans (Pii.mask_empty service.rules))
      constructor
      · rintro ⟨hquestion, hstored⟩
        have hmasked : (Pii.mask service.rules q₁).1 ≠ "" := fun h => hne (hquestion h)
        exact .inr ⟨hmasked, (hquery hmasked).mp hstored⟩
      · rintro (heq | ⟨hmasked, hhides⟩)
        · exact absurd heq hne
        · exact ⟨fun h => absurd h hmasked, (hquery hmasked).mpr hhides⟩
  · intro chat request hpii p₁ p₂ hp₁ hp₂
    rw [stream_row hp₁ hpii hmask, stream_row hp₂ hpii hmask]
    exact congrArg (·, none) hsame

end Theorem

section Phone

/-- What the expression for mobile numbers finds in a text that is such a number. -/
def mobilePattern : Pii.Pattern where
  finditer t := if t.toList.length = 13 ∧ t.toList.take 4 = ['0', '1', '0', '-'] then [(0, 13)]
    else []
  inside t m hm := by
    split at hm
    · rename_i h
      rw [List.mem_singleton.mp hm, h.1]
      decide
    · exact absurd hm List.not_mem_nil
  ordered t := by
    split
    · exact List.pairwise_singleton _ _
    · exact List.Pairwise.nil

def mobileService : Pii.PIIService where
  rules := [⟨"phone", "medium", mobilePattern, "010-****-****"⟩]
  lower := id

theorem mobile_same_mask : (Pii.mask mobileService.rules "010-1234-5678").1 =
    (Pii.mask mobileService.rules "010-8765-4321").1 := by decide +kernel

/-- A rewriter whose LLM answers with a passage that could stand in a document. -/
def passageRewriter : QueryRewriter where
  text := plainText
  llms := fun endpoint =>
    if endpoint = "tenant_slm" then some fun _ => .ok "The number belongs to the help desk."
    else none
  hydeSystem := "Write a passage that answers the question."
  hydeUser := fun question => .ok ("Question: " ++ question)
  expandSystem := fun _ => .ok ""
  expandUser := fun question _ => .ok question
  defaultModel := "tenant_slm"

def hydeConfig : TenantConfig ℚ where
  retrieval := { queryRewriting := some { enable := some true, strategy := some "hyde" } }

theorem hyde_storesMasked : StoresMasked mobileService hydeConfig := by
  rw [StoresMasked]
  decide +kernel

theorem passage_answersAlike (q₁ q₂ : String) :
    AnswersAlike (outageDeps ℚ mobileService hydeConfig (some passageRewriter)) hydeConfig q₁ q₂ where
  classifier _ h := nomatch h
  llm rewriter hrewriter endpoint generate hllm strategy := by
    cases hrewriter
    have hfixed : generate = fun _ => .ok "The number belongs to the help desk." := by
      by_cases hendpoint : endpoint = "tenant_slm"
      · exact (Option.some.inj ((if_pos hendpoint).symm.trans hllm)).symm
      · cases (if_neg hendpoint).symm.trans hllm
    have hprompt (q : String) : ∃ prompt,
        passageRewriter.buildPrompt (hydeConfig.retrieval.queryRewriting.getD {}) q strategy =
          .ok prompt := by
      rw [QueryRewriter.buildPrompt]
      split <;> exact ⟨_, rfl⟩
    obtain ⟨prompt₁, h₁⟩ := hprompt q₁
    obtain ⟨prompt₂, h₂⟩ := hprompt q₂
    rw [QueryRewriter.askLlm, QueryRewriter.askLlm, h₁, h₂, hfixed]
    rfl

theorem stored_row_hides_question_mobile : ∃ p₁ p₂,
    .logged p₁ ∈ (chatRun (outageDeps ℚ mobileService hydeConfig (some passageRewriter))
      (leaveQuestion.asking "010-1234-5678")).calls ∧
    .logged p₂ ∈ (chatRun (outageDeps ℚ mobileService hydeConfig (some passageRewriter))
      (leaveQuestion.asking "010-8765-4321")).calls ∧ p₁.row = p₂.row := by
  have hopen₁ : (mobileService.checkInput (leaveQuestion.asking "010-1234-5678").question
      hydeConfig.pii).blocked = false := by decide +kernel
  have hopen₂ : (mobileService.checkInput (leaveQuestion.asking "010-8765-4321").question
      hydeConfig.pii).blocked = false := by decide +kernel
  obtain ⟨p₁, hp₁⟩ := outage_logs ℚ (some passageRewriter) hopen₁
  obtain ⟨p₂, hp₂⟩ := outage_logs ℚ (some passageRewriter) hopen₂
  refine ⟨p₁, p₂, hp₁, hp₂, ?_⟩
  refine ((stored_row_hides_question_iff mobileService hydeConfig "010-1234-5678" "010-8765-4321"
    hyde_storesMasked mobile_same_mask).1
    (outageDeps ℚ mobileService hydeConfig (some passageRewriter)) leaveQuestion rfl rfl
    (passage_answersAlike _ _) p₁ p₂ hp₁ hp₂).mpr (.inr ⟨by decide +kernel, ?_⟩)
  exact .replied passageRewriter "hyde" "The number belongs to the help desk." rfl
    (by decide +kernel) (by decide +kernel) (by decide +kernel) (.inl rfl)

/-- A rewriter none of whose LLMs can be reached. -/
def offlineRewriter : QueryRewriter := { passageRewriter with llms := fun _ => none }

/-- With a rewriter that gets no answer the two numbers are stored as they were entered. -/
theorem mobile_numbers_stored : StoresMasked mobileService hydeConfig ∧
    (Pii.mask mobileService.rules "010-1234-5678").1 =
      (Pii.mask mobileService.rules "010-8765-4321").1 ∧
    AnswersAlike (outageDeps ℚ mobileService hydeConfig (some offlineRewriter)) hydeConfig
      "010-1234-5678" "010-8765-4321" ∧
    ∃ p₁ p₂,
      .logged p₁ ∈ (chatRun (outageDeps ℚ mobileService hydeConfig (some offlineRewriter))
        (leaveQuestion.asking "010-1234-5678")).calls ∧
      .logged p₂ ∈ (chatRun (outageDeps ℚ mobileService hydeConfig (some offlineRewriter))
        (leaveQuestion.asking "010-8765-4321")).calls ∧
      p₁.row = ("010-****-****", some "010-1234-5678") ∧
      p₂.row = ("010-****-****", some "010-8765-4321") := by
  have hopen₁ : (mobileService.checkInput (leaveQuestion.asking "010-1234-5678").question
      hydeConfig.pii).blocked = false := by decide +kernel
  have hopen₂ : (mobileService.checkInput (leaveQuestion.asking "010-8765-4321").question
      hydeConfig.pii).blocked = false := by decide +kernel
  obtain ⟨p₁, hp₁⟩ := outage_logs ℚ (some offlineRewriter) hopen₁
  obtain ⟨p₂, hp₂⟩ := outage_logs ℚ (some offlineRewriter) hopen₂
  refine ⟨hyde_storesMasked, mobile_same_mask, ⟨nofun, ?_⟩, p₁, p₂, hp₁, hp₂, ?_, ?_⟩
  · intro rewriter hrewriter endpoint generate hllm
    cases hrewriter
    cases hllm
  · rw [stored_row hp₁ rfl rfl hyde_storesMasked]
    decide +kernel
  · rw [stored_row hp₂ rfl rfl hyde_storesMasked]
    decide +kernel

end Phone

end DomainRag.Chat
