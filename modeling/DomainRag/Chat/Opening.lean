import DomainRag.Chat.Graph

/-! # The opening of a run

Up to the router the graph only depends on the configuration, the input check, the
classification and the routing decision. The equations below say where a run then stands.
-/

namespace DomainRag.Chat

open Machine (Run)

variable {V S : Type} [Zero S]

section States

variable (deps : RAGGraphDeps V S) (config : TenantConfig S) (request : ChatRequest)

def AuthError (request : ChatRequest) : Prop :=
  resolverError request.domainId request.userContext ≠ none

def blocks (question : String) : Bool :=
  match deps.piiService with
  | none => false
  | some service => (service.checkInput question config.pii).blocked

def classification (question : String) : Except Exc ClassificationResult :=
  match deps.queryClassifier with
  | none => .ok
      { queryType := "document_qa", supportType := some "direct", complexity := some "medium" }
  | some classify => classify question config.queryClassifier

/-- The decision for a classified question; without a router there is none. -/
def routing (cls : ClassificationResult) : Except Exc (Option RoutingDecision) :=
  match deps.modelRouter with
  | none => .ok none
  | some decide => some <$> decide
      { classification :=
          { queryType := orDefault (some cls.queryType) "document_qa"
            supportType := cls.supportType
            complexity := cls.complexity }
        routingConfig := config.routing
        tenantModelConfig := config.model.orElse (.dict []) }

def entered : RAGState S := tenantResolverNode (.initial request)

def checked : RAGState S :=
  checkInputPiiNode deps { (entered request : RAGState S) with tenantConfig := config }

def classified (cls : ClassificationResult) : RAGState S :=
  { buildAclFilterNode deps (checked deps config request) with
    queryType := some cls.queryType
    supportType := cls.supportType
    complexity := cls.complexity
    classifierDecision :=
      if deps.queryClassifier.isNone then .skipped "document_qa" else .result cls }

def routed (cls : ClassificationResult) (decision : Option RoutingDecision) : RAGState S :=
  match decision with
  | none =>
    { classified deps config request cls with
      matchedRule := some "default_skipped"
      selectedModel := some "tenant_slm"
      useRag := true
      uiMode := "chat_structured" }
  | some decision => withRouting deps.verifier.repr decision (classified deps config request cls)

end States

/-- The graph gets past the router. -/
structure Routed (deps : RAGGraphDeps V S) (request : ChatRequest) (config : TenantConfig S)
    (cls : ClassificationResult) (decision : Option RoutingDecision) : Prop where
  loads : deps.configLoader request.domainId = .ok config
  admits : blocks deps config request.question = false
  classifies : classification deps config request.question = .ok cls
  routes : routing deps config cls = .ok decision

section Fields

theorem entered_of_authError {request : ChatRequest} (h : AuthError request) :
    (entered request : RAGState S).fallbackReason = some .authError := by
  rw [entered, tenantResolverNode]
  split
  · rename_i hnone
    exact absurd hnone h
  · rfl

/-- What a state has kept of the request it started from. -/
structure FromRequest (request : ChatRequest) (state : RAGState S) : Prop where
  domainId : state.domainId = request.domainId
  question : state.question = request.question
  rewrittenQuery : state.rewrittenQuery = ""

theorem entered_fromRequest (request : ChatRequest) :
    FromRequest request (entered request : RAGState S) := by
  rw [entered, tenantResolverNode]
  split <;> exact ⟨rfl, rfl, rfl⟩

theorem entered_unchecked (request : ChatRequest) :
    (entered request : RAGState S).inputBlocked = false ∧
      (entered request : RAGState S).questionForStorage = "" := by
  rw [entered, tenantResolverNode]
  split <;> exact ⟨rfl, rfl⟩

variable (deps : RAGGraphDeps V S) (config : TenantConfig S) (request : ChatRequest)

theorem checked_fromRequest : FromRequest request (checked deps config request) := by
  obtain ⟨hdomain, hquestion, hrewritten⟩ := entered_fromRequest (S := S) request
  rw [checked, checkInputPiiNode]
  cases deps.piiService with
  | none => exact ⟨hdomain, hquestion, hrewritten⟩
  | some service =>
    simp only [withInputCheck]
    split <;> exact ⟨hdomain, hquestion, hrewritten⟩

omit [Zero S] in
theorem checkInputPiiNode_tenantConfig (state : RAGState S) :
    (checkInputPiiNode deps state).tenantConfig = state.tenantConfig := by
  rw [checkInputPiiNode]
  cases deps.piiService with
  | none => rfl
  | some service =>
    simp only [withInputCheck]
    split <;> rfl

theorem checked_tenantConfig : (checked deps config request).tenantConfig = config :=
  checkInputPiiNode_tenantConfig deps _

omit [Zero S] in
theorem withInputCheck_blocked (check : Pii.InputPIICheck) (state : RAGState S) :
    (withInputCheck check state).inputBlocked = (check.blocked || state.inputBlocked) ∧
      (withInputCheck check state).fallbackReason =
        if check.blocked then some .inputPiiBlocked else state.fallbackReason := by
  rw [withInputCheck]
  cases check.blocked <;> exact ⟨rfl, rfl⟩

omit [Zero S] in
theorem checkInputPiiNode_blocked (state : RAGState S) :
    (checkInputPiiNode deps state).inputBlocked =
        (blocks deps state.tenantConfig state.question || state.inputBlocked) ∧
      (checkInputPiiNode deps state).fallbackReason =
        if blocks deps state.tenantConfig state.question then some .inputPiiBlocked
        else state.fallbackReason := by
  rw [checkInputPiiNode, blocks]
  cases deps.piiService with
  | none => exact ⟨rfl, rfl⟩
  | some service => exact withInputCheck_blocked _ _

theorem checked_blocked :
    (checked deps config request).inputBlocked = blocks deps config request.question ∧
      (checked deps config request).fallbackReason =
        if blocks deps config request.question then some .inputPiiBlocked
        else (entered request : RAGState S).fallbackReason := by
  obtain ⟨hblocked, hreason⟩ := checkInputPiiNode_blocked deps
    { (entered request : RAGState S) with tenantConfig := config }
  rw [← (entered_fromRequest (S := S) request).question]
  refine ⟨hblocked.trans ?_, hreason⟩
  exact (congrArg _ (entered_unchecked (S := S) request).1).trans (Bool.or_false _)

theorem classifyQueryNode_checked :
    classifyQueryNode deps (buildAclFilterNode deps (checked deps config request)) =
      classified deps config request <$> classification deps config request.question := by
  have hquestion := (checked_fromRequest deps config request).question
  have hconfig := checked_tenantConfig deps config request
  have hclassified : classified deps config request = fun cls =>
      { buildAclFilterNode deps (checked deps config request) with
        queryType := some cls.queryType
        supportType := cls.supportType
        complexity := cls.complexity
        classifierDecision :=
          if deps.queryClassifier.isNone then .skipped "document_qa" else .result cls } := rfl
  rw [hclassified, classifyQueryNode, classification, ← hquestion]
  cases deps.queryClassifier with
  | none => rfl
  | some classify =>
    have hinput : classify (buildAclFilterNode deps (checked deps config request)).question
        (buildAclFilterNode deps (checked deps config request)).tenantConfig.queryClassifier =
        classify (checked deps config request).question config.queryClassifier :=
      congrArg (fun c : TenantConfig S =>
        classify (checked deps config request).question c.queryClassifier) hconfig
    simp only [hinput]
    cases classify (checked deps config request).question config.queryClassifier <;> rfl

theorem modelRouterNode_classified (cls : ClassificationResult) :
    modelRouterNode deps (classified deps config request cls) =
      routed deps config request cls <$> routing deps config cls := by
  have hconfig : (classified deps config request cls).tenantConfig = config :=
    checked_tenantConfig deps config request
  rw [modelRouterNode, routing]
  cases deps.modelRouter with
  | none => rfl
  | some decide =>
    have hrequest : routingRequest (classified deps config request cls) =
        { classification :=
            { queryType := orDefault (some cls.queryType) "document_qa"
              supportType := cls.supportType
              complexity := cls.complexity }
          routingConfig := config.routing
          tenantModelConfig := config.model.orElse (.dict []) } := by
      rw [routingRequest, hconfig]
      rfl
    simp only [hrequest]
    cases decide _ <;> rfl

end Fields

section Runs

variable [LinearOrder S] [One S] [Add S] [Sub S] [Mul S] [Div S] [NatCast S] [OfScientific S]
  {deps : RAGGraphDeps V S} {config : TenantConfig S} {request : ChatRequest}

theorem exec_tenantResolver (deps : RAGGraphDeps V S) (request : ChatRequest) :
    (chatGraph deps).exec .tenantResolver (.initial request) = ([], .ok (entered request)) := rfl

theorem chatRun_of_configError {e : Exc} (h : deps.configLoader request.domainId = .error e) :
    chatRun deps request = Run.past [.tenantResolver]
      ⟨[.loadTenantConfig], [], .raised .loadTenantConfig (entered request) e⟩ := by
  have hload : loadTenantConfigNode deps (entered request) = .error e := by
    rw [loadTenantConfigNode, (entered_fromRequest request).domainId, h]
    rfl
  have hstop : (chatGraph deps).run .loadTenantConfig (entered request) =
      ⟨[.loadTenantConfig], [], .raised .loadTenantConfig (entered request) e⟩ :=
    Machine.run_of_error hload
  rw [chatRun, Machine.run_of_quiet (exec_tenantResolver deps request) rfl, hstop]

theorem chatRun_of_config (h : deps.configLoader request.domainId = .ok config) :
    chatRun deps request =
      ((chatGraph deps).run (checkInputPiiRouter (checked deps config request))
        (checked deps config request)).past
        [.tenantResolver, .loadTenantConfig, .checkInputPii] := by
  have hload : (chatGraph deps).exec .loadTenantConfig (entered request) =
      ([], .ok { (entered request : RAGState S) with tenantConfig := config }) := by
    rw [← (entered_fromRequest (S := S) request).domainId] at h
    change ([], loadTenantConfigNode deps (entered request)) = _
    rw [loadTenantConfigNode, h]
    rfl
  have hcheck : (chatGraph deps).exec .checkInputPii
      { (entered request : RAGState S) with tenantConfig := config } =
      ([], .ok (checked deps config request)) := rfl
  rw [chatRun, Machine.run_of_quiet (exec_tenantResolver deps request) rfl,
    Machine.run_of_quiet hload rfl, Machine.run_of_quiet hcheck rfl, Run.past_past, Run.past_past]
  rfl

theorem chatRun_of_blocks (h : deps.configLoader request.domainId = .ok config)
    (hblocks : blocks deps config request.question = true) :
    chatRun deps request =
      ((chatGraph deps).run .saveChatLog (fallbackNode (checked deps config request))).past
        [.tenantResolver, .loadTenantConfig, .checkInputPii, .fallback] := by
  have hrouter : checkInputPiiRouter (checked deps config request) = .fallback := by
    rw [checkInputPiiRouter, (checked_blocked deps config request).1, hblocks, if_pos rfl]
  have hfallback : (chatGraph deps).exec .fallback (checked deps config request) =
      ([], .ok (fallbackNode (checked deps config request))) := rfl
  rw [chatRun_of_config h, hrouter, Machine.run_of_quiet hfallback rfl, Run.past_past]
  rfl

section Admitted

variable (h : deps.configLoader request.domainId = .ok config)
  (hadmits : blocks deps config request.question = false)

include h hadmits

theorem chatRun_of_admits : chatRun deps request =
    ((chatGraph deps).run .classifyQuery
      (buildAclFilterNode deps (checked deps config request))).past
      [.tenantResolver, .loadTenantConfig, .checkInputPii, .buildAclFilter] := by
  have hrouter : checkInputPiiRouter (checked deps config request) = .buildAclFilter := by
    rw [checkInputPiiRouter, (checked_blocked deps config request).1, hadmits]
    rfl
  have hacl : (chatGraph deps).exec .buildAclFilter (checked deps config request) =
      ([], .ok (buildAclFilterNode deps (checked deps config request))) := rfl
  rw [chatRun_of_config h, hrouter, Machine.run_of_quiet hacl rfl, Run.past_past]
  rfl

theorem chatRun_of_classifyError {e : Exc}
    (hcls : classification deps config request.question = .error e) : chatRun deps request =
    Run.past [.tenantResolver, .loadTenantConfig, .checkInputPii, .buildAclFilter]
      ⟨[.classifyQuery], [],
        .raised .classifyQuery (buildAclFilterNode deps (checked deps config request)) e⟩ := by
  have hnode : classifyQueryNode deps (buildAclFilterNode deps (checked deps config request)) =
      .error e := by
    rw [classifyQueryNode_checked, hcls]
    rfl
  have hstop : (chatGraph deps).run .classifyQuery
      (buildAclFilterNode deps (checked deps config request)) = ⟨[.classifyQuery], [],
        .raised .classifyQuery (buildAclFilterNode deps (checked deps config request)) e⟩ :=
    Machine.run_of_error hnode
  rw [chatRun_of_admits h hadmits, hstop]

theorem chatRun_of_classification {cls : ClassificationResult}
    (hcls : classification deps config request.question = .ok cls) : chatRun deps request =
    ((chatGraph deps).run .modelRouter (classified deps config request cls)).past
      [.tenantResolver, .loadTenantConfig, .checkInputPii, .buildAclFilter, .classifyQuery] := by
  have hnode : (chatGraph deps).exec .classifyQuery
      (buildAclFilterNode deps (checked deps config request)) =
      ([], .ok (classified deps config request cls)) := by
    change ([], classifyQueryNode deps (buildAclFilterNode deps (checked deps config request))) = _
    rw [classifyQueryNode_checked, hcls]
    rfl
  rw [chatRun_of_admits h hadmits, Machine.run_of_quiet hnode rfl, Run.past_past]
  rfl

theorem chatRun_of_routingError {cls : ClassificationResult} {e : Exc}
    (hcls : classification deps config request.question = .ok cls)
    (hroute : routing deps config cls = .error e) : chatRun deps request =
    Run.past [.tenantResolver, .loadTenantConfig, .checkInputPii, .buildAclFilter, .classifyQuery]
      ⟨[.modelRouter], [], .raised .modelRouter (classified deps config request cls) e⟩ := by
  have hnode : modelRouterNode deps (classified deps config request cls) = .error e := by
    rw [modelRouterNode_classified, hroute]
    rfl
  have hstop : (chatGraph deps).run .modelRouter (classified deps config request cls) =
      ⟨[.modelRouter], [], .raised .modelRouter (classified deps config request cls) e⟩ :=
    Machine.run_of_error hnode
  rw [chatRun_of_classification h hadmits hcls, hstop]

end Admitted

theorem chatRun_of_routed {cls : ClassificationResult} {decision : Option RoutingDecision}
    (h : Routed deps request config cls decision) : chatRun deps request =
    ((chatGraph deps).run (assessmentIntentRouter (routed deps config request cls decision))
      (routed deps config request cls decision)).past
      [.tenantResolver, .loadTenantConfig, .checkInputPii, .buildAclFilter, .classifyQuery,
        .modelRouter] := by
  have hnode : (chatGraph deps).exec .modelRouter (classified deps config request cls) =
      ([], .ok (routed deps config request cls decision)) := by
    change ([], modelRouterNode deps (classified deps config request cls)) = _
    rw [modelRouterNode_classified, h.routes]
    rfl
  rw [chatRun_of_classification h.loads h.admits h.classifies, Machine.run_of_quiet hnode rfl,
    Run.past_past]
  rfl

end Runs

end DomainRag.Chat
