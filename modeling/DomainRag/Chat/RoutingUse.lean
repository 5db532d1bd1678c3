import DomainRag.Chat.Opening
import DomainRag.Chat.RoutingConfig
import DomainRag.Chat.Streaming
import DomainRag.Lib.Contents
import DomainRag.Lib.Except

/-! # What becomes of an accepted routing document

The validator looks at the values of three conditions and not at the threshold of the fourth. A
threshold that is no number is stored, and raises once a rule with it is reached in a request that
has a retrieval confidence.
-/

namespace DomainRag.Chat

def rulesOf (document : Value) : List Value :=
  match document.field "rules" .null with
  | .list rules => rules
  | _ => []

theorem rulesOf_of_field {document : Value} {rules : List Value}
    (h : document.field "rules" .null = .list rules) : rulesOf document = rules := by
  rw [rulesOf, h]

def defaultOf (document : Value) : Value := (document.field "default" .null).orElse (.dict [])

def conditionsOf (rule : Value) : List (String × Value) := (rule.field "when" .null).entries

def IsNullOrDict (v : Value) : Prop := v = .null ∨ v.isDict = true

structure RuleShape (rule : Value) : Prop where
  dict : rule.isDict = true
  conditions : IsNullOrDict (rule.field "when" .null)

/-- What the validator makes sure of that the router relies on. -/
structure DocumentShape (document : Value) : Prop where
  dict : document.isDict = true
  rules : document.field "rules" .null = .null ∨
    document.field "rules" .null = .list (rulesOf document)
  rule : ∀ rule ∈ rulesOf document, RuleShape rule
  default : IsNullOrDict (document.field "default" .null)

/-- A model configuration has the settings of an endpoint under each key. -/
structure IsModelConfig (config : Value) : Prop where
  dict : (config.orElse (.dict [])).isDict = true
  endpoint : ∀ key, (((config.orElse (.dict [])).field key .null).orElse (.dict [])).isDict = true

section Accepted

variable {validator : RoutingValidator} {document rule : Value} {i : Nat}

theorem ruleShape_of_ruleErrors (h : validator.ruleErrors i rule = .ok []) : RuleShape rule := by
  cases rule with
  | dict kvs =>
    obtain ⟨conditions, hconditions, h⟩ := Except.bind_eq_ok_iff.mp h
    have hnone : conditions = [] := (List.append_eq_nil_iff.mp (Except.ok.inj h)).1
    subst hnone
    refine ⟨rfl, ?_⟩
    change IsNullOrDict ((kvs.lookup "when").getD .null)
    cases hwhen : (kvs.lookup "when").getD .null with
    | null => exact .inl rfl
    | dict _ => exact .inr rfl
    | bool | int | float | str | list =>
      rw [hwhen] at hconditions
      cases hconditions
  | null | bool | int | float | str | list => cases h

theorem ruleShape_of_rulesErrors {rules : List Value}
    (h : validator.rulesErrors (.list rules) = .ok []) (hrule : rule ∈ rules) :
    RuleShape rule := by
  obtain ⟨errors, herrors, h⟩ := Except.bind_eq_ok_iff.mp h
  obtain ⟨i, hi⟩ := List.mem_iff_getElem?.mp hrule
  have hmem : (rule, i) ∈ rules.zipIdx := List.mem_zipIdx_iff_getElem?.mpr hi
  obtain ⟨es, hes, hshape⟩ := exists_of_mem_forall₂ (mapM_eq_ok_iff.mp herrors) hmem
  rw [List.flatten_eq_nil_iff.mp (Except.ok.inj h) es hes] at hshape
  exact ruleShape_of_ruleErrors hshape

theorem documentShape_of_accepted (h : validator.validateRoutingYaml document = .ok ()) :
    DocumentShape document := by
  cases document with
  | dict kvs =>
    obtain ⟨errors, herrors, h⟩ := Except.bind_eq_ok_iff.mp h
    dsimp only at h
    split at h
    · next hempty =>
      rw [List.isEmpty_iff, List.append_eq_nil_iff] at hempty
      obtain ⟨hshape, rfl⟩ := hempty
      obtain ⟨hrules, hdefault⟩ := List.append_eq_nil_iff.mp hshape
      have hdefault : IsNullOrDict ((kvs.lookup "default").getD .null) := by
        split at hdefault
        · next heq => exact .inl heq
        · next heq => exact .inr (heq ▸ rfl)
        · cases hdefault
      cases hfield : (kvs.lookup "rules").getD .null with
      | null =>
        have hnone : rulesOf (.dict kvs) = [] := by
          rw [rulesOf, Value.field, Value.entries, hfield]
        refine ⟨rfl, .inl hfield, ?_, hdefault⟩
        rw [hnone]
        exact List.forall_mem_nil _
      | list rules =>
        have hrulesOf : rulesOf (.dict kvs) = rules := rulesOf_of_field hfield
        rw [hfield] at herrors
        refine ⟨rfl, .inr (hrulesOf ▸ hfield), ?_, hdefault⟩
        rw [hrulesOf]
        exact fun rule hrule => ruleShape_of_rulesErrors herrors hrule
      | bool | int | float | str | dict =>
        rw [hfield] at hrules
        cases hrules
    · cases h
  | null | bool | int | float | str | list => cases h

end Accepted

namespace ModelRouter

variable (router : ModelRouter) (request : RoutingRequest)

def holds : String × Value → Bool := passes fun e => router.conditionHolds request e.1 e.2

def satisfies (rule : Value) : Bool := (conditionsOf rule).all (router.holds request)

/-- The decision of the first rule whose whole condition holds, or the default. -/
def firstDecision : Except Exc RoutingDecision :=
  match (rulesOf request.routingConfig).find? (router.satisfies request) with
  | some rule => router.applyRule request rule (defaultOf request.routingConfig)
  | none => router.applyDefault request (defaultOf request.routingConfig)

/-- A threshold is a number where it is compared with a confidence. -/
def Comparable (e : String × Value) : Prop :=
  e.1 = "retrieval_confidence_below" → request.retrievalConfidence ≠ none →
    Returns (router.float e.2)

/-- No threshold that is reached is other than a number. A condition is reached after conditions
that hold, and a rule after rules that do not. -/
def Thresholds : Prop :=
  UpTo (fun rule => router.satisfies request rule = false)
    (fun rule => UpTo (fun e => router.holds request e = true) (router.Comparable request)
      (conditionsOf rule))
    (rulesOf request.routingConfig)

section Rules

variable {router request} {rule : Value} {d : RoutingDecision}

theorem returns_conditionHolds_iff (e : String × Value) :
    Returns (router.conditionHolds request e.1 e.2) ↔ router.Comparable request e := by
  rw [conditionHolds, Comparable]
  by_cases hkey : e.1 = "retrieval_confidence_below"
  · rw [if_pos hkey]
    cases hconfidence : request.retrievalConfidence with
    | none => exact ⟨fun _ _ hne => absurd rfl hne, fun _ => returns_ok false⟩
    | some actual =>
      rw [returns_bind_iff]
      constructor
      · rintro ⟨t, ht, -⟩ - -
        exact ⟨t, ht⟩
      · intro h
        obtain ⟨t, ht⟩ := h hkey (Option.some_ne_none actual)
        exact ⟨t, ht, returns_ok _⟩
  · rw [if_neg hkey]
    exact ⟨fun _ heq => absurd heq hkey, fun _ => returns_ok _⟩

theorem holds_of_conditionHolds (e : String × Value) (b : Bool)
    (h : router.conditionHolds request e.1 e.2 = .ok b) : b = router.holds request e := by
  simp only [holds, passes, h]

theorem matchesRule_eq_ok_iff (hrule : RuleShape rule) {b : Bool} :
    router.matchesRule request (rule.field "when" .null) = .ok b ↔
      UpTo (fun e => router.holds request e = true) (router.Comparable request)
        (conditionsOf rule) ∧ b = router.satisfies request rule := by
  have hall : (conditionsOf rule).allM (fun e => router.conditionHolds request e.1 e.2) = .ok b ↔
      UpTo (fun e => router.holds request e = true) (router.Comparable request)
        (conditionsOf rule) ∧ b = router.satisfies request rule := by
    rw [allM_eq_ok_iff holds_of_conditionHolds, satisfies]
    simp only [returns_conditionHolds_iff]
  rw [← hall, matchesRule, conditionsOf]
  obtain hnull | hdict := hrule.conditions
  · rw [hnull]
    rfl
  · obtain ⟨kvs, hkvs⟩ := Value.exists_of_isDict hdict
    rw [hkvs]
    cases kvs <;> rfl

theorem decideAmong_eq_ok_iff {default : Value} {rules : List Value}
    (hrules : ∀ rule ∈ rules, RuleShape rule) :
    router.decideAmong request default rules = .ok d ↔
      UpTo (fun rule => router.satisfies request rule = false)
        (fun rule => UpTo (fun e => router.holds request e = true) (router.Comparable request)
          (conditionsOf rule)) rules ∧
      (match rules.find? (router.satisfies request) with
        | some rule => router.applyRule request rule default
        | none => router.applyDefault request default) = .ok d := by
  induction rules with
  | nil => exact ⟨fun h => ⟨upTo_nil, h⟩, fun h => h.2⟩
  | cons rule rules ih =>
    obtain ⟨hrule, hrest⟩ := List.forall_mem_cons.mp hrules
    rw [decideAmong, Value.getD_of_isDict hrule.dict, Except.bind_eq_ok_iff, upTo_cons_iff,
      List.find?_cons]
    simp only [Except.ok.injEq, exists_eq_left', Except.bind_eq_ok_iff, matchesRule_eq_ok_iff hrule]
    cases hmatch : router.satisfies request rule with
    | true =>
      constructor
      · rintro ⟨_, ⟨hconditions, rfl⟩, h⟩
        exact ⟨⟨hconditions, by simp⟩, h⟩
      · rintro ⟨⟨hconditions, -⟩, h⟩
        exact ⟨true, ⟨hconditions, rfl⟩, h⟩
    | false =>
      constructor
      · rintro ⟨_, ⟨hconditions, rfl⟩, h⟩
        obtain ⟨hupTo, h⟩ := (ih hrest).mp h
        exact ⟨⟨hconditions, fun _ => hupTo⟩, h⟩
      · rintro ⟨⟨hconditions, hupTo⟩, h⟩
        exact ⟨false, ⟨hconditions, rfl⟩, (ih hrest).mpr ⟨hupTo rfl, h⟩⟩

/-- The router returns the decision of the first rule that matches if it reaches no threshold that
is other than a number. -/
theorem decide_eq_ok_iff (hdocument : DocumentShape request.routingConfig) :
    router.decide request = .ok d ↔
      router.Thresholds request ∧ router.firstDecision request = .ok d := by
  obtain ⟨kvs, hkvs⟩ := Value.exists_of_isDict hdocument.dict
  have hdict : request.routingConfig.orElse (.dict []) = request.routingConfig := by
    rw [hkvs]
    cases kvs <;> rfl
  have hrules : ((request.routingConfig.field "rules" .null).orElse (.list [])).iter =
      .ok (rulesOf request.routingConfig) := by
    obtain hnull | hlist := hdocument.rules
    · rw [rulesOf, hnull]
      rfl
    · rw [hlist]
      cases rulesOf request.routingConfig <;> rfl
  rw [Thresholds, firstDecision, ← decideAmong_eq_ok_iff hdocument.rule, decide]
  simp only [hdict, Value.getD_of_isDict hdocument.dict, hrules, defaultOf, bind, Except.bind]

theorem isDict_orElse {v : Value} (h : IsNullOrDict v) : (v.orElse (.dict [])).isDict = true := by
  obtain rfl | h := h
  · rfl
  · obtain ⟨kvs, rfl⟩ := Value.exists_of_isDict h
    cases kvs <;> rfl

theorem returns_resolveLora (hmodel : IsModelConfig request.tenantModelConfig) (useLora : Bool)
    (key : String) : Returns (resolveLora useLora key request.tenantModelConfig) := by
  cases useLora with
  | false => exact returns_ok _
  | true =>
    simp only [resolveLora, Value.getD_of_isDict hmodel.dict, Value.getD_of_isDict
      (hmodel.endpoint key), bind, Except.bind]
    exact returns_pure _

theorem returns_applyRule (hmodel : IsModelConfig request.tenantModelConfig) {default : Value}
    (hrule : rule.isDict = true) (hdefault : default.isDict = true) :
    Returns (router.applyRule request rule default) := by
  simp only [applyRule, modelKey, Value.getD_of_isDict hrule, Value.getD_of_isDict hdefault,
    bind, Except.bind, pure, Except.pure]
  obtain ⟨lora, hlora⟩ := returns_resolveLora hmodel (rule.field "use_lora"
    (default.field "use_lora" (.bool true))).truthy _
  rw [hlora]
  exact returns_ok _

theorem returns_applyDefault (hmodel : IsModelConfig request.tenantModelConfig) {default : Value}
    (hdefault : default.isDict = true) : Returns (router.applyDefault request default) := by
  simp only [applyDefault, Value.getD_of_isDict hdefault, bind, Except.bind, pure, Except.pure]
  obtain ⟨lora, hlora⟩ := returns_resolveLora hmodel (default.field "use_lora" (.bool true)).truthy _
  rw [hlora]
  exact returns_ok _

theorem returns_firstDecision (hdocument : DocumentShape request.routingConfig)
    (hmodel : IsModelConfig request.tenantModelConfig) :
    Returns (router.firstDecision request) := by
  have hdefault : (defaultOf request.routingConfig).isDict = true :=
    isDict_orElse hdocument.default
  rw [firstDecision]
  split
  · next rule hfind =>
    have hrule := hdocument.rule rule (List.mem_of_find?_eq_some hfind)
    exact returns_applyRule hmodel hrule.dict hdefault
  · exact returns_applyDefault hmodel hdefault

end Rules

section Agreement

/-- Requests that the router tells apart by nothing. -/
structure Alike (r r' : RoutingRequest) : Prop where
  signal : signal r = signal r'
  confidence : r.retrievalConfidence = r'.retrievalConfidence
  document : r.routingConfig = r'.routingConfig
  model : r.tenantModelConfig.orElse (.dict []) = r'.tenantModelConfig.orElse (.dict [])

variable {router} {r r' : RoutingRequest}

theorem resolveLora_congr (h : Alike r r') (useLora : Bool) (key : String) :
    resolveLora useLora key r.tenantModelConfig = resolveLora useLora key r'.tenantModelConfig := by
  rw [resolveLora, resolveLora, h.model]

theorem decideAmong_congr (h : Alike r r') (default : Value) (rules : List Value) :
    router.decideAmong r default rules = router.decideAmong r' default rules := by
  have hcondition : ∀ key expected,
      router.conditionHolds r key expected = router.conditionHolds r' key expected := by
    intro key expected
    rw [conditionHolds, conditionHolds, h.signal, h.confidence]
  have hmatches : ∀ conditions,
      router.matchesRule r conditions = router.matchesRule r' conditions := by
    intro conditions
    simp only [matchesRule, hcondition]
  induction rules with
  | nil => simp only [decideAmong, applyDefault, resolveLora_congr h]
  | cons rule rules ih => simp only [decideAmong, hmatches, applyRule, resolveLora_congr h, ih]

theorem decide_congr (h : Alike r r') : router.decide r = router.decide r' := by
  simp only [decide, h.document, decideAmong_congr h]

end Agreement

end ModelRouter

/-- A classification as the graph and the dry run pass it on: without a type of the question it
counts as one about documents. -/
def ClassificationResult.orDocumentQa (cls : ClassificationResult) : ClassificationResult :=
  { cls with queryType := orDefault (some cls.queryType) "document_qa" }

def RoutingRequest.orDocumentQa (request : RoutingRequest) : RoutingRequest :=
  { request with classification := request.classification.orDocumentQa }

/-- The router, the dry runs and both ways to answer a chat come to a decision, which is that of the
first rule that matches. -/
structure Usable (router : ModelRouter) (validator : RoutingValidator) (request : RoutingRequest)
    (d : RoutingDecision) : Prop where
  decides : router.decide request = .ok d
  first : router.firstDecision request = .ok d
  tried : ∀ effective, router.dryrunRouting validator effective request.tenantModelConfig
    ⟨request.classification, some request.routingConfig, request.retrievalConfidence⟩ = .ok d
  triedInEffect : router.dryrunRouting validator request.routingConfig request.tenantModelConfig
    ⟨request.classification, none, request.retrievalConfidence⟩ = .ok d
  graph : request.retrievalConfidence = none →
    ∀ {V S : Type} (deps : RAGGraphDeps V S) (config : TenantConfig S),
      deps.modelRouter = some router.decide → config.routing = request.routingConfig →
        config.model = request.tenantModelConfig →
          routing deps config request.classification = .ok (some d)
  stream : request.retrievalConfidence = none →
    ∀ {S : Type} (service : StreamingChatService S) (config : TenantConfig S),
      service.modelRouter = some router.decide → config.routing = request.routingConfig →
        config.model = request.tenantModelConfig →
          service.route config request.classification = .ok (some d)

section Usable

variable {router : ModelRouter} {validator : RoutingValidator} {request : RoutingRequest}
  {d : RoutingDecision}

theorem orElse_orElse (v : Value) {w : Value} (hw : w.truthy = false) :
    (v.orElse w).orElse (.dict []) = v.orElse (.dict []) := by
  unfold Value.orElse
  cases hv : v.truthy with
  | true => simp only [hv, if_true]
  | false => simp only [hw, Bool.false_eq_true, if_false]

theorem dryrunDecide_eq (request : RoutingRequest) :
    router.dryrunDecide request.routingConfig request.classification
      (request.tenantModelConfig.orElse .null) request.retrievalConfidence =
        router.decide request.orDocumentQa :=
  ModelRouter.decide_congr ⟨rfl, rfl, rfl, orElse_orElse _ rfl⟩

theorem decide_orDocumentQa (htype : request.classification.queryType ≠ "") :
    router.decide request.orDocumentQa = router.decide request := by
  have hdefault : orDefault (some request.classification.queryType) "document_qa" =
      request.classification.queryType := by
    rw [orDefault, Option.getD_some, if_neg htype]
  refine ModelRouter.decide_congr ⟨?_, rfl, rfl, rfl⟩
  funext key
  simp only [signal, RoutingRequest.orDocumentQa, ClassificationResult.orDocumentQa, hdefault]

theorem graph_routing_eq (hconfidence : request.retrievalConfidence = none) {V S : Type}
    {deps : RAGGraphDeps V S} {config : TenantConfig S}
    (hrouter : deps.modelRouter = some router.decide)
    (hrouting : config.routing = request.routingConfig)
    (hmodel : config.model = request.tenantModelConfig) :
    routing deps config request.classification = some <$> router.decide request.orDocumentQa := by
  rw [routing, hrouter, hrouting, hmodel]
  refine congrArg (some <$> ·)
    (ModelRouter.decide_congr ⟨?_, hconfidence.symm, rfl, orElse_orElse _ rfl⟩)
  funext key
  simp only [signal, RoutingRequest.orDocumentQa, hconfidence]
  rfl

theorem stream_route_eq (hconfidence : request.retrievalConfidence = none) {S : Type}
    {service : StreamingChatService S} {config : TenantConfig S}
    (hrouter : service.modelRouter = some router.decide)
    (hrouting : config.routing = request.routingConfig)
    (hmodel : config.model = request.tenantModelConfig) :
    service.route config request.classification = some <$> router.decide request := by
  rw [StreamingChatService.route, hrouter, hrouting, hmodel]
  refine congrArg (some <$> ·)
    (ModelRouter.decide_congr ⟨?_, hconfidence.symm, rfl, orElse_orElse _ rfl⟩)
  funext key
  simp only [signal, hconfidence]

theorem dryrunRouting_accepted
    (haccepted : validator.validateRoutingYaml request.routingConfig = .ok ()) (effective : Value) :
    router.dryrunRouting validator effective request.tenantModelConfig
      ⟨request.classification, some request.routingConfig, request.retrievalConfidence⟩ =
        router.decide request.orDocumentQa := by
  simp only [ModelRouter.dryrunRouting, haccepted, bind, Except.bind]
  exact dryrunDecide_eq request

theorem usable_of_decide (hdocument : DocumentShape request.routingConfig)
    (haccepted : validator.validateRoutingYaml request.routingConfig = .ok ())
    (hdecide : router.decide request = .ok d) (hother : router.decide request.orDocumentQa = .ok d) :
    Usable router validator request d where
  decides := hdecide
  first := ((ModelRouter.decide_eq_ok_iff hdocument).mp hdecide).2
  tried effective := by rw [dryrunRouting_accepted haccepted, hother]
  triedInEffect := by
    obtain ⟨kvs, hkvs⟩ := Value.exists_of_isDict hdocument.dict
    have hdict : request.routingConfig.orElse (.dict []) = request.routingConfig := by
      rw [hkvs]
      cases kvs <;> rfl
    simp only [ModelRouter.dryrunRouting, hdict]
    rw [dryrunDecide_eq, hother]
  graph hconfidence {V S} deps config hrouter hrouting hmodel := by
    rw [graph_routing_eq hconfidence hrouter hrouting hmodel, hother]
    rfl
  stream hconfidence {S} service config hrouter hrouting hmodel := by
    rw [stream_route_eq hconfidence hrouter hrouting hmodel, hdecide]
    rfl

/-- An accepted document leads to a decision exactly for the requests that reach no threshold other
than a number. A classification without a type also has to be decided as one about documents is. -/
theorem usable_iff (haccepted : validator.validateRoutingYaml request.routingConfig = .ok ())
    (hmodel : IsModelConfig request.tenantModelConfig) :
    (∃ d, Usable router validator request d) ↔
      router.Thresholds request ∧ (request.classification.queryType = "" →
        router.Thresholds request.orDocumentQa ∧
          router.firstDecision request.orDocumentQa = router.firstDecision request) := by
  have hdocument := documentShape_of_accepted haccepted
  have hdocument' : DocumentShape request.orDocumentQa.routingConfig := hdocument
  constructor
  · rintro ⟨d, h⟩
    obtain ⟨hthresholds, hfirst⟩ := (ModelRouter.decide_eq_ok_iff hdocument).mp h.decides
    have hother := h.tried .null
    rw [dryrunRouting_accepted haccepted] at hother
    obtain ⟨hthresholds', hfirst'⟩ := (ModelRouter.decide_eq_ok_iff hdocument').mp hother
    exact ⟨hthresholds, fun _ => ⟨hthresholds', hfirst'.trans hfirst.symm⟩⟩
  · rintro ⟨hthresholds, htype⟩
    have hfirst : Returns (router.firstDecision request) :=
      ModelRouter.returns_firstDecision hdocument hmodel
    obtain ⟨d, hd⟩ := hfirst
    have hdecide := (ModelRouter.decide_eq_ok_iff hdocument).mpr ⟨hthresholds, hd⟩
    refine ⟨d, usable_of_decide hdocument haccepted hdecide ?_⟩
    by_cases hempty : request.classification.queryType = ""
    · obtain ⟨hthresholds', hsame⟩ := htype hempty
      exact (ModelRouter.decide_eq_ok_iff hdocument').mpr ⟨hthresholds', hsame.trans hd⟩
    · rw [decide_orDocumentQa hempty, hdecide]

end Usable

section Instances

def numericRouter : ModelRouter where
  repr _ := ""
  float v := match v.num? with
    | some q => .ok q
    | none => .error ⟨"ValueError", "could not convert string to float"⟩

def thresholdDocument (threshold : Value) : Value :=
  .dict [("rules", .list [.dict [("when", .dict [("retrieval_confidence_below", threshold)]),
    ("use_model", .str "shared_llm")]])]

def thresholdRequest (threshold : Value) : RoutingRequest where
  classification := { queryType := "document_qa" }
  routingConfig := thresholdDocument threshold
  tenantModelConfig := .dict []
  retrievalConfidence := some (2 / 5)

theorem accepted_thresholdDocument (validator : RoutingValidator) (threshold : Value) :
    validator.validateRoutingYaml (thresholdDocument threshold) = .ok () := rfl

theorem isModelConfig_empty : IsModelConfig (.dict []) := ⟨rfl, fun _ => rfl⟩

theorem usable_iff_half :
    ∃ d, Usable numericRouter ⟨fun _ => ""⟩ (thresholdRequest (.float (1 / 2))) d := by
  refine (usable_iff (accepted_thresholdDocument _ _) isModelConfig_empty).mpr ⟨?_, ?_⟩
  · exact upTo_cons_iff.mpr ⟨upTo_cons_iff.mpr ⟨fun _ _ => returns_ok _, fun _ => upTo_nil⟩,
      fun _ => upTo_nil⟩
  · intro h
    exact absurd h (by decide)

/-- A text as a threshold is accepted, and raises for a request with a confidence. -/
theorem text_threshold_raises :
    ¬ ∀ (router : ModelRouter) (validator : RoutingValidator) (request : RoutingRequest),
      validator.validateRoutingYaml request.routingConfig = .ok () →
        IsModelConfig request.tenantModelConfig → ∃ d, Usable router validator request d := by
  intro h
  obtain ⟨d, hd⟩ := h numericRouter ⟨fun _ => ""⟩ (thresholdRequest (.str "low"))
    (accepted_thresholdDocument _ _) isModelConfig_empty
  cases hd.decides

end Instances

end DomainRag.Chat
