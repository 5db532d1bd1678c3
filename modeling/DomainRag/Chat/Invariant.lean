import DomainRag.Chat.Opening

/-! # What every chat run guarantees

A run that does not raise ends by writing the chat log, once. A blocked question goes no
further than the input check, an answer counts as grounded only behind both gates, and an answer
without sources carries no citations. All of it follows from one invariant for each node.
-/

namespace DomainRag.Chat

open Verifier (RetrievedChunk)

variable {V S : Type}

section Evidence

/-- The question in the forms in which the state keeps it. -/
structure StoredQuestion where
  question : String
  questionForStorage : String
  rewrittenQuery : String

def RAGState.stored (state : RAGState S) : StoredQuestion :=
  ⟨state.question, state.questionForStorage, state.rewrittenQuery⟩

/-- The part of the state that the gates rest on, and that no node changes after retrieval
except for the grounding. -/
structure Evidence (S : Type) where
  stored : StoredQuestion
  request : RetrievalRequest
  config : TenantConfig S
  reranked : List (RetrievedChunk S)
  contexts : List (RetrievedChunk S)
  grounding : Grounding

def RAGState.evidence (state : RAGState S) : Evidence S where
  stored := state.stored
  request := retrievalRequest state
  config := state.tenantConfig
  reranked := state.rerankedChunks
  contexts := state.finalContexts
  grounding := state.grounding

def Evidence.chunks (e : Evidence S) : List (RetrievedChunk S) :=
  if e.reranked.isEmpty then e.contexts else e.reranked

theorem withChain_evidence (outcome : ChainOutcome S) (state : RAGState S) :
    (withChain outcome state).evidence = state.evidence := by
  rw [withChain]
  cases outcome.answer <;> rfl

theorem detectConflictHeuristicNode_evidence (deps : RAGGraphDeps V S) (state : RAGState S) :
    (detectConflictHeuristicNode deps state).evidence = state.evidence := by
  rw [detectConflictHeuristicNode]
  cases Verifier.detectorFor deps.patterns deps.conflictDetector state.tenantConfig.citation with
  | none => rfl
  | some detector =>
    simp only
    split <;> rfl

theorem parseResponseNode_evidence {deps : RAGGraphDeps V S} {state state' : RAGState S}
    (h : parseResponseNode deps state = .ok state') : state'.evidence = state.evidence := by
  rw [parseResponseNode] at h
  split at h
  · obtain ⟨segs, -, h⟩ := Except.bind_eq_ok_iff.mp h
    cases h
    rfl
  · cases h
    rfl

theorem judgeInferenceNode_evidence [LE S] [DecidableLE S] {deps : RAGGraphDeps V S}
    {state state' : RAGState S} (h : judgeInferenceNode deps state = .ok state') :
    state'.evidence = state.evidence := by
  rw [judgeInferenceNode] at h
  split at h
  · cases h
    rfl
  · obtain ⟨judged, -, h⟩ := Except.bind_eq_ok_iff.mp h
    cases h
    rfl

theorem maskResponsePiiNode_eq (deps : RAGGraphDeps V S) (state : RAGState S) :
    (maskResponsePiiNode deps state).evidence = state.evidence ∧
      (maskResponsePiiNode deps state).citations = state.citations := by
  obtain ⟨answer, findings, heq⟩ := exists_maskResponsePiiNode_eq deps state
  rw [heq]
  exact ⟨rfl, rfl⟩

theorem saveChatLogNode_ok {deps : RAGGraphDeps V S} {state state' : RAGState S}
    (h : (saveChatLogNode deps state).2 = .ok state') :
    state' = { state with conversationId := state'.conversationId } := by
  rw [saveChatLogNode] at h
  cases hwriter : deps.chatLogWriter with
  | none =>
    rw [hwriter] at h
    cases h
    rfl
  | some write =>
    rw [hwriter] at h
    obtain ⟨id, -, h⟩ := Except.bind_eq_ok_iff.mp h
    cases h
    rfl

variable [Zero S]

/-- The chunks are those that retrieval returned. -/
def Evidence.FromRetrieval (deps : RAGGraphDeps V S) (e : Evidence S) : Prop :=
  ∃ result, deps.retrieve e.request = .ok result ∧
    e.reranked = result.reranked.map chunkToDict ∧ e.contexts = result.contexts.map chunkToDict

theorem chunks_retrieveContextNode (deps : RAGGraphDeps V S) (state : RAGState S) :
    (retrieveContextNode deps state).evidence.FromRetrieval deps ∨
      (retrieveContextNode deps state).evidence.chunks = [] := by
  have hrequest : retrievalRequest (retrieveContextNode deps state) = retrievalRequest state := by
    rw [retrieveContextNode]
    cases deps.retrieve (retrievalRequest state) <;> rfl
  cases hretrieve : deps.retrieve (retrievalRequest state) with
  | error e =>
    right
    simp only [retrieveContextNode, hretrieve, RAGState.evidence, Evidence.chunks,
      List.isEmpty_nil, if_true]
  | ok result =>
    left
    refine ⟨result, ?_, ?_, ?_⟩
    · exact (congrArg deps.retrieve hrequest).trans hretrieve
    · simp only [retrieveContextNode, hretrieve, RAGState.evidence]
    · simp only [retrieveContextNode, hretrieve, RAGState.evidence]

theorem generateUngroundedNode_uncited (deps : RAGGraphDeps V S) (state : RAGState S) :
    (generateUngroundedNode deps state).2.grounding = .ungrounded ∧
      (generateUngroundedNode deps state).2.citations = [] := by
  simp only [generateUngroundedNode]
  cases deps.generateConversational (conversationalRequest state) <;> exact ⟨rfl, rfl⟩

variable [LinearOrder S] [OfScientific S]

structure PassedGate1 (deps : RAGGraphDeps V S) (e : Evidence S) : Prop where
  grounding : e.grounding = .grounded
  retrieved : e.FromRetrieval deps
  passes : gate1Passes (gate1Thresholds e.config) e.chunks = true

theorem gate1Node_passed (state : RAGState S) : (gate1Node state).gate1Passed =
    gate1Passes (gate1Thresholds state.tenantConfig) state.evidence.chunks := by
  have hchunks : state.evidence.chunks = gate1Chunks state := rfl
  rw [hchunks, gate1Node]
  cases hempty : (gate1Chunks state).isEmpty with
  | true => simp only [if_true, gate1Passes, hempty, Bool.not_true, Bool.false_and]
  | false =>
    simp only [Bool.false_eq_true, if_false]
    split
    · rename_i hpass
      exact hpass.symm
    · rename_i hfail
      exact (Bool.not_eq_true _ ▸ hfail).symm

theorem gate1Node_evidence (state : RAGState S) :
    (gate1Node state).evidence = state.evidence := by
  simp only [gate1Node]
  split
  · rfl
  · split <;> rfl

theorem PassedGate1.of_eq {deps : RAGGraphDeps V S} {e e' : Evidence S}
    (h : PassedGate1 deps e) (heq : e' = e) : PassedGate1 deps e' := heq ▸ h

end Evidence

section Nodes

variable [LinearOrder S] [Zero S] [OfScientific S]

/-- A state that is ready to be saved: a grounded answer that is no refusal has passed both
gates, and only a grounded answer may have citations. -/
structure Settled (deps : RAGGraphDeps V S) (state : RAGState S) : Prop where
  gated : state.grounding = .grounded → state.fallbackReason = none →
    PassedGate1 deps state.evidence ∧ Verifier.evaluateGate2 state.citations
      state.unsupportedRatio state.confidence (thresholdsFromState state) = none
  uncited : state.grounding ≠ .grounded → state.citations = []

/-- What holds of the state when the graph comes to a node. -/
def NodeInvariant (deps : RAGGraphDeps V S) (n : Node) (state : RAGState S) : Prop :=
  match n with
  | .tenantResolver | .loadTenantConfig | .checkInputPii | .buildAclFilter | .classifyQuery
  | .modelRouter | .queryRewrite | .retrieveContext =>
    state.grounding = .grounded ∧ state.inputBlocked = false
  | .gate1 => state.grounding = .grounded ∧
    (state.evidence.FromRetrieval deps ∨ state.evidence.chunks = [])
  | .generateAnswer | .parseResponse | .verifyTier1 | .detectConflictHeuristic | .verifyTier2
  | .judgeInference | .detectUnsupported | .assembleResponse | .computeConfidence | .gate2 =>
    PassedGate1 deps state.evidence
  | .assessment | .generateUngrounded => True
  | .maskResponsePii => (state.grounding = .grounded → PassedGate1 deps state.evidence) ∧
    (state.grounding ≠ .grounded → state.citations = [])
  | .fallback => state.grounding = .grounded ∧ state.fallbackReason.isSome = true
  | .saveChatLog => Settled deps state

theorem nodeInvariant_checkInputPii {deps : RAGGraphDeps V S} {state : RAGState S}
    (hinv : state.grounding = .grounded ∧ state.inputBlocked = false) :
    NodeInvariant deps (checkInputPiiRouter (checkInputPiiNode deps state))
      (checkInputPiiNode deps state) := by
  rw [checkInputPiiNode]
  cases deps.piiService with
  | none =>
    simp only [checkInputPiiRouter, hinv.2]
    exact hinv
  | some service =>
    simp only [withInputCheck]
    split
    · exact ⟨hinv.1, rfl⟩
    · simp only [checkInputPiiRouter, withStorage, hinv.2]
      exact ⟨hinv.1, rfl⟩

theorem nodeInvariant_modelRouter {deps : RAGGraphDeps V S} {state state' : RAGState S}
    (hinv : state.grounding = .grounded ∧ state.inputBlocked = false)
    (h : modelRouterNode deps state = .ok state') :
    NodeInvariant deps (assessmentIntentRouter state') state' := by
  have hkept : state'.grounding = .grounded ∧ state'.inputBlocked = false := by
    rw [modelRouterNode] at h
    split at h
    · cases h
      exact hinv
    · obtain ⟨decision, -, h⟩ := Except.bind_eq_ok_iff.mp h
      cases h
      exact hinv
  rw [assessmentIntentRouter]
  split
  · trivial
  · exact hkept

theorem nodeInvariant_gate1 {deps : RAGGraphDeps V S} {state : RAGState S}
    (hgrounding : state.grounding = .grounded)
    (hchunks : state.evidence.FromRetrieval deps ∨ state.evidence.chunks = []) :
    NodeInvariant deps (gate1FullRouter (gate1Node state)) (gate1Node state) := by
  rw [gate1FullRouter, gate1Node_passed]
  split
  · rename_i hpass
    have hretrieved : state.evidence.FromRetrieval deps := by
      refine hchunks.resolve_right fun hempty => ?_
      rw [hempty] at hpass
      cases hpass
    have hpassed : PassedGate1 deps state.evidence := ⟨hgrounding, hretrieved, hpass⟩
    exact hpassed.of_eq (gate1Node_evidence state)
  · trivial

theorem nodeInvariant_maskResponsePii {deps : RAGGraphDeps V S} {state : RAGState S}
    (hgrounded : state.grounding = .grounded → PassedGate1 deps state.evidence)
    (huncited : state.grounding ≠ .grounded → state.citations = []) :
    NodeInvariant deps (postMaskGroundingRouter (maskResponsePiiNode deps state))
      (maskResponsePiiNode deps state) := by
  obtain ⟨hevidence, hcitations⟩ := maskResponsePiiNode_eq deps state
  have hgrounding : (maskResponsePiiNode deps state).grounding = state.grounding :=
    congrArg Evidence.grounding hevidence
  rw [postMaskGroundingRouter, hgrounding]
  split
  · rename_i h
    exact (hgrounded h).of_eq hevidence
  · rename_i h
    exact ⟨fun hg => absurd (hgrounding.symm.trans hg) h, fun _ => hcitations.trans (huncited h)⟩

theorem nodeInvariant_gate2 {deps : RAGGraphDeps V S} {state : RAGState S}
    (hinv : PassedGate1 deps state.evidence) :
    NodeInvariant deps (gate2Router (gate2Node state)) (gate2Node state) := by
  rw [gate2Node]
  cases hgate : Verifier.evaluateGate2 state.citations state.unsupportedRatio state.confidence
      (thresholdsFromState state) with
  | none => exact ⟨fun _ _ => ⟨hinv, hgate⟩, fun h => absurd hinv.grounding h⟩
  | some reason => exact ⟨hinv.grounding, rfl⟩

theorem Settled.of_saved {deps : RAGGraphDeps V S} {before state : RAGState S}
    (h : Settled deps before) (hsave : (saveChatLogNode deps before).2 = .ok state) :
    Settled deps state := by
  rw [saveChatLogNode_ok hsave]
  exact ⟨h.gated, h.uncited⟩

theorem nodeInvariant_assessment (deps : RAGGraphDeps V S) (state : RAGState S) :
    NodeInvariant deps .maskResponsePii (assessmentNode deps state).2 :=
  ⟨fun h => absurd h (assessment_not_grounded _ _ _ _ _), fun _ => rfl⟩

end Nodes

section Graph

variable [LinearOrder S] [Zero S] [One S] [Add S] [Sub S] [Mul S] [Div S] [NatCast S]
  [OfScientific S]

omit [One S] [Sub S] [Mul S] in
theorem verifyTier2Node_evidence {deps : RAGGraphDeps V S} {state state' : RAGState S}
    (h : verifyTier2Node deps state = .ok state') : state'.evidence = state.evidence := by
  obtain ⟨tier2, -, h⟩ := Except.bind_eq_ok_iff.mp h
  cases h
  rfl

theorem nodeInvariant_step {deps : RAGGraphDeps V S} {n n' : Node} {state state' : RAGState S}
    (hinv : NodeInvariant deps n state) (hexec : (execNode deps n state).2 = .ok state')
    (hnext : nextNode n state' = some n') : NodeInvariant deps n' state' := by
  cases n with
  | tenantResolver =>
    cases hnext
    cases hexec
    rw [tenantResolverNode]
    split <;> exact hinv
  | loadTenantConfig =>
    cases hnext
    obtain ⟨config, -, hexec⟩ := Except.bind_eq_ok_iff.mp hexec
    cases hexec
    exact hinv
  | checkInputPii =>
    cases hnext
    cases hexec
    exact nodeInvariant_checkInputPii hinv
  | buildAclFilter =>
    cases hnext
    cases hexec
    exact hinv
  | classifyQuery =>
    cases hnext
    simp only [execNode, classifyQueryNode] at hexec
    split at hexec
    · cases hexec
      exact hinv
    · obtain ⟨result, -, hexec⟩ := Except.bind_eq_ok_iff.mp hexec
      cases hexec
      exact hinv
  | modelRouter =>
    cases hnext
    exact nodeInvariant_modelRouter hinv hexec
  | assessment =>
    cases hnext
    cases hexec
    exact nodeInvariant_assessment deps state
  | queryRewrite =>
    cases hnext
    cases hexec
    rw [queryRewriteNode]
    split <;> exact hinv
  | retrieveContext =>
    cases hnext
    cases hexec
    refine ⟨?_, chunks_retrieveContextNode deps state⟩
    rw [retrieveContextNode]
    split <;> exact hinv.1
  | gate1 =>
    cases hnext
    cases hexec
    exact nodeInvariant_gate1 hinv.1 hinv.2
  | generateAnswer =>
    cases hnext
    cases hexec
    exact PassedGate1.of_eq hinv (withChain_evidence _ state)
  | generateUngrounded =>
    cases hnext
    cases hexec
    obtain ⟨hgrounding, hcitations⟩ := generateUngroundedNode_uncited deps state
    refine ⟨fun h => ?_, fun _ => hcitations⟩
    cases hgrounding.symm.trans h
  | parseResponse =>
    cases hnext
    exact PassedGate1.of_eq hinv (parseResponseNode_evidence hexec)
  | verifyTier1 =>
    cases hnext
    cases hexec
    exact hinv
  | detectConflictHeuristic =>
    cases hnext
    cases hexec
    exact PassedGate1.of_eq hinv (detectConflictHeuristicNode_evidence deps state)
  | verifyTier2 =>
    cases hnext
    exact PassedGate1.of_eq hinv (verifyTier2Node_evidence hexec)
  | judgeInference =>
    cases hnext
    exact PassedGate1.of_eq hinv (judgeInferenceNode_evidence hexec)
  | detectUnsupported =>
    cases hnext
    cases hexec
    exact hinv
  | assembleResponse =>
    cases hnext
    cases hexec
    exact ⟨fun _ => hinv, fun h => absurd hinv.grounding h⟩
  | maskResponsePii =>
    cases hnext
    cases hexec
    exact nodeInvariant_maskResponsePii hinv.1 hinv.2
  | computeConfidence =>
    cases hnext
    cases hexec
    exact hinv
  | gate2 =>
    cases hnext
    cases hexec
    exact nodeInvariant_gate2 hinv
  | fallback =>
    cases hnext
    cases hexec
    obtain ⟨reason, hreason⟩ := Option.isSome_iff_exists.mp hinv.2
    refine ⟨fun _ h => ?_, fun h => absurd hinv.1 h⟩
    cases hreason.symm.trans h
  | saveChatLog => cases hnext

theorem Comes.nodeInvariant {deps : RAGGraphDeps V S} {request : ChatRequest} {n : Node}
    {state : RAGState S} (h : Comes deps request n state) : NodeInvariant deps n state :=
  h.invariant ⟨rfl, rfl⟩ fun _ _ _ _ => nodeInvariant_step

/-- A run that ends has come to the log, whatever state it started from. -/
theorem run_finished {deps : RAGGraphDeps V S} {s₀ state : RAGState S}
    (h : ((chatGraph deps).run .tenantResolver s₀).ending = .finished state) :
    (∃ front, ((chatGraph deps).run .tenantResolver s₀).visited = front ++ [.saveChatLog]) ∧
      ∃ before, (chatGraph deps).Reach .tenantResolver s₀ .saveChatLog before ∧
        (saveChatLogNode deps before).2 = .ok state := by
  have hends : Machine.EndsAt (chatGraph deps) .tenantResolver s₀
    ((chatGraph deps).run .tenantResolver s₀) := Machine.run_endsAt _ _
  generalize (chatGraph deps).run .tenantResolver s₀ = run at h hends
  cases hends with
  | @finished n before state' front calls hreach hexec hnext =>
    obtain rfl : n = .saveChatLog := nextNode_eq_none_iff.mp hnext
    cases h
    exact ⟨⟨front, rfl⟩, before, hreach, hexec⟩
  | raised front calls hreach hexec => cases h

theorem chatRun_finished {deps : RAGGraphDeps V S} {request : ChatRequest} {state : RAGState S}
    (h : (chatRun deps request).ending = .finished state) :
    (∃ front, (chatRun deps request).visited = front ++ [.saveChatLog]) ∧
      ∃ before, Comes deps request .saveChatLog before ∧
        (saveChatLogNode deps before).2 = .ok state :=
  run_finished h

theorem chatRun_not_cut (deps : RAGGraphDeps V S) (request : ChatRequest) :
    (∃ state, (chatRun deps request).ending = .finished state) ∨
      ∃ n state e, (chatRun deps request).ending = .raised n state e := by
  have hends : Machine.EndsAt (chatGraph deps) .tenantResolver (.initial request)
    (chatRun deps request) := Machine.run_endsAt _ _
  generalize chatRun deps request = run at hends
  cases hends with
  | finished _ _ _ _ _ => exact .inl ⟨_, rfl⟩
  | raised _ _ _ _ => exact .inr ⟨_, _, _, rfl⟩

def blockedPath : List Node :=
  [.tenantResolver, .loadTenantConfig, .checkInputPii, .fallback, .saveChatLog]

/-- A blocked question is answered and stored with the notice. -/
structure Blocked (deps : RAGGraphDeps V S) (request : ChatRequest) (state : RAGState S) :
    Prop where
  visited : (chatRun deps request).visited = blockedPath
  stored : ∀ write, deps.chatLogWriter = some write → ∃ payload,
    (chatRun deps request).calls = [.logged payload] ∧ payload.answer = fallbackInputPiiText
  returned : ∀ conversationId messageId,
    (buildChatResponse state conversationId messageId).answer = fallbackInputPiiText

theorem blocked_of_blocks {deps : RAGGraphDeps V S} {request : ChatRequest}
    {config : TenantConfig S} {state : RAGState S}
    (hconfig : deps.configLoader request.domainId = .ok config)
    (hblocks : blocks deps config request.question = true)
    (hend : (chatRun deps request).ending = .finished state) : Blocked deps request state := by
  have hreason : (checked deps config request).fallbackReason = some .inputPiiBlocked := by
    rw [(checked_blocked deps config request).2, hblocks, if_pos rfl]
  have hanswer : (fallbackNode (checked deps config request)).finalAnswer =
      fallbackInputPiiText := by
    rw [fallbackNode, hreason]
    rfl
  have hrun := chatRun_of_blocks hconfig hblocks
  generalize fallbackNode (checked deps config request) = before at hanswer hrun
  cases hsave : (saveChatLogNode deps before).2 with
  | error e =>
    have hstop := Machine.run_of_error (m := chatGraph deps) (n := .saveChatLog) hsave
    rw [hrun, hstop] at hend
    cases hend
  | ok state' =>
    have hstop := Machine.run_of_stop (m := chatGraph deps) (n := .saveChatLog) hsave rfl
    rw [hstop] at hrun
    rw [hrun] at hend
    obtain rfl : state' = state := Machine.Ending.finished.inj hend
    refine ⟨by rw [hrun]; rfl, ?_, ?_⟩
    · intro write hwrite
      refine ⟨chatLogPayload before, ?_, hanswer⟩
      have hcalls : (saveChatLogNode deps before).1 = [.logged (chatLogPayload before)] := by
        rw [saveChatLogNode, hwrite]
      rw [hrun]
      exact hcalls
    · intro conversationId messageId
      apply buildChatResponse_answer _ _ fallbackInputPiiText_ne_empty
      rw [saveChatLogNode_ok hsave]
      exact hanswer

/-- What holds of a run that ended, and of the response that is built from its last state. -/
structure RunGuarantees (deps : RAGGraphDeps V S) (request : ChatRequest)
    (state : RAGState S) : Prop where
  saved : ∃ front, (chatRun deps request).visited = front ++ [.saveChatLog] ∧
    .saveChatLog ∉ front
  blocked : ∀ config, deps.configLoader request.domainId = .ok config →
    blocks deps config request.question = true → Blocked deps request state
  gated : ∀ conversationId messageId,
    (buildChatResponse state conversationId messageId).status = .success →
    (buildChatResponse state conversationId messageId).metadata.grounding = .grounded →
    PassedGate1 deps state.evidence ∧ Verifier.evaluateGate2
      (buildChatResponse state conversationId messageId).citations state.unsupportedRatio
      (buildChatResponse state conversationId messageId).metadata.confidence
      (thresholdsFromState state) = none
  uncited : ∀ conversationId messageId,
    (buildChatResponse state conversationId messageId).metadata.grounding ≠ .grounded →
    (buildChatResponse state conversationId messageId).citations = []

/-- A run whose nodes do not raise comes to its end, and then every guarantee holds. -/
theorem chat_run_guarantees (deps : RAGGraphDeps V S) (request : ChatRequest)
    (h : ∀ n state e, (chatRun deps request).ending ≠ .raised n state e) :
    ∃ state, (chatRun deps request).ending = .finished state ∧
      RunGuarantees deps request state := by
  obtain ⟨state, hend⟩ | ⟨n, state, e, hraised⟩ := chatRun_not_cut deps request
  · obtain ⟨⟨front, hvisited⟩, before, hcomes, hsave⟩ := chatRun_finished hend
    have hbefore : Settled deps before := hcomes.nodeInvariant
    have hsettled := hbefore.of_saved hsave
    refine ⟨state, hend, ⟨front, hvisited, ?_⟩, ?_, ?_, ?_⟩
    · have hnodup : (front ++ [Node.saveChatLog]).Nodup :=
        hvisited ▸ (Machine.visited_nodup (m := chatGraph deps) _ _).1
      intro hmem
      exact absurd rfl ((List.nodup_append.mp hnodup).2.2 _ hmem _ (List.mem_singleton_self _))
    · intro config hconfig hblocks
      exact blocked_of_blocks hconfig hblocks hend
    · intro conversationId messageId hstatus hgrounding
      have hreason := buildChatResponse_status.mp hstatus
      rw [buildChatResponse_metadata] at hgrounding ⊢
      rw [buildChatResponse_citations, if_pos hreason]
      exact hsettled.gated hgrounding hreason
    · intro conversationId messageId hgrounding
      rw [buildChatResponse_metadata] at hgrounding
      rw [buildChatResponse_citations]
      split
      · exact hsettled.uncited hgrounding
      · rfl
  · exact absurd hraised (h n state e)

end Graph

section Office

def plainText : TextOps where
  lower := id
  strip := id
  splitLines := fun s => [s]
  quote := id
  counts := fun _ => []
  figureCounts := fun _ => []
  labelled := fun _ => false

def leaveChunk (chunkId : String) : RetrievedChunk ℚ where
  chunkId := chunkId
  docId := "leave-policy"
  title := "휴가 규정"
  content := "연차 휴가는 15일이다."
  pageNumber := .int 3
  sectionTitle := .null
  denseScore := 0.9
  sparseScore := 0.8
  fusedScore := 0.85
  payload := .empty
  rerankScore := some 0.9

def leaveAnswer : GenerationResult where
  rawResponse := ""
  answerSegments := [.dict [("text", .str "연차 휴가는 15일이다."), ("citations", .list [.int 1]),
    ("support_type", .str "direct")]]

/-- A deployment whose documents answer questions about leave. -/
def officeDeps : RAGGraphDeps ℚ ℚ where
  text := plainText
  configLoader := fun _ => .ok {}
  retrieve := fun _ =>
    let chunks := [leaveChunk "c1", leaveChunk "c2"]
    .ok ⟨chunks, chunks, chunks⟩
  generateStructured := fun _ => .ok leaveAnswer
  generateConversational := fun _ => .ok "무엇을 도와드릴까요?"
  verifier :=
    { repr := fun _ => "", embedder := .ofFn fun _ => 1, cosine := (· * ·), judgeService := none }
  patterns := ⟨fun _ => [], fun _ => [], fun _ => [], fun _ => []⟩
  chatLogWriter := some fun _ => .ok "conversation-1"
  assessment := ⟨none, none, none⟩

def leaveQuestion : ChatRequest where
  requestId := "request-1"
  domainId := "hr"
  userId := "u1"
  conversationId := none
  question := "연차는 며칠인가요?"
  history := []
  userContext := some { userId := some "u1" }
  defaultModel := none

theorem chat_run_guarantees_office :
    (chatRun officeDeps leaveQuestion).ending.state.fallbackReason = none ∧
      (chatRun officeDeps leaveQuestion).ending.state.grounding = .grounded ∧
      ∃ state, (chatRun officeDeps leaveQuestion).ending = .finished state ∧
        RunGuarantees officeDeps leaveQuestion state := by
  refine ⟨by decide +kernel, by decide +kernel, chat_run_guarantees officeDeps leaveQuestion ?_⟩
  intro n state e hraised
  have hnot : (chatRun officeDeps leaveQuestion).ending.isRaised = false := by decide +kernel
  rw [hraised] at hnot
  cases hnot

end Office

end DomainRag.Chat
