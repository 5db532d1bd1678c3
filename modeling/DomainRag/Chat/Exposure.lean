import DomainRag.Chat.StreamLog

/-! # What a masked answer still exposes

`mask_response_pii` masks the final answer. The segments and the items of a set of questions
carry the same text, no node masks them, and the response returns all three.
-/

namespace DomainRag.Chat

variable {V S : Type}

section Texts

def AnswerSegments.texts : AnswerSegments S → List String
  | raw segments => segments.map fun seg =>
      match seg with
      | .dict kvs => match kvs.lookup "text" with
        | some (.str s) => s
        | _ => ""
      | _ => ""
  | parsed segments => segments.map Verifier.Segment.text

theorem AnswerSegments.join_texts (segments : AnswerSegments S) :
    String.join segments.texts = segments.text := by
  cases segments <;> rfl

def AssessmentItem.texts (item : AssessmentItem) : List String :=
  item.subject.toList ++ item.difficulty.toList ++ item.predictedDifficulty.toList ++
    item.questionText :: item.choices ++ item.answer :: item.explanation.toList ++
    item.imageUrl.toList

def Occurs (span text : String) : Prop := span.toList <:+: text.toList

def maskedSpans (pii : Pii.PIIService) (config : TenantConfig S) (answer : String) :
    List String :=
  (pii.maskOutput answer config.pii).findings.map fun f =>
    Pii.slice answer f.position.1 f.position.2

/-- No text of a response has one of the spans, and its segments spell its answer. -/
structure HidesSpans (spans : List String) (response : ChatResponse S) : Prop where
  joined : String.join response.answerSegments.texts = response.answer
  answer : ∀ span ∈ spans, ¬ Occurs span response.answer
  segments : ∀ span ∈ spans, ∀ text ∈ response.answerSegments.texts, ¬ Occurs span text
  items : ∀ span ∈ spans, ∀ item ∈ response.metadata.assessmentItems,
    ∀ text ∈ item.texts, ¬ Occurs span text

theorem occurs_slice (text : String) (a b : Nat) : Occurs (Pii.slice text a b) text := by
  rw [Occurs, Pii.slice, String.toList_ofList]
  exact (List.drop_suffix _ _).isInfix.trans (List.take_prefix _ _).isInfix

theorem maskOutput_findings {pii : Pii.PIIService} {config : TenantConfig S}
    (henabled : MasksResponses config) (answer : String) :
    (pii.maskOutput answer config.pii).findings = [] ↔ Pii.scan pii.rules answer = [] := by
  rw [maskOutput_eq henabled]
  exact List.map_eq_nil_iff

end Texts

section Nodes

theorem maskResponsePiiNode_answerSegments (deps : RAGGraphDeps V S) (state : RAGState S) :
    (maskResponsePiiNode deps state).answerSegments = state.answerSegments ∧
      (maskResponsePiiNode deps state).fallbackReason = state.fallbackReason := by
  obtain ⟨answer, findings, heq⟩ := exists_maskResponsePiiNode_eq deps state
  rw [heq]
  exact ⟨rfl, rfl⟩

theorem maskResponsePiiNode_finalAnswer {deps : RAGGraphDeps V S} {pii : Pii.PIIService}
    (hpii : deps.piiService = some pii) {state : RAGState S}
    (hnone : (pii.maskOutput state.finalAnswer state.tenantConfig.pii).findings = []) :
    (maskResponsePiiNode deps state).finalAnswer = state.finalAnswer := by
  simp only [maskResponsePiiNode, hpii, hnone, List.isEmpty_nil, Bool.or_true, if_true]

/-- The answer of a state is the one that another state had when it was masked. -/
structure Answers (deps : RAGGraphDeps V S) (before state : RAGState S) : Prop where
  segments : state.answerSegments = before.answerSegments
  finalAnswer : state.finalAnswer = (maskResponsePiiNode deps before).finalAnswer

theorem answers_maskResponsePiiNode (deps : RAGGraphDeps V S) (state : RAGState S) :
    Answers deps state (maskResponsePiiNode deps state) :=
  ⟨(maskResponsePiiNode_answerSegments deps state).1, rfl⟩

theorem text_plainSegment (text : String) :
    (AnswerSegments.raw (S := S) [plainSegment text]).text = text := by
  simp [AnswerSegments.text, plainSegment, String.join]

theorem generateUngroundedNode_text [Zero S] (deps : RAGGraphDeps V S) (state : RAGState S) :
    (generateUngroundedNode deps state).2.finalAnswer =
      (generateUngroundedNode deps state).2.answerSegments.text := by
  simp only [generateUngroundedNode]
  cases deps.generateConversational (conversationalRequest state) with
  | error e => rfl
  | ok text => exact (text_plainSegment _).symm

end Nodes

section Graph

variable [LinearOrder S] [Zero S] [One S] [Add S] [Sub S] [Mul S] [Div S] [NatCast S]
  [OfScientific S]

/-- The answer text in its three places: from the parser on the segments are records, the mask
is given the text that they spell, and after it neither changes unless the answer is refused. -/
def AnswerInvariant (deps : RAGGraphDeps V S) (request : ChatRequest) (n : Node)
    (state : RAGState S) : Prop :=
  match n with
  | .judgeInference | .detectUnsupported | .assembleResponse =>
    ∃ segments, state.answerSegments = .parsed segments
  | .maskResponsePii => state.finalAnswer = state.answerSegments.text
  | .computeConfidence | .gate2 =>
    ∃ before, Comes deps request .maskResponsePii before ∧ Answers deps before state
  | .saveChatLog => state.fallbackReason = none →
    ∃ before, Comes deps request .maskResponsePii before ∧ Answers deps before state
  | _ => True

theorem answerInvariant_of_early (deps : RAGGraphDeps V S) (request : ChatRequest) {n : Node}
    (state : RAGState S) (h : Node.verifyTier2.rank ≤ n.rank) :
    AnswerInvariant deps request n state := by
  cases n with
  | judgeInference | detectUnsupported | assembleResponse | maskResponsePii | computeConfidence
  | gate2 | saveChatLog => exact absurd h (by decide)
  | _ => trivial

theorem answerInvariant_step {deps : RAGGraphDeps V S} {request : ChatRequest} {n n' : Node}
    {state state' : RAGState S} (hcomes : Comes deps request n state)
    (hinv : AnswerInvariant deps request n state)
    (hexec : (execNode deps n state).2 = .ok state') (hnext : nextNode n state' = some n') :
    AnswerInvariant deps request n' state' := by
  cases n with
  | checkInputPii =>
    cases hnext
    rw [checkInputPiiRouter]
    split <;> trivial
  | modelRouter =>
    cases hnext
    rw [assessmentIntentRouter]
    split <;> trivial
  | gate1 =>
    cases hnext
    rw [gate1FullRouter]
    split <;> trivial
  | assessment =>
    cases hnext
    cases hexec
    exact (text_plainSegment _).symm
  | generateUngrounded =>
    cases hnext
    cases hexec
    exact generateUngroundedNode_text deps state
  | verifyTier2 =>
    cases hnext
    obtain ⟨tier2, -, h⟩ := Except.bind_eq_ok_iff.mp hexec
    cases h
    exact ⟨_, rfl⟩
  | judgeInference =>
    cases hnext
    simp only [execNode, judgeInferenceNode] at hexec
    split at hexec
    · cases hexec
      exact hinv
    · obtain ⟨judged, -, h⟩ := Except.bind_eq_ok_iff.mp hexec
      cases h
      exact ⟨_, rfl⟩
  | detectUnsupported =>
    cases hnext
    cases hexec
    exact hinv
  | assembleResponse =>
    cases hnext
    cases hexec
    obtain ⟨segments, hsegments⟩ := hinv
    change Verifier.finalAnswer state.segments = state.answerSegments.text
    rw [RAGState.segments, hsegments]
    rfl
  | maskResponsePii =>
    cases hnext
    cases hexec
    have hanswers := answers_maskResponsePiiNode deps state
    rw [postMaskGroundingRouter]
    split
    · exact ⟨state, hcomes, hanswers⟩
    · exact fun _ => ⟨state, hcomes, hanswers⟩
  | computeConfidence =>
    cases hnext
    cases hexec
    obtain ⟨before, hbefore, hanswers⟩ := hinv
    exact ⟨before, hbefore, hanswers.segments, hanswers.finalAnswer⟩
  | gate2 =>
    cases hnext
    cases hexec
    obtain ⟨before, hbefore, hanswers⟩ := hinv
    rw [gate2Node, gate2Router]
    cases Verifier.evaluateGate2 state.citations state.unsupportedRatio state.confidence
        (thresholdsFromState state) with
    | none => exact fun _ => ⟨before, hbefore, hanswers.segments, hanswers.finalAnswer⟩
    | some reason => trivial
  | fallback =>
    cases hnext
    cases hexec
    intro hnone
    have hreason : state.fallbackReason.isSome = true := hcomes.nodeInvariant.2
    rw [show state.fallbackReason = none from hnone] at hreason
    cases hreason
  | saveChatLog => cases hnext
  | _ =>
    cases hnext
    exact answerInvariant_of_early deps request state' (by decide)

theorem Comes.answerInvariant {deps : RAGGraphDeps V S} {request : ChatRequest} {n : Node}
    {state : RAGState S} (h : Comes deps request n state) :
    AnswerInvariant deps request n state := by
  induction h with
  | start => trivial
  | step hreach hexec hnext ih => exact answerInvariant_step hreach ih hexec hnext

theorem execNode_tenantConfig {deps : RAGGraphDeps V S} {n : Node} {state state' : RAGState S}
    (hlate : n.rank < Node.loadTenantConfig.rank)
    (hexec : (execNode deps n state).2 = .ok state') :
    state'.tenantConfig = state.tenantConfig := by
  refine (execNode_frame hexec).config ?_
  rintro rfl
  exact absurd hlate (by decide)

theorem Comes.tenantConfig {deps : RAGGraphDeps V S} {request : ChatRequest}
    {config : TenantConfig S} {n : Node} {state : RAGState S} (h : Comes deps request n state)
    (hconfig : deps.configLoader request.domainId = .ok config)
    (hlate : n.rank < Node.loadTenantConfig.rank) : state.tenantConfig = config := by
  have hentered : Comes deps request .checkInputPii
      { (entered request : RAGState S) with tenantConfig := config } := by
    have hloads : deps.configLoader (entered request : RAGState S).domainId = .ok config := by
      rw [(entered_fromRequest request).domainId, hconfig]
    refine .step (.step .start rfl rfl) (s := entered request) ?_ rfl
    change loadTenantConfigNode deps (entered request) = _
    rw [loadTenantConfigNode, hloads]
    rfl
  have honward := hentered.onward h (Nat.le_of_lt_succ hlate)
  refine (honward.invariant (P := fun k t => t.tenantConfig = config ∧
    k.rank < Node.loadTenantConfig.rank) ⟨rfl, by decide⟩ ?_).1
  rintro k t t' k' ⟨ht, hk⟩ hexec hnext
  exact ⟨(execNode_tenantConfig hk hexec).trans ht, (nextNode_descends k t' k' hnext).trans hk⟩

theorem success_answers {deps : RAGGraphDeps V S} {request : ChatRequest} {state : RAGState S}
    (hend : (chatRun deps request).ending = .finished state)
    (hreason : state.fallbackReason = none) :
    ∃ before, Comes deps request .maskResponsePii before ∧ Answers deps before state := by
  obtain ⟨-, last, hlast, hsave⟩ := chatRun_finished hend
  have hstate := saveChatLogNode_ok hsave
  have hlastReason : last.fallbackReason = none := by
    rw [hstate] at hreason
    exact hreason
  obtain ⟨before, hbefore, hanswers⟩ := hlast.answerInvariant hlastReason
  refine ⟨before, hbefore, ?_, ?_⟩
  · rw [hstate]
    exact hanswers.segments
  · rw [hstate]
    exact hanswers.finalAnswer

/-- The text that is masked in a successful run is the one that its segments still spell. -/
theorem finalAnswer_before_mask {deps : RAGGraphDeps V S} {request : ChatRequest}
    {before state : RAGState S} (hend : (chatRun deps request).ending = .finished state)
    (hreason : state.fallbackReason = none)
    (hbefore : Comes deps request .maskResponsePii before) :
    before.finalAnswer = state.answerSegments.text := by
  obtain ⟨masked, hmasked, hanswers⟩ := success_answers hend hreason
  obtain rfl := hbefore.unique hmasked
  rw [hanswers.segments]
  exact hbefore.answerInvariant

omit [LinearOrder S] [Zero S] [One S] [Add S] [Sub S] [Mul S] [Div S] [NatCast S]
  [OfScientific S] in
theorem hidesSpans_iff {pii : Pii.PIIService} {config : TenantConfig S} {answer : String}
    {response : ChatResponse S} (henabled : MasksResponses config)
    (htext : String.join response.answerSegments.texts = answer)
    (hkept : Pii.scan pii.rules answer = [] → response.answer = answer) :
    HidesSpans (maskedSpans pii config answer) response ↔ Pii.scan pii.rules answer = [] := by
  constructor
  · intro h
    by_contra hfound
    have hspan : maskedSpans pii config answer ≠ [] := by
      rw [maskedSpans, Ne, List.map_eq_nil_iff, maskOutput_findings henabled]
      exact hfound
    obtain ⟨span, hmem⟩ := List.exists_mem_of_ne_nil _ hspan
    obtain ⟨f, -, rfl⟩ := List.mem_map.mp hmem
    refine h.answer _ hmem ?_
    rw [← h.joined, htext]
    exact occurs_slice answer _ _
  · intro hnone
    have hspans : maskedSpans pii config answer = [] := by
      rw [maskedSpans, List.map_eq_nil_iff, maskOutput_findings henabled]
      exact hnone
    rw [hspans]
    exact ⟨htext.trans (hkept hnone).symm, nofun, nofun, nofun⟩

/-- A successful response exposes nothing of what was masked exactly when nothing was found in
the answer that `mask_response_pii` was given. -/
theorem response_hides_masked_spans_iff (deps : RAGGraphDeps V S) (request : ChatRequest)
    (pii : Pii.PIIService) (config : TenantConfig S) (state : RAGState S)
    (conversationId messageId : String) (hpii : deps.piiService = some pii)
    (hconfig : deps.configLoader request.domainId = .ok config)
    (henabled : MasksResponses config) (hend : (chatRun deps request).ending = .finished state)
    (hsuccess : (buildChatResponse state conversationId messageId).status = .success) :
    ∃ before, Comes deps request .maskResponsePii before ∧
      (HidesSpans (maskedSpans pii config before.finalAnswer)
          (buildChatResponse state conversationId messageId) ↔
        Pii.scan pii.rules before.finalAnswer = []) := by
  have hreason := buildChatResponse_status.mp hsuccess
  obtain ⟨before, hbefore, hanswers⟩ := success_answers hend hreason
  have hspelled : before.finalAnswer = before.answerSegments.text := hbefore.answerInvariant
  have hloaded := hbefore.tenantConfig hconfig (by decide)
  have hresponse : (buildChatResponse state conversationId messageId).answerSegments =
      before.answerSegments ∧
      (buildChatResponse state conversationId messageId).answer = responseAnswer state := by
    rw [buildChatResponse, hreason]
    exact ⟨hanswers.segments, rfl⟩
  refine ⟨before, hbefore, hidesSpans_iff henabled ?_ ?_⟩
  · rw [hresponse.1, AnswerSegments.join_texts, hspelled]
  · intro hnone
    have hfindings : (pii.maskOutput before.finalAnswer before.tenantConfig.pii).findings = [] := by
      rw [hloaded, maskOutput_findings henabled]
      exact hnone
    have hfinal : state.finalAnswer = before.finalAnswer :=
      hanswers.finalAnswer.trans (maskResponsePiiNode_finalAnswer hpii hfindings)
    rw [hresponse.2, responseAnswer, hfinal, hanswers.segments, ← hspelled]
    exact ite_self _

end Graph

section Phone

/-- The office with the mobile number rule, where nothing is found and the LLM gives out a
text. -/
def talkingDeps (text : String) : RAGGraphDeps ℚ ℚ :=
  { officeDeps with
    retrieve := fun _ => .ok ⟨[], [], []⟩
    generateConversational := fun _ => .ok text
    piiService := some mobileService }

theorem talkingDeps_finished (text : String)
    (h : (chatRun (talkingDeps text) leaveQuestion).ending.isRaised = false) :
    (chatRun (talkingDeps text) leaveQuestion).ending =
      .finished (chatRun (talkingDeps text) leaveQuestion).ending.state := by
  obtain ⟨state, hend⟩ | ⟨n, state, e, hraised⟩ :=
    chatRun_not_cut (talkingDeps text) leaveQuestion
  · rw [hend]
    rfl
  · rw [hraised] at h
    cases h

def talkingResponse (text : String) : ChatResponse ℚ :=
  buildChatResponse (chatRun (talkingDeps text) leaveQuestion).ending.state "c1" "m1"

theorem response_hides_masked_spans_extension : ∃ before,
    Comes (talkingDeps "내선 1234") leaveQuestion .maskResponsePii before ∧
      HidesSpans (maskedSpans mobileService ({} : TenantConfig ℚ) before.finalAnswer)
        (talkingResponse "내선 1234") := by
  have hend := talkingDeps_finished "내선 1234" (by decide +kernel)
  have hreason : (chatRun (talkingDeps "내선 1234") leaveQuestion).ending.state.fallbackReason =
    none := by decide +kernel
  obtain ⟨before, hbefore, hiff⟩ := response_hides_masked_spans_iff (talkingDeps "내선 1234")
    leaveQuestion mobileService {} _ "c1" "m1" rfl rfl rfl hend
    (buildChatResponse_status.mpr hreason)
  refine ⟨before, hbefore, hiff.mpr ?_⟩
  rw [finalAnswer_before_mask hend hreason hbefore]
  decide +kernel

/-- The mobile number is masked in the answer and returned in the segment. -/
theorem mobile_number_in_segment : (talkingResponse "010-1234-5678").status = .success ∧
    (talkingResponse "010-1234-5678").answer = "010-****-****" ∧
    (talkingResponse "010-1234-5678").answerSegments.texts = ["010-1234-5678"] ∧
    ∃ before, Comes (talkingDeps "010-1234-5678") leaveQuestion .maskResponsePii before ∧
      ¬ HidesSpans (maskedSpans mobileService ({} : TenantConfig ℚ) before.finalAnswer)
        (talkingResponse "010-1234-5678") := by
  have hend := talkingDeps_finished "010-1234-5678" (by decide +kernel)
  have hreason :
    (chatRun (talkingDeps "010-1234-5678") leaveQuestion).ending.state.fallbackReason = none := by
    decide +kernel
  have hanswer : (talkingResponse "010-1234-5678").answer = "010-****-****" := by decide +kernel
  have htexts : (talkingResponse "010-1234-5678").answerSegments.texts = ["010-1234-5678"] := by
    decide +kernel
  obtain ⟨before, hbefore, -⟩ := success_answers hend hreason
  refine ⟨buildChatResponse_status.mpr hreason, hanswer, htexts, before, hbefore, fun h => ?_⟩
  have hjoined := h.joined
  rw [hanswer, htexts] at hjoined
  revert hjoined
  decide

end Phone

end DomainRag.Chat
