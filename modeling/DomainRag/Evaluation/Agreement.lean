import Mathlib.Algebra.Order.Field.Basic
import DomainRag.Chat.Totality
import DomainRag.Evaluation.Metrics
import DomainRag.Verifier.Support

/-! # What the metric counts

Tier 3 counts the segments that are left without a citation, the metric of the evaluation those that
carry the label "unsupported". No stage of the verification writes that label: it comes from the LLM,
and the heuristic may only take it away. The two ratios of a grounded answer are equal when as many
segments carry the label as are not backed by what they cite.
-/

namespace DomainRag.Evaluation

open Chat
open Verifier (Segment Verified VerifierThresholds ratio entering answerSim Backed verifyAnswer)

variable {V S : Type}

section Counting

theorem countP_congr_of_forall₂ {A B : Type} {p : A → Bool} {q : B → Bool} {xs : List A}
    {ys : List B} (h : List.Forall₂ (fun x y => p x = q y) xs ys) : xs.countP p = ys.countP q := by
  induction h with
  | nil => rfl
  | cons hxy _ ih => rw [List.countP_cons, List.countP_cons, ih, hxy]

theorem ratio_inj [Field S] [LinearOrder S] [IsStrictOrderedRing S] {k l n : Nat} (hk : k ≤ n)
    (hl : l ≤ n) : (ratio k n : S) = ratio l n ↔ k = l := by
  rw [ratio, ratio]
  split
  · rename_i hn
    exact iff_of_true rfl (by omega)
  · rename_i hn
    have hn' : (n : S) ≠ 0 := Nat.cast_ne_zero.mpr hn
    rw [div_left_inj' hn', Nat.cast_inj]

end Counting

section Frames

theorem withChain_raw (outcome : ChainOutcome S) (state : Chat.RAGState S) :
    ∃ rawSegments, (withChain outcome state).answerSegments = .raw rawSegments := by
  rw [withChain]
  cases outcome.answer with
  | none => exact ⟨[], rfl⟩
  | some answer => exact ⟨answer.2.answerSegments, rfl⟩

theorem maskResponsePiiNode_segments (deps : RAGGraphDeps V S) (state : Chat.RAGState S) :
    (maskResponsePiiNode deps state).answerSegments = state.answerSegments ∧
      (maskResponsePiiNode deps state).unsupportedRatio = state.unsupportedRatio := by
  obtain ⟨answer, findings, heq⟩ := exists_maskResponsePiiNode_eq deps state
  rw [heq]
  exact ⟨rfl, rfl⟩

theorem gate2Node_segments [LinearOrder S] [OfScientific S] (state : Chat.RAGState S) :
    (gate2Node state).answerSegments = state.answerSegments ∧
      (gate2Node state).unsupportedRatio = state.unsupportedRatio := by
  rw [gate2Node]
  split <;> exact ⟨rfl, rfl⟩

end Frames

section Stages

variable [LinearOrder S] [Zero S] [Add S] [Div S] [NatCast S] [OfScientific S]

variable (deps : RAGGraphDeps V S)

/-- The grounded path on the answer with which a run has come to the parser. -/
def verified (before : Chat.RAGState S) (rawSegments : List Value) : Except Exc (Verified S) :=
  verifyAnswer deps.verifier
    (Verifier.detectorFor deps.patterns deps.conflictDetector before.tenantConfig.citation)
    (thresholdsFromState before) rawSegments before.finalContexts before.domainId before.limitations

/-- The segments of the grounded path, with the ratio that Tier 3 has of them. -/
structure Counted (before : Chat.RAGState S) (rawSegments : List Value)
    (state : Chat.RAGState S) : Prop where
  counted : ∃ r, verified deps before rawSegments = .ok r ∧
    state.answerSegments = .parsed r.segments ∧
    state.unsupportedRatio = (Verifier.tier3Unsupported r.segments).2

/-- What the stages have made of the answer when the graph comes to a node behind the parser. -/
def Staged (before : Chat.RAGState S) (rawSegments : List Value) (n : Chat.Node)
    (state : Chat.RAGState S) : Prop :=
  let detector :=
    Verifier.detectorFor deps.patterns deps.conflictDetector before.tenantConfig.citation
  match n with
  | .verifyTier1 => ∃ parsed, Verifier.parseSegments deps.verifier.repr rawSegments = .ok parsed ∧
      OnPath before.evidence parsed state
  | .detectConflictHeuristic =>
    ∃ parsed, Verifier.parseSegments deps.verifier.repr rawSegments = .ok parsed ∧
      OnPath before.evidence (Verifier.tier1Filter parsed before.finalContexts.length).1 state
  | .verifyTier2 =>
    ∃ parsed, Verifier.parseSegments deps.verifier.repr rawSegments = .ok parsed ∧
      OnPath before.evidence (Verifier.enter detector before.finalContexts parsed) state
  | .judgeInference =>
    ∃ parsed tier2, Verifier.parseSegments deps.verifier.repr rawSegments = .ok parsed ∧
      Verifier.tier2Classify deps.verifier.embedder deps.verifier.cosine
        (Verifier.enter detector before.finalContexts parsed) before.finalContexts
        (thresholdsFromState before) = .ok tier2 ∧ OnPath before.evidence tier2.segments state
  | .detectUnsupported => ∃ r, verified deps before rawSegments = .ok r ∧
      state.answerSegments = .parsed r.segments
  | _ => Counted deps before rawSegments state

variable {deps} {before state state' : Chat.RAGState S} {rawSegments : List Value}

theorem staged_parse (hraw : before.answerSegments = .raw rawSegments)
    (h : parseResponseNode deps before = .ok state') :
    Staged deps before rawSegments .verifyTier1 state' := by
  rw [parseResponseNode, hraw] at h
  obtain ⟨parsed, hparsed, h⟩ := Except.bind_eq_ok_iff.mp h
  cases h
  exact ⟨parsed, hparsed, rfl, rfl⟩

theorem staged_tier2 (hs : Staged deps before rawSegments .verifyTier2 state)
    (h : verifyTier2Node deps state = .ok state') :
    Staged deps before rawSegments .judgeInference state' := by
  obtain ⟨parsed, hparsed, hevidence, hsegments⟩ := hs
  have hcontexts : state.finalContexts = before.finalContexts := congrArg Evidence.contexts hevidence
  have hconfig : state.tenantConfig = before.tenantConfig := congrArg Evidence.config hevidence
  have hthresholds : thresholdsFromState state = thresholdsFromState before := by
    rw [thresholdsFromState, hconfig, thresholdsFromState]
  obtain ⟨tier2, htier2, h⟩ := Except.bind_eq_ok_iff.mp h
  rw [Chat.RAGState.segments, hsegments, hcontexts, hthresholds] at htier2
  cases h
  exact ⟨parsed, tier2, hparsed, htier2, hevidence, rfl⟩

theorem staged_judge (hs : Staged deps before rawSegments .judgeInference state)
    (h : judgeInferenceNode deps state = .ok state') :
    Staged deps before rawSegments .detectUnsupported state' := by
  obtain ⟨parsed, tier2, hparsed, htier2, hevidence, hsegments⟩ := hs
  have hcontexts : state.finalContexts = before.finalContexts := congrArg Evidence.contexts hevidence
  have hreturned : ∀ judged, Verifier.judgeInference deps.verifier.judgeService before.finalContexts
      tier2.segments = .ok judged → ∃ r, verified deps before rawSegments = .ok r ∧
        r.segments = judged.1 := by
    intro judged hjudged
    refine ⟨⟨judged.1, judged.2, (Verifier.assembleCitations judged.1 before.finalContexts
      before.domainId).1, Verifier.mergeLimitations deps.verifier.repr judged.1 before.limitations⟩,
      ?_, rfl⟩
    rw [verified, verifyAnswer, Except.bind_eq_ok_iff]
    refine ⟨parsed, hparsed, Except.bind_eq_ok_iff.mpr ⟨tier2, htier2, ?_⟩⟩
    exact Except.bind_eq_ok_iff.mpr ⟨judged, hjudged, rfl⟩
  rw [judgeInferenceNode] at h
  cases hservice : deps.verifier.judgeService with
  | none =>
    rw [hservice] at h hreturned
    obtain ⟨r, hr, hjudged⟩ := hreturned _ rfl
    cases h
    exact ⟨r, hr, hsegments.trans (congrArg _ hjudged.symm)⟩
  | some service =>
    rw [hservice] at h hreturned
    obtain ⟨judged, hjudged, h⟩ := Except.bind_eq_ok_iff.mp h
    rw [Chat.RAGState.segments, hsegments, hcontexts] at hjudged
    obtain ⟨r, hr, hsame⟩ := hreturned judged hjudged
    cases h
    exact ⟨r, hr, congrArg _ hsame.symm⟩

theorem counted_detect (hs : Staged deps before rawSegments .detectUnsupported state) :
    Counted deps before rawSegments (detectUnsupportedNode state) := by
  obtain ⟨r, hr, hsegments⟩ := hs
  refine ⟨r, hr, hsegments, ?_⟩
  rw [detectUnsupportedNode, Chat.RAGState.segments, hsegments]

theorem Counted.of_same (h : Counted deps before rawSegments state)
    (hsegments : state'.answerSegments = state.answerSegments)
    (hratio : state'.unsupportedRatio = state.unsupportedRatio) :
    Counted deps before rawSegments state' := by
  obtain ⟨r, hr, hs, hcounted⟩ := h
  exact ⟨r, hr, hsegments.trans hs, hratio.trans hcounted⟩

end Stages

section Runs

variable [LinearOrder S] [Zero S] [One S] [Add S] [Sub S] [Mul S] [Div S] [NatCast S]
  [OfScientific S]

def caseState (request : ChatRequest) (uiMode : String) : Chat.RAGState S :=
  { Chat.RAGState.initial request with uiMode := uiMode }

/-- The graph on the request of a case, in the mode that the case names. -/
def caseRun (deps : RAGGraphDeps V S) (request : ChatRequest) (uiMode : String) :
    Machine.Run Chat.Node (Chat.RAGState S) Exc (Call S) :=
  (chatGraph deps).run .tenantResolver (caseState request uiMode)

def CaseComes (deps : RAGGraphDeps V S) (request : ChatRequest) (uiMode : String) (n : Chat.Node)
    (state : Chat.RAGState S) : Prop :=
  (chatGraph deps).Reach .tenantResolver (caseState request uiMode) n state

variable {deps : RAGGraphDeps V S} {request : ChatRequest} {uiMode : String}

theorem CaseComes.nodeInvariant {n : Chat.Node} {state : Chat.RAGState S}
    (h : CaseComes deps request uiMode n state) : NodeInvariant deps n state :=
  h.invariant ⟨rfl, rfl⟩ fun _ _ _ _ => nodeInvariant_step

/-- The run has come to the parser, and what holds behind it. -/
def Behind (deps : RAGGraphDeps V S) (request : ChatRequest) (uiMode : String) (n : Chat.Node)
    (state : Chat.RAGState S) : Prop :=
  ∃ before rawSegments, CaseComes deps request uiMode .parseResponse before ∧
    before.answerSegments = .raw rawSegments ∧ Staged deps before rawSegments n state

def Traced (deps : RAGGraphDeps V S) (request : ChatRequest) (uiMode : String) (n : Chat.Node)
    (state : Chat.RAGState S) : Prop :=
  match n with
  | .parseResponse => ∃ rawSegments, state.answerSegments = .raw rawSegments
  | .verifyTier1 | .detectConflictHeuristic | .verifyTier2 | .judgeInference | .detectUnsupported
  | .assembleResponse | .computeConfidence | .gate2 => Behind deps request uiMode n state
  | .maskResponsePii => state.grounding = .grounded → Behind deps request uiMode n state
  | .saveChatLog => state.grounding = .grounded → state.fallbackReason = none →
      Behind deps request uiMode n state
  | _ => True

theorem Behind.step {n n' : Chat.Node} {state state' : Chat.RAGState S}
    (h : Behind deps request uiMode n state)
    (hstep : ∀ before rawSegments, Staged deps before rawSegments n state →
      Staged deps before rawSegments n' state') : Behind deps request uiMode n' state' := by
  obtain ⟨before, rawSegments, hcomes, hraw, hstaged⟩ := h
  exact ⟨before, rawSegments, hcomes, hraw, hstep _ _ hstaged⟩

theorem CaseComes.traced {n : Chat.Node} {state : Chat.RAGState S}
    (h : CaseComes deps request uiMode n state) : Traced deps request uiMode n state := by
  induction h with
  | start => trivial
  | @step n n' state state' hreach hexec hnext ih =>
    have hinv : NodeInvariant deps n state := CaseComes.nodeInvariant hreach
    cases n with
    | tenantResolver | loadTenantConfig | buildAclFilter | classifyQuery | queryRewrite
    | retrieveContext =>
      cases hnext
      trivial
    | checkInputPii =>
      cases hnext
      rw [checkInputPiiRouter]
      split <;> trivial
    | modelRouter =>
      cases hnext
      rw [assessmentIntentRouter]
      split <;> trivial
    | gate1 =>
      cases hnext
      rw [gate1FullRouter]
      split <;> trivial
    | assessment =>
      cases hnext
      cases hexec
      exact fun h => absurd h (assessment_not_grounded _ _ _ _ _)
    | generateUngrounded =>
      cases hnext
      cases hexec
      intro h
      cases (generateUngroundedNode_uncited deps state).1.symm.trans h
    | generateAnswer =>
      cases hnext
      cases hexec
      exact withChain_raw _ state
    | parseResponse =>
      cases hnext
      obtain ⟨rawSegments, hraw⟩ := ih
      exact ⟨state, rawSegments, hreach, hraw, staged_parse hraw hexec⟩
    | verifyTier1 =>
      cases hnext
      cases hexec
      refine Behind.step ih ?_
      rintro _ _ ⟨parsed, hparsed, hpath⟩
      exact ⟨parsed, hparsed, hpath.verifyTier1⟩
    | detectConflictHeuristic =>
      cases hnext
      cases hexec
      refine Behind.step ih ?_
      rintro _ _ ⟨parsed, hparsed, hpath⟩
      exact ⟨parsed, hparsed, hpath.detectConflict deps⟩
    | verifyTier2 =>
      cases hnext
      exact Behind.step ih fun _ _ hs => staged_tier2 hs hexec
    | judgeInference =>
      cases hnext
      exact Behind.step ih fun _ _ hs => staged_judge hs hexec
    | detectUnsupported =>
      cases hnext
      cases hexec
      exact Behind.step ih fun _ _ hs => counted_detect hs
    | assembleResponse =>
      cases hnext
      cases hexec
      exact fun _ => Behind.step ih fun _ _ hs => Counted.of_same hs rfl rfl
    | maskResponsePii =>
      cases hnext
      cases hexec
      obtain ⟨hsegments, hratio⟩ := maskResponsePiiNode_segments deps state
      have hgrounding : (maskResponsePiiNode deps state).grounding = state.grounding :=
        congrArg Evidence.grounding (maskResponsePiiNode_eq deps state).1
      rw [postMaskGroundingRouter]
      split
      · rename_i hgrounded
        exact Behind.step (ih (hgrounding.symm.trans hgrounded)) fun _ _ hs =>
          Counted.of_same hs hsegments hratio
      · rename_i hungrounded
        exact fun h => absurd h hungrounded
    | computeConfidence =>
      cases hnext
      cases hexec
      exact Behind.step ih fun _ _ hs => Counted.of_same hs rfl rfl
    | gate2 =>
      cases hnext
      cases hexec
      obtain ⟨hsegments, hratio⟩ := gate2Node_segments state
      rw [gate2Router]
      split
      · exact fun _ _ => Behind.step ih fun _ _ hs => Counted.of_same hs hsegments hratio
      · trivial
    | fallback =>
      cases hnext
      cases hexec
      obtain ⟨reason, hreason⟩ := Option.isSome_iff_exists.mp hinv.2
      intro _ h
      cases hreason.symm.trans h
    | saveChatLog => cases hnext

end Runs

section Answers

open Classical in
/-- As many segments of the answer carry the label as are not backed by what they cite. -/
def LabelsMatch [LinearOrder S] [Zero S] [OfScientific S] (deps : RAGGraphDeps V S)
    (before : Chat.RAGState S) (rawSegments : List Value) : Prop :=
  let detector :=
    Verifier.detectorFor deps.patterns deps.conflictDetector before.tenantConfig.citation
  let segments := entering deps.verifier.repr detector before.finalContexts rawSegments
  let sim := answerSim deps.verifier detector (thresholdsFromState before) before.finalContexts
    rawSegments
  segments.countP (fun seg => isUnsupported seg.supportType) = segments.countP fun seg =>
    ¬ Backed sim (thresholdsFromState before) deps.verifier.judgeService before.finalContexts seg

variable [Field S] [LinearOrder S] [IsStrictOrderedRing S] [OfScientific S]
  {deps : RAGGraphDeps V S} {request : ChatRequest} {uiMode : String}

omit [IsStrictOrderedRing S] in
theorem counted_of_grounded {state : Chat.RAGState S}
    (hend : (caseRun deps request uiMode).ending = .finished state)
    (hgrounded : state.grounding = .grounded) (hreason : state.fallbackReason = none) :
    ∃ before rawSegments, CaseComes deps request uiMode .parseResponse before ∧
      before.answerSegments = .raw rawSegments ∧ Counted deps before rawSegments state := by
  obtain ⟨last, hcomes, hsave⟩ := (run_finished hend).2
  rw [saveChatLogNode_ok hsave] at hgrounded hreason
  obtain ⟨before, rawSegments, horigin, hraw, hcounted⟩ := CaseComes.traced hcomes hgrounded hreason
  refine ⟨before, rawSegments, horigin, hraw, ?_⟩
  rw [saveChatLogNode_ok hsave]
  exact Counted.of_same hcounted rfl rfl

theorem ratios_agree_iff {before state : Chat.RAGState S} {rawSegments : List Value}
    (h : Counted deps before rawSegments state) :
    unsupportedRatio state.answerSegments = state.unsupportedRatio ↔
      LabelsMatch deps before rawSegments := by
  classical
  obtain ⟨r, hr, hsegments, hratio⟩ := h
  have hbacked := Verifier.verifyAnswer_backed hr
  rw [LabelsMatch]
  generalize entering deps.verifier.repr _ before.finalContexts rawSegments = segments at hbacked ⊢
  generalize answerSim deps.verifier _ _ before.finalContexts rawSegments = sim at hbacked ⊢
  have hlabels : segments.countP (fun seg => isUnsupported seg.supportType) =
      r.segments.countP fun seg => isUnsupported seg.supportType :=
    countP_congr_of_forall₂ (hbacked.imp fun seg out hout => congrArg isUnsupported hout.1.symm)
  have huncited : segments.countP (fun seg => ¬ Backed sim (thresholdsFromState before)
        deps.verifier.judgeService before.finalContexts seg) =
      r.segments.countP fun seg => seg.citations.isEmpty := by
    refine countP_congr_of_forall₂ (hbacked.imp fun seg out hout => ?_)
    rw [Bool.eq_iff_iff, decide_eq_true_eq, ← hout.2, not_not, List.isEmpty_iff]
  rw [hsegments, hratio, unsupportedRatio, Verifier.tier3Unsupported, List.length_map,
    ← List.countP_eq_length_filter, ratio_inj List.countP_le_length List.countP_le_length, ← hlabels,
    ← huncited]

/-- What the runner records of a grounded answer is what Tier 3 has computed exactly when as many
segments carry the label as are not backed. -/
theorem recorded_ratio_iff (deps : RAGGraphDeps V S) (request : ChatRequest) (uiMode : String)
    (case : EvalCase) (state : Chat.RAGState S) (result : EvalCaseResult S)
    (hend : (caseRun deps request uiMode).ending = .finished state)
    (hgrounded : state.grounding = .grounded) (hreason : state.fallbackReason = none)
    (hresult : buildCaseResult case state = .ok result) :
    ∃ before rawSegments, CaseComes deps request uiMode .parseResponse before ∧
      before.answerSegments = .raw rawSegments ∧
      (result.unsupported = state.unsupportedRatio ↔ LabelsMatch deps before rawSegments) := by
  obtain ⟨before, rawSegments, hcomes, hraw, hcounted⟩ :=
    counted_of_grounded hend hgrounded hreason
  refine ⟨before, rawSegments, hcomes, hraw, ?_⟩
  rw [buildCaseResult_unsupported hresult]
  exact ratios_agree_iff hcounted

end Answers

section Office

def leaveCase : EvalCase where
  caseId := .str "case-1"
  question := .str "연차는 며칠인가요?"
  domainId := .str "hr"
  expectedChunkIds := [.str "c1"]
  mustIncludeKeywords := [.str "15일"]
  mustNotIncludeKeywords := []
  expectedFallback := false
  uiMode := .str "chat_structured"
  userContext := []
  configOverride := []
  metadata := []

/-- The run ends grounded, with what the runner records of it and what Tier 3 has computed. -/
def Records (deps : RAGGraphDeps ℚ ℚ) (recorded computed : ℚ) : Prop :=
  ∃ state result, (caseRun deps leaveQuestion "chat_structured").ending = .finished state ∧
    state.grounding = .grounded ∧ state.fallbackReason = none ∧
    buildCaseResult leaveCase state = .ok result ∧ result.unsupported = recorded ∧
    state.unsupportedRatio = computed

theorem records_of_state {deps : RAGGraphDeps ℚ ℚ} {recorded computed : ℚ}
    (hends : (chatRun deps leaveQuestion).ending.isRaised = false)
    (hgrounded : (chatRun deps leaveQuestion).ending.state.grounding = .grounded)
    (hreason : (chatRun deps leaveQuestion).ending.state.fallbackReason = none)
    (hrecorded : ((buildCaseResult leaveCase (chatRun deps leaveQuestion).ending.state).toOption.any
      fun result => result.unsupported = recorded) = true)
    (hcomputed : (chatRun deps leaveQuestion).ending.state.unsupportedRatio = computed) :
    Records deps recorded computed := by
  obtain ⟨result, hresult, hrecorded⟩ := exists_ok_of_any hrecorded
  obtain ⟨state, hend⟩ | ⟨n, state, e, hraised⟩ := chatRun_not_cut deps leaveQuestion
  · rw [hend] at hgrounded hreason hresult hcomputed
    exact ⟨state, result, hend, hgrounded, hreason, hresult, of_decide_eq_true hrecorded, hcomputed⟩
  · rw [hraised] at hends
    cases hends

theorem recorded_ratio_office : ∃ before rawSegments,
    CaseComes officeDeps leaveQuestion "chat_structured" .parseResponse before ∧
      before.answerSegments = .raw rawSegments ∧ LabelsMatch officeDeps before rawSegments := by
  have hrecords : Records officeDeps 0 0 := records_of_state (by decide +kernel) (by decide +kernel)
    (by decide +kernel) (by decide +kernel) (by decide +kernel)
  obtain ⟨state, result, hend, hgrounded, hreason, hresult, hrecorded, hcomputed⟩ := hrecords
  obtain ⟨before, rawSegments, hcomes, hraw, hiff⟩ := recorded_ratio_iff officeDeps leaveQuestion
    "chat_structured" leaveCase state result hend hgrounded hreason hresult
  exact ⟨before, rawSegments, hcomes, hraw, hiff.mp (hrecorded.trans hcomputed.symm)⟩

/-- The answer about leave with a second segment that cites nothing. -/
def advisedDeps : RAGGraphDeps ℚ ℚ :=
  { officeDeps with
    generateStructured := fun _ => .ok { leaveAnswer with
      answerSegments := leaveAnswer.answerSegments ++ [.dict [
        ("text", .str "자세한 내용은 담당 부서에 문의하세요."), ("citations", .list []),
        ("support_type", .str "none")]] } }

/-- Half of the answer is without a citation, and the runner records that nothing is. -/
theorem uncited_segment_not_recorded : Records advisedDeps 0 (1 / 2) :=
  records_of_state (by decide +kernel) (by decide +kernel) (by decide +kernel) (by decide +kernel)
    (by decide +kernel)

end Office

end DomainRag.Evaluation
