import DomainRag.Chat.Generation
import DomainRag.Chat.Invariant
import DomainRag.Verifier.Totality

/-! # When a grounded run reaches its log

From the generator on, two nodes of the graph can fail on what the LLM wrote: the parser and
Tier 2. A run that comes to the generator reaches the log node, with an answer that passed
Gate 2 or with a refusal, exactly when the answer is well shaped.
-/

namespace DomainRag.Chat

open Verifier (RetrievedChunk Segment WellShaped)

variable {V S : Type}

section Segments

/-- The state on its way through the verification, with the segments of that stage. -/
structure OnPath (e : Evidence S) (segments : List (Segment S)) (state : RAGState S) : Prop where
  evidence : state.evidence = e
  segments : state.answerSegments = .parsed segments

theorem OnPath.verifyTier1 {state : RAGState S} {e : Evidence S} {segments : List (Segment S)}
    (h : OnPath e segments state) :
    OnPath e (Verifier.tier1Filter segments e.contexts.length).1 (verifyTier1Node state) := by
  obtain ⟨rfl, hsegments⟩ := h
  refine ⟨rfl, ?_⟩
  simp only [verifyTier1Node, RAGState.segments, hsegments]
  rfl

theorem OnPath.detectConflict {state : RAGState S} {e : Evidence S} {segments : List (Segment S)}
    (h : OnPath e segments state) (deps : RAGGraphDeps V S) :
    OnPath e (Verifier.detectConflictHeuristic
        (Verifier.detectorFor deps.patterns deps.conflictDetector e.config.citation) e.contexts
        segments) (detectConflictHeuristicNode deps state) := by
  obtain ⟨rfl, hsegments⟩ := h
  refine ⟨detectConflictHeuristicNode_evidence deps state, ?_⟩
  have hquiet : state.answerSegments = .parsed (segments.map fun seg => seg) :=
    hsegments.trans (congrArg _ (List.map_id _).symm)
  rw [detectConflictHeuristicNode, Verifier.detectConflictHeuristic]
  simp only [RAGState.evidence]
  cases Verifier.detectorFor deps.patterns deps.conflictDetector state.tenantConfig.citation with
  | none => exact hquiet
  | some detector =>
    cases hskip : !detector.enabled || state.finalContexts.isEmpty with
    | true =>
      have hstep : Verifier.heuristicSegment (some detector) state.finalContexts =
          fun seg : Segment S => seg := by
        funext seg
        rw [Verifier.heuristicSegment, hskip, if_pos rfl]
      simpa only [hstep, hskip, if_true] using hquiet
    | false =>
      have hstep : Verifier.heuristicSegment (some detector) state.finalContexts =
          Verifier.markConflict (S := S) detector state.finalContexts := by
        funext seg
        rw [Verifier.heuristicSegment, hskip, if_neg Bool.false_ne_true]
      simp only [hstep, hskip, Bool.false_eq_true, if_false, withConflicts, RAGState.segments,
        hsegments]

end Segments

section Path

variable [LinearOrder S] [Zero S] [One S] [Add S] [Sub S] [Mul S] [Div S] [NatCast S]
  [OfScientific S]

/-- Gate 2 let the answer pass, or the answer is the text of a refusal. -/
def VerifiedOrRefused (state : RAGState S) : Prop :=
  (state.gate2Passed = true ∧ Verifier.evaluateGate2 state.citations state.unsupportedRatio
    state.confidence (thresholdsFromState state) = none) ∨
  (state.gate2Passed = false ∧ state.fallbackReason.isSome = true ∧
    state.finalAnswer = fallbackText state.fallbackReason)

/-- From the node, the graph comes to save an answer that is verified or a refusal. -/
def Saves (deps : RAGGraphDeps V S) (n : Node) (state : RAGState S) : Prop :=
  ∃ last, (chatGraph deps).Reach n state .saveChatLog last ∧ VerifiedOrRefused last

variable {deps : RAGGraphDeps V S} {state state' : RAGState S} {n n' : Node}

theorem saves_next_iff (hexec : (execNode deps n state).2 = .ok state')
    (hnext : nextNode n state' = some n') (hn : .saveChatLog ≠ n) :
    Saves deps n state ↔ Saves deps n' state' :=
  exists_congr fun _ => and_congr_left fun _ => Machine.reach_next_iff hexec hnext hn

/-- A node that may raise is passed when the computation in it returns. -/
theorem saves_bind_iff {A : Type} {x : Except Exc A} {f : A → RAGState S}
    (hexec : (execNode deps n state).2 = x >>= fun a => .ok (f a))
    (hnext : ∀ a, nextNode n (f a) = some n') (hn : .saveChatLog ≠ n) :
    Saves deps n state ↔ ∃ a, x = .ok a ∧ Saves deps n' (f a) := by
  cases x with
  | error e =>
    refine ⟨fun ⟨last, hreach, _⟩ => ?_, nofun⟩
    obtain ⟨state', hok⟩ := hreach.returned hn
    exact absurd (hexec.symm.trans hok) nofun
  | ok a =>
    rw [saves_next_iff hexec (hnext a) hn]
    constructor
    · exact fun h => ⟨a, rfl, h⟩
    · rintro ⟨_, ⟨⟩, h⟩
      exact h

theorem gate2_settles (state : RAGState S) : Saves deps .gate2 state := by
  have hexec : (execNode deps .gate2 state).2 = .ok (gate2Node state) := rfl
  cases hgate : Verifier.evaluateGate2 state.citations state.unsupportedRatio state.confidence
    (thresholdsFromState state) with
  | none =>
    have hnode : gate2Node state = { state with gate2Passed := true } := by
      rw [gate2Node, hgate]
    rw [hnode] at hexec
    exact ⟨_, .step .start hexec rfl, .inl ⟨rfl, hgate⟩⟩
  | some reason =>
    have hnode : gate2Node state =
        { state with gate2Passed := false, fallbackReason := some (.gate2 reason) } := by
      rw [gate2Node, hgate]
    rw [hnode] at hexec
    exact ⟨_, .step (.step .start hexec rfl) rfl rfl, .inr ⟨rfl, rfl, rfl⟩⟩

theorem unsupported_settles (hgrounded : state.grounding = .grounded) :
    Saves deps .detectUnsupported state := by
  have hmask : nextNode .maskResponsePii (maskResponsePiiNode deps
      (assembleResponseNode deps (detectUnsupportedNode state))) = some .computeConfidence := by
    have hevidence := (maskResponsePiiNode_eq deps
      (assembleResponseNode deps (detectUnsupportedNode state))).1
    exact congrArg some (if_pos ((congrArg Evidence.grounding hevidence).trans hgrounded))
  refine (saves_next_iff rfl rfl (by decide)).mpr ?_
  refine (saves_next_iff rfl rfl (by decide)).mpr ?_
  refine (saves_next_iff rfl hmask (by decide)).mpr ?_
  exact (saves_next_iff rfl rfl (by decide)).mpr (gate2_settles _)

theorem saves_judge_iff {e : Evidence S} {segments : List (Segment S)}
    (hgrounded : e.grounding = .grounded) (h : OnPath e segments state) :
    Saves deps .judgeInference state ↔
      Returns (Verifier.judgeInference deps.verifier.judgeService e.contexts segments) := by
  obtain ⟨rfl, hsegments⟩ := h
  have hparsed : state.segments = segments := by rw [RAGState.segments, hsegments]
  cases hservice : deps.verifier.judgeService with
  | none =>
    have hexec : (execNode deps .judgeInference state).2 = .ok state := by
      simp only [execNode, judgeInferenceNode, hservice]
    refine ⟨fun _ => returns_ok _, fun _ => ?_⟩
    exact (saves_next_iff hexec rfl (by decide)).mpr (unsupported_settles hgrounded)
  | some service =>
    have hexec : (execNode deps .judgeInference state).2 = Verifier.judgeInference (some service)
        state.finalContexts segments >>= fun judged => .ok { state with
          answerSegments := .parsed judged.1
          inferenceJudgeResults := state.inferenceJudgeResults ++ judged.2 } := by
      simp only [execNode, judgeInferenceNode, hservice, hparsed]
      rfl
    rw [saves_bind_iff hexec (fun _ => rfl) (by decide)]
    refine exists_congr fun judged => and_iff_left ?_
    exact unsupported_settles hgrounded

theorem saves_tier2_iff {e : Evidence S} {segments : List (Segment S)}
    (hgrounded : e.grounding = .grounded) (h : OnPath e segments state) :
    Saves deps .verifyTier2 state ↔ ∃ tier2, Verifier.tier2Classify deps.verifier.embedder
        deps.verifier.cosine segments e.contexts (.fromConfig e.config.citation) = .ok tier2 ∧
      Returns (Verifier.judgeInference deps.verifier.judgeService e.contexts tier2.segments) := by
  obtain ⟨rfl, hsegments⟩ := h
  have hparsed : state.segments = segments := by rw [RAGState.segments, hsegments]
  have hexec : (execNode deps .verifyTier2 state).2 = Verifier.tier2Classify
      deps.verifier.embedder deps.verifier.cosine segments state.finalContexts
      (thresholdsFromState state) >>= fun tier2 => .ok { state with
        answerSegments := .parsed tier2.segments
        verifierMetrics :=
          { state.verifierMetrics with tier2AvgSimilarity := some tier2.avgSimilarity } } := by
    simp only [execNode, verifyTier2Node, hparsed]
    rfl
  rw [saves_bind_iff hexec (fun _ => rfl) (by decide)]
  exact exists_congr fun tier2 => and_congr_right fun _ => saves_judge_iff hgrounded ⟨rfl, rfl⟩

/-- The graph saves an answer exactly when the grounded path returns on its segments. -/
theorem saves_iff_returns {rawSegments : List Value}
    (hgrounded : state.grounding = .grounded) (hraw : state.answerSegments = .raw rawSegments) :
    Saves deps .parseResponse state ↔ Returns (Verifier.verifyAnswer deps.verifier
      (Verifier.detectorFor deps.patterns deps.conflictDetector state.tenantConfig.citation)
      (thresholdsFromState state) rawSegments state.finalContexts state.domainId
      state.limitations) := by
  have hexec : (execNode deps .parseResponse state).2 =
      Verifier.parseSegments deps.verifier.repr rawSegments >>= fun parsed =>
        .ok { state with answerSegments := .parsed parsed } := by
    simp only [execNode, parseResponseNode, hraw]
    rfl
  rw [saves_bind_iff hexec (fun _ => rfl) (by decide), Verifier.verifyAnswer, returns_bind_iff]
  refine exists_congr fun parsed => and_congr_right fun _ => ?_
  have hparsed : OnPath state.evidence parsed { state with answerSegments := .parsed parsed } :=
    ⟨rfl, rfl⟩
  rw [saves_next_iff rfl rfl (by decide), saves_next_iff rfl rfl (by decide),
    saves_tier2_iff hgrounded (hparsed.verifyTier1.detectConflict deps), returns_bind_iff]
  refine exists_congr fun tier2 => and_congr_right fun _ => ?_
  rw [returns_bind_iff]
  constructor
  · rintro ⟨judged, hjudged⟩
    exact ⟨judged, hjudged, returns_ok _⟩
  · rintro ⟨judged, hjudged, -⟩
    exact ⟨judged, hjudged⟩

/-- The run on a request comes to its log with an answer that is verified or a refusal, and
ends there once the row is written. -/
def Completes (deps : RAGGraphDeps V S) (request : ChatRequest) : Prop :=
  ∃ last, Comes deps request .saveChatLog last ∧ VerifiedOrRefused last ∧
    ∀ saved, (saveChatLogNode deps last).2 = .ok saved →
      (chatRun deps request).ending = .finished saved

theorem completes_iff_saves {request : ChatRequest} (h : Comes deps request n state) :
    Completes deps request ↔ Saves deps n state := by
  constructor
  · rintro ⟨last, hlast, hsettled, -⟩
    exact ⟨last, Machine.Reach.onward h hlast (Nat.zero_le _), hsettled⟩
  · rintro ⟨last, hreach, hsettled⟩
    have hlast : Comes deps request .saveChatLog last := Machine.Reach.trans h hreach
    refine ⟨last, hlast, hsettled, fun saved hsaved => ?_⟩
    have hstop : (chatGraph deps).run .saveChatLog last = _ := Machine.run_of_stop hsaved rfl
    have hending : (chatRun deps request).ending =
      ((chatGraph deps).run .saveChatLog last).ending := hlast.ending_eq
    rw [hending, hstop]

end Path

section Example

/-- A generator whose LLM writes one and the same text, which decodes to one value. -/
def fixedGenerator (raw : String) (parsed : Value) : GenerationService where
  llm _ := .ok raw
  render template _ := .ok template
  loads text := if text = raw then .ok parsed
    else .error ⟨"JSONDecodeError", "Expecting value: line 1 column 1 (char 0)"⟩
  prompt := ⟨"", "", .null⟩
  model := "tenant_slm"

theorem office_onePerText : officeDeps.verifier.embedder.OnePerText fun _ _ => (1 : ℚ) :=
  fun _ _ _ => rfl

def leaveSegment : Value :=
  .dict [("text", .str "연차 휴가는 15일이다."), ("citations", .list [.int 1])]

def leaveGenerator : GenerationService :=
  fixedGenerator
    "\x7b\"answer_segments\": [\x7b\"text\": \"연차 휴가는 15일이다.\", \"citations\": [1]\x7d]\x7d"
    (.dict [("answer_segments", .list [leaveSegment])])

def textGenerator : GenerationService :=
  fixedGenerator "\x7b\"answer_segments\": [\"연차 휴가는 15일이다.\"]\x7d"
    (.dict [("answer_segments", .list [.str "연차 휴가는 15일이다."])])

end Example

end DomainRag.Chat
