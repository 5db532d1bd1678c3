import Mathlib.Algebra.Order.Field.Rat
import DomainRag.Verifier.Support

/-! # Judged or downgraded

A segment that the LLM marked as an inference keeps its citations only through the judge, unless
the conflict heuristic takes it over before Tier 2.
-/

namespace DomainRag.Verifier

variable {V S : Type}

def HasCaveat (limitations : Value) : Prop :=
  ∃ before, limitations = .str (before ++ downgradeCaveat)

/-- The segment lost its citations, and the answer says so. -/
structure Removed (limitations : Value) (out : Segment S) : Prop where
  citations : out.citations = []
  caveat : HasCaveat limitations

theorem hasCaveat_of_downgraded {repr : Value → String} {segments : List (Segment S)}
    {limitations : Value} {out : Segment S} (hmem : out ∈ segments)
    (hout : out.downgraded.isSome = true) :
    HasCaveat (mergeLimitations repr segments limitations) := by
  have hany : (segments.any fun seg => seg.downgraded.isSome) = true :=
    List.any_eq_true.mpr ⟨out, hmem, hout⟩
  rw [mergeLimitations, if_pos hany]
  split
  · exact ⟨_, rfl⟩
  · exact ⟨"", by rw [String.empty_append]⟩

theorem removed_of_downgrade {repr : Value → String} {segments : List (Segment S)}
    {limitations : Value} {seg : Segment S} {reason : DowngradeReason}
    {citationMeta : Dict Int (VerifiedCitation S)}
    (hmem : seg.downgrade reason citationMeta ∈ segments) :
    Removed (mergeLimitations repr segments limitations) (seg.downgrade reason citationMeta) :=
  ⟨rfl, hasCaveat_of_downgraded hmem rfl⟩

/-- Every citation of the segment counts as medium at most. -/
def AtMostMedium (domainId : String) (contexts : List (RetrievedChunk S))
    (out : Segment S) : Prop :=
  ∀ cite ∈ segmentCitations domainId contexts out, cite.supportLevel ≠ some .strong

theorem atMostMedium_of_capped {domainId : String} {contexts : List (RetrievedChunk S)}
    {out : Segment S} (h : ∀ c a, out.citationMeta.get? c = some a → ∃ b : VerifiedCitation S,
      a = b.capped) : AtMostMedium domainId contexts out := by
  intro cite hcite hstrong
  obtain ⟨c, -, hctx⟩ := List.mem_filterMap.mp hcite
  obtain ⟨ctx, -, rfl⟩ := Option.map_eq_some_iff.mp hctx
  obtain ⟨a, ha, hlevel⟩ := Option.map_eq_some_iff.mp hstrong
  obtain ⟨b, rfl⟩ := h c a ha
  simp only [VerifiedCitation.capped] at hlevel
  split at hlevel
  · cases hlevel
  · contradiction

/-- The heuristic takes the segment over as a conflict. -/
def Flagged (detector : Option ConflictDetector) (contexts : List (RetrievedChunk S))
    (seg : Segment S) : Prop :=
  (enterSegment detector contexts seg).supportType = .conflict

theorem supportType_of_not_flagged {detector : Option ConflictDetector}
    {contexts : List (RetrievedChunk S)} {seg : Segment S}
    (h : ¬ Flagged detector contexts seg) :
    (enterSegment detector contexts seg).supportType = seg.supportType := by
  obtain hsame | ⟨d, detection, -, -, hretype⟩ :=
    heuristicSegment_cases detector contexts (tier1Segment contexts.length seg)
  · rw [enterSegment, hsame]
    rfl
  · refine absurd ?_ h
    rw [Flagged, enterSegment, hretype]
    rfl

section Outcome

variable [LinearOrder S]

/-- The judge was called on the segment and let it pass. -/
def JudgedAndPassed (judgeService : Option (JudgeService S)) (contexts : List (RetrievedChunk S))
    (calls : List (JudgeCall S)) (out : Segment S) : Prop :=
  ∃ service call, judgeService = some service ∧ call ∈ calls ∧
    JudgePassed service contexts out call

/-- Tier 2 accepted the conflict groups that the segment entered with: by the similarities of the
run, every member of two or more groups is confirmed. The citations stay, each with its own level up
to medium. -/
structure ConflictAccepted (sim : String → String → S) (t : VerifierThresholds S)
    (contexts : List (RetrievedChunk S)) (entered out : Segment S) : Prop where
  groups : GroupsConfirmed sim t contexts entered
  citations : out.citations = entered.citations
  levels : ∀ c ∈ out.citations, out.citationMeta.get? c =
    (citedSim sim contexts entered c).map fun s => (verifiedCitation t entered.index c s).capped

/-- What becomes of a segment that the LLM marked as an inference, by the similarities `sim`. -/
structure InferenceOutcome (judgeService : Option (JudgeService S))
    (detector : Option ConflictDetector) (sim : String → String → S) (t : VerifierThresholds S)
    (contexts : List (RetrievedChunk S)) (domainId : String) (r : Verified S)
    (seg out : Segment S) : Prop where
  judged : ¬ Flagged detector contexts seg →
    JudgedAndPassed judgeService contexts r.judgeCalls out ∧ AtMostMedium domainId contexts out ∨
      Removed r.limitations out
  retyped : Flagged detector contexts seg →
    ConflictAccepted sim t contexts (enterSegment detector contexts seg) out ∧
        AtMostMedium domainId contexts out ∨
      Removed r.limitations out

variable {deps : VerifierDeps V S} {detector : Option ConflictDetector}
  {sim : String → String → S} {t : VerifierThresholds S} {contexts : List (RetrievedChunk S)}
  {as : List (VerifiedCitation S)} {calls : List (JudgeCall S)} {i : Nat} {raw : Value}
  {m : Dict Int (VerifiedCitation S)} {seg classified out : Segment S}

omit [LinearOrder S] in
theorem atMostMedium_of_picked {cites : List Int} {domainId : String}
    (h : out.citationMeta = m.pick VerifiedCitation.capped cites) :
    AtMostMedium domainId contexts out := by
  apply atMostMedium_of_capped
  intro c a ha
  rw [h, Dict.get?_pick] at ha
  split at ha
  · obtain ⟨b, -, rfl⟩ := Option.map_eq_some_iff.mp ha
    exact ⟨b, rfl⟩
  · cases ha

theorem conflictAccepted_of_groupsOk (hm : Assesses sim t contexts seg m)
    (htype : seg.supportType = .conflict)
    (hgroups : GroupsOk m (seg.conflictGroups.orElse (.list []))) :
    ConflictAccepted sim t contexts seg
      { seg with citationMeta := m.pick VerifiedCitation.capped seg.citations } := by
  have hconfirmed : GroupsConfirmed sim t contexts seg :=
    (groupsOk_iff fun htruthy => hm.confirmed (compared_of_groups htype htruthy)).mp hgroups
  refine ⟨hconfirmed, rfl, fun c hc => ?_⟩
  have hcompared : seg.compared t = true := by
    obtain ⟨groups, hiter, htwo, -⟩ := hconfirmed
    have hlen : seg.conflictGroups.len = .ok groups.length :=
      Value.len_eq_ok_iff.mpr ⟨groups, hiter, rfl⟩
    exact compared_of_groups htype (Value.truthy_of_len_pos hlen (by omega))
  change (m.pick VerifiedCitation.capped seg.citations).get? c = _
  rw [Dict.get?_pick, if_pos hc, hm c, if_pos ⟨hcompared, hc⟩, Option.map_map]
  rfl

theorem pending_judged (hjudge : deps.judgeService.isSome = true)
    (hpending : classified.pendingJudge = true)
    (hafter : AfterJudge deps.judgeService contexts calls classified out) :
    (JudgedAndPassed deps.judgeService contexts calls out ∧
      ∀ domainId, AtMostMedium domainId contexts out) ∨
      ∃ s : Segment S, ∃ reason citationMeta, out = s.downgrade reason citationMeta := by
  obtain ⟨service, hservice⟩ := Option.isSome_iff_exists.mp hjudge
  rw [hservice] at hafter
  obtain ⟨call, hjudged, hcalls⟩ := hafter
  cases hjudged with
  | skipped hskip => exact absurd (hskip.symm.trans hpending) nofun
  | passed call _ hpassed =>
    refine .inl ⟨⟨service, call, hservice, hcalls call rfl, ?_⟩, fun domainId => ?_⟩
    · exact ⟨hpassed.segmentIndex, hpassed.request, hpassed.answered, hpassed.parseOk,
        hpassed.passes⟩
    · apply atMostMedium_of_capped
      intro c a ha
      change (classified.citationMeta.mapValues fun _ a => a.capped).get? c = some a at ha
      rw [Dict.get?_mapValues] at ha
      obtain ⟨b, -, rfl⟩ := Option.map_eq_some_iff.mp ha
      exact ⟨b, rfl⟩
  | rejected call _ => exact .inr ⟨_, _, _, rfl⟩

theorem inference_outcome (htrace : SegmentTrace deps detector t contexts as calls i raw seg
      classified out)
    (hm : Assesses sim t contexts (enterSegment detector contexts seg) (assessMap as i))
    (hinference : normalizeSupportType raw = .ok .inference)
    (hjudge : deps.judgeService.isSome = true ∨ t.inferenceJudgeEnabled = false) :
    (¬ Flagged detector contexts seg ∧ JudgedAndPassed deps.judgeService contexts calls out ∧
        ∀ domainId, AtMostMedium domainId contexts out) ∨
      (Flagged detector contexts seg ∧
        ConflictAccepted sim t contexts (enterSegment detector contexts seg) out ∧
        ∀ domainId, AtMostMedium domainId contexts out) ∨
      ∃ s : Segment S, ∃ reason citationMeta, out = s.downgrade reason citationMeta := by
  obtain ⟨hparse, htier2, hafter⟩ := htrace
  obtain ⟨-, hsupport, hfresh⟩ := parseSegment_ok hparse
  have htype : seg.supportType = .inference :=
    Except.ok.inj (hsupport.symm.trans hinference)
  have hentered := enterSegment_entered detector contexts seg
  have hnotPending := hentered.pendingJudge.trans hfresh.pendingJudge
  cases classifySegment_ok htier2 with
  | downgraded reason citationMeta =>
    exact .inr (.inr ⟨_, reason, citationMeta, afterJudge_not_pending hafter hnotPending⟩)
  | conflict hconflict hgroups =>
    obtain rfl := afterJudge_not_pending hafter hnotPending
    exact .inr (.inl ⟨hconflict, conflictAccepted_of_groupsOk hm hconflict hgroups,
      fun domainId => atMostMedium_of_picked rfl⟩)
  | pending hinf henabled hall =>
    have hservice := hjudge.resolve_right (by rw [henabled]; decide)
    obtain hpassed | hremoved := pending_judged hservice rfl hafter
    · refine .inl ⟨fun hflag => ?_, hpassed⟩
      cases hinf.symm.trans hflag
    · exact .inr (.inr hremoved)
  | kept hconflict hnotInference =>
    exact absurd ((supportType_of_not_flagged hconflict).trans htype) hnotInference

end Outcome

section Main

variable [LinearOrder S] [Zero S] [Add S] [Div S] [NatCast S]

theorem inference_outcome_at {deps : VerifierDeps V S} {detector : Option ConflictDetector}
    {t : VerifierThresholds S} {rawSegments : List Value} {contexts : List (RetrievedChunk S)}
    {domainId : String} {limitations : Value} {r : Verified S}
    (h : verifyAnswer deps detector t rawSegments contexts domainId limitations = .ok r)
    (hjudge : deps.judgeService.isSome = true ∨ t.inferenceJudgeEnabled = false)
    {i : Nat} {raw : Value} (hraw : rawSegments[i]? = some raw)
    (hinference : normalizeSupportType raw = .ok .inference) :
    ∃ seg out, parseSegment deps.repr i raw = .ok seg ∧ r.segments[i]? = some out ∧
      InferenceOutcome deps.judgeService detector (answerSim deps detector t contexts rawSegments) t
        contexts domainId r seg out := by
  obtain ⟨parsed, tier2, hparsed, htier2, hrun⟩ := verifyAnswer_ok h
  obtain ⟨raw', seg, classified, out, hraw', hseg, hout, htrace⟩ :=
    hrun.at (List.getElem?_eq_some_iff.mp hraw).1
  obtain rfl : raw' = raw := Option.some.inj (hraw'.symm.trans hraw)
  have hm : Assesses (answerSim deps detector t contexts rawSegments) t contexts
      (enterSegment detector contexts seg) (assessMap tier2.assessments i) := by
    have hmem : enterSegment detector contexts seg ∈ enter detector contexts parsed := by
      rw [enter_eq_map]
      exact List.mem_map_of_mem (List.mem_of_getElem? hseg)
    have hindex : (enterSegment detector contexts seg).index = i :=
      (enterSegment_entered detector contexts seg).index.trans (parseSegment_ok htrace.parse).1
    have hentering : entering deps.repr detector contexts rawSegments =
        enter detector contexts parsed := by
      rw [entering, hparsed]
    rw [assessments_of_returned htier2, answerSim, hentering, ← hindex]
    exact assesses_assessments _ (numbered_enter hparsed detector contexts) hmem
  have hremoved : (∃ s : Segment S, ∃ reason citationMeta, out = s.downgrade reason citationMeta) →
      Removed r.limitations out := by
    rintro ⟨s, reason, citationMeta, rfl⟩
    rw [hrun.limitations]
    exact removed_of_downgrade (List.mem_of_getElem? hout)
  refine ⟨seg, out, htrace.parse, hout, ?_⟩
  obtain ⟨hflag, hpassed, hmedium⟩ | ⟨hflag, haccepted, hmedium⟩ | hdown :=
    inference_outcome htrace hm hinference hjudge
  · exact ⟨fun _ => .inl ⟨hpassed, hmedium domainId⟩, fun h => absurd h hflag⟩
  · exact ⟨fun h => absurd hflag h, fun _ => .inl ⟨haccepted, hmedium domainId⟩⟩
  · exact ⟨fun _ => .inr (hremoved hdown), fun _ => .inr (hremoved hdown)⟩

variable [One S] [Sub S] [Mul S]

/-- The one-shot verification is the grounded path without the heuristic and the judge. -/
theorem verifyAnswer_of_run {repr : Value → String} {embedder : Embedder V} {cosine : V → V → S}
    {rawSegments : List Value} {contexts : List (RetrievedChunk S)} {domainId : String}
    {t : VerifierThresholds S} {limitations : Value} {r : VerificationResult S}
    (h : run repr embedder cosine rawSegments contexts domainId t limitations = .ok r) :
    verifyAnswer ⟨repr, embedder, cosine, none⟩ none t rawSegments contexts domainId limitations =
      .ok ⟨r.segments, [], r.citations, r.limitations⟩ := by
  obtain ⟨parsed, hparsed, h⟩ := Except.bind_eq_ok_iff.mp h
  obtain ⟨tier2, htier2, h⟩ := Except.bind_eq_ok_iff.mp h
  cases h
  have henter : enter none contexts parsed = (tier1Filter parsed contexts.length).1 :=
    List.map_id _
  refine Except.bind_eq_ok_iff.mpr ⟨parsed, hparsed, Except.bind_eq_ok_iff.mpr ⟨tier2, ?_, rfl⟩⟩
  rw [henter]
  exact htier2

theorem removed_of_run {repr : Value → String} {embedder : Embedder V} {cosine : V → V → S}
    {rawSegments : List Value} {contexts : List (RetrievedChunk S)} {domainId : String}
    {t : VerifierThresholds S} {limitations : Value} {r : VerificationResult S}
    (h : run repr embedder cosine rawSegments contexts domainId t limitations = .ok r)
    (hdisabled : t.inferenceJudgeEnabled = false) {i : Nat} {raw : Value}
    (hraw : rawSegments[i]? = some raw)
    (hinference : normalizeSupportType raw = .ok .inference) :
    ∃ out, r.segments[i]? = some out ∧ Removed r.limitations out := by
  obtain ⟨seg, out, hparse, hout, houtcome⟩ :=
    inference_outcome_at (verifyAnswer_of_run h) (.inr hdisabled) hraw hinference
  have htype : seg.supportType = .inference :=
    Except.ok.inj ((parseSegment_ok hparse).2.1.symm.trans hinference)
  have hnotFlagged : ¬ Flagged none contexts seg := fun hflag =>
    absurd (htype.symm.trans hflag) nofun
  obtain ⟨⟨service, call, hservice, -⟩, -⟩ | hremoved := houtcome.judged hnotFlagged
  · cases hservice
  · exact ⟨out, hout, hremoved⟩

variable [OfScientific S]

/-- With a judge in the bundle, or with the judge switched off, an inference segment of the LLM
that the heuristic does not retype is judged and then counts as medium at most, or it loses its
citations and the limitations say so; of one that the heuristic retypes Tier 2 accepts the groups,
by the similarities of the run, or it loses its citations. The one-shot verification always takes
them away. -/
theorem inference_judged_or_removed (patterns : Patterns) (defaultDetector : Option ConflictDetector)
    (deps : VerifierDeps V S) (config : Option (CitationConfig S)) (rawSegments : List Value)
    (contexts : List (RetrievedChunk S)) (domainId : String) (limitations : Value) (i : Nat)
    (raw : Value) (hraw : rawSegments[i]? = some raw)
    (hinference : normalizeSupportType raw = .ok .inference) :
    (∀ r, verifyAnswer deps (detectorFor patterns defaultDetector config) (.fromConfig config)
        rawSegments contexts domainId limitations = .ok r →
      deps.judgeService.isSome = true ∨
        (VerifierThresholds.fromConfig config).inferenceJudgeEnabled = false →
      ∃ seg out, parseSegment deps.repr i raw = .ok seg ∧ r.segments[i]? = some out ∧
        InferenceOutcome deps.judgeService (detectorFor patterns defaultDetector config)
          (answerSim deps (detectorFor patterns defaultDetector config) (.fromConfig config) contexts
            rawSegments) (.fromConfig config) contexts domainId r seg out) ∧
    (∀ r, run deps.repr deps.embedder deps.cosine rawSegments contexts domainId
        (.fromConfig config) limitations = .ok r →
      (VerifierThresholds.fromConfig config).inferenceJudgeEnabled = false →
      ∃ out, r.segments[i]? = some out ∧ Removed r.limitations out) :=
  ⟨fun _ h hjudge => inference_outcome_at h hjudge hraw hinference,
    fun _ h hdisabled => removed_of_run h hdisabled hraw hinference⟩

end Main

section Example

def ruleChunk (content : String) : RetrievedChunk ℚ where
  chunkId := content
  docId := "rules"
  title := "취업규칙"
  content := content
  pageNumber := .null
  sectionTitle := .null
  denseScore := 0
  sparseScore := 0
  fusedScore := 0
  payload := .empty

def ruleContexts : List (RetrievedChunk ℚ) :=
  [ruleChunk "시행일 2024-01-01", ruleChunk "시행일 2024-07-01"]

/-- What the date expressions find in the two contexts. -/
def rulePatterns : Patterns where
  dates text := if text = "시행일 2024-01-01" then [(2024, 1, 1)]
    else if text = "시행일 2024-07-01" then [(2024, 7, 1)] else []
  numericUnits _ := []
  articleClauses _ := []
  articles _ := []

def ruleInference : Value :=
  .dict [("text", .str "따라서 7월부터 적용됩니다."),
    ("citations", .list [.int 1, .int 2]), ("support_type", .str "inference")]

def fixedJudge (valid : Bool) : JudgeService ℚ where
  minConfidence := 3/5
  judge _ _ := .ok ⟨valid, 1, "", .null, true⟩

def ruleDeps (valid : Bool) : VerifierDeps ℚ ℚ :=
  ⟨fun _ => "", .ofFn fun _ => 1, fun claim chunk => claim * chunk, some (fixedJudge valid)⟩

def judgeOn (heuristic : Bool) : CitationConfig ℚ :=
  { judgeEnable := some true, heuristicEnable := some heuristic }

def verifyRule (heuristic valid : Bool) : Except Exc (Verified ℚ) :=
  verifyAnswer (ruleDeps valid) (detectorFor rulePatterns none (some (judgeOn heuristic)))
    (.fromConfig (some (judgeOn heuristic))) [ruleInference] ruleContexts "hr" .null

theorem inference_judged_or_removed_rule :
    (∃ r, verifyRule false true = .ok r ∧ r.judgeCalls.length = 1 ∧
      ∃ seg out, parseSegment (fun _ => "") 0 ruleInference = .ok seg ∧ r.segments[0]? = some out ∧
        InferenceOutcome (some (fixedJudge true))
          (detectorFor rulePatterns none (some (judgeOn false)))
          (answerSim (ruleDeps true) (detectorFor rulePatterns none (some (judgeOn false)))
            (.fromConfig (some (judgeOn false))) ruleContexts [ruleInference])
          (.fromConfig (some (judgeOn false))) ruleContexts "hr" r seg out) ∧
    ∃ r, run (fun _ => "") (.ofFn fun _ => (1 : ℚ)) (· * ·) [ruleInference] ruleContexts "hr"
        (.fromConfig none) .null = .ok r ∧
      ∃ out, r.segments[0]? = some out ∧ Removed r.limitations out := by
  constructor
  · obtain ⟨r, hr, hcalls⟩ := exists_ok_of_any (x := verifyRule false true)
      (p := fun r => r.judgeCalls.length = 1) (by decide +kernel)
    exact ⟨r, hr, of_decide_eq_true hcalls, (inference_judged_or_removed rulePatterns none
      (ruleDeps true) (some (judgeOn false)) [ruleInference] ruleContexts "hr" .null 0
      ruleInference rfl rfl).1 r hr (.inl rfl)⟩
  · obtain ⟨r, hr, -⟩ := exists_ok_of_any (x := run (fun _ => "") (.ofFn fun _ => (1 : ℚ)) (· * ·)
      [ruleInference] ruleContexts "hr" (.fromConfig none) .null) (p := fun _ => true)
      (by decide +kernel)
    exact ⟨r, hr, (inference_judged_or_removed rulePatterns none (ruleDeps true) none
      [ruleInference] ruleContexts "hr" .null 0 ruleInference rfl rfl).2 r hr rfl⟩

/-- The heuristic finds two dates and takes the inference over: both citations are emitted
although the judge, which would have rejected the claim, was never called. -/
theorem inference_retyped_unjudged : normalizeSupportType ruleInference = .ok .inference ∧
    ∃ r, verifyRule true false = .ok r ∧ r.citations.map Citation.marker = ["[1]", "[2]"] ∧
      r.judgeCalls.length = 0 := by
  obtain ⟨r, hr, hcites⟩ := exists_ok_of_any (x := verifyRule true false)
    (p := fun r => r.citations.map Citation.marker = ["[1]", "[2]"] ∧ r.judgeCalls.length = 0)
    (by decide +kernel)
  exact ⟨rfl, r, hr, of_decide_eq_true hcites⟩

end Example

end DomainRag.Verifier
