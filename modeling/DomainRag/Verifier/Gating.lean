import Mathlib.Algebra.Order.Field.Basic
import Mathlib.Algebra.Order.Field.Rat
import Mathlib.Algebra.Order.BigOperators.Group.List
import Mathlib.Tactic.Linarith
import Mathlib.Tactic.NormNum
import DomainRag.Verifier.Separate
import DomainRag.Verifier.Support
import DomainRag.Verifier.Config

/-! # Gate 2 on less support

The verifier leaves no citation unverified, so the verified fraction of its answers is all or
nothing. An answer that has lost some of its support passes Gate 2 only if the whole answer does.
-/

namespace DomainRag.Verifier

variable {V S : Type}

/-- Every citation of the segment names a context and is recorded as verified. -/
def Segment.AllVerified (contexts : List (RetrievedChunk S)) (seg : Segment S) : Prop :=
  ∀ c ∈ seg.citations,
    inRange contexts.length c = true ∧ chunkVerified seg.citationMeta c = true

section Stages

variable [LinearOrder S] {sim : String → String → S} {t : VerifierThresholds S}
  {contexts : List (RetrievedChunk S)} {seg out : Segment S} {m : Dict Int (VerifiedCitation S)}

theorem allVerified_of_classified (hm : Assesses sim t contexts seg m)
    (hrange : ∀ c ∈ seg.citations, inRange contexts.length c = true)
    (h : Classified t m seg out) : out.AllVerified contexts := by
  cases h with
  | downgraded reason citationMeta => exact nofun
  | conflict htype hgroups =>
    intro c hc
    obtain ⟨⟨n, hlen, hn⟩, -⟩ := hgroups
    have htruthy : seg.conflictGroups.truthy = true := by
      rw [Value.orElse] at hlen
      split at hlen
      · assumption
      · cases hlen
        exact absurd hn (by decide)
    obtain ⟨ctx, hctx⟩ := exists_context (hrange c hc)
    let a := verifiedCitation t seg.index c (sim seg.text ctx.content)
    have hassessed : m.get? c = some a := by
      rw [hm c, if_pos ⟨compared_of_groups htype htruthy, hc⟩, citedSim, hctx]
      rfl
    refine ⟨hrange c hc, chunkVerified_iff.mpr ⟨a.capped, ?_, rfl⟩⟩
    rw [Dict.get?_pick, if_pos hc, hassessed]
    rfl
  | pending htype henabled hall =>
    intro c hc
    obtain ⟨a, ha, hverified⟩ := chunkVerified_iff.mp (hall c hc)
    refine ⟨hrange c hc, chunkVerified_iff.mpr ⟨a, ?_, hverified⟩⟩
    rw [Dict.get?_pick, if_pos hc, Option.map_id_fun, id, ha]
  | kept hconflict hinference =>
    intro c hc
    obtain ⟨hcited, hkept⟩ := List.mem_filter.mp hc
    obtain ⟨a, ha, hverified⟩ := chunkVerified_iff.mp hkept
    refine ⟨hrange c hcited, chunkVerified_iff.mpr ⟨a, ?_, hverified⟩⟩
    change (m.pick id (dropWeak m seg).citations).get? c = some a
    rw [Dict.get?_pick, if_pos hc, Option.map_id_fun, id, ha]

theorem allVerified_of_judged {service : Option (JudgeService S)} {calls : List (JudgeCall S)}
    (hall : seg.AllVerified contexts) (h : AfterJudge service contexts calls seg out) :
    out.AllVerified contexts := by
  cases service with
  | none =>
    rw [show out = seg from h]
    exact hall
  | some service =>
    obtain ⟨call, hjudged, -⟩ := h
    cases hjudged with
    | skipped _ => exact hall
    | rejected call hp => exact nofun
    | passed call hp _ =>
      intro c hc
      obtain ⟨hrange, hverified⟩ := hall c hc
      obtain ⟨a, ha, -⟩ := chunkVerified_iff.mp hverified
      refine ⟨hrange, chunkVerified_iff.mpr ⟨a.capped, ?_, rfl⟩⟩
      change (seg.citationMeta.mapValues fun _ a => a.capped).get? c = some a.capped
      rw [Dict.get?_mapValues, ha]
      rfl

variable [Zero S] [Add S] [Div S] [NatCast S]

theorem allVerified_of_tier2 {embedder : Embedder V} {cosine : V → V → S}
    {segments : List (Segment S)} {r : Tier2Result S} (hnum : Numbered segments)
    (hrange : ∀ seg ∈ segments, ∀ c ∈ seg.citations, inRange contexts.length c = true)
    (h : tier2Classify embedder cosine segments contexts t = .ok r) :
    ∀ seg ∈ r.segments, seg.AllVerified contexts := by
  intro out hout
  obtain ⟨i, hi⟩ := List.getElem?_of_mem hout
  have hclassify := tier2Classify_ok h
  rw [assessments_of_returned h] at hclassify
  obtain ⟨seg, hseg, hclassified⟩ := getElem?_of_forall₂ hclassify.flip hi
  have hmem := List.mem_of_getElem? hseg
  exact allVerified_of_classified (assesses_assessments _ hnum hmem) (hrange seg hmem)
    (classifySegment_ok hclassified)

theorem allVerified_of_enter {deps : VerifierDeps V S} {detector : Option ConflictDetector}
    {rawSegments : List Value} {parsed : List (Segment S)} {r : Tier2Result S}
    (hparsed : parseSegments deps.repr rawSegments = .ok parsed)
    (h : tier2Classify deps.embedder deps.cosine (enter detector contexts parsed) contexts t =
      .ok r) : ∀ seg ∈ r.segments, seg.AllVerified contexts := by
  refine allVerified_of_tier2 (numbered_enter hparsed detector contexts) ?_ h
  intro seg hseg
  rw [enter_eq_map] at hseg
  obtain ⟨before, -, rfl⟩ := List.mem_map.mp hseg
  exact (enterSegment_entered detector contexts before).inRange

end Stages

section Lowered

variable (contexts : List (RetrievedChunk S)) (domainId : String)

/-- An answer that has lost support: some segments no longer cite anything, and some of the
citations of the others are no longer verified. -/
structure Lowered (segments lowered : List (Segment S)) (citations : List (Citation S)) : Prop where
  segments : List.Forall₂ (fun seg seg' => seg' = seg ∨ seg'.citations = []) segments lowered
  citations : List.Forall₂ (fun cite cite' => cite' = cite ∨ cite'.verified ≠ some true)
    (assembleCitations lowered contexts domainId).1 citations

def markerCount (segments : List (Segment S)) : Nat :=
  (segments.map fun seg => seg.citations.length).sum

def citedCount (segments : List (Segment S)) : Nat :=
  segments.countP fun seg => !seg.citations.isEmpty

variable {contexts domainId} {segments lowered : List (Segment S)} {citations : List (Citation S)}

theorem verifiedCount_segment {seg : Segment S} (h : seg.AllVerified contexts) :
    verifiedCount (segmentCitations domainId contexts seg) = seg.citations.length := by
  rw [verifiedCount, segmentCitations, List.countP_filterMap, List.countP_eq_length]
  intro c hc
  obtain ⟨hrange, hverified⟩ := h c hc
  obtain ⟨ctx, hctx⟩ := exists_context hrange
  obtain ⟨a, ha, hverified⟩ := chunkVerified_iff.mp hverified
  simp [hctx, citationOf, ha, hverified]

/-- Of verified segments every marker counts as verified. -/
theorem verifiedCount_assemble (h : ∀ seg ∈ segments, seg.AllVerified contexts) :
    verifiedCount (assembleCitations segments contexts domainId).1 = markerCount segments := by
  rw [assembleCitations, verifiedCount, List.countP_flatMap, markerCount]
  congr 1
  exact List.map_congr_left fun seg hseg => verifiedCount_segment (h seg hseg)

theorem verifiedCount_le_of_unverified {before after : List (Citation S)}
    (h : List.Forall₂ (fun cite cite' => cite' = cite ∨ cite'.verified ≠ some true)
      before after) : verifiedCount after ≤ verifiedCount before := by
  induction h with
  | nil => exact le_rfl
  | cons hcite _ ih =>
    simp only [verifiedCount, List.countP_cons] at ih ⊢
    obtain rfl | hlost := hcite
    · omega
    · simp only [hlost, decide_false, Bool.false_eq_true, if_false]
      omega

theorem Lowered.allVerified (h : Lowered contexts domainId segments lowered citations)
    (hall : ∀ seg ∈ segments, seg.AllVerified contexts) :
    ∀ seg ∈ lowered, seg.AllVerified contexts := by
  intro seg' hseg'
  obtain ⟨i, hi⟩ := List.getElem?_of_mem hseg'
  obtain ⟨seg, hseg, rfl | hempty⟩ := getElem?_of_forall₂ h.segments.flip hi
  · exact hall _ (List.mem_of_getElem? hseg)
  · intro c hc
    rw [hempty] at hc
    cases hc

/-- Less support is fewer markers, fewer segments with a citation and more without one. -/
theorem counts_of_emptied
    (h : List.Forall₂ (fun seg seg' => seg' = seg ∨ seg'.citations = []) segments lowered) :
    markerCount lowered ≤ markerCount segments ∧ citedCount lowered ≤ citedCount segments ∧
      (segments.filter fun seg => seg.citations.isEmpty).length ≤
        (lowered.filter fun seg => seg.citations.isEmpty).length := by
  simp only [← List.countP_eq_length_filter]
  induction h with
  | nil => exact ⟨le_rfl, le_rfl, le_rfl⟩
  | @cons seg seg' _ _ hseg _ ih =>
    simp only [markerCount, citedCount, List.map_cons, List.sum_cons, List.countP_cons] at ih ⊢
    obtain rfl | hempty := hseg
    · omega
    · cases hcites : seg.citations <;> simp [hempty] <;> omega

end Lowered

section Gate

variable [Field S] [LinearOrder S] [IsStrictOrderedRing S]

structure VerifierThresholds.Weighted (t : VerifierThresholds S) : Prop where
  retrieval : 0 ≤ t.weightRetrieval
  verified : 0 ≤ t.weightVerified
  supported : 0 ≤ t.weightSupported
  coverage : 0 ≤ t.weightCoverage
  total : t.weightRetrieval + t.weightVerified + t.weightSupported + t.weightCoverage = 1

/-- The segments that a run of the verifier returns for these contexts, be it along the chat graph or
in one shot. -/
inductive Produced (contexts : List (RetrievedChunk S)) : List (Segment S) → Prop
  | answer {V : Type} (deps : VerifierDeps V S) (detector : Option ConflictDetector)
      (t : VerifierThresholds S) (rawSegments : List Value) (domainId : String)
      (limitations : Value) {r : Verified S} :
      verifyAnswer deps detector t rawSegments contexts domainId limitations = .ok r →
      Produced contexts r.segments
  | oneShot {V : Type} (repr : Value → String) (embedder : Embedder V) (cosine : V → V → S)
      (t : VerifierThresholds S) (rawSegments : List Value) (domainId : String)
      (limitations : Value) {r : VerificationResult S} :
      run repr embedder cosine rawSegments contexts domainId t limitations = .ok r →
      Produced contexts r.segments

def verifiedFraction (segments : List (Segment S)) (citations : List (Citation S)) : S :=
  ratio (verifiedCount citations) (markerCount segments)

def VerifierThresholds.weigh (t : VerifierThresholds S) (retrieval verified supported coverage : S) :
    S :=
  retrieval * t.weightRetrieval + verified * t.weightVerified + supported * t.weightSupported
    + coverage * t.weightCoverage

/-- The weighted sum of `computeConfidence`, not yet clamped. -/
def confidenceScore (segments : List (Segment S)) (citations : List (Citation S))
    (contexts : List (RetrievedChunk S)) (unsupportedRatio : S) (t : VerifierThresholds S) : S :=
  t.weigh (max 0 (min 1 (top1 contexts))) (verifiedFraction segments citations)
    (max 0 (1 - unsupportedRatio)) (ratio (citedCount segments) segments.length)

/-- Gate 2 on segments and their citations. -/
def gate2 (contexts : List (RetrievedChunk S)) (t : VerifierThresholds S)
    (segments : List (Segment S)) (citations : List (Citation S)) : Option Gate2Reason :=
  let unsupportedRatio := (tier3Unsupported segments).2
  evaluateGate2 citations unsupportedRatio
    (computeConfidence segments citations contexts unsupportedRatio t) t

variable {contexts : List (RetrievedChunk S)} {t : VerifierThresholds S} {domainId : String}
  {segments lowered : List (Segment S)} {citations citations' : List (Citation S)}

omit [IsStrictOrderedRing S] in
theorem computeConfidence_eq (segments : List (Segment S)) (citations : List (Citation S))
    (contexts : List (RetrievedChunk S)) (u : S) (t : VerifierThresholds S) :
    computeConfidence segments citations contexts u t =
      max 0 (min 1 (confidenceScore segments citations contexts u t)) := rfl

theorem ratio_nonneg (part whole : Nat) : (0 : S) ≤ ratio part whole := by
  rw [ratio]
  split
  · exact le_rfl
  · exact div_nonneg (Nat.cast_nonneg part) (Nat.cast_nonneg whole)

theorem ratio_mono {part part' : Nat} (h : part ≤ part') (whole : Nat) :
    (ratio part whole : S) ≤ ratio part' whole := by
  rw [ratio, ratio]
  split
  · exact le_rfl
  · exact div_le_div_of_nonneg_right (Nat.cast_le.mpr h) (Nat.cast_nonneg whole)

theorem ratio_le_one {part whole : Nat} (h : part ≤ whole) : (ratio part whole : S) ≤ 1 := by
  rw [ratio]
  split
  · exact zero_le_one
  · exact div_le_one_of_le₀ (Nat.cast_le.mpr h) (Nat.cast_nonneg whole)

/-- When everything counts, a ratio of fewer parts is no larger, whatever its whole. -/
theorem ratio_le_ratio_self {part whole n : Nat} (hpart : part ≤ whole) (hwhole : whole ≤ n) :
    (ratio part whole : S) ≤ ratio n n := by
  rw [ratio, ratio]
  split
  · split
    · exact le_rfl
    · exact div_nonneg (Nat.cast_nonneg n) (Nat.cast_nonneg n)
  · rename_i hne
    have hn : (n : S) ≠ 0 := Nat.cast_ne_zero.mpr (by omega)
    rw [if_neg (by omega), div_self hn]
    exact div_le_one_of_le₀ (Nat.cast_le.mpr hpart) (Nat.cast_nonneg whole)

omit [IsStrictOrderedRing S] in
theorem Produced.allVerified (h : Produced contexts segments) :
    ∀ seg ∈ segments, seg.AllVerified contexts := by
  cases h with
  | answer deps detector t rawSegments domainId limitations h =>
    obtain ⟨parsed, tier2, judged, hparsed, htier2, hjudged, rfl⟩ := exists_of_verifyAnswer h
    intro out hout
    obtain ⟨i, hi⟩ := List.getElem?_of_mem hout
    obtain ⟨seg, hseg, hjudge⟩ := getElem?_of_forall₂ (judgeInference_ok hjudged).flip hi
    have hall := allVerified_of_enter hparsed htier2 seg (List.mem_of_getElem? hseg)
    exact allVerified_of_judged hall hjudge
  | oneShot repr embedder cosine t rawSegments domainId limitations h =>
    obtain ⟨parsed, hparsed, h⟩ := Except.bind_eq_ok_iff.mp h
    obtain ⟨tier2, htier2, h⟩ := Except.bind_eq_ok_iff.mp h
    cases h
    have henter : parsed.map (tier1Segment contexts.length) = enter none contexts parsed := by
      rw [enter_eq_map]
      rfl
    rw [henter] at htier2
    let deps : VerifierDeps _ S := ⟨repr, embedder, cosine, none⟩
    exact allVerified_of_enter (show parseSegments deps.repr rawSegments = _ from hparsed) htier2

section Weights

variable {r v s c r' v' s' c' : S}

theorem weigh_mono (hw : t.Weighted) (hr : r ≤ r') (hv : v ≤ v') (hs : s ≤ s') (hc : c ≤ c') :
    t.weigh r v s c ≤ t.weigh r' v' s' c' := by
  have hretrieval := mul_le_mul_of_nonneg_right hr hw.retrieval
  have hverified := mul_le_mul_of_nonneg_right hv hw.verified
  have hsupported := mul_le_mul_of_nonneg_right hs hw.supported
  have hcoverage := mul_le_mul_of_nonneg_right hc hw.coverage
  rw [VerifierThresholds.weigh, VerifierThresholds.weigh]
  linarith only [hretrieval, hverified, hsupported, hcoverage]

omit [LinearOrder S] [IsStrictOrderedRing S] in
theorem weigh_zero : t.weigh 0 0 0 0 = 0 := by simp [VerifierThresholds.weigh]

omit [IsStrictOrderedRing S] in
theorem weigh_one (hw : t.Weighted) : t.weigh 1 1 1 1 = 1 := by
  simp only [VerifierThresholds.weigh, one_mul]
  exact hw.total

end Weights

omit [LinearOrder S] [IsStrictOrderedRing S] in
theorem verifiedFraction_produced (hall : ∀ seg ∈ segments, seg.AllVerified contexts) :
    (verifiedFraction segments (assembleCitations segments contexts domainId).1 : S) =
      ratio (markerCount segments) (markerCount segments) := by
  rw [verifiedFraction, verifiedCount_assemble hall]

theorem unsupportedRatio_nonneg (segments : List (Segment S)) :
    0 ≤ (tier3Unsupported segments).2 :=
  ratio_nonneg _ _

/-- A convex combination of numbers between 0 and 1 is one of them. -/
theorem confidenceScore_mem (contexts : List (RetrievedChunk S)) (hw : t.Weighted) {u : S}
    (hu : 0 ≤ u) (hfraction : verifiedFraction segments citations ≤ 1) :
    0 ≤ confidenceScore segments citations contexts u t ∧
      confidenceScore segments citations contexts u t ≤ 1 := by
  have hretrieval : max 0 (min 1 (top1 contexts)) ≤ 1 :=
    max_le zero_le_one (min_le_left 1 (top1 contexts))
  have hsupported : max 0 (1 - u) ≤ 1 := max_le zero_le_one (sub_le_self 1 hu)
  constructor
  · rw [← weigh_zero]
    exact weigh_mono hw (le_max_left _ _) (ratio_nonneg _ _) (le_max_left _ _) (ratio_nonneg _ _)
  · rw [← weigh_one hw]
    exact weigh_mono hw hretrieval hfraction hsupported (ratio_le_one List.countP_le_length)

/-- What lowering does to each number that Gate 2 compares. -/
structure Worse (contexts : List (RetrievedChunk S)) (t : VerifierThresholds S)
    (segments lowered : List (Segment S)) (citations citations' : List (Citation S)) : Prop where
  verifiedCount : verifiedCount citations' ≤ verifiedCount citations
  unsupported : (tier3Unsupported segments).2 ≤ (tier3Unsupported lowered).2
  confidence : computeConfidence lowered citations' contexts (tier3Unsupported lowered).2 t ≤
    computeConfidence segments citations contexts (tier3Unsupported segments).2 t

theorem Lowered.worse (hw : t.Weighted) (hall : ∀ seg ∈ segments, seg.AllVerified contexts)
    (h : Lowered contexts domainId segments lowered citations') :
    Worse contexts t segments lowered (assembleCitations segments contexts domainId).1
      citations' := by
  obtain ⟨hmarkers, hcited, hempty⟩ := counts_of_emptied h.segments
  have hlength := h.segments.length_eq
  have hcount : Verifier.verifiedCount citations' ≤ markerCount lowered :=
    (verifiedCount_le_of_unverified h.citations).trans_eq
      (verifiedCount_assemble (h.allVerified hall))
  have hunsupported : (tier3Unsupported segments).2 ≤ ((tier3Unsupported lowered).2 : S) := by
    simp only [tier3Unsupported, List.length_map, ← hlength]
    exact ratio_mono hempty _
  refine ⟨?_, hunsupported, ?_⟩
  · rw [verifiedCount_assemble hall]
    exact hcount.trans hmarkers
  · rw [computeConfidence_eq, computeConfidence_eq]
    refine max_le_max le_rfl (min_le_min le_rfl (weigh_mono hw le_rfl ?_ ?_ ?_))
    · rw [verifiedFraction_produced hall]
      exact ratio_le_ratio_self hcount hmarkers
    · exact max_le_max le_rfl (sub_le_sub_left hunsupported 1)
    · rw [hlength]
      exact ratio_mono hcited _

omit [Field S] [IsStrictOrderedRing S] in
theorem evaluateGate2_eq_none {citations : List (Citation S)} {u confidence : S} :
    evaluateGate2 citations u confidence t = none ↔
      t.minVerifiedCount ≤ verifiedCount citations ∧ u ≤ t.maxUnsupportedRatio ∧
        t.minConfidence ≤ confidence := by
  rw [evaluateGate2]
  split
  · simp; omega
  · split
    · rename_i hlt
      simp [not_le.mpr hlt]
    · split
      · rename_i hlt
        simp [not_le.mpr hlt]
      · simp_all

omit [IsStrictOrderedRing S] in
theorem Worse.gate2 (h : Worse contexts t segments lowered citations citations')
    (hpass : gate2 contexts t lowered citations' = none) :
    gate2 contexts t segments citations = none := by
  obtain ⟨hverified, hunsupported, hconfidence⟩ := evaluateGate2_eq_none.mp hpass
  have hcount := h.verifiedCount
  refine evaluateGate2_eq_none.mpr ⟨?_, h.unsupported.trans hunsupported,
    hconfidence.trans h.confidence⟩
  omega

/-- The terms of the confidence are in range without clamping, and an answer that has lost support
does not pass Gate 2 unless the whole answer does. -/
structure Monotone (contexts : List (RetrievedChunk S)) (t : VerifierThresholds S)
    (domainId : String) (segments : List (Segment S)) (citations : List (Citation S)) : Prop where
  fraction : verifiedFraction segments citations ≤ 1
  score : 0 ≤ confidenceScore segments citations contexts (tier3Unsupported segments).2 t ∧
    confidenceScore segments citations contexts (tier3Unsupported segments).2 t ≤ 1
  unclamped : computeConfidence segments citations contexts (tier3Unsupported segments).2 t =
    confidenceScore segments citations contexts (tier3Unsupported segments).2 t
  failing : gate2 contexts t segments citations ≠ none → ∀ lowered citations',
    Lowered contexts domainId segments lowered citations' →
      gate2 contexts t lowered citations' ≠ none

/-- Gate 2 is monotone in the support of an answer, for all weights that sum to one. -/
theorem gate2_monotone (hw : t.Weighted) (h : Produced contexts segments) (domainId : String) :
    Monotone contexts t domainId segments (assembleCitations segments contexts domainId).1 := by
  have hall := h.allVerified
  have hfraction : verifiedFraction segments (assembleCitations segments contexts domainId).1 ≤
      (1 : S) := by
    rw [verifiedFraction_produced hall]
    exact ratio_le_one le_rfl
  have hscore := confidenceScore_mem contexts hw (unsupportedRatio_nonneg segments) hfraction
  refine ⟨hfraction, hscore, ?_, fun hfails lowered citations' hlowered hpass => hfails ?_⟩
  · rw [computeConfidence_eq, min_eq_right hscore.2, max_eq_right hscore.1]
  · exact (hlowered.worse hw hall).gate2 hpass

end Gate

def leaveContext : RetrievedChunk ℚ where
  chunkId := "c1"
  docId := "rules"
  title := "취업규칙"
  content := "연차는 15일"
  pageNumber := .null
  sectionTitle := .null
  denseScore := 0
  sparseScore := 0
  fusedScore := 9 / 10
  payload := .empty

def verifyLeave : Except Exc (Verified ℚ) :=
  verifyAnswer ⟨fun _ => "", .ofFn fun _ => (), fun _ _ => 4 / 5, none⟩ none (.fromConfig none)
    [.dict [("text", .str "연차는 15일"), ("citations", .list [.int 1])],
      .dict [("text", .str "구내식당은 무료"), ("citations", .list [.int 2])]]
    [leaveContext] "hr" .null

theorem defaults_weighted : (VerifierThresholds.fromConfig none : VerifierThresholds ℚ).Weighted := by
  constructor <;> simp [VerifierThresholds.fromConfig] <;> norm_num

theorem gate2_monotone_leave : ∃ r, verifyLeave = .ok r ∧
    r.segments.map Segment.citations = [[1], []] ∧
    Monotone [leaveContext] (.fromConfig none) "hr" r.segments
      (assembleCitations r.segments [leaveContext] "hr").1 := by
  have hcitations : (fun r => r.segments.map Segment.citations) <$> verifyLeave =
      .ok [[1], []] := by
    decide +kernel
  obtain ⟨r, hr, hcitations⟩ := Except.map_eq_ok_iff.mp hcitations
  exact ⟨r, hr, hcitations, gate2_monotone defaults_weighted (.answer _ _ _ _ _ _ hr) "hr"⟩

end DomainRag.Verifier
