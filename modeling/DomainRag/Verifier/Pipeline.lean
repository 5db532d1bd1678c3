import DomainRag.Verifier.Assemble

/-! # The grounded path

Parsing, Tier 1, the conflict heuristic, Tier 2, the judge and the assembly in the order of the
chat graph, and what each stage can do to one segment.
-/

namespace DomainRag.Verifier

variable {V S : Type}

section Stages

theorem chunkVerified_iff {m : Dict Int (VerifiedCitation S)} {c : Int} :
    chunkVerified m c = true ↔ ∃ a, m.get? c = some a ∧ a.verified = true := by
  rw [chunkVerified]
  cases m.get? c with
  | none => simp only [Bool.false_eq_true, reduceCtorEq, false_and, exists_false]
  | some a => simp only [Option.some.injEq, exists_eq_left']

/-- Conflict groups that Tier 2 accepts. -/
structure GroupsOk (m : Dict Int (VerifiedCitation S)) (groups : Value) : Prop where
  two : ∃ n, groups.len = .ok n ∧ 2 ≤ n
  confirmed : allGroupsOk m groups = .ok true

theorem memberVerified_eq_ok_true {m : Dict Int (VerifiedCitation S)} {v : Value} :
    memberVerified m v = .ok true ↔ ∃ c, v.intKey? = .ok (some c) ∧ chunkVerified m c = true := by
  rw [memberVerified, Except.bind_eq_ok_iff]
  constructor
  · rintro ⟨key, hkey, h⟩
    cases key with
    | none => cases h
    | some c => exact ⟨c, hkey, Except.ok.inj h⟩
  · rintro ⟨c, hkey, h⟩
    exact ⟨some c, hkey, congrArg Except.ok h⟩

theorem groupVerified_eq_ok_true {m : Dict Int (VerifiedCitation S)} {g : Value} :
    groupVerified m g = .ok true ↔ g.truthy = true ∧ ∃ members, g.iter = .ok members ∧
      ∀ v ∈ members, ∃ c, v.intKey? = .ok (some c) ∧ chunkVerified m c = true := by
  rw [groupVerified]
  cases htruthy : g.truthy with
  | false => exact ⟨nofun, nofun⟩
  | true =>
    rw [if_pos rfl, Except.bind_eq_ok_iff]
    simp only [allM_eq_ok_true_iff, memberVerified_eq_ok_true, true_and]

/-- Tier 2 accepts two or more groups of chunks that it has confirmed. -/
theorem groupsOk_iff {m : Dict Int (VerifiedCitation S)} {confirmed : Int → Prop} {groups : Value}
    (hconfirmed : groups.truthy = true → ∀ c, chunkVerified m c = true ↔ confirmed c) :
    GroupsOk m (groups.orElse (.list [])) ↔ ∃ gs, groups.iter = .ok gs ∧ 2 ≤ gs.length ∧
      ∀ g ∈ gs, g.truthy = true ∧ ∃ members, g.iter = .ok members ∧
        ∀ v ∈ members, ∃ c, v.intKey? = .ok (some c) ∧ confirmed c := by
  cases htruthy : groups.truthy with
  | false =>
    constructor
    · rintro ⟨⟨n, hlen, hn⟩, -⟩
      rw [Value.orElse, htruthy] at hlen
      cases hlen
      exact absurd hn (by decide)
    · rintro ⟨gs, hiter, htwo, -⟩
      have hlen := Value.len_eq_ok_iff.mpr ⟨gs, hiter, rfl⟩
      rw [Value.truthy_of_len_pos hlen (by omega)] at htruthy
      cases htruthy
  | true =>
    have hsame : groups.orElse (.list []) = groups := by
      rw [Value.orElse, if_pos htruthy]
    rw [hsame]
    simp only [← hconfirmed htruthy]
    constructor
    · rintro ⟨⟨n, hlen, hn⟩, hok⟩
      obtain ⟨gs, hiter, rfl⟩ := Value.len_eq_ok_iff.mp hlen
      obtain ⟨gs', hiter', hall⟩ := Except.bind_eq_ok_iff.mp hok
      obtain rfl : gs = gs' := Except.ok.inj (hiter.symm.trans hiter')
      exact ⟨gs, hiter, hn, fun g hg =>
        groupVerified_eq_ok_true.mp (allM_eq_ok_true_iff.mp hall g hg)⟩
    · rintro ⟨gs, hiter, htwo, hall⟩
      refine ⟨⟨gs.length, Value.len_eq_ok_iff.mpr ⟨gs, hiter, rfl⟩, htwo⟩, ?_⟩
      refine Except.bind_eq_ok_iff.mpr ⟨gs, hiter, allM_eq_ok_true_iff.mpr fun g hg => ?_⟩
      exact groupVerified_eq_ok_true.mpr (hall g hg)

theorem compared_of_groups {t : VerifierThresholds S} {seg : Segment S}
    (hconflict : seg.supportType = .conflict)
    (h : seg.conflictGroups.truthy = true) : seg.compared t = true := by
  rw [Segment.compared, hconflict]
  exact h

theorem classifyConflict_of_groupsOk {m : Dict Int (VerifiedCitation S)} {seg : Segment S}
    (h : GroupsOk m (seg.conflictGroups.orElse (.list []))) : classifyConflict m seg =
      .ok { seg with citationMeta := m.pick VerifiedCitation.capped seg.citations } := by
  obtain ⟨⟨n, hlen, hn⟩, hok⟩ := h
  simp only [classifyConflict, hlen, hok, bind, Except.bind, if_neg (not_lt.mpr hn)]
  rfl

theorem capped_supportLevel (a : VerifiedCitation S) :
    a.capped.supportLevel = .weak ↔ a.supportLevel = .weak := by
  cases h : a.supportLevel <;> simp [VerifiedCitation.capped, h]

/-- Everything that Tier 2 can make of a segment. -/
inductive Classified (t : VerifierThresholds S) (m : Dict Int (VerifiedCitation S))
    (seg : Segment S) : Segment S → Prop
  | downgraded (reason : DowngradeReason) (citationMeta : Dict Int (VerifiedCitation S)) :
      Classified t m seg (seg.downgrade reason citationMeta)
  | conflict : seg.supportType = .conflict → GroupsOk m (seg.conflictGroups.orElse (.list [])) →
      Classified t m seg { seg with citationMeta := m.pick VerifiedCitation.capped seg.citations }
  | pending : seg.supportType = .inference → t.inferenceJudgeEnabled = true →
      (∀ c ∈ seg.citations, chunkVerified m c = true) →
      Classified t m seg { seg with citationMeta := m.pick id seg.citations, pendingJudge := true }
  | kept : seg.supportType ≠ .conflict → seg.supportType ≠ .inference →
      Classified t m seg (dropWeak m seg)

theorem classifyConflict_ok {t : VerifierThresholds S} {m : Dict Int (VerifiedCitation S)}
    {seg out : Segment S} (htype : seg.supportType = .conflict)
    (h : classifyConflict m seg = .ok out) : Classified t m seg out := by
  obtain ⟨n, hlen, h⟩ := Except.bind_eq_ok_iff.mp h
  split at h
  · cases h
    exact .downgraded _ _
  · rename_i htwo
    obtain ⟨ok, hgroups, h⟩ := Except.bind_eq_ok_iff.mp h
    cases ok with
    | false =>
      cases h
      exact .downgraded _ _
    | true =>
      cases h
      exact .conflict htype ⟨⟨n, hlen, not_lt.mp htwo⟩, hgroups⟩

theorem classifyInference_spec {t : VerifierThresholds S} {m : Dict Int (VerifiedCitation S)}
    {seg : Segment S} (htype : seg.supportType = .inference) :
    Classified t m seg (classifyInference t m seg) := by
  rw [classifyInference]
  split
  · exact .downgraded _ _
  · rename_i henabled
    split
    · exact .downgraded _ _
    · rename_i hall
      simp only [allCitationsVerified, Bool.not_eq_true', Bool.not_eq_false, Bool.and_eq_true,
        List.all_eq_true] at hall henabled
      exact .pending htype henabled hall.2

theorem classifySegment_ok {t : VerifierThresholds S} {m : Dict Int (VerifiedCitation S)}
    {seg out : Segment S} (h : classifySegment t m seg = .ok out) : Classified t m seg out := by
  rw [classifySegment] at h
  cases htype : seg.supportType with
  | conflict =>
    rw [htype] at h
    exact classifyConflict_ok htype h
  | inference =>
    rw [htype] at h
    cases h
    exact classifyInference_spec htype
  | synthesis =>
    rw [htype] at h
    rw [← Except.ok.inj h]
    split
    · exact .downgraded _ _
    · exact .kept (by rw [htype]; nofun) (by rw [htype]; nofun)
  | direct | other raw =>
    rw [htype] at h
    cases h
    exact .kept (by rw [htype]; nofun) (by rw [htype]; nofun)

/-- Only segments whose citations are all confirmed go to the judge. -/
def PendingVerified (seg : Segment S) : Prop :=
  seg.pendingJudge = true → ∀ c ∈ seg.citations, chunkVerified seg.citationMeta c = true

theorem pendingVerified_of_classified {t : VerifierThresholds S}
    {m : Dict Int (VerifiedCitation S)} {seg out : Segment S} (h : Classified t m seg out)
    (hfresh : seg.pendingJudge = false) : PendingVerified out := by
  cases h with
  | pending htype henabled hall =>
    intro _ c hc
    obtain ⟨a, ha, hverified⟩ := chunkVerified_iff.mp (hall c hc)
    exact chunkVerified_iff.mpr ⟨a, by rw [Dict.get?_pick, if_pos hc, ha]; rfl, hverified⟩
  | downgraded | conflict | kept =>
    intro hpending
    exact absurd (hfresh.symm.trans hpending) nofun

section Judged

variable [LE S] [DecidableLE S]

structure JudgePassed (service : JudgeService S) (contexts : List (RetrievedChunk S))
    (seg : Segment S) (call : JudgeCall S) : Prop where
  segmentIndex : call.segmentIndex = seg.index
  request : call.request = judgeRequest contexts seg
  answered : service.judge seg.index call.request = .ok call.result
  parseOk : call.result.parseOk = true
  passes : call.result.passes service.minConfidence = true

/-- Everything that the judge stage can make of a segment. -/
inductive Judged (service : JudgeService S) (contexts : List (RetrievedChunk S))
    (seg : Segment S) : Segment S × Option (JudgeCall S) → Prop
  | skipped : seg.pendingJudge = false → Judged service contexts seg (seg, none)
  | passed (call : JudgeCall S) : seg.pendingJudge = true →
      JudgePassed service contexts seg call →
      Judged service contexts seg
        (applyJudgeResult seg true call.result.reasoning call.result.caveat, some call)
  | rejected (call : JudgeCall S) : seg.pendingJudge = true →
      Judged service contexts seg
        (applyJudgeResult seg false call.result.reasoning call.result.caveat, some call)

theorem judgeSegment_ok {service : JudgeService S} {contexts : List (RetrievedChunk S)}
    {seg : Segment S} {out : Segment S × Option (JudgeCall S)}
    (h : judgeSegment service contexts seg = .ok out) : Judged service contexts seg out := by
  rw [judgeSegment] at h
  cases hpending : seg.pendingJudge with
  | false =>
    rw [hpending] at h
    cases h
    exact .skipped hpending
  | true =>
    rw [hpending] at h
    obtain ⟨result, hresult, h⟩ := Except.bind_eq_ok_iff.mp h
    cases h
    cases hpasses : result.parseOk && result.passes service.minConfidence with
    | false => exact .rejected ⟨seg.index, judgeRequest contexts seg, result⟩ hpending
    | true =>
      obtain ⟨hparse, hpass⟩ := Bool.and_eq_true_iff.mp hpasses
      exact .passed ⟨seg.index, judgeRequest contexts seg, result⟩ hpending
        ⟨rfl, rfl, hresult, hparse, hpass⟩

end Judged

end Stages

section Enter

def enterSegment (detector : Option ConflictDetector) (contexts : List (RetrievedChunk S))
    (seg : Segment S) : Segment S :=
  heuristicSegment detector contexts (tier1Segment contexts.length seg)

def enter (detector : Option ConflictDetector) (contexts : List (RetrievedChunk S))
    (segments : List (Segment S)) : List (Segment S) :=
  detectConflictHeuristic detector contexts (tier1Filter segments contexts.length).1

theorem enter_eq_map (detector : Option ConflictDetector) (contexts : List (RetrievedChunk S))
    (segments : List (Segment S)) :
    enter detector contexts segments = segments.map (enterSegment detector contexts) := by
  simp only [enter, detectConflictHeuristic, tier1Filter, List.map_map]
  rfl

/-- Entering Tier 2 changes the citations, the type and the groups of a segment, and its
citations all name a context. -/
structure Entered (contexts : List (RetrievedChunk S)) (seg out : Segment S) : Prop where
  index : out.index = seg.index
  text : out.text = seg.text
  inRange : ∀ c ∈ out.citations, inRange contexts.length c = true
  citationMeta : out.citationMeta = seg.citationMeta
  downgraded : out.downgraded = seg.downgraded
  pendingJudge : out.pendingJudge = seg.pendingJudge

theorem enterSegment_entered (detector : Option ConflictDetector)
    (contexts : List (RetrievedChunk S)) (seg : Segment S) :
    Entered contexts seg (enterSegment detector contexts seg) := by
  have hinRange : ∀ c ∈ (tier1Segment contexts.length seg).citations,
      Verifier.inRange contexts.length c = true := fun c hc => (List.mem_filter.mp hc).2
  obtain h | ⟨d, detection, -, -, h⟩ :=
    heuristicSegment_cases detector contexts (tier1Segment contexts.length seg)
  · rw [enterSegment, h]
    exact ⟨rfl, rfl, hinRange, rfl, rfl, rfl⟩
  · rw [enterSegment, h]
    exact ⟨rfl, rfl, hinRange, rfl, rfl, rfl⟩

end Enter

theorem parseSegments_ok {repr : Value → String} {rawSegments : List Value}
    {parsed : List (Segment S)} (h : parseSegments repr rawSegments = .ok parsed) :
    List.Forall₂ (fun raw seg => parseSegment repr raw.2 raw.1 = .ok seg) rawSegments.zipIdx
      parsed :=
  mapM_eq_ok_iff.mp h

section Path

variable [LinearOrder S]

/-- What the judge stage made of a segment, whether or not there is a judge; `calls` are all
calls of the stage. -/
def AfterJudge (service : Option (JudgeService S)) (contexts : List (RetrievedChunk S))
    (calls : List (JudgeCall S)) (seg out : Segment S) : Prop :=
  match service with
  | none => out = seg
  | some service => ∃ call, Judged service contexts seg (out, call) ∧ ∀ c ∈ call, c ∈ calls

theorem judgeInference_ok {service : Option (JudgeService S)}
    {contexts : List (RetrievedChunk S)} {segments : List (Segment S)}
    {out : List (Segment S) × List (JudgeCall S)}
    (h : judgeInference service contexts segments = .ok out) :
    List.Forall₂ (AfterJudge service contexts out.2) segments out.1 := by
  cases service with
  | none =>
    cases h
    exact List.forall₂_same.mpr fun seg _ => rfl
  | some service =>
    obtain ⟨judged, hjudged, h⟩ := Except.bind_eq_ok_iff.mp h
    cases h
    rw [List.forall₂_map_right_iff]
    have hsteps := mapM_eq_ok_iff.mp hjudged
    rw [List.forall₂_iff_get] at hsteps ⊢
    refine ⟨hsteps.1, fun i hi hi' => ⟨(judged.get ⟨i, hi'⟩).2, ?_, fun c hc => ?_⟩⟩
    · exact judgeSegment_ok (hsteps.2 i hi hi')
    · exact List.mem_filterMap.mpr ⟨judged.get ⟨i, hi'⟩, List.get_mem _ _, hc⟩

theorem afterJudge_not_pending {service : Option (JudgeService S)}
    {contexts : List (RetrievedChunk S)} {calls : List (JudgeCall S)} {seg out : Segment S}
    (h : AfterJudge service contexts calls seg out) (hp : seg.pendingJudge = false) :
    out = seg := by
  cases service with
  | none => exact h
  | some service =>
    obtain ⟨call, hjudged, -⟩ := h
    cases hjudged with
    | skipped _ => rfl
    | passed call hp' _ => exact absurd (hp.symm.trans hp') nofun
    | rejected call hp' => exact absurd (hp.symm.trans hp') nofun

structure VerifierDeps (V S : Type) where
  repr : Value → String
  embedder : Embedder V
  cosine : V → V → S
  judgeService : Option (JudgeService S)

/-- The outcome of the grounded path. -/
structure Verified (S : Type) where
  segments : List (Segment S)
  judgeCalls : List (JudgeCall S)
  citations : List (Citation S)
  limitations : Value

/-- The way of the raw segment at one place through the stages. -/
structure SegmentTrace (deps : VerifierDeps V S) (detector : Option ConflictDetector)
    (t : VerifierThresholds S) (contexts : List (RetrievedChunk S))
    (as : List (VerifiedCitation S)) (calls : List (JudgeCall S)) (i : Nat) (raw : Value)
    (seg classified out : Segment S) : Prop where
  parse : parseSegment deps.repr i raw = .ok seg
  tier2 : classifySegment t (assessMap as i) (enterSegment detector contexts seg) = .ok classified
  judge : AfterJudge deps.judgeService contexts calls classified out

/-- A run of the grounded path that returns: all segments have gone through the stages, each at
its place. -/
structure VerifiedRun (deps : VerifierDeps V S) (detector : Option ConflictDetector)
    (t : VerifierThresholds S) (rawSegments : List Value) (contexts : List (RetrievedChunk S))
    (domainId : String) (limitations : Value) (parsed : List (Segment S))
    (as : List (VerifiedCitation S)) (r : Verified S) : Prop where
  lengths : parsed.length = rawSegments.length ∧ r.segments.length = rawSegments.length
  trace : ∀ i raw seg out, rawSegments[i]? = some raw → parsed[i]? = some seg →
    r.segments[i]? = some out → ∃ classified,
      SegmentTrace deps detector t contexts as r.judgeCalls i raw seg classified out
  citations : r.citations = r.segments.flatMap (segmentCitations domainId contexts)
  limitations : r.limitations = mergeLimitations deps.repr r.segments limitations

/-- Every place of a run has its raw, its parsed and its final segment. -/
theorem VerifiedRun.at {deps : VerifierDeps V S} {detector : Option ConflictDetector}
    {t : VerifierThresholds S} {rawSegments : List Value} {contexts : List (RetrievedChunk S)}
    {domainId : String} {limitations : Value} {parsed : List (Segment S)}
    {as : List (VerifiedCitation S)} {r : Verified S}
    (hrun : VerifiedRun deps detector t rawSegments contexts domainId limitations parsed as r)
    {i : Nat} (hi : i < rawSegments.length) : ∃ raw seg classified out,
      rawSegments[i]? = some raw ∧ parsed[i]? = some seg ∧ r.segments[i]? = some out ∧
      SegmentTrace deps detector t contexts as r.judgeCalls i raw seg classified out := by
  have hparsed : i < parsed.length := hrun.lengths.1.symm ▸ hi
  have hout : i < r.segments.length := hrun.lengths.2.symm ▸ hi
  obtain ⟨classified, htrace⟩ := hrun.trace i rawSegments[i] parsed[i] r.segments[i]
    (List.getElem?_eq_getElem hi) (List.getElem?_eq_getElem hparsed)
    (List.getElem?_eq_getElem hout)
  exact ⟨_, _, classified, _, List.getElem?_eq_getElem hi, List.getElem?_eq_getElem hparsed,
    List.getElem?_eq_getElem hout, htrace⟩

variable [Zero S] [Add S] [Div S] [NatCast S]

theorem tier2Classify_ok {embedder : Embedder V} {cosine : V → V → S}
    {segments : List (Segment S)} {contexts : List (RetrievedChunk S)}
    {t : VerifierThresholds S} {r : Tier2Result S}
    (h : tier2Classify embedder cosine segments contexts t = .ok r) :
    List.Forall₂ (fun seg out =>
      classifySegment t (assessMap r.assessments seg.index) seg = .ok out) segments r.segments := by
  obtain ⟨embeddings, -, h⟩ := Except.bind_eq_ok_iff.mp h
  obtain ⟨as, -, h⟩ := Except.bind_eq_ok_iff.mp h
  obtain ⟨segs, hsegs, h⟩ := Except.bind_eq_ok_iff.mp h
  cases h
  exact mapM_eq_ok_iff.mp hsegs

def verifyAnswer (deps : VerifierDeps V S) (detector : Option ConflictDetector)
    (t : VerifierThresholds S) (rawSegments : List Value) (contexts : List (RetrievedChunk S))
    (domainId : String) (limitations : Value) : Except Exc (Verified S) := do
  let parsed ← parseSegments deps.repr rawSegments
  let tier2 ← tier2Classify deps.embedder deps.cosine (enter detector contexts parsed) contexts t
  let judged ← judgeInference deps.judgeService contexts tier2.segments
  return {
    segments := judged.1
    judgeCalls := judged.2
    citations := (assembleCitations judged.1 contexts domainId).1
    limitations := mergeLimitations deps.repr judged.1 limitations }

/-- An answer that is returned has come through all stages. -/
theorem exists_of_verifyAnswer {deps : VerifierDeps V S} {detector : Option ConflictDetector}
    {t : VerifierThresholds S} {rawSegments : List Value} {contexts : List (RetrievedChunk S)}
    {domainId : String} {limitations : Value} {r : Verified S}
    (h : verifyAnswer deps detector t rawSegments contexts domainId limitations = .ok r) :
    ∃ parsed tier2 judged, parseSegments deps.repr rawSegments = .ok parsed ∧
      tier2Classify deps.embedder deps.cosine (enter detector contexts parsed) contexts t =
        .ok tier2 ∧
      judgeInference deps.judgeService contexts tier2.segments = .ok judged ∧
      r = { segments := judged.1
            judgeCalls := judged.2
            citations := (assembleCitations judged.1 contexts domainId).1
            limitations := mergeLimitations deps.repr judged.1 limitations } := by
  obtain ⟨parsed, hparsed, h⟩ := Except.bind_eq_ok_iff.mp h
  obtain ⟨tier2, htier2, h⟩ := Except.bind_eq_ok_iff.mp h
  obtain ⟨judged, hjudged, h⟩ := Except.bind_eq_ok_iff.mp h
  cases h
  exact ⟨parsed, tier2, judged, hparsed, htier2, hjudged, rfl⟩

theorem verifyAnswer_ok {deps : VerifierDeps V S} {detector : Option ConflictDetector}
    {t : VerifierThresholds S} {rawSegments : List Value} {contexts : List (RetrievedChunk S)}
    {domainId : String} {limitations : Value} {r : Verified S}
    (h : verifyAnswer deps detector t rawSegments contexts domainId limitations = .ok r) :
    ∃ parsed tier2, parseSegments deps.repr rawSegments = .ok parsed ∧
      tier2Classify deps.embedder deps.cosine (enter detector contexts parsed) contexts t =
        .ok tier2 ∧
      VerifiedRun deps detector t rawSegments contexts domainId limitations parsed
        tier2.assessments r := by
  obtain ⟨parsed, tier2, judged, hparsed, htier2, hjudged, rfl⟩ := exists_of_verifyAnswer h
  have hparse := parseSegments_ok hparsed
  have hclassify := tier2Classify_ok htier2
  rw [enter_eq_map, List.forall₂_map_left_iff] at hclassify
  have hjudge := judgeInference_ok hjudged
  have hlength : parsed.length = rawSegments.length := by
    rw [← hparse.length_eq, List.length_zipIdx]
  refine ⟨parsed, tier2, hparsed, htier2, ⟨hlength, ?_⟩, ?_, rfl, rfl⟩
  · rw [← hjudge.length_eq, ← hclassify.length_eq, hlength]
  · intro i raw seg out hraw hseg hout
    have hzip : rawSegments.zipIdx[i]? = some (raw, i) := by
      rw [List.getElem?_zipIdx, hraw, zero_add]
      rfl
    obtain ⟨seg', hseg', hp⟩ := getElem?_of_forall₂ hparse hzip
    obtain ⟨classified, hcl, hc⟩ := getElem?_of_forall₂ hclassify hseg
    obtain ⟨out', hout', hj⟩ := getElem?_of_forall₂ hjudge hcl
    obtain rfl : seg' = seg := Option.some.inj (hseg'.symm.trans hseg)
    obtain rfl : out' = out := Option.some.inj (hout'.symm.trans hout)
    have hindex : (enterSegment detector contexts seg').index = i :=
      (enterSegment_entered detector contexts seg').index.trans (parseSegment_ok hp).1
    rw [hindex] at hc
    exact ⟨classified, hp, hc, hj⟩

end Path

end DomainRag.Verifier
