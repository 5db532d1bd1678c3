import DomainRag.Lib.Shape
import DomainRag.Verifier.Config
import DomainRag.Verifier.Soundness

/-! # When the grounded path returns

The LLM may write anything into a segment. Two stages look into it without checking first: the
parser calls methods of each segment and goes through its citations, and Tier 2 goes through
the conflict groups of a segment that the LLM marked as a conflict. What a segment has to look
like for both to return is stated here on the raw JSON.
-/

namespace DomainRag

namespace Verifier

variable {V S : Type}

section Reading

/-- A segment that the parser can read. -/
structure Readable (raw : Value) : Prop where
  object : ∃ kvs, raw = .dict kvs
  citations : ((raw.entries.lookup "citations").getD .null).Loops

def listed (v : Value) : List Value :=
  match (v.orElse (.list [])).iter with
  | .ok vs => vs
  | .error _ => []

def readSegment (repr : Value → String) (i : Nat) (raw : Value) : Segment S where
  index := i
  text := ((raw.entries.lookup "text").getD (.str "")).text repr
  citations := (listed ((raw.entries.lookup "citations").getD .null)).filterMap isInt?
  supportType := .ofRaw (((raw.entries.lookup "support_type").getD .null).orElse
    (((raw.entries.lookup "citation_type").getD .null).orElse (.str "direct")))
  inferenceChain := (raw.entries.lookup "inference_chain").getD .null
  conflictGroups := (raw.entries.lookup "conflict_groups").getD .null

def readSegments (repr : Value → String) (rawSegments : List Value) : List (Segment S) :=
  rawSegments.zipIdx.map fun raw => readSegment repr raw.2 raw.1

theorem parseSegment_of_readable {repr : Value → String} {raw : Value} (h : Readable raw)
    (i : Nat) : parseSegment (S := S) repr i raw = .ok (readSegment repr i raw) := by
  obtain ⟨⟨kvs, rfl⟩, hcitations⟩ := h
  obtain ⟨vs, hvs⟩ := Value.loops_iff.mp hcitations
  have hlisted : listed (((Value.dict kvs).entries.lookup "citations").getD .null) = vs := by
    rw [listed, hvs]
  rw [readSegment, hlisted]
  simp only [Value.entries] at hvs ⊢
  simp only [parseSegment, Value.get, normalizeSupportType, bind, Except.bind, hvs, pure,
    Except.pure]

theorem readable_of_parseSegment {repr : Value → String} {i : Nat} {raw : Value}
    {seg : Segment S} (h : parseSegment repr i raw = .ok seg) : Readable raw := by
  cases raw with
  | dict kvs =>
    refine ⟨⟨kvs, rfl⟩, Value.loops_iff.mpr ?_⟩
    obtain ⟨text, -, h⟩ := Except.bind_eq_ok_iff.mp h
    obtain ⟨found, hfound, h⟩ := Except.bind_eq_ok_iff.mp h
    obtain ⟨vs, hvs, -⟩ := Except.bind_eq_ok_iff.mp h
    cases hfound
    exact ⟨vs, hvs⟩
  | null | bool _ | int _ | float _ | str _ | list _ => cases h

theorem parseSegments_of_readable {repr : Value → String} {rawSegments : List Value}
    (h : ∀ raw ∈ rawSegments, Readable raw) :
    parseSegments (S := S) repr rawSegments = .ok (readSegments repr rawSegments) := by
  rw [parseSegments, readSegments, mapM_eq_ok_iff, List.forall₂_map_right_iff, List.forall₂_same]
  intro raw hraw
  exact parseSegment_of_readable (h raw.1 (List.fst_mem_of_mem_zipIdx hraw)) raw.2

theorem returns_parseSegments_iff {repr : Value → String} {rawSegments : List Value} :
    Returns (parseSegments (S := S) repr rawSegments) ↔ ∀ raw ∈ rawSegments, Readable raw := by
  constructor
  · intro h raw hraw
    obtain ⟨i, hi, rfl⟩ := List.mem_iff_getElem.mp hraw
    have hzip : (rawSegments[i], i) ∈ rawSegments.zipIdx :=
      List.mk_mem_zipIdx_iff_getElem?.mpr (List.getElem?_eq_getElem hi)
    obtain ⟨seg, hseg⟩ := returns_mapM_iff.mp h _ hzip
    exact readable_of_parseSegment hseg
  · exact fun h => ⟨_, parseSegments_of_readable h⟩

end Reading

section Groups

variable (confirmed : Int → Prop)

/-- The value is the number of a confirmed chunk. -/
def NamesConfirmed (v : Value) : Prop := ∃ c, v.intKey? = .ok (some c) ∧ confirmed c

structure GroupConfirmed (g : Value) : Prop where
  truthy : g.truthy = true
  members : ∃ members, g.iter = .ok members ∧ ∀ v ∈ members, NamesConfirmed confirmed v

/-- No list and no object among the members of the group, up to the first that names no
confirmed chunk. -/
def SafeGroup (g : Value) : Prop :=
  g.truthy = true → ∃ members, g.iter = .ok members ∧
    UpTo (NamesConfirmed confirmed) Value.Hashable members

/-- Conflict groups that Tier 2 can look through: it counts them, and if there are two or more
it reads one after the other as long as they are confirmed. -/
def SafeGroups (groups : Value) : Prop :=
  groups.truthy = true → ∃ gs, groups.iter = .ok gs ∧
    (2 ≤ gs.length → UpTo (GroupConfirmed confirmed) (SafeGroup confirmed) gs)

variable {confirmed}

theorem SafeGroups.congr {confirmed' : Int → Prop} {groups : Value}
    (h : groups.truthy = true → ∀ c, confirmed c ↔ confirmed' c) :
    SafeGroups confirmed groups ↔ SafeGroups confirmed' groups := by
  refine forall_congr' fun htruthy => ?_
  obtain rfl : confirmed = confirmed' := funext fun c => propext (h htruthy c)
  rfl

variable {m : Dict Int (VerifiedCitation S)}

theorem returns_memberVerified_iff {v : Value} : Returns (memberVerified m v) ↔ v.Hashable := by
  rw [memberVerified, returns_bind_iff]
  refine exists_congr fun key => and_iff_left ?_
  cases key <;> exact returns_ok _

theorem groupVerified_iff {g : Value} : groupVerified m g = .ok true ↔
    GroupConfirmed (fun c => chunkVerified m c = true) g := by
  rw [groupVerified_eq_ok_true]
  exact ⟨fun h => ⟨h.1, h.2⟩, fun h => ⟨h.truthy, h.members⟩⟩

theorem returns_groupVerified_iff {g : Value} : Returns (groupVerified m g) ↔
    SafeGroup (fun c => chunkVerified m c = true) g := by
  rw [groupVerified, SafeGroup]
  cases g.truthy with
  | false => exact iff_of_true (returns_ok false) (by simp)
  | true =>
    rw [if_pos rfl, returns_bind_iff, eq_self, forall_true_left]
    refine exists_congr fun members => and_congr_right fun _ => returns_allM_iff.trans ?_
    exact UpTo.congr (fun v => memberVerified_eq_ok_true) (fun v => returns_memberVerified_iff) _

theorem returns_classifyConflict_iff {seg : Segment S} : Returns (classifyConflict m seg) ↔
    SafeGroups (fun c => chunkVerified m c = true) seg.conflictGroups := by
  rw [classifyConflict, SafeGroups, Value.orElse, returns_bind_iff]
  cases seg.conflictGroups.truthy with
  | false => exact iff_of_true ⟨0, rfl, returns_ok _⟩ (by simp)
  | true =>
    rw [if_pos rfl, eq_self, forall_true_left]
    have hgroups : ∀ gs, seg.conflictGroups.iter = .ok gs →
        (Returns (allGroupsOk m seg.conflictGroups) ↔
          UpTo (GroupConfirmed fun c => chunkVerified m c = true)
            (SafeGroup fun c => chunkVerified m c = true) gs) := by
      intro gs hgs
      rw [allGroupsOk, hgs]
      refine returns_allM_iff.trans ?_
      exact UpTo.congr (fun g => groupVerified_iff) (fun g => returns_groupVerified_iff) _
    constructor
    · rintro ⟨n, hlen, h⟩
      obtain ⟨gs, hgs, rfl⟩ := Value.len_eq_ok_iff.mp hlen
      refine ⟨gs, hgs, fun htwo => (hgroups gs hgs).mp ?_⟩
      rw [if_neg (not_lt.mpr htwo)] at h
      obtain ⟨ok, hok, -⟩ := returns_bind_iff.mp h
      exact ⟨ok, hok⟩
    · rintro ⟨gs, hgs, hsafe⟩
      refine ⟨gs.length, Value.len_eq_ok_iff.mpr ⟨gs, hgs, rfl⟩, ?_⟩
      by_cases htwo : 2 ≤ gs.length
      · rw [if_neg (not_lt.mpr htwo), returns_bind_iff]
        obtain ⟨ok, hok⟩ := (hgroups gs hgs).mpr (hsafe htwo)
        refine ⟨ok, hok, ?_⟩
        cases ok <;> exact returns_ok _
      · rw [if_pos (not_le.mp htwo)]
        exact returns_ok _

theorem returns_classifySegment_iff {t : VerifierThresholds S} {seg : Segment S} :
    Returns (classifySegment t m seg) ↔ (seg.supportType = .conflict →
      SafeGroups (fun c => chunkVerified m c = true) seg.conflictGroups) := by
  rw [classifySegment]
  cases seg.supportType with
  | conflict => exact returns_classifyConflict_iff.trans ⟨fun h _ => h, fun h => h rfl⟩
  | direct | synthesis | inference | other _ => exact iff_of_true (returns_ok _) (by simp)

/-- The groups that the heuristic writes can always be looked through. -/
theorem safeGroups_groupsValue (groups : List (List Int)) :
    SafeGroups confirmed (groupsValue groups) := by
  refine fun _ => ⟨_, rfl, fun _ front g back hgs _ => ?_⟩
  have hg : g ∈ groups.map fun g => Value.list (g.map Value.int) :=
    hgs ▸ List.mem_append_right front List.mem_cons_self
  obtain ⟨cs, -, rfl⟩ := List.mem_map.mp hg
  refine fun _ => ⟨_, rfl, fun front v back hvs _ => ?_⟩
  have hv : v ∈ cs.map Value.int := hvs ▸ List.mem_append_right front List.mem_cons_self
  obtain ⟨c, -, rfl⟩ := List.mem_map.mp hv
  exact ⟨_, rfl⟩

end Groups

section Enter

variable {detector : Option ConflictDetector} {contexts : List (RetrievedChunk S)}
  {seg : Segment S}

theorem enterSegment_kept :
    (enterSegment detector contexts seg).citations =
        seg.citations.filter (inRange contexts.length) ∧
      (enterSegment detector contexts seg).inferenceChain = seg.inferenceChain := by
  obtain h | ⟨d, detection, -, -, h⟩ :=
    heuristicSegment_cases detector contexts (tier1Segment contexts.length seg)
  · rw [enterSegment, h]
    exact ⟨rfl, rfl⟩
  · rw [enterSegment, h]
    exact ⟨rfl, rfl⟩

theorem contextAt_eq_none {c : Int} (h : ¬ inRange contexts.length c = true) :
    contextAt contexts c = none := by
  rw [contextAt, if_neg h]

theorem judgeRequest_enterSegment [LE S] [DecidableLE S] :
    judgeRequest contexts (enterSegment detector contexts seg) = judgeRequest contexts seg := by
  have hchunks : (seg.citations.filter (inRange contexts.length)).filterMap (contextAt contexts) =
      seg.citations.filterMap (contextAt contexts) := by
    rw [List.filterMap_filter]
    refine List.filterMap_congr fun c _ => ?_
    split
    · rfl
    · rename_i h
      exact (contextAt_eq_none h).symm
  rw [judgeRequest, judgeRequest, enterSegment_kept.1, hchunks, enterSegment_kept.2,
    (enterSegment_entered detector contexts seg).text]

/-- The detector leaves a segment alone that the LLM marked as a conflict. -/
theorem detectInSegment_of_conflict (d : ConflictDetector) (h : seg.supportType = .conflict) :
    d.detectInSegment seg contexts = none := by
  simp only [ConflictDetector.detectInSegment, h, SupportType.isConflict, Bool.or_true,
    Bool.true_or, if_true]

theorem safe_enterSegment_iff {confirmed : Int → Prop} :
    ((enterSegment detector contexts seg).supportType = .conflict →
      SafeGroups confirmed (enterSegment detector contexts seg).conflictGroups) ↔
    (seg.supportType = .conflict → SafeGroups confirmed seg.conflictGroups) := by
  obtain h | ⟨d, detection, -, hdetect, h⟩ :=
    heuristicSegment_cases detector contexts (tier1Segment contexts.length seg)
  · rw [enterSegment, h]
    rfl
  · rw [enterSegment, h]
    constructor
    · intro _ hconflict
      have hnone : d.detectInSegment (tier1Segment contexts.length seg) contexts = none :=
        detectInSegment_of_conflict d hconflict
      cases hnone.symm.trans hdetect
    · exact fun _ _ => safeGroups_groupsValue _

end Enter

section Confirmed

variable [LinearOrder S] (sim : String → String → S) (t : VerifierThresholds S)
  (contexts : List (RetrievedChunk S))

/-- The segment cites a chunk whose similarity reaches one of the thresholds. -/
def Confirmed (seg : Segment S) (c : Int) : Prop :=
  c ∈ seg.citations ∧ ∃ s, citedSim sim contexts seg c = some s ∧
    (t.strongThreshold ≤ s ∨ t.mediumThreshold ≤ s)

/-- An inference that goes on to the judge: the judge is switched on, the heuristic does not
retype the segment, and it cites contexts all of which are confirmed. -/
structure AwaitsJudge (detector : Option ConflictDetector) (seg : Segment S) : Prop where
  enabled : t.inferenceJudgeEnabled = true
  inference : (enterSegment detector contexts seg).supportType = .inference
  cited : (tier1Segment contexts.length seg).citations ≠ []
  confirmed : ∀ c ∈ (tier1Segment contexts.length seg).citations, Confirmed sim t contexts seg c

variable {sim t contexts}

variable {seg out : Segment S} {m : Dict Int (VerifiedCitation S)}
  {detector : Option ConflictDetector}

theorem Assesses.confirmed (hm : Assesses sim t contexts seg m) (hcompared : seg.compared t = true)
    (c : Int) : Verifier.chunkVerified m c = true ↔ Confirmed sim t contexts seg c :=
  hm.chunkVerified_iff hcompared c

theorem confirmed_enterSegment (c : Int) : Confirmed sim t contexts
    (enterSegment detector contexts seg) c ↔ Confirmed sim t contexts seg c := by
  have htext : citedSim sim contexts (enterSegment detector contexts seg) c =
      citedSim sim contexts seg c := by
    rw [citedSim, (enterSegment_entered detector contexts seg).text, citedSim]
  rw [Confirmed, htext, enterSegment_kept.1, List.mem_filter]
  constructor
  · exact fun h => ⟨h.1.1, h.2⟩
  · rintro ⟨hc, s, hs, hreached⟩
    refine ⟨⟨hc, ?_⟩, s, hs, hreached⟩
    by_contra hrange
    rw [citedSim, contextAt_eq_none hrange] at hs
    cases hs

theorem returns_classify_iff (hm : Assesses sim t contexts seg m) :
    Returns (classifySegment t m seg) ↔ (seg.supportType = .conflict →
      SafeGroups (Confirmed sim t contexts seg) seg.conflictGroups) := by
  rw [returns_classifySegment_iff]
  refine forall_congr' fun hconflict => SafeGroups.congr fun htruthy => ?_
  have hcompared : seg.compared t = true := by
    rw [Segment.compared, hconflict]
    exact htruthy
  exact hm.confirmed hcompared

theorem allCitationsVerified_iff (hm : Assesses sim t contexts seg m)
    (hcompared : seg.compared t = true) : allCitationsVerified m seg = true ↔
      seg.citations ≠ [] ∧ ∀ c ∈ seg.citations, Confirmed sim t contexts seg c := by
  simp only [allCitationsVerified, Bool.and_eq_true, Bool.not_eq_true', List.isEmpty_eq_false_iff,
    List.all_eq_true, hm.confirmed hcompared]

/-- Exactly the segments that await the judge are marked for it, and the marking leaves alone
what the judge is asked. -/
theorem pending_iff_awaitsJudge
    (hm : Assesses sim t contexts (enterSegment detector contexts seg) m)
    (hfresh : seg.pendingJudge = false)
    (h : classifySegment t m (enterSegment detector contexts seg) = .ok out) :
    out.pendingJudge = true ↔ AwaitsJudge sim t contexts detector seg := by
  have hnotPending := (enterSegment_entered detector contexts seg).pendingJudge.trans hfresh
  have hcitations : (enterSegment detector contexts seg).citations =
    (tier1Segment contexts.length seg).citations := enterSegment_kept.1
  cases htype : (enterSegment detector contexts seg).supportType with
  | inference =>
    rw [classifySegment, htype] at h
    obtain rfl := Except.ok.inj h
    rw [classifyInference]
    cases henabled : t.inferenceJudgeEnabled with
    | false =>
      refine iff_of_false (Bool.eq_false_iff.mp hnotPending) fun hawaits => ?_
      cases henabled.symm.trans hawaits.enabled
    | true =>
      have hcompared : (enterSegment detector contexts seg).compared t = true := by
        rw [Segment.compared, htype]
        exact henabled
      have hall := allCitationsVerified_iff hm hcompared
      simp only [hcitations, confirmed_enterSegment] at hall
      cases hverified : allCitationsVerified m (enterSegment detector contexts seg) with
      | false =>
        refine iff_of_false (Bool.eq_false_iff.mp hnotPending) fun hawaits => ?_
        cases hverified.symm.trans (hall.mpr ⟨hawaits.cited, hawaits.confirmed⟩)
      | true =>
        obtain ⟨hcited, hconfirmed⟩ := hall.mp hverified
        exact ⟨fun _ => ⟨henabled, htype, hcited, hconfirmed⟩, fun _ => rfl⟩
  | conflict | direct | synthesis | other _ =>
    have hkept : out.pendingJudge = false := by
      cases classifySegment_ok h with
      | pending hinference _ _ => cases htype.symm.trans hinference
      | downgraded | conflict | kept => exact hnotPending
    refine iff_of_false (Bool.eq_false_iff.mp hkept) fun hawaits => ?_
    cases htype.symm.trans hawaits.inference

end Confirmed

/-- A segment that is marked for the judge has the text and the citations with which it
entered Tier 2. -/
theorem asked_of_pending [LE S] [DecidableLE S] {t : VerifierThresholds S}
    {m : Dict Int (VerifiedCitation S)} {detector : Option ConflictDetector}
    {contexts : List (RetrievedChunk S)} {seg out : Segment S} (hfresh : seg.pendingJudge = false)
    (h : classifySegment t m (enterSegment detector contexts seg) = .ok out)
    (hp : out.pendingJudge = true) :
    out.index = seg.index ∧ judgeRequest contexts out = judgeRequest contexts seg := by
  have hentered := enterSegment_entered detector contexts seg
  have hnotPending := hentered.pendingJudge.trans hfresh
  cases classifySegment_ok h with
  | pending _ _ _ =>
    have hrequest : judgeRequest contexts (enterSegment detector contexts seg) =
      judgeRequest contexts seg := judgeRequest_enterSegment
    exact ⟨hentered.index, hrequest⟩
  | downgraded | conflict | kept => exact absurd (hnotPending.symm.trans hp) nofun

section Path

variable [LinearOrder S]

omit [LinearOrder S] in
theorem fresh_of_mem_readSegments {repr : Value → String} {rawSegments : List Value}
    {seg : Segment S} (h : seg ∈ readSegments repr rawSegments) : seg.pendingJudge = false := by
  obtain ⟨raw, -, rfl⟩ := List.mem_map.mp h
  rfl

theorem returns_judgeInference_iff {service : Option (JudgeService S)}
    {contexts : List (RetrievedChunk S)} {segments : List (Segment S)} :
    Returns (judgeInference service contexts segments) ↔ ∀ judge, service = some judge →
      ∀ seg ∈ segments, seg.pendingJudge = true →
        Returns (judge.judge seg.index (judgeRequest contexts seg)) := by
  cases service with
  | none => exact iff_of_true (returns_ok _) (by simp)
  | some judge =>
    have hsegment : ∀ seg : Segment S, Returns (judgeSegment judge contexts seg) ↔
        (seg.pendingJudge = true → Returns (judge.judge seg.index (judgeRequest contexts seg))) := by
      intro seg
      rw [judgeSegment]
      cases seg.pendingJudge with
      | false => exact iff_of_true (returns_ok _) (by simp)
      | true =>
        rw [forall_prop_of_true rfl]
        refine returns_bind_iff.trans ?_
        constructor
        · rintro ⟨r, hr, -⟩
          exact ⟨r, hr⟩
        · rintro ⟨r, hr⟩
          exact ⟨r, hr, returns_ok _⟩
    rw [judgeInference, returns_bind_iff]
    constructor
    · rintro ⟨judged, hjudged, -⟩ _ ⟨⟩ seg hseg
      exact (hsegment seg).mp (returns_mapM_iff.mp ⟨judged, hjudged⟩ seg hseg)
    · intro h
      obtain ⟨judged, hjudged⟩ := returns_mapM_iff.mpr fun seg hseg =>
        (hsegment seg).mpr (h judge rfl seg hseg)
      exact ⟨judged, hjudged, returns_ok _⟩

/-- The embedder returns one vector for each text of a batch of distinct texts; which one may
depend on the batch. -/
def Embedder.OnePerText (embedder : Embedder V) (embed : List String → String → V) : Prop :=
  ∀ texts, texts.Nodup → texts ≠ [] → embedder.embedBatch texts = .ok (texts.map (embed texts))

def comparedTexts (repr : Value → String) (detector : Option ConflictDetector)
    (t : VerifierThresholds S) (contexts : List (RetrievedChunk S)) (rawSegments : List Value) :
    List String :=
  (collectPairs contexts t (enter detector contexts (readSegments repr rawSegments))).2

/-- The shape of an answer that the grounded path goes through without raising. -/
structure WellShaped (deps : VerifierDeps V S) (embed : List String → String → V)
    (detector : Option ConflictDetector) (t : VerifierThresholds S)
    (contexts : List (RetrievedChunk S)) (rawSegments : List Value) : Prop where
  readable : ∀ raw ∈ rawSegments, Readable raw
  conflicts : ∀ seg ∈ readSegments deps.repr rawSegments, seg.supportType = .conflict →
    SafeGroups (Confirmed (simOf (embed (comparedTexts deps.repr detector t contexts rawSegments))
      deps.cosine) t contexts seg) seg.conflictGroups
  judged : ∀ judge, deps.judgeService = some judge →
    ∀ seg ∈ readSegments deps.repr rawSegments,
      AwaitsJudge (simOf (embed (comparedTexts deps.repr detector t contexts rawSegments))
        deps.cosine) t contexts detector seg →
      Returns (judge.judge seg.index (judgeRequest contexts seg))

variable [Zero S] [Add S] [Div S] [NatCast S]

theorem returns_tier2Classify_iff {embedder : Embedder V} {cosine : V → V → S}
    {segments : List (Segment S)} {contexts : List (RetrievedChunk S)}
    {t : VerifierThresholds S} {embed : String → V}
    (h : embedder.embedTexts (collectPairs contexts t segments).2 =
      .ok ((collectPairs contexts t segments).2.map embed)) (hnum : Numbered segments) :
    Returns (tier2Classify embedder cosine segments contexts t) ↔
      ∀ seg ∈ segments, seg.supportType = .conflict →
        SafeGroups (Confirmed (simOf embed cosine) t contexts seg) seg.conflictGroups := by
  have hassesses : ∀ seg ∈ segments, Assesses (simOf embed cosine) t contexts seg
      (assessMap (assessments (simOf embed cosine) contexts t segments) seg.index) :=
    fun seg hseg => assesses_assessments _ hnum hseg
  rw [tier2Classify_of_embeds h]
  constructor
  · intro hreturns seg hseg
    obtain ⟨segs, hsegs, -⟩ := returns_bind_iff.mp hreturns
    exact (returns_classify_iff (hassesses seg hseg)).mp
      (returns_mapM_iff.mp ⟨segs, hsegs⟩ seg hseg)
  · intro hsafe
    obtain ⟨segs, hsegs⟩ := returns_mapM_iff.mpr fun seg hseg =>
      (returns_classify_iff (hassesses seg hseg)).mpr (hsafe seg hseg)
    exact returns_bind_iff.mpr ⟨segs, hsegs, returns_ok _⟩

theorem Embedder.OnePerText.embedTexts {embedder : Embedder V}
    {embed : List String → String → V} (h : embedder.OnePerText embed) {texts : List String}
    (hnodup : texts.Nodup) : embedder.embedTexts texts = .ok (texts.map (embed texts)) :=
  Embedder.embedTexts_eq (h texts hnodup)

omit [Zero S] [Add S] [Div S] [NatCast S] in
/-- What the judge is asked about segments that were all classified. -/
theorem returns_judge_iff {service : Option (JudgeService S)} {detector : Option ConflictDetector}
    {t : VerifierThresholds S} {contexts : List (RetrievedChunk S)}
    {sim : String → String → S} {m : Nat → Dict Int (VerifiedCitation S)}
    {segments classified : List (Segment S)}
    (hfresh : ∀ seg ∈ segments, seg.pendingJudge = false)
    (hm : ∀ seg ∈ segments,
      Assesses sim t contexts (enterSegment detector contexts seg) (m seg.index))
    (h : List.Forall₂ (fun seg out =>
      classifySegment t (m seg.index) (enterSegment detector contexts seg) = .ok out)
      segments classified) :
    Returns (judgeInference service contexts classified) ↔ ∀ judge, service = some judge →
      ∀ seg ∈ segments, AwaitsJudge sim t contexts detector seg →
        Returns (judge.judge seg.index (judgeRequest contexts seg)) := by
  rw [returns_judgeInference_iff]
  refine forall₂_congr fun judge _ => ⟨fun hall seg hseg hawaits => ?_, fun hall out hout hp => ?_⟩
  · obtain ⟨i, hi⟩ := List.mem_iff_getElem?.mp hseg
    obtain ⟨out, hout, hclassify⟩ := getElem?_of_forall₂ h hi
    have hp := (pending_iff_awaitsJudge (hm seg hseg) (hfresh seg hseg) hclassify).mpr hawaits
    obtain ⟨hindex, hrequest⟩ := asked_of_pending (hfresh seg hseg) hclassify hp
    rw [← hindex, ← hrequest]
    exact hall out (List.mem_of_getElem? hout) hp
  · obtain ⟨i, hi⟩ := List.mem_iff_getElem?.mp hout
    obtain ⟨seg, hget, hclassify⟩ := getElem?_of_forall₂_right h hi
    have hseg := List.mem_of_getElem? hget
    obtain ⟨hindex, hrequest⟩ := asked_of_pending (hfresh seg hseg) hclassify hp
    rw [hindex, hrequest]
    exact hall seg hseg
      ((pending_iff_awaitsJudge (hm seg hseg) (hfresh seg hseg) hclassify).mp hp)

theorem returns_tier2_enter_iff {embedder : Embedder V} {cosine : V → V → S}
    {detector : Option ConflictDetector} {segments : List (Segment S)}
    {contexts : List (RetrievedChunk S)} {t : VerifierThresholds S} {embed : String → V}
    (h : embedder.embedTexts (collectPairs contexts t (enter detector contexts segments)).2 =
      .ok ((collectPairs contexts t (enter detector contexts segments)).2.map embed))
    (hnum : Numbered (enter detector contexts segments)) :
    Returns (tier2Classify embedder cosine (enter detector contexts segments) contexts t) ↔
      ∀ seg ∈ segments, seg.supportType = .conflict →
        SafeGroups (Confirmed (simOf embed cosine) t contexts seg) seg.conflictGroups := by
  rw [returns_tier2Classify_iff h hnum, enter_eq_map, List.forall_mem_map]
  refine forall₂_congr fun seg _ => ?_
  have hsafe : ((enterSegment detector contexts seg).supportType = .conflict →
      SafeGroups (Confirmed (simOf embed cosine) t contexts seg)
        (enterSegment detector contexts seg).conflictGroups) ↔ (seg.supportType = .conflict →
      SafeGroups (Confirmed (simOf embed cosine) t contexts seg) seg.conflictGroups) :=
    safe_enterSegment_iff
  rw [← hsafe]
  exact forall_congr' fun _ => SafeGroups.congr fun _ => confirmed_enterSegment

theorem assessments_of_tier2 {embedder : Embedder V} {cosine : V → V → S}
    {segments : List (Segment S)} {contexts : List (RetrievedChunk S)}
    {t : VerifierThresholds S} {embed : String → V} {r : Tier2Result S}
    (h : embedder.embedTexts (collectPairs contexts t segments).2 =
      .ok ((collectPairs contexts t segments).2.map embed))
    (hr : tier2Classify embedder cosine segments contexts t = .ok r) :
    r.assessments = assessments (simOf embed cosine) contexts t segments := by
  rw [tier2Classify_of_embeds h] at hr
  obtain ⟨segs, -, hr⟩ := Except.bind_eq_ok_iff.mp hr
  cases hr
  rfl

theorem returns_judge_after_tier2_iff {service : Option (JudgeService S)} {embedder : Embedder V}
    {cosine : V → V → S} {detector : Option ConflictDetector} {segments : List (Segment S)}
    {contexts : List (RetrievedChunk S)} {t : VerifierThresholds S} {embed : String → V}
    {r : Tier2Result S}
    (h : embedder.embedTexts (collectPairs contexts t (enter detector contexts segments)).2 =
      .ok ((collectPairs contexts t (enter detector contexts segments)).2.map embed))
    (hnum : Numbered (enter detector contexts segments))
    (hfresh : ∀ seg ∈ segments, seg.pendingJudge = false)
    (hr : tier2Classify embedder cosine (enter detector contexts segments) contexts t = .ok r) :
    Returns (judgeInference service contexts r.segments) ↔ ∀ judge, service = some judge →
      ∀ seg ∈ segments, AwaitsJudge (simOf embed cosine) t contexts detector seg →
        Returns (judge.judge seg.index (judgeRequest contexts seg)) := by
  have hindex : ∀ seg : Segment S, (enterSegment detector contexts seg).index = seg.index :=
    fun seg => (enterSegment_entered detector contexts seg).index
  have hclassify := tier2Classify_ok hr
  rw [enter_eq_map, List.forall₂_map_left_iff] at hclassify
  refine returns_judge_iff (m := assessMap r.assessments) hfresh (fun seg hseg => ?_)
    (hclassify.imp fun seg out hout => hindex seg ▸ hout)
  have hmem : enterSegment detector contexts seg ∈ enter detector contexts segments := by
    rw [enter_eq_map]
    exact List.mem_map_of_mem hseg
  rw [assessments_of_tier2 h hr, ← hindex seg]
  exact assesses_assessments _ hnum hmem

/-- The grounded path returns on exactly the answers that are well shaped. -/
theorem returns_verifyAnswer_iff {deps : VerifierDeps V S} {embed : List String → String → V}
    (hone : deps.embedder.OnePerText embed) (detector : Option ConflictDetector)
    (t : VerifierThresholds S) (rawSegments : List Value) (contexts : List (RetrievedChunk S))
    (domainId : String) (limitations : Value) :
    Returns (verifyAnswer deps detector t rawSegments contexts domainId limitations) ↔
      WellShaped deps embed detector t contexts rawSegments := by
  rw [verifyAnswer, returns_bind_iff]
  by_cases hreadable : ∀ raw ∈ rawSegments, Readable raw
  · have hparse : parseSegments deps.repr rawSegments =
      .ok (readSegments (S := S) deps.repr rawSegments) := parseSegments_of_readable hreadable
    have hnum := numbered_enter hparse detector contexts
    have hfresh : ∀ seg ∈ readSegments (S := S) deps.repr rawSegments,
      seg.pendingJudge = false := fun seg hseg => fresh_of_mem_readSegments hseg
    have hembeds : deps.embedder.embedTexts (comparedTexts deps.repr detector t contexts
      rawSegments) = .ok _ := hone.embedTexts (collectPairs_nodup _)
    constructor
    · rintro ⟨parsed, hparsed, h⟩
      obtain rfl := Except.ok.inj (hparse.symm.trans hparsed)
      obtain ⟨tier2, htier2, h⟩ := returns_bind_iff.mp h
      obtain ⟨judged, hjudged, -⟩ := returns_bind_iff.mp h
      exact ⟨hreadable, (returns_tier2_enter_iff hembeds hnum).mp ⟨tier2, htier2⟩,
        (returns_judge_after_tier2_iff hembeds hnum hfresh htier2).mp ⟨judged, hjudged⟩⟩
    · rintro ⟨-, hconflicts, hjudges⟩
      obtain ⟨tier2, htier2⟩ := (returns_tier2_enter_iff hembeds hnum).mpr hconflicts
      obtain ⟨judged, hjudged⟩ :=
        (returns_judge_after_tier2_iff hembeds hnum hfresh htier2).mpr hjudges
      exact ⟨_, hparse, returns_bind_iff.mpr ⟨tier2, htier2,
        returns_bind_iff.mpr ⟨judged, hjudged, returns_ok _⟩⟩⟩
  · refine ⟨fun ⟨parsed, hparsed, _⟩ => absurd ?_ hreadable, fun h => absurd h.readable hreadable⟩
    exact returns_parseSegments_iff.mp ⟨parsed, hparsed⟩

end Path

end Verifier

end DomainRag
