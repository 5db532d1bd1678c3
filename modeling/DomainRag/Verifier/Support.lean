import DomainRag.Verifier.Totality

/-! # Which segments keep a citation

Whether a segment is left with a citation can be read off the segment as it enters Tier 2: its type
says which of its citations have to be confirmed. Of the embedder nothing is assumed but that it
returned.
-/

namespace DomainRag.Verifier

variable {V S : Type}

section Batch

variable [LinearOrder S] [Zero S]

/-- The similarity of two texts of a batch, from the vectors at their places. -/
def batchSim (cosine : V → V → S) (texts : List String) (embeddings : List V)
    (claim content : String) : S :=
  match embeddings[texts.idxOf claim]?, embeddings[texts.idxOf content]? with
  | some u, some v => cosine u v
  | _, _ => 0

/-- The similarities that an embedder gives to the texts of one batch. -/
def Embedder.sim (embedder : Embedder V) (cosine : V → V → S) (texts : List String) :
    String → String → S :=
  match embedder.embedTexts texts with
  | .ok embeddings => batchSim cosine texts embeddings
  | .error _ => fun _ _ => 0

theorem listGet_eq_ok_iff {xs : List V} {i : Nat} {x : V} :
    listGet xs i = .ok x ↔ xs[i]? = some x := by
  rw [listGet]
  cases xs[i]? with
  | none => simp
  | some y => simp

theorem idxOf_of_getElem? {texts : List String} (h : texts.Nodup) {i : Nat} {s : String}
    (hs : texts[i]? = some s) : texts.idxOf s = i := by
  obtain ⟨hi, rfl⟩ := List.getElem?_eq_some_iff.mp hs
  exact h.idxOf_getElem i hi

theorem assessPair_returned {cosine : V → V → S} {t : VerifierThresholds S} {texts : List String}
    {embeddings : List V} {target : Target S} {pair : Pair} {a : VerifiedCitation S}
    (hnodup : texts.Nodup) (hl : Located texts target pair)
    (h : assessPair cosine embeddings t pair = .ok a) :
    a = target.assessment (batchSim cosine texts embeddings) t := by
  obtain ⟨claim, hclaim, h⟩ := Except.bind_eq_ok_iff.mp h
  obtain ⟨chunk, hchunk, h⟩ := Except.bind_eq_ok_iff.mp h
  rw [listGet_eq_ok_iff] at hclaim hchunk
  have hsim : batchSim cosine texts embeddings target.segment.text target.context.content =
      cosine claim chunk := by
    rw [batchSim, idxOf_of_getElem? hnodup hl.claim, idxOf_of_getElem? hnodup hl.chunk, hclaim,
      hchunk]
  rw [← Except.ok.inj h, Target.assessment, hsim, hl.segIdx, hl.citationIdx]

variable [Add S] [Div S] [NatCast S]

/-- Tier 2 gives every citation the similarity of its own claim and chunk. -/
theorem assessments_of_returned {embedder : Embedder V} {cosine : V → V → S}
    {segments : List (Segment S)} {contexts : List (RetrievedChunk S)} {t : VerifierThresholds S}
    {r : Tier2Result S} (h : tier2Classify embedder cosine segments contexts t = .ok r) :
    r.assessments = assessments (embedder.sim cosine (collectPairs contexts t segments).2) contexts t
      segments := by
  obtain ⟨embeddings, hembeddings, h⟩ := Except.bind_eq_ok_iff.mp h
  obtain ⟨as, has, h⟩ := Except.bind_eq_ok_iff.mp h
  obtain ⟨segs, -, h⟩ := Except.bind_eq_ok_iff.mp h
  cases h
  have hsteps := mapM_eq_ok_iff.mp has
  have hserves : List.Forall₂ (Located (collectPairs contexts t segments).2)
    (targets contexts t segments) (collectPairs contexts t segments).1 := serves_collectPairs segments
  have hnodup : (collectPairs contexts t segments).2.Nodup := collectPairs_nodup segments
  rw [Embedder.sim, hembeddings, assessments]
  rw [List.forall₂_iff_get] at hsteps hserves
  apply List.ext_get
  · rw [List.length_map, hserves.1, hsteps.1]
  · intro i hi hi'
    rw [List.length_map] at hi'
    have hpair := hserves.1 ▸ hi'
    rw [List.get_eq_getElem, List.get_eq_getElem, List.getElem_map]
    exact assessPair_returned hnodup (hserves.2 i hi' hpair) (hsteps.2 i hpair hi)

end Batch

section Support

variable [LinearOrder S] (sim : String → String → S) (t : VerifierThresholds S)
  (service : Option (JudgeService S)) (contexts : List (RetrievedChunk S))

def AllConfirmed (seg : Segment S) : Prop :=
  seg.citations ≠ [] ∧ ∀ c ∈ seg.citations, Confirmed sim t contexts seg c

/-- Two or more conflict groups, each of chunks that are all confirmed. -/
def GroupsConfirmed (seg : Segment S) : Prop :=
  ∃ groups, seg.conflictGroups.iter = .ok groups ∧ 2 ≤ groups.length ∧
    ∀ g ∈ groups, g.truthy = true ∧ ∃ members, g.iter = .ok members ∧
      ∀ v ∈ members, ∃ c, v.intKey? = .ok (some c) ∧ Confirmed sim t contexts seg c

/-- The judge, if there is one, lets the segment pass. -/
def JudgeAccepts (seg : Segment S) : Prop :=
  ∀ judge, service = some judge → ∃ result,
    judge.judge seg.index (judgeRequest contexts seg) = .ok result ∧
      (result.parseOk && result.passes judge.minConfidence) = true

/-- What Tier 2 asks of a segment of its type. -/
def Tier2Keeps (seg : Segment S) : Prop :=
  match seg.supportType with
  | .conflict => seg.citations ≠ [] ∧ GroupsConfirmed sim t contexts seg
  | .inference => t.inferenceJudgeEnabled = true ∧ AllConfirmed sim t contexts seg
  | .synthesis => AllConfirmed sim t contexts seg
  | _ => ∃ c, Confirmed sim t contexts seg c

/-- What has to hold of a segment for it to keep a citation to the end. -/
def Backed (seg : Segment S) : Prop :=
  Tier2Keeps sim t contexts seg ∧
    (seg.supportType = .inference → JudgeAccepts service contexts seg)

variable {sim t service contexts} {seg out : Segment S} {m : Dict Int (VerifiedCitation S)}

theorem keptCitations_iff (hm : Assesses sim t contexts seg m) (hcompared : seg.compared t = true) :
    (dropWeak m seg).citations ≠ [] ↔ ∃ c, Confirmed sim t contexts seg c := by
  simp only [dropWeak, ne_eq, List.filter_eq_nil_iff, not_forall, not_not, exists_prop,
    hm.confirmed hcompared]
  constructor
  · rintro ⟨c, -, hc⟩
    exact ⟨c, hc⟩
  · rintro ⟨c, hc⟩
    exact ⟨c, hc.1, hc⟩

theorem classifyConflict_keeps_iff (hm : Assesses sim t contexts seg m)
    (htype : seg.supportType = .conflict) (h : classifyConflict m seg = .ok out) :
    out.citations ≠ [] ↔ seg.citations ≠ [] ∧ GroupsConfirmed sim t contexts seg := by
  have hgroups : GroupsOk m (seg.conflictGroups.orElse (.list [])) ↔
      GroupsConfirmed sim t contexts seg :=
    groupsOk_iff fun htruthy => hm.confirmed (compared_of_groups htype htruthy)
  rw [← hgroups]
  constructor
  · intro hcited
    cases classifyConflict_ok htype h (t := t) with
    | downgraded reason citationMeta => exact absurd rfl hcited
    | conflict _ hok => exact ⟨hcited, hok⟩
    | pending hinference _ _ => exact absurd (htype.symm.trans hinference) nofun
    | kept hconflict _ => exact absurd htype hconflict
  · rintro ⟨hcited, hok⟩
    rw [← Except.ok.inj ((classifyConflict_of_groupsOk hok).symm.trans h)]
    exact hcited

theorem classifyInference_keeps_iff (hm : Assesses sim t contexts seg m)
    (htype : seg.supportType = .inference) : (classifyInference t m seg).citations ≠ [] ↔
      t.inferenceJudgeEnabled = true ∧ AllConfirmed sim t contexts seg := by
  rw [classifyInference]
  cases henabled : t.inferenceJudgeEnabled with
  | false => simp [Segment.downgrade]
  | true =>
    have hcompared : seg.compared t = true := by
      rw [Segment.compared, htype]
      exact henabled
    have hall : allCitationsVerified m seg = true ↔ AllConfirmed sim t contexts seg :=
      allCitationsVerified_iff hm hcompared
    cases hverified : allCitationsVerified m seg with
    | false =>
      rw [hverified] at hall
      simp only [Bool.not_true, Bool.false_eq_true, Bool.not_false, if_false, if_true,
        Segment.downgrade, ne_eq, not_true_eq_false, true_and, false_iff]
      exact fun h => absurd (hall.mpr h) Bool.false_ne_true
    | true =>
      have hconfirmed := hall.mp hverified
      exact ⟨fun _ => ⟨rfl, hconfirmed⟩, fun _ => hconfirmed.1⟩

theorem tier2Keeps_iff (hm : Assesses sim t contexts seg m)
    (h : classifySegment t m seg = .ok out) :
    out.citations ≠ [] ↔ Tier2Keeps sim t contexts seg := by
  rw [classifySegment] at h
  rw [Tier2Keeps]
  cases htype : seg.supportType with
  | conflict =>
    rw [htype] at h
    exact classifyConflict_keeps_iff hm htype h
  | inference =>
    rw [htype] at h
    rw [← Except.ok.inj h]
    exact classifyInference_keeps_iff hm htype
  | synthesis =>
    rw [htype] at h
    have hcompared : seg.compared t = true := by rw [Segment.compared, htype]
    have hall : allCitationsVerified m seg = true ↔ AllConfirmed sim t contexts seg :=
      allCitationsVerified_iff hm hcompared
    rw [← Except.ok.inj h, ← hall]
    cases hverified : allCitationsVerified m seg with
    | false => simp [Segment.downgrade]
    | true =>
      obtain ⟨c, hc⟩ := List.exists_mem_of_ne_nil _ (hall.mp hverified).1
      refine iff_of_true ?_ rfl
      exact (keptCitations_iff hm hcompared).mpr ⟨c, (hall.mp hverified).2 c hc⟩
  | direct | other _ =>
    rw [htype] at h
    have hcompared : seg.compared t = true := by rw [Segment.compared, htype]
    rw [← Except.ok.inj h]
    exact keptCitations_iff hm hcompared

omit [LinearOrder S] in
theorem classified_supportType (h : classifySegment t m seg = .ok out) :
    out.supportType = seg.supportType := by
  cases classifySegment_ok h <;> rfl

omit [LinearOrder S] in
/-- Of the segments that keep a citation, the inferences are marked for the judge, with the question
that is put to it. -/
theorem pending_iff_inference (hfresh : seg.pendingJudge = false)
    (h : classifySegment t m seg = .ok out) (hcited : out.citations ≠ []) :
    out.pendingJudge = true ↔ seg.supportType = .inference := by
  have hout := classified_supportType h
  constructor
  · intro hp
    cases classifySegment_ok h with
    | pending hinference _ _ => exact hinference
    | downgraded | conflict | kept => exact absurd (hfresh.symm.trans hp) nofun
  · intro htype
    rw [classifySegment, htype] at h
    obtain rfl := Except.ok.inj h
    rw [classifyInference] at hcited ⊢
    split at hcited
    · exact absurd rfl hcited
    · split at hcited
      · exact absurd rfl hcited
      · rename_i hjudged hverified
        rw [if_neg hjudged, if_neg hverified]

theorem judgeAccepts_classified (h : classifySegment t m seg = .ok out)
    (hfresh : seg.pendingJudge = false) (hp : out.pendingJudge = true) :
    JudgeAccepts service contexts out ↔ JudgeAccepts service contexts seg := by
  cases classifySegment_ok h with
  | pending _ _ _ => exact Iff.rfl
  | downgraded | conflict | kept => exact absurd (hfresh.symm.trans hp) nofun

/-- What the judge stage makes of one segment. -/
def JudgedTo (service : Option (JudgeService S)) (contexts : List (RetrievedChunk S))
    (seg out : Segment S) : Prop :=
  match service with
  | none => out = seg
  | some judge => ∃ call, judgeSegment judge contexts seg = .ok (out, call)

theorem judgedTo_of_judgeInference {segments : List (Segment S)}
    {judged : List (Segment S) × List (JudgeCall S)}
    (h : judgeInference service contexts segments = .ok judged) :
    List.Forall₂ (JudgedTo service contexts) segments judged.1 := by
  cases service with
  | none =>
    cases h
    exact List.forall₂_same.mpr fun seg _ => rfl
  | some judge =>
    obtain ⟨steps, hsteps, h⟩ := Except.bind_eq_ok_iff.mp h
    cases h
    rw [List.forall₂_map_right_iff]
    exact (mapM_eq_ok_iff.mp hsteps).imp fun seg step hstep => ⟨step.2, hstep⟩

theorem JudgedTo.supportType (h : JudgedTo service contexts seg out) :
    out.supportType = seg.supportType := by
  cases service with
  | none => exact congrArg _ h
  | some judge =>
    obtain ⟨call, h⟩ := h
    cases judgeSegment_ok h <;> rfl

theorem JudgedTo.citations_iff (h : JudgedTo service contexts seg out) : out.citations ≠ [] ↔
    seg.citations ≠ [] ∧ (seg.pendingJudge = true → JudgeAccepts service contexts seg) := by
  cases service with
  | none =>
    obtain rfl : out = seg := h
    refine ⟨fun hcited => ⟨hcited, ?_⟩, fun hcited => hcited.1⟩
    rintro _ _ ⟨⟩
  | some judge =>
    obtain ⟨call, h⟩ := h
    rw [judgeSegment] at h
    cases hp : seg.pendingJudge with
    | false =>
      rw [hp] at h
      cases h
      refine ⟨fun hcited => ⟨hcited, ?_⟩, fun hcited => hcited.1⟩
      rintro ⟨⟩
    | true =>
      rw [hp] at h
      obtain ⟨result, hresult, h⟩ := Except.bind_eq_ok_iff.mp h
      have haccepts : JudgeAccepts (some judge) contexts seg ↔
          (result.parseOk && result.passes judge.minConfidence) = true := by
        constructor
        · intro haccepts
          obtain ⟨result', hresult', hpasses⟩ := haccepts judge rfl
          rwa [Except.ok.inj (hresult.symm.trans hresult')]
        · rintro hpasses _ ⟨⟩
          exact ⟨result, hresult, hpasses⟩
      rw [haccepts]
      cases hpasses : result.parseOk && result.passes judge.minConfidence with
      | false =>
        rw [hpasses] at h
        cases h
        simp [applyJudgeResult, Segment.downgrade]
      | true =>
        rw [hpasses] at h
        cases h
        simp [applyJudgeResult]

/-- The way of a segment through Tier 2 and the judge. -/
theorem backed_iff {classified : Segment S} (hm : Assesses sim t contexts seg m)
    (hfresh : seg.pendingJudge = false) (htier2 : classifySegment t m seg = .ok classified)
    (hjudge : JudgedTo service contexts classified out) :
    out.supportType = seg.supportType ∧
      (out.citations ≠ [] ↔ Backed sim t service contexts seg) := by
  refine ⟨hjudge.supportType.trans (classified_supportType htier2), ?_⟩
  have hkeeps := tier2Keeps_iff hm htier2
  rw [hjudge.citations_iff, Backed, ← hkeeps]
  refine and_congr_right fun hcited => ?_
  have hpending := pending_iff_inference hfresh htier2 hcited
  rw [← hpending]
  exact forall_congr' fun hp => judgeAccepts_classified htier2 hfresh hp

end Support

section Main

variable [LinearOrder S] [Zero S] [Add S] [Div S] [NatCast S]

/-- The similarities that the embedder gives to the texts which the answer compares. -/
def answerSim (deps : VerifierDeps V S) (detector : Option ConflictDetector)
    (t : VerifierThresholds S) (contexts : List (RetrievedChunk S)) (rawSegments : List Value) :
    String → String → S :=
  deps.embedder.sim deps.cosine
    (collectPairs contexts t (entering deps.repr detector contexts rawSegments)).2

omit [LinearOrder S] [Zero S] [Add S] [Div S] [NatCast S] in
theorem fresh_of_mem_enter {repr : Value → String} {rawSegments : List Value}
    {parsed : List (Segment S)} (hparsed : parseSegments repr rawSegments = .ok parsed)
    {detector : Option ConflictDetector} {contexts : List (RetrievedChunk S)} {seg : Segment S}
    (h : seg ∈ enter detector contexts parsed) : seg.pendingJudge = false := by
  rw [enter_eq_map] at h
  obtain ⟨before, hbefore, rfl⟩ := List.mem_map.mp h
  obtain ⟨raw, -, hraw⟩ := exists_of_mem_mapM hparsed hbefore
  exact (enterSegment_entered detector contexts before).pendingJudge.trans
    (parseSegment_ok hraw).2.2.pendingJudge

/-- Exactly the backed segments of an answer are left with a citation. -/
theorem verifyAnswer_backed {deps : VerifierDeps V S} {detector : Option ConflictDetector}
    {t : VerifierThresholds S} {rawSegments : List Value} {contexts : List (RetrievedChunk S)}
    {domainId : String} {limitations : Value} {r : Verified S}
    (h : verifyAnswer deps detector t rawSegments contexts domainId limitations = .ok r) :
    List.Forall₂ (fun seg out => out.supportType = seg.supportType ∧
        (out.citations ≠ [] ↔ Backed (answerSim deps detector t contexts rawSegments) t
          deps.judgeService contexts seg))
      (entering deps.repr detector contexts rawSegments) r.segments := by
  obtain ⟨parsed, tier2, judged, hparsed, htier2, hjudged, rfl⟩ := exists_of_verifyAnswer h
  have hentering : entering deps.repr detector contexts rawSegments =
      enter detector contexts parsed := by
    rw [entering, hparsed]
  have hnum := numbered_enter hparsed detector contexts
  have hassessed := assessments_of_returned htier2
  rw [answerSim, hentering]
  have hclassify := tier2Classify_ok htier2
  have hjudge := judgedTo_of_judgeInference hjudged
  rw [hassessed] at hclassify
  rw [List.forall₂_iff_get] at hclassify hjudge ⊢
  refine ⟨hclassify.1.trans hjudge.1, fun i hi hi' => ?_⟩
  have hmid := hclassify.1 ▸ hi
  have hmem := List.get_mem (enter detector contexts parsed) ⟨i, hi⟩
  have hfresh := fresh_of_mem_enter hparsed hmem
  exact backed_iff (assesses_assessments _ hnum hmem) hfresh (hclassify.2 i hi hmid)
    (hjudge.2 i hmid hi')

end Main

end DomainRag.Verifier
