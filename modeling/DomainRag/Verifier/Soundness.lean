import Mathlib.Algebra.Ring.Int.Defs
import DomainRag.Verifier.Batching
import DomainRag.Verifier.Pipeline

/-! # Verified citations

Which citations may be reported as verified, and when the grounded path reports no other. All
branches of Tier 2 but one drop the chunks that do not support the claim: an accepted conflict
confirms every chunk that its segment cites, also one that no conflict group names.
-/

namespace DomainRag.Verifier

variable {V S : Type}

def citedSim (sim : String → String → S) (contexts : List (RetrievedChunk S)) (seg : Segment S)
    (c : Int) : Option S :=
  (contextAt contexts c).map fun ctx => sim seg.text ctx.content

variable [LinearOrder S]

/-- A citation that names a retrieved chunk which supports its claim. -/
structure Citation.Sound (sim : String → String → S) (t : VerifierThresholds S)
    (contexts : List (RetrievedChunk S)) (cite : Citation S) : Prop where
  grounded : ∃ (i : Int) (ctx : RetrievedChunk S), 1 ≤ i ∧ i ≤ contexts.length ∧
    cite.marker = s!"[{i}]" ∧ contexts[(i - 1).toNat]? = some ctx ∧ cite.chunkId = ctx.chunkId ∧
    cite.similarity = some (sim cite.claimText ctx.content) ∧
    t.mediumThreshold ≤ sim cite.claimText ctx.content
  level : cite.supportLevel ≠ some .weak

/-- The segment cites a chunk that supports its claim. -/
def Supported (sim : String → String → S) (t : VerifierThresholds S)
    (contexts : List (RetrievedChunk S)) (seg : Segment S) (c : Int) : Prop :=
  c ∈ seg.citations ∧ ∃ s, citedSim sim contexts seg c = some s ∧ t.mediumThreshold ≤ s

/-- The conflict groups of a segment are two or more nonempty collections of chunks, all of
them cited and in support of the claim. -/
def GroupsSupported (sim : String → String → S) (t : VerifierThresholds S)
    (contexts : List (RetrievedChunk S)) (seg : Segment S) : Prop :=
  ∃ groups, seg.conflictGroups.iter = .ok groups ∧ 2 ≤ groups.length ∧
    ∀ g ∈ groups, g.truthy = true ∧ ∃ members, g.iter = .ok members ∧
      ∀ v ∈ members, ∃ c, v.intKey? = .ok (some c) ∧ Supported sim t contexts seg c

/-- A conflict whose groups are all supported, but which also cites a chunk that is not. -/
structure WeakInConflict (sim : String → String → S) (t : VerifierThresholds S)
    (contexts : List (RetrievedChunk S)) (seg : Segment S) : Prop where
  conflict : seg.supportType = .conflict
  groups : GroupsSupported sim t contexts seg
  weak : ∃ c ∈ seg.citations, ∃ s, citedSim sim contexts seg c = some s ∧ s < t.mediumThreshold

section Classify

variable {sim : String → String → S} {t : VerifierThresholds S}
  {contexts : List (RetrievedChunk S)} {seg out : Segment S} {m : Dict Int (VerifiedCitation S)}

theorem verifiedCitation_verified_iff (i : Nat) (c : Int) (s : S) :
    (verifiedCitation t i c s).verified = true ↔
      t.strongThreshold ≤ s ∨ t.mediumThreshold ≤ s := by
  simp only [verifiedCitation, classify]
  split
  · rename_i h
    exact ⟨fun _ => .inl h, fun _ => rfl⟩
  · rename_i hstrong
    split
    · rename_i h
      exact ⟨fun _ => .inr h, fun _ => rfl⟩
    · rename_i hmedium
      exact ⟨nofun, fun h => absurd h (not_or.mpr ⟨hstrong, hmedium⟩)⟩

theorem verifiedCitation_verified (hthr : t.mediumThreshold ≤ t.strongThreshold) (i : Nat)
    (c : Int) (s : S) :
    (verifiedCitation t i c s).verified = true ↔ t.mediumThreshold ≤ s :=
  (verifiedCitation_verified_iff i c s).trans (or_iff_right_of_imp hthr.trans)

theorem verifiedCitation_weak (hthr : t.mediumThreshold ≤ t.strongThreshold) (i : Nat)
    (c : Int) (s : S) :
    (verifiedCitation t i c s).supportLevel = .weak ↔ s < t.mediumThreshold := by
  simp only [verifiedCitation, classify]
  split
  · rename_i h
    exact ⟨nofun, fun h' => absurd (hthr.trans h) (not_le.mpr h')⟩
  · split
    · rename_i h
      exact ⟨nofun, fun h' => absurd h (not_le.mpr h')⟩
    · rename_i h
      exact ⟨fun _ => not_le.mp h, fun _ => rfl⟩

def Assesses (sim : String → String → S) (t : VerifierThresholds S)
    (contexts : List (RetrievedChunk S)) (seg : Segment S)
    (m : Dict Int (VerifiedCitation S)) : Prop :=
  ∀ c, m.get? c = if seg.compared t ∧ c ∈ seg.citations then
    (citedSim sim contexts seg c).map (verifiedCitation t seg.index c) else none

theorem Assesses.get? (hm : Assesses sim t contexts seg m) {c : Int} {a : VerifiedCitation S}
    (h : m.get? c = some a) : seg.compared t = true ∧ c ∈ seg.citations ∧
      ∃ s, citedSim sim contexts seg c = some s ∧ verifiedCitation t seg.index c s = a := by
  rw [hm c] at h
  split at h
  · rename_i hc
    exact ⟨hc.1, hc.2, Option.map_eq_some_iff.mp h⟩
  · cases h

theorem Assesses.chunkVerified_iff (hm : Assesses sim t contexts seg m)
    (hcompared : seg.compared t = true) (c : Int) :
    Verifier.chunkVerified m c = true ↔ c ∈ seg.citations ∧
      ∃ s, citedSim sim contexts seg c = some s ∧ (t.strongThreshold ≤ s ∨ t.mediumThreshold ≤ s) := by
  rw [Verifier.chunkVerified_iff]
  constructor
  · rintro ⟨a, ha, hverified⟩
    obtain ⟨-, hc, s, hs, rfl⟩ := hm.get? ha
    exact ⟨hc, s, hs, (verifiedCitation_verified_iff _ _ _).mp hverified⟩
  · rintro ⟨hc, s, hs, hreached⟩
    refine ⟨verifiedCitation t seg.index c s, ?_, (verifiedCitation_verified_iff _ _ _).mpr hreached⟩
    rw [hm c, if_pos ⟨hcompared, hc⟩, hs]
    rfl

theorem Assesses.chunkVerified (hthr : t.mediumThreshold ≤ t.strongThreshold)
    (hm : Assesses sim t contexts seg m) (hcompared : seg.compared t = true) (c : Int) :
    chunkVerified m c = true ↔ Supported sim t contexts seg c := by
  rw [hm.chunkVerified_iff hcompared, Supported]
  simp only [or_iff_right_of_imp hthr.trans]

theorem groupsOk_iff_supported (hthr : t.mediumThreshold ≤ t.strongThreshold)
    (hm : Assesses sim t contexts seg m) (hconflict : seg.supportType = .conflict) :
    GroupsOk m (seg.conflictGroups.orElse (.list [])) ↔ GroupsSupported sim t contexts seg :=
  groupsOk_iff fun h => hm.chunkVerified hthr (compared_of_groups hconflict h)

def MetaSound (sim : String → String → S) (t : VerifierThresholds S)
    (contexts : List (RetrievedChunk S)) (seg : Segment S) : Prop :=
  ∀ c ∈ seg.citations, ∀ a, seg.citationMeta.get? c = some a → a.verified = true →
    citedSim sim contexts seg c = some a.similarity ∧ t.mediumThreshold ≤ a.similarity ∧
      a.supportLevel ≠ .weak

theorem assessed_sound (hthr : t.mediumThreshold ≤ t.strongThreshold)
    (hm : Assesses sim t contexts seg m) {c : Int} {a : VerifiedCitation S}
    (ha : m.get? c = some a) (hverified : a.verified = true) :
    citedSim sim contexts seg c = some a.similarity ∧ t.mediumThreshold ≤ a.similarity ∧
      a.supportLevel ≠ .weak := by
  obtain ⟨-, -, s, hs, rfl⟩ := hm.get? ha
  have hmedium := (verifiedCitation_verified hthr _ _ _).mp hverified
  exact ⟨hs, hmedium, fun hweak => absurd hmedium
    (not_le.mpr ((verifiedCitation_weak hthr _ _ _).mp hweak))⟩

theorem metaSound_of_classified (hthr : t.mediumThreshold ≤ t.strongThreshold)
    (hm : Assesses sim t contexts seg m) (h : Classified t m seg out)
    (hweak : ¬ WeakInConflict sim t contexts seg) : MetaSound sim t contexts out := by
  cases h with
  | downgraded reason citationMeta => exact nofun
  | conflict htype hgroups =>
    intro c hc a ha _
    rw [Dict.get?_pick, if_pos hc] at ha
    obtain ⟨a, ha', rfl⟩ := Option.map_eq_some_iff.mp ha
    obtain ⟨-, -, s, hs, rfl⟩ := hm.get? ha'
    have hmedium : t.mediumThreshold ≤ s := by
      by_contra hlt
      exact hweak ⟨htype, (groupsOk_iff_supported hthr hm htype).mp hgroups, c, hc, s, hs,
        not_le.mp hlt⟩
    refine ⟨hs, hmedium, fun hlevel => ?_⟩
    rw [capped_supportLevel, verifiedCitation_weak hthr] at hlevel
    exact absurd hmedium (not_le.mpr hlevel)
  | pending htype henabled hall =>
    intro c hc a ha hverified
    rw [Dict.get?_pick, if_pos hc, Option.map_id_fun, id] at ha
    exact assessed_sound hthr hm ha hverified
  | kept hconflict hinference =>
    intro c hc a ha hverified
    change (m.pick id (dropWeak m seg).citations).get? c = some a at ha
    rw [Dict.get?_pick, if_pos hc, Option.map_id_fun, id] at ha
    exact assessed_sound hthr hm ha hverified

theorem metaSound_of_judged {service : Option (JudgeService S)} {calls : List (JudgeCall S)}
    (hsound : MetaSound sim t contexts seg) (hpending : PendingVerified seg)
    (h : AfterJudge service contexts calls seg out) : MetaSound sim t contexts out := by
  cases service with
  | none =>
    rw [show out = seg from h]
    exact hsound
  | some service =>
    obtain ⟨call, hjudged, -⟩ := h
    cases hjudged with
    | skipped _ => exact hsound
    | passed call hp _ =>
      intro c hc a ha _
      change (seg.citationMeta.mapValues fun _ a => a.capped).get? c = some a at ha
      rw [Dict.get?_mapValues] at ha
      obtain ⟨b, hb, rfl⟩ := Option.map_eq_some_iff.mp ha
      obtain ⟨b', hb', hverified⟩ := chunkVerified_iff.mp (hpending hp c hc)
      obtain rfl : b = b' := Option.some.inj (hb.symm.trans hb')
      obtain ⟨hsim, hmedium, hlevel⟩ := hsound c hc b hb hverified
      exact ⟨hsim, hmedium, fun hweak => hlevel ((capped_supportLevel b).mp hweak)⟩
    | rejected call hp => exact nofun

end Classify

def entering (repr : Value → String) (detector : Option ConflictDetector)
    (contexts : List (RetrievedChunk S)) (rawSegments : List Value) : List (Segment S) :=
  match parseSegments repr rawSegments with
  | .ok parsed => enter detector contexts parsed
  | .error _ => []

omit [LinearOrder S] in
theorem numbered_enter {repr : Value → String} {rawSegments : List Value}
    {parsed : List (Segment S)} (h : parseSegments repr rawSegments = .ok parsed)
    (detector : Option ConflictDetector) (contexts : List (RetrievedChunk S)) :
    Numbered (enter detector contexts parsed) := by
  have hparse := parseSegments_ok h
  have hindex : parsed.map Segment.index = rawSegments.zipIdx.map Prod.snd := by
    rw [eq_comm, ← List.forall₂_eq_eq_eq, List.forall₂_map_left_iff, List.forall₂_map_right_iff]
    exact hparse.imp fun raw seg hseg => (parseSegment_ok hseg).1.symm
  rw [Numbered, enter_eq_map, List.map_map]
  have hsame : Segment.index ∘ enterSegment detector contexts = Segment.index :=
    funext fun seg => (enterSegment_entered detector contexts seg).index
  rw [hsame, hindex, List.zipIdx_map_snd]
  exact List.nodup_range'

theorem citation_sound_of_metaSound {sim : String → String → S} {t : VerifierThresholds S}
    {contexts : List (RetrievedChunk S)} {domainId : String} {seg : Segment S}
    (hsound : MetaSound sim t contexts seg) {cite : Citation S}
    (hcite : cite ∈ segmentCitations domainId contexts seg) (hverified : cite.verified = some true) :
    cite.Sound sim t contexts := by
  obtain ⟨c, hc, hctx⟩ := List.mem_filterMap.mp hcite
  obtain ⟨ctx, hat, rfl⟩ := Option.map_eq_some_iff.mp hctx
  obtain ⟨a, ha, hverified⟩ := Option.map_eq_some_iff.mp hverified
  obtain ⟨hsim, hmedium, hlevel⟩ := hsound c hc a ha hverified
  obtain ⟨hone, hlen, hget⟩ := contextAt_eq_some hat
  rw [citedSim, hat, Option.map_some, Option.some.injEq] at hsim
  refine ⟨⟨c, ctx, hone, hlen, rfl, hget, rfl, ?_, ?_⟩, ?_⟩
  · simp only [citationOf, ha, hsim, Option.map_some]
  · rw [← hsim] at hmedium
    exact hmedium
  · simp only [citationOf, ha, Option.map_some, ne_eq, Option.some.injEq]
    exact hlevel

/-- An unsupported chunk of an accepted conflict keeps its level and is confirmed. -/
theorem weak_confirmed {sim : String → String → S} {t : VerifierThresholds S}
    {contexts : List (RetrievedChunk S)} {seg out : Segment S} {m : Dict Int (VerifiedCitation S)}
    (hthr : t.mediumThreshold ≤ t.strongThreshold) (hm : Assesses sim t contexts seg m)
    (hweak : WeakInConflict sim t contexts seg) (h : classifySegment t m seg = .ok out) :
    out.pendingJudge = seg.pendingJudge ∧ ∃ c ∈ out.citations, ∃ a,
      (contextAt contexts c).isSome ∧ out.citationMeta.get? c = some a ∧ a.verified = true ∧
        a.supportLevel = .weak := by
  obtain ⟨hconflict, hgroups, c, hc, s, hs, hlt⟩ := hweak
  have hok := (groupsOk_iff_supported hthr hm hconflict).mpr hgroups
  rw [classifySegment, hconflict] at h
  obtain rfl := Except.ok.inj ((classifyConflict_of_groupsOk hok).symm.trans h)
  have hcompared : seg.compared t = true := by
    obtain ⟨groups, hiter, htwo, -⟩ := hgroups
    rw [Segment.compared, hconflict]
    exact Value.truthy_of_len_pos (Value.len_eq_ok_iff.mpr ⟨groups, hiter, rfl⟩) (by omega)
  refine ⟨rfl, c, hc, (verifiedCitation t seg.index c s).capped, ?_, ?_, rfl, ?_⟩
  · obtain ⟨ctx, hctx, -⟩ := Option.map_eq_some_iff.mp hs
    rw [hctx]
    rfl
  · rw [Dict.get?_pick, if_pos hc, hm c, if_pos ⟨hcompared, hc⟩, hs]
    rfl
  · rw [capped_supportLevel]
    exact (verifiedCitation_weak hthr _ _ _).mpr hlt

section Main

variable [Zero S] [Add S] [Div S] [NatCast S]

omit [Zero S] [Add S] [Div S] [NatCast S] in
theorem assesses_assessments (sim : String → String → S) {contexts : List (RetrievedChunk S)}
    {t : VerifierThresholds S} {segments : List (Segment S)} (hnum : Numbered segments)
    {seg : Segment S} (hseg : seg ∈ segments) : Assesses sim t contexts seg
      (assessMap (assessments sim contexts t segments) seg.index) := by
  intro c
  rw [assessMap_assessments hnum hseg, citedSim, Option.map_map]
  rfl

theorem assesses_of_tier2 {embed : String → V} {cosine : V → V → S}
    {segments : List (Segment S)} {contexts : List (RetrievedChunk S)}
    {t : VerifierThresholds S} {r : Tier2Result S}
    (h : tier2Classify (.ofFn embed) cosine segments contexts t = .ok r)
    (hnum : Numbered segments) {seg : Segment S} (hseg : seg ∈ segments) :
    Assesses (simOf embed cosine) t contexts seg (assessMap r.assessments seg.index) := by
  rw [tier2Classify_ofFn] at h
  obtain ⟨segs, -, h⟩ := Except.bind_eq_ok_iff.mp h
  cases h
  exact assesses_assessments _ hnum hseg

/-- A run of the grounded path reports only supported citations as verified exactly when no
segment enters Tier 2 as an acceptable conflict that also cites an unsupported chunk. -/
theorem verified_sound_iff {repr : Value → String} {embed : String → V} {cosine : V → V → S}
    {judgeService : Option (JudgeService S)} {detector : Option ConflictDetector}
    {t : VerifierThresholds S} {rawSegments : List Value} {contexts : List (RetrievedChunk S)}
    {domainId : String} {limitations : Value} {r : Verified S}
    (hthr : t.mediumThreshold ≤ t.strongThreshold)
    (h : verifyAnswer ⟨repr, .ofFn embed, cosine, judgeService⟩ detector t rawSegments contexts
      domainId limitations = .ok r) :
    (∀ cite ∈ r.citations, cite.verified = some true →
      cite.Sound (simOf embed cosine) t contexts) ↔
      ∀ seg ∈ entering repr detector contexts rawSegments,
        ¬ WeakInConflict (simOf embed cosine) t contexts seg := by
  obtain ⟨parsed, tier2, hparsed, htier2, hrun⟩ := verifyAnswer_ok h
  have hentering : entering repr detector contexts rawSegments =
      parsed.map (enterSegment detector contexts) := by
    rw [entering, hparsed, ← enter_eq_map]
  have hassess : ∀ {i raw seg}, parsed[i]? = some seg → parseSegment repr i raw = .ok seg →
      Assesses (simOf embed cosine) t contexts (enterSegment detector contexts seg)
        (assessMap tier2.assessments i) := by
    intro i raw seg hseg hparse
    have hmem : enterSegment detector contexts seg ∈ enter detector contexts parsed := by
      rw [enter_eq_map]
      exact List.mem_map_of_mem (List.mem_of_getElem? hseg)
    have hindex := (enterSegment_entered detector contexts seg).index
    rw [(parseSegment_ok hparse).1] at hindex
    rw [← hindex]
    exact assesses_of_tier2 htier2 (numbered_enter hparsed detector contexts) hmem
  have hfresh : ∀ {i raw seg}, parseSegment repr i raw = .ok seg →
      (enterSegment detector contexts seg).pendingJudge = false := fun hparse =>
    (enterSegment_entered detector contexts _).pendingJudge.trans
      (parseSegment_ok hparse).2.2.pendingJudge
  rw [hentering]
  constructor
  · intro hsound entered hentered hweak
    obtain ⟨seg, hseg, rfl⟩ := List.mem_map.mp hentered
    obtain ⟨i, hi⟩ := List.getElem?_of_mem hseg
    have hlt : i < rawSegments.length := hrun.lengths.1 ▸ (List.getElem?_eq_some_iff.mp hi).1
    obtain ⟨raw, seg', classified, out, -, hseg', hout, hparse, htier, hjudge⟩ := hrun.at hlt
    obtain rfl : seg' = seg := Option.some.inj (hseg'.symm.trans hi)
    obtain ⟨hpending, c, hc, a, hctx, ha, hverified, hlevel⟩ :=
      weak_confirmed hthr (hassess hi hparse) hweak htier
    obtain rfl := afterJudge_not_pending hjudge (hpending.trans (hfresh hparse))
    obtain ⟨ctx, hctx⟩ := Option.isSome_iff_exists.mp hctx
    have hcite : citationOf domainId out c ctx ∈ r.citations := by
      rw [hrun.citations]
      refine List.mem_flatMap.mpr ⟨out, List.mem_of_getElem? hout, ?_⟩
      exact List.mem_filterMap.mpr ⟨c, hc, by rw [hctx]; rfl⟩
    refine (hsound _ hcite ?_).level ?_
    · simp only [citationOf, ha, Option.map_some, hverified]
    · simp only [citationOf, ha, Option.map_some, hlevel]
  · intro hnone cite hcite hverified
    rw [hrun.citations] at hcite
    obtain ⟨out, hout, hcite⟩ := List.mem_flatMap.mp hcite
    obtain ⟨i, hi⟩ := List.getElem?_of_mem hout
    have hlt : i < rawSegments.length := hrun.lengths.2 ▸ (List.getElem?_eq_some_iff.mp hi).1
    obtain ⟨raw, seg, classified, out', -, hseg, hout', hparse, htier, hjudge⟩ := hrun.at hlt
    obtain rfl : out' = out := Option.some.inj (hout'.symm.trans hi)
    have hclassified := classifySegment_ok htier
    have hweak := hnone _ (List.mem_map_of_mem (List.mem_of_getElem? hseg))
    have htier2Sound := metaSound_of_classified hthr (hassess hseg hparse) hclassified hweak
    have hpending := pendingVerified_of_classified hclassified (hfresh hparse)
    exact citation_sound_of_metaSound (metaSound_of_judged htier2Sound hpending hjudge) hcite hverified

end Main

section Example

def holidayChunk (chunkId content : String) : RetrievedChunk Int where
  chunkId := chunkId
  docId := "rules"
  title := "취업규칙"
  content := content
  pageNumber := .null
  sectionTitle := .null
  denseScore := 0
  sparseScore := 0
  fusedScore := 0
  payload := .empty

def holidayContexts : List (RetrievedChunk Int) :=
  [holidayChunk "c1" "연차는 10일", holidayChunk "c2" "연차는 15일", holidayChunk "c3" "구내식당 안내"]

/-- Similarities in percent: the third chunk has nothing to do with the claim. -/
def holidayEmbed (text : String) : Int := if text = "구내식당 안내" then 10 else 90

def percentThresholds : VerifierThresholds Int where
  strongThreshold := 75
  mediumThreshold := 55
  minVerifiedCount := 1
  maxUnsupportedRatio := 50
  minConfidence := 50
  weightRetrieval := 30
  weightVerified := 30
  weightSupported := 20
  weightCoverage := 20
  inferenceJudgeEnabled := false

/-- A conflict of the first two chunks, as the LLM reports it. -/
def holidayConflict (citations : List Int) : Value :=
  .dict [("text", .str "연차 일수가 문서마다 다릅니다."),
    ("citations", .list (citations.map Value.int)),
    ("support_type", .str "conflict"),
    ("conflict_groups", .list [.list [.int 1], .list [.int 2]])]

def verifyHoliday (citations : List Int) : Except Exc (Verified Int) :=
  verifyAnswer ⟨fun _ => "", .ofFn holidayEmbed, fun _ chunk => chunk, none⟩ none percentThresholds
    [holidayConflict citations] holidayContexts "hr" .null

theorem verified_sound_iff_holiday : ∃ r, verifyHoliday [1, 2] = .ok r ∧
    r.citations.map Citation.marker = ["[1]", "[2]"] ∧
    ∀ cite ∈ r.citations, cite.verified = some true →
      cite.Sound (simOf holidayEmbed fun _ chunk => chunk) percentThresholds holidayContexts := by
  have hmarkers : (fun r => r.citations.map Citation.marker) <$> verifyHoliday [1, 2] =
      .ok ["[1]", "[2]"] := rfl
  obtain ⟨r, hr, hmarkers⟩ := Except.map_eq_ok_iff.mp hmarkers
  refine ⟨r, hr, hmarkers, (verified_sound_iff (by decide) hr).mpr ?_⟩
  rintro seg hseg ⟨-, -, c, hc, s, hs, hlt⟩
  have hcitations : (entering (S := Int) (fun _ => "") none holidayContexts
      [holidayConflict [1, 2]]).map Segment.citations = [[1, 2]] := rfl
  have hcited : seg.citations = [1, 2] := by
    simpa only [hcitations, List.mem_singleton] using List.mem_map_of_mem (f := Segment.citations) hseg
  obtain rfl | rfl : c = 1 ∨ c = 2 := by simpa only [hcited, List.mem_cons, List.not_mem_nil,
    or_false] using hc
  · cases hs
    exact absurd (show (90 : Int) < 55 from hlt) (by decide)
  · cases hs
    exact absurd (show (90 : Int) < 55 from hlt) (by decide)

/-- The chunk that no group names is reported as verified although its level is weak. -/
theorem weak_chunk_reported_verified : ∃ r, verifyHoliday [1, 2, 3] = .ok r ∧
    ∃ cite ∈ r.citations, cite.marker = "[3]" ∧ cite.verified = some true ∧
      cite.supportLevel = some .weak ∧ cite.similarity = some 10 := by
  have hcites : (fun r => r.citations.map fun cite =>
      (cite.marker, cite.verified, cite.supportLevel, cite.similarity)) <$> verifyHoliday [1, 2, 3] =
        .ok [("[1]", some true, some .medium, some 90), ("[2]", some true, some .medium, some 90),
          ("[3]", some true, some .weak, some 10)] := rfl
  obtain ⟨r, hr, hcites⟩ := Except.map_eq_ok_iff.mp hcites
  have hthird : ("[3]", some true, some SupportLevel.weak, some (10 : Int)) ∈
      r.citations.map fun cite =>
        (cite.marker, cite.verified, cite.supportLevel, cite.similarity) := by
    rw [hcites]
    decide
  obtain ⟨cite, hcite, heq⟩ := List.mem_map.mp hthird
  simp only [Prod.mk.injEq] at heq
  exact ⟨r, hr, cite, hcite, heq⟩

end Example

end DomainRag.Verifier
