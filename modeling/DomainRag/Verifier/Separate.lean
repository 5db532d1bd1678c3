import DomainRag.Verifier.Soundness

/-! # One pair at a time

The batch of Tier 2 compared with embedding the claim and the chunk of each pair on their own. Which
segments are compared depends on their type: a type that is none of the documented ones counts as
direct.
-/

namespace DomainRag.Verifier

variable {V S : Type}

section Flatten

variable {A B K : Type} [DecidableEq K] {key : A → K} {tag : B → K} {f : A → List B}

/-- Of all the results, those with the key of an element are its own. -/
theorem filter_flatMap_of_nodup {xs : List A} (hnodup : (xs.map key).Nodup)
    (htag : ∀ x ∈ xs, ∀ b ∈ f x, tag b = key x) {x : A} (hx : x ∈ xs) :
    (xs.flatMap f).filter (fun b => tag b = key x) = f x := by
  have hown : ∀ y ∈ xs, (f y).filter (fun b => tag b = key x) = if key y = key x then f y else [] := by
    intro y hy
    split
    · rename_i heq
      exact List.filter_eq_self.mpr fun b hb => decide_eq_true ((htag y hy b hb).trans heq)
    · rename_i hne
      refine List.filter_eq_nil_iff.mpr fun b hb heq => hne ?_
      exact (htag y hy b hb).symm.trans (of_decide_eq_true heq)
  rw [List.filter_flatMap]
  induction xs with
  | nil => cases hx
  | cons y xs ih =>
    obtain ⟨hy, hxs⟩ := List.nodup_cons.mp hnodup
    have hrest := fun z hz => hown z (List.mem_cons_of_mem y hz)
    rw [List.flatMap_cons, hown y List.mem_cons_self]
    obtain rfl | hx := List.mem_cons.mp hx
    · have hnone : xs.flatMap (fun z => (f z).filter fun b => tag b = key x) = [] := by
        refine List.flatMap_eq_nil_iff.mpr fun z hz => ?_
        rw [hrest z hz]
        exact if_neg fun heq => hy (List.mem_map.mpr ⟨z, hz, heq⟩)
      rw [if_pos rfl, hnone, List.append_nil]
    · rw [if_neg fun heq => hy (List.mem_map.mpr ⟨x, hx, heq.symm⟩), List.nil_append]
      exact ih hxs (fun z hz => htag z (List.mem_cons_of_mem y hz)) hx hrest

end Flatten

theorem assessMap_eq_ofList (as : List (VerifiedCitation S)) (i : Nat) : assessMap as i =
    .ofList ((as.filter fun a => a.segmentIndex = i).map fun a => (a.chunkIndex, a)) := by
  rw [assessMap, Dict.ofList, Dict.update, List.foldl_map, List.foldl_filter]
  simp only [decide_eq_true_eq]

section Alone

variable [LinearOrder S] (embedder : Embedder V) (cosine : V → V → S)
  (contexts : List (RetrievedChunk S)) (t : VerifierThresholds S)

def embedAlone (s : String) : Except Exc V := do listGet (← embedder.embedBatch [s]) 0

/-- A pair is compared by embedding its claim and its chunk on their own. -/
def Target.assessAlone (target : Target S) : Except Exc (VerifiedCitation S) := do
  let claim ← embedAlone embedder target.segment.text
  let chunk ← embedAlone embedder target.context.content
  return verifiedCitation t target.segment.index target.cidx (cosine claim chunk)

def assessSegment (seg : Segment S) : Except Exc (List (VerifiedCitation S)) :=
  (segmentTargets contexts t seg).mapM (Target.assessAlone embedder cosine t)

/-- A segment is classified by what was found for its own citations. -/
def classifyOwn (seg : Segment S) (own : List (VerifiedCitation S)) : Except Exc (Segment S) :=
  classifySegment t (.ofList (own.map fun a => (a.chunkIndex, a))) seg

/-- Tier 2 without a batch: each segment has its citations assessed by themselves. -/
def tier2Separately [Zero S] [Add S] [Div S] [NatCast S] (segments : List (Segment S)) :
    Except Exc (Tier2Result S) := do
  let own ← segments.mapM (assessSegment embedder cosine contexts t)
  let newSegments ← (segments.zip own).mapM fun e => classifyOwn t e.1 e.2
  return ⟨newSegments, own.flatten, average (own.flatten.map VerifiedCitation.similarity)⟩

/-- Whether the citations of a segment are to be compared; `unlisted` is for the types that are
none of the documented ones. -/
def assessedType (unlisted : Bool) (seg : Segment S) : Bool :=
  match seg.supportType with
  | .direct | .synthesis => true
  | .inference => t.inferenceJudgeEnabled
  | .conflict => seg.conflictGroups.truthy
  | .other _ => unlisted

/-- The pairs to be compared, each as often as it is cited. -/
def assessedPairs (unlisted : Bool) (segments : List (Segment S)) : List (Segment S × Int) :=
  (segments.filter (assessedType t unlisted)).flatMap fun seg => seg.citations.map (seg, ·)

/-- What is recorded for a pair comes from embedding its two texts on their own. -/
structure AssessedAlone (pair : Segment S × Int) (a : VerifiedCitation S) : Prop where
  segmentIndex : a.segmentIndex = pair.1.index
  chunkIndex : a.chunkIndex = pair.2
  similarity : ∃ ctx claim chunk, contextAt contexts pair.2 = some ctx ∧
    embedder.embedBatch [pair.1.text] = .ok [claim] ∧
    embedder.embedBatch [ctx.content] = .ok [chunk] ∧ a.similarity = cosine claim chunk
  graded : (a.supportLevel, a.verified) = classify a.similarity t

/-- The batch makes no difference, and exactly the given types of segments are compared. -/
structure Transparent [Zero S] [Add S] [Div S] [NatCast S] (unlisted : Bool)
    (segments : List (Segment S)) : Prop where
  separately : tier2Classify embedder cosine segments contexts t =
    tier2Separately embedder cosine contexts t segments
  assessed : ∀ r, tier2Classify embedder cosine segments contexts t = .ok r →
    List.Forall₂ (AssessedAlone embedder cosine contexts t) (assessedPairs t unlisted segments)
      r.assessments

end Alone

section Transparency

variable [LinearOrder S] {embedder : Embedder V} {embed : String → V} {cosine : V → V → S}
  {contexts : List (RetrievedChunk S)} {t : VerifierThresholds S} {segments : List (Segment S)}
  {seg : Segment S}

omit [LinearOrder S] in
theorem embedAlone_eq (hembed : ∀ texts, embedder.embedBatch texts = .ok (texts.map embed))
    (s : String) : embedAlone embedder s = .ok (embed s) := by
  rw [embedAlone, hembed]
  rfl

theorem assessAlone_eq (hembed : ∀ texts, embedder.embedBatch texts = .ok (texts.map embed))
    (target : Target S) : target.assessAlone embedder cosine t =
      .ok (target.assessment (simOf embed cosine) t) := by
  rw [Target.assessAlone, embedAlone_eq hembed, embedAlone_eq hembed]
  rfl

theorem assessSegment_eq (hembed : ∀ texts, embedder.embedBatch texts = .ok (texts.map embed))
    (seg : Segment S) : assessSegment embedder cosine contexts t seg =
      .ok ((segmentTargets contexts t seg).map (Target.assessment (simOf embed cosine) t)) := by
  rw [assessSegment, mapM_eq_ok_iff, List.forall₂_map_right_iff]
  exact List.forall₂_same.mpr fun target _ => assessAlone_eq hembed target

/-- The assessments that stand under the index of a segment are its own. -/
theorem assessMap_own (sim : String → String → S) (hnum : Numbered segments)
    (hseg : seg ∈ segments) : assessMap (assessments sim contexts t segments) seg.index =
      .ofList (((segmentTargets contexts t seg).map (Target.assessment sim t)).map
        fun a => (a.chunkIndex, a)) := by
  have hown : (assessments sim contexts t segments).filter
      (fun a => a.segmentIndex = seg.index) =
        (segmentTargets contexts t seg).map (Target.assessment sim t) := by
    rw [assessments, targets, List.map_flatMap]
    refine filter_flatMap_of_nodup hnum (fun s _ a ha => ?_) hseg
    obtain ⟨target, htarget, rfl⟩ := List.mem_map.mp ha
    exact congrArg Segment.index (mem_segmentTargets.mp htarget).2.1
  rw [assessMap_eq_ofList, hown]

omit [LinearOrder S] in
theorem exists_context {c : Int} (h : inRange contexts.length c = true) :
    ∃ ctx, contextAt contexts c = some ctx := by
  have hbounds := h
  simp only [inRange, Bool.and_eq_true, decide_eq_true_eq] at hbounds
  have hlt : (c - 1).toNat < contexts.length := by omega
  exact ⟨contexts[(c - 1).toNat], by rw [contextAt, if_pos h, List.getElem?_eq_getElem hlt]⟩

theorem assessedAlone_assessment
    (hembed : ∀ texts, embedder.embedBatch texts = .ok (texts.map embed)) {c : Int}
    {ctx : RetrievedChunk S} (hctx : contextAt contexts c = some ctx) :
    AssessedAlone embedder cosine contexts t (seg, c)
      (Target.assessment (simOf embed cosine) t ⟨seg, c, ctx⟩) where
  segmentIndex := rfl
  chunkIndex := rfl
  similarity := ⟨ctx, embed seg.text, embed ctx.content, hctx, hembed _, hembed _, rfl⟩
  graded := rfl

theorem assessedAlone_targets (hrange : ∀ c ∈ seg.citations, inRange contexts.length c = true)
    (hembed : ∀ texts, embedder.embedBatch texts = .ok (texts.map embed)) :
    List.Forall₂ (AssessedAlone embedder cosine contexts t)
      (if assessedType t true seg then seg.citations.map (seg, ·) else [])
      ((segmentTargets contexts t seg).map (Target.assessment (simOf embed cosine) t)) := by
  have hsame : assessedType t true seg = seg.compared t := by
    rw [assessedType, Segment.compared]
    cases seg.supportType <;> rfl
  rw [hsame, segmentTargets]
  split
  · generalize seg.citations = cs at hrange ⊢
    induction cs with
    | nil => exact .nil
    | cons c cs ih =>
      obtain ⟨ctx, hctx⟩ := exists_context (hrange c List.mem_cons_self)
      rw [List.filterMap_cons, hctx]
      exact .cons (assessedAlone_assessment hembed hctx)
        (ih fun c' hc' => hrange c' (List.mem_cons_of_mem c hc'))
  · exact .nil

variable [Zero S] [Add S] [Div S] [NatCast S]

theorem tier2Separately_eq (hembed : ∀ texts, embedder.embedBatch texts = .ok (texts.map embed))
    (hnum : Numbered segments) :
    tier2Classify embedder cosine segments contexts t =
      tier2Separately embedder cosine contexts t segments := by
  have hown : segments.mapM (assessSegment embedder cosine contexts t) = .ok (segments.map fun seg =>
      (segmentTargets contexts t seg).map (Target.assessment (simOf embed cosine) t)) := by
    rw [mapM_eq_ok_iff, List.forall₂_map_right_iff]
    exact List.forall₂_same.mpr fun seg _ => assessSegment_eq hembed seg
  have hflat : (segments.map fun seg => (segmentTargets contexts t seg).map
      (Target.assessment (simOf embed cosine) t)).flatten =
        assessments (simOf embed cosine) contexts t segments := by
    rw [assessments, targets, List.map_flatMap]
    rfl
  have hclassify : segments.mapM (fun seg => classifySegment t
      (assessMap (assessments (simOf embed cosine) contexts t segments) seg.index) seg) =
        (segments.zip (segments.map fun seg => (segmentTargets contexts t seg).map
          (Target.assessment (simOf embed cosine) t))).mapM fun e => classifyOwn t e.1 e.2 := by
    have hzip := @List.zip_map' (Segment S) (Segment S) _ id (fun seg =>
      (segmentTargets contexts t seg).map (Target.assessment (simOf embed cosine) t)) segments
    rw [List.map_id] at hzip
    rw [hzip, List.mapM_map]
    refine mapM_congr fun seg hseg => ?_
    rw [assessMap_own _ hnum hseg]
    rfl
  rw [tier2Classify_of_embeds (Embedder.embedTexts_eq fun _ => hembed _), tier2Separately, hown]
  simp only [hclassify]
  rw [← hflat]
  rfl

omit [Zero S] [Add S] [Div S] [NatCast S] in
theorem assessedAlone_assessments
    (hembed : ∀ texts, embedder.embedBatch texts = .ok (texts.map embed))
    (hrange : ∀ seg ∈ segments, ∀ c ∈ seg.citations, inRange contexts.length c = true) :
    List.Forall₂ (AssessedAlone embedder cosine contexts t) (assessedPairs t true segments)
      (assessments (simOf embed cosine) contexts t segments) := by
  rw [assessments, targets, assessedPairs, List.map_flatMap]
  induction segments with
  | nil => exact .nil
  | cons seg segments ih =>
    have hown : List.Forall₂ (AssessedAlone embedder cosine contexts t)
        (if assessedType t true seg then seg.citations.map (seg, ·) else [])
        ((segmentTargets contexts t seg).map (Target.assessment (simOf embed cosine) t)) :=
      assessedAlone_targets (hrange seg List.mem_cons_self) hembed
    have hrest := ih fun s hs => hrange s (List.mem_cons_of_mem seg hs)
    rw [List.flatMap_cons]
    cases hassessed : assessedType t true seg with
    | true =>
      rw [hassessed, if_pos rfl] at hown
      rw [List.filter_cons_of_pos hassessed, List.flatMap_cons]
      exact List.rel_append hown hrest
    | false =>
      rw [hassessed, if_neg Bool.false_ne_true] at hown
      rw [List.filter_cons_of_neg (Bool.eq_false_iff.mp hassessed),
        List.forall₂_nil_left_iff.mp hown, List.nil_append]
      exact hrest

/-- Tier 2 records for each pair what its claim and its chunk give on their own, and compares all
segments but for inferences without a judge and conflicts without groups. -/
theorem tier2_transparent (embedder : Embedder V) (embed : String → V) (cosine : V → V → S)
    (contexts : List (RetrievedChunk S)) (t : VerifierThresholds S) (segments : List (Segment S))
    (hembed : ∀ texts, embedder.embedBatch texts = .ok (texts.map embed))
    (hnum : segments.map Segment.index = List.range segments.length)
    (hrange : ∀ seg ∈ segments, ∀ c ∈ seg.citations, inRange contexts.length c = true) :
    Transparent embedder cosine contexts t true segments := by
  have hnumbered : Numbered segments := by
    rw [Numbered, hnum]
    exact List.nodup_range
  refine ⟨tier2Separately_eq hembed hnumbered, fun r hr => ?_⟩
  rw [tier2Classify_of_embeds (Embedder.embedTexts_eq fun _ => hembed _)] at hr
  obtain ⟨segs, -, hr⟩ := Except.bind_eq_ok_iff.mp hr
  cases hr
  exact assessedAlone_assessments hembed hrange

end Transparency

/-- A segment of the given type that repeats the first chunk and cites it twice. -/
def quotingSegment (supportType : SupportType) : Segment Int where
  index := 0
  text := "연차는 10일"
  citations := [1, 3, 1]
  supportType := supportType
  inferenceChain := .null
  conflictGroups := .null

theorem tier2_transparent_quoting : Transparent (.ofFn holidayEmbed) (fun _ chunk => chunk)
    holidayContexts percentThresholds true [quotingSegment .direct] :=
  tier2_transparent _ holidayEmbed _ _ _ _ (fun _ => rfl) rfl (by decide)

def unlistedRaw : Value :=
  .dict [("text", .str "연차는 10일"), ("citations", .list [.int 1, .int 3, .int 1]),
    ("support_type", .str "unsupported")]

/-- A type that is none of the documented ones is compared as well. -/
theorem unlisted_type_assessed :
    parseSegments (fun _ => "") [unlistedRaw] =
      .ok [quotingSegment (.other (.str "unsupported"))] ∧
    ¬ Transparent (.ofFn holidayEmbed) (fun _ chunk => chunk) holidayContexts percentThresholds
      false [quotingSegment (.other (.str "unsupported"))] := by
  refine ⟨rfl, fun h => ?_⟩
  have hcompared := h.assessed _ rfl
  cases hcompared

end DomainRag.Verifier
