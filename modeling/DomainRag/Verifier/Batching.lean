import DomainRag.Verifier.Tier2

/-! # Batching is transparent

With an embedder that maps each text to a vector of its own, interning the texts and embedding
them in one batch gives every citation the similarity of its own claim and chunk.
-/

namespace DomainRag.Verifier

variable {V S : Type}

/-- A citation that Tier 2 compares, with the context that it stands for. -/
structure Target (S : Type) where
  segment : Segment S
  cidx : Int
  context : RetrievedChunk S

def segmentTargets (contexts : List (RetrievedChunk S)) (t : VerifierThresholds S)
    (seg : Segment S) : List (Target S) :=
  if seg.compared t then
    seg.citations.filterMap fun c => (contextAt contexts c).map fun ctx => ⟨seg, c, ctx⟩
  else []

def targets (contexts : List (RetrievedChunk S)) (t : VerifierThresholds S)
    (segments : List (Segment S)) : List (Target S) :=
  segments.flatMap (segmentTargets contexts t)

theorem mem_segmentTargets {contexts : List (RetrievedChunk S)} {t : VerifierThresholds S}
    {seg : Segment S} {target : Target S} :
    target ∈ segmentTargets contexts t seg ↔ seg.compared t ∧ target.segment = seg ∧
      target.cidx ∈ seg.citations ∧ contextAt contexts target.cidx = some target.context := by
  rw [segmentTargets]
  by_cases hseg : seg.compared t
  · simp only [hseg, if_true, List.mem_filterMap, Option.map_eq_some_iff, true_and]
    constructor
    · rintro ⟨c, hc, ctx, hctx, rfl⟩
      exact ⟨rfl, hc, hctx⟩
    · rintro ⟨rfl, hc, hctx⟩
      exact ⟨target.cidx, hc, target.context, hctx, rfl⟩
  · simp only [hseg, if_false, Bool.false_eq_true, List.not_mem_nil, false_and]

/-- The pair of a target finds its two texts in the batch. -/
structure Located (texts : List String) (target : Target S) (pair : Pair) : Prop where
  segIdx : pair.segIdx = target.segment.index
  citationIdx : pair.citationIdx = target.cidx
  claim : texts[pair.claimPos]? = some target.segment.text
  chunk : texts[pair.chunkPos]? = some target.context.content

theorem Located.mono {texts texts' : List String} (h : texts <+: texts') {target : Target S}
    {pair : Pair} (hl : Located texts target pair) : Located texts' target pair where
  segIdx := hl.segIdx
  citationIdx := hl.citationIdx
  claim := getElem?_of_prefix h hl.claim
  chunk := getElem?_of_prefix h hl.chunk

theorem intern_prefix (texts : List String) (s : String) : texts <+: (intern texts s).2 := by
  rw [intern]
  split
  · exact List.prefix_refl texts
  · exact List.prefix_append texts [s]

theorem intern_getElem? (texts : List String) (s : String) :
    (intern texts s).2[(intern texts s).1]? = some s := by
  rw [intern]
  split
  · rename_i hs
    exact List.getElem?_idxOf hs
  · exact List.getElem?_concat_length

theorem intern_nodup {texts : List String} (h : texts.Nodup) (s : String) :
    (intern texts s).2.Nodup := by
  rw [intern]
  split
  · exact h
  · rename_i hs
    exact List.nodup_append.mpr ⟨h, List.nodup_singleton s, fun t ht u hu htu =>
      hs (List.mem_singleton.mp hu ▸ htu ▸ ht)⟩

section Fold

variable (contexts : List (RetrievedChunk S)) (t : VerifierThresholds S)

/-- The batch so far serves exactly the given targets. -/
def Serves (ts : List (Target S)) (acc : List Pair × List String) : Prop :=
  List.Forall₂ (Located acc.2) ts acc.1

variable {contexts t}

theorem Serves.addPair {ts : List (Target S)} {acc : List Pair × List String}
    (h : Serves ts acc) (seg : Segment S) (c : Int) :
    Serves (ts ++ ((contextAt contexts c).map fun ctx => ⟨seg, c, ctx⟩).toList)
      (addPair contexts seg acc c) := by
  rw [Verifier.addPair]
  cases hctx : contextAt contexts c with
  | none => simpa only [Option.map_none, Option.toList_none, List.append_nil] using h
  | some ctx =>
    have hclaim := intern_prefix acc.2 seg.text
    have hchunk := intern_prefix (intern acc.2 seg.text).2 ctx.content
    refine List.rel_append (h.imp fun target pair hl => hl.mono (hclaim.trans hchunk)) ?_
    refine List.Forall₂.cons ⟨rfl, rfl, ?_, ?_⟩ List.Forall₂.nil
    · exact getElem?_of_prefix hchunk (intern_getElem? acc.2 seg.text)
    · exact intern_getElem? (intern acc.2 seg.text).2 ctx.content

theorem Serves.citations {ts : List (Target S)} {acc : List Pair × List String}
    (h : Serves ts acc) (seg : Segment S) (cs : List Int) :
    Serves (ts ++ cs.filterMap fun c => (contextAt contexts c).map fun ctx => ⟨seg, c, ctx⟩)
      (cs.foldl (Verifier.addPair contexts seg) acc) := by
  induction cs generalizing ts acc with
  | nil => simpa only [List.filterMap_nil, List.append_nil, List.foldl_nil] using h
  | cons c cs ih =>
    have hadd : Serves (ts ++ ((contextAt contexts c).map fun ctx => ⟨seg, c, ctx⟩).toList)
      (Verifier.addPair contexts seg acc c) := h.addPair seg c
    have hstep := ih hadd
    rw [List.append_assoc] at hstep
    rw [List.foldl_cons, List.filterMap_cons]
    cases hctx : contextAt contexts c with
    | none => simpa only [hctx, Option.map_none, Option.toList_none, List.nil_append] using hstep
    | some ctx => simpa only [hctx, Option.map_some, Option.toList_some,
        List.singleton_append] using hstep

theorem serves_collectPairs (segments : List (Segment S)) :
    Serves (targets contexts t segments) (collectPairs contexts t segments) := by
  have hfold : ∀ (ts : List (Target S)) (acc : List Pair × List String), Serves ts acc →
      Serves (ts ++ targets contexts t segments) (segments.foldl (fun acc seg =>
        if seg.compared t then seg.citations.foldl (Verifier.addPair contexts seg) acc
        else acc) acc) := by
    induction segments with
    | nil =>
      intro ts acc h
      simpa only [targets, List.flatMap_nil, List.append_nil, List.foldl_nil] using h
    | cons seg segments ih =>
      intro ts acc h
      rw [targets, List.flatMap_cons, ← List.append_assoc, List.foldl_cons]
      apply ih
      rw [segmentTargets]
      by_cases hseg : seg.compared t
      · rw [if_pos hseg, if_pos hseg]
        exact h.citations seg seg.citations
      · rw [if_neg hseg, if_neg hseg, List.append_nil]
        exact h
  exact hfold [] ([], []) List.Forall₂.nil

theorem addPair_nodup {acc : List Pair × List String} (h : acc.2.Nodup) (seg : Segment S)
    (c : Int) : (Verifier.addPair contexts seg acc c).2.Nodup := by
  rw [Verifier.addPair]
  cases contextAt contexts c with
  | none => exact h
  | some ctx => exact intern_nodup (intern_nodup h seg.text) ctx.content

theorem collectPairs_nodup (segments : List (Segment S)) :
    (collectPairs contexts t segments).2.Nodup := by
  have hcitations : ∀ (seg : Segment S) (cs : List Int) (acc : List Pair × List String),
      acc.2.Nodup → (cs.foldl (Verifier.addPair contexts seg) acc).2.Nodup := by
    intro seg cs
    induction cs with
    | nil => exact fun acc h => h
    | cons c cs ih => exact fun acc h => ih _ (addPair_nodup h seg c)
  have hfold : ∀ acc : List Pair × List String, acc.2.Nodup → (segments.foldl (fun acc seg =>
      if seg.compared t then seg.citations.foldl (Verifier.addPair contexts seg) acc
      else acc) acc).2.Nodup := by
    induction segments with
    | nil => exact fun acc h => h
    | cons seg segments ih =>
      intro acc h
      apply ih
      simp only
      split
      · exact hcitations seg seg.citations acc h
      · exact h
  exact hfold ([], []) List.nodup_nil

end Fold

def simOf (embed : String → V) (cosine : V → V → S) (claim content : String) : S :=
  cosine (embed claim) (embed content)

section Assess

variable [LinearOrder S]

def Target.assessment (sim : String → String → S) (t : VerifierThresholds S)
    (target : Target S) : VerifiedCitation S :=
  verifiedCitation t target.segment.index target.cidx
    (sim target.segment.text target.context.content)

theorem assessPair_of_located {embed : String → V} {cosine : V → V → S}
    {t : VerifierThresholds S} {texts : List String} {target : Target S} {pair : Pair}
    (h : Located texts target pair) : assessPair cosine (texts.map embed) t pair =
      .ok (target.assessment (simOf embed cosine) t) := by
  have hclaim : listGet (texts.map embed) pair.claimPos = .ok (embed target.segment.text) := by
    rw [listGet, List.getElem?_map, h.claim]
    rfl
  have hchunk : listGet (texts.map embed) pair.chunkPos = .ok (embed target.context.content) := by
    rw [listGet, List.getElem?_map, h.chunk]
    rfl
  rw [assessPair, hclaim, hchunk, h.segIdx, h.citationIdx]
  rfl

def assessments (sim : String → String → S) (contexts : List (RetrievedChunk S))
    (t : VerifierThresholds S) (segments : List (Segment S)) : List (VerifiedCitation S) :=
  (targets contexts t segments).map (Target.assessment sim t)

theorem mapM_assessPair (embed : String → V) (cosine : V → V → S)
    (contexts : List (RetrievedChunk S)) (t : VerifierThresholds S) (segments : List (Segment S)) :
    (collectPairs contexts t segments).1.mapM
        (assessPair cosine ((collectPairs contexts t segments).2.map embed) t) =
      .ok (assessments (simOf embed cosine) contexts t segments) := by
  rw [mapM_eq_ok_iff, assessments, List.forall₂_map_right_iff]
  exact (serves_collectPairs segments).flip.imp fun pair target hl => assessPair_of_located hl

end Assess

theorem assessMap_get?_eq_some_iff {as : List (VerifiedCitation S)}
    (hunique : ∀ a ∈ as, ∀ b ∈ as, a.segmentIndex = b.segmentIndex →
      a.chunkIndex = b.chunkIndex → a = b) {i : Nat} {c : Int} {a : VerifiedCitation S} :
    (assessMap as i).get? c = some a ↔ a ∈ as ∧ a.segmentIndex = i ∧ a.chunkIndex = c := by
  have hfold : ∀ m : Dict Int (VerifiedCitation S),
      (as.foldl (fun m a => if a.segmentIndex = i then m.set a.chunkIndex a else m) m).get? c =
        some a ↔ (a ∈ as ∧ a.segmentIndex = i ∧ a.chunkIndex = c) ∨
          (m.get? c = some a ∧ ∀ b ∈ as, b.segmentIndex = i → b.chunkIndex ≠ c) := by
    induction as with
    | nil => intro m; simp only [List.foldl_nil, List.not_mem_nil, false_and, false_or,
        false_implies, implies_true, and_true]
    | cons b as ih =>
      intro m
      have htail : ∀ a ∈ as, ∀ b ∈ as, a.segmentIndex = b.segmentIndex →
          a.chunkIndex = b.chunkIndex → a = b := fun a ha b hb =>
        hunique a (List.mem_cons_of_mem _ ha) b (List.mem_cons_of_mem _ hb)
      rw [List.foldl_cons, ih htail]
      by_cases hb : b.segmentIndex = i ∧ b.chunkIndex = c
      · have hsame : (if b.segmentIndex = i then m.set b.chunkIndex b else m).get? c = some b := by
          rw [if_pos hb.1, Dict.get?_set, if_pos hb.2.symm]
        constructor
        · rintro (⟨ha, hai, hac⟩ | ⟨ha, -⟩)
          · exact .inl ⟨List.mem_cons_of_mem _ ha, hai, hac⟩
          · rw [hsame, Option.some.injEq] at ha
            exact .inl ⟨ha ▸ List.mem_cons_self, ha ▸ hb⟩
        · rintro (⟨ha, hai, hac⟩ | ⟨-, hnone⟩)
          · by_cases hrest : a ∈ as
            · exact .inl ⟨hrest, hai, hac⟩
            · have hab : b = a := hunique b List.mem_cons_self a ha (hb.1.trans hai.symm)
                (hb.2.trans hac.symm)
              refine .inr ⟨hab ▸ hsame, fun a' ha' hi hc => hrest ?_⟩
              have := hunique a' (List.mem_cons_of_mem _ ha') a ha (hi.trans hai.symm)
                (hc.trans hac.symm)
              exact this ▸ ha'
          · exact absurd hb.2 (hnone b List.mem_cons_self hb.1)
      · have hsame : (if b.segmentIndex = i then m.set b.chunkIndex b else m).get? c =
            m.get? c := by
          split
          · rename_i hi
            rw [Dict.get?_set, if_neg fun hc => hb ⟨hi, hc.symm⟩]
          · rfl
        have hne : ∀ a, a.segmentIndex = i ∧ a.chunkIndex = c → a ≠ b :=
          fun a ha hab => hb (hab ▸ ha)
        rw [hsame]
        constructor
        · rintro (⟨ha, hac⟩ | ⟨ha, hnone⟩)
          · exact .inl ⟨List.mem_cons_of_mem _ ha, hac⟩
          · refine .inr ⟨ha, fun a' ha' hi => ?_⟩
            obtain rfl | ha' := List.mem_cons.mp ha'
            · exact fun hc => hb ⟨hi, hc⟩
            · exact hnone a' ha' hi
        · rintro (⟨ha, hac⟩ | ⟨ha, hnone⟩)
          · exact .inl ⟨(List.mem_cons.mp ha).resolve_left (hne a hac), hac⟩
          · exact .inr ⟨ha, fun a' ha' => hnone a' (List.mem_cons_of_mem _ ha')⟩
  rw [assessMap, hfold]
  simp only [Dict.get?_empty, reduceCtorEq, false_and, or_false]

section Transparent

variable [LinearOrder S]

/-- Segments that carry different indices, as `parseSegments` numbers them. -/
def Numbered (segments : List (Segment S)) : Prop := (segments.map Segment.index).Nodup

theorem assessMap_assessments {sim : String → String → S} {contexts : List (RetrievedChunk S)}
    {t : VerifierThresholds S} {segments : List (Segment S)} (hnum : Numbered segments)
    {seg : Segment S} (hseg : seg ∈ segments) (c : Int) :
    (assessMap (assessments sim contexts t segments) seg.index).get? c =
      if seg.compared t ∧ c ∈ seg.citations then (contextAt contexts c).map fun ctx =>
        verifiedCitation t seg.index c (sim seg.text ctx.content)
      else none := by
  have hmem : ∀ a, a ∈ assessments sim contexts t segments ↔ ∃ s ∈ segments, s.compared t ∧
      ∃ k ∈ s.citations, ∃ ctx, contextAt contexts k = some ctx ∧
        verifiedCitation t s.index k (sim s.text ctx.content) = a := by
    intro a
    simp only [assessments, targets, List.mem_map, List.mem_flatMap, mem_segmentTargets]
    constructor
    · rintro ⟨target, ⟨s, hs, hcompared, rfl, hk, hctx⟩, rfl⟩
      exact ⟨target.segment, hs, hcompared, target.cidx, hk, target.context, hctx, rfl⟩
    · rintro ⟨s, hs, hcompared, k, hk, ctx, hctx, rfl⟩
      exact ⟨⟨s, k, ctx⟩, ⟨s, hs, hcompared, rfl, hk, hctx⟩, rfl⟩
  have hinj : ∀ s ∈ segments, ∀ s' ∈ segments, s.index = s'.index → s = s' :=
    fun s hs s' hs' h => List.inj_on_of_nodup_map hnum hs hs' h
  ext a
  rw [assessMap_get?_eq_some_iff ?_, hmem]
  · constructor
    · rintro ⟨⟨s, hs, hcompared, k, hk, ctx, hctx, rfl⟩, hi, hc⟩
      obtain rfl : s = seg := hinj s hs seg hseg hi
      obtain rfl : k = c := hc
      rw [if_pos ⟨hcompared, hk⟩, hctx]
      rfl
    · intro h
      split at h
      · rename_i hcited
        obtain ⟨ctx, hctx, rfl⟩ := Option.map_eq_some_iff.mp h
        exact ⟨⟨seg, hseg, hcited.1, c, hcited.2, ctx, hctx, rfl⟩, rfl, rfl⟩
      · cases h
  · intro a ha b hb hi hc
    obtain ⟨s, hs, -, k, -, ctx, hctx, rfl⟩ := (hmem a).mp ha
    obtain ⟨s', hs', -, k', -, ctx', hctx', rfl⟩ := (hmem b).mp hb
    obtain rfl : s = s' := hinj s hs s' hs' hi
    obtain rfl : k = k' := hc
    rw [hctx] at hctx'
    rw [Option.some.inj hctx']

variable [Zero S] [Add S] [Div S] [NatCast S]

theorem tier2Classify_of_embeds {embedder : Embedder V} {segments : List (Segment S)}
    {contexts : List (RetrievedChunk S)} {t : VerifierThresholds S} {embed : String → V}
    (h : embedder.embedTexts (collectPairs contexts t segments).2 =
      .ok ((collectPairs contexts t segments).2.map embed)) (cosine : V → V → S) :
    tier2Classify embedder cosine segments contexts t =
      (let as := assessments (simOf embed cosine) contexts t segments
       (segments.mapM fun seg => classifySegment t (assessMap as seg.index) seg) >>= fun segs =>
        .ok ⟨segs, as, average (as.map VerifiedCitation.similarity)⟩) := by
  simp only [tier2Classify, h, bind, Except.bind, mapM_assessPair]
  rfl

theorem tier2Classify_ofFn (embed : String → V) (cosine : V → V → S) (segments : List (Segment S))
    (contexts : List (RetrievedChunk S)) (t : VerifierThresholds S) :
    tier2Classify (.ofFn embed) cosine segments contexts t =
      (let as := assessments (simOf embed cosine) contexts t segments
       (segments.mapM fun seg => classifySegment t (assessMap as seg.index) seg) >>= fun segs =>
        .ok ⟨segs, as, average (as.map VerifiedCitation.similarity)⟩) := by
  apply tier2Classify_of_embeds
  apply Embedder.embedTexts_eq
  exact fun _ => rfl

end Transparent

end DomainRag.Verifier
