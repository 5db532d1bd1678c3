import DomainRag.Verifier.Gating
import DomainRag.Verifier.Reverifier

/-! # What re-verification leaves unchanged

A stored level depends on the type of its segment: conflicts, and inferences that the judge let
pass, are never stored above medium. Re-verification reads the texts only.
-/

namespace DomainRag.Verifier

variable {V S : Type}

section Cosine

variable (sqrt : Rat → Rat)

def norm (a : List Rat) : Rat := sqrt (a.map fun x => x * x).sum

def dot (a b : List Rat) : Rat := (List.zipWith (· * ·) a b).sum

/-- `_cosine` of the verifier, where a vector of length zero counts as one of length one. -/
def cosine (a b : List Rat) : Rat :=
  if a.isEmpty || b.isEmpty then 0
  else
    let na := if norm sqrt a = 0 then 1 else norm sqrt a
    let nb := if norm sqrt b = 0 then 1 else norm sqrt b
    dot a b / (na * nb)

/-- `_cosine` of the re-verifier, which compares vectors of one dimension only. -/
def CitationReverifier.cosine (a b : List Rat) : Rat :=
  if a.isEmpty || b.isEmpty || a.length ≠ b.length then 0
  else if norm sqrt a = 0 ∨ norm sqrt b = 0 then 0
  else dot a b / (norm sqrt a * norm sqrt b)

variable {sqrt} {a b : List Rat}

theorem sum_squares_nonneg (a : List Rat) : 0 ≤ (a.map fun x => x * x).sum := by
  apply List.sum_nonneg
  intro y hy
  obtain ⟨x, -, rfl⟩ := List.mem_map.mp hy
  exact mul_self_nonneg x

theorem eq_zero_of_sum_squares (h : (a.map fun x => x * x).sum = 0) : ∀ x ∈ a, x = 0 := by
  induction a with
  | nil => exact nofun
  | cons x a ih =>
    rw [List.map_cons, List.sum_cons] at h
    have hx := mul_self_nonneg x
    have ha := sum_squares_nonneg a
    intro y hy
    obtain rfl | hy := List.mem_cons.mp hy
    · exact mul_self_eq_zero.mp (by linarith)
    · exact ih (by linarith) y hy

theorem dot_eq_zero_left (h : ∀ x ∈ a, x = 0) (b : List Rat) : dot a b = 0 := by
  induction a generalizing b with
  | nil => rfl
  | cons x a ih =>
    cases b with
    | nil => rfl
    | cons y b =>
      have hrest := ih (fun z hz => h z (List.mem_cons_of_mem x hz)) b
      rw [dot] at hrest ⊢
      rw [List.zipWith_cons_cons, List.sum_cons, hrest, h x List.mem_cons_self, zero_mul, zero_add]

theorem dot_comm (a b : List Rat) : dot a b = dot b a := by
  rw [dot, dot, List.zipWith_comm_of_comm (fun x y => mul_comm x y)]

theorem dot_eq_zero_of_norm (hsqrt : ∀ x, 0 ≤ x → sqrt x = 0 → x = 0) (h : norm sqrt a = 0)
    (b : List Rat) : dot a b = 0 :=
  dot_eq_zero_left (eq_zero_of_sum_squares (hsqrt _ (sum_squares_nonneg a) h)) b

/-- The two cosines agree on the vectors of one embedder. -/
theorem cosine_eq (hsqrt : ∀ x, 0 ≤ x → sqrt x = 0 → x = 0) (hlength : a.length = b.length) :
    CitationReverifier.cosine sqrt a b = cosine sqrt a b := by
  rw [CitationReverifier.cosine, cosine]
  simp only [hlength, ne_eq, not_true_eq_false, decide_false, Bool.or_false]
  split
  · rfl
  · split
    · rename_i hnorm
      have hdot : dot a b = 0 := by
        obtain ha | hb := hnorm
        · exact dot_eq_zero_of_norm hsqrt ha b
        · rw [dot_comm]
          exact dot_eq_zero_of_norm hsqrt hb a
      rw [hdot, zero_div]
    · rename_i hnorm
      rw [not_or] at hnorm
      rw [if_neg hnorm.1, if_neg hnorm.2]

end Cosine

section Stored

/-- The types whose citations are never stored above medium, when inferences are judged or not. -/
def SupportType.capped (judged : Bool) : SupportType → Bool
  | .conflict => true
  | .inference => judged
  | _ => false

variable [LinearOrder S]

/-- What is recorded for a similarity under a cap. -/
def gradeUnder (capped : Bool) (a : VerifiedCitation S) : VerifiedCitation S :=
  if capped then a.capped else a

/-- Every citation of the segment is recorded with its own similarity, capped as its type asks. -/
def Segment.Graded (sim : String → String → S) (t : VerifierThresholds S)
    (contexts : List (RetrievedChunk S)) (judged : Bool) (seg : Segment S) : Prop :=
  ∀ c ∈ seg.citations, ∃ ctx, contextAt contexts c = some ctx ∧ seg.citationMeta.get? c =
    some (gradeUnder (seg.supportType.capped judged)
      (verifiedCitation t seg.index c (sim seg.text ctx.content)))

variable {sim : String → String → S} {t : VerifierThresholds S}
  {contexts : List (RetrievedChunk S)} {seg out : Segment S} {m : Dict Int (VerifiedCitation S)}

theorem Assesses.recorded (hm : Assesses sim t contexts seg m) {c : Int} {a : VerifiedCitation S}
    (h : m.get? c = some a) : ∃ ctx, contextAt contexts c = some ctx ∧
      a = verifiedCitation t seg.index c (sim seg.text ctx.content) := by
  obtain ⟨-, -, s, hs, rfl⟩ := hm.get? h
  obtain ⟨ctx, hctx, rfl⟩ := Option.map_eq_some_iff.mp hs
  exact ⟨ctx, hctx, rfl⟩

/-- What is stored for a citation of the segment comes from its own similarity. -/
theorem Assesses.get?_pick (hm : Assesses sim t contexts seg m) {cites : List Int} {c : Int}
    {a : VerifiedCitation S} (hc : c ∈ cites) (ha : m.get? c = some a)
    (f : VerifiedCitation S → VerifiedCitation S) : ∃ ctx, contextAt contexts c = some ctx ∧
      (m.pick f cites).get? c =
        some (f (verifiedCitation t seg.index c (sim seg.text ctx.content))) := by
  obtain ⟨ctx, hctx, rfl⟩ := hm.recorded ha
  refine ⟨ctx, hctx, ?_⟩
  rw [Dict.get?_pick, if_pos hc, ha, Option.map_some]

theorem graded_of_classified (hm : Assesses sim t contexts seg m)
    (hrange : ∀ c ∈ seg.citations, inRange contexts.length c = true)
    (h : Classified t m seg out) : out.Graded sim t contexts false := by
  cases h with
  | downgraded reason citationMeta => exact nofun
  | conflict htype hgroups =>
    intro c hc
    have hverified := allVerified_of_classified hm hrange (.conflict htype hgroups) c hc
    obtain ⟨a, ha, -⟩ := chunkVerified_iff.mp hverified.2
    rw [Dict.get?_pick, if_pos hc] at ha
    obtain ⟨b, hb, -⟩ := Option.map_eq_some_iff.mp ha
    obtain ⟨ctx, hctx, hget⟩ := hm.get?_pick hc hb VerifiedCitation.capped
    exact ⟨ctx, hctx, by rw [htype]; exact hget⟩
  | pending htype henabled hall =>
    intro c hc
    obtain ⟨a, ha, -⟩ := chunkVerified_iff.mp (hall c hc)
    obtain ⟨ctx, hctx, hget⟩ := hm.get?_pick hc ha id
    exact ⟨ctx, hctx, by rw [htype]; exact hget⟩
  | kept hconflict hinference =>
    intro c hc
    obtain ⟨a, ha, -⟩ := chunkVerified_iff.mp (List.mem_filter.mp hc).2
    obtain ⟨ctx, hctx, hget⟩ := hm.get?_pick hc ha id
    have huncapped : (dropWeak m seg).supportType.capped false = false := by
      change seg.supportType.capped false = false
      cases htype : seg.supportType with
      | conflict => exact absurd htype hconflict
      | inference | direct | synthesis | other _ => rfl
    exact ⟨ctx, hctx, hget.trans (by rw [huncapped]; rfl)⟩

theorem graded_of_judged {service : Option (JudgeService S)} {calls : List (JudgeCall S)}
    (hgraded : seg.Graded sim t contexts false)
    (hpending : seg.citations ≠ [] → (seg.pendingJudge = true ↔ seg.supportType = .inference))
    (h : AfterJudge service contexts calls seg out) :
    out.Graded sim t contexts service.isSome := by
  cases service with
  | none =>
    rw [show out = seg from h]
    exact hgraded
  | some service =>
    obtain ⟨call, hjudged, -⟩ := h
    cases hjudged with
    | rejected call hp => exact nofun
    | skipped hp =>
      intro c hc
      have htype : seg.supportType ≠ .inference := fun htype => by
        rw [(hpending (List.ne_nil_of_mem hc)).mpr htype] at hp
        cases hp
      have hsame : seg.supportType.capped true = seg.supportType.capped false := by
        cases hcase : seg.supportType with
        | inference => exact absurd hcase htype
        | conflict | direct | synthesis | other _ => rfl
      rw [Option.isSome_some, hsame]
      exact hgraded c hc
    | passed call hp _ =>
      intro c hc
      obtain ⟨ctx, hctx, ha⟩ := hgraded c hc
      have htype := (hpending (List.ne_nil_of_mem hc)).mp hp
      refine ⟨ctx, hctx, ?_⟩
      change (seg.citationMeta.mapValues fun _ a => a.capped).get? c =
        some (gradeUnder (seg.supportType.capped true) _)
      rw [Dict.get?_mapValues, ha, htype]
      rfl

variable [Zero S] [Add S] [Div S] [NatCast S]

theorem graded_of_answer {deps : VerifierDeps V S} {detector : Option ConflictDetector}
    {rawSegments : List Value} {domainId : String} {limitations : Value} {r : Verified S}
    {embed : String → V} (hembed : deps.embedder = .ofFn embed)
    (h : verifyAnswer deps detector t rawSegments contexts domainId limitations = .ok r) :
    ∀ seg ∈ r.segments, seg.Graded (simOf embed deps.cosine) t contexts deps.judgeService.isSome := by
  obtain ⟨parsed, tier2, judged, hparsed, htier2, hjudged, rfl⟩ := exists_of_verifyAnswer h
  intro out hout
  obtain ⟨i, hi⟩ := List.getElem?_of_mem hout
  obtain ⟨mid, hmid, hjudge⟩ := getElem?_of_forall₂ (judgeInference_ok hjudged).flip hi
  obtain ⟨seg, hseg, hclassified⟩ := getElem?_of_forall₂ (tier2Classify_ok htier2).flip hmid
  have hmem := List.mem_of_getElem? hseg
  rw [hembed] at htier2
  have hassesses := assesses_of_tier2 htier2 (numbered_enter hparsed detector contexts) hmem
  have hrange : ∀ c ∈ seg.citations, inRange contexts.length c = true := by
    rw [enter_eq_map] at hmem
    obtain ⟨before, -, rfl⟩ := List.mem_map.mp hmem
    exact (enterSegment_entered detector contexts before).inRange
  refine graded_of_judged (graded_of_classified hassesses hrange (classifySegment_ok hclassified))
    (fun hcited => ?_) hjudge
  rw [classified_supportType hclassified]
  exact pending_iff_inference (fresh_of_mem_enter hparsed hmem) hclassified hcited

end Stored

section Record

open CitationReverifier
open Storage (strip)

def SupportType.raw : SupportType → Value
  | .direct => .str "direct"
  | .synthesis => .str "synthesis"
  | .inference => .str "inference"
  | .conflict => .str "conflict"
  | .other raw => raw

def orNull (f : S → Value) (x : Option S) : Value := (x.map f).getD .null

/-- A citation as it stands in the chat log. -/
def Citation.record (cite : Citation Rat) : Value :=
  .dict [("marker", .str cite.marker), ("domain_id", .str cite.domainId),
    ("support_type", cite.supportType.raw),
    ("support_level", orNull (fun level => .str level.text) cite.supportLevel),
    ("verified", orNull .bool cite.verified), ("claim_text", .str cite.claimText),
    ("doc_id", cite.docId.getD .null), ("chunk_id", .str cite.chunkId), ("title", .str cite.title),
    ("page_number", cite.pageNumber), ("section_title", cite.sectionTitle),
    ("excerpt", .str cite.excerpt), ("score", .float cite.score),
    ("rerank_score", orNull .float cite.rerankScore),
    ("similarity", orNull .float cite.similarity)]

def field (key : String) (record : Value) : Option Value := (recordOf record).lookup key

/-- The level and the verified flag of a record are those of another. -/
def SameGrade (before after : Value) : Prop :=
  field "support_level" after = field "support_level" before ∧
    field "verified" after = field "verified" before

/-- The types whose citations are not to be raised above medium. -/
def Cautious (supportType : Value) : Prop :=
  supportType = .str "inference" ∨ supportType = .str "conflict"

/-- The claim or the excerpt is nothing but white space. -/
def Citation.Blank (cite : Citation S) : Prop := strip cite.claimText = "" ∨ strip cite.excerpt = ""

variable {V : Type} {embed : String → V} {cos : V → V → Rat} {round4 : Rat → Rat}
  {t : ReverifyThresholds} {cite : Citation Rat} {kvs : List (String × Value)}

theorem field_revise (sim : Rat) (level : SupportLevel) (c : Value) (key : String) :
    field key (revise round4 sim level c) =
      if key = "verified" then some (.bool (level ≠ .weak))
      else if key = "support_level" then some (.str level.text)
      else if key = "similarity" then some (.float (round4 sim)) else field key c := by
  simp only [field, revise, recordOf, Value.lookup_setKey]

theorem text_injective : Function.Injective SupportLevel.text := by
  intro l l' h
  cases l <;> cases l' <;> first | rfl | simp [SupportLevel.text] at h

theorem field_supportLevel (cite : Citation Rat) : field "support_level" cite.record =
    some (orNull (fun level => .str level.text) cite.supportLevel) := by
  simp [field, recordOf, Citation.record, List.lookup_cons]

theorem field_verified (cite : Citation Rat) :
    field "verified" cite.record = some (orNull .bool cite.verified) := by
  simp [field, recordOf, Citation.record, List.lookup_cons]

theorem field_supportType (cite : Citation Rat) :
    field "support_type" cite.record = some cite.supportType.raw := by
  simp [field, recordOf, Citation.record, List.lookup_cons]

theorem orElse_empty (s : String) : (Value.str s).orElse (.str "") = .str s := by
  rw [Value.orElse]
  split
  · rfl
  · rename_i hempty
    simp only [Value.truthy, ne_eq, decide_not, Bool.not_eq_true', decide_eq_false_iff_not,
      not_not] at hempty
    rw [hempty]

theorem targetOf_record (i : Nat) (cite : Citation Rat) : targetOf i cite.record =
    .ok (if strip cite.claimText = "" ∨ strip cite.excerpt = "" then none
      else some ⟨i, strip cite.claimText, strip cite.excerpt⟩) := by
  have hclaim : stripped cite.record "claim_text" = .ok (strip cite.claimText) := by
    simp [stripped, Citation.record, Value.get, List.lookup_cons, bind, Except.bind, orElse_empty,
      pure, Except.pure]
  have hexcerpt : stripped cite.record "excerpt" = .ok (strip cite.excerpt) := by
    simp [stripped, Citation.record, Value.get, List.lookup_cons, bind, Except.bind, orElse_empty,
      pure, Except.pure]
  rw [targetOf, hclaim, hexcerpt]
  rfl

def Citation.strippedSim (embed : String → V) (cos : V → V → Rat) (cite : Citation Rat) : Rat :=
  simOf embed cos (strip cite.claimText) (strip cite.excerpt)

theorem recheck_blank (h : cite.Blank) :
    recheck embed cos round4 t cite.record = cite.record := by
  rw [Citation.Blank] at h
  rw [recheck, targetOf_record, if_pos h]

theorem recheck_of_not_blank (h : ¬ cite.Blank) : recheck embed cos round4 t cite.record =
    revise round4 (cite.strippedSim embed cos)
      (CitationReverifier.classify (cite.strippedSim embed cos) t) cite.record := by
  rw [Citation.Blank] at h
  rw [recheck, targetOf_record, if_neg h]
  rfl

theorem reverifyOne_records (embed : String → V) (cos : V → V → Rat) (round4 : Rat → Rat)
    (t : ReverifyThresholds) (requestId : String) (cites : List (Citation Rat)) :
    ∃ out, reverifyOne (.ofFn embed) cos round4 t requestId (cites.map Citation.record) = .ok out ∧
      out.citationsAfter = cites.map fun cite => recheck embed cos round4 t cite.record := by
  have htargets : Returns (CitationReverifier.targets (cites.map Citation.record)) := by
    refine (returns_bind_iff_and fun _ => iff_of_true (returns_ok _) trivial).mpr ⟨?_, trivial⟩
    rw [returns_mapM_iff]
    rintro ⟨c, i⟩ hmem
    obtain ⟨cite, -, rfl⟩ := List.mem_map.mp (List.fst_mem_of_mem_zipIdx hmem)
    exact ⟨_, targetOf_record i cite⟩
  obtain ⟨ts, hts⟩ := htargets
  have hlevels : ∀ c ∈ cites.map Citation.record,
      Returns (rank? (((recordOf c).lookup "support_level").getD .null)) := by
    intro c hc
    obtain ⟨cite, -, rfl⟩ := List.mem_map.mp hc
    rw [show (recordOf cite.record).lookup "support_level" = _ from field_supportLevel cite]
    cases cite.supportLevel with
    | none => exact returns_ok _
    | some level => exact returns_ok _
  obtain ⟨out, hout, hafter⟩ := reverifyOne_ofFn requestId hts hlevels
  exact ⟨out, hout, by rw [hafter, List.map_map]; rfl⟩

def VerifierThresholds.forReverify (t : VerifierThresholds Rat) : ReverifyThresholds :=
  ⟨t.strongThreshold, t.mediumThreshold⟩

/-- The levels of the two services agree under the same thresholds. -/
theorem classify_eq (sim : Rat) (t : VerifierThresholds Rat) : Verifier.classify sim t =
    (CitationReverifier.classify sim t.forReverify,
      decide (CitationReverifier.classify sim t.forReverify ≠ .weak)) := by
  rw [Verifier.classify, CitationReverifier.classify, VerifierThresholds.forReverify]
  split
  · rfl
  · split <;> rfl

theorem sameGrade_recheck : SameGrade cite.record (recheck embed cos round4 t cite.record) ↔
    cite.Blank ∨
      cite.supportLevel = some (CitationReverifier.classify (cite.strippedSim embed cos) t) ∧
      cite.verified =
        some (CitationReverifier.classify (cite.strippedSim embed cos) t ≠ .weak : Bool) := by
  by_cases hblank : cite.Blank
  · simp only [recheck_blank hblank, hblank, SameGrade, and_self, true_or]
  · rw [recheck_of_not_blank hblank, SameGrade, or_iff_right hblank]
    generalize CitationReverifier.classify (cite.strippedSim embed cos) t = level
    rw [field_revise, field_revise, field_supportLevel, field_verified, if_neg (by decide),
      if_pos rfl, if_pos rfl]
    refine and_congr ?_ ?_
    · cases cite.supportLevel with
      | none => simp [orNull]
      | some stored => simp [orNull, text_injective.eq_iff, eq_comm]
    · cases cite.verified with
      | none => simp [orNull]
      | some stored => simp [orNull, eq_comm]

/-- The level after re-verification: for a blank text the stored one, else that of the texts. -/
theorem level_recheck_strong :
    field "support_level" (recheck embed cos round4 t cite.record) = some (.str "strong") ↔
      cite.Blank ∧ cite.supportLevel = some .strong ∨
        ¬ cite.Blank ∧ CitationReverifier.classify (cite.strippedSim embed cos) t = .strong := by
  have hstrong : ∀ level : SupportLevel, level.text = "strong" ↔ level = .strong := fun level =>
    (text_injective.eq_iff (b := SupportLevel.strong))
  by_cases hblank : cite.Blank
  · rw [recheck_blank hblank, field_supportLevel]
    cases cite.supportLevel with
    | none => simp [orNull, hblank]
    | some stored => simp [orNull, hstrong, hblank]
  · rw [recheck_of_not_blank hblank, field_revise, if_neg (by decide), if_pos rfl]
    simp [hstrong, hblank]

theorem supportType_recheck : field "support_type" (recheck embed cos round4 t cite.record) =
    some cite.supportType.raw := by
  by_cases hblank : cite.Blank
  · rw [recheck_blank hblank, field_supportType]
  · rw [recheck_of_not_blank hblank, field_revise, field_supportType]
    simp

end Record

section Main

open CitationReverifier (reverifyOne recheck)
open Storage (strip)

/-- Re-verification with the thresholds of the verifier changes no grade, and with no thresholds at
all does an inference or a conflict end as strong. -/
structure Conservative {V : Type} (embed : String → V) (cos : V → V → Rat) (round4 : Rat → Rat)
    (t : VerifierThresholds Rat) (requestId : String) (records : List Value) : Prop where
  unchanged : ∃ out, reverifyOne (.ofFn embed) cos round4 t.forReverify requestId records = .ok out ∧
    List.Forall₂ SameGrade records out.citationsAfter
  bounded : ∀ t', ∃ out, reverifyOne (.ofFn embed) cos round4 t' requestId records = .ok out ∧
    ∀ after ∈ out.citationsAfter, ∀ supportType, field "support_type" after = some supportType →
      Cautious supportType → field "support_level" after ≠ some (.str "strong")

/-- The excerpts of all citations are the whole contents of their chunks. -/
def WholeExcerpts (contexts : List (RetrievedChunk S)) (domainId : String)
    (segments : List (Segment S)) : Prop :=
  ∀ seg ∈ segments, ∀ c ∈ seg.citations, ∀ ctx, contextAt contexts c = some ctx →
    (citationOf domainId seg c ctx).excerpt = ctx.content

/-- Without the white space around them, the texts of the citation have a similarity in the band of
its stored grade; under a cap that is the middle one. -/
def Citation.SameBand (sim : String → String → Rat) (t : VerifierThresholds Rat) (judged : Bool)
    (cite : Citation Rat) : Prop :=
  let stored := classify (sim cite.claimText cite.excerpt) t
  let stripped := classify (sim (strip cite.claimText) (strip cite.excerpt)) t
  if cite.supportType.capped judged then stored.2 = true ∧ stripped = (.medium, true)
  else stripped = stored

def Citation.NotRaised (cite : Citation Rat) : Prop :=
  Cautious cite.supportType.raw → cite.Blank ∧ cite.supportLevel ≠ some .strong

section Bounds

variable {V : Type} {embed : String → V} {cos : V → V → Rat} {round4 : Rat → Rat}
  {requestId : String} {cites : List (Citation Rat)}

theorem unchanged_iff {t : ReverifyThresholds} :
    (∃ out, reverifyOne (.ofFn embed) cos round4 t requestId (cites.map Citation.record) = .ok out ∧
      List.Forall₂ SameGrade (cites.map Citation.record) out.citationsAfter) ↔
      ∀ cite ∈ cites, SameGrade cite.record (recheck embed cos round4 t cite.record) := by
  obtain ⟨out, hout, hafter⟩ := reverifyOne_records embed cos round4 t requestId cites
  have hforall : List.Forall₂ SameGrade (cites.map Citation.record) out.citationsAfter ↔
      ∀ cite ∈ cites, SameGrade cite.record (recheck embed cos round4 t cite.record) := by
    rw [hafter, List.forall₂_map_left_iff, List.forall₂_map_right_iff, List.forall₂_same]
  rw [← hforall]
  constructor
  · rintro ⟨out', hout', hsame⟩
    rwa [Except.ok.inj (hout.symm.trans hout')]
  · exact fun hsame => ⟨out, hout, hsame⟩

/-- Thresholds can be chosen so that every recomputed level is strong. -/
theorem bounded_iff :
    (∀ t', ∃ out,
      reverifyOne (.ofFn embed) cos round4 t' requestId (cites.map Citation.record) = .ok out ∧
      ∀ after ∈ out.citationsAfter, ∀ supportType, field "support_type" after = some supportType →
        Cautious supportType → field "support_level" after ≠ some (.str "strong")) ↔
      ∀ cite ∈ cites, cite.NotRaised := by
  constructor
  · intro h cite hcite hcautious
    let sim := cite.strippedSim embed cos
    obtain ⟨out, hout, hbounded⟩ := h ⟨sim, sim⟩
    obtain ⟨out', hout', hafter⟩ :=
      reverifyOne_records embed cos round4 ⟨sim, sim⟩ requestId cites
    obtain rfl := Except.ok.inj (hout.symm.trans hout')
    have hlevel := hbounded (recheck embed cos round4 ⟨sim, sim⟩ cite.record)
      (by rw [hafter]; exact List.mem_map_of_mem hcite) _ supportType_recheck hcautious
    rw [Ne, level_recheck_strong, not_or] at hlevel
    have hstrong : CitationReverifier.classify sim ⟨sim, sim⟩ = .strong := if_pos le_rfl
    have hblank : cite.Blank := by
      by_contra hblank
      exact hlevel.2 ⟨hblank, hstrong⟩
    exact ⟨hblank, fun hstored => hlevel.1 ⟨hblank, hstored⟩⟩
  · intro h t'
    obtain ⟨out, hout, hafter⟩ := reverifyOne_records embed cos round4 t' requestId cites
    refine ⟨out, hout, fun after hmem supportType htype hcautious hlevel => ?_⟩
    rw [hafter] at hmem
    obtain ⟨cite, hcite, rfl⟩ := List.mem_map.mp hmem
    rw [supportType_recheck, Option.some.injEq] at htype
    obtain ⟨hblank, hstored⟩ := h cite hcite (htype ▸ hcautious)
    obtain h | h := level_recheck_strong.mp hlevel
    · exact hstored h.2
    · exact h.1 hblank

end Bounds

/-- Under a cap the middle band alone gives the stored grade back, and without one the same band. -/
theorem sameBand_iff {t : VerifierThresholds Rat} {i : Nat} {c : Int} {s s' : Rat} {capped : Bool} :
    ((gradeUnder capped (verifiedCitation t i c s)).supportLevel =
        CitationReverifier.classify s' t.forReverify ∧
      (gradeUnder capped (verifiedCitation t i c s)).verified =
        decide (CitationReverifier.classify s' t.forReverify ≠ .weak)) ↔
      if capped then (classify s t).2 = true ∧ classify s' t = (.medium, true)
      else classify s' t = classify s t := by
  simp only [gradeUnder, verifiedCitation, VerifiedCitation.capped, classify_eq]
  generalize CitationReverifier.classify s t.forReverify = l
  generalize CitationReverifier.classify s' t.forReverify = l'
  cases capped <;> cases l <;> cases l' <;> simp

section Answer

variable {repr : Value → String} {embed : String → List Rat} {sqrt : Rat → Rat}
  {judgeService : Option (JudgeService Rat)} {detector : Option ConflictDetector}
  {t : VerifierThresholds Rat} {rawSegments : List Value} {contexts : List (RetrievedChunk Rat)}
  {domainId : String} {limitations : Value} {r : Verified Rat}

/-- A citation of the pipeline is stored with the grade of its own claim and chunk. -/
theorem stored_grade (h : verifyAnswer ⟨repr, .ofFn embed, cosine sqrt, judgeService⟩ detector t
      rawSegments contexts domainId limitations = .ok r)
    (hwhole : WholeExcerpts contexts domainId r.segments) {cite : Citation Rat}
    (hcite : cite ∈ r.citations) : ∃ i c,
      let a := gradeUnder (cite.supportType.capped judgeService.isSome)
        (verifiedCitation t i c (simOf embed (cosine sqrt) cite.claimText cite.excerpt))
      cite.supportLevel = some a.supportLevel ∧ cite.verified = some a.verified := by
  obtain ⟨parsed, tier2, -, -, hrun⟩ := verifyAnswer_ok h
  rw [hrun.citations] at hcite
  obtain ⟨seg, hseg, hcite⟩ := List.mem_flatMap.mp hcite
  obtain ⟨c, hc, hcite⟩ := List.mem_filterMap.mp hcite
  obtain ⟨ctx, hctx, rfl⟩ := Option.map_eq_some_iff.mp hcite
  obtain ⟨ctx', hctx', hmeta⟩ := graded_of_answer rfl h seg hseg c hc
  obtain rfl := Option.some.inj (hctx.symm.trans hctx')
  refine ⟨seg.index, c, ?_⟩
  rw [hwhole seg hseg c hc ctx hctx]
  simp only [citationOf, hmeta, Option.map_some, and_self]

/-- Re-verification is conservative exactly where the texts have the stored grade without the white
space around them too, and no inference or conflict has texts to compare. -/
theorem reverify_conservative_iff (hsqrt : ∀ x, 0 ≤ x → sqrt x = 0 → x = 0)
    (hdim : ∀ s s', (embed s).length = (embed s').length)
    (h : verifyAnswer ⟨repr, .ofFn embed, cosine sqrt, judgeService⟩ detector t rawSegments contexts
      domainId limitations = .ok r)
    (hwhole : WholeExcerpts contexts domainId r.segments) (round4 : Rat → Rat)
    (requestId : String) :
    Conservative embed (CitationReverifier.cosine sqrt) round4 t requestId
        (r.citations.map Citation.record) ↔
      ∀ cite ∈ r.citations, cite.NotRaised ∧ (cite.Blank ∨
        cite.SameBand (simOf embed (cosine sqrt)) t judgeService.isSome) := by
  have hgrade : ∀ cite ∈ r.citations, SameGrade cite.record
      (recheck embed (CitationReverifier.cosine sqrt) round4 t.forReverify cite.record) ↔
        cite.Blank ∨ cite.SameBand (simOf embed (cosine sqrt)) t judgeService.isSome := by
    intro cite hcite
    obtain ⟨i, c, hlevel, hverified⟩ := stored_grade h hwhole hcite
    have hsim : cite.strippedSim embed (CitationReverifier.cosine sqrt) =
        simOf embed (cosine sqrt) (strip cite.claimText) (strip cite.excerpt) :=
      cosine_eq hsqrt (hdim _ _)
    rw [sameGrade_recheck, hlevel, hverified, hsim, Option.some.injEq, Option.some.injEq,
      sameBand_iff]
    rfl
  constructor
  · intro hconservative cite hcite
    exact ⟨bounded_iff.mp hconservative.bounded cite hcite,
      (hgrade cite hcite).mp (unchanged_iff.mp hconservative.unchanged cite hcite)⟩
  · intro hall
    exact ⟨unchanged_iff.mpr fun cite hcite => (hgrade cite hcite).mpr (hall cite hcite).2,
      bounded_iff.mpr fun cite hcite => (hall cite hcite).1⟩

end Answer

end Main

theorem wholeExcerpts_of_short {contexts : List (RetrievedChunk S)}
    (h : ∀ ctx ∈ contexts, ctx.content.toList.length ≤ 200) (domainId : String)
    (segments : List (Segment S)) : WholeExcerpts contexts domainId segments := by
  intro seg _ c _ ctx hctx
  have hmem := List.mem_of_getElem? (contextAt_eq_some hctx).2.2
  rw [citationOf, List.take_of_length_le (h ctx hmem), String.ofList_toList]

section Example

open CitationReverifier (reverifyOne)
open Storage (strip)

def alikeContexts : List (RetrievedChunk Rat) :=
  [leaveContext, { leaveContext with chunkId := "c2", content := "연차는 10일" }]

/-- An answer of one segment, for an embedder to which all texts are alike. -/
def verifyAlike (raw : Value) : Except Exc (Verified Rat) :=
  verifyAnswer ⟨fun _ => "", .ofFn fun _ => [1], cosine id, none⟩ none (.fromConfig none) [raw]
    alikeContexts "hr" .null

def AlikeConservative (r : Verified Rat) : Prop :=
  Conservative (fun _ => [1]) (CitationReverifier.cosine id) id (.fromConfig none) "r1"
    (r.citations.map Citation.record)

def directRaw : Value :=
  .dict [("text", .str "연차는 15일"), ("citations", .list [.int 1])]

theorem reverify_conservative_direct : ∃ r, verifyAlike directRaw = .ok r ∧
    r.citations ≠ [] ∧ AlikeConservative r := by
  have hrun : (verifyAlike directRaw).toOption.any (fun r => !r.citations.isEmpty &&
      r.citations.all fun cite => (cite.supportType matches .direct) &&
        cite.claimText = "연차는 15일" && cite.excerpt = "연차는 15일") = true := by
    decide +kernel
  obtain ⟨r, hr, hcites⟩ := exists_ok_of_any hrun
  simp only [Bool.and_eq_true, Bool.not_eq_true', List.all_eq_true, decide_eq_true_eq] at hcites
  refine ⟨r, hr, by simpa using hcites.1, (reverify_conservative_iff (fun _ _ h => h)
    (fun _ _ => rfl) hr (wholeExcerpts_of_short (by decide) _ _) id "r1").mpr fun cite hcite => ?_⟩
  obtain ⟨⟨hdirect, hclaim⟩, hexcerpt⟩ := hcites.2 cite hcite
  have htype : cite.supportType = .direct := by
    split at hdirect
    · assumption
    · cases hdirect
  have hstrip : strip "연차는 15일" = "연차는 15일" := by decide +kernel
  constructor
  · rw [Citation.NotRaised, htype]
    rintro (h | h) <;> simp [SupportType.raw] at h
  · right
    rw [Citation.SameBand, htype, hclaim, hexcerpt, hstrip]
    rfl

/-- Two strong chunks of a conflict are stored as medium and end as strong. -/
theorem strong_conflict_raised : ∃ r, verifyAlike (holidayConflict [1, 2]) = .ok r ∧
    WholeExcerpts alikeContexts "hr" r.segments ∧ ¬ AlikeConservative r := by
  have hrun : (verifyAlike (holidayConflict [1, 2])).toOption.any (fun r =>
      (reverifyOne (.ofFn fun _ => [1]) (CitationReverifier.cosine id) id
        (VerifierThresholds.fromConfig none).forReverify "r1"
        (r.citations.map Citation.record)).toOption.any fun out =>
          out.citationsAfter.any fun after =>
            ((field "support_type" after).any fun v => v.eq (.str "conflict")) &&
              (field "support_level" after).any fun v => v.eq (.str "strong")) = true := by
    decide +kernel
  obtain ⟨r, hr, hrun⟩ := exists_ok_of_any hrun
  obtain ⟨out, hout, hrun⟩ := exists_ok_of_any hrun
  simp only [List.any_eq_true, Bool.and_eq_true, Option.any_eq_true, Value.eq_str_iff] at hrun
  obtain ⟨after, hafter, ⟨supportType, htype, hconflict⟩, level, hlevel, hstrong⟩ := hrun
  refine ⟨r, hr, wholeExcerpts_of_short (by decide) _ _, fun h => ?_⟩
  obtain ⟨out', hout', hbounded⟩ := h.bounded _
  obtain rfl := Except.ok.inj (hout.symm.trans hout')
  exact hbounded after hafter supportType htype (.inr hconflict) (hstrong ▸ hlevel)

end Example

end DomainRag.Verifier
