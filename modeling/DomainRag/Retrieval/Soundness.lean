import DomainRag.Retrieval.Service

/-! # What retrieval puts into a prompt

Whatever a reranker answers, the contexts are distinct points of the domain that the filter
admits, and they are the first of these points by fused score, then by rerank score.
-/

namespace DomainRag.Retrieval

open Store
open Verifier (RetrievedChunk)

section Matching

variable {aclFilter : Option Acl.Filter}

def admits (aclFilter : Option Acl.Filter) : Point → Bool :=
  passes fun p => Acl.payloadMatch p.payload aclFilter

/-- The points of the domain's collection that the filter admits, in the order of the collection. -/
def admittedPoints (vs : VectorStore) (domainId : String) (aclFilter : Option Acl.Filter) :
    List Point :=
  match vs.collections.get? domainId with
  | none => []
  | some c => c.points.values.filter (admits aclFilter)

variable {vs : VectorStore} {domainId : String}

theorem mem_admittedPoints (hkeyed : vs.WellKeyed) {p : Point}
    (hp : p ∈ admittedPoints vs domainId aclFilter) :
    vs.point? domainId p.id = some p ∧ Acl.payloadMatch p.payload aclFilter = .ok true := by
  unfold admittedPoints at hp
  split at hp
  · cases hp
  · rename_i c hc
    obtain ⟨hvalue, hadmits⟩ := List.mem_filter.mp hp
    obtain ⟨⟨id, _⟩, hentry, rfl⟩ := List.mem_map.mp hvalue
    have hpoint := VectorStore.point?_of_get? hc id
    rw [Dict.get?_eq_some_iff.mpr hentry] at hpoint
    rw [hkeyed domainId id _ hpoint]
    exact ⟨hpoint, passes_iff.mp hadmits⟩

theorem nodup_admittedPoints (hkeyed : vs.WellKeyed) :
    ((admittedPoints vs domainId aclFilter).map Point.id).Nodup := by
  unfold admittedPoints
  split
  · exact List.nodup_nil
  · rename_i c hc
    have hids : c.points.values.map Point.id = c.points.keys := by
      rw [Dict.values, List.map_map]
      refine List.map_congr_left ?_
      rintro ⟨id, p⟩ hentry
      refine hkeyed domainId id p ?_
      rw [VectorStore.point?_of_get? hc]
      exact Dict.get?_eq_some_iff.mpr hentry
    refine List.Nodup.sublist (List.Sublist.map Point.id List.filter_sublist) ?_
    rw [hids]
    exact c.points.nodup

def hitOf (sqrt : Rat → Rat) (query : QueryVectors) (p : Point) : Hit :=
  ⟨p.id, fusedScore sqrt query p, p.payload⟩

/-- The hits are the first admitted points by fused score. -/
theorem hybridQuery_ok {sqrt : Rat → Rat} {query : QueryVectors} {topK : Nat} {hits : List Hit}
    (h : hybridQuery sqrt vs domainId query aclFilter topK = .ok hits) :
    ∃ ordered, Ranked (fusedScore sqrt query) (admittedPoints vs domainId aclFilter) ordered ∧
      hits = (ordered.take topK).map (hitOf sqrt query) := by
  obtain ⟨c, hc, h⟩ := Except.bind_eq_ok_iff.mp h
  obtain ⟨points, hpoints, h⟩ := Except.bind_eq_ok_iff.mp h
  cases h
  have hadmitted : admittedPoints vs domainId aclFilter = points := by
    rw [admittedPoints, VectorStore.coll_eq_ok_iff.mp hc, filterOk_eq hpoints]
    rfl
  rw [hadmitted]
  let pair (p : Point) : Rat × Point := (fusedScore sqrt query p, p)
  have hranked : Ranked Prod.fst (points.map pair) (rank Prod.fst (points.map pair)) :=
    ranked_rank _ _
  have hscore : ∀ e ∈ points.map pair, fusedScore sqrt query e.2 = e.1 := by
    intro e he
    obtain ⟨p, -, rfl⟩ := List.mem_map.mp he
    rfl
  have hordered := hranked.map hscore
  rw [List.map_map, show Prod.snd ∘ pair = id from rfl, List.map_id] at hordered
  refine ⟨_, hordered, ?_⟩
  rw [← List.map_take, List.map_map]
  refine List.map_congr_left ?_
  intro e he
  rw [Function.comp_apply, hitOf, hscore e (hranked.mem_iff.mp (List.mem_of_mem_take he))]

end Matching

section Scores

variable {S : Type}

def withScore (score : Option S) (c : RetrievedChunk S) : RetrievedChunk S :=
  { c with rerankScore := score }

def lastScore (zero : S) (data : List (RerankEntry S)) (i : Nat) : Option S :=
  (data.reverse.find? fun e => e.idx = (i : Int)).map fun e => e.score.getD zero

theorem getElem?_applyEntry (zero : S) (cs : List (RetrievedChunk S)) (e : RerankEntry S)
    (i : Nat) : (applyEntry zero cs e)[i]? =
      if e.idx = (i : Int) then cs[i]?.map (setScore (e.score.getD zero)) else cs[i]? := by
  simp only [applyEntry]
  generalize e.idx = idx
  by_cases hi : idx = i
  · subst hi
    by_cases hlt : i < cs.length
    · rw [if_pos ⟨Int.natCast_nonneg i, Int.ofNat_lt.mpr hlt⟩, if_pos rfl, Int.toNat_natCast,
        List.getElem?_modify_eq]
      rfl
    · rw [if_neg fun hand => hlt (Int.ofNat_lt.mp hand.2), if_pos rfl,
        List.getElem?_eq_none (Nat.le_of_not_lt hlt)]
      rfl
  · rw [if_neg hi]
    split
    · rename_i hrange
      rw [List.getElem?_modify_ne]
      omega
    · rfl

theorem lastScore_cons (zero : S) (e : RerankEntry S) (data : List (RerankEntry S)) (i : Nat) :
    lastScore zero (e :: data) i = (lastScore zero data i).or
      (if e.idx = (i : Int) then some (e.score.getD zero) else none) := by
  rw [lastScore, List.reverse_cons, List.find?_append, lastScore]
  cases data.reverse.find? fun e => e.idx = (i : Int) with
  | some e' => rfl
  | none =>
    by_cases hi : e.idx = (i : Int)
    · simp [hi]
    · simp [hi]

/-- After a whole reply each candidate has the score of the last entry with its index, if there
is one. -/
theorem getElem?_foldl_applyEntry (zero : S) (data : List (RerankEntry S))
    (cs : List (RetrievedChunk S)) (i : Nat) :
    (data.foldl (applyEntry zero) cs)[i]? =
      cs[i]?.map fun c => withScore ((lastScore zero data i).or c.rerankScore) c := by
  induction data generalizing cs with
  | nil =>
    rw [List.foldl_nil]
    cases cs[i]? <;> rfl
  | cons e data ih =>
    rw [List.foldl_cons, ih, getElem?_applyEntry, lastScore_cons]
    by_cases hi : e.idx = (i : Int)
    · rw [if_pos hi, if_pos hi, Option.map_map]
      congr 1
      funext c
      cases lastScore zero data i <;> rfl
    · rw [if_neg hi, if_neg hi, Option.or_none]

/-- The candidates with the scores that a reranker gave them by index. -/
def scoredBy (scores : Nat → Option S) (cs : List (RetrievedChunk S)) : List (RetrievedChunk S) :=
  cs.mapIdx fun i c => withScore (scores i) c

theorem foldl_applyEntry {zero : S} {data : List (RerankEntry S)} {cs : List (RetrievedChunk S)}
    (hfresh : ∀ c ∈ cs, c.rerankScore = none) :
    data.foldl (applyEntry zero) cs = scoredBy (lastScore zero data) cs := by
  refine List.ext_getElem? ?_
  intro i
  rw [getElem?_foldl_applyEntry, scoredBy, List.getElem?_mapIdx]
  cases hc : cs[i]? with
  | none => rfl
  | some c =>
    have hnone := hfresh c (List.mem_of_getElem? hc)
    simp only [Option.map_some, hnone, Option.or_none]

theorem map_scoredBy {A : Type} {f : RetrievedChunk S → A} (scores : Nat → Option S)
    (cs : List (RetrievedChunk S)) (hf : ∀ score c, f (withScore score c) = f c) :
    (scoredBy scores cs).map f = cs.map f := by
  refine List.ext_getElem? ?_
  intro i
  simp only [scoredBy, List.getElem?_map, List.getElem?_mapIdx, Option.map_map, Function.comp_def,
    hf]

theorem mem_scoredBy {scores : Nat → Option S} {cs : List (RetrievedChunk S)}
    {c : RetrievedChunk S} (h : c ∈ scoredBy scores cs) :
    ∃ c₀ ∈ cs, ∃ score, c = withScore score c₀ := by
  obtain ⟨i, hi⟩ := List.mem_iff_getElem?.mp h
  rw [scoredBy, List.getElem?_mapIdx] at hi
  obtain ⟨c₀, hc₀, rfl⟩ := Option.map_eq_some_iff.mp hi
  exact ⟨c₀, List.mem_of_getElem? hc₀, scores i, rfl⟩

/-- How the rerank scores come about: there are none without a reranker, the in-memory reranker
compares words, and the rerank service sets them by index. -/
def GivesScores (toFloat : Rat → S) (question : String) (texts : List String)
    (scores : Nat → Option S) : Option (Reranker S) → Prop
  | none => ∀ i, scores i = none
  | some .inMemory => ∀ i, scores i = texts[i]?.map fun t => toFloat (jaccard question t)
  | some (.tei post) => texts = [] ∨
      ∃ data, post question texts = .ok data ∧ scores = lastScore (toFloat 0) data

end Scores

section Contexts

variable {S : Type} [LinearOrder S] [OrderBot S]

/-- A candidate without a rerank score comes last. -/
def rerankKey (c : RetrievedChunk S) : S := c.rerankScore.getD ⊥

/-- Whatever the reranker answers, its result is a beginning of the candidates ranked by the
scores it gave. -/
theorem rerank_ok {toFloat : Rat → S} {question : String} {topK : Nat}
    {cs scored reranked : List (RetrievedChunk S)} {reranker : Reranker S}
    (hfresh : ∀ c ∈ cs, c.rerankScore = none)
    (h : reranker.rerank toFloat question cs topK = .ok (scored, reranked)) :
    ∃ scores ranked,
      GivesScores toFloat question (cs.map RetrievedChunk.content) scores (some reranker) ∧
        Ranked rerankKey (scoredBy scores cs) ranked ∧ reranked = ranked.take topK := by
  cases reranker with
  | inMemory =>
    cases h
    let scores (i : Nat) : Option S :=
      (cs.map RetrievedChunk.content)[i]?.map fun t => toFloat (jaccard question t)
    have hscored : scoredBy scores cs =
        cs.map fun c => setScore (toFloat (jaccard question c.content)) c := by
      refine List.ext_getElem? ?_
      intro i
      rw [scoredBy, List.getElem?_mapIdx, List.getElem?_map]
      cases hc : cs[i]? with
      | none => rfl
      | some c =>
        have hscore : scores i = some (toFloat (jaccard question c.content)) := by
          simp only [scores, List.getElem?_map, hc, Option.map_some]
        rw [Option.map_some, Option.map_some, hscore]
        rfl
    refine ⟨scores, _, fun _ => rfl, ?_, rfl⟩
    rw [hscored]
    refine (ranked_rank _ _).congr ?_
    intro c hc
    obtain ⟨c₀, -, rfl⟩ := List.mem_map.mp hc
    rfl
  | tei post =>
    rw [Reranker.rerank] at h
    split at h
    · rename_i hempty
      cases h
      obtain rfl : cs = [] := List.isEmpty_iff.mp hempty
      refine ⟨fun _ => none, [], .inl rfl, Ranked.of_const (k := ⊥) ?_, List.take_nil.symm⟩
      exact fun c hc => absurd hc List.not_mem_nil
    · obtain ⟨data, hdata, h⟩ := Except.bind_eq_ok_iff.mp h
      cases h
      refine ⟨lastScore (toFloat 0) data, _, .inr ⟨data, hdata, rfl⟩, ?_, rfl⟩
      rw [foldl_applyEntry hfresh]
      exact ranked_rank _ _

namespace RetrievalService

variable (svc : RetrievalService S)

def chunkOf (query : QueryVectors) (p : Point) : RetrievedChunk S :=
  svc.hitToRetrievedChunk (hitOf svc.sqrt query p)

/-- The contexts of a prompt, as they should be. -/
structure SoundContexts (vs : VectorStore) (domainId question : String)
    (aclFilter : Option Acl.Filter) (config : RetrievalConfig)
    (contexts : List (RetrievedChunk S)) : Prop where
  distinct : (contexts.map RetrievedChunk.chunkId).Nodup
  admitted : ∀ ctx ∈ contexts, ∃ p, vs.point? domainId ctx.chunkId = some p ∧
    Acl.payloadMatch p.payload aclFilter = .ok true ∧
    ctx.content = svc.textAt p.payload "content" ∧ ctx.payload = p.payload
  count : contexts.length = min (min config.contextTopK config.rerankTopK)
    (min config.fusedTopK (admittedPoints vs domainId aclFilter).length)
  leading : ∃ query ordered scores ranked, svc.embedQuery question = .ok query ∧
    Ranked (fusedScore svc.sqrt query) (admittedPoints vs domainId aclFilter) ordered ∧
    GivesScores svc.toFloat question
      ((ordered.take config.fusedTopK).map fun p => svc.textAt p.payload "content") scores
      (svc.activeReranker config) ∧
    Ranked rerankKey
      (scoredBy scores ((ordered.take config.fusedTopK).map (svc.chunkOf query))) ranked ∧
    contexts = ranked.take (min config.contextTopK config.rerankTopK)

variable {svc} {vs : VectorStore} {domainId question : String} {aclFilter : Option Acl.Filter}
  {config : RetrievalConfig} {result : RetrievalResult S}

theorem leading_of_retrieve
    (h : svc.retrieve vs domainId question aclFilter config = .ok result) :
    ∃ query ordered scores ranked, svc.embedQuery question = .ok query ∧
      Ranked (fusedScore svc.sqrt query) (admittedPoints vs domainId aclFilter) ordered ∧
      GivesScores svc.toFloat question
        ((ordered.take config.fusedTopK).map fun p => svc.textAt p.payload "content") scores
        (svc.activeReranker config) ∧
      Ranked rerankKey
        (scoredBy scores ((ordered.take config.fusedTopK).map (svc.chunkOf query))) ranked ∧
      result.contexts = ranked.take (min config.contextTopK config.rerankTopK) := by
  obtain ⟨query, hquery, h⟩ := Except.bind_eq_ok_iff.mp h
  obtain ⟨hits, hhits, h⟩ := Except.bind_eq_ok_iff.mp h
  obtain ⟨⟨scored, reranked⟩, hrerank, h⟩ := Except.bind_eq_ok_iff.mp h
  cases h
  obtain ⟨ordered, hordered, rfl⟩ := hybridQuery_ok hhits
  have hfused : ((ordered.take config.fusedTopK).map (hitOf svc.sqrt query)).map
      svc.hitToRetrievedChunk = (ordered.take config.fusedTopK).map (svc.chunkOf query) := by
    rw [List.map_map]
    rfl
  rw [hfused, rerankFused] at hrerank
  cases hreranker : svc.activeReranker config with
  | none =>
    rw [hreranker] at hrerank
    cases hrerank
    refine ⟨query, ordered, fun _ => none, _, hquery, hordered, fun _ => rfl,
      Ranked.of_const (k := ⊥) ?_, ?_⟩
    · intro c hc
      obtain ⟨i, hi⟩ := List.mem_iff_getElem?.mp hc
      rw [scoredBy, List.getElem?_mapIdx] at hi
      obtain ⟨c₀, -, rfl⟩ := Option.map_eq_some_iff.mp hi
      rfl
    · have hsame : scoredBy (fun _ => none) ((ordered.take config.fusedTopK).map (svc.chunkOf query))
          = (ordered.take config.fusedTopK).map (svc.chunkOf query) := by
        rw [scoredBy]
        refine List.ext_getElem? ?_
        intro i
        rw [List.getElem?_mapIdx, List.getElem?_map, Option.map_map]
        rfl
      rw [hsame, ← List.take_take]
  | some reranker =>
    rw [hreranker] at hrerank
    have hfresh : ∀ c ∈ (ordered.take config.fusedTopK).map (svc.chunkOf query),
        c.rerankScore = none := by
      intro c hc
      obtain ⟨p, -, rfl⟩ := List.mem_map.mp hc
      rfl
    obtain ⟨scores, ranked, hscores, hranked, hreranked⟩ := rerank_ok hfresh hrerank
    refine ⟨query, ordered, scores, ranked, hquery, hordered, ?_, hranked, ?_⟩
    · rw [List.map_map] at hscores
      exact hscores
    · rw [hreranked, ← List.take_take]

/-- Over every store that its operations can produce, and for every reranker and every reply,
the contexts of a prompt are sound. -/
theorem retrieve_sound (svc : RetrievalService S) (ops : List VectorOp)
    (domainId question : String) (aclFilter : Option Acl.Filter) (config : RetrievalConfig)
    (result : RetrievalResult S)
    (h : svc.retrieve (VectorOp.reached ops) domainId question aclFilter config = .ok result) :
    svc.SoundContexts (VectorOp.reached ops) domainId question aclFilter config
      result.contexts := by
  have hkeyed := VectorStore.wellKeyed_reached ops
  have hleading := leading_of_retrieve h
  obtain ⟨query, ordered, scores, ranked, -, hordered, -, hranked, hcontexts⟩ := hleading
  refine ⟨?_, ?_, ?_, leading_of_retrieve h⟩
  · have hids : (ranked.map RetrievedChunk.chunkId).Perm
        ((ordered.take config.fusedTopK).map Point.id) := by
      refine (hranked.perm.map RetrievedChunk.chunkId).trans ?_
      rw [map_scoredBy scores _ fun _ _ => rfl, List.map_map]
      exact List.Perm.refl _
    have hnodup : (ordered.map Point.id).Nodup :=
      (hordered.perm.map Point.id).nodup_iff.mpr (nodup_admittedPoints hkeyed)
    rw [hcontexts]
    refine List.Nodup.sublist ((List.take_sublist _ _).map _) (hids.nodup_iff.mpr ?_)
    exact List.Nodup.sublist ((List.take_sublist _ _).map _) hnodup
  · intro ctx hctx
    rw [hcontexts] at hctx
    have hscored := hranked.mem_iff.mp (List.mem_of_mem_take hctx)
    obtain ⟨c₀, hc₀, score, rfl⟩ := mem_scoredBy hscored
    obtain ⟨p, hp, rfl⟩ := List.mem_map.mp hc₀
    have hadmitted := hordered.mem_iff.mp (List.mem_of_mem_take hp)
    obtain ⟨hpoint, hmatch⟩ := mem_admittedPoints hkeyed hadmitted
    exact ⟨p, hpoint, hmatch, rfl, rfl⟩
  · have hlength : ranked.length = min config.fusedTopK ordered.length := by
      rw [hranked.length_eq, scoredBy, List.length_mapIdx, List.length_map, List.length_take]
    rw [hcontexts, List.length_take, hlength, hordered.length_eq]

end RetrievalService

end Contexts

section Malformed

def leaflet (id level : String) (x : Rat) : Point where
  id := id
  dense := [x, 1]
  sparse := .empty
  payload := .ofList [("content", .str id), ("security_level", .str level)]

def shelf : List VectorOp :=
  [.createCollection "hr" 2 true,
   .upsertChunks "hr" [leaflet "a" "public" 0, leaflet "b" "restricted" 1, leaflet "c" "public" 1,
     leaflet "d" "public" 2]]

def publicOnly : Acl.Filter := ⟨[.matchValue "security_level" (.str "public")], []⟩

/-- A rerank service that repeats an index, leaves one out and names one that does not exist. -/
def careless : RetrievalService (WithBot Rat) where
  embedQuery _ := .ok ⟨[1, 1], .empty⟩
  sqrt x := x
  toFloat x := x
  repr _ := ""
  reranker := some (.tei fun _ _ => .ok
    [⟨some 2, some (3 : Rat)⟩, ⟨some 7, some (9 : Rat)⟩, ⟨none, some (8 : Rat)⟩,
     ⟨some 2, none⟩, ⟨some 1, some (2 : Rat)⟩])

/-- The three public leaflets, ordered by the scores that remain. -/
theorem careless_retrieve_sound :
    ∃ result, careless.retrieve (VectorOp.reached shelf) "hr" "q" (some publicOnly) {} = .ok result ∧
      result.contexts.map RetrievedChunk.chunkId = ["c", "d", "a"] ∧
      careless.SoundContexts (VectorOp.reached shelf) "hr" "q" (some publicOnly) {}
        result.contexts := by
  obtain ⟨result, hresult, hids⟩ := exists_ok_of_any
    (x := careless.retrieve (VectorOp.reached shelf) "hr" "q" (some publicOnly) {})
    (p := fun r => r.contexts.map RetrievedChunk.chunkId = ["c", "d", "a"]) (by decide +kernel)
  exact ⟨result, hresult, of_decide_eq_true hids,
    RetrievalService.retrieve_sound careless shelf "hr" "q" (some publicOnly) {} result hresult⟩

end Malformed

end DomainRag.Retrieval
