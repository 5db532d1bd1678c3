import DomainRag.Lib.Mirror
import DomainRag.Indexing.Effects
import DomainRag.Indexing.HardDelete

/-! # Points and rows of a document version

The points of a document version are found by their payload, its rows by their key. Seen this
way the vector store gives every point an owner and the chunk table lists the ids of each owner,
and the question is whether the two stay in step over runs and hard deletes.
-/

namespace DomainRag.Indexing

open Store Program

def Carries (p : Point) (doc : DocKey) : Prop :=
  p.payload.get? "doc_id" = some (.str doc.docId) ∧
    p.payload.get? "doc_version" = some (.str doc.version)

theorem eq_some_str_iff {o : Option Value} {t : String} :
    o = some (.str t) ↔ o.any (fun v => v.eq (.str t)) = true := by
  cases o with
  | none => exact ⟨nofun, nofun⟩
  | some v => rw [Option.any_some, Value.eq_str_iff, Option.some.injEq]

instance (p : Point) (doc : DocKey) : Decidable (Carries p doc) :=
  decidable_of_iff _ (and_congr eq_some_str_iff eq_some_str_iff).symm

def pointIds (s : Stores) (doc : DocKey) : Set String :=
  {id | ∃ p, s.vectors.point? doc.domainId id = some p ∧ Carries p doc}

def chunkIds (s : Stores) (doc : DocKey) : Set String :=
  {id | ∃ row ∈ s.chunks.listByDoc doc none, row.chunkId = id}

def ownerOf (domainId : String) (p : Point) : Option DocKey :=
  match p.payload.get? "doc_id", p.payload.get? "doc_version" with
  | some (.str docId), some (.str version) => some ⟨domainId, docId, version⟩
  | _, _ => none

theorem ownerOf_eq_some_iff {domainId : String} {p : Point} {doc : DocKey} :
    ownerOf domainId p = some doc ↔ domainId = doc.domainId ∧ Carries p doc := by
  obtain ⟨d, i, v⟩ := doc
  unfold ownerOf Carries
  constructor
  · intro h
    split at h
    · rename_i hdoc hversion
      cases h
      exact ⟨rfl, hdoc, hversion⟩
    · cases h
  · rintro ⟨rfl, hdoc, hversion⟩
    rw [hdoc, hversion]

/-- The owner of each point, and the chunk ids of each document version. -/
def mirror (s : Stores) : Mirror (String × String) DocKey where
  owner x := (s.vectors.point? x.1 x.2).bind (ownerOf x.1)
  held doc := {x | x.1 = doc.domainId ∧
    ∃ key, key.toDocKey = doc ∧ ∃ row ∈ s.chunks.rows key, row.chunkId = x.2}

/-- Every point carries a document version, and points and rows are in step. -/
structure Consistent (s : Stores) : Prop where
  inStep : (mirror s).InStep
  owned : ∀ d id p, s.vectors.point? d id = some p → ∃ doc, ownerOf d p = some doc

section Views

variable {s s' : Stores} {doc : DocKey} {id : String}

theorem mem_pointIds_iff : id ∈ pointIds s doc ↔ (mirror s).owner (doc.domainId, id) = some doc := by
  simp only [mirror, Option.bind_eq_some_iff, ownerOf_eq_some_iff, true_and]
  exact Iff.rfl

theorem mem_chunkIds_iff : id ∈ chunkIds s doc ↔ (doc.domainId, id) ∈ (mirror s).held doc := by
  constructor
  · rintro ⟨row, hrow, hid⟩
    obtain ⟨key, hkey, hmem⟩ := ChunkRepository.mem_listByDoc.mp hrow
    exact ⟨rfl, key, hkey, row, hmem, hid⟩
  · rintro ⟨-, key, hkey, row, hmem, hid⟩
    exact ⟨row, ChunkRepository.mem_listByDoc.mpr ⟨key, hkey, hmem⟩, hid⟩

theorem held_congr (h : ∀ key : ChunkKey, key.toDocKey = doc →
    s'.chunks.rows key = s.chunks.rows key) : (mirror s').held doc = (mirror s).held doc := by
  ext ⟨d, id⟩
  constructor
  · rintro ⟨hd, key, hkey, hrow⟩
    exact ⟨hd, key, hkey, h key hkey ▸ hrow⟩
  · rintro ⟨hd, key, hkey, hrow⟩
    exact ⟨hd, key, hkey, (h key hkey).symm ▸ hrow⟩

theorem Consistent.pointIds_eq (h : Consistent s) (doc : DocKey) :
    pointIds s doc = chunkIds s doc := by
  ext id
  rw [mem_pointIds_iff, mem_chunkIds_iff]
  exact h.inStep _ _

end Views

section Relabels

variable {names : List String} {s s' : Stores}

theorem SamePoint.ownerOf_eq {p p' : Point} (h : SamePoint names p p')
    (hdoc : "doc_id" ∉ names) (hversion : "doc_version" ∉ names) (d : String) :
    ownerOf d p' = ownerOf d p := by
  rw [ownerOf, ownerOf, h.payload _ hdoc, h.payload _ hversion]

theorem SameRow.chunkId_eq {row row' : ChunkRecord} (h : SameRow names row row') :
    row'.chunkId = row.chunkId := by
  rw [h.identity]

theorem Relabels.point?_eq_some (h : Relabels names s s') {d id : String} {p' : Point}
    (hp' : s'.vectors.point? d id = some p') :
    ∃ p, s.vectors.point? d id = some p ∧ SamePoint names p p' := by
  have hrel := h.points d id
  rw [hp'] at hrel
  generalize s.vectors.point? d id = o at hrel ⊢
  cases hrel with
  | some hp => exact ⟨_, rfl, hp⟩

theorem Relabels.exists_row_iff (h : Relabels names s s') {key : ChunkKey} {id : String} :
    (∃ row ∈ s'.chunks.rows key, row.chunkId = id) ↔
      ∃ row ∈ s.chunks.rows key, row.chunkId = id := by
  simp only [ChunkRepository.mem_rows_iff]
  constructor
  · rintro ⟨row', ⟨i, hrow'⟩, hid⟩
    have hrel := h.rows ⟨key, i⟩
    rw [hrow'] at hrel
    generalize hrow : s.chunks.row? ⟨key, i⟩ = o at hrel
    cases hrel with
    | some hsame => exact ⟨_, ⟨i, hrow⟩, hsame.chunkId_eq.symm.trans hid⟩
  · rintro ⟨row, ⟨i, hrow⟩, hid⟩
    have hrel := h.rows ⟨key, i⟩
    rw [hrow] at hrel
    generalize hrow' : s'.chunks.row? ⟨key, i⟩ = o at hrel
    cases hrel with
    | some hsame => exact ⟨_, ⟨i, hrow'⟩, hsame.chunkId_eq.trans hid⟩

theorem Relabels.mirror_eq (h : Relabels names s s') (hdoc : "doc_id" ∉ names)
    (hversion : "doc_version" ∉ names) : mirror s' = mirror s := by
  have howner : ∀ x, (mirror s').owner x = (mirror s).owner x := by
    intro x
    have hrel := h.points x.1 x.2
    simp only [mirror]
    generalize s.vectors.point? x.1 x.2 = o at hrel ⊢
    generalize s'.vectors.point? x.1 x.2 = o' at hrel ⊢
    cases hrel with
    | none => rfl
    | some hp => exact hp.ownerOf_eq hdoc hversion x.1
  have hheld : ∀ doc, (mirror s').held doc = (mirror s).held doc := by
    intro doc
    ext x
    simp only [mirror, Set.mem_ofPred_eq, h.exists_row_iff]
  exact congrArg₂ Mirror.mk (funext howner) (funext hheld)

theorem Consistent.relabels (h : Consistent s) (hs : Relabels names s s')
    (hdoc : "doc_id" ∉ names) (hversion : "doc_version" ∉ names) : Consistent s' where
  inStep := by
    rw [hs.mirror_eq hdoc hversion]
    exact h.inStep
  owned d id p' hp' := by
    obtain ⟨p, hp, hsame⟩ := hs.point?_eq_some hp'
    rw [hsame.ownerOf_eq hdoc hversion]
    exact h.owned d id p hp

end Relabels

section Writes

variable {svc : IndexingService} {request : IndexingRequest} {piiConfig : Value} {jobId : String}
  {s s' : Stores}

def embeddedIds (chunks : List Chunk) (vectors : Dict String Embedding) : List String :=
  (chunks.filter fun c => (vectors.get? c.chunkId).isSome).map Chunk.chunkId

theorem mem_embeddedIds {chunks : List Chunk} {vectors : Dict String Embedding} {id : String} :
    id ∈ embeddedIds chunks vectors ↔
      ∃ c ∈ chunks, (vectors.get? c.chunkId).isSome ∧ c.chunkId = id := by
  simp only [embeddedIds, List.mem_map, List.mem_filter, and_assoc]

/-- What is built for the chunks that have a vector bears their ids. -/
theorem mem_built_ids {B : Type} {build : Chunk → Embedding → B} (idOf : B → String)
    (hid : ∀ c v, idOf (build c v) = c.chunkId) {chunks : List Chunk}
    {vectors : Dict String Embedding} {id : String} :
    (∃ x ∈ chunks.filterMap fun c => (vectors.get? c.chunkId).map (build c), idOf x = id) ↔
      id ∈ embeddedIds chunks vectors := by
  simp only [List.mem_filterMap, Option.map_eq_some_iff, mem_embeddedIds, Option.isSome_iff_exists]
  constructor
  · rintro ⟨_, ⟨c, hc, v, hv, rfl⟩, rfl⟩
    exact ⟨c, hc, ⟨v, hv⟩, (hid c v).symm⟩
  · rintro ⟨c, hc, ⟨v, hv⟩, rfl⟩
    exact ⟨_, ⟨c, hc, v, hv, rfl⟩, hid c v⟩

theorem mem_buildPoints_ids {chunks : List Chunk} {vectors : Dict String Embedding}
    {warnings : Dict String ChunkPIIWarning} {id : String} :
    (∃ p ∈ svc.buildPoints request chunks vectors warnings, p.id = id) ↔
      id ∈ embeddedIds chunks vectors := by
  rw [IndexingService.buildPoints]
  exact mem_built_ids Point.id fun _ _ => rfl

theorem mem_buildRecords_ids {chunks : List Chunk} {vectors : Dict String Embedding}
    {warnings : Dict String ChunkPIIWarning} {id : String} :
    (∃ row ∈ svc.buildRecords request chunks vectors warnings, row.chunkId = id) ↔
      id ∈ embeddedIds chunks vectors := by
  rw [IndexingService.buildRecords]
  exact mem_built_ids ChunkRecord.chunkId fun _ _ => rfl

theorem ownerOf_buildPoints {chunks : List Chunk} {vectors : Dict String Embedding}
    {warnings : Dict String ChunkPIIWarning} {p : Point}
    (hp : p ∈ svc.buildPoints request chunks vectors warnings) :
    ownerOf request.domainId p = some request.doc := by
  obtain ⟨c, -, hc⟩ := List.mem_filterMap.mp hp
  obtain ⟨v, -, rfl⟩ := Option.map_eq_some_iff.mp hc
  exact ownerOf_eq_some_iff.mpr ⟨rfl, rfl, rfl⟩

/-- A written id carries one of the new points, and every other point is the old one. -/
theorem Upserted.cases {vs vs' : VectorStore} {domainId : String} {points : List Point}
    (h : Upserted vs vs' domainId points) (d id : String) :
    (d = domainId ∧ ∃ p ∈ points, p.id = id ∧ vs'.point? d id = some p) ∨
      ¬ (d = domainId ∧ ∃ p ∈ points, p.id = id) ∧ vs'.point? d id = vs.point? d id := by
  rw [h d id]
  by_cases hd : d = domainId
  · rw [if_pos hd]
    cases hfind : points.reverse.find? fun p => p.id = id with
    | some p =>
      have hmem : p ∈ points := List.mem_reverse.mp (List.mem_of_find?_eq_some hfind)
      have hid : p.id = id := by simpa using List.find?_some hfind
      exact .inl ⟨hd, p, hmem, hid, rfl⟩
    | none =>
      refine .inr ⟨?_, rfl⟩
      rintro ⟨-, p, hp, hid⟩
      have hnot := List.find?_eq_none.mp hfind p (List.mem_reverse.mpr hp)
      exact hnot (decide_eq_true hid)
  · rw [if_neg hd]
    exact .inr ⟨fun hand => hd hand.1, rfl⟩

variable {chunks : List Chunk} {vectors : Dict String Embedding}
  {warnings : Dict String ChunkPIIWarning}

/-- The items that a run claims for its document version. -/
def claimed (request : IndexingRequest) (chunks : List Chunk) (vectors : Dict String Embedding) :
    Set (String × String) :=
  {x | x.1 = request.domainId ∧ x.2 ∈ embeddedIds chunks vectors}

theorem owner_of_upserted
    (h : Upserted s.vectors s'.vectors request.domainId
      (svc.buildPoints request chunks vectors warnings)) :
    (∀ x ∈ claimed request chunks vectors, (mirror s').owner x = some request.doc) ∧
      ∀ x, x ∉ claimed request chunks vectors → (mirror s').owner x = (mirror s).owner x := by
  constructor
  · rintro ⟨d, id⟩ ⟨hd, hid⟩
    obtain rfl : d = request.domainId := hd
    obtain ⟨-, p, hp, -, hpoint⟩ | ⟨hnot, -⟩ := h.cases request.domainId id
    · simp only [mirror, hpoint, Option.bind_some]
      exact ownerOf_buildPoints hp
    · exact absurd ⟨rfl, mem_buildPoints_ids.mpr hid⟩ hnot
  · rintro ⟨d, id⟩ hx
    obtain ⟨hd, p, hp, hid, -⟩ | ⟨-, hpoint⟩ := h.cases d id
    · exact absurd ⟨hd, mem_buildPoints_ids.mp ⟨p, hp, hid⟩⟩ hx
    · simp only [mirror, hpoint]

theorem owned_of_upserted
    (h : Upserted s.vectors s'.vectors request.domainId
      (svc.buildPoints request chunks vectors warnings))
    (howned : ∀ d id p, s.vectors.point? d id = some p → ∃ doc, ownerOf d p = some doc)
    (d id : String) (p : Point) (hp : s'.vectors.point? d id = some p) :
    ∃ doc, ownerOf d p = some doc := by
  obtain ⟨rfl, q, hq, -, hpoint⟩ | ⟨-, hpoint⟩ := h.cases d id
  · obtain rfl : q = p := Option.some.inj (hpoint.symm.trans hp)
    exact ⟨request.doc, ownerOf_buildPoints hq⟩
  · exact howned d id p (hpoint.symm.trans hp)

def otherRows (svc : IndexingService) (request : IndexingRequest) (s : Stores) :
    Set (String × String) :=
  {x | x.1 = request.domainId ∧ ∃ key, key.toDocKey = request.doc ∧
    key.parserVersion ≠ svc.parserVersion ∧ ∃ row ∈ s.chunks.rows key, row.chunkId = x.2}

theorem Written.rewrites {p : Prepared} (h : Written svc request p jobId s s') :
    (mirror s).Rewrites (mirror s') request.doc (otherRows svc request s)
      (claimed request p.chunks p.embed.vectors) where
  owner_claimed := (owner_of_upserted h.points).1
  owner_other := (owner_of_upserted h.points).2
  held_self := by
    ext ⟨d, id⟩
    constructor
    · rintro ⟨hd, key, hkey, row, hrow, hid⟩
      rw [h.rows, ChunkRepository.rows_replaceChunks] at hrow
      split at hrow
      · exact .inr ⟨hd, mem_buildRecords_ids.mp ⟨row, hrow, hid⟩⟩
      · rename_i hne
        refine .inl ⟨hd, key, hkey, fun hpv => hne ?_, row, hrow, hid⟩
        rw [← hkey, ← hpv]
    · rintro (⟨hd, key, hkey, hpv, row, hrow, hid⟩ | ⟨hd, hid⟩)
      · refine ⟨hd, key, hkey, row, ?_, hid⟩
        rw [h.rows, ChunkRepository.rows_replaceChunks, if_neg]
        · exact hrow
        · rintro rfl
          exact hpv rfl
      · obtain ⟨row, hrow, hrowId⟩ := mem_buildRecords_ids.mpr hid
        refine ⟨hd, ⟨request.doc, svc.parserVersion⟩, rfl, row, ?_, hrowId⟩
        rw [h.rows, ChunkRepository.rows_replaceChunks, if_pos rfl]
        exact hrow
  held_other := by
    intro doc hdoc
    refine held_congr ?_
    rintro key rfl
    rw [h.rows, ChunkRepository.rows_replaceChunks, if_neg]
    rintro rfl
    exact hdoc rfl

theorem otherRows_subset : otherRows svc request s ⊆ (mirror s).held request.doc := by
  rintro ⟨d, id⟩ ⟨hd, key, hkey, -, hrow⟩
  exact ⟨hd, key, hkey, hrow⟩

/-- A full run that gets as far as its writes. -/
structure IndexingService.ReachesWrites (svc : IndexingService) (request : IndexingRequest)
    (piiConfig : Value) (s : Stores) (p : Prepared) : Prop where
  path : svc.takesFull request s.chunks = true
  prepared : svc.prepare request piiConfig = .ok p
  below : svc.overThreshold (IndexingService.failureRate p.chunks p.embed.failed) = false
  upsert : svc.CanUpsert s.vectors request.domainId (svc.points request p)

/-- The chunks that a full run embeds cover the rows it replaces, and none of their ids belongs
to another document version. -/
structure IndexingService.Covers (svc : IndexingService) (request : IndexingRequest) (s : Stores)
    (p : Prepared) : Prop where
  replaced : ∀ row ∈ s.chunks.rows ⟨request.doc, svc.parserVersion⟩,
    row.chunkId ∈ embeddedIds p.chunks p.embed.vectors
  free : ∀ id ∈ embeddedIds p.chunks p.embed.vectors, ∀ doc : DocKey,
    doc.domainId = request.domainId → id ∈ chunkIds s doc → doc = request.doc

theorem Consistent.written {p : Prepared} (h : Consistent s)
    (hw : Written svc request p jobId s s') (hcovers : svc.Covers request s p) :
    Consistent s' where
  inStep := by
    refine h.inStep.rewrite hw.rewrites otherRows_subset ?_ ?_
    · rintro ⟨d, id⟩ ⟨hd, key, hkey, row, hrow, hid⟩
      by_cases hpv : key.parserVersion = svc.parserVersion
      · refine .inr ⟨hd, ?_⟩
        have hkey' : key = ⟨request.doc, svc.parserVersion⟩ := by rw [← hkey, ← hpv]
        exact hid ▸ hcovers.replaced row (hkey' ▸ hrow)
      · exact .inl ⟨hd, key, hkey, hpv, row, hrow, hid⟩
    · rintro ⟨d, id⟩ ⟨hd, hid⟩ doc hheld
      have hdomain : d = doc.domainId := hheld.1
      refine hcovers.free id hid doc (hdomain.symm.trans hd) ?_
      rw [mem_chunkIds_iff, ← hdomain]
      exact hheld
  owned := owned_of_upserted hw.points h.owned

theorem held_updateMetadata {domainId : String} {ids : List String}
    {metadata : Dict String Value} (h : s'.chunks = s.chunks.updateMetadata domainId ids metadata)
    (doc : DocKey) : (mirror s').held doc = (mirror s).held doc := by
  have hrelabels := Relabels.updateMetadata s domainId ids (List.Subset.refl metadata.keys)
  ext x
  simp only [mirror, h, Set.mem_ofPred_eq]
  simp only [hrelabels.exists_row_iff]

theorem mem_stored_of_mem_chunks {rows : List ChunkRecord}
    (h : rows.mapM IndexingService.chunkOfRow = .ok chunks) {c : Chunk} (hc : c ∈ chunks) :
    ∃ row ∈ rows, row.chunkId = c.chunkId := by
  obtain ⟨i, hi⟩ := List.mem_iff_getElem?.mp hc
  obtain ⟨row, hrow, hchunk⟩ := getElem?_of_forall₂_right (mapM_eq_ok_iff.mp h) hi
  obtain ⟨path, -, hchunk⟩ := Except.bind_eq_ok_iff.mp hchunk
  cases hchunk
  exact ⟨row, List.mem_of_getElem? hrow, rfl⟩

theorem Consistent.reembedded {r : IndexingResult} (h : Consistent s)
    (hr : Reembedded svc request jobId s r s' chunks warnings) : Consistent s' where
  inStep := by
    obtain ⟨ids, hrows⟩ := hr.rows
    have hclaimed : claimed request chunks (svc.embedSafely chunks).vectors ⊆
        (mirror s).held request.doc := by
      rintro ⟨d, id⟩ ⟨hd, hid⟩
      obtain ⟨c, hc, -, rfl⟩ := mem_embeddedIds.mp hid
      obtain ⟨row, hrow, hrowId⟩ := mem_stored_of_mem_chunks hr.stored hc
      obtain rfl : d = request.doc.domainId := hd
      exact mem_chunkIds_iff.mp ⟨row, hrow, hrowId⟩
    have hrewrites : (mirror s).Rewrites (mirror s') request.doc ((mirror s).held request.doc)
        (claimed request chunks (svc.embedSafely chunks).vectors) :=
      ⟨(owner_of_upserted hr.points).1, (owner_of_upserted hr.points).2,
        (held_updateMetadata hrows request.doc).trans (Set.union_eq_self_of_subset_right hclaimed).symm,
        fun doc _ => held_updateMetadata hrows doc⟩
    refine h.inStep.rewrite hrewrites (Set.Subset.refl _) Set.subset_union_left ?_
    intro x hx doc hdoc
    exact h.inStep.owner_unique hdoc (hclaimed hx)
  owned := owned_of_upserted hr.points h.owned

end Writes

section Deletes

variable {svc : HardDeleteService} {domainId docId : String} {version : Option String}
  {s s' : Stores}

def deletedDocs (domainId docId : String) (version : Option String) : Set DocKey :=
  {doc | doc.domainId = domainId ∧ doc.docId = docId ∧ ∀ v, version = some v → doc.version = v}

theorem matchesDoc_iff_mem_deletedDocs {key : ChunkKey} :
    ChunkRepository.matchesDoc domainId docId version none key = true ↔
      key.toDocKey ∈ deletedDocs domainId docId version :=
  ChunkRepository.matchesDoc_iff

theorem mem_deleted_ids_iff {id : String} :
    id ∈ (s.chunks.deleteByDoc domainId docId version).1 ↔
      ∃ doc ∈ deletedDocs domainId docId version, (domainId, id) ∈ (mirror s).held doc := by
  rw [ChunkRepository.mem_ids_deleteByDoc]
  constructor
  · rintro ⟨key, hkey, hrow⟩
    have hdoc := matchesDoc_iff_mem_deletedDocs.mp hkey
    exact ⟨key.toDocKey, hdoc, hdoc.1.symm, key, rfl, hrow⟩
  · rintro ⟨_, hdoc, -, key, rfl, hrow⟩
    exact ⟨key, matchesDoc_iff_mem_deletedDocs.mpr hdoc, hrow⟩

theorem rows_of_hardDeleted (h : HardDeleted svc domainId docId version s s')
    (hrows : svc.deleteByDocFault = none) (key : ChunkKey) :
    s'.chunks.rows key = if ChunkRepository.matchesDoc domainId docId version none key then []
      else s.chunks.rows key := by
  rw [h.rows, if_pos hrows, ChunkRepository.rows_deleteByDoc]

theorem HardDeleted.removes (h : HardDeleted svc domainId docId version s s')
    (hrows : svc.deleteByDocFault = none)
    (hpoints : svc.deletePointsFault ≠ none →
      (s.chunks.deleteByDoc domainId docId version).1 = []) :
    (mirror s).Removes (mirror s') (deletedDocs domainId docId version) where
  owner_gone := by
    rintro ⟨d, id⟩ ⟨doc, hdoc, hheld⟩
    have hd : d = domainId := hheld.1.trans hdoc.1
    have hid : id ∈ (s.chunks.deleteByDoc domainId docId version).1 :=
      mem_deleted_ids_iff.mpr ⟨doc, hdoc, hd ▸ hheld⟩
    have hfault : svc.deletePointsFault = none := by
      by_contra hne
      rw [hpoints hne] at hid
      exact List.not_mem_nil hid
    simp only [mirror, h.points, hrows, hfault, hd, hid, and_self, if_true, Option.bind_none]
  owner_other := by
    rintro ⟨d, id⟩ hother
    have hpoint : s'.vectors.point? d id = s.vectors.point? d id := by
      rw [h.points]
      refine if_neg ?_
      rintro ⟨-, -, rfl, hid⟩
      obtain ⟨doc, hdoc, hheld⟩ := mem_deleted_ids_iff.mp hid
      exact hother doc hdoc hheld
    simp only [mirror, hpoint]
  held_gone := by
    intro doc hdoc
    ext ⟨d, id⟩
    refine iff_of_false ?_ (Set.notMem_empty _)
    rintro ⟨-, key, rfl, row, hrow, -⟩
    rw [rows_of_hardDeleted h hrows, if_pos (matchesDoc_iff_mem_deletedDocs.mpr hdoc)] at hrow
    exact List.not_mem_nil hrow
  held_other := by
    intro doc hdoc
    refine held_congr ?_
    rintro key rfl
    rw [rows_of_hardDeleted h hrows, if_neg]
    exact fun hmatch => hdoc (matchesDoc_iff_mem_deletedDocs.mp hmatch)

theorem Consistent.hardDeleted (hs : Consistent s)
    (h : HardDeleted svc domainId docId version s s')
    (hpoints : svc.deleteByDocFault = none → svc.deletePointsFault ≠ none →
      (s.chunks.deleteByDoc domainId docId version).1 = []) : Consistent s' where
  inStep := by
    by_cases hrows : svc.deleteByDocFault = none
    · exact hs.inStep.remove (h.removes hrows (hpoints hrows))
    · have hpoint : ∀ d id, s'.vectors.point? d id = s.vectors.point? d id := by
        intro d id
        rw [h.points]
        exact if_neg fun hand => hrows hand.1
      have hchunks : s'.chunks = s.chunks := h.rows.trans (if_neg hrows)
      intro x doc
      simp only [mirror, hpoint, hchunks]
      exact hs.inStep x doc
  owned d id p hp := by
    rw [h.points] at hp
    split at hp
    · cases hp
    · exact hs.owned d id p hp

end Deletes

inductive Op where
  | createCollection (domainId : String) (denseDim : Nat) (withSparse : Bool)
  | run (svc : IndexingService) (request : IndexingRequest) (jobId : String) (piiConfig : Value)
  | runWithExistingJob (svc : IndexingService) (request : IndexingRequest) (jobId : String)
      (piiConfig : Value)
  | hardDelete (svc : HardDeleteService) (domainId docId : String) (version : Option String)
      (action : ChatLogsAction)

def createCollection (domainId : String) (denseDim : Nat) (withSparse : Bool) : StoreTask Unit := do
  let s ← get
  let vectors ← Program.ofExcept (s.vectors.createCollection domainId denseDim withSparse)
  set { s with vectors := vectors }

namespace Op

def after (s : Stores) : Op → Stores
  | .createCollection domainId denseDim withSparse =>
    (Indexing.createCollection domainId denseDim withSparse).final s
  | .run svc request jobId piiConfig => (svc.run request jobId piiConfig).final s
  | .runWithExistingJob svc request jobId piiConfig =>
    (svc.runWithExistingJob request jobId piiConfig).final s
  | .hardDelete svc domainId docId version action =>
    (svc.execute domainId docId version action).final s

def TablesWork : Op → Prop
  | .run svc _ _ _ | .runWithExistingJob svc _ _ _ => svc.faults.TablesWork
  | .createCollection _ _ _ | .hardDelete _ _ _ _ _ => True

/-- A run that reaches its writes covers the rows it replaces, and the points of rows that a hard
delete removes can be deleted. -/
def Covering (s : Stores) : Op → Prop
  | .createCollection _ _ _ => True
  | .run svc request _ piiConfig | .runWithExistingJob svc request _ piiConfig =>
    ∀ p, svc.ReachesWrites request piiConfig s p → svc.Covers request s p
  | .hardDelete svc domainId docId version _ =>
    svc.deleteByDocFault = none → svc.deletePointsFault ≠ none →
      (s.chunks.deleteByDoc domainId docId version).1 = []

/-- After a completed run the points of the document version are its rows, and after a hard
delete without dead letters no point of the document is left. -/
def Settled (s : Stores) : Op → Prop
  | .createCollection _ _ _ => True
  | .run svc request jobId piiConfig =>
    ∀ r, (svc.run request jobId piiConfig).result? s = some r → r.status = .completed →
      pointIds ((svc.run request jobId piiConfig).final s) request.doc =
        chunkIds ((svc.run request jobId piiConfig).final s) request.doc
  | .runWithExistingJob svc request jobId piiConfig =>
    ∀ r, (svc.runWithExistingJob request jobId piiConfig).result? s = some r →
      r.status = .completed →
      pointIds ((svc.runWithExistingJob request jobId piiConfig).final s) request.doc =
        chunkIds ((svc.runWithExistingJob request jobId piiConfig).final s) request.doc
  | .hardDelete svc domainId docId version action =>
    ∀ r, (svc.execute domainId docId version action).result? s = some r → r.deadLetters = [] →
      ∀ id p, ((svc.execute domainId docId version action).final s).vectors.point? domainId id
          = some p →
        ¬ (p.payload.get? "doc_id" = some (.str docId) ∧
          ∀ v, version = some v → p.payload.get? "doc_version" = some (.str v))

end Op

def Stores.empty : Stores := ⟨⟨.empty⟩, ⟨.empty⟩, ⟨.empty, .empty⟩, ⟨.empty⟩⟩

section Runs

variable {s s' : Stores}

theorem consistent_empty : Consistent Stores.empty where
  inStep x doc := by
    refine iff_of_false nofun ?_
    rintro ⟨-, key, -, row, hrow, -⟩
    exact List.not_mem_nil hrow
  owned _ _ _ hp := by cases hp

theorem headingNames_spec : "doc_id" ∉ headingNames ∧ "doc_version" ∉ headingNames := by decide

theorem Consistent.runOutcome {svc : IndexingService} {request : IndexingRequest}
    {piiConfig : Value} {jobId : String} {r : IndexingResult} (h : Consistent s)
    (hcovering : ∀ p, svc.ReachesWrites request piiConfig s p → svc.Covers request s p)
    (hrun : RunOutcome svc request piiConfig jobId s r s') : Consistent s' := by
  cases hrun with
  | gaveUp _ kept => exact h.relabels kept.relabels headingNames_spec.1 headingNames_spec.2
  | full p path outcome =>
    exact h.written outcome.written
      (hcovering p ⟨path, outcome.prepared, outcome.below, outcome.written.upsert⟩)
  | relabelled _ _ _ outcome =>
    exact h.relabels outcome.relabels headingNames_spec.1 headingNames_spec.2
  | reembedded _ _ chunks warnings outcome => exact h.reembedded outcome

theorem ensures_consistent_run {svc : IndexingService} {request : IndexingRequest}
    {piiConfig : Value} {jobId : String} (h : Consistent s) (hwork : svc.faults.TablesWork)
    (hcovering : ∀ p, svc.ReachesWrites request piiConfig s p → svc.Covers request s p) :
    Ensures (svc.run request jobId piiConfig) s (fun _ => Consistent) fun _ => Consistent :=
  (ensures_run hwork).mono (fun _ _ hrun => h.runOutcome hcovering hrun)
    fun _ _ hs => h.relabels hs headingNames_spec.1 headingNames_spec.2

theorem ensures_consistent_runWithExistingJob {svc : IndexingService}
    {request : IndexingRequest} {piiConfig : Value} {jobId : String} (h : Consistent s)
    (hwork : svc.faults.TablesWork)
    (hcovering : ∀ p, svc.ReachesWrites request piiConfig s p → svc.Covers request s p) :
    Ensures (svc.runWithExistingJob request jobId piiConfig) s (fun _ => Consistent)
      fun _ => Consistent := by
  by_cases hjob : Knows s.jobs jobId
  · exact (ensures_runWithExistingJob hwork hjob).mono
      (fun _ _ hrun => h.runOutcome hcovering hrun.1)
      fun _ _ hs => h.relabels hs.1.relabels headingNames_spec.1 headingNames_spec.2
  · refine (ensures_runWithExistingJob_of_not_knows hjob).mono (fun _ _ hf => hf.elim) ?_
    rintro _ _ rfl
    exact h

theorem ensures_consistent_createCollection {domainId : String} {denseDim : Nat}
    {withSparse : Bool} (h : Consistent s) :
    Ensures (createCollection domainId denseDim withSparse) s (fun _ => Consistent)
      fun _ => Consistent := by
  rw [createCollection, ensures_bind, ensures_get, ensures_bind, ensures_ofExcept]
  refine ⟨fun vs hvs => ?_, fun _ _ => h⟩
  have hpoint := VectorStore.point?_createCollection hvs
  refine ⟨fun x doc => ?_, fun d id p hp => h.owned d id p ((hpoint d id).symm.trans hp)⟩
  simp only [mirror, hpoint]
  exact h.inStep x doc

theorem Consistent.after {op : Op} (h : Consistent s) (hwork : op.TablesWork)
    (hcovering : op.Covering s) : Consistent (op.after s) := by
  cases op with
  | createCollection domainId denseDim withSparse =>
    exact (ensures_consistent_createCollection h).final
  | run svc request jobId piiConfig => exact (ensures_consistent_run h hwork hcovering).final
  | runWithExistingJob svc request jobId piiConfig =>
    exact (ensures_consistent_runWithExistingJob h hwork hcovering).final
  | hardDelete svc domainId docId version action =>
    refine Ensures.final (ensures_execute.mono ?_ ?_)
    · intro _ _ hdeleted
      exact h.hardDeleted hdeleted.1 hcovering
    · intro _ _ hdeleted
      exact h.hardDeleted hdeleted hcovering

theorem Consistent.settled {op : Op} (h : Consistent s) (hwork : op.TablesWork)
    (hcovering : op.Covering s) : op.Settled s := by
  have hafter := h.after hwork hcovering
  cases op with
  | createCollection domainId denseDim withSparse => trivial
  | run svc request jobId piiConfig => exact fun _ _ _ => hafter.pointIds_eq request.doc
  | runWithExistingJob svc request jobId piiConfig =>
    exact fun _ _ _ => hafter.pointIds_eq request.doc
  | hardDelete svc domainId docId version action =>
    rintro r hr hletters id p hp ⟨hdoc, hversion⟩
    obtain ⟨hdeleted, hnone⟩ := ensures_execute.of_result? hr
    obtain ⟨hrows, -⟩ := hnone hletters
    obtain ⟨doc, howner⟩ := hafter.owned domainId id p hp
    obtain ⟨hdomain, hcarries⟩ := ownerOf_eq_some_iff.mp howner
    have hgone : doc ∈ deletedDocs domainId docId version := by
      refine ⟨hdomain.symm, ?_, ?_⟩
      · simpa using hcarries.1.symm.trans hdoc
      · intro v hv
        simpa using hcarries.2.symm.trans (hversion v hv)
    have hheld := (hafter.inStep (domainId, id) doc).mp (Option.bind_eq_some_iff.mpr ⟨p, hp, howner⟩)
    have hempty := (hdeleted.removes hrows (hcovering hrows)).held_gone doc hgone
    exact Set.notMem_empty _ (hempty ▸ hheld)

/-- Over every sequence of runs and hard deletes from empty stores whose steps are covering, each
completed run leaves the points of its document version equal to its rows and each hard delete
without dead letters leaves no point of its document. -/
theorem settled_along_covering_runs (ops : List Op) (hwork : ∀ op ∈ ops, op.TablesWork)
    (hcovering : Along Op.after Op.Covering ops Stores.empty) :
    Along Op.after Op.Settled ops Stores.empty := by
  refine hcovering.of_invariant consistent_empty ?_
  intro op hop s h hcovers
  exact ⟨h.after (hwork op hop) hcovers, h.settled (hwork op hop) hcovers⟩

end Runs

section Handbook

def splitting (texts : List String) : IndexingService where
  parserVersion := "p1"
  parse _ := .ok [{ pageNumber := 1, text := "" }]
  chunkStrategy := "fixed-window-v1"
  chunk docId docVersion parserVersion _ := .ok (texts.zipIdx.map fun t =>
    { chunkId := s!"{docId}:{docVersion}:{parserVersion}:chunk:{t.2}"
      chunkIndex := t.2
      content := t.1
      pageNumber := .int 1
      sectionTitle := .null
      headingPath := []
      startChar := 0
      endChar := t.1.length
      tokenCount := 1 })
  modelName := "bge-m3"
  denseDim := 1
  embedBatch texts := .ok (texts.map fun _ => ⟨[1], .empty⟩)
  checkChunkPii _ _ := .ok {}
  sha256 _ := ""
  formatRate _ := "0.00"
  formatFloat _ := "0.3"
  failureThreshold := 3 / 10
  faults := {}

def handbook : IndexingRequest :=
  { domainId := "hr", docId := "handbook", docVersion := "v1", filePath := .str "handbook.txt"
    title := .str "Handbook" }

def deleting (fault : Option Exc) : HardDeleteService where
  deletePointsFault := fault
  storageDelete _ _ _ := .ok 1
  chatLogsHandler _ _ _ := .ok 0
  audit _ := .ok ()

def firstRun (texts : List String) : List Op :=
  [.createCollection "hr" 1 true, .run (splitting texts) handbook "J1" .null]

def shrinkingRuns : List Op :=
  firstRun ["a", "b"] ++ [.run (splitting ["a"]) handbook "J2" .null]

def retriedDelete : List Op :=
  firstRun ["a"] ++
    [.hardDelete (deleting (some ⟨"TimeoutError", ""⟩)) "hr" "handbook" none .keepExcerpts,
     .hardDelete (deleting none) "hr" "handbook" none .keepExcerpts]

def reached (ops : List Op) : Stores := ops.foldl Op.after Stores.empty

/-- Splitting a document into fewer chunks leaves the point of the lost chunk behind, and the
retry of a hard delete whose points could not be deleted reports success with the points still
there. -/
theorem stale_points_survive :
    (∀ op ∈ shrinkingRuns ++ retriedDelete, op.TablesWork) ∧
      ¬ Along Op.after Op.Settled shrinkingRuns Stores.empty ∧
      ¬ Along Op.after Op.Settled retriedDelete Stores.empty := by
  refine ⟨?_, ?_, ?_⟩
  · intro op hop
    simp only [shrinkingRuns, retriedDelete, firstRun, List.cons_append, List.nil_append,
      List.mem_cons, List.not_mem_nil, or_false] at hop
    rcases hop with rfl | rfl | rfl | rfl | rfl | rfl | rfl
    · trivial
    · exact ⟨rfl, rfl, rfl, fun _ => rfl⟩
    · exact ⟨rfl, rfl, rfl, fun _ => rfl⟩
    · trivial
    · exact ⟨rfl, rfl, rfl, fun _ => rfl⟩
    · trivial
    · trivial
  · rintro ⟨-, -, hsettled, -⟩
    obtain ⟨r, hr, hstatus⟩ := (Option.any_eq_true (fun r => r.status = .completed)
      (((splitting ["a"]).run handbook "J2" .null).result? (reached (firstRun ["a", "b"])))).mp
      (by decide +kernel)
    obtain ⟨p, hp, hcarries⟩ := (Option.any_eq_true (fun p => Carries p handbook.doc)
      ((reached shrinkingRuns).vectors.point? "hr" "handbook:v1:p1:chunk:1")).mp (by decide +kernel)
    have hpoint : "handbook:v1:p1:chunk:1" ∈ pointIds (reached shrinkingRuns) handbook.doc :=
      ⟨p, hp, of_decide_eq_true hcarries⟩
    have heq : pointIds (reached shrinkingRuns) handbook.doc =
        chunkIds (reached shrinkingRuns) handbook.doc :=
      hsettled r hr (of_decide_eq_true hstatus)
    rw [heq] at hpoint
    have hrow : "handbook:v1:p1:chunk:1" ∈
        ((reached shrinkingRuns).chunks.listByDoc handbook.doc none).map ChunkRecord.chunkId :=
      List.mem_map.mpr hpoint
    exact absurd hrow (by decide +kernel)
  · rintro ⟨-, -, -, hsettled, -⟩
    obtain ⟨r, hr, hletters⟩ := (Option.any_eq_true (fun r => r.deadLetters = [])
      (((deleting none).execute "hr" "handbook" none .keepExcerpts).result?
        (reached (retriedDelete.take 3)))).mp (by decide +kernel)
    obtain ⟨p, hp, hcarries⟩ := (Option.any_eq_true (fun p => Carries p handbook.doc)
      ((reached retriedDelete).vectors.point? "hr" "handbook:v1:p1:chunk:0")).mp (by decide +kernel)
    exact hsettled r hr (of_decide_eq_true hletters) _ p hp
      ⟨(of_decide_eq_true hcarries).1, by rintro _ ⟨⟩⟩

theorem covers_of_ids (ids rowIds : List String) {svc : IndexingService} {s : Stores} {p : Prepared}
    (hp : svc.ReachesWrites handbook .null s p)
    (hids : ((svc.prepare handbook .null).toOption.map fun p =>
      embeddedIds p.chunks p.embed.vectors) = some ids)
    (hkeys : ∀ key ∈ s.chunks.chunks.keys, key.toDocKey = handbook.doc)
    (hrows : (s.chunks.rows ⟨handbook.doc, svc.parserVersion⟩).map ChunkRecord.chunkId = rowIds)
    (hsub : rowIds ⊆ ids) : svc.Covers handbook s p := by
  rw [hp.prepared] at hids
  have hids : embeddedIds p.chunks p.embed.vectors = ids := Option.some.inj hids
  refine ⟨fun row hrow => ?_, ?_⟩
  · rw [hids]
    refine hsub ?_
    rw [← hrows]
    exact List.mem_map_of_mem hrow
  · rintro id - doc - ⟨row, hrow, -⟩
    obtain ⟨key, hkey, hmem⟩ := ChunkRepository.mem_listByDoc.mp hrow
    obtain ⟨rows, hentry, -⟩ := ChunkRepository.mem_rows_iff_entries.mp hmem
    exact hkey.symm.trans (hkeys key (List.mem_map_of_mem hentry))

/-- A document that grows from one chunk to two and is then deleted. -/
theorem settled_along_growing_runs :
    Along Op.after Op.Settled (firstRun ["a"] ++ [.run (splitting ["a", "b"]) handbook "J2" .null,
      .hardDelete (deleting none) "hr" "handbook" none .keepExcerpts]) Stores.empty := by
  refine settled_along_covering_runs _ ?_ ⟨trivial, ?_, ?_, ?_, trivial⟩
  · intro op hop
    simp only [firstRun, List.cons_append, List.nil_append, List.mem_cons, List.not_mem_nil,
      or_false] at hop
    rcases hop with rfl | rfl | rfl | rfl
    · trivial
    · exact ⟨rfl, rfl, rfl, fun _ => rfl⟩
    · exact ⟨rfl, rfl, rfl, fun _ => rfl⟩
    · trivial
  · intro p hp
    refine covers_of_ids ["handbook:v1:p1:chunk:0"] []
      (s := reached [.createCollection "hr" 1 true]) hp ?_ ?_ ?_ ?_ <;> decide +kernel
  · intro p hp
    refine covers_of_ids ["handbook:v1:p1:chunk:0", "handbook:v1:p1:chunk:1"]
      ["handbook:v1:p1:chunk:0"] (s := reached (firstRun ["a"])) hp ?_ ?_ ?_ ?_ <;>
      decide +kernel
  · exact fun _ hfault => absurd rfl hfault

end Handbook

end DomainRag.Indexing
