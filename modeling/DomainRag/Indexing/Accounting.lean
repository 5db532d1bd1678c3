import Mathlib.Algebra.Order.Field.Rat
import DomainRag.Indexing.Chunker
import DomainRag.Indexing.Consistency

/-! # What a run reports

The rows, the points and the numbers of a run are computed one after the other from the same
chunks. Below a threshold of one a batch that fails fails the run, so a run that writes has a
vector for each of its chunks, and every count is the number of chunks.
-/

namespace DomainRag.Indexing

open Store Program

/-- A chunker that gives distinct ids, an embedder that fails or answers every text, and a
threshold that a batch of failures exceeds. -/
structure IndexingService.Regular (svc : IndexingService) : Prop where
  distinct : ∀ docId docVersion parserVersion pages chunks,
    svc.chunk docId docVersion parserVersion pages = .ok chunks →
      (chunks.map Chunk.chunkId).Nodup
  answers : ∀ texts vectors, svc.embedBatch texts = .ok vectors → vectors.length = texts.length
  threshold : svc.failureThreshold < 1

theorem IndexingService.regular_of_chunker {svc : IndexingService} (chunker : InMemoryChunker)
    (hchunk : ∀ docId docVersion parserVersion pages,
      svc.chunk docId docVersion parserVersion pages =
        .ok (chunker.chunk docId docVersion parserVersion pages))
    (hanswers : ∀ texts vectors, svc.embedBatch texts = .ok vectors →
      vectors.length = texts.length)
    (hthreshold : svc.failureThreshold < 1) : svc.Regular where
  distinct := by
    intro docId docVersion parserVersion pages chunks h
    rw [hchunk, Except.ok.injEq] at h
    rw [← h]
    exact chunker.nodup_chunkIds docId docVersion parserVersion pages
  answers := hanswers
  threshold := hthreshold

/-- The numbers that an operator is shown. -/
structure Tally where
  status : JobStatus
  total : Nat
  indexed : Nat
  failed : List FailedChunk

def IndexingResult.tally (r : IndexingResult) : Tally :=
  ⟨r.status, r.totalChunks, r.indexedChunks, r.failedChunks⟩

def jobTally (job : IndexingJobRecord) : Tally :=
  ⟨job.status, job.totalChunks, job.indexedChunks, job.failedChunks⟩

/-- A job without counts, as it is registered and as a retry leaves it. -/
def Fresh (j : JobRepository) (jobId : String) : Prop :=
  ∃ job, j.get jobId = some job ∧ job.indexedChunks = 0 ∧ job.failedChunks = []

/-- The fields that points and rows share, by their names in the payload. -/
def sharedFields (row : ChunkRecord) : List (String × Value) :=
  [("domain_id", .str row.domainId),
   ("doc_id", .str row.docId),
   ("doc_version", .str row.docVersion),
   ("parser_version", .str row.parserVersion),
   ("chunk_strategy", .str row.chunkStrategy),
   ("chunk_index", .int row.chunkIndex),
   ("content", .str row.content),
   ("title", row.attrs (.shared .title)),
   ("page_number", row.attrs .pageNumber),
   ("section_title", row.attrs .sectionTitle),
   ("heading_path", row.attrs .headingPath),
   ("department", row.attrs (.shared .department)),
   ("doc_type", row.attrs (.shared .docType)),
   ("security_level", row.attrs (.shared .securityLevel)),
   ("acl", row.attrs .acl),
   ("approval_status", row.attrs (.shared .approvalStatus)),
   ("tags", row.attrs (.shared .tags)),
   ("valid_from", row.attrs (.shared .validFrom)),
   ("valid_until", row.attrs (.shared .validUntil)),
   ("pii_warnings", row.attrs .piiWarnings)]

structure Agrees (p : Point) (row : ChunkRecord) : Prop where
  id : row.chunkId = p.id
  payload : p.payload.entries = sharedFields row

namespace IndexingService

variable (svc : IndexingService) (request : IndexingRequest) (piiConfig : Value)

/-- The chunks that a run works on, with their vectors. -/
def planned (chunks : ChunkRepository) : Except Exc Prepared :=
  if svc.takesFull request chunks then svc.prepare request piiConfig
  else svc.restore (chunks.listByDoc request.doc none)

/-- The rows that a run writes, or those whose points it writes. -/
def storedRows (before after : ChunkRepository) : List ChunkRecord :=
  if svc.takesFull request before then after.rows ⟨request.doc, svc.parserVersion⟩
  else after.listByDoc request.doc none

end IndexingService

/-- Each point is in the store and agrees with a row. -/
structure Paired (domainId : String) (points : List Point) (rows : List ChunkRecord)
    (vs : VectorStore) : Prop where
  distinct : (points.map Point.id).Nodup
  stored : ∀ p ∈ points, vs.point? domainId p.id = some p
  agrees : ∀ p ∈ points, ∃ row ∈ rows, Agrees p row

structure Wrote (svc : IndexingService) (request : IndexingRequest) (s s' : Stores)
    (points : List Point) (n : Nat) : Prop where
  upserted : Upserted s.vectors s'.vectors request.domainId points
  length : points.length = n
  rows : (svc.storedRows request s.chunks s'.chunks).length = n
  paired : svc.takesFull request s.chunks = true →
    Paired request.domainId points (svc.storedRows request s.chunks s'.chunks) s'.vectors

/-- The numbers of a run are those of what it wrote. -/
structure Accounted (svc : IndexingService) (request : IndexingRequest) (piiConfig : Value)
    (jobId : String) (s : Stores) (r : IndexingResult) (s' : Stores) : Prop where
  unchanged : r.status = .failed →
    s'.vectors = s.vectors ∧ s'.documents = s.documents ∧ s'.chunks = s.chunks
  total : r.status ≠ .failed → r.totalChunks = r.indexedChunks + r.failedChunks.length
  written : r.status ≠ .failed →
    request.mode ≠ .parserOnly ∨ svc.takesFull request s.chunks = true →
      ∃ p, svc.planned request piiConfig s.chunks = .ok p ∧
        Wrote svc request s s' (svc.points request p) r.indexedChunks
  recorded : (s'.jobs.get jobId).map jobTally = some r.tally

theorem Accounted.of_jobs {svc : IndexingService} {request : IndexingRequest} {piiConfig : Value}
    {jobId : String} {s s' : Stores} {j : JobRepository} {r : IndexingResult}
    (h : Accounted svc request piiConfig jobId ⟨s.vectors, s.documents, s.chunks, j⟩ r s') :
    Accounted svc request piiConfig jobId s r s' where
  unchanged := h.unchanged
  total := h.total
  written hstatus hmode := by
    obtain ⟨p, hp, hwrote⟩ := h.written hstatus hmode
    exact ⟨p, hp, hwrote.upserted, hwrote.length, hwrote.rows, hwrote.paired⟩
  recorded := h.recorded

section Vectors

variable {svc : IndexingService} {request : IndexingRequest} {chunks : List Chunk}

theorem isSome_get?_foldl_set {pairs : List (Chunk × Embedding)} {d : Dict String Embedding}
    {id : String} (h : (d.get? id).isSome ∨ ∃ e ∈ pairs, e.1.chunkId = id) :
    ((pairs.foldl (fun vectors e => vectors.set e.1.chunkId e.2) d).get? id).isSome := by
  induction pairs generalizing d with
  | nil =>
    obtain h | ⟨e, he, -⟩ := h
    · exact h
    · exact absurd he List.not_mem_nil
  | cons e pairs ih =>
    refine ih ?_
    rw [Dict.get?_set]
    split
    · exact .inl rfl
    · rename_i hid
      refine h.imp_right ?_
      rintro ⟨e', he', rfl⟩
      obtain rfl | he' := List.mem_cons.mp he'
      · exact absurd rfl hid
      · exact ⟨e', he', rfl⟩

/-- A run that goes on has a vector for each chunk. -/
theorem embedded_of_below (h : svc.Regular) (hbelow : svc.overThreshold
    (IndexingService.failureRate chunks (svc.embedSafely chunks).failed) = false) :
    (svc.embedSafely chunks).failed = [] ∧
      ∀ c ∈ chunks, ((svc.embedSafely chunks).vectors.get? c.chunkId).isSome := by
  revert hbelow
  rw [IndexingService.embedSafely]
  split
  · rename_i hempty
    rw [List.isEmpty_iff.mp hempty]
    exact fun _ => ⟨rfl, fun _ hc => absurd hc List.not_mem_nil⟩
  · rename_i hempty
    split
    · rename_i pairs hpairs
      refine fun _ => ⟨rfl, fun c hc => isSome_get?_foldl_set (.inr ?_)⟩
      have hlength : chunks.length ≤ pairs.length := by
        rw [h.answers _ _ hpairs, List.length_map]
      rw [← List.map_fst_zip hlength] at hc
      obtain ⟨e, he, rfl⟩ := List.mem_map.mp hc
      exact ⟨e, he, rfl⟩
    · rename_i e herror
      intro hbelow
      have hpos : 1 ≤ chunks.length := by
        rw [List.isEmpty_iff] at hempty
        exact List.length_pos_iff.mpr hempty
      have hone : IndexingService.failureRate chunks
          (chunks.map fun c => ⟨c.chunkId, "embed", e.message⟩) = 1 := by
        rw [IndexingService.failureRate, if_neg hempty, List.length_map, max_eq_right hpos]
        exact div_self (Nat.cast_ne_zero.mpr (Nat.ne_of_gt hpos))
      rw [hone, IndexingService.overThreshold, decide_eq_true h.threshold] at hbelow
      cases hbelow

theorem points_map_id {p : Prepared}
    (h : ∀ c ∈ p.chunks, (p.embed.vectors.get? c.chunkId).isSome) :
    (svc.points request p).map Point.id = p.chunks.map Chunk.chunkId := by
  rw [IndexingService.points, IndexingService.buildPoints]
  generalize p.chunks = chunks at h ⊢
  induction chunks with
  | nil => rfl
  | cons c chunks ih =>
    obtain ⟨v, hv⟩ := Option.isSome_iff_exists.mp (h c List.mem_cons_self)
    rw [List.filterMap_cons_some (by rw [hv, Option.map_some]), List.map_cons, List.map_cons,
      ih fun c' hc' => h c' (List.mem_cons_of_mem c hc')]

theorem length_records {p : Prepared}
    (h : ∀ c ∈ p.chunks, (p.embed.vectors.get? c.chunkId).isSome) :
    (svc.records request p).length = p.chunks.length := by
  rw [IndexingService.records, IndexingService.buildRecords]
  refine List.filterMap_length_eq_length.mpr fun c hc => ?_
  rw [Option.isSome_map]
  exact h c hc

theorem exists_record_of_point {p : Prepared} {point : Point} (h : point ∈ svc.points request p) :
    ∃ row ∈ svc.records request p, Agrees point row := by
  obtain ⟨c, hc, hpoint⟩ := List.mem_filterMap.mp h
  obtain ⟨v, hv, rfl⟩ := Option.map_eq_some_iff.mp hpoint
  exact ⟨svc.buildRecord request ((p.warnings.get? c.chunkId).getD {}) c,
    List.mem_filterMap.mpr ⟨c, hc, by rw [hv, Option.map_some]⟩, rfl, rfl⟩

/-- Of points with distinct ids each one is found after the upsert. -/
theorem Upserted.point?_eq {vs vs' : VectorStore} {domainId : String} {points : List Point}
    (h : Upserted vs vs' domainId points) (hnodup : (points.map Point.id).Nodup) {p : Point}
    (hp : p ∈ points) : vs'.point? domainId p.id = some p := by
  obtain ⟨-, p', hp', hid, hpoint⟩ | ⟨hnone, -⟩ := h.cases domainId p.id
  · rw [hpoint, List.inj_on_of_nodup_map hnodup hp' hp hid]
  · exact absurd ⟨rfl, p, hp, rfl⟩ hnone

end Vectors

section Jobs

variable {v : VectorStore} {d : DocumentRepository} {c : ChunkRepository} {j : JobRepository}
  {jobId : String} {job : IndexingJobRecord}

theorem Fresh.knows (h : Fresh j jobId) : Knows j jobId := by
  obtain ⟨job, hjob, -⟩ := h
  exact Option.isSome_iff_exists.mpr ⟨job, hjob⟩

theorem fresh_of_create {j' : JobRepository} (h : j.create job = .ok j')
    (hindexed : job.indexedChunks = 0) (hfailed : job.failedChunks = []) :
    Fresh j' job.jobId := by
  rw [JobRepository.create] at h
  split at h
  · cases h
  · cases h
    exact ⟨job, by rw [JobRepository.get, Dict.get?_set, if_pos rfl], hindexed, hfailed⟩

/-- The numbers that a run returns and leaves in the job table are those of its chunks. -/
structure Reports (jobId : String) (p : Prepared) (r : IndexingResult) (s' : Stores) : Prop where
  total : r.totalChunks = p.chunks.length
  failed : r.failedChunks = p.embed.failed
  indexed : r.status ≠ .failed → r.indexedChunks = p.chunks.length - p.embed.failed.length
  recorded : (s'.jobs.get jobId).map jobTally = some r.tally

variable {R : Exc → Stores → Prop} {p : Prepared} {total high : Nat} {rate : Rat}

theorem ensures_failRun_reports {message : String} (hjob : j.get jobId = some job)
    (hindexed : job.indexedChunks = 0) (htotal : job.totalChunks = total)
    (hchunks : total = p.chunks.length) :
    Ensures (IndexingService.failRun jobId message total p.embed.failed high rate) ⟨v, d, c, j⟩
      (Reports jobId p) R := by
  rw [IndexingService.failRun, ensures_bind]
  refine ensures_updateJob_get hjob fun j' hj' => ⟨hchunks, rfl, fun h => absurd rfl h, ?_⟩
  rw [hj', Option.map_some]
  simp only [jobTally, IndexingResult.tally, JobPatch.apply, hindexed, htotal, Option.getD_some,
    Option.getD_none]

theorem ensures_finishRun_reports (hjob : j.get jobId = some job)
    (htotal : job.totalChunks = total) (hchunks : total = p.chunks.length) :
    Ensures (IndexingService.finishRun jobId total p.embed.failed high rate) ⟨v, d, c, j⟩
      (Reports jobId p) R := by
  rw [IndexingService.finishRun, ensures_bind]
  refine ensures_updateJob_get hjob fun j' hj' => ⟨hchunks, rfl, fun _ => ?_, ?_⟩
  · rw [← hchunks]
  · rw [hj', Option.map_some]
    simp only [jobTally, IndexingResult.tally, JobPatch.apply, htotal, Option.getD_some,
      Option.getD_none]

end Jobs

section Reports

variable {svc : IndexingService} {request : IndexingRequest} {jobId : String} {piiConfig : Value}
  {s : Stores}

theorem ensures_indexFull_reports (hjob : Fresh s.jobs jobId) :
    Ensures (svc.indexFull request jobId piiConfig) s
      (fun r s' => ∃ p, svc.prepare request piiConfig = .ok p ∧ Reports jobId p r s')
      fun _ _ => True := by
  obtain ⟨v, d, c, j⟩ := s
  obtain ⟨job, hget, hindexed, -⟩ := hjob
  rw [IndexingService.indexFull, ensures_bind]
  refine ensures_updateJob_get hget fun j₁ hj₁ => ?_
  rw [ensures_bind, ensures_ofExcept]
  refine ⟨fun pages hpages => ?_, fun _ _ => trivial⟩
  rw [ensures_bind]
  refine ensures_updateJob_get hj₁ fun j₂ hj₂ => ?_
  rw [ensures_bind, ensures_ofExcept]
  refine ⟨fun chunks hchunks => ?_, fun _ _ => trivial⟩
  rw [ensures_bind, ensures_ofExcept]
  refine ⟨fun warnings hwarnings => ?_, fun _ _ => trivial⟩
  rw [ensures_bind]
  refine ensures_updateJob_get hj₂ fun j₃ hj₃ => ?_
  rw [ensures_bind]
  refine ensures_updateJob_get hj₃ fun j₄ hj₄ => ?_
  let p : Prepared := ⟨chunks, warnings, svc.embedSafely chunks⟩
  have hprepared : svc.prepare request piiConfig = .ok p :=
    prepare_eq_ok_iff.mpr ⟨pages, chunks, warnings, hpages, hchunks, hwarnings, rfl⟩
  have hreports : ∀ r s', Reports jobId p r s' →
      ∃ p, svc.prepare request piiConfig = .ok p ∧ Reports jobId p r s' :=
    fun _ _ h => ⟨p, hprepared, h⟩
  refine ensures_ite.mpr ⟨fun _ => ?_, fun _ => ?_⟩
  · exact (ensures_failRun_reports (p := p) hj₄ hindexed rfl rfl).mono hreports fun _ _ h => h
  rw [ensures_bind]
  refine ensures_upsertToQdrant (fun _ _ => trivial) fun v' _ _ => ?_
  rw [ensures_bind, IndexingService.writeChunksAndDocument, ensures_bind, ensures_failing]
  refine ⟨fun _ _ => trivial, fun _ => ?_⟩
  rw [ensures_modify, ensures_failing]
  refine ⟨fun _ _ => trivial, fun _ => ?_⟩
  rw [ensures_modify]
  exact (ensures_finishRun_reports (p := p) hj₄ rfl rfl).mono hreports fun _ _ h => h

theorem EmbedResult.status_ne_failed (embed : EmbedResult) : embed.status ≠ .failed := by
  rw [EmbedResult.status]
  split
  · nofun
  · nofun

theorem Reports.indexed_of_complete {p : Prepared} {r : IndexingResult} {s' : Stores}
    (h : Reports jobId p r s') (hfailed : p.embed.failed = []) (hstatus : r.status ≠ .failed) :
    r.indexedChunks = p.chunks.length := by
  rw [h.indexed hstatus, hfailed, List.length_nil, Nat.sub_zero]

theorem Reports.total_of_complete {p : Prepared} {r : IndexingResult} {s' : Stores}
    (h : Reports jobId p r s') (hfailed : p.embed.failed = []) (hstatus : r.status ≠ .failed) :
    r.totalChunks = r.indexedChunks + r.failedChunks.length := by
  rw [h.total, h.failed, h.indexed_of_complete hfailed hstatus, hfailed, List.length_nil,
    Nat.add_zero]

theorem Kept.accounted {p : Prepared} {r : IndexingResult} {s' : Stores} (h : Kept jobId s s')
    (hstatus : r.status = .failed) (hreports : Reports jobId p r s') :
    Accounted svc request piiConfig jobId s r s' where
  unchanged _ := ⟨h.vectors, h.documents, h.chunks⟩
  total hnot := absurd hstatus hnot
  written hnot := absurd hstatus hnot
  recorded := hreports.recorded

theorem FullOutcome.wrote {p : Prepared} {r : IndexingResult} {s' : Stores} (h : svc.Regular)
    (hpath : svc.takesFull request s.chunks = true)
    (houtcome : FullOutcome svc request piiConfig jobId s r s' p)
    (hall : ∀ c ∈ p.chunks, (p.embed.vectors.get? c.chunkId).isSome) :
    Wrote svc request s s' (svc.points request p) p.chunks.length := by
  have hids : (svc.points request p).map Point.id = p.chunks.map Chunk.chunkId :=
    points_map_id hall
  have hnodup : ((svc.points request p).map Point.id).Nodup := by
    obtain ⟨_, chunks, _, -, hchunks, -, rfl⟩ := prepare_eq_ok_iff.mp houtcome.prepared
    rw [hids]
    exact h.distinct _ _ _ _ chunks hchunks
  have hrows : svc.storedRows request s.chunks s'.chunks = svc.records request p := by
    rw [IndexingService.storedRows, if_pos hpath, houtcome.written.rows,
      ChunkRepository.rows_replaceChunks, if_pos rfl]
  refine ⟨houtcome.written.points, ?_, ?_, fun _ => ⟨hnodup, fun point hpoint => ?_, ?_⟩⟩
  · rw [← List.length_map Point.id, hids, List.length_map]
  · rw [hrows, length_records hall]
  · exact houtcome.written.points.point?_eq hnodup hpoint
  · rw [hrows]
    exact fun point => exists_record_of_point

theorem ensures_indexFull_accounted (h : svc.Regular) (hjob : Fresh s.jobs jobId)
    (hpath : svc.takesFull request s.chunks = true) :
    Ensures (svc.indexFull request jobId piiConfig) s
      (Accounted svc request piiConfig jobId s) fun _ _ => True := by
  refine ((ensures_indexFull_ends hjob.knows).and (ensures_indexFull_reports hjob)).mono ?_
    fun _ _ _ => trivial
  rintro r s' ⟨⟨hreturned, -⟩, p, hp, hreports⟩
  cases hreturned with
  | gaveUp _ _ _ hstatus hkept => exact hkept.accounted hstatus hreports
  | done p' _ _ houtcome =>
    obtain rfl : p = p' := Except.ok.inj (hp.symm.trans houtcome.prepared)
    have hcomplete : p.embed.failed = [] ∧
        ∀ c ∈ p.chunks, (p.embed.vectors.get? c.chunkId).isSome := by
      have hbelow := houtcome.below
      obtain ⟨_, chunks, _, -, -, -, rfl⟩ := prepare_eq_ok_iff.mp hp
      exact embedded_of_below h hbelow
    refine ⟨fun hstatus => ?_, hreports.total_of_complete hcomplete.1, fun hstatus _ => ?_,
      hreports.recorded⟩
    · exact absurd (houtcome.status.symm.trans hstatus) p.embed.status_ne_failed
    · rw [hreports.indexed_of_complete hcomplete.1 hstatus, IndexingService.planned, if_pos hpath]
      exact ⟨p, hp, houtcome.wrote h hpath hcomplete.2⟩

end Reports

section Stored

variable {svc : IndexingService} {request : IndexingRequest} {jobId : String} {piiConfig : Value}
  {s : Stores}

def SameJobs (s s' : Stores) : Prop := s'.jobs = s.jobs

instance : Std.Refl SameJobs := ⟨fun _ => rfl⟩

instance : IsTrans Stores SameJobs := ⟨fun _ _ _ h h' => Eq.trans h' h⟩

theorem follows_relabelRow_jobs (pages : List ParsedPage) (c : ChunkRecord × Nat) :
    Follows SameJobs (svc.relabelRow request pages c) := by
  refine .bind (follows_ofExcept _) fun page? => ?_
  cases page? with
  | none => exact follows_pure _
  | some page =>
    refine .bind (.failing (follows_modify fun _ => rfl)) fun _ => ?_
    exact .tryCatch (.failing (follows_update fun _ _ _ => rfl)) fun _ => follows_pure _

theorem ensures_reindexParserOnly_accounted (h : svc.Regular) (hjob : Fresh s.jobs jobId)
    (hmode : request.mode = .parserOnly) :
    Ensures (svc.reindexParserOnly request jobId piiConfig) s
      (Accounted svc request piiConfig jobId s) fun _ _ => True := by
  obtain ⟨v, d, c, j⟩ := s
  obtain ⟨job, hget, hindexed, hfailed⟩ := hjob
  have hpath : svc.takesFull request c =
      (c.listByDoc request.doc (some svc.parserVersion)).isEmpty := by
    rw [IndexingService.takesFull, hmode]
  rw [IndexingService.reindexParserOnly, ensures_bind]
  refine ensures_updateJob_get hget fun j₁ hj₁ => ?_
  rw [ensures_bind, ensures_ofExcept]
  refine ⟨fun pages _ => ?_, fun _ _ => trivial⟩
  rw [ensures_bind, listByDoc, ensures_failing]
  refine ⟨fun _ _ => trivial, fun _ => ensures_ite.mpr ⟨fun hempty => ?_, fun hrows => ?_⟩⟩
  · have hfresh : Fresh j₁ jobId := ⟨_, hj₁, hindexed, hfailed⟩
    refine Ensures.mono (ensures_indexFull_accounted h hfresh ?_) ?_ fun _ _ h => h
    · exact hpath.trans hempty
    · intro r s' haccounted
      exact haccounted.of_jobs
  · rw [ensures_bind]
    refine ensures_updateJob_get hj₁ fun j₂ hj₂ => ?_
    rw [ensures_bind]
    refine (Follows.forM (fun row => follows_relabelRow_jobs pages row) _).mono ?_
      fun _ _ _ => trivial
    rintro - ⟨v', d', c', j'⟩ (rfl : j' = j₂)
    rw [ensures_bind]
    refine ensures_updateJob_get hj₂ fun j₃ hj₃ =>
      ⟨fun hfailed => ?_, fun _ => rfl, fun _ hfull => ?_, ?_⟩
    · cases hfailed
    · obtain hnot | hfull := hfull
      · exact absurd hmode hnot
      · exact absurd (hpath.symm.trans hfull) hrows
    · rw [hj₃, Option.map_some]
      simp only [jobTally, IndexingResult.tally, JobPatch.apply, hfailed, Option.getD_some,
        Option.getD_none]

theorem ensures_reindexEmbeddingOnly_reports (hjob : Fresh s.jobs jobId)
    (hrows : (s.chunks.listByDoc request.doc none).isEmpty = false) :
    Ensures (svc.reindexEmbeddingOnly request jobId piiConfig) s
      (fun r s' => ∃ p, svc.restore (s.chunks.listByDoc request.doc none) = .ok p ∧
        p.chunks.length = (s.chunks.listByDoc request.doc none).length ∧ Reports jobId p r s')
      fun _ _ => True := by
  obtain ⟨v, d, c, j⟩ := s
  obtain ⟨job, hget, hindexed, -⟩ := hjob
  rw [IndexingService.reindexEmbeddingOnly, ensures_bind, listByDoc, ensures_failing]
  refine ⟨fun _ _ => trivial, fun _ => ?_⟩
  refine ensures_ite.mpr ⟨fun hempty => ?_, fun _ => ?_⟩
  · cases hrows.symm.trans hempty
  rw [ensures_bind, ensures_ofExcept]
  refine ⟨fun chunks hchunks => ?_, fun _ _ => trivial⟩
  rw [ensures_bind, ensures_ofExcept]
  refine ⟨fun warnings hwarnings => ?_, fun _ _ => trivial⟩
  let p : Prepared := ⟨chunks, warnings, svc.embedSafely chunks⟩
  have hrestored : svc.restore (c.listByDoc request.doc none) = .ok p :=
    restore_eq_ok_iff.mpr ⟨chunks, warnings, hchunks, hwarnings, rfl⟩
  have hlength : (c.listByDoc request.doc none).length = chunks.length :=
    (mapM_eq_ok_iff.mp hchunks).length_eq
  have hreports : ∀ r s', Reports jobId p r s' →
      ∃ p, svc.restore (c.listByDoc request.doc none) = .ok p ∧
        p.chunks.length = (c.listByDoc request.doc none).length ∧ Reports jobId p r s' :=
    fun _ _ h => ⟨p, hrestored, hlength.symm, h⟩
  rw [ensures_bind]
  refine ensures_updateJob_get hget fun j₁ hj₁ => ?_
  refine ensures_ite.mpr ⟨fun _ => ?_, fun _ => ?_⟩
  · exact (ensures_failRun_reports (p := p) hj₁ hindexed rfl hlength).mono hreports
      fun _ _ h => h
  rw [ensures_bind]
  refine ensures_upsertToQdrant (fun _ _ => trivial) fun v' _ _ => ?_
  rw [ensures_bind, updateMetadata, ensures_failing]
  refine ⟨fun _ _ => trivial, fun _ => ?_⟩
  rw [ensures_modify]
  exact (ensures_finishRun_reports (p := p) hj₁ rfl hlength).mono hreports fun _ _ h => h

theorem length_listByDoc_updateMetadata (repo : ChunkRepository) (domainId : String)
    (ids : List String) (doc : DocKey) (model : String) :
    ((repo.updateMetadata domainId ids (.ofList [("embedding_model", .str model),
      ("embedding_version", .str model)])).listByDoc doc none).length =
        (repo.listByDoc doc none).length := by
  have hacl : FieldNames.name ChunkField.acl ∉ (Dict.ofList [("embedding_model", Value.str model),
      ("embedding_version", .str model)]).keys := by
    rw [← Dict.get?_eq_none_iff]
    rfl
  have hattrs := ChunkRepository.attr_listByDoc_updateMetadata hacl repo domainId ids doc none
  simpa only [List.length_map] using congrArg List.length hattrs

theorem ensures_reindexEmbeddingOnly_accounted (h : svc.Regular) (hjob : Fresh s.jobs jobId)
    (hmode : request.mode = .embeddingOnly) :
    Ensures (svc.reindexEmbeddingOnly request jobId piiConfig) s
      (Accounted svc request piiConfig jobId s) fun _ _ => True := by
  have hpath : svc.takesFull request s.chunks = (s.chunks.listByDoc request.doc none).isEmpty := by
    rw [IndexingService.takesFull, hmode]
  cases hrows : (s.chunks.listByDoc request.doc none).isEmpty with
  | true =>
    rw [IndexingService.reindexEmbeddingOnly, ensures_bind, listByDoc, ensures_failing]
    refine ⟨fun _ _ => trivial, fun _ => ensures_ite.mpr ⟨fun _ => ?_, fun h => absurd hrows h⟩⟩
    exact ensures_indexFull_accounted h hjob (hpath.trans hrows)
  | false =>
    refine ((ensures_reindexEmbeddingOnly_stored hjob.knows hrows).and
      (ensures_reindexEmbeddingOnly_reports hjob hrows)).mono ?_ fun _ _ _ => trivial
    rintro r s' ⟨⟨⟨hstatus, -, hkept⟩ | ⟨p', hstatus, hpointed, ids, hmodel⟩, -⟩, p, hp, hlength,
      hreports⟩
    · exact hkept.accounted hstatus hreports
    obtain rfl : p = p' := Except.ok.inj (hp.symm.trans hpointed.restored)
    have hcomplete : p.embed.failed = [] ∧
        ∀ c ∈ p.chunks, (p.embed.vectors.get? c.chunkId).isSome := by
      have hbelow := hpointed.below
      obtain ⟨chunks, _, -, -, rfl⟩ := restore_eq_ok_iff.mp hp
      exact embedded_of_below h hbelow
    have hnot : ¬ svc.takesFull request s.chunks = true := by
      rw [hpath, hrows]
      exact Bool.false_ne_true
    refine ⟨fun hfailed => ?_, hreports.total_of_complete hcomplete.1, fun hfailed _ => ?_,
      hreports.recorded⟩
    · exact absurd (hstatus.symm.trans hfailed) p.embed.status_ne_failed
    · rw [hreports.indexed_of_complete hcomplete.1 hfailed, IndexingService.planned, if_neg hnot]
      refine ⟨p, hp, hpointed.points, ?_, ?_, fun hfull => absurd hfull hnot⟩
      · rw [← List.length_map Point.id, points_map_id hcomplete.2, List.length_map]
      · rw [IndexingService.storedRows, if_neg hnot, hmodel, length_listByDoc_updateMetadata,
          hlength]

theorem ensures_runWithExistingJob_accounted (h : svc.Regular) (hjob : Fresh s.jobs jobId) :
    Ensures (svc.runWithExistingJob request jobId piiConfig) s
      (Accounted svc request piiConfig jobId s) fun _ _ => True := by
  refine ensures_runWithExistingJob_of (P := fun _ _ => True) (fun hmode => ?_)
    (ensures_reindexParserOnly_accounted h hjob) (ensures_reindexEmbeddingOnly_accounted h hjob)
    fun _ s' _ => ensures_true _ s'
  exact ensures_indexFull_accounted h hjob (IndexingService.takesFull_of_full hmode _)

theorem ensures_run_accounted (h : svc.Regular) :
    Ensures (svc.run request jobId piiConfig) s (Accounted svc request piiConfig jobId s)
      fun _ _ => True := by
  rw [IndexingService.run, ensures_bind, ensures_get, ensures_bind, ensures_ofExcept]
  refine ⟨fun jobs hjobs => ?_, fun _ _ => trivial⟩
  refine Ensures.mono (ensures_runWithExistingJob_accounted h (fresh_of_create hjobs rfl rfl)) ?_
    fun _ _ h => h
  intro r s' haccounted
  exact haccounted.of_jobs

/-- Whatever mode a run is in, and whether it registers its job or finds it registered, a result
that it returns tells what it has written. -/
theorem runs_accounted (svc : IndexingService) (request : IndexingRequest) (piiConfig : Value)
    (jobId : String) (s : Stores) (h : svc.Regular) :
    (∀ r, (svc.run request jobId piiConfig).result? s = some r →
      Accounted svc request piiConfig jobId s r ((svc.run request jobId piiConfig).final s)) ∧
    ∀ r, Fresh s.jobs jobId →
      (svc.runWithExistingJob request jobId piiConfig).result? s = some r →
        Accounted svc request piiConfig jobId s r
          ((svc.runWithExistingJob request jobId piiConfig).final s) := by
  constructor
  · intro r hr
    exact (ensures_run_accounted h).of_result? hr
  · intro r hjob hr
    exact (ensures_runWithExistingJob_accounted h hjob).of_result? hr

end Stored

section Handbook

theorem regular_splitting : (splitting ["a", "b"]).Regular where
  distinct docId docVersion parserVersion pages chunks h := by
    cases h
    refine List.nodup_cons.mpr ⟨fun hmem => ?_, List.nodup_singleton _⟩
    have hsame := (String.append_right_inj _).mp (List.mem_singleton.mp hmem)
    exact absurd hsame (by decide)
  answers texts vectors h := by
    cases h
    rw [List.length_map]
  threshold := by
    have hthreshold : (3 / 10 : Rat) < 1 := by decide +kernel
    exact hthreshold

/-- The stores of a domain whose table holds one job, as it is registered. -/
def registeredJob : Stores :=
  { reached [.createCollection "hr" 1 true] with
    jobs := ⟨.ofList [("J1", { jobId := "J1", domainId := "hr", docId := "handbook"
                               docVersion := "v1", filename := .str "handbook.txt" })]⟩ }

def unembedded : IndexingService :=
  { splitting ["a", "b"] with embedBatch := fun _ => .error ⟨"RuntimeError", "embedder down"⟩ }

/-- Two chunks are counted and written; with the embedder down nothing is. -/
theorem handbook_accounted :
    (∃ r, ((splitting ["a", "b"]).run handbook "J1" .null).result?
        (reached [.createCollection "hr" 1 true]) = some r ∧ r.indexedChunks = 2 ∧
      Accounted (splitting ["a", "b"]) handbook .null "J1" (reached [.createCollection "hr" 1 true])
        r (((splitting ["a", "b"]).run handbook "J1" .null).final
          (reached [.createCollection "hr" 1 true]))) ∧
    ∃ r, (unembedded.runWithExistingJob handbook "J1" .null).result? registeredJob = some r ∧
      r.status = .failed ∧ Accounted unembedded handbook .null "J1" registeredJob r
        ((unembedded.runWithExistingJob handbook "J1" .null).final registeredJob) := by
  have hdown : unembedded.Regular :=
    ⟨regular_splitting.distinct, nofun, regular_splitting.threshold⟩
  constructor
  · obtain ⟨r, hr, hindexed⟩ := (Option.any_eq_true (fun r => r.indexedChunks = 2)
      (((splitting ["a", "b"]).run handbook "J1" .null).result?
        (reached [.createCollection "hr" 1 true]))).mp (by decide +kernel)
    exact ⟨r, hr, of_decide_eq_true hindexed, (runs_accounted (splitting ["a", "b"]) handbook .null
      "J1" (reached [.createCollection "hr" 1 true]) regular_splitting).1 r hr⟩
  · obtain ⟨r, hr, hstatus⟩ := (Option.any_eq_true (fun r => r.status = .failed)
      ((unembedded.runWithExistingJob handbook "J1" .null).result? registeredJob)).mp
      (by decide +kernel)
    exact ⟨r, hr, of_decide_eq_true hstatus, (runs_accounted unembedded handbook .null "J1"
      registeredJob hdown).2 r ⟨_, rfl, rfl, rfl⟩ hr⟩

end Handbook

end DomainRag.Indexing
