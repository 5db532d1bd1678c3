import DomainRag.Indexing.Service

/-! # What an indexing run does to the stores

A run raises or gives up with the stores as they were up to chunk headings, or it ends with one of
three writes: all three stores, the headings alone, or the points of the stored chunks.
-/

namespace DomainRag.Indexing

open Store Program

def Knows (jobs : JobRepository) (jobId : String) : Prop := (jobs.get jobId).isSome

def statusOf (jobs : JobRepository) (jobId : String) : Option JobStatus :=
  (jobs.get jobId).map IndexingJobRecord.status

theorem knows_of_statusOf {jobs : JobRepository} {jobId : String} {status : JobStatus}
    (h : statusOf jobs jobId = some status) : Knows jobs jobId := by
  rw [Knows, ← Option.isSome_map, show (jobs.get jobId).map _ = _ from h]
  rfl

theorem knows_of_create {jobs jobs' : JobRepository} {job : IndexingJobRecord}
    (h : jobs.create job = .ok jobs') : Knows jobs' job.jobId := by
  rw [JobRepository.create] at h
  split at h
  · cases h
  · cases h
    rw [Knows, JobRepository.get, Dict.get?_set, if_pos rfl]
    rfl

section Jobs

variable {v : VectorStore} {d : DocumentRepository} {c : ChunkRepository} {j : JobRepository}
  {jobId : String} {patch : JobPatch} {Q : Unit → Stores → Prop} {R : Exc → Stores → Prop}

theorem ensures_updateJob_get {job : IndexingJobRecord} (hjob : j.get jobId = some job)
    (hQ : ∀ j', j'.get jobId = some (patch.apply job) → Q () ⟨v, d, c, j'⟩) :
    Ensures (updateJob jobId patch) ⟨v, d, c, j⟩ Q R := by
  have hupdate : j.update jobId patch = .ok ⟨j.jobs.set jobId (patch.apply job)⟩ := by
    rw [JobRepository.update, show j.jobs.get? jobId = some job from hjob]
  rw [updateJob, ensures_bind, ensures_get, ensures_bind, hupdate]
  refine hQ _ ?_
  rw [JobRepository.get, Dict.get?_set, if_pos rfl]

theorem ensures_updateJob_status {status : JobStatus} (hstatus : patch.status = some status)
    (hjob : Knows j jobId) (hQ : ∀ j', statusOf j' jobId = some status → Q () ⟨v, d, c, j'⟩) :
    Ensures (updateJob jobId patch) ⟨v, d, c, j⟩ Q R := by
  obtain ⟨job, hget⟩ := Option.isSome_iff_exists.mp hjob
  refine ensures_updateJob_get hget fun j' hj' => hQ j' ?_
  rw [statusOf, hj', Option.map_some, JobPatch.apply, hstatus, Option.getD_some]

theorem ensures_updateJob {status : JobStatus} (hstatus : patch.status = some status)
    (hjob : Knows j jobId) (hQ : ∀ j', Knows j' jobId → Q () ⟨v, d, c, j'⟩) :
    Ensures (updateJob jobId patch) ⟨v, d, c, j⟩ Q R :=
  ensures_updateJob_status hstatus hjob fun j' hj' => hQ j' (knows_of_statusOf hj')

/-- Without the job in the table the very first update of a run raises. -/
theorem ensures_updateJob_of_not_knows (hjob : ¬ Knows j jobId) (hR : ∀ e, R e ⟨v, d, c, j⟩) :
    Ensures (updateJob jobId patch) ⟨v, d, c, j⟩ Q R := by
  have hget : j.jobs.get? jobId = none := by
    simpa only [Knows, JobRepository.get, Option.not_isSome_iff_eq_none] using hjob
  have hupdate : ∃ e, j.update jobId patch = .error e := by
    rw [JobRepository.update, hget]
    exact ⟨_, rfl⟩
  obtain ⟨e, he⟩ := hupdate
  rw [updateJob, ensures_bind, ensures_get, ensures_bind, he]
  exact hR e

end Jobs

structure Prepared where
  chunks : List Chunk
  warnings : Dict String ChunkPIIWarning
  embed : EmbedResult

def EmbedResult.status (embed : EmbedResult) : JobStatus :=
  if embed.failed.isEmpty then .completed else .partial_

namespace IndexingService

variable (svc : IndexingService) (request : IndexingRequest) (piiConfig : Value)

def prepare : Except Exc Prepared := do
  let pages ← svc.parse request.filePath
  let chunks ← svc.chunk request.docId request.docVersion svc.parserVersion pages
  let warnings ← svc.scanPii chunks piiConfig
  return ⟨chunks, warnings, svc.embedSafely chunks⟩

/-- The stored chunks with the warnings that they carry and new vectors. -/
def restore (rows : List ChunkRecord) : Except Exc Prepared := do
  let chunks ← rows.mapM chunkOfRow
  let warnings ← storedWarnings rows
  return ⟨chunks, warnings, svc.embedSafely chunks⟩

variable (p : Prepared)

def records : List ChunkRecord := svc.buildRecords request p.chunks p.embed.vectors p.warnings

def points : List Point := svc.buildPoints request p.chunks p.embed.vectors p.warnings

end IndexingService

/-- Two rows differ at most in the named attributes. -/
structure SameRow (names : List String) (row row' : ChunkRecord) : Prop where
  identity : row' = { row with attrs := row'.attrs }
  attrs : ∀ f, FieldNames.name f ∉ names → row'.attrs f = row.attrs f

/-- Two points differ at most in the named payload entries. -/
structure SamePoint (names : List String) (p p' : Point) : Prop where
  identity : p' = { p with payload := p'.payload }
  payload : ∀ k, k ∉ names → p'.payload.get? k = p.payload.get? k

/-- The stores differ at most in the named attributes of rows and entries of payloads. -/
structure Relabels (names : List String) (s s' : Stores) : Prop where
  points : ∀ d id, Option.Rel (SamePoint names) (s.vectors.point? d id) (s'.vectors.point? d id)
  documents : s'.documents = s.documents
  rows : ∀ ref, Option.Rel (SameRow names) (s.chunks.row? ref) (s'.chunks.row? ref)

section Relabels

variable {names : List String}

theorem SameRow.refl (row : ChunkRecord) : SameRow names row row := ⟨rfl, fun _ _ => rfl⟩

theorem SameRow.trans {row row' row'' : ChunkRecord} (h : SameRow names row row')
    (h' : SameRow names row' row'') : SameRow names row row'' where
  identity := by
    have hmid := h'.identity
    rw [h.identity] at hmid
    exact hmid
  attrs f hf := (h'.attrs f hf).trans (h.attrs f hf)

theorem SameRow.mono {names' : List String} {row row' : ChunkRecord} (h : SameRow names row row')
    (hnames : names ⊆ names') : SameRow names' row row' where
  identity := h.identity
  attrs f hf := h.attrs f fun hmem => hf (hnames hmem)

theorem SameRow.setattrs (row : ChunkRecord) {metadata : Dict String Value}
    (hkeys : metadata.keys ⊆ names) : SameRow names row (row.setattrs metadata) where
  identity := rfl
  attrs _ hf := Record.setattrs_of_not_mem fun hmem => hf (hkeys hmem)

theorem SamePoint.refl (p : Point) : SamePoint names p p := ⟨rfl, fun _ _ => rfl⟩

theorem SamePoint.trans {p p' p'' : Point} (h : SamePoint names p p')
    (h' : SamePoint names p' p'') : SamePoint names p p'' where
  identity := by
    have hmid := h'.identity
    rw [h.identity] at hmid
    exact hmid
  payload k hk := (h'.payload k hk).trans (h.payload k hk)

theorem SamePoint.mergePayload (p : Point) {payload : Dict String Value}
    (hkeys : payload.keys ⊆ names) : SamePoint names p (p.mergePayload payload) where
  identity := rfl
  payload k hk := by
    rw [Point.mergePayload, Dict.get?_update, Dict.get?_eq_none_iff.mpr fun hmem => hk (hkeys hmem)]
    rfl

theorem optionRel_refl {A : Type} {R : A → A → Prop} (hR : ∀ a, R a a) (o : Option A) :
    Option.Rel R o o := by
  cases o with
  | none => exact .none
  | some a => exact .some (hR a)

theorem optionRel_trans {A : Type} {R : A → A → Prop} (hR : ∀ a b c, R a b → R b c → R a c)
    {o o' o'' : Option A} (h : Option.Rel R o o') (h' : Option.Rel R o' o'') :
    Option.Rel R o o'' := by
  cases h with
  | none => exact h'
  | some hab =>
    cases h' with
    | some hbc => exact .some (hR _ _ _ hab hbc)

theorem optionRel_mono {A : Type} {R R' : A → A → Prop} (hR : ∀ a b, R a b → R' a b)
    {o o' : Option A} (h : Option.Rel R o o') : Option.Rel R' o o' := by
  cases h with
  | none => exact .none
  | some hab => exact .some (hR _ _ hab)

theorem Relabels.refl (s : Stores) : Relabels names s s where
  points _ _ := optionRel_refl SamePoint.refl _
  documents := rfl
  rows _ := optionRel_refl SameRow.refl _

theorem Relabels.trans {s s' s'' : Stores} (h : Relabels names s s') (h' : Relabels names s' s'') :
    Relabels names s s'' where
  points d id := optionRel_trans (R := SamePoint names) (fun _ _ _ => .trans) (h.points d id)
    (h'.points d id)
  documents := h'.documents.trans h.documents
  rows ref := optionRel_trans (R := SameRow names) (fun _ _ _ => .trans) (h.rows ref) (h'.rows ref)

theorem Relabels.updateMetadata (s : Stores) (domainId : String) (ids : List String)
    {metadata : Dict String Value} (hkeys : metadata.keys ⊆ names) :
    Relabels names s { s with chunks := s.chunks.updateMetadata domainId ids metadata } where
  points _ _ := optionRel_refl SamePoint.refl _
  documents := rfl
  rows ref := by
    obtain hsame | hset := s.chunks.row?_updateMetadata_cases domainId ids metadata ref
    · rw [hsame]
      exact optionRel_refl SameRow.refl _
    · rw [hset]
      cases s.chunks.row? ref with
      | none => exact .none
      | some row => exact .some (SameRow.setattrs row hkeys)

theorem Relabels.setPayload {s : Stores} {vectors : VectorStore} {domainId : String}
    {ids : List String} {payload : Dict String Value} (hkeys : payload.keys ⊆ names)
    (h : s.vectors.setPayload domainId ids payload = .ok vectors) :
    Relabels names s { s with vectors := vectors } where
  points d id := by
    rw [VectorStore.point?_setPayload h]
    split
    · cases s.vectors.point? d id with
      | none => exact .none
      | some p => exact .some (SamePoint.mergePayload p hkeys)
    · exact optionRel_refl SamePoint.refl _
  documents := rfl
  rows _ := optionRel_refl SameRow.refl _

end Relabels

section Payloads

variable {s : Stores} {domainId : String} {ids : List String} {values : Dict String Value}
  {fault : Option Exc}

/-- The payloads were set, or the call raised and nothing changed. -/
def PayloadsSet (s s' : Stores) (domainId : String) (ids : List String)
    (values : Dict String Value) (fault : Option Exc) : Prop :=
  s.vectors.setPayload domainId ids values = .ok s'.vectors ∨
    s'.vectors = s.vectors ∧ (ids = [] ∨ fault ≠ none ∨ s.vectors.collections.get? domainId = none)

theorem coll_eq_none_of_setPayload_error {vs : VectorStore} {e : Exc}
    (h : vs.setPayload domainId ids values = .error e) :
    vs.collections.get? domainId = none := by
  cases hc : vs.collections.get? domainId with
  | none => rfl
  | some c =>
    rw [VectorStore.setPayload, VectorStore.coll_eq_ok_iff.mpr hc] at h
    cases h

theorem ensures_trySetPayload :
    Ensures (tryCatch (setPayload fault domainId ids values) fun _ => return) s
      (fun _ s' => s'.documents = s.documents ∧ s'.chunks = s.chunks ∧ s'.jobs = s.jobs ∧
        PayloadsSet s s' domainId ids values fault) fun _ _ => False := by
  rw [ensures_tryCatch, setPayload, ensures_failing]
  refine ⟨fun e he => ⟨rfl, rfl, rfl, .inr ⟨rfl, .inr (.inl ?_)⟩⟩, fun _ => ?_⟩
  · rw [he]
    exact Option.some_ne_none e
  · rw [ensures_bind, ensures_get, ensures_bind, ensures_ofExcept]
    refine ⟨fun v hv => ⟨rfl, rfl, rfl, .inl hv⟩,
      fun e he => ⟨rfl, rfl, rfl, .inr ⟨rfl, .inr (.inr ?_)⟩⟩⟩
    exact coll_eq_none_of_setPayload_error he

end Payloads

/-- The points after an upsert: the last one given for an id, or else the one already there. -/
def Upserted (vs vs' : VectorStore) (domainId : String) (points : List Point) : Prop :=
  ∀ d id, vs'.point? d id = if d = domainId then
    (points.reverse.find? fun p => p.id = id).or (vs.point? d id) else vs.point? d id

/-- An upsert raises unless there is nothing to write or the store has a collection. -/
def IndexingService.CanUpsert (svc : IndexingService) (vs : VectorStore) (domainId : String)
    (points : List Point) : Prop :=
  points = [] ∨ svc.faults.upsertChunks = none ∧ (vs.collections.get? domainId).isSome

/-- The stores are as they were, and the job is still in its table. -/
structure Kept (jobId : String) (s s' : Stores) : Prop where
  vectors : s'.vectors = s.vectors
  documents : s'.documents = s.documents
  chunks : s'.chunks = s.chunks
  knows : Knows s'.jobs jobId

structure Written (svc : IndexingService) (request : IndexingRequest) (p : Prepared)
    (jobId : String) (s s' : Stores) : Prop where
  upsert : svc.CanUpsert s.vectors request.domainId (svc.points request p)
  points : Upserted s.vectors s'.vectors request.domainId (svc.points request p)
  documents : s'.documents = s.documents.upsert request.doc (svc.buildDocument request)
  rows : s'.chunks = s.chunks.replaceChunks ⟨request.doc, svc.parserVersion⟩ (svc.records request p)
  knows : Knows s'.jobs jobId

section Calls

variable {svc : IndexingService} {request : IndexingRequest} {jobId : String} {piiConfig : Value}
  {v : VectorStore} {d : DocumentRepository} {c : ChunkRepository} {j : JobRepository}
  {Q : Unit → Stores → Prop} {R : Exc → Stores → Prop} {Q' : IndexingResult → Stores → Prop}

theorem ensures_upsertToQdrant {chunks : List Chunk} {vectors : Dict String Embedding}
    {warnings : Dict String ChunkPIIWarning}
    (hR : ∀ e, ¬ svc.CanUpsert v request.domainId
      (svc.buildPoints request chunks vectors warnings) → R e ⟨v, d, c, j⟩)
    (hQ : ∀ v',
      svc.CanUpsert v request.domainId (svc.buildPoints request chunks vectors warnings) →
      Upserted v v' request.domainId (svc.buildPoints request chunks vectors warnings) →
      Q () ⟨v', d, c, j⟩) :
    Ensures (svc.upsertToQdrant request chunks vectors warnings) ⟨v, d, c, j⟩ Q R := by
  rw [IndexingService.upsertToQdrant]
  split
  · rename_i hempty
    rw [List.isEmpty_iff] at hempty
    refine ensures_pure.mpr (hQ v (.inl hempty) ?_)
    intro d id
    rw [hempty]
    exact (ite_self _).symm
  · rename_i hpoints
    rw [List.isEmpty_iff] at hpoints
    refine ensures_failing.mpr ⟨fun e he => hR e ?_, fun hfault => ?_⟩
    · rintro (hempty | ⟨hnone, -⟩)
      · exact hpoints hempty
      · cases he.symm.trans hnone
    rw [ensures_bind, ensures_get, ensures_bind, ensures_ofExcept]
    refine ⟨fun v' hv' => hQ v' (.inr ⟨hfault, ?_⟩) (VectorStore.point?_upsertChunks hv'),
      fun e he => hR e ?_⟩
    · obtain ⟨coll, hcoll, -⟩ := Except.bind_eq_ok_iff.mp hv'
      rw [VectorStore.coll_eq_ok_iff.mp hcoll]
      rfl
    · rintro (hempty | ⟨-, hsome⟩)
      · exact hpoints hempty
      · obtain ⟨coll, hcoll⟩ := Option.isSome_iff_exists.mp hsome
        rw [VectorStore.upsertChunks, VectorStore.coll_eq_ok_iff.mpr hcoll] at he
        cases he

theorem ensures_failRun {message : String} {total high : Nat} {failed : List FailedChunk}
    {rate : Rat} (hjob : Knows j jobId)
    (hQ : ∀ r j', r.status = .failed → statusOf j' jobId = some r.status → Q' r ⟨v, d, c, j'⟩) :
    Ensures (IndexingService.failRun jobId message total failed high rate) ⟨v, d, c, j⟩ Q' R := by
  rw [IndexingService.failRun, ensures_bind]
  exact ensures_updateJob_status rfl hjob fun j' hj' => hQ _ j' rfl hj'

theorem ensures_finishRun {total high : Nat} {embed : EmbedResult} {rate : Rat}
    (hjob : Knows j jobId)
    (hQ : ∀ r j', r.status = embed.status → statusOf j' jobId = some r.status →
      Q' r ⟨v, d, c, j'⟩) :
    Ensures (IndexingService.finishRun jobId total embed.failed high rate) ⟨v, d, c, j⟩ Q' R := by
  rw [IndexingService.finishRun, ensures_bind]
  exact ensures_updateJob_status rfl hjob fun j' hj' => hQ _ j' rfl hj'

end Calls

/-- A full run that went below the threshold and wrote everything. -/
structure FullOutcome (svc : IndexingService) (request : IndexingRequest) (piiConfig : Value)
    (jobId : String) (s : Stores) (r : IndexingResult) (s' : Stores) (p : Prepared) : Prop where
  prepared : svc.prepare request piiConfig = .ok p
  below : svc.overThreshold (IndexingService.failureRate p.chunks p.embed.failed) = false
  status : r.status = p.embed.status
  written : Written svc request p jobId s s'

section Modes

variable {svc : IndexingService} {request : IndexingRequest} {jobId : String} {piiConfig : Value}
  {s : Stores}

theorem prepare_eq_ok_iff {p : Prepared} : svc.prepare request piiConfig = .ok p ↔
    ∃ pages chunks warnings, svc.parse request.filePath = .ok pages ∧
      svc.chunk request.docId request.docVersion svc.parserVersion pages = .ok chunks ∧
      svc.scanPii chunks piiConfig = .ok warnings ∧
      p = ⟨chunks, warnings, svc.embedSafely chunks⟩ := by
  constructor
  · intro h
    obtain ⟨pages, hpages, h⟩ := Except.bind_eq_ok_iff.mp h
    obtain ⟨chunks, hchunks, h⟩ := Except.bind_eq_ok_iff.mp h
    obtain ⟨warnings, hwarnings, h⟩ := Except.bind_eq_ok_iff.mp h
    cases h
    exact ⟨pages, chunks, warnings, hpages, hchunks, hwarnings, rfl⟩
  · rintro ⟨pages, chunks, warnings, hpages, hchunks, hwarnings, rfl⟩
    exact Except.bind_eq_ok_iff.mpr ⟨pages, hpages, Except.bind_eq_ok_iff.mpr
      ⟨chunks, hchunks, Except.bind_eq_ok_iff.mpr ⟨warnings, hwarnings, rfl⟩⟩⟩

inductive FullReturned (svc : IndexingService) (request : IndexingRequest) (piiConfig : Value)
    (jobId : String) (s : Stores) (r : IndexingResult) (s' : Stores) : Prop where
  | gaveUp (p : Prepared) (prepared : svc.prepare request piiConfig = .ok p)
      (failures : svc.overThreshold (IndexingService.failureRate p.chunks p.embed.failed) = true)
      (status : r.status = .failed) (kept : Kept jobId s s')
  | done (p : Prepared) (document : svc.faults.upsertDocument = none)
      (table : svc.faults.replaceChunks = none)
      (outcome : FullOutcome svc request piiConfig jobId s r s' p)

/-- Where a full run can raise, and what it has written by then. -/
inductive FullRaised (svc : IndexingService) (request : IndexingRequest) (piiConfig : Value)
    (jobId : String) (s s' : Stores) : Prop where
  | unprepared (prepared : ∀ p, svc.prepare request piiConfig ≠ .ok p) (kept : Kept jobId s s')
  | points (p : Prepared) (prepared : svc.prepare request piiConfig = .ok p)
      (refused : ¬ svc.CanUpsert s.vectors request.domainId (svc.points request p))
      (kept : Kept jobId s s')
  | document (p : Prepared) (prepared : svc.prepare request piiConfig = .ok p)
      (below : svc.overThreshold (IndexingService.failureRate p.chunks p.embed.failed) = false)
      (upsert : svc.CanUpsert s.vectors request.domainId (svc.points request p))
      (fault : svc.faults.upsertDocument ≠ none)
      (points : Upserted s.vectors s'.vectors request.domainId (svc.points request p))
      (documents : s'.documents = s.documents) (rows : s'.chunks = s.chunks)
      (knows : Knows s'.jobs jobId)
  | rows (p : Prepared) (prepared : svc.prepare request piiConfig = .ok p)
      (below : svc.overThreshold (IndexingService.failureRate p.chunks p.embed.failed) = false)
      (upsert : svc.CanUpsert s.vectors request.domainId (svc.points request p))
      (document : svc.faults.upsertDocument = none) (fault : svc.faults.replaceChunks ≠ none)
      (points : Upserted s.vectors s'.vectors request.domainId (svc.points request p))
      (documents : s'.documents = s.documents.upsert request.doc (svc.buildDocument request))
      (rows : s'.chunks = s.chunks) (knows : Knows s'.jobs jobId)

/-- Every way a full run can end, whatever fails in it. -/
theorem ensures_indexFull_ends (hjob : Knows s.jobs jobId) :
    Ensures (svc.indexFull request jobId piiConfig) s
      (fun r s' => FullReturned svc request piiConfig jobId s r s' ∧
        statusOf s'.jobs jobId = some r.status)
      fun _ => FullRaised svc request piiConfig jobId s := by
  obtain ⟨v, d, c, j⟩ := s
  have hunprepared : ∀ {j'}, Knows j' jobId → (∀ p, svc.prepare request piiConfig ≠ .ok p) →
      FullRaised svc request piiConfig jobId ⟨v, d, c, j⟩ ⟨v, d, c, j'⟩ :=
    fun hj' hp => .unprepared hp ⟨rfl, rfl, rfl, hj'⟩
  rw [IndexingService.indexFull, ensures_bind]
  refine ensures_updateJob rfl hjob fun j₁ hj₁ => ?_
  rw [ensures_bind, ensures_ofExcept]
  refine ⟨fun pages hpages => ?_, fun e he => hunprepared hj₁ fun p hp => ?_⟩
  swap
  · obtain ⟨_, _, _, hparse, -⟩ := prepare_eq_ok_iff.mp hp
    cases he.symm.trans hparse
  rw [ensures_bind]
  refine ensures_updateJob rfl hj₁ fun j₂ hj₂ => ?_
  rw [ensures_bind, ensures_ofExcept]
  refine ⟨fun chunks hchunks => ?_, fun e he => hunprepared hj₂ fun p hp => ?_⟩
  swap
  · obtain ⟨_, _, _, hparse, hchunk, -⟩ := prepare_eq_ok_iff.mp hp
    cases hpages.symm.trans hparse
    cases he.symm.trans hchunk
  rw [ensures_bind, ensures_ofExcept]
  refine ⟨fun warnings hwarnings => ?_, fun e he => hunprepared hj₂ fun p hp => ?_⟩
  swap
  · obtain ⟨_, _, _, hparse, hchunk, hscan, -⟩ := prepare_eq_ok_iff.mp hp
    cases hpages.symm.trans hparse
    cases hchunks.symm.trans hchunk
    cases he.symm.trans hscan
  rw [ensures_bind]
  refine ensures_updateJob rfl hj₂ fun j₃ hj₃ => ?_
  rw [ensures_bind]
  refine ensures_updateJob rfl hj₃ fun j₄ hj₄ => ?_
  have hprepared : svc.prepare request piiConfig =
      .ok ⟨chunks, warnings, svc.embedSafely chunks⟩ :=
    prepare_eq_ok_iff.mpr ⟨pages, chunks, warnings, hpages, hchunks, hwarnings, rfl⟩
  refine ensures_ite.mpr ⟨fun hover => ?_, fun hbelow => ?_⟩
  · exact ensures_failRun hj₄ fun r j' hr hj' =>
      ⟨.gaveUp _ hprepared hover hr ⟨rfl, rfl, rfl, knows_of_statusOf hj'⟩, hj'⟩
  rw [Bool.not_eq_true] at hbelow
  rw [ensures_bind]
  refine ensures_upsertToQdrant (fun _ hcan => ?_) fun v' hcan hv' => ?_
  · exact .points _ hprepared hcan ⟨rfl, rfl, rfl, hj₄⟩
  rw [ensures_bind, IndexingService.writeChunksAndDocument, ensures_bind, ensures_failing]
  refine ⟨fun e he => ?_, fun hdocument => ?_⟩
  · exact .document _ hprepared hbelow hcan (he ▸ Option.some_ne_none e) hv' rfl rfl hj₄
  rw [ensures_modify, ensures_failing]
  refine ⟨fun e he => ?_, fun hrows => ?_⟩
  · exact .rows _ hprepared hbelow hcan hdocument (he ▸ Option.some_ne_none e) hv' rfl rfl hj₄
  rw [ensures_modify]
  exact ensures_finishRun hj₄ fun r j' hr hj' =>
    ⟨.done _ hdocument hrows ⟨hprepared, hbelow, hr, hcan, hv', rfl, rfl, knows_of_statusOf hj'⟩, hj'⟩

theorem FullReturned.of_jobs {j : JobRepository} {r : IndexingResult} {s' : Stores}
    (h : FullReturned svc request piiConfig jobId ⟨s.vectors, s.documents, s.chunks, j⟩ r s') :
    FullReturned svc request piiConfig jobId s r s' := by
  cases h with
  | gaveUp p prepared failures status kept =>
    exact .gaveUp p prepared failures status ⟨kept.vectors, kept.documents, kept.chunks, kept.knows⟩
  | done p document table h =>
    exact .done p document table ⟨h.prepared, h.below, h.status, h.written.upsert, h.written.points,
      h.written.documents, h.written.rows, h.written.knows⟩

theorem FullRaised.of_jobs {j : JobRepository} {s' : Stores}
    (h : FullRaised svc request piiConfig jobId ⟨s.vectors, s.documents, s.chunks, j⟩ s') :
    FullRaised svc request piiConfig jobId s s' := by
  cases h with
  | unprepared prepared kept =>
    exact .unprepared prepared ⟨kept.vectors, kept.documents, kept.chunks, kept.knows⟩
  | points p prepared refused kept =>
    exact .points p prepared refused ⟨kept.vectors, kept.documents, kept.chunks, kept.knows⟩
  | document p prepared below upsert fault points documents rows knows =>
    exact .document p prepared below upsert fault points documents rows knows
  | rows p prepared below upsert document fault points documents rows knows =>
    exact .rows p prepared below upsert document fault points documents rows knows

/-- When the tables answer, a full run raises before it has written. -/
theorem FullRaised.kept {s' : Stores} (h : FullRaised svc request piiConfig jobId s s')
    (hwork : svc.faults.TablesWork) : Kept jobId s s' := by
  cases h with
  | unprepared _ hkept => exact hkept
  | points _ _ _ hkept => exact hkept
  | document _ _ _ _ hfault => exact absurd hwork.upsertDocument hfault
  | rows _ _ _ _ _ hfault => exact absurd hwork.replaceChunks hfault

def headingNames : List String := ["section_title", "heading_path"]

theorem Kept.relabels {s' : Stores} (h : Kept jobId s s') : Relabels headingNames s s' := by
  obtain ⟨v', d', c', j'⟩ := s'
  obtain ⟨rfl, rfl, rfl, -⟩ := h
  exact ⟨(Relabels.refl s).points, rfl, (Relabels.refl s).rows⟩

/-- The stores after a run that raised or only relabelled. -/
structure Relabelled (jobId : String) (s s' : Stores) : Prop where
  relabels : Relabels headingNames s s'
  knows : Knows s'.jobs jobId

theorem Kept.relabelled {s' : Stores} (h : Kept jobId s s') : Relabelled jobId s s' :=
  ⟨h.relabels, h.knows⟩

theorem ensures_relabelRow {s₀ : Stores} (hs : Relabelled jobId s₀ s) (pages : List ParsedPage)
    (row : ChunkRecord × Nat) :
    Ensures (svc.relabelRow request pages row) s (fun _ => Relabelled jobId s₀)
      fun _ => Relabelled jobId s₀ := by
  rw [IndexingService.relabelRow, ensures_bind, ensures_ofExcept]
  refine ⟨fun page? _ => ?_, fun _ _ => hs⟩
  cases page? with
  | none => exact hs
  | some page =>
    have hkeys : (IndexingService.pageMeta page).keys ⊆ headingNames := List.Subset.refl _
    have hrow : Relabelled jobId s₀ { s with
        chunks := s.chunks.updateMetadata request.domainId [row.1.chunkId]
          (IndexingService.pageMeta page) } :=
      ⟨hs.relabels.trans (.updateMetadata s request.domainId [row.1.chunkId] hkeys), hs.knows⟩
    simp only [ensures_bind, updateMetadata]
    rw [ensures_failing]
    refine ⟨fun _ _ => hs, fun _ => ?_⟩
    rw [ensures_modify, ensures_tryCatch, setPayload, ensures_failing]
    refine ⟨fun _ _ => hrow, fun _ => ?_⟩
    rw [ensures_bind, ensures_get, ensures_bind, ensures_ofExcept]
    exact ⟨fun v' hv' => ⟨hrow.relabels.trans (.setPayload hkeys hv'), hs.knows⟩, fun _ _ => hrow⟩

/-- The points of the stored chunks were written again; rows only name the new model. -/
structure Reembedded (svc : IndexingService) (request : IndexingRequest) (jobId : String)
    (s : Stores) (r : IndexingResult) (s' : Stores) (chunks : List Chunk)
    (warnings : Dict String ChunkPIIWarning) : Prop where
  stored : (s.chunks.listByDoc request.doc none).mapM IndexingService.chunkOfRow = .ok chunks
  below : svc.overThreshold
    (IndexingService.failureRate chunks (svc.embedSafely chunks).failed) = false
  status : r.status = (svc.embedSafely chunks).status
  points : Upserted s.vectors s'.vectors request.domainId
    (svc.buildPoints request chunks (svc.embedSafely chunks).vectors warnings)
  documents : s'.documents = s.documents
  rows : ∃ ids, s'.chunks = s.chunks.updateMetadata request.domainId ids
    (.ofList [("embedding_model", .str svc.modelName), ("embedding_version", .str svc.modelName)])
  knows : Knows s'.jobs jobId

/-- The runs that rewrite all three stores: two modes always do, the others when they find no
rows to work on. -/
def IndexingService.takesFull (svc : IndexingService) (request : IndexingRequest)
    (chunks : ChunkRepository) : Bool :=
  match request.mode with
  | .full | .chunkReSplit => true
  | .parserOnly => (chunks.listByDoc request.doc (some svc.parserVersion)).isEmpty
  | .embeddingOnly => (chunks.listByDoc request.doc none).isEmpty

inductive RunOutcome (svc : IndexingService) (request : IndexingRequest) (piiConfig : Value)
    (jobId : String) (s : Stores) (r : IndexingResult) (s' : Stores) : Prop where
  | gaveUp (status : r.status = .failed) (kept : Kept jobId s s')
  | full (p : Prepared) (path : svc.takesFull request s.chunks = true)
      (outcome : FullOutcome svc request piiConfig jobId s r s' p)
  | relabelled (mode : request.mode = .parserOnly)
      (path : svc.takesFull request s.chunks = false) (status : r.status = .completed)
      (outcome : Relabelled jobId s s')
  | reembedded (mode : request.mode = .embeddingOnly)
      (path : svc.takesFull request s.chunks = false) (chunks : List Chunk)
      (warnings : Dict String ChunkPIIWarning)
      (outcome : Reembedded svc request jobId s r s' chunks warnings)

theorem IndexingService.takesFull_of_full
    (hmode : request.mode = .full ∨ request.mode = .chunkReSplit) (chunks : ChunkRepository) :
    svc.takesFull request chunks = true := by
  obtain hmode | hmode := hmode
  · rw [takesFull, hmode]
  · rw [takesFull, hmode]

theorem not_listing_of_full (hmode : request.mode = .full ∨ request.mode = .chunkReSplit) :
    ¬ (request.mode = .parserOnly ∨ request.mode = .embeddingOnly) := by
  obtain hmode | hmode := hmode
  · rw [hmode]
    exact not_or.mpr ⟨nofun, nofun⟩
  · rw [hmode]
    exact not_or.mpr ⟨nofun, nofun⟩

theorem FullReturned.runOutcome {r : IndexingResult} {s' : Stores}
    (h : FullReturned svc request piiConfig jobId s r s')
    (hpath : svc.takesFull request s.chunks = true) :
    RunOutcome svc request piiConfig jobId s r s' := by
  cases h with
  | gaveUp p _ _ hstatus hkept => exact .gaveUp hstatus hkept
  | done p _ _ houtcome => exact .full p hpath houtcome

theorem ensures_full_path (hwork : svc.faults.TablesWork) (hjob : Knows s.jobs jobId)
    (hpath : svc.takesFull request s.chunks = true) :
    Ensures (svc.indexFull request jobId piiConfig) s
      (fun r s' => RunOutcome svc request piiConfig jobId s r s' ∧
        statusOf s'.jobs jobId = some r.status) fun _ => Relabelled jobId s := by
  refine (ensures_indexFull_ends hjob).mono ?_ ?_
  · rintro r s' ⟨hreturned, hrecorded⟩
    exact ⟨hreturned.runOutcome hpath, hrecorded⟩
  · intro _ s' hraised
    exact (hraised.kept hwork).relabelled

/-- Every way a `parser_only` run can end, whatever fails in it. -/
theorem ensures_reindexParserOnly_ends (hjob : Knows s.jobs jobId)
    (hmode : request.mode = .parserOnly) :
    Ensures (svc.reindexParserOnly request jobId piiConfig) s
      (fun r s' => (svc.takesFull request s.chunks = true ∧ svc.faults.listByDoc = none ∧
          FullReturned svc request piiConfig jobId s r s' ∨
        svc.takesFull request s.chunks = false ∧ r.status = .completed ∧ Relabelled jobId s s') ∧
        statusOf s'.jobs jobId = some r.status)
      fun _ s' => svc.takesFull request s.chunks = true ∧ svc.faults.listByDoc = none ∧
          FullRaised svc request piiConfig jobId s s' ∨
        ((∀ p, svc.prepare request piiConfig ≠ .ok p) ∨ svc.faults.listByDoc ≠ none ∨
          svc.takesFull request s.chunks = false) ∧ Relabelled jobId s s' := by
  obtain ⟨v, d, c, j⟩ := s
  have hpath : svc.takesFull request c =
      (c.listByDoc request.doc (some svc.parserVersion)).isEmpty := by
    rw [IndexingService.takesFull, hmode]
  have hkept : ∀ {j'}, Knows j' jobId → Relabelled jobId ⟨v, d, c, j⟩ ⟨v, d, c, j'⟩ :=
    fun hj' => Kept.relabelled ⟨rfl, rfl, rfl, hj'⟩
  rw [IndexingService.reindexParserOnly, ensures_bind]
  refine ensures_updateJob rfl hjob fun j₁ hj₁ => ?_
  rw [ensures_bind, ensures_ofExcept]
  refine ⟨fun pages _ => ?_, fun e he => .inr ⟨.inl fun p hp => ?_, hkept hj₁⟩⟩
  swap
  · obtain ⟨_, _, _, hparse, -⟩ := prepare_eq_ok_iff.mp hp
    cases he.symm.trans hparse
  rw [ensures_bind, listByDoc, ensures_failing]
  refine ⟨fun e he => .inr ⟨.inr (.inl (he ▸ Option.some_ne_none e)), hkept hj₁⟩, fun hlisted => ?_⟩
  refine ensures_ite.mpr ⟨fun hempty => ?_, fun hrows => ?_⟩
  · refine Ensures.mono (ensures_indexFull_ends hj₁) ?_ ?_
    · rintro r s' ⟨hreturned, hrecorded⟩
      exact ⟨.inl ⟨hpath.trans hempty, hlisted, hreturned.of_jobs⟩, hrecorded⟩
    · intro e s' hraised
      exact .inl ⟨hpath.trans hempty, hlisted, hraised.of_jobs⟩
  · have hfalse : svc.takesFull request c = false := hpath.trans (Bool.eq_false_iff.mpr hrows)
    rw [ensures_bind]
    refine ensures_updateJob rfl hj₁ fun j₂ hj₂ => ?_
    rw [ensures_bind]
    refine (ensures_forM (hkept hj₂) fun row _ s hs => ensures_relabelRow hs pages row).mono ?_
      fun _ _ hs => .inr ⟨.inr (.inr hfalse), hs⟩
    rintro - ⟨v', d', c', j'⟩ hs
    rw [ensures_bind]
    refine ensures_updateJob_status rfl hs.knows fun j₃ hj₃ => ?_
    refine ⟨.inr ⟨hfalse, rfl, ⟨?_, knows_of_statusOf hj₃⟩⟩, hj₃⟩
    exact ⟨hs.relabels.points, hs.relabels.documents, hs.relabels.rows⟩

theorem ensures_reindexParserOnly (hwork : svc.faults.TablesWork) (hjob : Knows s.jobs jobId)
    (hmode : request.mode = .parserOnly) :
    Ensures (svc.reindexParserOnly request jobId piiConfig) s
      (fun r s' => RunOutcome svc request piiConfig jobId s r s' ∧
        statusOf s'.jobs jobId = some r.status) fun _ => Relabelled jobId s := by
  refine (ensures_reindexParserOnly_ends hjob hmode).mono ?_ ?_
  · rintro r s' ⟨⟨hpath, -, hreturned⟩ | ⟨hpath, hstatus, hrelabelled⟩, hrecorded⟩
    · exact ⟨hreturned.runOutcome hpath, hrecorded⟩
    · exact ⟨.relabelled hmode hpath hstatus hrelabelled, hrecorded⟩
  · rintro e s' (⟨-, -, hraised⟩ | ⟨-, hrelabelled⟩)
    · exact (hraised.kept hwork).relabelled
    · exact hrelabelled

theorem restore_eq_ok_iff {rows : List ChunkRecord} {p : Prepared} :
    svc.restore rows = .ok p ↔ ∃ chunks warnings,
      rows.mapM IndexingService.chunkOfRow = .ok chunks ∧
      IndexingService.storedWarnings rows = .ok warnings ∧
      p = ⟨chunks, warnings, svc.embedSafely chunks⟩ := by
  constructor
  · intro h
    obtain ⟨chunks, hchunks, h⟩ := Except.bind_eq_ok_iff.mp h
    obtain ⟨warnings, hwarnings, h⟩ := Except.bind_eq_ok_iff.mp h
    cases h
    exact ⟨chunks, warnings, hchunks, hwarnings, rfl⟩
  · rintro ⟨chunks, warnings, hchunks, hwarnings, rfl⟩
    exact Except.bind_eq_ok_iff.mpr ⟨chunks, hchunks, Except.bind_eq_ok_iff.mpr
      ⟨warnings, hwarnings, rfl⟩⟩

/-- The points of the stored chunks were written; the rows may still lack the new model's name. -/
structure Repointed (svc : IndexingService) (request : IndexingRequest) (jobId : String)
    (s s' : Stores) (p : Prepared) : Prop where
  listed : svc.faults.listByDoc = none
  restored : svc.restore (s.chunks.listByDoc request.doc none) = .ok p
  below : svc.overThreshold (IndexingService.failureRate p.chunks p.embed.failed) = false
  upsert : svc.CanUpsert s.vectors request.domainId (svc.points request p)
  points : Upserted s.vectors s'.vectors request.domainId (svc.points request p)
  documents : s'.documents = s.documents
  knows : Knows s'.jobs jobId

/-- What an `embedding_only` run on stored rows has not got to when it leaves the stores as they
were. -/
def IndexingService.Stopped (svc : IndexingService) (request : IndexingRequest) (s : Stores) :
    Prop :=
  svc.faults.listByDoc ≠ none ∨ ∀ p, svc.restore (s.chunks.listByDoc request.doc none) = .ok p →
    svc.overThreshold (IndexingService.failureRate p.chunks p.embed.failed) = true ∨
      ¬ svc.CanUpsert s.vectors request.domainId (svc.points request p)

/-- Every way an `embedding_only` run on stored rows can end, whatever fails in it. -/
theorem ensures_reindexEmbeddingOnly_stored (hjob : Knows s.jobs jobId)
    (hrows : (s.chunks.listByDoc request.doc none).isEmpty = false) :
    Ensures (svc.reindexEmbeddingOnly request jobId piiConfig) s
      (fun r s' => (r.status = .failed ∧ svc.Stopped request s ∧ Kept jobId s s' ∨
        ∃ p, r.status = p.embed.status ∧ Repointed svc request jobId s s' p ∧
          ∃ ids, s'.chunks = s.chunks.updateMetadata request.domainId ids
            (.ofList [("embedding_model", .str svc.modelName),
              ("embedding_version", .str svc.modelName)])) ∧
        statusOf s'.jobs jobId = some r.status)
      fun _ s' => svc.Stopped request s ∧ Kept jobId s s' ∨
        ∃ p, svc.faults.updateMetadata 0 ≠ none ∧ Repointed svc request jobId s s' p ∧
          s'.chunks = s.chunks := by
  obtain ⟨v, d, c, j⟩ := s
  rw [IndexingService.reindexEmbeddingOnly, ensures_bind, listByDoc, ensures_failing]
  refine ⟨fun e he => .inl ⟨.inl (he ▸ Option.some_ne_none e), rfl, rfl, rfl, hjob⟩,
    fun hlisted => ?_⟩
  refine ensures_ite.mpr ⟨fun hempty => absurd (hrows.symm.trans hempty) nofun, fun _ => ?_⟩
  rw [ensures_bind, ensures_ofExcept]
  refine ⟨fun chunks hchunks => ?_, fun e he => .inl ⟨.inr fun p hp => ?_, rfl, rfl, rfl, hjob⟩⟩
  swap
  · obtain ⟨_, _, hread, -⟩ := restore_eq_ok_iff.mp hp
    cases he.symm.trans hread
  rw [ensures_bind, ensures_ofExcept]
  refine ⟨fun warnings hwarnings => ?_, fun e he => .inl ⟨.inr fun p hp => ?_, rfl, rfl, rfl, hjob⟩⟩
  swap
  · obtain ⟨_, _, _, hread, -⟩ := restore_eq_ok_iff.mp hp
    cases he.symm.trans hread
  have hrestored : svc.restore (c.listByDoc request.doc none) =
      .ok ⟨chunks, warnings, svc.embedSafely chunks⟩ :=
    restore_eq_ok_iff.mpr ⟨chunks, warnings, hchunks, hwarnings, rfl⟩
  rw [ensures_bind]
  refine ensures_updateJob rfl hjob fun j₁ hj₁ => ?_
  refine ensures_ite.mpr ⟨fun hover => ?_, fun hbelow => ?_⟩
  · refine ensures_failRun hj₁ fun r j' hr hj' =>
      ⟨.inl ⟨hr, .inr fun p hp => .inl ?_, rfl, rfl, rfl, knows_of_statusOf hj'⟩, hj'⟩
    cases hrestored.symm.trans hp
    exact hover
  rw [Bool.not_eq_true] at hbelow
  rw [ensures_bind]
  refine ensures_upsertToQdrant (fun _ hcan => .inl ⟨.inr fun p hp => .inr ?_, rfl, rfl, rfl, hj₁⟩)
    fun v' hcan hv' => ?_
  · cases hrestored.symm.trans hp
    exact hcan
  rw [ensures_bind, updateMetadata, ensures_failing]
  refine ⟨fun e he => .inr ⟨_, he ▸ Option.some_ne_none e,
    ⟨hlisted, hrestored, hbelow, hcan, hv', rfl, hj₁⟩, rfl⟩, fun _ => ?_⟩
  refine ensures_finishRun hj₁ fun r j' hr hj' =>
    ⟨.inr ⟨⟨chunks, warnings, svc.embedSafely chunks⟩, hr, ?_, _, rfl⟩, hj'⟩
  exact ⟨hlisted, hrestored, hbelow, hcan, hv', rfl, knows_of_statusOf hj'⟩

/-- Every way an `embedding_only` run can end, whatever fails in it. -/
theorem ensures_reindexEmbeddingOnly_ends (hjob : Knows s.jobs jobId)
    (hmode : request.mode = .embeddingOnly) :
    Ensures (svc.reindexEmbeddingOnly request jobId piiConfig) s
      (fun r s' => (svc.takesFull request s.chunks = true ∧ svc.faults.listByDoc = none ∧
          FullReturned svc request piiConfig jobId s r s' ∨
        svc.takesFull request s.chunks = false ∧
          (r.status = .failed ∧ svc.Stopped request s ∧ Kept jobId s s' ∨
            ∃ p, r.status = p.embed.status ∧ Repointed svc request jobId s s' p ∧
              ∃ ids, s'.chunks = s.chunks.updateMetadata request.domainId ids
                (.ofList [("embedding_model", .str svc.modelName),
                  ("embedding_version", .str svc.modelName)]))) ∧
        statusOf s'.jobs jobId = some r.status)
      fun _ s' => svc.takesFull request s.chunks = true ∧ svc.faults.listByDoc = none ∧
          FullRaised svc request piiConfig jobId s s' ∨
        (svc.faults.listByDoc ≠ none ∨
          svc.takesFull request s.chunks = false ∧ svc.Stopped request s) ∧ Kept jobId s s' ∨
        svc.takesFull request s.chunks = false ∧ ∃ p, svc.faults.updateMetadata 0 ≠ none ∧
          Repointed svc request jobId s s' p ∧ s'.chunks = s.chunks := by
  have hpath : svc.takesFull request s.chunks = (s.chunks.listByDoc request.doc none).isEmpty := by
    rw [IndexingService.takesFull, hmode]
  rw [hpath]
  cases hrows : (s.chunks.listByDoc request.doc none).isEmpty with
  | true =>
    rw [IndexingService.reindexEmbeddingOnly, ensures_bind, listByDoc, ensures_failing]
    refine ⟨fun e he => .inr (.inl ⟨.inl (he ▸ Option.some_ne_none e), rfl, rfl, rfl, hjob⟩),
      fun hlisted => ?_⟩
    refine ensures_ite.mpr ⟨fun _ => ?_, fun hempty => absurd hrows hempty⟩
    refine (ensures_indexFull_ends hjob).mono ?_ ?_
    · rintro r s' ⟨hreturned, hrecorded⟩
      exact ⟨.inl ⟨rfl, hlisted, hreturned⟩, hrecorded⟩
    · exact fun e s' hraised => .inl ⟨rfl, hlisted, hraised⟩
  | false =>
    refine (ensures_reindexEmbeddingOnly_stored hjob hrows).mono ?_ ?_
    · rintro r s' ⟨hends, hrecorded⟩
      exact ⟨.inr ⟨rfl, hends⟩, hrecorded⟩
    · rintro e s' (⟨hstopped, hkept⟩ | hpointed)
      · exact .inr (.inl ⟨.inr ⟨rfl, hstopped⟩, hkept⟩)
      · exact .inr (.inr ⟨rfl, hpointed⟩)

theorem ensures_reindexEmbeddingOnly (hwork : svc.faults.TablesWork)
    (hjob : Knows s.jobs jobId) (hmode : request.mode = .embeddingOnly) :
    Ensures (svc.reindexEmbeddingOnly request jobId piiConfig) s
      (fun r s' => RunOutcome svc request piiConfig jobId s r s' ∧
        statusOf s'.jobs jobId = some r.status) fun _ => Relabelled jobId s := by
  refine (ensures_reindexEmbeddingOnly_ends hjob hmode).mono ?_ ?_
  · rintro r s' ⟨⟨hpath, -, hreturned⟩ | ⟨hpath, ⟨hstatus, -, hkept⟩ | ⟨p, hstatus, hpointed, hmodel⟩⟩,
      hrecorded⟩
    · exact ⟨hreturned.runOutcome hpath, hrecorded⟩
    · exact ⟨.gaveUp hstatus hkept, hrecorded⟩
    · obtain ⟨chunks, warnings, hchunks, -, rfl⟩ := restore_eq_ok_iff.mp hpointed.restored
      exact ⟨.reembedded hmode hpath chunks warnings ⟨hchunks, hpointed.below, hstatus,
        hpointed.points, hpointed.documents, hmodel, hpointed.knows⟩, hrecorded⟩
  · rintro e s' (⟨-, -, hraised⟩ | ⟨-, hkept⟩ | ⟨-, p, hfault, -⟩)
    · exact (hraised.kept hwork).relabelled
    · exact hkept.relabelled
    · exact absurd (hwork.updateMetadata 0) hfault

/-- The rule for a run in whatever mode: what its body leaves when it raises holds before the
failure is recorded. -/
theorem ensures_runWithExistingJob_of {Q : IndexingResult → Stores → Prop}
    {P R : Exc → Stores → Prop}
    (hfull : request.mode = .full ∨ request.mode = .chunkReSplit →
      Ensures (svc.indexFull request jobId piiConfig) s Q P)
    (hparser : request.mode = .parserOnly →
      Ensures (svc.reindexParserOnly request jobId piiConfig) s Q P)
    (hembedding : request.mode = .embeddingOnly →
      Ensures (svc.reindexEmbeddingOnly request jobId piiConfig) s Q P)
    (hraised : ∀ e s', P e s' → Ensures (updateJob jobId { status := some .failed
                                                           errorMessage := some e.message }) s'
      (fun _ => R e) R) :
    Ensures (svc.runWithExistingJob request jobId piiConfig) s Q R := by
  rw [IndexingService.runWithExistingJob, ensures_tryCatch]
  refine Ensures.mono (Q := Q) (R := P) ?_ (fun _ _ h => h) fun e s' h => ?_
  · cases hmode : request.mode with
    | embeddingOnly => exact hembedding hmode
    | parserOnly => exact hparser hmode
    | full => exact hfull (.inl hmode)
    | chunkReSplit => exact hfull (.inr hmode)
  · rw [ensures_bind]
    exact hraised e s' h

theorem ensures_runWithExistingJob (hwork : svc.faults.TablesWork) (hjob : Knows s.jobs jobId) :
    Ensures (svc.runWithExistingJob request jobId piiConfig) s
      (fun r s' => RunOutcome svc request piiConfig jobId s r s' ∧
        statusOf s'.jobs jobId = some r.status)
      fun _ s' => Relabelled jobId s s' ∧ statusOf s'.jobs jobId = some .failed := by
  refine ensures_runWithExistingJob_of (fun hmode => ?_) (ensures_reindexParserOnly hwork hjob)
    (ensures_reindexEmbeddingOnly hwork hjob) ?_
  · exact ensures_full_path hwork hjob (IndexingService.takesFull_of_full hmode _)
  · rintro e ⟨v', d', c', j'⟩ h
    refine ensures_updateJob_status rfl h.knows fun j'' hj'' => ?_
    exact ⟨⟨⟨h.relabels.points, h.relabels.documents, h.relabels.rows⟩,
      knows_of_statusOf hj''⟩, hj''⟩

theorem ensures_runWithExistingJob_of_not_knows (hjob : ¬ Knows s.jobs jobId) :
    Ensures (svc.runWithExistingJob request jobId piiConfig) s (fun _ _ => False)
      fun _ s' => s' = s := by
  obtain ⟨v, d, c, j⟩ := s
  have hfull : Ensures (svc.indexFull request jobId piiConfig) ⟨v, d, c, j⟩ (fun _ _ => False)
      fun _ s' => s' = ⟨v, d, c, j⟩ := by
    rw [IndexingService.indexFull, ensures_bind]
    exact ensures_updateJob_of_not_knows hjob fun _ => rfl
  refine ensures_runWithExistingJob_of (fun _ => hfull) (fun _ => ?_) (fun _ => ?_) ?_
  · simp only [IndexingService.reindexParserOnly, ensures_bind]
    exact ensures_updateJob_of_not_knows hjob fun _ => rfl
  · rw [IndexingService.reindexEmbeddingOnly, ensures_bind, listByDoc, ensures_failing]
    refine ⟨fun _ _ => rfl, fun _ => ensures_ite.mpr ⟨fun _ => hfull, fun _ => ?_⟩⟩
    rw [ensures_bind, ensures_ofExcept]
    refine ⟨fun chunks _ => ?_, fun _ _ => rfl⟩
    rw [ensures_bind, ensures_ofExcept]
    refine ⟨fun warnings _ => ?_, fun _ _ => rfl⟩
    rw [ensures_bind]
    exact ensures_updateJob_of_not_knows hjob fun _ => rfl
  · rintro e _ rfl
    exact ensures_updateJob_of_not_knows hjob fun _ => rfl

theorem RunOutcome.of_jobs {j : JobRepository} {r : IndexingResult} {s' : Stores}
    (h : RunOutcome svc request piiConfig jobId ⟨s.vectors, s.documents, s.chunks, j⟩ r s') :
    RunOutcome svc request piiConfig jobId s r s' := by
  cases h with
  | gaveUp status kept => exact .gaveUp status ⟨kept.vectors, kept.documents, kept.chunks, kept.knows⟩
  | full p path h =>
    exact .full p path ⟨h.prepared, h.below, h.status,
      h.written.upsert, h.written.points, h.written.documents, h.written.rows, h.written.knows⟩
  | relabelled mode path status h =>
    exact .relabelled mode path status
      ⟨⟨h.relabels.points, h.relabels.documents, h.relabels.rows⟩, h.knows⟩
  | reembedded mode path chunks warnings h =>
    exact .reembedded mode path chunks warnings
      ⟨h.stored, h.below, h.status, h.points, h.documents, h.rows, h.knows⟩

theorem ensures_run (hwork : svc.faults.TablesWork) :
    Ensures (svc.run request jobId piiConfig) s (RunOutcome svc request piiConfig jobId s)
      fun _ => Relabels headingNames s := by
  rw [IndexingService.run, ensures_bind, ensures_get, ensures_bind, ensures_ofExcept]
  refine ⟨fun jobs hjobs => ?_, fun _ _ => Relabels.refl s⟩
  refine Ensures.mono (ensures_runWithExistingJob hwork (knows_of_create hjobs)) ?_ ?_
  · intro r s' h
    exact h.1.of_jobs
  · intro e s' h
    exact ⟨h.1.relabels.points, h.1.relabels.documents, h.1.relabels.rows⟩

end Modes

end DomainRag.Indexing
