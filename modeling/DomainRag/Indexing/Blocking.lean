import DomainRag.Indexing.Effects
import DomainRag.Lib.Journal
import DomainRag.Pii.ChunkScan
import DomainRag.Pii.Detector

/-! # Chunks that are not to be indexed

The scan of a chunk decides whether its indexing is blocked. Neither of the writers asks for this
decision: a run writes every chunk that has a vector. What a run writes is noted in a journal, and
the stores change by nothing else, up to the updates of chunks that are stored already.
-/

namespace DomainRag.Indexing

open Store Program

def IndexingService.scanning (svc : IndexingService) (pii : Pii.PIIService)
    (repr : Value → String) : IndexingService :=
  { svc with checkChunkPii := pii.checkChunkPii repr }

/-- The points that the vector store has taken in a run, and the rows that the chunk table has. -/
structure WriteJournal where
  points : List Point := []
  rows : Option (List ChunkRecord) := none

section Noted

abbrev NotedTask := Program Exc (Stores × WriteJournal)

namespace IndexingService

variable (svc : IndexingService) (request : IndexingRequest)

def upsertNoted (chunks : List Chunk) (vectors : Dict String Embedding)
    (warnings : Dict String ChunkPIIWarning) : NotedTask Unit :=
  noting (fun journal => { journal with
      points := journal.points ++ svc.buildPoints request chunks vectors warnings })
    (svc.upsertToQdrant request chunks vectors warnings)

def writeNoted (records : List ChunkRecord) : NotedTask Unit :=
  noting (fun journal => { journal with rows := some records })
    (svc.writeChunksAndDocument request records)

variable (jobId : String) (piiConfig : Value)

/-- `indexFull`, with its writes noted. -/
def indexFullNoted : NotedTask IndexingResult := do
  quietly (updateJob jobId { status := some .parsing, step := some "parse", progress := some 10 })
  let pages ← quietly (Program.ofExcept (svc.parse request.filePath))
  quietly (updateJob jobId { status := some .chunking, step := some "chunk", progress := some 30 })
  let chunks ← quietly (Program.ofExcept
    (svc.chunk request.docId request.docVersion svc.parserVersion pages))
  let warnings ← quietly (Program.ofExcept (svc.scanPii chunks piiConfig))
  quietly (updateJob jobId
    { status := some .embedding, step := some "embed", progress := some 60,
      totalChunks := some chunks.length })
  let embed := svc.embedSafely chunks
  quietly (updateJob jobId { status := some .indexing, step := some "upsert", progress := some 80 })
  let records := svc.buildRecords request chunks embed.vectors warnings
  let rate := failureRate chunks embed.failed
  if svc.overThreshold rate then
    quietly (failRun jobId
      s!"failure_rate {svc.formatRate rate} > threshold {svc.formatFloat svc.failureThreshold}"
      chunks.length embed.failed (highPii warnings) rate)
  else
    svc.upsertNoted request chunks embed.vectors warnings
    svc.writeNoted request records
    quietly (finishRun jobId chunks.length embed.failed (highPii warnings) rate)

def reindexParserOnlyNoted : NotedTask IndexingResult := do
  quietly (updateJob jobId { status := some .parsing, step := some "parse", progress := some 20 })
  let pages ← quietly (Program.ofExcept (svc.parse request.filePath))
  let existing ← quietly (listByDoc svc.faults.listByDoc request.doc (some svc.parserVersion))
  if existing.isEmpty then
    svc.indexFullNoted request jobId piiConfig
  else
    quietly (updateJob jobId
      { status := some .indexing, step := some "metadata_update", progress := some 70 })
    quietly (forM existing.zipIdx (svc.relabelRow request pages))
    quietly (updateJob jobId
      { status := some .completed, step := some "done", progress := some 100,
        totalChunks := some existing.length, indexedChunks := some existing.length,
        failureRate := some 0 })
    return ⟨jobId, .completed, existing.length, existing.length, [], 0, 0⟩

def reindexEmbeddingOnlyNoted : NotedTask IndexingResult := do
  let existing ← quietly (listByDoc svc.faults.listByDoc request.doc none)
  if existing.isEmpty then
    svc.indexFullNoted request jobId piiConfig
  else
    let chunks ← quietly (Program.ofExcept (existing.mapM chunkOfRow))
    let warnings ← quietly (Program.ofExcept (storedWarnings existing))
    quietly (updateJob jobId
      { status := some .embedding, step := some "embed", progress := some 40,
        totalChunks := some existing.length })
    let embed := svc.embedSafely chunks
    let rate := failureRate chunks embed.failed
    if svc.overThreshold rate then
      quietly (failRun jobId s!"failure_rate {svc.formatRate rate} > threshold"
        existing.length embed.failed (highPii warnings) rate)
    else
      svc.upsertNoted request chunks embed.vectors warnings
      quietly (updateMetadata (svc.faults.updateMetadata 0) request.domainId
        ((chunks.map Chunk.chunkId).filter fun id => id ∉ embed.failed.map FailedChunk.chunkId)
        (.ofList [("embedding_model", .str svc.modelName),
          ("embedding_version", .str svc.modelName)]))
      quietly (finishRun jobId existing.length embed.failed (highPii warnings) rate)

def runNoted : NotedTask IndexingResult :=
  tryCatch
    (match request.mode with
    | .embeddingOnly => svc.reindexEmbeddingOnlyNoted request jobId piiConfig
    | .parserOnly => svc.reindexParserOnlyNoted request jobId piiConfig
    | .full | .chunkReSplit => svc.indexFullNoted request jobId piiConfig)
    fun e => do
      quietly (updateJob jobId { status := some .failed, errorMessage := some e.message })
      throw e

variable {svc request jobId piiConfig}

theorem indexFullNoted_erases : Erases (svc.indexFullNoted request jobId piiConfig)
    (svc.indexFull request jobId piiConfig) := by
  refine (erases_quietly _).bind fun _ => (erases_quietly _).bind fun pages => ?_
  refine (erases_quietly _).bind fun _ => (erases_quietly _).bind fun chunks => ?_
  refine (erases_quietly _).bind fun warnings => (erases_quietly _).bind fun _ => ?_
  refine (erases_quietly _).bind fun _ => (erases_quietly _).ite ?_
  refine (erases_noting _ _).bind fun _ => (erases_noting _ _).bind fun _ => ?_
  exact erases_quietly _

theorem reindexParserOnlyNoted_erases : Erases (svc.reindexParserOnlyNoted request jobId piiConfig)
    (svc.reindexParserOnly request jobId piiConfig) := by
  refine (erases_quietly _).bind fun _ => (erases_quietly _).bind fun pages => ?_
  refine (erases_quietly _).bind fun existing => indexFullNoted_erases.ite ?_
  refine (erases_quietly _).bind fun _ => (erases_quietly _).bind fun _ => ?_
  exact (erases_quietly _).bind fun _ => erases_pure _

theorem reindexEmbeddingOnlyNoted_erases :
    Erases (svc.reindexEmbeddingOnlyNoted request jobId piiConfig)
      (svc.reindexEmbeddingOnly request jobId piiConfig) := by
  refine (erases_quietly _).bind fun existing => indexFullNoted_erases.ite ?_
  refine (erases_quietly _).bind fun chunks => (erases_quietly _).bind fun warnings => ?_
  refine (erases_quietly _).bind fun _ => (erases_quietly _).ite ?_
  refine (erases_noting _ _).bind fun _ => (erases_quietly _).bind fun _ => ?_
  exact erases_quietly _

/-- Beside its journal a noted run is the run. -/
theorem runNoted_erases : Erases (svc.runNoted request jobId piiConfig)
    (svc.runWithExistingJob request jobId piiConfig) := by
  refine Erases.tryCatch ?_ fun e => (erases_quietly _).bind fun _ => erases_throw e
  cases request.mode with
  | embeddingOnly => exact reindexEmbeddingOnlyNoted_erases
  | parserOnly => exact reindexParserOnlyNoted_erases
  | full => exact indexFullNoted_erases
  | chunkReSplit => exact indexFullNoted_erases

end IndexingService

end Noted

section Blocking

variable (svc : IndexingService) (request : IndexingRequest) (piiConfig : Value)

def IndexingService.Blocks (text : String) : Prop :=
  ∃ warning, svc.checkChunkPii text piiConfig = .ok warning ∧ warning.blockIndexing = true

def IndexingService.BlocksPoint (p : Point) : Prop :=
  ∃ text, p.payload.get? "content" = some (.str text) ∧ svc.Blocks piiConfig text

/-- Whatever way a run ends, the stores have taken no blocked chunk from it. -/
def IndexingService.SparesBlocked (jobId : String) (s : Stores) : Prop :=
  let journal := ((svc.runNoted request jobId piiConfig).final (s, {})).2
  (∀ p ∈ journal.points, ¬ svc.BlocksPoint piiConfig p) ∧
    ∀ rows, journal.rows = some rows → ∀ row ∈ rows, ¬ svc.Blocks piiConfig row.content

/-- The attributes of stored rows that a run may update without writing the chunk. -/
def updatedNames : List String := headingNames ++ ["embedding_model", "embedding_version"]

/-- The chunks of a run reach the point where they are written: the job is known, the stored rows
are listed where the mode asks for them, not too many chunks failed, and the vector store takes
the points. -/
structure Due (jobId : String) (s : Stores) (p : Prepared) : Prop where
  knows : Knows s.jobs jobId
  listed : request.mode = .parserOnly ∨ request.mode = .embeddingOnly → svc.faults.listByDoc = none
  below : svc.overThreshold (IndexingService.failureRate p.chunks p.embed.failed) = false
  upsert : svc.CanUpsert s.vectors request.domainId (svc.points request p)

/-- The chunks that a run works on: those of the parsed document, or the stored ones. -/
inductive WorksOn (s : Stores) (p : Prepared) : Prop where
  | parsed (path : svc.takesFull request s.chunks = true)
      (prepared : svc.prepare request piiConfig = .ok p)
  | stored (mode : request.mode = .embeddingOnly)
      (path : svc.takesFull request s.chunks = false)
      (restored : svc.restore (s.chunks.listByDoc request.doc none) = .ok p)

/-- The rows of a full run, unless the write of the document or of the rows raises. -/
def rowsDue (p : Prepared) : Option (List ChunkRecord) :=
  if svc.faults.upsertDocument.isNone && svc.faults.replaceChunks.isNone then
    some (svc.records request p)
  else none

/-- The points that a run gives to the vector store and the rows that it gives to the chunk
table, if it gives any. -/
inductive Emits (jobId : String) (s : Stores) : List Point → Option (List ChunkRecord) → Prop where
  | full (p : Prepared) (path : svc.takesFull request s.chunks = true)
      (prepared : svc.prepare request piiConfig = .ok p) (due : Due svc request jobId s p) :
      Emits jobId s (svc.points request p) (rowsDue svc request p)
  | reembedded (p : Prepared) (mode : request.mode = .embeddingOnly)
      (path : svc.takesFull request s.chunks = false)
      (restored : svc.restore (s.chunks.listByDoc request.doc none) = .ok p)
      (due : Due svc request jobId s p) :
      Emits jobId s (svc.points request p) none

def lastPoint (points : List Point) (id : String) : Option Point :=
  points.reverse.find? fun p => p.id = id

def replaced (chunks : ChunkRepository) : Option (List ChunkRecord) → ChunkRepository
  | some rs => chunks.replaceChunks ⟨request.doc, svc.parserVersion⟩ rs
  | none => chunks

/-- Up to the updates of stored chunks, a run has changed points and rows just by what it
emitted. -/
structure Effect (s s' : Stores) (points : List Point) (rows : Option (List ChunkRecord)) :
    Prop where
  points : ∀ d id, Option.Rel (SamePoint headingNames)
    (if d = request.domainId then (lastPoint points id).or (s.vectors.point? d id)
      else s.vectors.point? d id) (s'.vectors.point? d id)
  rows : ∀ ref, Option.Rel (SameRow updatedNames) ((replaced svc request s.chunks rows).row? ref)
    (s'.chunks.row? ref)

end Blocking

section Runs

variable {svc : IndexingService} {request : IndexingRequest} {piiConfig : Value} {jobId : String}
  {s s' : Stores}

theorem Emits.unique {points points' : List Point} {rows rows' : Option (List ChunkRecord)}
    (h : Emits svc request piiConfig jobId s points rows)
    (h' : Emits svc request piiConfig jobId s points' rows') :
    points' = points ∧ rows' = rows := by
  cases h with
  | full p path prepared due =>
    cases h' with
    | full p' path' prepared' due' =>
      cases prepared.symm.trans prepared'
      exact ⟨rfl, rfl⟩
    | reembedded p' mode' path' restored' due' => cases path.symm.trans path'
  | reembedded p mode path restored due =>
    cases h' with
    | full p' path' prepared' due' => cases path.symm.trans path'
    | reembedded p' mode' path' restored' due' =>
      cases restored.symm.trans restored'
      exact ⟨rfl, rfl⟩

/-- A run has changed the stores by what it emits, or it emits nothing and has updated at most
stored chunks. -/
def Ran (svc : IndexingService) (request : IndexingRequest) (piiConfig : Value) (jobId : String)
    (s s' : Stores) : Prop :=
  (∃ points rows, Emits svc request piiConfig jobId s points rows ∧
      Effect svc request s s' points rows) ∨
    (∀ points rows, ¬ Emits svc request piiConfig jobId s points rows) ∧
      Effect svc request s s' [] none

theorem Ran.of_jobs (h : Ran svc request piiConfig jobId s s') (j : JobRepository) :
    Ran svc request piiConfig jobId s { s' with jobs := j } := by
  obtain ⟨points, rows, hemits, heffect⟩ | ⟨hnone, heffect⟩ := h
  · exact .inl ⟨points, rows, hemits, heffect.points, heffect.rows⟩
  · exact .inr ⟨hnone, heffect.points, heffect.rows⟩

theorem effect_of_relabels (h : Relabels headingNames s s') : Effect svc request s s' [] none where
  points d id := by
    have hold : (if d = request.domainId then (lastPoint [] id).or (s.vectors.point? d id)
        else s.vectors.point? d id) = s.vectors.point? d id := ite_self _
    rw [hold]
    exact h.points d id
  rows ref := optionRel_mono (fun _ _ hsame => hsame.mono (List.subset_append_left _ _)) (h.rows ref)

theorem effect_of_upserted {points : List Point} {rows : Option (List ChunkRecord)}
    (hpoints : Upserted s.vectors s'.vectors request.domainId points)
    (hrows : ∀ ref, Option.Rel (SameRow updatedNames)
      ((replaced svc request s.chunks rows).row? ref) (s'.chunks.row? ref)) :
    Effect svc request s s' points rows where
  points d id := by
    rw [hpoints d id]
    exact optionRel_refl SamePoint.refl _
  rows := hrows

section Full

variable (hknows : Knows s.jobs jobId) (hpath : svc.takesFull request s.chunks = true)
  (hlisted : request.mode = .parserOnly ∨ request.mode = .embeddingOnly →
    svc.faults.listByDoc = none)

include hpath in
theorem not_emits_of_full (h : ∀ p, svc.prepare request piiConfig = .ok p →
      svc.overThreshold (IndexingService.failureRate p.chunks p.embed.failed) = false →
      ¬ svc.CanUpsert s.vectors request.domainId (svc.points request p))
    (points : List Point) (rows : Option (List ChunkRecord)) :
    ¬ Emits svc request piiConfig jobId s points rows := by
  intro hemits
  cases hemits with
  | full p path prepared due => exact h p prepared due.below due.upsert
  | reembedded p mode path restored due => cases hpath.symm.trans path

theorem ran_of_kept (hkept : Kept jobId s s')
    (h : ∀ points rows, ¬ Emits svc request piiConfig jobId s points rows) :
    Ran svc request piiConfig jobId s s' :=
  .inr ⟨h, effect_of_relabels hkept.relabels⟩

include hknows hpath hlisted

theorem FullReturned.ran {r : IndexingResult}
    (h : FullReturned svc request piiConfig jobId s r s') :
    Ran svc request piiConfig jobId s s' := by
  cases h with
  | gaveUp p prepared failures status kept =>
    refine ran_of_kept kept (not_emits_of_full hpath fun p' prepared' below => ?_)
    cases prepared.symm.trans prepared'
    cases failures.symm.trans below
  | done p document table outcome =>
    refine .inl ⟨_, _, .full p hpath outcome.prepared
      ⟨hknows, hlisted, outcome.below, outcome.written.upsert⟩, ?_⟩
    have hrows : rowsDue svc request p = some (svc.records request p) := by
      rw [rowsDue, document, table]
      rfl
    rw [hrows]
    refine effect_of_upserted outcome.written.points fun ref => ?_
    rw [outcome.written.rows]
    exact optionRel_refl SameRow.refl _

theorem FullRaised.ran (h : FullRaised svc request piiConfig jobId s s') :
    Ran svc request piiConfig jobId s s' := by
  have hemitted : ∀ p, svc.prepare request piiConfig = .ok p →
      svc.overThreshold (IndexingService.failureRate p.chunks p.embed.failed) = false →
      svc.CanUpsert s.vectors request.domainId (svc.points request p) →
      rowsDue svc request p = none →
      Upserted s.vectors s'.vectors request.domainId (svc.points request p) →
      s'.chunks = s.chunks → Ran svc request piiConfig jobId s s' := by
    intro p prepared below upsert hrows points rows
    refine .inl ⟨_, _, .full p hpath prepared ⟨hknows, hlisted, below, upsert⟩, ?_⟩
    rw [hrows]
    refine effect_of_upserted points fun ref => ?_
    rw [rows]
    exact optionRel_refl SameRow.refl _
  cases h with
  | unprepared prepared kept =>
    exact ran_of_kept kept (not_emits_of_full hpath fun p hp => absurd hp (prepared p))
  | points p prepared refused kept =>
    refine ran_of_kept kept (not_emits_of_full hpath fun p' prepared' _ => ?_)
    cases prepared.symm.trans prepared'
    exact refused
  | document p prepared below upsert fault points documents rows knows =>
    refine hemitted p prepared below upsert (if_neg ?_) points rows
    simp only [Bool.and_eq_true, Option.isNone_iff_eq_none, fault, false_and, not_false_eq_true]
  | rows p prepared below upsert document fault points documents rows knows =>
    refine hemitted p prepared below upsert (if_neg ?_) points rows
    simp only [Bool.and_eq_true, Option.isNone_iff_eq_none, fault, and_false, not_false_eq_true]

end Full

theorem ensures_indexFull_ran (hknows : Knows s.jobs jobId)
    (hpath : svc.takesFull request s.chunks = true)
    (hlisted : request.mode = .parserOnly ∨ request.mode = .embeddingOnly →
      svc.faults.listByDoc = none) :
    Ensures (svc.indexFull request jobId piiConfig) s
      (fun _ => Ran svc request piiConfig jobId s) fun _ => Ran svc request piiConfig jobId s := by
  refine (ensures_indexFull_ends hknows).mono ?_ ?_
  · intro _ s' h
    exact h.1.ran hknows hpath hlisted
  · intro _ s' h
    exact h.ran hknows hpath hlisted

theorem ensures_reindexParserOnly_ran (hknows : Knows s.jobs jobId)
    (hmode : request.mode = .parserOnly) :
    Ensures (svc.reindexParserOnly request jobId piiConfig) s
      (fun _ => Ran svc request piiConfig jobId s) fun _ => Ran svc request piiConfig jobId s := by
  have hstored : svc.takesFull request s.chunks = false → ∀ points rows,
      ¬ Emits svc request piiConfig jobId s points rows := by
    intro hpath points rows hemits
    cases hemits with
    | full p path prepared due => cases hpath.symm.trans path
    | reembedded p mode path restored due => cases hmode.symm.trans mode
  refine (ensures_reindexParserOnly_ends hknows hmode).mono ?_ ?_
  · rintro _ s' ⟨⟨hpath, hlisted, hreturned⟩ | ⟨hpath, -, hrelabelled⟩, -⟩
    · exact hreturned.ran hknows hpath fun _ => hlisted
    · exact .inr ⟨hstored hpath, effect_of_relabels hrelabelled.relabels⟩
  · rintro _ s' (⟨hpath, hlisted, hraised⟩ | ⟨hcause, hrelabelled⟩)
    · exact hraised.ran hknows hpath fun _ => hlisted
    · refine .inr ⟨fun points rows hemits => ?_, effect_of_relabels hrelabelled.relabels⟩
      obtain hprepare | hfault | hpath := hcause
      · cases hemits with
        | full p path prepared due => exact hprepare p prepared
        | reembedded p mode path restored due => cases hmode.symm.trans mode
      · cases hemits with
        | full p path prepared due => exact hfault (due.listed (.inl hmode))
        | reembedded p mode path restored due => exact hfault (due.listed (.inl hmode))
      · exact hstored hpath points rows hemits

theorem Repointed.ran {p : Prepared} (h : Repointed svc request jobId s s' p)
    (hknows : Knows s.jobs jobId) (hmode : request.mode = .embeddingOnly)
    (hpath : svc.takesFull request s.chunks = false)
    (hrows : ∀ ref, Option.Rel (SameRow updatedNames) (s.chunks.row? ref) (s'.chunks.row? ref)) :
    Ran svc request piiConfig jobId s s' :=
  .inl ⟨_, _, .reembedded p hmode hpath h.restored ⟨hknows, fun _ => h.listed, h.below, h.upsert⟩,
    effect_of_upserted h.points hrows⟩

theorem ensures_reindexEmbeddingOnly_ran (hknows : Knows s.jobs jobId)
    (hmode : request.mode = .embeddingOnly) :
    Ensures (svc.reindexEmbeddingOnly request jobId piiConfig) s
      (fun _ => Ran svc request piiConfig jobId s) fun _ => Ran svc request piiConfig jobId s := by
  have hstopped : svc.takesFull request s.chunks = false → svc.Stopped request s →
      ∀ points rows, ¬ Emits svc request piiConfig jobId s points rows := by
    intro hpath hstopped points rows hemits
    cases hemits with
    | full p path prepared due => cases hpath.symm.trans path
    | reembedded p mode path restored due =>
      obtain hfault | hall := hstopped
      · exact hfault (due.listed (.inr hmode))
      · obtain hover | hrefused := hall p restored
        · cases hover.symm.trans due.below
        · exact hrefused due.upsert
  refine (ensures_reindexEmbeddingOnly_ends hknows hmode).mono ?_ ?_
  · rintro _ s' ⟨⟨hpath, hlisted, hreturned⟩ | ⟨hpath, ⟨-, hstop, hkept⟩ |
      ⟨p, -, hpointed, ids, hchunks⟩⟩, -⟩
    · exact hreturned.ran hknows hpath fun _ => hlisted
    · exact ran_of_kept hkept (hstopped hpath hstop)
    · refine hpointed.ran hknows hmode hpath fun ref => ?_
      have hkeys : (Dict.ofList [("embedding_model", Value.str svc.modelName),
          ("embedding_version", .str svc.modelName)]).keys ⊆ updatedNames :=
        List.subset_append_right headingNames _
      rw [hchunks]
      exact (Relabels.updateMetadata s request.domainId ids hkeys).rows ref
  · rintro _ s' (⟨hpath, hlisted, hraised⟩ | ⟨hcause, hkept⟩ | ⟨hpath, p, -, hpointed, hchunks⟩)
    · exact hraised.ran hknows hpath fun _ => hlisted
    · obtain hfault | ⟨hpath, hstop⟩ := hcause
      · refine ran_of_kept hkept fun points rows hemits => ?_
        cases hemits with
        | full p path prepared due => exact hfault (due.listed (.inr hmode))
        | reembedded p mode path restored due => exact hfault (due.listed (.inr hmode))
      · exact ran_of_kept hkept (hstopped hpath hstop)
    · refine hpointed.ran hknows hmode hpath fun ref => ?_
      rw [hchunks]
      exact optionRel_refl SameRow.refl _

/-- In every mode, and whatever fails, a run changes the stores just by what it emits. -/
theorem ensures_runWithExistingJob_ran :
    Ensures (svc.runWithExistingJob request jobId piiConfig) s
      (fun _ => Ran svc request piiConfig jobId s) fun _ => Ran svc request piiConfig jobId s := by
  by_cases hknows : Knows s.jobs jobId
  · refine ensures_runWithExistingJob_of (fun hmode => ?_) (ensures_reindexParserOnly_ran hknows)
      (ensures_reindexEmbeddingOnly_ran hknows) ?_
    · exact ensures_indexFull_ran hknows (IndexingService.takesFull_of_full hmode _)
        fun h => absurd h (not_listing_of_full hmode)
    · intro e s' h
      rw [updateJob, ensures_bind, ensures_get, ensures_bind, ensures_ofExcept]
      exact ⟨fun j _ => h.of_jobs j, fun _ _ => h⟩
  · refine (ensures_runWithExistingJob_of_not_knows hknows).mono (fun _ _ h => h.elim) ?_
    rintro _ _ rfl
    refine .inr ⟨fun points rows hemits => ?_, effect_of_relabels (Relabels.refl _)⟩
    cases hemits with
    | full p path prepared due => exact hknows due.knows
    | reembedded p mode path restored due => exact hknows due.knows

section Journal

variable (svc request piiConfig jobId s) in
/-- The journal has what a run emits, if it emits anything. -/
def Noted (journal : WriteJournal) : Prop :=
  Emits svc request piiConfig jobId s journal.points journal.rows ∨
    (∀ points rows, ¬ Emits svc request piiConfig jobId s points rows) ∧ journal = {}

/-- The stores have changed by what the journal has, up to the updates of stored chunks. -/
theorem Noted.effect {journal : WriteJournal} (h : Noted svc request piiConfig jobId s journal)
    (hran : Ran svc request piiConfig jobId s s') :
    Effect svc request s s' journal.points journal.rows := by
  obtain ⟨points, rows, hemits, heffect⟩ | ⟨hnone, heffect⟩ := hran
  · obtain hnoted | ⟨hnone, -⟩ := h
    · obtain ⟨hpoints, hrows⟩ := hemits.unique hnoted
      rw [hpoints, hrows]
      exact heffect
    · exact absurd hemits (hnone points rows)
  · obtain hnoted | ⟨-, rfl⟩ := h
    · exact absurd hnoted (hnone _ _)
    · exact heffect

theorem Emits.of_jobs {j : JobRepository} {points : List Point} {rows : Option (List ChunkRecord)}
    (h : Emits svc request piiConfig jobId ⟨s.vectors, s.documents, s.chunks, j⟩ points rows)
    (hknows : Knows s.jobs jobId) : Emits svc request piiConfig jobId s points rows := by
  cases h with
  | full p path prepared due =>
    exact .full p path prepared ⟨hknows, due.listed, due.below, due.upsert⟩
  | reembedded p mode path restored due =>
    exact .reembedded p mode path restored ⟨hknows, due.listed, due.below, due.upsert⟩

theorem Noted.of_jobs {j : JobRepository} {journal : WriteJournal}
    (h : Noted svc request piiConfig jobId ⟨s.vectors, s.documents, s.chunks, j⟩ journal)
    (hj : Knows j jobId) (hknows : Knows s.jobs jobId) :
    Noted svc request piiConfig jobId s journal := by
  refine h.imp (fun hemits => hemits.of_jobs hknows) fun ⟨hnone, hempty⟩ => ⟨?_, hempty⟩
  intro points rows hemits
  have hback : Emits svc request piiConfig jobId ⟨s.vectors, s.documents, s.chunks, j⟩ points rows :=
    Emits.of_jobs (s := ⟨s.vectors, s.documents, s.chunks, j⟩) (j := s.jobs) hemits hj
  exact hnone points rows hback

/-- The rows of a full run are noted when both of its writes have gone through. -/
theorem ensures_writeNoted {p : Prepared} {v : VectorStore} {d : DocumentRepository}
    {c : ChunkRepository} {j : JobRepository} {journal : WriteJournal}
    {Q : Unit → Stores × WriteJournal → Prop} {R : Exc → Stores × WriteJournal → Prop}
    (hraised : ∀ e s', rowsDue svc request p = none → R e (s', journal))
    (hwritten : ∀ d' c', rowsDue svc request p = some (svc.records request p) →
      Q () (⟨v, d', c', j⟩, { journal with rows := some (svc.records request p) })) :
    Ensures (svc.writeNoted request (svc.records request p)) (⟨v, d, c, j⟩, journal) Q R := by
  rw [IndexingService.writeNoted, ensures_noting, IndexingService.writeChunksAndDocument,
    ensures_bind, ensures_failing]
  refine ⟨fun e he => hraised e _ (if_neg ?_), fun hdocument => ?_⟩
  · simp only [he, Option.isNone_some, Bool.false_and, Bool.false_eq_true, not_false_eq_true]
  rw [ensures_modify, ensures_failing]
  refine ⟨fun e he => hraised e _ (if_neg ?_), fun hrows => ?_⟩
  · simp only [he, Option.isNone_some, Bool.and_false, Bool.false_eq_true, not_false_eq_true]
  rw [ensures_modify]
  refine hwritten _ _ ?_
  rw [rowsDue, hdocument, hrows]
  rfl

theorem noted_of_full (hknows : Knows s.jobs jobId) (hpath : svc.takesFull request s.chunks = true)
    (hlisted : request.mode = .parserOnly ∨ request.mode = .embeddingOnly →
      svc.faults.listByDoc = none) :
    Ensures (svc.indexFullNoted request jobId piiConfig) (s, {})
      (fun _ p => Noted svc request piiConfig jobId s p.2)
      fun _ p => Noted svc request piiConfig jobId s p.2 := by
  obtain ⟨v, d, c, j⟩ := s
  have hunprepared (hp : ∀ p, svc.prepare request piiConfig ≠ .ok p) :
      Noted svc request piiConfig jobId ⟨v, d, c, j⟩ {} :=
    .inr ⟨not_emits_of_full hpath fun p hprepared => absurd hprepared (hp p), rfl⟩
  rw [IndexingService.indexFullNoted, ensures_bind, ensures_quietly]
  refine ensures_updateJob rfl hknows fun j₁ hj₁ => ?_
  rw [ensures_bind, ensures_quietly, ensures_ofExcept]
  refine ⟨fun pages hpages => ?_, fun e he => hunprepared fun p hp => ?_⟩
  swap
  · obtain ⟨_, _, _, hparse, -⟩ := prepare_eq_ok_iff.mp hp
    cases he.symm.trans hparse
  rw [ensures_bind, ensures_quietly]
  refine ensures_updateJob rfl hj₁ fun j₂ hj₂ => ?_
  rw [ensures_bind, ensures_quietly, ensures_ofExcept]
  refine ⟨fun chunks hchunks => ?_, fun e he => hunprepared fun p hp => ?_⟩
  swap
  · obtain ⟨_, _, _, hparse, hchunk, -⟩ := prepare_eq_ok_iff.mp hp
    cases hpages.symm.trans hparse
    cases he.symm.trans hchunk
  rw [ensures_bind, ensures_quietly, ensures_ofExcept]
  refine ⟨fun warnings hwarnings => ?_, fun e he => hunprepared fun p hp => ?_⟩
  swap
  · obtain ⟨_, _, _, hparse, hchunk, hscan, -⟩ := prepare_eq_ok_iff.mp hp
    cases hpages.symm.trans hparse
    cases hchunks.symm.trans hchunk
    cases he.symm.trans hscan
  rw [ensures_bind, ensures_quietly]
  refine ensures_updateJob rfl hj₂ fun j₃ hj₃ => ?_
  rw [ensures_bind, ensures_quietly]
  refine ensures_updateJob rfl hj₃ fun j₄ hj₄ => ?_
  have hprepared : svc.prepare request piiConfig =
      .ok ⟨chunks, warnings, svc.embedSafely chunks⟩ :=
    prepare_eq_ok_iff.mpr ⟨pages, chunks, warnings, hpages, hchunks, hwarnings, rfl⟩
  refine ensures_ite.mpr ⟨fun hover => ?_, fun hbelow => ?_⟩
  · rw [ensures_quietly]
    refine ensures_failRun hj₄ fun r j' hr hj' => .inr ⟨?_, rfl⟩
    refine not_emits_of_full hpath fun p hp hbelow => ?_
    cases hprepared.symm.trans hp
    cases hover.symm.trans hbelow
  rw [Bool.not_eq_true] at hbelow
  rw [ensures_bind, IndexingService.upsertNoted, ensures_noting]
  refine ensures_upsertToQdrant (fun _ hcan => .inr ⟨?_, rfl⟩) fun v' hcan hv' => ?_
  · refine not_emits_of_full hpath fun p hp _ => ?_
    cases hprepared.symm.trans hp
    exact hcan
  have hemits : Emits svc request piiConfig jobId ⟨v, d, c, j⟩
      (svc.points request ⟨chunks, warnings, svc.embedSafely chunks⟩)
      (rowsDue svc request ⟨chunks, warnings, svc.embedSafely chunks⟩) :=
    .full _ hpath hprepared ⟨hknows, hlisted, hbelow, hcan⟩
  rw [ensures_bind]
  refine ensures_writeNoted (p := ⟨chunks, warnings, svc.embedSafely chunks⟩)
    (fun e s' hdue => ?_) fun d' c' hdue => ?_
  · rw [hdue] at hemits
    exact .inl hemits
  · rw [hdue] at hemits
    rw [ensures_quietly]
    exact ensures_finishRun hj₄ fun r j' hr hj' => .inl hemits

theorem noted_of_parserOnly (hknows : Knows s.jobs jobId) (hmode : request.mode = .parserOnly) :
    Ensures (svc.reindexParserOnlyNoted request jobId piiConfig) (s, {})
      (fun _ p => Noted svc request piiConfig jobId s p.2)
      fun _ p => Noted svc request piiConfig jobId s p.2 := by
  obtain ⟨v, d, c, j⟩ := s
  have hpath : svc.takesFull request c =
      (c.listByDoc request.doc (some svc.parserVersion)).isEmpty := by
    rw [IndexingService.takesFull, hmode]
  have hstored (hfalse : svc.takesFull request c = false) :
      Noted svc request piiConfig jobId ⟨v, d, c, j⟩ {} := by
    refine .inr ⟨fun points rows hemits => ?_, rfl⟩
    cases hemits with
    | full p path prepared due => cases hfalse.symm.trans path
    | reembedded p mode path restored due => cases hmode.symm.trans mode
  rw [IndexingService.reindexParserOnlyNoted, ensures_bind, ensures_quietly]
  refine ensures_updateJob rfl hknows fun j₁ hj₁ => ?_
  rw [ensures_bind, ensures_quietly, ensures_ofExcept]
  refine ⟨fun pages _ => ?_, fun e he => .inr ⟨fun points rows hemits => ?_, rfl⟩⟩
  swap
  · cases hemits with
    | full p path prepared due =>
      obtain ⟨_, _, _, hparse, -⟩ := prepare_eq_ok_iff.mp prepared
      cases he.symm.trans hparse
    | reembedded p mode path restored due => cases hmode.symm.trans mode
  rw [ensures_bind, ensures_quietly, listByDoc, ensures_failing]
  refine ⟨fun e he => .inr ⟨fun points rows hemits => ?_, rfl⟩, fun hlisted => ?_⟩
  · have hdue : svc.faults.listByDoc = none := by
      cases hemits with
      | full p path prepared due => exact due.listed (.inl hmode)
      | reembedded p mode path restored due => exact due.listed (.inl hmode)
    cases he.symm.trans hdue
  refine ensures_ite.mpr ⟨fun hempty => ?_, fun hrows => ?_⟩
  · have hfull : Ensures (svc.indexFullNoted request jobId piiConfig) (⟨v, d, c, j₁⟩, {})
        (fun _ p => Noted svc request piiConfig jobId ⟨v, d, c, j₁⟩ p.2)
        fun _ p => Noted svc request piiConfig jobId ⟨v, d, c, j₁⟩ p.2 :=
      noted_of_full hj₁ (hpath.trans hempty) fun _ => hlisted
    exact hfull.mono (fun _ _ h => h.of_jobs hj₁ hknows) fun _ _ h => h.of_jobs hj₁ hknows
  · have hnoted := hstored (hpath.trans (Bool.eq_false_iff.mpr hrows))
    rw [ensures_bind, ensures_quietly]
    refine ensures_updateJob rfl hj₁ fun j₂ hj₂ => ?_
    rw [ensures_bind, ensures_quietly]
    refine (ensures_true _ _).mono (fun _ s' _ => ?_) fun _ _ _ => hnoted
    rw [ensures_bind, ensures_quietly]
    exact (ensures_true _ _).mono (fun _ _ _ => hnoted) fun _ _ _ => hnoted

theorem noted_of_embeddingOnly (hknows : Knows s.jobs jobId)
    (hmode : request.mode = .embeddingOnly) :
    Ensures (svc.reindexEmbeddingOnlyNoted request jobId piiConfig) (s, {})
      (fun _ p => Noted svc request piiConfig jobId s p.2)
      fun _ p => Noted svc request piiConfig jobId s p.2 := by
  obtain ⟨v, d, c, j⟩ := s
  have hpath : svc.takesFull request c = (c.listByDoc request.doc none).isEmpty := by
    rw [IndexingService.takesFull, hmode]
  rw [IndexingService.reindexEmbeddingOnlyNoted, ensures_bind, ensures_quietly, listByDoc,
    ensures_failing]
  refine ⟨fun e he => .inr ⟨fun points rows hemits => ?_, rfl⟩, fun hlisted => ?_⟩
  · have hdue : svc.faults.listByDoc = none := by
      cases hemits with
      | full p path prepared due => exact due.listed (.inr hmode)
      | reembedded p mode path restored due => exact due.listed (.inr hmode)
    cases he.symm.trans hdue
  refine ensures_ite.mpr ⟨fun hempty => ?_, fun hrows => ?_⟩
  · exact noted_of_full hknows (hpath.trans hempty) fun _ => hlisted
  have hfalse : svc.takesFull request c = false := hpath.trans (Bool.eq_false_iff.mpr hrows)
  have hnothing (h : ∀ p, svc.restore (c.listByDoc request.doc none) = .ok p →
      svc.overThreshold (IndexingService.failureRate p.chunks p.embed.failed) = false →
      ¬ svc.CanUpsert v request.domainId (svc.points request p)) :
      Noted svc request piiConfig jobId ⟨v, d, c, j⟩ {} := by
    refine .inr ⟨fun points rows hemits => ?_, rfl⟩
    cases hemits with
    | full p path prepared due => cases hfalse.symm.trans path
    | reembedded p mode path restored due => exact h p restored due.below due.upsert
  rw [ensures_bind, ensures_quietly, ensures_ofExcept]
  refine ⟨fun chunks hchunks => ?_, fun e he => hnothing fun p hp => ?_⟩
  swap
  · obtain ⟨_, _, hread, -⟩ := restore_eq_ok_iff.mp hp
    cases he.symm.trans hread
  rw [ensures_bind, ensures_quietly, ensures_ofExcept]
  refine ⟨fun warnings hwarnings => ?_, fun e he => hnothing fun p hp => ?_⟩
  swap
  · obtain ⟨_, _, _, hread, -⟩ := restore_eq_ok_iff.mp hp
    cases he.symm.trans hread
  have hrestored : svc.restore (c.listByDoc request.doc none) =
      .ok ⟨chunks, warnings, svc.embedSafely chunks⟩ :=
    restore_eq_ok_iff.mpr ⟨chunks, warnings, hchunks, hwarnings, rfl⟩
  rw [ensures_bind, ensures_quietly]
  refine ensures_updateJob rfl hknows fun j₁ hj₁ => ?_
  refine ensures_ite.mpr ⟨fun hover => ?_, fun hbelow => ?_⟩
  · rw [ensures_quietly]
    refine ensures_failRun hj₁ fun r j' hr hj' => hnothing fun p hp hbelow => ?_
    cases hrestored.symm.trans hp
    cases hover.symm.trans hbelow
  rw [Bool.not_eq_true] at hbelow
  rw [ensures_bind, IndexingService.upsertNoted, ensures_noting]
  refine ensures_upsertToQdrant (fun _ hcan => hnothing fun p hp _ => ?_) fun v' hcan hv' => ?_
  · cases hrestored.symm.trans hp
    exact hcan
  have hnoted : Noted svc request piiConfig jobId ⟨v, d, c, j⟩
      ⟨svc.points request ⟨chunks, warnings, svc.embedSafely chunks⟩, none⟩ :=
    .inl (.reembedded _ hmode hfalse hrestored ⟨hknows, fun _ => hlisted, hbelow, hcan⟩)
  rw [ensures_bind, ensures_quietly]
  refine (ensures_true _ _).mono (fun _ s' _ => ?_) fun _ _ _ => hnoted
  rw [ensures_quietly]
  exact (ensures_true _ _).mono (fun _ _ _ => hnoted) fun _ _ _ => hnoted

/-- A run of a job that is not in the table stops at its first update. -/
theorem journal_of_not_knows (hknows : ¬ Knows s.jobs jobId) :
    Ensures (svc.runNoted request jobId piiConfig) (s, {}) (fun _ p => p.2 = {})
      fun _ p => p.2 = {} := by
  obtain ⟨v, d, c, j⟩ := s
  have hfull : Ensures (svc.indexFullNoted request jobId piiConfig) (⟨v, d, c, j⟩, {})
      (fun _ p => p.2 = {}) fun _ p => p.2 = {} := by
    rw [IndexingService.indexFullNoted, ensures_bind, ensures_quietly]
    exact ensures_updateJob_of_not_knows hknows fun _ => rfl
  rw [IndexingService.runNoted, ensures_tryCatch]
  refine Ensures.mono (Q := fun _ p => p.2 = {}) (R := fun _ p => p.2 = {}) ?_ (fun _ _ h => h) ?_
  · cases request.mode with
    | embeddingOnly =>
      show Ensures (svc.reindexEmbeddingOnlyNoted request jobId piiConfig) _ _ _
      rw [IndexingService.reindexEmbeddingOnlyNoted, ensures_bind, ensures_quietly, listByDoc,
        ensures_failing]
      refine ⟨fun _ _ => rfl, fun _ => ensures_ite.mpr ⟨fun _ => hfull, fun _ => ?_⟩⟩
      rw [ensures_bind, ensures_quietly, ensures_ofExcept]
      refine ⟨fun chunks _ => ?_, fun _ _ => rfl⟩
      rw [ensures_bind, ensures_quietly, ensures_ofExcept]
      refine ⟨fun warnings _ => ?_, fun _ _ => rfl⟩
      rw [ensures_bind, ensures_quietly]
      exact ensures_updateJob_of_not_knows hknows fun _ => rfl
    | parserOnly =>
      show Ensures (svc.reindexParserOnlyNoted request jobId piiConfig) _ _ _
      rw [IndexingService.reindexParserOnlyNoted, ensures_bind, ensures_quietly]
      exact ensures_updateJob_of_not_knows hknows fun _ => rfl
    | full => exact hfull
    | chunkReSplit => exact hfull
  · rintro e ⟨s', journal⟩ h
    rw [ensures_bind, ensures_quietly]
    exact (ensures_true _ _).mono (fun _ _ _ => h) fun _ _ _ => h

/-- In every mode, and whatever fails, the journal of a run has what it emits. -/
theorem noted_run : Ensures (svc.runNoted request jobId piiConfig) (s, {})
    (fun _ p => Noted svc request piiConfig jobId s p.2)
    fun _ p => Noted svc request piiConfig jobId s p.2 := by
  by_cases hknows : Knows s.jobs jobId
  · rw [IndexingService.runNoted, ensures_tryCatch]
    refine Ensures.mono (Q := fun _ p => Noted svc request piiConfig jobId s p.2)
      (R := fun _ p => Noted svc request piiConfig jobId s p.2) ?_ (fun _ _ h => h) ?_
    · cases hmode : request.mode with
      | embeddingOnly => exact noted_of_embeddingOnly hknows hmode
      | parserOnly => exact noted_of_parserOnly hknows hmode
      | full =>
        exact noted_of_full hknows (IndexingService.takesFull_of_full (.inl hmode) _)
          fun h => absurd h (not_listing_of_full (.inl hmode))
      | chunkReSplit =>
        exact noted_of_full hknows (IndexingService.takesFull_of_full (.inr hmode) _)
          fun h => absurd h (not_listing_of_full (.inr hmode))
    · rintro e ⟨s', journal⟩ h
      rw [ensures_bind, ensures_quietly]
      exact (ensures_true _ _).mono (fun _ _ _ => h) fun _ _ _ => h
  · have hnone : ∀ points rows, ¬ Emits svc request piiConfig jobId s points rows := by
      intro points rows hemits
      cases hemits with
      | full p path prepared due => exact hknows due.knows
      | reembedded p mode path restored due => exact hknows due.knows
    exact (journal_of_not_knows hknows).mono (fun _ _ h => .inr ⟨hnone, h⟩)
      fun _ _ h => .inr ⟨hnone, h⟩

end Journal

section Written

variable {points : List Point} {rows : Option (List ChunkRecord)}

/-- The stores change in a run just by what its journal has, up to the updates of chunks that are
stored already. -/
theorem run_accounted : Ensures (svc.runNoted request jobId piiConfig) (s, {})
    (fun _ p => Effect svc request s p.1 p.2.points p.2.rows)
    fun _ p => Effect svc request s p.1 p.2.points p.2.rows := by
  have hrun : Ensures (svc.runWithExistingJob request jobId piiConfig) s
      (fun _ => Ran svc request piiConfig jobId s) fun _ => Ran svc request piiConfig jobId s :=
    ensures_runWithExistingJob_ran
  have hran := IndexingService.runNoted_erases.ensures (j := {}) hrun
  exact (noted_run.and hran).mono (fun _ _ h => h.1.effect h.2) fun _ _ h => h.1.effect h.2

theorem exists_emits {p : Prepared} (h : WorksOn svc request piiConfig s p)
    (hdue : Due svc request jobId s p) :
    ∃ rows, Emits svc request piiConfig jobId s (svc.points request p) rows := by
  cases h with
  | parsed path prepared => exact ⟨_, .full p path prepared hdue⟩
  | stored mode path restored => exact ⟨_, .reembedded p mode path restored hdue⟩

theorem Emits.exists_prepared (h : Emits svc request piiConfig jobId s points rows) :
    ∃ p, WorksOn svc request piiConfig s p ∧ Due svc request jobId s p ∧
      points = svc.points request p ∧ ∀ rs, rows = some rs → rs = svc.records request p := by
  cases h with
  | full p path prepared due =>
    refine ⟨p, .parsed path prepared, due, rfl, fun rs hrs => ?_⟩
    rw [rowsDue] at hrs
    split at hrs
    · exact (Option.some.inj hrs).symm
    · cases hrs
  | reembedded p mode path restored due =>
    exact ⟨p, .stored mode path restored, due, rfl, fun _ hrs => nomatch hrs⟩

theorem mem_points_iff {p : Prepared} {point : Point} : point ∈ svc.points request p ↔
    ∃ c ∈ p.chunks, ∃ v, p.embed.vectors.get? c.chunkId = some v ∧
      point = ⟨c.chunkId, v.dense, v.sparse,
        svc.payload request ((p.warnings.get? c.chunkId).getD {}) c⟩ := by
  rw [IndexingService.points, IndexingService.buildPoints, List.mem_filterMap]
  refine exists_congr fun c => and_congr_right fun _ => ?_
  rw [Option.map_eq_some_iff]
  exact exists_congr fun v => and_congr_right fun _ => eq_comm

theorem blocksPoint_iff {warning : ChunkPIIWarning} {c : Chunk} {v : Embedding} :
    svc.BlocksPoint piiConfig ⟨c.chunkId, v.dense, v.sparse, svc.payload request warning c⟩ ↔
      svc.Blocks piiConfig c.content := by
  have hcontent : (svc.payload request warning c).get? "content" = some (.str c.content) := rfl
  rw [IndexingService.BlocksPoint, hcontent]
  constructor
  · rintro ⟨text, htext, hblocks⟩
    cases htext
    exact hblocks
  · exact fun hblocks => ⟨_, rfl, hblocks⟩

/-- What it takes for emitted points and rows to hold no blocked chunk. -/
theorem Emits.spared_iff (h : Emits svc request piiConfig jobId s points rows) :
    ((∀ point ∈ points, ¬ svc.BlocksPoint piiConfig point) ∧
        ∀ rs, rows = some rs → ∀ row ∈ rs, ¬ svc.Blocks piiConfig row.content) ↔
      ∀ p, WorksOn svc request piiConfig s p → Due svc request jobId s p →
        ∀ c ∈ p.chunks, (p.embed.vectors.get? c.chunkId).isSome →
          ¬ svc.Blocks piiConfig c.content := by
  constructor
  · rintro ⟨hpoints, -⟩ p hworks hdue c hc hvector hblocks
    obtain ⟨rows', hemits⟩ := exists_emits hworks hdue
    obtain ⟨rfl, -⟩ := h.unique hemits
    obtain ⟨v, hv⟩ := Option.isSome_iff_exists.mp hvector
    exact hpoints _ (mem_points_iff.mpr ⟨c, hc, v, hv, rfl⟩) (blocksPoint_iff.mpr hblocks)
  · intro hchunks
    obtain ⟨p, hworks, hdue, rfl, hrows⟩ := h.exists_prepared
    have hspared := hchunks p hworks hdue
    constructor
    · intro point hpoint
      obtain ⟨c, hc, v, hv, rfl⟩ := mem_points_iff.mp hpoint
      exact fun hblocks => hspared c hc (by rw [hv]; rfl) (blocksPoint_iff.mp hblocks)
    · intro rs hrs row hrow
      rw [hrows rs hrs, IndexingService.records, IndexingService.buildRecords,
        List.mem_filterMap] at hrow
      obtain ⟨c, hc, hrow⟩ := hrow
      obtain ⟨v, hv, rfl⟩ := Option.map_eq_some_iff.mp hrow
      exact hspared c hc (by rw [hv]; rfl)

theorem Noted.spared_iff {journal : WriteJournal}
    (h : Noted svc request piiConfig jobId s journal) :
    ((∀ point ∈ journal.points, ¬ svc.BlocksPoint piiConfig point) ∧
        ∀ rs, journal.rows = some rs → ∀ row ∈ rs, ¬ svc.Blocks piiConfig row.content) ↔
      ∀ p, WorksOn svc request piiConfig s p → Due svc request jobId s p →
        ∀ c ∈ p.chunks, (p.embed.vectors.get? c.chunkId).isSome →
          ¬ svc.Blocks piiConfig c.content := by
  obtain hemits | ⟨hnone, rfl⟩ := h
  · exact hemits.spared_iff
  · refine iff_of_true ⟨nofun, nofun⟩ fun p hworks hdue => ?_
    obtain ⟨rows, hemits⟩ := exists_emits hworks hdue
    exact absurd hemits (hnone _ rows)

end Written

end Runs

/-- A run writes no blocked chunk exactly when none of the chunks that it works on, gets to write
and has an embedding of is blocked. -/
theorem blocked_chunks_spared_iff (svc : IndexingService) (pii : Pii.PIIService)
    (repr : Value → String) (request : IndexingRequest) (piiConfig : Value) (jobId : String)
    (s : Stores) :
    (svc.scanning pii repr).SparesBlocked request piiConfig jobId s ↔
      ∀ p, WorksOn (svc.scanning pii repr) request piiConfig s p →
        Due (svc.scanning pii repr) request jobId s p →
        ∀ c ∈ p.chunks, (p.embed.vectors.get? c.chunkId).isSome →
          ¬ (svc.scanning pii repr).Blocks piiConfig c.content := by
  have hnoted : Ensures ((svc.scanning pii repr).runNoted request jobId piiConfig) (s, {})
      (fun _ p => Noted (svc.scanning pii repr) request piiConfig jobId s p.2)
      fun _ p => Noted (svc.scanning pii repr) request piiConfig jobId s p.2 := noted_run
  exact (Ensures.final hnoted).spared_iff

section Registration

def rrnText : String := "900101-1234567"

/-- What the rule for resident registration numbers finds in `rrnText`. -/
def rrnService : Pii.PIIService where
  rules :=
    [{ category := "rrn", severity := "high", maskTemplate := "******-*******",
       pattern := .once rrnText 0 14 (by decide) }]
  lower := id

def blockingConfig : Value :=
  .dict [("indexing", .dict [("on_pii_found_in_chunk", .dict [("block_indexing", .bool true)])])]

def onePage : IndexingService where
  parserVersion := "p1"
  parse := fun _ => .ok [⟨1, rrnText, none, none⟩]
  chunkStrategy := "page"
  chunk := fun _ _ _ pages => .ok (pages.map fun page =>
    { chunkId := "HR-1_v1_p1_0000", chunkIndex := 0, content := page.text, pageNumber := .int 1,
      sectionTitle := .null, headingPath := [], startChar := 0, endChar := 14, tokenCount := 1 })
  modelName := "bge-m3"
  denseDim := 1
  embedBatch := fun texts => .ok (texts.map fun _ => ⟨[1], .empty⟩)
  checkChunkPii := fun _ _ => .ok {}
  sha256 := id
  formatRate := fun _ => ""
  formatFloat := fun _ => ""
  failureThreshold := 3 / 10
  faults := {}

def staffFile : IndexingRequest where
  domainId := "hr"
  docId := "HR-1"
  docVersion := "v1"
  filePath := .str "staff.txt"
  title := .str "staff"

def emptyStores : Stores where
  vectors := ⟨.ofList [("hr", ⟨1, true, .empty⟩)]⟩
  documents := ⟨.empty⟩
  chunks := ⟨.empty, .empty⟩
  jobs := ⟨.ofList [("J1", { jobId := "J1", domainId := "hr", docId := "HR-1", docVersion := "v1" })]⟩

/-- A text with a registration number is blocked and indexed all the same. -/
theorem registration_number_is_indexed :
    (onePage.scanning rrnService Value.typeName).Blocks blockingConfig rrnText ∧
      ¬ (onePage.scanning rrnService Value.typeName).SparesBlocked staffFile blockingConfig "J1"
        emptyStores := by
  have hblocks : (onePage.scanning rrnService Value.typeName).Blocks blockingConfig rrnText :=
    exists_ok_of_any (by decide +kernel)
  refine ⟨hblocks, fun hspares => ?_⟩
  have hindexed : (((onePage.scanning rrnService Value.typeName).runNoted staffFile "J1"
      blockingConfig).final (emptyStores, {})).2.points.any
        (fun p => ((p.payload.get? "content").getD .null).eq (.str rrnText)) = true := by
    decide +kernel
  obtain ⟨p, hp, hcontent⟩ := List.any_eq_true.mp hindexed
  rw [Value.eq_str_iff] at hcontent
  refine hspares.1 p hp ⟨rrnText, ?_, hblocks⟩
  cases hget : p.payload.get? "content" with
  | none =>
    rw [hget] at hcontent
    cases hcontent
  | some v =>
    rw [hget] at hcontent
    exact congrArg some hcontent

end Registration

end DomainRag.Indexing
