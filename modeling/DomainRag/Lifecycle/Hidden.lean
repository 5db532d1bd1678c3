import DomainRag.Acl.Visibility
import DomainRag.Indexing.Consistency
import DomainRag.Lifecycle.Archival
import DomainRag.Retrieval.Soundness

/-! # Archived chunks stay hidden

Archival is recorded twice, in the row and in the payload, and only the payload keeps a chunk out
of search. The two agree over runs in which every due payload is marked and no run writes the
point of an archived row anew.
-/

namespace DomainRag.Lifecycle

open Store Indexing Program

def Marked (p : Point) : Prop := p.payload.get? "archived" = some (.bool true)

/-- Every row with an archival time has a point that is marked, and no query that excludes
archived chunks returns it. -/
structure ArchivedHidden (s : Stores) (domainId : String) : Prop where
  marked : ∀ key row, key.domainId = domainId → row ∈ s.chunks.rows key →
    row.archivedAt.isSome → ∃ p, s.vectors.point? domainId row.chunkId = some p ∧ Marked p
  notServed : ∀ key row, key.domainId = domainId → row ∈ s.chunks.rows key →
    row.archivedAt.isSome → ∀ sqrt query user today topK hits,
      Retrieval.hybridQuery sqrt s.vectors domainId query
        (some (Acl.buildQdrantAclFilter user today true)) topK = .ok hits →
      ∀ hit ∈ hits, hit.id ≠ row.chunkId

/-- The rows with an archival time are marked, every row has a point, and every point lies under
its own id. -/
structure Hiding (s : Stores) : Prop where
  marked : ∀ key row, row ∈ s.chunks.rows key → row.archivedAt.isSome →
    ∃ p, s.vectors.point? key.domainId row.chunkId = some p ∧ Marked p
  backed : ∀ key row, row ∈ s.chunks.rows key →
    ∃ p, s.vectors.point? key.domainId row.chunkId = some p
  keyed : s.vectors.WellKeyed

section Queries

variable {s : Stores} {domainId : String}

theorem not_admitted_of_marked {p : Point} (hmarked : Marked p) (user : Acl.User)
    (today : Option Date) :
    Acl.payloadMatch p.payload (some (Acl.buildQdrantAclFilter user today true)) ≠ .ok true := by
  intro h
  have hfield : Acl.field p.payload "archived" = .bool true := by rw [Acl.field, hmarked]; rfl
  have hnot : Acl.anyMatch p.payload (Acl.buildQdrantAclFilter user today true).mustNot =
      .ok true := by
    have hmustNot : (Acl.buildQdrantAclFilter user today true).mustNot =
        [.matchValue "archived" (.bool true)] := rfl
    rw [hmustNot, Acl.anyMatch, Acl.conditionMatch, hfield]
    rfl
  rw [Acl.payloadMatch, hnot] at h
  cases hall : Acl.allMatch p.payload (Acl.buildQdrantAclFilter user today true).must with
  | error e =>
    rw [hall] at h
    cases h
  | ok b =>
    rw [hall] at h
    cases b <;> cases h

theorem Hiding.archivedHidden (h : Hiding s) (domainId : String) : ArchivedHidden s domainId where
  marked := by
    rintro key row rfl hrow harchived
    exact h.marked key row hrow harchived
  notServed := by
    rintro key row rfl hrow harchived sqrt query user today topK hits hhits hit hhit hid
    obtain ⟨p, hp, hmarked⟩ := h.marked key row hrow harchived
    obtain ⟨ordered, hordered, rfl⟩ := Retrieval.hybridQuery_ok hhits
    obtain ⟨q, hq, rfl⟩ := List.mem_map.mp hhit
    have hadmitted := hordered.mem_iff.mp (List.mem_of_mem_take hq)
    obtain ⟨hpoint, hmatch⟩ := Retrieval.mem_admittedPoints h.keyed hadmitted
    have hqid : q.id = row.chunkId := hid
    obtain rfl : q = p := Option.some.inj (hpoint.symm.trans (hqid ▸ hp))
    exact not_admitted_of_marked hmarked user today hmatch

end Queries

section Steps

variable {s s' : Stores}

theorem Marked.mergePayload (p : Point) : Marked (p.mergePayload ArchivalWorker.archivedPayload) :=
  (Dict.get?_update p.payload ArchivalWorker.archivedPayload "archived").trans rfl

/-- Setting the archived mark keeps every point under its id, and the marked ones marked. -/
theorem point?_of_payloadsSet {domainId : String} {ids : List String} {fault : Option Exc}
    (h : PayloadsSet s s' domainId ids ArchivalWorker.archivedPayload fault) {d id : String}
    {p : Point} (hp : s.vectors.point? d id = some p) :
    ∃ p', s'.vectors.point? d id = some p' ∧ (Marked p → Marked p') ∧
      (d = domainId → id ∈ ids → fault = none → Marked p') := by
  obtain hset | ⟨hsame, hwhy⟩ := h
  · have hpoint := VectorStore.point?_setPayload hset d id
    rw [hp] at hpoint
    by_cases hmem : d = domainId ∧ id ∈ ids
    · rw [if_pos hmem] at hpoint
      exact ⟨_, hpoint, fun _ => Marked.mergePayload p, fun _ _ _ => Marked.mergePayload p⟩
    · rw [if_neg hmem] at hpoint
      exact ⟨p, hpoint, fun hmarked => hmarked, fun hd hid => absurd ⟨hd, hid⟩ hmem⟩
  · refine ⟨p, hsame ▸ hp, fun hmarked => hmarked, ?_⟩
    rintro rfl hid hnone
    obtain rfl | hfault | hcoll := hwhy
    · exact absurd hid List.not_mem_nil
    · exact absurd hnone hfault
    · rw [VectorStore.point?, hcoll] at hp
      cases hp

theorem wellKeyed_of_payloadsSet {domainId : String} {ids : List String}
    {values : Dict String Value} {fault : Option Exc} (hs : s.vectors.WellKeyed)
    (h : PayloadsSet s s' domainId ids values fault) : s'.vectors.WellKeyed := by
  obtain hset | ⟨hsame, -⟩ := h
  · have hafter := hs.after (.setPayload domainId ids values)
    rw [VectorOp.after, hset] at hafter
    exact hafter
  · rw [hsame]
    exact hs

theorem Hiding.archived {worker : ArchivalWorker} {domainId : String} (h : Hiding s)
    (ha : worker.Archived domainId s s') (hfault : worker.setPayloadFault = none) : Hiding s' := by
  obtain ⟨ids, hpayloads, hrows⟩ := ha.marked
  refine ⟨?_, ?_, wellKeyed_of_payloadsSet h.keyed hpayloads⟩
  · intro key row' hrow' harchived
    obtain ⟨i, hi⟩ := ChunkRepository.mem_rows_iff.mp hrow'
    obtain hsame | ⟨hdomain, row, hrow, hid, hset⟩ := hrows ⟨key, i⟩
    · have hold := ChunkRepository.mem_rows_iff.mpr ⟨i, hsame.symm.trans hi⟩
      obtain ⟨p, hp, hmarked⟩ := h.marked key row' hold harchived
      obtain ⟨p', hp', hkeep, -⟩ := point?_of_payloadsSet hpayloads hp
      exact ⟨p', hp', hkeep hmarked⟩
    · obtain rfl : row' = { row with archivedAt := some worker.now } :=
        Option.some.inj (hi.symm.trans hset)
      obtain ⟨p, hp⟩ := h.backed key row (ChunkRepository.mem_rows_iff.mpr ⟨i, hrow⟩)
      obtain ⟨p', hp', -, hnew⟩ := point?_of_payloadsSet hpayloads hp
      exact ⟨p', hp', hnew hdomain hid hfault⟩
  · intro key row' hrow'
    obtain ⟨i, hi⟩ := ChunkRepository.mem_rows_iff.mp hrow'
    have hrow : ∃ row ∈ s.chunks.rows key, row.chunkId = row'.chunkId := by
      obtain hsame | ⟨-, row, hrow, -, hset⟩ := hrows ⟨key, i⟩
      · exact ⟨row', ChunkRepository.mem_rows_iff.mpr ⟨i, hsame.symm.trans hi⟩, rfl⟩
      · obtain rfl : row' = { row with archivedAt := some worker.now } :=
          Option.some.inj (hi.symm.trans hset)
        exact ⟨row, ChunkRepository.mem_rows_iff.mpr ⟨i, hrow⟩, rfl⟩
    obtain ⟨row, hold, hid⟩ := hrow
    obtain ⟨p, hp⟩ := h.backed key row hold
    obtain ⟨p', hp', -⟩ := point?_of_payloadsSet hpayloads hp
    exact ⟨p', hid ▸ hp'⟩

variable {names : List String}

theorem exists_row_of_relabels (h : Relabels names s s') {key : ChunkKey} {row' : ChunkRecord}
    (hrow' : row' ∈ s'.chunks.rows key) : ∃ row ∈ s.chunks.rows key, SameRow names row row' := by
  obtain ⟨i, hi⟩ := ChunkRepository.mem_rows_iff.mp hrow'
  have hrel := h.rows ⟨key, i⟩
  rw [hi] at hrel
  generalize hrow : s.chunks.row? ⟨key, i⟩ = o at hrel
  cases hrel with
  | some hsame => exact ⟨_, ChunkRepository.mem_rows_iff.mpr ⟨i, hrow⟩, hsame⟩

theorem exists_point_of_relabels (h : Relabels names s s') {d id : String} {p : Point}
    (hp : s.vectors.point? d id = some p) :
    ∃ p', s'.vectors.point? d id = some p' ∧ SamePoint names p p' := by
  have hrel := h.points d id
  rw [hp] at hrel
  generalize hp' : s'.vectors.point? d id = o at hrel
  cases hrel with
  | some hsame => exact ⟨_, rfl, hsame⟩

theorem archivedAt_of_sameRow {row row' : ChunkRecord} (h : SameRow names row row') :
    row'.archivedAt = row.archivedAt := by
  rw [h.identity]

theorem Hiding.relabels (h : Hiding s) (hs : Relabels names s s') (hnames : "archived" ∉ names) :
    Hiding s' where
  marked := by
    intro key row' hrow' harchived
    obtain ⟨row, hrow, hsame⟩ := exists_row_of_relabels hs hrow'
    rw [archivedAt_of_sameRow hsame] at harchived
    obtain ⟨p, hp, hmarked⟩ := h.marked key row hrow harchived
    obtain ⟨p', hp', hpoint⟩ := exists_point_of_relabels hs hp
    refine ⟨p', hsame.chunkId_eq ▸ hp', ?_⟩
    rw [Marked, hpoint.payload _ hnames]
    exact hmarked
  backed := by
    intro key row' hrow'
    obtain ⟨row, hrow, hsame⟩ := exists_row_of_relabels hs hrow'
    obtain ⟨p, hp⟩ := h.backed key row hrow
    obtain ⟨p', hp', -⟩ := exists_point_of_relabels hs hp
    exact ⟨p', hsame.chunkId_eq ▸ hp'⟩
  keyed := by
    intro d id p' hp'
    obtain ⟨p, hp, hsame⟩ := hs.point?_eq_some hp'
    rw [hsame.identity]
    exact h.keyed d id p hp

/-- A write of new points keeps a point under every id, and the points of other ids. -/
theorem exists_point_of_upserted {d : String} {points : List Point}
    (h : Upserted s.vectors s'.vectors d points) {d' id : String} {p : Point}
    (hp : s.vectors.point? d' id = some p) :
    ∃ p', s'.vectors.point? d' id = some p' ∧ (¬ (d' = d ∧ ∃ q ∈ points, q.id = id) → p' = p) := by
  obtain ⟨hd, q, hq, hid, hpoint⟩ | ⟨-, hpoint⟩ := h.cases d' id
  · exact ⟨q, hpoint, fun hnot => absurd ⟨hd, q, hq, hid⟩ hnot⟩
  · exact ⟨p, hpoint.trans hp, fun _ => rfl⟩

theorem wellKeyed_of_upserted {d : String} {points : List Point} (hs : s.vectors.WellKeyed)
    (h : Upserted s.vectors s'.vectors d points) : s'.vectors.WellKeyed := by
  intro d' id p hp
  obtain ⟨-, q, -, hid, hpoint⟩ | ⟨-, hpoint⟩ := h.cases d' id
  · obtain rfl : q = p := Option.some.inj (hpoint.symm.trans hp)
    exact hid
  · exact hs d' id p (hpoint.symm.trans hp)

/-- A full run writes no point under the id of an archived row that it keeps. -/
def SparesFull (svc : IndexingService) (request : IndexingRequest) (s : Stores) (p : Prepared) :
    Prop :=
  ∀ key row, row ∈ s.chunks.rows key → row.archivedAt.isSome → key.domainId = request.domainId →
    key ≠ ⟨request.doc, svc.parserVersion⟩ → row.chunkId ∉ embeddedIds p.chunks p.embed.vectors

/-- A run that computes the vectors again writes no point under the id of an archived row. -/
def SparesEmbedding (svc : IndexingService) (request : IndexingRequest) (s : Stores) : Prop :=
  ∀ chunks, (s.chunks.listByDoc request.doc none).mapM IndexingService.chunkOfRow = .ok chunks →
    ∀ key row, row ∈ s.chunks.rows key → row.archivedAt.isSome →
      key.domainId = request.domainId →
      row.chunkId ∉ embeddedIds chunks (svc.embedSafely chunks).vectors

section Runs

variable {svc : IndexingService} {request : IndexingRequest} {piiConfig : Value} {jobId : String}

theorem Hiding.written {p : Prepared} (h : Hiding s) (hw : Written svc request p jobId s s')
    (hspares : SparesFull svc request s p) : Hiding s' where
  marked := by
    intro key row hrow harchived
    rw [hw.rows, ChunkRepository.rows_replaceChunks] at hrow
    split at hrow
    · obtain ⟨c, -, hc⟩ := List.mem_filterMap.mp hrow
      obtain ⟨v, -, rfl⟩ := Option.map_eq_some_iff.mp hc
      exact absurd harchived Bool.false_ne_true
    · rename_i hkey
      obtain ⟨q, hq, hmarked⟩ := h.marked key row hrow harchived
      obtain ⟨q', hq', hsame⟩ := exists_point_of_upserted hw.points hq
      have hfresh : ¬ (key.domainId = request.domainId ∧
          ∃ q ∈ svc.points request p, q.id = row.chunkId) := by
        rintro ⟨hdomain, hid⟩
        exact hspares key row hrow harchived hdomain hkey (mem_buildPoints_ids.mp hid)
      exact ⟨q', hq', hsame hfresh ▸ hmarked⟩
  backed := by
    intro key row hrow
    rw [hw.rows, ChunkRepository.rows_replaceChunks] at hrow
    split at hrow
    · rename_i hkey
      subst hkey
      have hid : ∃ q ∈ svc.points request p, q.id = row.chunkId :=
        mem_buildPoints_ids.mpr (mem_buildRecords_ids.mp ⟨row, hrow, rfl⟩)
      obtain ⟨-, q, -, -, hpoint⟩ | ⟨hnot, -⟩ := hw.points.cases request.domainId row.chunkId
      · exact ⟨q, hpoint⟩
      · exact absurd ⟨rfl, hid⟩ hnot
    · obtain ⟨q, hq⟩ := h.backed key row hrow
      obtain ⟨q', hq', -⟩ := exists_point_of_upserted hw.points hq
      exact ⟨q', hq'⟩
  keyed := wellKeyed_of_upserted h.keyed hw.points

theorem Hiding.reembedded {r : IndexingResult} {chunks : List Chunk}
    {warnings : Dict String ChunkPIIWarning} (h : Hiding s)
    (hr : Reembedded svc request jobId s r s' chunks warnings)
    (hspares : SparesEmbedding svc request s) : Hiding s' := by
  obtain ⟨ids, hrows⟩ := hr.rows
  have hrow : ∀ key row', row' ∈ s'.chunks.rows key → ∃ row ∈ s.chunks.rows key,
      row.chunkId = row'.chunkId ∧ row.archivedAt = row'.archivedAt := by
    intro key row' hrow'
    rw [hrows] at hrow'
    obtain ⟨row, hold, rfl | rfl⟩ := ChunkRepository.exists_of_mem_rows_updateMetadata hrow'
    · exact ⟨_, hold, rfl, rfl⟩
    · exact ⟨row, hold, rfl, rfl⟩
  refine ⟨?_, ?_, wellKeyed_of_upserted h.keyed hr.points⟩
  · intro key row' hrow' harchived
    obtain ⟨row, hold, hid, htime⟩ := hrow key row' hrow'
    rw [← htime] at harchived
    obtain ⟨q, hq, hmarked⟩ := h.marked key row hold harchived
    obtain ⟨q', hq', hsame⟩ := exists_point_of_upserted hr.points hq
    have hfresh : ¬ (key.domainId = request.domainId ∧ ∃ q ∈ svc.buildPoints request chunks
        (svc.embedSafely chunks).vectors warnings, q.id = row.chunkId) := by
      rintro ⟨hdomain, hmem⟩
      exact hspares chunks hr.stored key row hold harchived hdomain (mem_buildPoints_ids.mp hmem)
    exact ⟨q', hid ▸ hq', hsame hfresh ▸ hmarked⟩
  · intro key row' hrow'
    obtain ⟨row, hold, hid, -⟩ := hrow key row' hrow'
    obtain ⟨q, hq⟩ := h.backed key row hold
    obtain ⟨q', hq', -⟩ := exists_point_of_upserted hr.points hq
    exact ⟨q', hid ▸ hq'⟩

/-- A run in any mode that spares the points of archived rows. -/
structure Spares (svc : IndexingService) (request : IndexingRequest) (piiConfig : Value)
    (s : Stores) : Prop where
  full : ∀ p, svc.ReachesWrites request piiConfig s p → SparesFull svc request s p
  embedding : request.mode = .embeddingOnly → svc.takesFull request s.chunks = false →
    SparesEmbedding svc request s

theorem archived_notMem_headingNames : "archived" ∉ headingNames := by decide

theorem Hiding.runOutcome {r : IndexingResult} (h : Hiding s)
    (hspares : Spares svc request piiConfig s)
    (hrun : RunOutcome svc request piiConfig jobId s r s') : Hiding s' := by
  cases hrun with
  | gaveUp _ kept => exact h.relabels kept.relabels archived_notMem_headingNames
  | full p path outcome =>
    exact h.written outcome.written
      (hspares.full p ⟨path, outcome.prepared, outcome.below, outcome.written.upsert⟩)
  | relabelled _ _ _ outcome => exact h.relabels outcome.relabels archived_notMem_headingNames
  | reembedded mode path chunks warnings outcome =>
    exact h.reembedded outcome (hspares.embedding mode path)

end Runs

end Steps

inductive LifecycleOp where
  | createCollection (domainId : String) (denseDim : Nat) (withSparse : Bool)
  | run (svc : IndexingService) (request : IndexingRequest) (jobId : String) (piiConfig : Value)
  | runWithExistingJob (svc : IndexingService) (request : IndexingRequest) (jobId : String)
      (piiConfig : Value)
  | archive (worker : ArchivalWorker) (domainId : String)

namespace LifecycleOp

def after (s : Stores) : LifecycleOp → Stores
  | .createCollection domainId denseDim withSparse =>
    (Indexing.createCollection domainId denseDim withSparse).final s
  | .run svc request jobId piiConfig => (svc.run request jobId piiConfig).final s
  | .runWithExistingJob svc request jobId piiConfig =>
    (svc.runWithExistingJob request jobId piiConfig).final s
  | .archive worker domainId => (worker.runForTenant domainId).final s

def TablesWork : LifecycleOp → Prop
  | .run svc _ _ _ | .runWithExistingJob svc _ _ _ => svc.faults.TablesWork
  | .createCollection _ _ _ | .archive _ _ => True

/-- An archival run whose payload write fails has nothing to archive, and an indexing run spares
the points of archived rows. -/
def Careful (s : Stores) : LifecycleOp → Prop
  | .createCollection _ _ _ => True
  | .run svc request _ piiConfig | .runWithExistingJob svc request _ piiConfig =>
    Spares svc request piiConfig s
  | .archive worker domainId => worker.setPayloadFault = none ∨ worker.Idle domainId s

/-- The last archival run of the domain, if there was one, had no failure of the vector store. -/
def lastArchivalClean (domainId : String) (ops : List LifecycleOp) : Bool :=
  ((ops.filterMap fun
    | .archive worker d => if d = domainId then some worker else none
    | _ => none).getLast?).all fun worker => worker.setPayloadFault.isNone

def reached (ops : List LifecycleOp) : Stores := ops.foldl after Stores.empty

end LifecycleOp

theorem hiding_empty : Hiding Stores.empty where
  marked _ _ hrow := absurd hrow List.not_mem_nil
  backed _ _ hrow := absurd hrow List.not_mem_nil
  keyed _ _ _ hp := by cases hp

theorem Hiding.created {s : Stores} (h : Hiding s) (domainId : String) (denseDim : Nat)
    (withSparse : Bool) : Hiding ((createCollection domainId denseDim withSparse).final s) := by
  refine Ensures.final ?_
  rw [createCollection, ensures_bind, ensures_get, ensures_bind, ensures_ofExcept]
  refine ⟨fun vs hvs => ?_, fun _ _ => h⟩
  have hpoint := VectorStore.point?_createCollection hvs
  refine ⟨?_, ?_, ?_⟩
  · intro key row hrow harchived
    obtain ⟨p, hp, hmarked⟩ := h.marked key row hrow harchived
    exact ⟨p, (hpoint _ _).trans hp, hmarked⟩
  · intro key row hrow
    obtain ⟨p, hp⟩ := h.backed key row hrow
    exact ⟨p, (hpoint _ _).trans hp⟩
  · intro d id p hp
    exact h.keyed d id p ((hpoint d id).symm.trans hp)

theorem Hiding.after {s : Stores} {op : LifecycleOp} (h : Hiding s) (hwork : op.TablesWork)
    (hcareful : op.Careful s) : Hiding (op.after s) := by
  cases op with
  | createCollection domainId denseDim withSparse => exact h.created domainId denseDim withSparse
  | run svc request jobId piiConfig =>
    refine Ensures.final ((ensures_run hwork).mono ?_ ?_)
    · intro _ _ hrun
      exact h.runOutcome hcareful hrun
    · intro _ _ hs
      exact h.relabels hs archived_notMem_headingNames
  | runWithExistingJob svc request jobId piiConfig =>
    by_cases hjob : Knows s.jobs jobId
    · refine Ensures.final ((ensures_runWithExistingJob hwork hjob).mono ?_ ?_)
      · intro _ _ hrun
        exact h.runOutcome hcareful hrun.1
      · intro _ _ hs
        exact h.relabels hs.1.relabels archived_notMem_headingNames
    · refine Ensures.final ((ensures_runWithExistingJob_of_not_knows hjob).mono ?_ ?_)
      · exact fun _ _ hfalse => hfalse.elim
      · rintro _ _ rfl
        exact h
  | archive worker domainId =>
    obtain hfault | hidle := hcareful
    · refine Ensures.final (ArchivalWorker.ensures_runForTenant.mono ?_ ?_)
      · intro _ _ ha
        exact h.archived ha hfault
      · intro _ _ ha
        exact h.archived ha hfault
    · refine Ensures.final ((ArchivalWorker.ensures_runForTenant_of_idle hidle).mono ?_ ?_)
      · rintro _ _ rfl
        exact h
      · rintro _ _ rfl
        exact h

/-- In every state that careful runs reach, every row with an archival time is marked in the
vector store and no query that excludes archived chunks returns it. -/
theorem archived_hidden_along_careful_runs (ops : List LifecycleOp)
    (hwork : ∀ op ∈ ops, op.TablesWork)
    (hcareful : Along LifecycleOp.after LifecycleOp.Careful ops Stores.empty)
    (domainId : String) : ArchivedHidden (LifecycleOp.reached ops) domainId := by
  have hinv : Hiding (LifecycleOp.reached ops) := by
    refine hcareful.final hiding_empty ?_
    intro op hop s h hstep
    exact h.after (hwork op hop) hstep
  exact hinv.archivedHidden domainId

section Handbook

def yearEnd (fault : Option Exc) : ArchivalWorker where
  threshold _ := .ok Acl.newYear
  fromIsoformat t :=
    if t = "2020-01-01" then .ok { Acl.newYear with year := 2020, year_lt := by decide }
    else .error ⟨"ValueError", ""⟩
  now := 0
  setPayloadFault := fault

def expired (mode : ReindexMode) : IndexingRequest :=
  { handbook with validUntil := .str "2020-01-01", mode := mode }

def archivedRun (fault : Option Exc) : List LifecycleOp :=
  [.createCollection "hr" 1 true, .run (splitting ["a"]) (expired .full) "J1" .null,
   .archive (yearEnd fault) "hr"]

/-- The vectors of the archived handbook are computed again before the next archival run. -/
def reembeddedRun : List LifecycleOp :=
  archivedRun none ++ [.run (splitting ["a"]) (expired .embeddingOnly) "J2" .null,
    .archive (yearEnd none) "hr"]

def retriedRun : List LifecycleOp :=
  archivedRun (some ⟨"TimeoutError", ""⟩) ++ [.archive (yearEnd none) "hr"]

theorem not_hidden_of_row {s : Stores} (key : ChunkKey) (id : String)
    (hrow : (s.chunks.rows key).any (fun row => row.archivedAt.isSome && row.chunkId = id) = true)
    (hpoint : (s.vectors.point? key.domainId id).any (fun p =>
      (p.payload.get? "archived").isNone) = true) : ¬ ArchivedHidden s key.domainId := by
  intro h
  obtain ⟨row, hmem, htest⟩ := List.any_eq_true.mp hrow
  obtain ⟨harchived, hid⟩ := Bool.and_eq_true_iff.mp htest
  obtain rfl : row.chunkId = id := of_decide_eq_true hid
  obtain ⟨p, hp, hmarked⟩ := h.marked key row rfl hmem harchived
  rw [hp, Option.any_some, hmarked] at hpoint
  cases hpoint

/-- In both runs the last archival run succeeds, and the archived chunk has an unmarked point. -/
theorem archived_chunk_served :
    (∀ op ∈ reembeddedRun ++ retriedRun, op.TablesWork) ∧
      LifecycleOp.lastArchivalClean "hr" reembeddedRun = true ∧
      ¬ ArchivedHidden (LifecycleOp.reached reembeddedRun) "hr" ∧
      LifecycleOp.lastArchivalClean "hr" retriedRun = true ∧
      ¬ ArchivedHidden (LifecycleOp.reached retriedRun) "hr" := by
  refine ⟨?_, by decide, ?_, by decide, ?_⟩
  · intro op hop
    simp only [reembeddedRun, retriedRun, archivedRun, List.cons_append, List.nil_append,
      List.mem_cons, List.not_mem_nil, or_false] at hop
    rcases hop with rfl | rfl | rfl | rfl | rfl | rfl | rfl | rfl | rfl
    all_goals first | trivial | exact ⟨rfl, rfl, rfl, fun _ => rfl⟩
  · refine not_hidden_of_row ⟨handbook.doc, "p1"⟩ "handbook:v1:p1:chunk:0" ?_ ?_
    · decide +kernel
    · decide +kernel
  · refine not_hidden_of_row ⟨handbook.doc, "p1"⟩ "handbook:v1:p1:chunk:0" ?_ ?_
    · decide +kernel
    · decide +kernel

/-- An archival run whose payload write gets through. -/
theorem archived_handbook_hidden :
    ((LifecycleOp.reached (archivedRun none)).chunks.rows ⟨handbook.doc, "p1"⟩).any
        (fun row => row.archivedAt.isSome) = true ∧
      ArchivedHidden (LifecycleOp.reached (archivedRun none)) "hr" := by
  refine ⟨by decide +kernel, archived_hidden_along_careful_runs (archivedRun none) ?_ ?_ "hr"⟩
  · intro op hop
    simp only [archivedRun, List.mem_cons, List.not_mem_nil, or_false] at hop
    rcases hop with rfl | rfl | rfl
    all_goals first | trivial | exact ⟨rfl, rfl, rfl, fun _ => rfl⟩
  · refine ⟨trivial, ⟨?_, ?_⟩, .inl rfl, trivial⟩
    -- before the first run there is no row at all
    · intro p _ key row hrow
      exact absurd hrow List.not_mem_nil
    · rintro ⟨⟩

end Handbook

end DomainRag.Lifecycle
