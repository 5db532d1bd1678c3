import DomainRag.Indexing.Effects
import DomainRag.Lib.IsoDate

/-! # The archival worker

Rows whose validity ended before the threshold get an archival time, and the payloads under their
ids are marked as archived. Rows that already have an archival time are never looked at again.
-/

namespace DomainRag.Lifecycle

open Store Indexing Program

structure ArchivalBatchResult where
  domainId : String
  archivedChunkIds : List String := []
  skippedChunkIds : List String := []
  reason : String := "valid_until_threshold"

/-- The worker with the threshold date of each domain, the host's date parser and clock, and the
errors of its `set_payload` call, if it raises, and of its audit. -/
structure ArchivalWorker where
  threshold : String → Except Exc Date
  fromIsoformat : String → Except Exc Date
  now : Nat
  setPayloadFault : Option Exc := none
  audit : Except Exc Unit := .ok ()

namespace ArchivalWorker

variable (worker : ArchivalWorker)

def validUntilDate : Value → Except Exc Date
  | .str t => worker.fromIsoformat t
  | _ => .error (.typeError "fromisoformat: argument must be str")

def isCandidate (before : Date) (row : ChunkRecord) : Except Exc Bool :=
  match row.attrs (.shared .validUntil) with
  | .null => .ok false
  | v => do
    let validUntil ← worker.validUntilDate v
    return decide (validUntil.Before before) && row.archivedAt.isNone

/-- The rows of a domain with their places, in the order of the table. -/
def places (domainId : String) (chunks : ChunkRepository) : List (RowRef × ChunkRecord) :=
  (chunks.chunks.entries.filter fun e => e.1.domainId = domainId).flatMap fun e =>
    e.2.zipIdx.map fun r => (⟨e.1, r.2⟩, r.1)

def findCandidates (before : Date) (domainId : String) (chunks : ChunkRepository) :
    Except Exc (List (RowRef × ChunkRecord)) :=
  filterOk (fun e => worker.isCandidate before e.2) (places domainId chunks)

structure Batch where
  chunks : ChunkRepository
  archived : List String := []
  skipped : List String := []

/-- One round of `archive`; the row is read when its turn comes. -/
def archiveRow (batch : Batch) (ref : RowRef) : Batch :=
  match batch.chunks.row? ref with
  | none => batch
  | some row =>
    if row.archivedAt.isSome then { batch with skipped := batch.skipped ++ [row.chunkId] }
    else
      { batch with
        chunks := batch.chunks.modifyRow ref fun row => { row with archivedAt := some worker.now }
        archived := batch.archived ++ [row.chunkId] }

def archivedPayload : Dict String Value := .ofList [("archived", .bool true)]

def markPayloads (domainId : String) (archived : List String) : StoreTask Unit :=
  if archived.isEmpty then return
  else tryCatch (setPayload worker.setPayloadFault domainId archived archivedPayload) fun _ => return

def runForTenant (domainId : String) : StoreTask ArchivalBatchResult := do
  let before ← Program.ofExcept (worker.threshold domainId)
  let s ← get
  let candidates ← Program.ofExcept (worker.findCandidates before domainId s.chunks)
  if candidates.isEmpty then return { domainId := domainId }
  else
    let batch := (candidates.map Prod.fst).foldl worker.archiveRow { chunks := s.chunks }
    set { s with chunks := batch.chunks }
    worker.markPayloads domainId batch.archived
    Program.ofExcept worker.audit
    return { domainId := domainId, archivedChunkIds := batch.archived,
             skippedChunkIds := batch.skipped }

/-- What a run of the worker did: each row is as it was, or it is one of the archived rows of the
domain, and the payloads under the archived ids were set unless the write failed. -/
structure Archived (worker : ArchivalWorker) (domainId : String) (s s' : Stores) : Prop where
  documents : s'.documents = s.documents
  jobs : s'.jobs = s.jobs
  marked : ∃ ids, PayloadsSet s s' domainId ids archivedPayload worker.setPayloadFault ∧
    ∀ ref, s'.chunks.row? ref = s.chunks.row? ref ∨
      ref.key.domainId = domainId ∧ ∃ row, s.chunks.row? ref = some row ∧ row.chunkId ∈ ids ∧
        s'.chunks.row? ref = some { row with archivedAt := some worker.now }

theorem mem_archiveRow (batch : Batch) (ref ref' : RowRef) :
    (worker.archiveRow batch ref).chunks.row? ref' = batch.chunks.row? ref' ∨
      ref' = ref ∧ ∃ row, batch.chunks.row? ref' = some row ∧
        row.chunkId ∈ (worker.archiveRow batch ref).archived ∧
        (worker.archiveRow batch ref).chunks.row? ref' =
          some { row with archivedAt := some worker.now } := by
  rw [archiveRow]
  cases hrow : batch.chunks.row? ref with
  | none => exact .inl rfl
  | some row =>
    by_cases hset : row.archivedAt.isSome
    · simp only [hset, if_true, true_or]
    · simp only [hset, Bool.false_eq_true, if_false, ChunkRepository.row?_modifyRow]
      by_cases href : ref' = ref
      · subst href
        rw [if_pos rfl, hrow]
        exact .inr ⟨rfl, row, rfl, List.mem_append_right _ (List.mem_singleton_self _), rfl⟩
      · exact .inl (if_neg href)

theorem archived_archiveRow (batch : Batch) (ref : RowRef) :
    batch.archived ⊆ (worker.archiveRow batch ref).archived := by
  rw [archiveRow]
  split
  · exact List.Subset.refl _
  · split
    · exact List.Subset.refl _
    · exact List.subset_append_left _ _

/-- After a whole batch each row is as it was, or it was archived under its own id. -/
theorem mem_archive (refs : List RowRef) (batch : Batch) :
    batch.archived ⊆ (refs.foldl worker.archiveRow batch).archived ∧
      ∀ ref, (refs.foldl worker.archiveRow batch).chunks.row? ref = batch.chunks.row? ref ∨
        ref ∈ refs ∧ ∃ row, batch.chunks.row? ref = some row ∧
          row.chunkId ∈ (refs.foldl worker.archiveRow batch).archived ∧
          (refs.foldl worker.archiveRow batch).chunks.row? ref =
            some { row with archivedAt := some worker.now } := by
  induction refs generalizing batch with
  | nil => exact ⟨List.Subset.refl _, fun _ => .inl rfl⟩
  | cons head refs ih =>
    obtain ⟨hsub, hrows⟩ := ih (worker.archiveRow batch head)
    refine ⟨List.Subset.trans (archived_archiveRow worker batch head) hsub, ?_⟩
    intro ref
    rw [List.foldl_cons]
    obtain hsame | ⟨hmem, row, hrow, hid, hset⟩ := hrows ref
    · obtain hhead | ⟨rfl, row, hrow, hid, hset⟩ := mem_archiveRow worker batch head ref
      · exact .inl (hsame.trans hhead)
      · exact .inr ⟨List.mem_cons_self, row, hrow, hsub hid, hsame.trans hset⟩
    · obtain hhead | ⟨rfl, row', hrow', -, hset'⟩ :=
        mem_archiveRow worker batch head ref
      · exact .inr ⟨List.mem_cons_of_mem _ hmem, row, hhead.symm.trans hrow, hid, hset⟩
      · -- the row was archived by the first round and, if seen again, keeps its time
        obtain rfl : row = { row' with archivedAt := some worker.now } :=
          Option.some.inj (hrow.symm.trans hset')
        exact .inr ⟨List.mem_cons_self, row', hrow', hid, hset⟩

variable {worker} {domainId : String} {s : Stores}

theorem archived_refl : Archived worker domainId s s :=
  ⟨rfl, rfl, [], .inr ⟨rfl, .inl rfl⟩, fun _ => .inl rfl⟩

theorem mem_places {chunks : ChunkRepository} {e : RowRef × ChunkRecord}
    (h : e ∈ places domainId chunks) : e.1.key.domainId = domainId := by
  obtain ⟨entry, hentry, he⟩ := List.mem_flatMap.mp h
  obtain ⟨r, -, rfl⟩ := List.mem_map.mp he
  exact of_decide_eq_true (List.mem_filter.mp hentry).2

theorem mem_findCandidates {before : Date} {chunks : ChunkRepository}
    {candidates : List (RowRef × ChunkRecord)}
    (h : worker.findCandidates before domainId chunks = .ok candidates) {ref : RowRef}
    (href : ref ∈ candidates.map Prod.fst) : ref.key.domainId = domainId := by
  obtain ⟨e, he, rfl⟩ := List.mem_map.mp href
  rw [filterOk_eq h] at he
  exact mem_places (List.mem_filter.mp he).1

theorem ensures_markPayloads {archived : List String} :
    Ensures (worker.markPayloads domainId archived) s
      (fun _ s' => s'.documents = s.documents ∧ s'.chunks = s.chunks ∧ s'.jobs = s.jobs ∧
        PayloadsSet s s' domainId archived archivedPayload worker.setPayloadFault)
      fun _ _ => False := by
  rw [markPayloads]
  refine ensures_ite.mpr ⟨fun hempty => ?_, fun _ => ensures_trySetPayload⟩
  exact ⟨rfl, rfl, rfl, .inr ⟨rfl, .inl (List.isEmpty_iff.mp hempty)⟩⟩

/-- A run that finds no candidate, or raises before it has them, changes nothing. -/
theorem ensures_runForTenant :
    Ensures (worker.runForTenant domainId) s (fun _ => Archived worker domainId s)
      fun _ => Archived worker domainId s := by
  rw [runForTenant, ensures_bind, ensures_ofExcept]
  refine ⟨fun before _ => ?_, fun _ _ => archived_refl⟩
  rw [ensures_bind, ensures_get, ensures_bind, ensures_ofExcept]
  refine ⟨fun candidates hcandidates => ?_, fun _ _ => archived_refl⟩
  refine ensures_ite.mpr ⟨fun _ => archived_refl, fun _ => ?_⟩
  generalize hbatch : (candidates.map Prod.fst).foldl worker.archiveRow { chunks := s.chunks } = batch
  have harchived : ∀ s', s'.documents = s.documents ∧ s'.chunks = batch.chunks ∧ s'.jobs = s.jobs ∧
      PayloadsSet s s' domainId batch.archived archivedPayload worker.setPayloadFault →
      Archived worker domainId s s' := by
    rintro s' ⟨hdocuments, hchunks, hjobs, hpayloads⟩
    refine ⟨hdocuments, hjobs, batch.archived, hpayloads, ?_⟩
    intro ref
    have hrow := (mem_archive worker (candidates.map Prod.fst) { chunks := s.chunks }).2 ref
    rw [hbatch] at hrow
    rw [hchunks]
    obtain hsame | ⟨hmem, row, hold, hid, hset⟩ := hrow
    · exact .inl hsame
    · exact .inr ⟨mem_findCandidates hcandidates hmem, row, hold, hid, hset⟩
  rw [ensures_bind]
  refine ensures_bind.mpr (Ensures.mono ensures_markPayloads ?_ fun _ _ hfalse => hfalse.elim)
  intro _ s' h
  rw [ensures_bind, ensures_ofExcept]
  exact ⟨fun _ _ => harchived s' h, fun _ _ => harchived s' h⟩

/-- No row of the domain is due. -/
def Idle (worker : ArchivalWorker) (domainId : String) (s : Stores) : Prop :=
  ∀ before candidates, worker.threshold domainId = .ok before →
    worker.findCandidates before domainId s.chunks = .ok candidates → candidates = []

theorem ensures_runForTenant_of_idle (h : Idle worker domainId s) :
    Ensures (worker.runForTenant domainId) s (fun _ s' => s' = s) fun _ s' => s' = s := by
  rw [runForTenant, ensures_bind, ensures_ofExcept]
  refine ⟨fun before hbefore => ?_, fun _ _ => rfl⟩
  rw [ensures_bind, ensures_get, ensures_bind, ensures_ofExcept]
  refine ⟨fun candidates hcandidates => ?_, fun _ _ => rfl⟩
  refine ensures_ite.mpr ⟨fun _ => rfl, fun hne => ?_⟩
  exact absurd (List.isEmpty_iff.mpr (h before candidates hbefore hcandidates)) hne

end ArchivalWorker

end DomainRag.Lifecycle
