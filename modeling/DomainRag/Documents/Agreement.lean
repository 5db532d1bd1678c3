import DomainRag.Documents.Services
import DomainRag.Indexing.Consistency

/-! # Three copies of the shared fields

Agreement of the document's row, its chunk rows and its payloads over calls of the two services.
A failed payload write and a patch that names `approval_status` are what can break it.
-/

namespace DomainRag.Documents

open Store Indexing Program

/-- Every copy of a shared field has the value of the document's row. -/
structure Agrees (s : Stores) (doc : DocKey) (record : DocumentRecord) : Prop where
  document : s.documents.get doc = some record
  rows : ∀ f, ∀ row ∈ s.chunks.listByDoc doc none, row.attrs (.shared f) = record (.shared f)
  points : ∀ f id p, s.vectors.point? doc.domainId id = some p → Carries p doc →
    p.payload.get? f.name = some (record (.shared f))

/-- Agreement, with every point under the id of a row that the id index finds. -/
structure Tracked (s : Stores) (doc : DocKey) : Prop where
  agrees : ∃ record, Agrees s doc record
  backed : pointIds s doc ⊆ chunkIds s doc
  finds : s.chunks.FindsRows doc

section Sync

variable {s s' : Stores} {doc : DocKey} {record record' : DocumentRecord}
  {values : Dict String Value} {fault : Option Exc} {ids : List String}

structure Synced (s s' : Stores) (domainId : String) (ids : List String)
    (values : Dict String Value) (fault : Option Exc) : Prop where
  documents : s'.documents = s.documents
  chunks : s'.chunks = s.chunks.updateMetadata domainId ids values
  payloads : PayloadsSet s s' domainId ids values fault

theorem ensures_syncChunks {domainId : String} :
    Ensures (syncChunks fault domainId ids values) s
      (fun _ s' => Synced s s' domainId ids values fault) fun _ _ => False := by
  rw [syncChunks]
  refine ensures_ite.mpr ⟨fun hempty => ?_, fun _ => ?_⟩
  · rw [List.isEmpty_iff] at hempty
    rw [hempty]
    exact ⟨rfl, rfl, .inr ⟨rfl, .inl rfl⟩⟩
  · rw [ensures_bind, updateMetadata, ensures_failing]
    constructor
    · rintro _ ⟨⟩
    · intro _
      rw [ensures_modify]
      refine ensures_trySetPayload.mono ?_ fun _ _ hfalse => hfalse
      rintro _ s' ⟨hdocuments, hchunks, -, hpayloads⟩
      exact ⟨hdocuments, hchunks, hpayloads⟩

theorem mem_rowIds {row : ChunkRecord} {key : ChunkKey} (hkey : key.toDocKey = doc)
    (hrow : row ∈ s.chunks.rows key) :
    row.chunkId ∈ (s.chunks.listByDoc doc none).map ChunkRecord.chunkId :=
  List.mem_map_of_mem (ChunkRepository.mem_listByDoc.mpr ⟨key, hkey, hrow⟩)

theorem row_of_synced (hfinds : s.chunks.FindsRows doc)
    (h : s'.chunks = s.chunks.updateMetadata doc.domainId
      ((s.chunks.listByDoc doc none).map ChunkRecord.chunkId) values)
    {row' : ChunkRecord} (hrow' : row' ∈ s'.chunks.listByDoc doc none) :
    ∃ row ∈ s.chunks.listByDoc doc none, row' = row.setattrs values := by
  obtain ⟨key, hkey, hmem⟩ := ChunkRepository.mem_listByDoc.mp hrow'
  rw [h, hfinds.rows_updateMetadata values hkey fun row hrow => mem_rowIds hkey hrow] at hmem
  obtain ⟨row, hrow, rfl⟩ := List.mem_map.mp hmem
  exact ⟨row, ChunkRepository.mem_listByDoc.mpr ⟨key, hkey, hrow⟩, rfl⟩

theorem setattrs_shared (row : ChunkRecord) (f : SharedField) :
    (row.setattrs values).attrs (.shared f) =
      (values.get? f.name).getD (row.attrs (.shared f)) :=
  Record.setattrs_apply row.attrs values (.shared f)

/-- The written values name no entry that tells whose point it is. -/
def KeepsOwner (values : Dict String Value) : Prop :=
  "doc_id" ∉ values.keys ∧ "doc_version" ∉ values.keys

theorem point_of_synced {p' : Point} {id : String} (howner : KeepsOwner values)
    (h : s.vectors.setPayload doc.domainId ids values = .ok s'.vectors)
    (hp' : s'.vectors.point? doc.domainId id = some p') (hcarries : Carries p' doc) :
    ∃ p, s.vectors.point? doc.domainId id = some p ∧ Carries p doc ∧
      (id ∈ ids → p' = p.mergePayload values) := by
  rw [VectorStore.point?_setPayload h] at hp'
  split at hp'
  · obtain ⟨p, hp, rfl⟩ := Option.map_eq_some_iff.mp hp'
    have hsame := SamePoint.mergePayload p (List.Subset.refl values.keys)
    refine ⟨p, hp, ⟨?_, ?_⟩, fun _ => rfl⟩
    · rw [← hsame.payload _ howner.1]
      exact hcarries.1
    · rw [← hsame.payload _ howner.2]
      exact hcarries.2
  · rename_i hnot
    exact ⟨p', hp', hcarries, fun hid => absurd ⟨rfl, hid⟩ hnot⟩

theorem get?_mergePayload (p : Point) (k : String) :
    (p.mergePayload values).payload.get? k = (values.get? k).or (p.payload.get? k) :=
  Dict.get?_update p.payload values k

theorem Synced.relabels {domainId : String} (h : Synced s s' domainId ids values fault) :
    Relabels values.keys s s' where
  points d id := by
    obtain hset | ⟨hsame, -⟩ := h.payloads
    · exact (Relabels.setPayload (List.Subset.refl values.keys) hset).points d id
    · rw [hsame]
      exact (Relabels.refl s).points d id
  documents := h.documents
  rows ref := by
    rw [h.chunks]
    exact (Relabels.updateMetadata s domainId ids (List.Subset.refl values.keys)).rows ref

theorem ids_of_mirror_eq (h : mirror s' = mirror s) (doc : DocKey) :
    pointIds s' doc = pointIds s doc ∧ chunkIds s' doc = chunkIds s doc := by
  constructor
  · ext id
    rw [mem_pointIds_iff, mem_pointIds_iff, h]
  · ext id
    rw [mem_chunkIds_iff, mem_chunkIds_iff, h]

/-- The ids under which a change is synchronised: those of all rows, or none where there is
nothing to synchronise. -/
def SyncIds (s : Stores) (doc : DocKey) (values : Dict String Value) (ids : List String) : Prop :=
  ids = (s.chunks.listByDoc doc none).map ChunkRecord.chunkId ∨ ids = [] ∧ values.entries = []

theorem row_of_syncIds (hfinds : s.chunks.FindsRows doc) (hids : SyncIds s doc values ids)
    (h : s'.chunks = s.chunks.updateMetadata doc.domainId ids values)
    {row' : ChunkRecord} (hrow' : row' ∈ s'.chunks.listByDoc doc none) :
    ∃ row ∈ s.chunks.listByDoc doc none, row' = row.setattrs values := by
  obtain rfl | ⟨rfl, hvalues⟩ := hids
  · exact row_of_synced hfinds h hrow'
  · rw [h] at hrow'
    refine ⟨row', hrow', ?_⟩
    rw [ChunkRecord.setattrs, Record.setattrs, hvalues]
    rfl

/-- The payloads hold the new values when the call succeeded, when there is no point or when
nothing was to change. -/
def PayloadsReached (s : Stores) (doc : DocKey) (record : DocumentRecord)
    (values : Dict String Value) (fault : Option Exc) : Prop :=
  fault = none ∨ pointIds s doc = ∅ ∨
    ∀ f v, values.get? (SharedField.name f) = some v → v = record (.shared f)

theorem getD_of_unchanged {f : SharedField}
    (h : ∀ f v, values.get? (SharedField.name f) = some v → v = record (.shared f)) :
    (values.get? f.name).getD (record (.shared f)) = record (.shared f) := by
  cases hv : values.get? f.name with
  | none => rfl
  | some v => exact h f v hv

theorem payload_of_synced (hagrees : Agrees s doc record)
    (hbacked : pointIds s doc ⊆ chunkIds s doc) (howner : KeepsOwner values)
    (hids : SyncIds s doc values ids)
    (hpayloads : PayloadsSet s s' doc.domainId ids values fault)
    (hreached : PayloadsReached s doc record values fault) {f : SharedField} {id : String}
    {p' : Point} (hp' : s'.vectors.point? doc.domainId id = some p')
    (hcarries : Carries p' doc) :
    p'.payload.get? f.name = some ((values.get? f.name).getD (record (.shared f))) := by
  obtain hset | ⟨hsame, hwhy⟩ := hpayloads
  · obtain ⟨p, hp, hpc, hmerged⟩ := point_of_synced howner hset hp' hcarries
    have hold := hagrees.points f id p hp hpc
    obtain rfl | ⟨rfl, hvalues⟩ := hids
    · obtain ⟨row, hrow, hrowId⟩ := hbacked ⟨p, hp, hpc⟩
      rw [hmerged (List.mem_map.mpr ⟨row, hrow, hrowId⟩), get?_mergePayload, hold]
      cases values.get? f.name <;> rfl
    · -- nothing was set, so the point is the old one
      have hpoint := VectorStore.point?_setPayload hset doc.domainId id
      rw [hp', if_neg fun hand => List.not_mem_nil hand.2, hp] at hpoint
      obtain rfl : p' = p := Option.some.inj hpoint
      rw [hold, Dict.get?, hvalues]
      rfl
  · rw [hsame] at hp'
    have hmem : id ∈ pointIds s doc := ⟨p', hp', hcarries⟩
    rw [hagrees.points f id p' hp' hcarries]
    obtain hnone | hempty | hunchanged := hreached
    · obtain hnil | hfault | hcoll := hwhy
      · obtain rfl | ⟨-, hvalues⟩ := hids
        · obtain ⟨row, hrow, -⟩ := hbacked hmem
          rw [List.map_eq_nil_iff.mp hnil] at hrow
          exact absurd hrow List.not_mem_nil
        · rw [Dict.get?, hvalues]
          rfl
      · exact absurd hnone hfault
      · rw [VectorStore.point?, hcoll] at hp'
        cases hp'
    · rw [hempty] at hmem
      exact absurd hmem (Set.notMem_empty id)
    · rw [getD_of_unchanged hunchanged]

def withDocument (s : Stores) (doc : DocKey) (record : DocumentRecord) : Stores :=
  { s with documents := s.documents.upsert doc record }

theorem get_withDocument : (withDocument s doc record).documents.get doc = some record := by
  rw [withDocument, DocumentRepository.get, DocumentRepository.upsert, Dict.get?_set, if_pos rfl]

/-- One synchronised change: the new document row has the values that are written to the chunk
rows and payloads, or the document has no chunk. -/
structure SyncedChange (s : Stores) (doc : DocKey) (record record' : DocumentRecord)
    (values : Dict String Value) (fault : Option Exc) (ids : List String) : Prop where
  keepsOwner : KeepsOwner values
  syncIds : SyncIds s doc values ids
  fields : chunkIds s doc = ∅ ∨
    ∀ f, record' (.shared f) = (values.get? f.name).getD (record (.shared f))
  reached : PayloadsReached s doc record values fault

theorem Tracked.synced (ht : Tracked s doc) (hrecord : s.documents.get doc = some record)
    (h : SyncedChange s doc record record' values fault ids)
    (hsynced : Synced (withDocument s doc record') s' doc.domainId ids values fault) :
    Tracked s' doc := by
  obtain ⟨r, hagrees⟩ := ht.agrees
  obtain rfl : r = record := Option.some.inj (hagrees.document.symm.trans hrecord)
  have hmirror : mirror s' = mirror s :=
    hsynced.relabels.mirror_eq h.keepsOwner.1 h.keepsOwner.2
  obtain ⟨hpoints, hchunks⟩ := ids_of_mirror_eq hmirror doc
  have hdocument : s'.documents.get doc = some record' := by
    rw [hsynced.documents]
    exact get_withDocument
  have hback : pointIds s' doc ⊆ chunkIds s' doc := by
    rw [hpoints, hchunks]
    exact ht.backed
  have hfinds : s'.chunks.FindsRows doc := by
    rw [hsynced.chunks]
    exact ht.finds.updateMetadata doc.domainId ids values
  refine ⟨⟨record', hdocument, ?_, ?_⟩, hback, hfinds⟩
  · intro f row' hrow'
    obtain hempty | hfields := h.fields
    · have hmem : row'.chunkId ∈ chunkIds s' doc := ⟨row', hrow', rfl⟩
      rw [hchunks, hempty] at hmem
      exact absurd hmem (Set.notMem_empty _)
    · obtain ⟨row, hrow, rfl⟩ := row_of_syncIds ht.finds h.syncIds hsynced.chunks hrow'
      rw [setattrs_shared, hagrees.rows f row hrow, hfields]
  · intro f id p' hp' hcarries
    obtain hempty | hfields := h.fields
    · have hmem : id ∈ chunkIds s' doc := hback ⟨p', hp', hcarries⟩
      rw [hchunks, hempty] at hmem
      exact absurd hmem (Set.notMem_empty id)
    · rw [hfields]
      exact payload_of_synced hagrees ht.backed h.keepsOwner h.syncIds hsynced.payloads h.reached
        hp' hcarries

/-- Both services end this way: the chunks are synchronised, then the audit may raise. -/
theorem ensures_synced {A : Type} {a : A} {audit : Except Exc Unit} (ht : Tracked s doc)
    (hrecord : s.documents.get doc = some record)
    (h : SyncedChange s doc record record' values fault ids) :
    Ensures (do
        syncChunks fault doc.domainId ids values
        Program.ofExcept audit
        return a) (withDocument s doc record') (fun _ s' => Tracked s' doc)
      fun _ s' => Tracked s' doc := by
  rw [ensures_bind]
  refine ensures_syncChunks.mono ?_ fun _ _ hfalse => hfalse.elim
  intro _ s' hsynced
  have htracked := ht.synced hrecord h hsynced
  rw [ensures_bind, ensures_ofExcept]
  exact ⟨fun _ _ => htracked, fun _ _ => htracked⟩

end Sync

section Services

variable {s : Stores} {doc : DocKey}

/-- The payload write of an approval gets through, there is no point or the approval is already
the given one. -/
def ApprovalInSync (svc : DocumentApprovalService) (doc : DocKey) (approvalStatus : String)
    (s : Stores) : Prop :=
  svc.setPayloadFault = none ∨ pointIds s doc = ∅ ∨
    ∀ record, s.documents.get doc = some record →
      record (.shared .approvalStatus) = .str approvalStatus

theorem keepsOwner_approval (v : Value) : KeepsOwner (.ofList [("approval_status", v)]) := by
  have hkeys : (Dict.ofList [("approval_status", v)]).keys = ["approval_status"] := rfl
  rw [KeepsOwner, hkeys]
  decide

theorem ensures_setApproval {svc : DocumentApprovalService} {approvalStatus : String}
    (ht : Tracked s doc) (hsync : ApprovalInSync svc doc approvalStatus s) :
    Ensures (svc.setApproval doc approvalStatus) s (fun _ s' => Tracked s' doc)
      fun _ s' => Tracked s' doc := by
  obtain ⟨record, hagrees⟩ := ht.agrees
  have hrecord := hagrees.document
  have hreached : PayloadsReached s doc record
      (.ofList [("approval_status", .str approvalStatus)]) svc.setPayloadFault := by
    obtain hnone | hempty | hsame := hsync
    · exact .inl hnone
    · exact .inr (.inl hempty)
    · refine .inr (.inr ?_)
      intro f v hv
      cases f <;> cases hv
      exact (hsame record hrecord).symm
  rw [DocumentApprovalService.setApproval, ensures_bind, ensures_get,
    DocumentRepository.updateApproval, hrecord]
  refine ensures_synced ht hrecord ⟨keepsOwner_approval _, .inl rfl, .inr ?_, hreached⟩
  intro f
  cases f <;> rfl

/-- A patch that passes the checks leaves the approval as it is, unless the document has no
chunk, and its other shared fields reach the payloads. No key is one of the special names of a
Python object, which begin and end with two underscores. -/
structure PatchInSync (svc : DocumentMetadataService) (doc : DocKey) (patch : Dict String Value)
    (s : Stores) (record : DocumentRecord) : Prop where
  plain : ∀ k ∈ patch.keys, ¬ ("__".toList <+: k.toList ∧ "__".toList <:+ k.toList)
  approval : chunkIds s doc = ∅ ∨ ∀ v, patch.get? "approval_status" = some v →
    v = record (.shared .approvalStatus)
  reached : svc.setPayloadFault = none ∨ pointIds s doc = ∅ ∨
    ∀ f, f ≠ SharedField.approvalStatus → ∀ v, patch.get? f.name = some v →
      v = record (.shared f)

def UpdateInSync (svc : DocumentMetadataService) (doc : DocKey) (patch : Dict String Value)
    (s : Stores) : Prop :=
  ∀ record, s.documents.get doc = some record →
    svc.check doc record (s.chunks.listByDoc doc none) patch = .ok () →
    PatchInSync svc doc patch s record

theorem name_mem_chunkSyncKeys_iff (f : SharedField) :
    f.name ∈ chunkSyncKeys ↔ f ≠ .approvalStatus := by
  cases f <;> decide

theorem get?_syncPayload (patch : Dict String Value) (f : SharedField) :
    (patch.filterKeys fun k => k ∈ chunkSyncKeys).get? f.name =
      if f = .approvalStatus then none else patch.get? f.name := by
  rw [Dict.get?_filterKeys]
  by_cases hf : f = .approvalStatus
  · have hnot : f.name ∉ chunkSyncKeys := fun h => (name_mem_chunkSyncKeys_iff f).mp h hf
    rw [if_pos hf, if_neg fun h => hnot (of_decide_eq_true h)]
  · have hmem : f.name ∈ chunkSyncKeys := (name_mem_chunkSyncKeys_iff f).mpr hf
    simp only [hmem, hf, decide_true, if_true, if_false]

theorem keepsOwner_syncPayload (patch : Dict String Value) :
    KeepsOwner (patch.filterKeys fun k => k ∈ chunkSyncKeys) := by
  have hnot : ∀ k, k ∉ chunkSyncKeys →
      k ∉ (patch.filterKeys fun k => k ∈ chunkSyncKeys).keys := by
    intro k hk
    rw [← Dict.get?_eq_none_iff, Dict.get?_filterKeys]
    simp only [hk, decide_false, Bool.false_eq_true, if_false]
  exact ⟨hnot _ (by decide), hnot _ (by decide)⟩

theorem ensures_update {svc : DocumentMetadataService} {patch : Dict String Value}
    (ht : Tracked s doc) (hsync : UpdateInSync svc doc patch s) :
    Ensures (svc.update doc patch) s (fun _ s' => Tracked s' doc)
      fun _ s' => Tracked s' doc := by
  obtain ⟨record, hagrees⟩ := ht.agrees
  have hrecord := hagrees.document
  rw [DocumentMetadataService.update, ensures_bind, ensures_get, hrecord]
  simp only [DocumentRepository.updatePartial, hrecord, Option.map_some]
  rw [ensures_bind, ensures_ofExcept]
  refine ⟨fun _ hcheck => ?_, fun _ _ => ht⟩
  have hpatch := hsync record hrecord hcheck
  refine ensures_synced ht hrecord ⟨keepsOwner_syncPayload patch, ?_, ?_, ?_⟩
  · by_cases hempty : (patch.filterKeys fun k => k ∈ chunkSyncKeys).entries.isEmpty
    · exact .inr ⟨if_pos hempty, List.isEmpty_iff.mp hempty⟩
    · exact .inl (if_neg hempty)
  · obtain hnone | happroval := hpatch.approval
    · exact .inl hnone
    · refine .inr ?_
      intro f
      rw [get?_syncPayload, Record.setattrs_apply]
      by_cases hf : f = .approvalStatus
      · subst hf
        rw [if_pos rfl]
        cases hv : patch.get? "approval_status" with
        | none => exact congrArg (Option.getD · _) hv
        | some v => exact (congrArg (Option.getD · _) hv).trans (happroval v hv)
      · rw [if_neg hf]
        rfl
  · obtain hnone | hempty | hsame := hpatch.reached
    · exact .inl hnone
    · exact .inr (.inl hempty)
    · refine .inr (.inr ?_)
      intro f v hv
      rw [get?_syncPayload] at hv
      by_cases hf : f = .approvalStatus
      · rw [if_pos hf] at hv
        cases hv
      · rw [if_neg hf] at hv
        exact hsame f hf v hv

end Services

inductive Call where
  | setApproval (svc : DocumentApprovalService) (approvalStatus : String)
  | update (svc : DocumentMetadataService) (patch : Dict String Value)

namespace Call

def after (doc : DocKey) (s : Stores) : Call → Stores
  | .setApproval svc approvalStatus => (svc.setApproval doc approvalStatus).final s
  | .update svc patch => (svc.update doc patch).final s

def Returns (doc : DocKey) (s : Stores) : Call → Prop
  | .setApproval svc approvalStatus =>
    ∃ r, (svc.setApproval doc approvalStatus).result? s = some (some r)
  | .update svc patch => ∃ r, (svc.update doc patch).result? s = some (some r)

def InSync (doc : DocKey) (s : Stores) : Call → Prop
  | .setApproval svc approvalStatus => ApprovalInSync svc doc approvalStatus s
  | .update svc patch => UpdateInSync svc doc patch s

def LeavesAgreement (doc : DocKey) (s : Stores) (c : Call) : Prop :=
  c.Returns doc s → ∃ record, Agrees (c.after doc s) doc record

end Call

theorem Tracked.after {s : Stores} {doc : DocKey} {c : Call} (ht : Tracked s doc)
    (hsync : c.InSync doc s) : Tracked (c.after doc s) doc := by
  cases c with
  | setApproval svc approvalStatus => exact (ensures_setApproval ht hsync).final
  | update svc patch => exact (ensures_update ht hsync).final

/-- Over every sequence of calls that are in sync, the document row, its chunk rows and its
payloads agree again after each call that returns a result. -/
theorem agrees_along_calls_in_sync (doc : DocKey) (s : Stores) (calls : List Call)
    (ht : Tracked s doc) (hsync : Along (Call.after doc) (Call.InSync doc) calls s) :
    Along (Call.after doc) (Call.LeavesAgreement doc) calls s := by
  refine hsync.of_invariant (I := fun s => Tracked s doc) ht ?_
  intro c _ s ht hc
  have hafter := ht.after hc
  exact ⟨hafter, fun _ => hafter.agrees⟩

section Upload

variable {svc : IndexingService} {request : IndexingRequest} {p : Prepared} {jobId : String}
  {s s' : Stores}

theorem rows_eq_nil_of_chunkIds {doc : DocKey} (h : chunkIds s doc = ∅) {key : ChunkKey}
    (hkey : key.toDocKey = doc) : s.chunks.rows key = [] := by
  refine List.eq_nil_iff_forall_not_mem.mpr ?_
  intro row hrow
  have hmem : row.chunkId ∈ chunkIds s doc :=
    ⟨row, ChunkRepository.mem_listByDoc.mpr ⟨key, hkey, hrow⟩, rfl⟩
  rw [h] at hmem
  exact Set.notMem_empty _ hmem

theorem mem_records_of_written (hw : Written svc request p jobId s s')
    (hnew : chunkIds s request.doc = ∅) {row : ChunkRecord}
    (hrow : row ∈ s'.chunks.listByDoc request.doc none) : row ∈ svc.records request p := by
  obtain ⟨key, hkey, hmem⟩ := ChunkRepository.mem_listByDoc.mp hrow
  rw [hw.rows, ChunkRepository.rows_replaceChunks] at hmem
  split at hmem
  · exact hmem
  · rw [rows_eq_nil_of_chunkIds hnew hkey] at hmem
    exact absurd hmem List.not_mem_nil

theorem mem_points_of_written (hw : Written svc request p jobId s s')
    (hnew : pointIds s request.doc = ∅) {id : String} {q : Point}
    (hq : s'.vectors.point? request.domainId id = some q) (hcarries : Carries q request.doc) :
    q ∈ svc.points request p ∧ q.id = id := by
  obtain ⟨-, r, hr, hid, hpoint⟩ | ⟨-, hpoint⟩ := hw.points.cases request.domainId id
  · obtain rfl : r = q := Option.some.inj (hpoint.symm.trans hq)
    exact ⟨hr, hid⟩
  · have hmem : id ∈ pointIds s request.doc := ⟨q, hpoint.symm.trans hq, hcarries⟩
    rw [hnew] at hmem
    exact absurd hmem (Set.notMem_empty id)

/-- The first full run of a document leaves it tracked. -/
theorem tracked_of_written (hw : Written svc request p jobId s s')
    (hrows : chunkIds s request.doc = ∅) (hpoints : pointIds s request.doc = ∅)
    (hnodup : ((svc.records request p).map ChunkRecord.chunkId).Nodup) :
    Tracked s' request.doc where
  agrees := by
    refine ⟨svc.buildDocument request, ?_, ?_, ?_⟩
    · rw [hw.documents]
      exact (Dict.get?_set _ _ _ _).trans (if_pos rfl)
    · intro f row hrow
      obtain ⟨c, -, hc⟩ := List.mem_filterMap.mp (mem_records_of_written hw hrows hrow)
      obtain ⟨v, -, rfl⟩ := Option.map_eq_some_iff.mp hc
      rfl
    · intro f id q hq hcarries
      obtain ⟨hmem, -⟩ := mem_points_of_written hw hpoints hq hcarries
      obtain ⟨c, -, hc⟩ := List.mem_filterMap.mp hmem
      obtain ⟨v, -, rfl⟩ := Option.map_eq_some_iff.mp hc
      cases f <;> rfl
  backed := by
    rintro id ⟨q, hq, hcarries⟩
    obtain ⟨hmem, hid⟩ := mem_points_of_written hw hpoints hq hcarries
    obtain ⟨row, hrow, hrowId⟩ :=
      mem_buildRecords_ids.mpr (mem_buildPoints_ids.mp ⟨q, hmem, hid⟩)
    refine ⟨row, ChunkRepository.mem_listByDoc.mpr ⟨⟨request.doc, svc.parserVersion⟩, rfl, ?_⟩,
      hrowId⟩
    rw [hw.rows, ChunkRepository.rows_replaceChunks, if_pos rfl]
    exact hrow
  finds := by
    rw [hw.rows]
    exact ChunkRepository.FindsRows.replaceChunks hnodup fun key hkey =>
      rows_eq_nil_of_chunkIds hrows hkey

end Upload

section Handbook

def published : Stores := reached (firstRun ["a"])

theorem tracked_published : Tracked published handbook.doc := by
  let created := reached [.createCollection "hr" 1 true]
  have hconsistent : Consistent ((Op.createCollection "hr" 1 true).after Stores.empty) :=
    consistent_empty.after trivial trivial
  have hrows : chunkIds created handbook.doc = ∅ := by
    have hempty : (created.chunks.listByDoc handbook.doc none).isEmpty = true := by decide +kernel
    refine Set.eq_empty_iff_forall_notMem.mpr ?_
    rintro id ⟨row, hrow, -⟩
    rw [List.isEmpty_iff.mp hempty] at hrow
    exact List.not_mem_nil hrow
  obtain ⟨r, hr, hstatus⟩ := (Option.any_eq_true (fun r => r.status = .completed)
    (((splitting ["a"]).run handbook "J1" .null).result? created)).mp (by decide +kernel)
  have houtcome := (ensures_run ⟨rfl, rfl, rfl, fun _ => rfl⟩).of_result? hr
  have hfinal : ((splitting ["a"]).run handbook "J1" .null).final created = published := by
    rw [published, reached, firstRun, List.foldl_cons, List.foldl_cons, List.foldl_nil,
      Op.after.eq_2]
    rfl
  rw [hfinal] at houtcome
  cases houtcome with
  | gaveUp status _ => exact absurd (status.symm.trans (of_decide_eq_true hstatus)) (by decide)
  | full p _ outcome =>
    refine tracked_of_written outcome.written hrows ((hconsistent.pointIds_eq _).trans hrows) ?_
    have hids : (((splitting ["a"]).prepare handbook .null).toOption.map fun p =>
        ((splitting ["a"]).records handbook p).map ChunkRecord.chunkId) =
        some ["handbook:v1:p1:chunk:0"] := by decide +kernel
    rw [outcome.prepared] at hids
    have hids : ((splitting ["a"]).records handbook p).map ChunkRecord.chunkId =
        ["handbook:v1:p1:chunk:0"] := Option.some.inj hids
    rw [hids]
    exact List.nodup_singleton _
  | relabelled mode _ _ _ => exact absurd mode (by decide)
  | reembedded mode _ _ _ _ => exact absurd mode (by decide)

theorem not_agrees_of_approval {s : Stores} {doc : DocKey} (id a b : String) (hne : a ≠ b)
    (hdocument : (s.documents.get doc).any (fun record =>
      (record (.shared .approvalStatus)).eq (.str a)) = true)
    (hpoint : (s.vectors.point? doc.domainId id).any (fun p => Carries p doc ∧
      (p.payload.get? "approval_status").any fun v => v.eq (.str b)) = true) :
    ¬ ∃ record, Agrees s doc record := by
  rintro ⟨record, hagrees⟩
  rw [hagrees.document, Option.any_some, Value.eq_str_iff] at hdocument
  obtain ⟨p, hp, htest⟩ := (Option.any_eq_true _ _).mp hpoint
  obtain ⟨hcarries, happroval⟩ := of_decide_eq_true htest
  have hpayload : p.payload.get? "approval_status" = some (record (.shared .approvalStatus)) :=
    hagrees.points .approvalStatus id p hp hcarries
  rw [hpayload, hdocument, Option.any_some, Value.eq_str_iff] at happroval
  exact hne (Value.str.inj happroval)

theorem returns_of_isSome {A : Type} {o : Option (Option A)} (h : (o.bind id).isSome = true) :
    ∃ r, o = some (some r) := by
  obtain ⟨r, hr⟩ := Option.isSome_iff_exists.mp h
  obtain ⟨_, ho, rfl⟩ := Option.bind_eq_some_iff.mp hr
  exact ⟨r, ho⟩

def timingOut : DocumentApprovalService where
  setPayloadFault := some ⟨"TimeoutError", ""⟩

def accepting : DocumentMetadataService where
  validate _ _ _ := .ok ()

def withdrawal : Dict String Value := .ofList [("approval_status", .str "archived")]

/-- A withdrawal whose payload write fails still returns a result, and so does a patch of the
approval; the points keep the old approval. -/
theorem withdrawn_handbook_stays_published :
    Tracked published handbook.doc ∧
      ¬ Along (Call.after handbook.doc) (Call.LeavesAgreement handbook.doc)
        [.setApproval timingOut "archived"] published ∧
      ¬ Along (Call.after handbook.doc) (Call.LeavesAgreement handbook.doc)
        [.update accepting withdrawal] published := by
  refine ⟨tracked_published, ?_, ?_⟩
  · rintro ⟨hagreement, -⟩
    have hreturns : Call.Returns handbook.doc published (.setApproval timingOut "archived") :=
      returns_of_isSome (by decide +kernel)
    refine not_agrees_of_approval "handbook:v1:p1:chunk:0" "archived" "draft" (by decide) ?_ ?_
      (hagreement hreturns)
    · decide +kernel
    · decide +kernel
  · rintro ⟨hagreement, -⟩
    have hreturns : Call.Returns handbook.doc published (.update accepting withdrawal) :=
      returns_of_isSome (by decide +kernel)
    refine not_agrees_of_approval "handbook:v1:p1:chunk:0" "archived" "draft" (by decide) ?_ ?_
      (hagreement hreturns)
    · decide +kernel
    · decide +kernel

def retitling : Dict String Value := .ofList [("title", .str "Staff handbook")]

/-- A withdrawal and a new title that both get through. -/
theorem agrees_along_withdrawal :
    Along (Call.after handbook.doc) (Call.LeavesAgreement handbook.doc)
      [.setApproval {} "archived", .update accepting retitling] published := by
  refine agrees_along_calls_in_sync handbook.doc published _ tracked_published
    ⟨.inl rfl, ?_, trivial⟩
  intro record _ _
  refine ⟨by decide, .inr ?_, .inl rfl⟩
  intro v hv
  cases hv

end Handbook

end DomainRag.Documents
