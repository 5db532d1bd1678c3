import DomainRag.Store.Records

/-! # The document, chunk and job tables

Chunk rows are kept in lists, one for each parser version of a document version. A second index
finds a row by its chunk id, and metadata updates go through that index.
-/

namespace DomainRag.Store

structure DocKey where
  domainId : String
  docId : String
  version : String
  deriving DecidableEq

structure DocumentRepository where
  docs : Dict DocKey DocumentRecord

namespace DocumentRepository

def upsert (repo : DocumentRepository) (key : DocKey) (doc : DocumentRecord) :
    DocumentRepository :=
  ⟨repo.docs.set key doc⟩

def get (repo : DocumentRepository) (key : DocKey) : Option DocumentRecord := repo.docs.get? key

def updateApproval (repo : DocumentRepository) (key : DocKey) (approvalStatus : String) :
    Option (DocumentRecord × DocumentRepository) :=
  (repo.get key).map fun doc =>
    let doc := Function.update doc (.shared .approvalStatus) (.str approvalStatus)
    (doc, repo.upsert key doc)

def updatePartial (repo : DocumentRepository) (key : DocKey) (patch : Dict String Value) :
    Option (DocumentRecord × DocumentRepository) :=
  (repo.get key).map fun doc =>
    let doc := doc.setattrs patch
    (doc, repo.upsert key doc)

def delete (repo : DocumentRepository) (domainId docId : String) (version : Option String) :
    Nat × DocumentRepository :=
  let keys := repo.docs.keys.filter fun k =>
    k.domainId = domainId ∧ k.docId = docId ∧ (version = none ∨ version = some k.version)
  (keys.length, ⟨keys.foldl Dict.erase repo.docs⟩)

end DocumentRepository

structure ChunkKey extends DocKey where
  parserVersion : String
  deriving DecidableEq

structure RowRef where
  key : ChunkKey
  index : Nat
  deriving DecidableEq

structure ChunkRepository where
  chunks : Dict ChunkKey (List ChunkRecord)
  byId : Dict (String × String) RowRef

namespace ChunkRepository

def rows (repo : ChunkRepository) (key : ChunkKey) : List ChunkRecord :=
  (repo.chunks.get? key).getD []

def dropIds (domainId : String) (rows : List ChunkRecord) (byId : Dict (String × String) RowRef) :
    Dict (String × String) RowRef :=
  rows.foldl (fun byId c => byId.erase (domainId, c.chunkId)) byId

def replaceChunks (repo : ChunkRepository) (key : ChunkKey) (chunks : List ChunkRecord) :
    ChunkRepository where
  chunks := (repo.chunks.erase key).set key chunks
  byId := chunks.zipIdx.foldl (fun byId c => byId.set (key.domainId, c.1.chunkId) ⟨key, c.2⟩)
    (dropIds key.domainId (repo.rows key) repo.byId)

def setattrsAt (metadata : Dict String Value) (repo : ChunkRepository) (ref : RowRef) :
    ChunkRepository :=
  { repo with chunks := repo.chunks.mapValues fun key rows =>
      if key = ref.key then rows.modify ref.index (·.setattrs metadata) else rows }

def updateMetadata (repo : ChunkRepository) (domainId : String) (chunkIds : List String)
    (metadata : Dict String Value) : ChunkRepository :=
  chunkIds.foldl (fun repo cid => match repo.byId.get? (domainId, cid) with
    | none => repo
    | some ref => setattrsAt metadata repo ref) repo

/-- The keys of a document; a version or parser version that is not given does not restrict
them, and neither does an empty parser version. -/
def matchesDoc (domainId docId : String) (version parserVersion : Option String)
    (key : ChunkKey) : Bool :=
  key.domainId = domainId && key.docId = docId && (version = none || version = some key.version)
    && (parserVersion = none || parserVersion = some "" || parserVersion = some key.parserVersion)

def listByDoc (repo : ChunkRepository) (doc : DocKey) (parserVersion : Option String) :
    List ChunkRecord :=
  (repo.chunks.entries.filter fun e =>
    matchesDoc doc.domainId doc.docId (some doc.version) parserVersion e.1).flatMap Prod.snd

def deleteByDoc (repo : ChunkRepository) (domainId docId : String) (version : Option String) :
    List String × ChunkRepository :=
  let gone := (repo.chunks.entries.filter fun e =>
    matchesDoc domainId docId version none e.1).flatMap Prod.snd
  (gone.map ChunkRecord.chunkId,
    { chunks := repo.chunks.filterKeys fun key => !matchesDoc domainId docId version none key
      byId := dropIds domainId gone repo.byId })

def row? (repo : ChunkRepository) (ref : RowRef) : Option ChunkRecord :=
  (repo.rows ref.key)[ref.index]?

theorem mem_rows_iff {repo : ChunkRepository} {key : ChunkKey} {row : ChunkRecord} :
    row ∈ repo.rows key ↔ ∃ i, repo.row? ⟨key, i⟩ = some row := by
  simp only [row?, List.mem_iff_getElem?]

theorem mem_rows_iff_entries {repo : ChunkRepository} {key : ChunkKey} {row : ChunkRecord} :
    row ∈ repo.rows key ↔ ∃ rows, (key, rows) ∈ repo.chunks.entries ∧ row ∈ rows := by
  simp only [← Dict.get?_eq_some_iff, rows]
  cases repo.chunks.get? key with
  | none => simp
  | some rows => simp

theorem mem_flatMap_filter {repo : ChunkRepository} {p : ChunkKey → Bool} {row : ChunkRecord} :
    row ∈ (repo.chunks.entries.filter fun e => p e.1).flatMap Prod.snd ↔
      ∃ key, p key = true ∧ row ∈ repo.rows key := by
  simp only [List.mem_flatMap, List.mem_filter, mem_rows_iff_entries]
  constructor
  · rintro ⟨⟨key, rows⟩, ⟨hentry, hp⟩, hrow⟩
    exact ⟨key, hp, rows, hentry, hrow⟩
  · rintro ⟨key, hp, rows, hentry, hrow⟩
    exact ⟨(key, rows), ⟨hentry, hp⟩, hrow⟩

theorem matchesDoc_iff {domainId docId : String} {version : Option String} {key : ChunkKey} :
    matchesDoc domainId docId version none key = true ↔
      key.domainId = domainId ∧ key.docId = docId ∧ ∀ v, version = some v → key.version = v := by
  cases version with
  | none => simp [matchesDoc]
  | some v => simp [matchesDoc, and_assoc, eq_comm (a := v)]

theorem matchesDoc_version_iff {doc : DocKey} {key : ChunkKey} :
    matchesDoc doc.domainId doc.docId (some doc.version) none key = true ↔
      key.toDocKey = doc := by
  obtain ⟨d, i, v⟩ := doc
  obtain ⟨⟨d', i', v'⟩, pv⟩ := key
  simp [matchesDoc_iff]

theorem mem_listByDoc {repo : ChunkRepository} {doc : DocKey} {row : ChunkRecord} :
    row ∈ repo.listByDoc doc none ↔ ∃ key, key.toDocKey = doc ∧ row ∈ repo.rows key := by
  rw [listByDoc, mem_flatMap_filter]
  simp only [matchesDoc_version_iff]

theorem rows_replaceChunks (repo : ChunkRepository) (key : ChunkKey) (chunks : List ChunkRecord)
    (key' : ChunkKey) :
    (repo.replaceChunks key chunks).rows key' = if key' = key then chunks else repo.rows key' := by
  rw [rows, replaceChunks, Dict.get?_set, Dict.get?_erase]
  split <;> rfl

theorem rows_deleteByDoc (repo : ChunkRepository) (domainId docId : String)
    (version : Option String) (key : ChunkKey) :
    (repo.deleteByDoc domainId docId version).2.rows key =
      if matchesDoc domainId docId version none key then [] else repo.rows key := by
  rw [rows, deleteByDoc, Dict.get?_filterKeys]
  cases matchesDoc domainId docId version none key <;> rfl

theorem mem_ids_deleteByDoc {repo : ChunkRepository} {domainId docId : String}
    {version : Option String} {id : String} :
    id ∈ (repo.deleteByDoc domainId docId version).1 ↔
      ∃ key, matchesDoc domainId docId version none key = true ∧
        ∃ row ∈ repo.rows key, row.chunkId = id := by
  simp only [deleteByDoc, List.mem_map, mem_flatMap_filter]
  constructor
  · rintro ⟨row, ⟨key, hkey, hrow⟩, hid⟩
    exact ⟨key, hkey, row, hrow, hid⟩
  · rintro ⟨key, hkey, row, hrow, hid⟩
    exact ⟨row, ⟨key, hkey, hrow⟩, hid⟩

def modifyRow (repo : ChunkRepository) (ref : RowRef) (f : ChunkRecord → ChunkRecord) :
    ChunkRepository :=
  { repo with chunks := repo.chunks.mapValues fun key rows =>
      if key = ref.key then rows.modify ref.index f else rows }

theorem row?_modifyRow (repo : ChunkRepository) (ref ref' : RowRef)
    (f : ChunkRecord → ChunkRecord) :
    (repo.modifyRow ref f).row? ref' =
      if ref' = ref then (repo.row? ref').map f else repo.row? ref' := by
  obtain ⟨key, i⟩ := ref
  obtain ⟨key', i'⟩ := ref'
  simp only [row?, rows, modifyRow, Dict.get?_mapValues, RowRef.mk.injEq]
  cases repo.chunks.get? key' with
  | none => simp
  | some rows =>
    by_cases hkey : key' = key
    · by_cases hi : i' = i
      · simp [hkey, hi]
      · simp [hkey, hi, Ne.symm hi]
    · simp [hkey]

theorem row?_setattrsAt (metadata : Dict String Value) (repo : ChunkRepository)
    (ref ref' : RowRef) :
    (setattrsAt metadata repo ref).row? ref' =
      if ref' = ref then (repo.row? ref').map (·.setattrs metadata) else repo.row? ref' :=
  row?_modifyRow repo ref ref' (·.setattrs metadata)

theorem byId_updateMetadata (repo : ChunkRepository) (domainId : String) (ids : List String)
    (metadata : Dict String Value) :
    (repo.updateMetadata domainId ids metadata).byId = repo.byId := by
  rw [updateMetadata]
  induction ids generalizing repo with
  | nil => rfl
  | cons cid ids ih =>
    rw [List.foldl_cons, ih]
    cases repo.byId.get? (domainId, cid) <;> rfl

/-- A row is updated exactly when the index finds it under one of the given ids. -/
theorem row?_updateMetadata (repo : ChunkRepository) (domainId : String) (ids : List String)
    (metadata : Dict String Value) (ref : RowRef) :
    (repo.updateMetadata domainId ids metadata).row? ref =
      if ∃ cid ∈ ids, repo.byId.get? (domainId, cid) = some ref then
        (repo.row? ref).map (·.setattrs metadata) else repo.row? ref := by
  induction ids generalizing repo with
  | nil => simp [updateMetadata]
  | cons cid ids ih =>
    rw [updateMetadata, List.foldl_cons, ← updateMetadata, ih]
    cases href : repo.byId.get? (domainId, cid) with
    | none => simp [href]
    | some ref' =>
      have hbyId : (setattrsAt metadata repo ref').byId = repo.byId := rfl
      simp only [hbyId, row?_setattrsAt, List.exists_mem_cons_iff, href, Option.some.injEq]
      by_cases hhead : ref' = ref
      · simp only [hhead, if_true, true_or, Option.map_map]
        split
        · congr 1
          funext row
          exact row.setattrs_setattrs metadata
        · rfl
      · simp only [hhead, Ne.symm hhead, false_or, if_false]

/-- The index finds every row of the document under its own id. -/
def FindsRows (repo : ChunkRepository) (doc : DocKey) : Prop :=
  ∀ ref row, ref.key.toDocKey = doc → repo.row? ref = some row →
    repo.byId.get? (doc.domainId, row.chunkId) = some ref

theorem FindsRows.rows_updateMetadata {repo : ChunkRepository} {doc : DocKey}
    (h : repo.FindsRows doc) {ids : List String} (metadata : Dict String Value) {key : ChunkKey}
    (hkey : key.toDocKey = doc) (hids : ∀ row ∈ repo.rows key, row.chunkId ∈ ids) :
    (repo.updateMetadata doc.domainId ids metadata).rows key =
      (repo.rows key).map (·.setattrs metadata) := by
  refine List.ext_getElem? ?_
  intro i
  have hi := row?_updateMetadata repo doc.domainId ids metadata ⟨key, i⟩
  rw [row?, row?] at hi
  rw [hi, List.getElem?_map]
  cases hrow : (repo.rows key)[i]? with
  | none => exact ite_self none
  | some row =>
    rw [if_pos ⟨row.chunkId, hids row (List.mem_of_getElem? hrow), h ⟨key, i⟩ row hkey hrow⟩]

/-- Whatever the index finds, an update leaves each row as it was or sets its attributes. -/
theorem row?_updateMetadata_cases (repo : ChunkRepository) (domainId : String)
    (ids : List String) (metadata : Dict String Value) (ref : RowRef) :
    (repo.updateMetadata domainId ids metadata).row? ref = repo.row? ref ∨
      (repo.updateMetadata domainId ids metadata).row? ref =
        (repo.row? ref).map (·.setattrs metadata) := by
  rw [row?_updateMetadata]
  split
  · exact .inr rfl
  · exact .inl rfl

theorem exists_of_mem_rows_updateMetadata {repo : ChunkRepository} {domainId : String}
    {ids : List String} {metadata : Dict String Value} {key : ChunkKey} {row' : ChunkRecord}
    (h : row' ∈ (repo.updateMetadata domainId ids metadata).rows key) :
    ∃ row ∈ repo.rows key, row' = row ∨ row' = row.setattrs metadata := by
  obtain ⟨i, hi⟩ := mem_rows_iff.mp h
  obtain hsame | hset := row?_updateMetadata_cases repo domainId ids metadata ⟨key, i⟩
  · exact ⟨row', mem_rows_iff.mpr ⟨i, hsame.symm.trans hi⟩, .inl rfl⟩
  · obtain ⟨row, hrow, hrow'⟩ := Option.map_eq_some_iff.mp (hset.symm.trans hi)
    exact ⟨row, mem_rows_iff.mpr ⟨i, hrow⟩, .inr hrow'.symm⟩

/-- An update keeps, row by row, every attribute that it does not name. -/
theorem attr_listByDoc_updateMetadata {f : ChunkField} {metadata : Dict String Value}
    (hf : FieldNames.name f ∉ metadata.keys) (repo : ChunkRepository) (domainId : String)
    (ids : List String) (doc : DocKey) (parserVersion : Option String) :
    ((repo.updateMetadata domainId ids metadata).listByDoc doc parserVersion).map (·.attrs f) =
      (repo.listByDoc doc parserVersion).map (·.attrs f) := by
  have hmodify : ∀ (rows : List ChunkRecord) i,
      (rows.modify i (·.setattrs metadata)).map (·.attrs f) = rows.map (·.attrs f) := by
    intro rows i
    refine List.ext_getElem? fun j => ?_
    rw [List.getElem?_map, List.getElem?_map, List.getElem?_modify]
    cases rows[j]? with
    | none => rfl
    | some row =>
      split
      · exact congrArg some (Record.setattrs_of_not_mem hf)
      · rfl
  have hstep : ∀ (repo : ChunkRepository) ref,
      ((setattrsAt metadata repo ref).listByDoc doc parserVersion).map (·.attrs f) =
        (repo.listByDoc doc parserVersion).map (·.attrs f) := by
    intro repo ref
    rw [listByDoc, listByDoc, setattrsAt, Dict.mapValues, List.filter_map, List.flatMap_map,
      List.map_flatMap, List.map_flatMap]
    refine List.flatMap_congr fun e _ => ?_
    dsimp only
    split
    · exact hmodify e.2 ref.index
    · rfl
  induction ids generalizing repo with
  | nil => rfl
  | cons cid ids ih =>
    rw [updateMetadata, List.foldl_cons, ← updateMetadata, ih]
    split
    · rfl
    · exact hstep repo _

theorem FindsRows.updateMetadata {repo : ChunkRepository} {doc : DocKey}
    (h : repo.FindsRows doc) (domainId : String) (ids : List String)
    (metadata : Dict String Value) : (repo.updateMetadata domainId ids metadata).FindsRows doc := by
  intro ref row href hrow
  rw [byId_updateMetadata]
  obtain hsame | hset := row?_updateMetadata_cases repo domainId ids metadata ref
  · exact h ref row href (hsame.symm.trans hrow)
  · obtain ⟨row₀, hrow₀, rfl⟩ := Option.map_eq_some_iff.mp (hset.symm.trans hrow)
    exact h ref row₀ href hrow₀

theorem byId_replaceChunks {repo : ChunkRepository} {key : ChunkKey} {chunks : List ChunkRecord}
    (hnodup : (chunks.map ChunkRecord.chunkId).Nodup) {i : Nat} {row : ChunkRecord}
    (hrow : chunks[i]? = some row) :
    (repo.replaceChunks key chunks).byId.get? (key.domainId, row.chunkId) = some ⟨key, i⟩ := by
  let place (c : ChunkRecord × Nat) : (String × String) × RowRef :=
    ((key.domainId, c.1.chunkId), ⟨key, c.2⟩)
  have hkeys : ((chunks.zipIdx.map place).map Prod.fst).Nodup := by
    have hfst : (chunks.zipIdx.map place).map Prod.fst =
        (chunks.map ChunkRecord.chunkId).map fun id => (key.domainId, id) := by
      conv_rhs => rw [← List.zipIdx_map_fst 0 chunks]
      simp only [List.map_map]
      rfl
    rw [hfst]
    exact hnodup.map fun _ _ h => (Prod.mk.inj h).2
  have hmem : ((key.domainId, row.chunkId), (⟨key, i⟩ : RowRef)) ∈ chunks.zipIdx.map place :=
    List.mem_map.mpr ⟨(row, i), List.mem_zipIdx_iff_getElem?.mpr hrow, rfl⟩
  have hfold : (repo.replaceChunks key chunks).byId =
      (dropIds key.domainId (repo.rows key) repo.byId).update (chunks.zipIdx.map place) := by
    rw [replaceChunks, Dict.update, List.foldl_map]
  rw [hfold, Dict.get?_update _ ⟨_, hkeys⟩, Dict.get?_eq_some_iff.mpr hmem]
  rfl

/-- A document whose only rows are the new ones is found when their ids are distinct. -/
theorem FindsRows.replaceChunks {repo : ChunkRepository} {key : ChunkKey}
    {chunks : List ChunkRecord} (hnodup : (chunks.map ChunkRecord.chunkId).Nodup)
    (hnew : ∀ key', key'.toDocKey = key.toDocKey → repo.rows key' = []) :
    (repo.replaceChunks key chunks).FindsRows key.toDocKey := by
  rintro ⟨key', i⟩ row hkey' hrow
  rw [row?, rows_replaceChunks] at hrow
  by_cases h : key' = key
  · subst h
    rw [if_pos rfl] at hrow
    exact byId_replaceChunks hnodup hrow
  · rw [if_neg h, hnew key' hkey'] at hrow
    cases hrow

end ChunkRepository

structure JobPatch where
  status : Option JobStatus := none
  step : Option String := none
  progress : Option Nat := none
  totalChunks : Option Nat := none
  indexedChunks : Option Nat := none
  failedChunks : Option (List FailedChunk) := none
  errorMessage : Option String := none
  failureRate : Option Rat := none

def JobPatch.apply (patch : JobPatch) (job : IndexingJobRecord) : IndexingJobRecord :=
  { job with
    status := patch.status.getD job.status
    step := patch.step.or job.step
    progress := patch.progress.getD job.progress
    totalChunks := patch.totalChunks.getD job.totalChunks
    indexedChunks := patch.indexedChunks.getD job.indexedChunks
    failedChunks := patch.failedChunks.getD job.failedChunks
    errorMessage := patch.errorMessage.or job.errorMessage
    failureRate := patch.failureRate.or job.failureRate }

structure JobRepository where
  jobs : Dict String IndexingJobRecord

namespace JobRepository

def create (repo : JobRepository) (job : IndexingJobRecord) : Except Exc JobRepository :=
  match repo.jobs.values.find? fun existing => existing.domainId = job.domainId
      ∧ existing.docId = job.docId ∧ existing.docVersion = job.docVersion
      ∧ existing.status.active with
  | some existing => .error ⟨"IndexingConflictError",
      s!"active indexing job already exists: {existing.jobId}"⟩
  | none => .ok ⟨repo.jobs.set job.jobId job⟩

def get (repo : JobRepository) (jobId : String) : Option IndexingJobRecord := repo.jobs.get? jobId

def update (repo : JobRepository) (jobId : String) (patch : JobPatch) : Except Exc JobRepository :=
  match repo.jobs.get? jobId with
  | none => .error ⟨"KeyError", s!"'job not found: {jobId}'"⟩
  | some job => .ok ⟨repo.jobs.set jobId (patch.apply job)⟩

/-- The jobs of a tenant, the latest registered first. -/
def listByTenant (repo : JobRepository) (domainId : String) (status : Option JobStatus)
    (limit offset : Nat) : List IndexingJobRecord :=
  let out := repo.jobs.values.filter fun job => job.domainId = domainId
  let out := match status with
    | none => out
    | some status => out.filter fun job => job.status = status
  (out.reverse.drop offset).take limit

end JobRepository

end DomainRag.Store
