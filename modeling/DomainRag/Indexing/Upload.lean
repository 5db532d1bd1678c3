import DomainRag.Indexing.Reindex
import DomainRag.Storage.Service

/-! # Uploads that are refused

`prepare_upload` stores the file before it registers the job. When the job table finds an active
job for the version, the new file has already taken the place of the one that is being indexed.
-/

namespace DomainRag.Indexing

open Program Storage

/-- The error that the job table raises for a second active job. -/
def IsConflict (e : Exc) : Prop := e.typeName = "IndexingConflictError"

instance : DecidablePred IsConflict := fun e =>
  inferInstanceAs (Decidable (e.typeName = "IndexingConflictError"))

section Errors

variable {host : Host}

theorem raises_enter {place : List String} {part : String} :
    Raises (¬ IsConflict ·) (FileSystem.enter place part : Program Exc (FileSystem Bytes) _) := by
  refine raises_get.bind fun fs => ?_
  cases fs.get? (FileSystem.visit place part) with
  | none => exact (raises_set _).bind fun _ => raises_pure _
  | some node =>
    cases node with
    | file content => exact raises_throw (by decide)
    | dir => exact raises_pure _

theorem raises_mkdirsFrom {place parts : List String} :
    Raises (¬ IsConflict ·) (FileSystem.mkdirsFrom place parts : Program Exc (FileSystem Bytes) _) := by
  induction parts generalizing place with
  | nil => exact raises_pure _
  | cons part parts ih => exact raises_enter.bind fun _ => ih

theorem raises_writeFile {parts : List String} {content : Bytes} :
    Raises (¬ IsConflict ·) (FileSystem.writeFile parts content) := by
  refine raises_get.bind fun fs => ?_
  cases fs.resolve parts with
  | none => exact raises_throw (by decide)
  | some place =>
    simp only []
    split
    · exact raises_throw (by decide)
    · exact (raises_set _).bind fun _ => raises_pure _

theorem raises_onFiles {A : Type} {x : Program Exc (FileSystem Bytes) A} {P : Exc → Prop}
    (hx : Raises P x) : Raises P (onFiles x) :=
  fun w => ensures_onFiles.mpr (hx w.files)

/-- The operating system, the object store and the stream raise errors of their own only. -/
structure Outside (host : Host) (stream : Stream) : Prop where
  openFile : ∀ e, host.openFault = some e → ¬ IsConflict e
  put : ∀ sse e, host.putFault sse = some e → ¬ IsConflict e
  read : ∀ e, stream.fault = some e → ¬ IsConflict e

theorem raises_copyStream {path : PurePath} {stream : Stream} (h : Outside host stream) :
    Raises (¬ IsConflict ·) (copyStream host path stream) := by
  refine ((raises_onFiles raises_writeFile).failing h.openFile).bind fun place => ?_
  exact (raises_modify _).bind fun _ => (raises_pure _).failing h.read

theorem raises_save {storage : DocumentStorage} {call : SaveCall} (h : Outside host call.stream) :
    Raises (¬ IsConflict ·) (storage.save host call) := by
  cases storage with
  | filesystem storage =>
    refine (raises_onFiles raises_mkdirsFrom).bind fun _ => ?_
    exact (raises_copyStream h).bind fun _ => raises_pure _
  | minio storage =>
    refine (raises_onFiles raises_mkdirsFrom).bind fun _ => (raises_copyStream h).bind fun _ => ?_
    refine (raises_ofExcept fun e he => ?_).bind fun sse => ?_
    · rw [StorageEncryptionPolicy.resolve] at he
      split at he
      · cases he
      · split at he
        · cases he
          exact (by decide : "ValueError" ≠ "IndexingConflictError")
        · cases he
    · exact ((raises_modify _).failing (h.put sse)).bind fun _ => raises_pure _

end Errors

section Stored

variable {host : Host} {w w' : World} {bytes : Bytes}

def targets (call : SaveCall) : DocumentStorage → List StoreObject
  | .filesystem storage =>
    let path := (storage.basePath.append call.relDir).join (safeFilename call.filename)
    [.file (path.parts.foldl FileSystem.visit [])]
  | .minio storage =>
    let path := storage.cachePath.append (MinIOStorage.rel call)
    [.file (path.parts.foldl FileSystem.visit []), .blob (MinIOStorage.key call)]

/-- The listed objects hold the bytes now, and all others are as they were. -/
def Holds (objects : List StoreObject) (bytes : Bytes) (w w' : World) : Prop :=
  ∀ o, w'.content o = if o ∈ objects then some bytes else w.content o

theorem Holds.append {objects objects' : List StoreObject} {w'' : World}
    (h : Holds objects bytes w w') (h' : Holds objects' bytes w' w'') :
    Holds (objects ++ objects') bytes w w'' := by
  intro o
  rw [h' o, h o]
  by_cases ho : o ∈ objects'
  · rw [if_pos ho, if_pos (List.mem_append_right _ ho)]
  · rw [if_neg ho]
    refine if_congr ?_ rfl rfl
    rw [List.mem_append, or_iff_left ho]

/-- Nothing has changed exactly when the objects held these bytes before. -/
theorem Holds.unchanged_iff {objects : List StoreObject} (h : Holds objects bytes w w') :
    (∀ o, w'.content o = w.content o) ↔ ∀ o ∈ objects, w.content o = some bytes := by
  constructor
  · intro hsame o ho
    rw [← hsame o, h o, if_pos ho]
  · intro hbefore o
    rw [h o]
    split
    · rename_i ho
      exact (hbefore o ho).symm
    · rfl

theorem file?_of_grown {fs fs' : FileSystem Bytes} {place parts : List String}
    (h : FileSystem.Grown fs fs' place parts) (q : List String) : fs'.file? q = fs.file? q := by
  obtain hsame | ⟨hnone, hdir, -⟩ := h q
  · exact FileSystem.file?_congr hsame
  · rw [FileSystem.file?, FileSystem.file?, hnone, hdir]

theorem ensures_mkdirs (bytes : Bytes) {parts : List String} :
    Ensures (onFiles (FileSystem.mkdirs parts)) w (fun _ => Holds [] bytes w) fun _ _ => True := by
  rw [ensures_onFiles]
  refine (FileSystem.ensures_mkdirsFrom w.files.rooted).mono ?_ fun _ _ _ => trivial
  rintro _ files ⟨-, -, hgrown⟩ o
  rw [if_neg List.not_mem_nil]
  cases o with
  | file place => exact file?_of_grown hgrown place
  | blob key => rfl

theorem holds_one {target : StoreObject} (htarget : w'.content target = some bytes)
    (hothers : ∀ o, o ≠ target → w'.content o = w.content o) : Holds [target] bytes w w' := by
  intro o
  by_cases ho : o = target
  · rw [if_pos (List.mem_singleton.mpr ho), ho, htarget]
  · rw [if_neg (fun hmem => ho (List.mem_singleton.mp hmem)), hothers o ho]

theorem holds_copied {path : PurePath} (h : Copied path bytes w w') :
    Holds [.file (path.parts.foldl FileSystem.visit [])] bytes w w' := by
  refine holds_one ?_ fun o ho => ?_
  · rw [World.content, FileSystem.file?, h.files, if_pos rfl]
  · cases o with
    | file place =>
      have hplace : place ≠ path.parts.foldl FileSystem.visit [] := fun heq => ho (heq ▸ rfl)
      exact FileSystem.file?_congr ((h.files place).trans (if_neg hplace))
    | blob key => rw [World.content, World.content, h.bucket]

theorem holds_putObject {key : String} :
    Holds [.blob key] bytes w
      { w with bucket := w.bucket.set key bytes, writes := w.writes ++ [.blob key] } := by
  refine holds_one ?_ fun o ho => ?_
  · rw [World.content, Dict.get?_set, if_pos rfl]
  · cases o with
    | file place => rfl
    | blob key' =>
      have hkey : key' ≠ key := fun heq => ho (heq ▸ rfl)
      exact (Dict.get?_set w.bucket key key' bytes).trans (if_neg hkey)

theorem ensures_save {storage : DocumentStorage} {call : SaveCall} :
    Ensures (storage.save host call) w
      (fun _ => Holds (targets call storage) call.stream.bytes w) fun _ _ => True := by
  cases storage with
  | filesystem storage =>
    refine ensures_bind.mpr ((ensures_mkdirs call.stream.bytes).mono (fun _ w₁ hdirs => ?_)
      fun _ _ h => h)
    refine ensures_bind.mpr (ensures_copyStream.mono (fun _ w₂ hcopied => ?_) fun _ _ _ => trivial)
    exact hdirs.append (holds_copied hcopied)
  | minio storage =>
    refine ensures_bind.mpr ((ensures_mkdirs call.stream.bytes).mono (fun _ w₁ hdirs => ?_)
      fun _ _ h => h)
    refine ensures_bind.mpr (ensures_copyStream.mono (fun _ w₂ hcopied => ?_) fun _ _ _ => trivial)
    rw [ensures_bind, ensures_ofExcept]
    refine ⟨fun sse _ => ?_, fun _ _ => trivial⟩
    rw [ensures_bind, MinIOStorage.putObject, ensures_failing]
    refine ⟨fun _ _ => trivial, fun _ => ?_⟩
    rw [ensures_modify, ensures_pure]
    exact (hdirs.append (holds_copied hcopied)).append holds_putObject

end Stored

/-- The stored files and the backend. -/
structure Depot where
  world : World
  backend : Backend

abbrev DepotTask := Program Exc Depot

def onWorld {A : Type} (x : StorageTask A) : DepotTask A := fun d =>
  match x d.world with
  | .ok a w => .ok a { d with world := w }
  | .error e w => .error e { d with world := w }

def onBackend {A : Type} (x : BackendTask A) : DepotTask A := fun d =>
  match x d.backend with
  | .ok a b => .ok a { d with backend := b }
  | .error e b => .error e { d with backend := b }

structure Upload where
  newDocId : String
  newJobId : String
  domainId : String
  docId : Option String
  version : String
  title : String
  filename : String
  stream : Stream
  inputType : Value
  metadata : Dict String Value

def Upload.call (upload : Upload) : SaveCall where
  domainId := upload.domainId
  docId := match upload.docId with
    | some d => if d = "" then upload.newDocId else d
    | none => upload.newDocId
  version := upload.version
  filename := upload.filename
  stream := upload.stream

def Upload.prepare (upload : Upload) (storage : DocumentStorage) (host : Host)
    (orch : IndexingOrchestrator) : DepotTask PreparedIndexing := do
  let stored ← onWorld (storage.save host upload.call)
  let saved : StoredDocument := ⟨stored.localPath, .str stored.objectStoragePath⟩
  onBackend ({ orch with save := fun _ _ _ _ => .ok saved }.prepareUpload upload.newDocId
    upload.newJobId upload.domainId upload.docId upload.version upload.title upload.filename
    upload.inputType upload.metadata)

/-- Every stored object, the tables and the waiting requests are as they were. -/
structure Unchanged (d d' : Depot) : Prop where
  stored : ∀ o, d'.world.content o = d.world.content o
  jobs : d'.backend.stores.jobs = d.backend.stores.jobs
  documents : d'.backend.stores.documents = d.backend.stores.documents
  pending : d'.backend.pending = d.backend.pending

section Refused

variable {d : Depot}

theorem ensures_onWorld {A : Type} {x : StorageTask A} {Q : A → Depot → Prop}
    {R : Exc → Depot → Prop} :
    Ensures (onWorld x) d Q R ↔ Ensures x d.world (fun a w => Q a { d with world := w })
      fun e w => R e { d with world := w } := by
  simp only [Ensures, onWorld]
  cases x d.world <;> rfl

theorem ensures_onBackend {A : Type} {x : BackendTask A} {Q : A → Depot → Prop}
    {R : Exc → Depot → Prop} :
    Ensures (onBackend x) d Q R ↔ Ensures x d.backend (fun a b => Q a { d with backend := b })
      fun e b => R e { d with backend := b } := by
  simp only [Ensures, onBackend]
  cases x d.backend <;> rfl

theorem iter_error {v : Value} {e : Exc} (h : v.iter = .error e) : ¬ IsConflict e := by
  have htype : e.typeName = "TypeError" := by
    cases v <;> cases h <;> rfl
  rw [IsConflict, htype]
  decide

theorem uploadRequest_error {orch : IndexingOrchestrator} {doc : Store.DocKey} {title : String}
    {stored : StoredDocument} {inputType : Value} {metadata : Dict String Value} {e : Exc}
    (h : orch.uploadRequest doc title stored inputType metadata = .error e) : ¬ IsConflict e := by
  rw [IndexingOrchestrator.uploadRequest] at h
  cases hacl : ((valueAt metadata "acl" .null).orElse (.list [])).iter with
  | error e' =>
    rw [hacl] at h
    cases h
    exact iter_error hacl
  | ok acl =>
    cases htags : ((valueAt metadata "tags" .null).orElse (.list [])).iter with
    | error e' =>
      rw [hacl, htags] at h
      cases h
      exact iter_error htags
    | ok tags =>
      rw [hacl, htags] at h
      cases h

/-- A conflict is found before the backend has changed. -/
theorem ensures_prepareUpload_conflict {orch : IndexingOrchestrator} {b : Backend}
    {saved : StoredDocument} (hsave : ∀ s₁ s₂ s₃ s₄, orch.save s₁ s₂ s₃ s₄ = .ok saved)
    {newDocId newJobId domainId version title filename : String} {docId : Option String}
    {inputType : Value} {metadata : Dict String Value} :
    Ensures (orch.prepareUpload newDocId newJobId domainId docId version title filename inputType
      metadata) b (fun _ _ => True) fun e b' => IsConflict e → b' = b := by
  refine ensures_bind.mpr (ensures_ofExcept.mpr ⟨fun stored _ => ?_, fun e he => ?_⟩)
  swap
  · cases (hsave _ _ _ _).symm.trans he
  refine ensures_register.mpr ⟨fun jobs _ => ⟨fun _ _ => trivial, fun e he hconflict => ?_⟩,
    fun _ _ _ => rfl⟩
  exact absurd hconflict (uploadRequest_error he)

end Refused

/-- An upload that is refused as a conflict leaves everything as it was exactly when the file that
it brings was stored at its place already. -/
theorem refused_upload_unchanged_iff (upload : Upload) (storage : DocumentStorage) (host : Host)
    (orch : IndexingOrchestrator) (d d' : Depot) (e : Exc) (hhost : Outside host upload.stream)
    (hraise : upload.prepare storage host orch d = .error e d') (hconflict : IsConflict e) :
    Unchanged d d' ↔
      ∀ o ∈ targets upload.call storage, d.world.content o = some upload.stream.bytes := by
  have hholds : Holds (targets upload.call storage) upload.stream.bytes d.world d'.world ∧
      d'.backend = d.backend := by
    refine Ensures.of_error (R := fun e d' => IsConflict e →
      Holds (targets upload.call storage) upload.stream.bytes d.world d'.world ∧
        d'.backend = d.backend) (Q := fun _ _ => True) ?_ hraise hconflict
    rw [Upload.prepare, ensures_bind, ensures_onWorld]
    refine (ensures_save.and (raises_save hhost d.world)).mono ?_ ?_
    · rintro stored w ⟨hw, -⟩
      rw [ensures_onBackend]
      refine (ensures_prepareUpload_conflict fun _ _ _ _ => rfl).mono (fun _ _ h => h) ?_
      exact fun e b hb hconflict => ⟨hw, hb hconflict⟩
    · exact fun e w h hconflict => absurd hconflict h.2
  obtain ⟨hholds, hbackend⟩ := hholds
  rw [← hholds.unchanged_iff]
  constructor
  · exact fun h => h.stored
  · intro hstored
    refine ⟨hstored, ?_, ?_, ?_⟩ <;> rw [hbackend]

section Handbook

def shelf : DocumentStorage := .filesystem ⟨["data"], by decide⟩

def handbookUpload (newJobId : String) (bytes : Bytes) : Upload where
  newDocId := "DOC-0"
  newJobId := newJobId
  domainId := "hr"
  docId := some "handbook"
  version := "v1"
  title := "Handbook"
  filename := "handbook.txt"
  stream := ⟨bytes, none⟩
  inputType := .null
  metadata := .empty

def shelved : Depot :=
  ((handbookUpload "J1" [1]).prepare shelf {} desk).final ⟨⟨.empty, .empty, []⟩, Backend.empty⟩

def conflicts {A : Type} (x : DepotTask A) (d : Depot) : Bool :=
  match x d with
  | .error e _ => decide (IsConflict e)
  | .ok _ _ => false

theorem exists_of_conflicts {A : Type} {x : DepotTask A} {d : Depot} (h : conflicts x d = true) :
    ∃ e, x d = .error e (x.final d) ∧ IsConflict e := by
  unfold conflicts at h
  unfold Program.final
  cases hx : x d with
  | ok a d' =>
    rw [hx] at h
    cases h
  | error e d' =>
    rw [hx] at h
    exact ⟨e, rfl, of_decide_eq_true h⟩

/-- The same file once more. -/
theorem refused_upload_unchanged_same : ∃ e, IsConflict e ∧
    (handbookUpload "J2" [1]).prepare shelf {} desk shelved = .error e
      (((handbookUpload "J2" [1]).prepare shelf {} desk).final shelved) ∧
    Unchanged shelved (((handbookUpload "J2" [1]).prepare shelf {} desk).final shelved) := by
  obtain ⟨e, hraise, hconflict⟩ := exists_of_conflicts
    (x := (handbookUpload "J2" [1]).prepare shelf {} desk) (d := shelved) (by decide +kernel)
  have hhost : Outside {} (handbookUpload "J2" [1]).stream := by
    refine ⟨?_, ?_, ?_⟩
    · intro _ h
      cases h
    · intro _ _ h
      cases h
    · intro _ h
      cases h
  refine ⟨e, hconflict, hraise, (refused_upload_unchanged_iff _ shelf {} desk shelved _ e hhost
    hraise hconflict).mpr ?_⟩
  have hall : (targets (handbookUpload "J2" [1]).call shelf).all
      (fun o => shelved.world.content o = some [1]) = true := by decide +kernel
  exact fun o ho => of_decide_eq_true (List.all_eq_true.mp hall o ho)

/-- The file that is being indexed is replaced by the one that was refused. -/
theorem refused_upload_replaces_file : ∃ e, IsConflict e ∧
    (handbookUpload "J2" [2]).prepare shelf {} desk shelved = .error e
      (((handbookUpload "J2" [2]).prepare shelf {} desk).final shelved) ∧
    ¬ Unchanged shelved (((handbookUpload "J2" [2]).prepare shelf {} desk).final shelved) := by
  obtain ⟨e, hraise, hconflict⟩ := exists_of_conflicts
    (x := (handbookUpload "J2" [2]).prepare shelf {} desk) (d := shelved) (by decide +kernel)
  refine ⟨e, hconflict, hraise, fun h => ?_⟩
  have hbefore : shelved.world.content (.file ["data", "hr", "handbook", "v1", "handbook.txt"]) =
      some [1] := by decide +kernel
  have hafter : (((handbookUpload "J2" [2]).prepare shelf {} desk).final shelved).world.content
      (.file ["data", "hr", "handbook", "v1", "handbook.txt"]) = some [2] := by decide +kernel
  rw [h.stored, hbefore] at hafter
  cases hafter

end Handbook

end DomainRag.Indexing
