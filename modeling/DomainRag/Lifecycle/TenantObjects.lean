import DomainRag.Lifecycle.Tenants
import DomainRag.Storage.Confinement

/-! # The objects of a deleted tenant

A deletion calls the storage with an empty document id. The local store and the cache join it to the
directory of the tenant, but the object store looks for keys with a double slash after the domain,
which no saved object has. The objects in the bucket stay, and the deletion counts as completed.
-/

namespace DomainRag.Storage

open Program

/-- The place that a deletion removes with everything below it, in the base directory or in the
cache, which is left when it is no directory. -/
def DocumentStorage.removedPlace (d doc : String) (version : Option String)
    (files : FileSystem Bytes) : DocumentStorage → Option (List String)
  | filesystem storage => (files.find? (storage.target d doc version).parts).map Prod.fst
  | minio storage =>
    match files.find? (storage.cacheTarget d doc version).parts with
    | some (place, .dir) => some place
    | _ => none

/-- What a deletion takes away, as the paths and keys stand before it. -/
def Swept (storage : DocumentStorage) (d doc : String) (version : Option String) (w : World) :
    StoreObject → Prop
  | .file q => ∃ place ∈ storage.removedPlace d doc version w.files, place <+: q
  | .blob key => match storage with
    | .filesystem _ => False
    | .minio _ => (MinIOStorage.keyPrefix d doc version).toList <+: key.toList

structure Sweep (storage : DocumentStorage) (d doc : String) (version : Option String)
    (w w' : World) : Prop where
  gone : ∀ o, Swept storage d doc version w o → w'.content o = none
  kept : ∀ o, ¬ Swept storage d doc version w o → w'.content o = w.content o

section Sweeps

variable {d doc : String} {version : Option String} {w w' : World} {storage : DocumentStorage}

/-- The files that a removal leaves, for both stores. -/
def FilesSwept (removed : Option (List String)) (files files' : FileSystem Bytes) : Prop :=
  match removed with
  | some place => ∀ q, files'.file? q = if place <+: q then none else files.file? q
  | none => files' = files

theorem Sweep.of_files (hfiles : FilesSwept (storage.removedPlace d doc version w.files) w.files
      w'.files)
    (hgone : ∀ key, Swept storage d doc version w (.blob key) → w'.bucket.get? key = none)
    (hkept : ∀ key, ¬ Swept storage d doc version w (.blob key) →
      w'.bucket.get? key = w.bucket.get? key) : Sweep storage d doc version w w' := by
  constructor
  · intro o ho
    cases o with
    | file q =>
      obtain ⟨place, hplace, hpre⟩ := ho
      rw [Option.mem_def.mp hplace] at hfiles
      exact (hfiles q).trans (if_pos hpre)
    | blob key => exact hgone key ho
  · intro o ho
    cases o with
    | file q =>
      rw [World.content, World.content]
      cases hremoved : storage.removedPlace d doc version w.files with
      | none =>
        rw [hremoved] at hfiles
        rw [show w'.files = w.files from hfiles]
      | some place =>
        rw [hremoved] at hfiles
        exact (hfiles q).trans (if_neg fun hpre => ho ⟨place, hremoved, hpre⟩)
    | blob key => exact hkept key ho

theorem LocalFilesystemStorage.sweep_delete (storage : LocalFilesystemStorage) :
    Ensures (storage.delete d doc version) w
      (fun _ => Sweep (.filesystem storage) d doc version w) fun _ _ => False := by
  have hsweep : ∀ files, FilesSwept
      ((w.files.find? (storage.target d doc version).parts).map Prod.fst) w.files files →
      Sweep (.filesystem storage) d doc version w { w with files := files } :=
    fun files hfiles => .of_files hfiles (fun _ h => h.elim) fun _ _ => rfl
  rw [delete, ensures_bind, ensures_get]
  cases hfind : w.files.find? (storage.target d doc version).parts with
  | none =>
    rw [hfind] at hsweep
    exact hsweep w.files rfl
  | some found =>
    rw [hfind] at hsweep
    obtain ⟨place, node⟩ := found
    cases node with
    | file bytes => exact hsweep _ (FileSystem.file?_removeTree _ _)
    | dir => exact hsweep _ (FileSystem.file?_rmtree _ _ _)

theorem MinIOStorage.filesSwept_cleanCache (storage : MinIOStorage) :
    FilesSwept (DocumentStorage.removedPlace d doc version w.files (.minio storage)) w.files
      (cleanCache (storage.cacheTarget d doc version) w).files := by
  rw [DocumentStorage.removedPlace, cleanCache]
  cases hfind : w.files.find? (storage.cacheTarget d doc version).parts with
  | none => rfl
  | some found =>
    obtain ⟨place, node⟩ := found
    cases node with
    | file bytes => rfl
    | dir => exact FileSystem.file?_rmtree _ _ _

theorem MinIOStorage.sweep_delete (storage : MinIOStorage) (host : Host) :
    Ensures (storage.delete host d doc version) w
      (fun _ => Sweep (.minio storage) d doc version w) fun _ _ => True := by
  rw [delete, ensures_bind, ensures_failing]
  refine ⟨fun _ _ => trivial, fun _ => ?_⟩
  rw [ensures_bind, ensures_get, ensures_pure, ensures_bind]
  refine (ensures_removeObjects _).mono ?_ fun _ _ _ => trivial
  rintro _ w₁ ⟨hfiles, hbucket⟩
  rw [ensures_bind, ensures_modify, ensures_pure]
  have hcleaned := @filesSwept_cleanCache d doc version w₁ storage
  rw [hfiles] at hcleaned
  refine .of_files hcleaned ?_ ?_
  · intro key hkey
    rw [bucket_cleanCache, hbucket]
    split
    · rfl
    · rename_i hunlisted
      refine Dict.get?_eq_none_iff.mpr fun hmem => hunlisted (List.mem_filter.mpr ⟨hmem, ?_⟩)
      exact List.isPrefixOf_iff_prefix.mpr hkey
  · intro key hkey
    rw [bucket_cleanCache, hbucket]
    refine if_neg fun hlisted => hkey ?_
    exact List.isPrefixOf_iff_prefix.mp (List.mem_filter.mp hlisted).2

theorem sweep_delete (storage : DocumentStorage) (host : Host) :
    Ensures (storage.delete host d doc version) w (fun _ => Sweep storage d doc version w)
      fun _ _ => True := by
  cases storage with
  | filesystem storage => exact storage.sweep_delete.mono (fun _ _ h => h) fun _ _ _ => trivial
  | minio storage => exact storage.sweep_delete host

end Sweeps

end DomainRag.Storage

namespace DomainRag.Lifecycle

open Storage PostgresTenantLifecycleService

def Stage.completed : Stage → Bool
  | .ended (.ok record) => record.deleteStatus = some "completed"
  | _ => false

/-- What a deletion has done to the objects, where no step of it has failed. -/
def Sweeping (storage : DocumentStorage) (domainId : String) (w : World) (s : Platform) :
    Stage → Prop
  | .reading (.hardDelete _ _) | .marking _ => s.objects = w
  | .deleting deletion steps => deletion.failed = [] →
    (∃ before, steps = before ++ [.storage storage] ∧ (∀ step ∈ before, ∀ x, step ≠ .storage x) ∧
      s.objects = w) ∨ steps = [] ∧ Sweep storage domainId "" none w s.objects
  | .publishing record _ | .ended (.ok record) => record.deleteStatus = some "completed" →
    Sweep storage domainId "" none w s.objects
  | .ended (.error _) => True
  | .reading (.updateStatus _ _ _) | .writing _ _ _ _ => False

section Deleting

variable {service : PostgresTenantLifecycleService} {storage : DocumentStorage}
  {domainId : String} {w : World} {s : Platform} {turn : Turn}

theorem objects_updateTenant (f : TenantRow → TenantRow) :
    (s.updateTenant domainId f).objects = s.objects := by
  rw [Platform.updateTenant]
  split <;> rfl

theorem objects_exec {step : DeleteStep} (h : ∀ x, step ≠ .storage x) :
    (step.exec turn domainId s).1.objects = s.objects := by
  cases step with
  | postgres table =>
    rw [DeleteStep.exec]
    split <;> rfl
  | qdrant =>
    rw [DeleteStep.exec]
    split <;> rfl
  | storage store => exact absurd rfl (h store)

theorem sweep_exec (h : ((DeleteStep.storage storage).exec turn domainId s).2 = none) :
    Sweep storage domainId "" none s.objects
      ((DeleteStep.storage storage).exec turn domainId s).1.objects := by
  have hsweep : Program.Ensures
      (Program.failing turn.fault (storage.delete turn.host domainId "" none)) s.objects
      (fun _ => Sweep storage domainId "" none s.objects) fun _ _ => True :=
    Program.ensures_failing.mpr ⟨fun _ _ => trivial, fun _ => sweep_delete storage turn.host⟩
  rw [DeleteStep.exec] at h ⊢
  split at h
  · rename_i heq
    exact hsweep.of_ok heq
  · cases h

theorem failed_note {deletion : Deletion} {step : DeleteStep} {fault : Option Exc}
    (h : (deletion.note step fault).failed = []) : deletion.failed = [] ∧ fault = none := by
  cases fault with
  | none => exact ⟨h, rfl⟩
  | some e => exact absurd h (List.append_ne_nil_of_right_ne_nil _ (List.cons_ne_nil _ _))

theorem deleteSteps_eq (hstorage : service.storage = some storage) :
    ∃ before, service.deleteSteps = before ++ [.storage storage] ∧
      ∀ step ∈ before, ∀ x, step ≠ .storage x := by
  refine ⟨tenantScopedTables.map .postgres ++ (if service.vectorStore then [.qdrant] else []),
    ?_, ?_⟩
  · rw [deleteSteps, hstorage]
    rfl
  · intro step hstep x
    obtain hstep | hstep := List.mem_append.mp hstep
    · obtain ⟨table, -, rfl⟩ := List.mem_map.mp hstep
      exact nofun
    · split at hstep
      · rw [List.mem_singleton.mp hstep]
        exact nofun
      · cases hstep

/-- The tables and the vectors come before the storage, which is the last step. -/
theorem sweeping_exec {first : DeleteStep} {steps : List DeleteStep}
    (hfault : (first.exec turn domainId s).2 = none)
    (h : ∃ before, first :: steps = before ++ [.storage storage] ∧
      (∀ step ∈ before, ∀ x, step ≠ .storage x) ∧ s.objects = w) :
    (∃ before, steps = before ++ [.storage storage] ∧ (∀ step ∈ before, ∀ x, step ≠ .storage x) ∧
        (first.exec turn domainId s).1.objects = w) ∨
      steps = [] ∧ Sweep storage domainId "" none w (first.exec turn domainId s).1.objects := by
  obtain ⟨before, hsteps, hrows, hobjects⟩ := h
  cases before with
  | nil =>
    obtain ⟨rfl, rfl⟩ := List.cons.inj hsteps
    right
    rw [← hobjects]
    exact ⟨rfl, sweep_exec hfault⟩
  | cons row before =>
    obtain ⟨rfl, rfl⟩ := List.cons.inj hsteps
    left
    refine ⟨before, rfl, fun step hstep => hrows step (List.mem_cons_of_mem _ hstep), ?_⟩
    exact (objects_exec (hrows first List.mem_cons_self)).trans hobjects

theorem sweeping_step (hstorage : service.storage = some storage) (turn : Turn) (s : Platform)
    (l : Stage) (h : Sweeping storage domainId w s l) :
    Sweeping storage domainId w (service.step domainId turn s l).1
      (service.step domainId turn s l).2 := by
  cases l with
  | reading call =>
    cases call with
    | updateStatus toStatus actor reason => exact h.elim
    | hardDelete actor reason =>
      rw [step]
      split
      · trivial
      · cases hrow : s.tenants.get? domainId with
        | none => trivial
        | some row =>
          simp only [check, Option.map_some]
          split
          · trivial
          · exact h
  | writing record toStatus actor reason => exact h.elim
  | marking deletion =>
    rw [step]
    split
    · trivial
    · intro _
      obtain ⟨before, hsteps, hbefore⟩ := deleteSteps_eq hstorage
      exact .inl ⟨before, hsteps, hbefore, (objects_updateTenant _).trans h⟩
  | deleting deletion steps =>
    cases steps with
    | nil =>
      rw [step]
      split
      · trivial
      · intro hcompleted
        have hfailed : deletion.failed = [] := by
          by_contra hfailed
          simp [Deletion.deleteStatus, hfailed] at hcompleted
        obtain ⟨before, hsteps, -⟩ | ⟨-, hsweep⟩ := h hfailed
        · exact absurd hsteps.symm (List.append_ne_nil_of_right_ne_nil _ (List.cons_ne_nil _ _))
        · have hobjects : (close domainId turn.now deletion s).objects = s.objects :=
            objects_updateTenant _
          rw [hobjects]
          exact hsweep
    | cons first steps =>
      intro hfailed
      obtain ⟨hbefore, hfault⟩ := failed_note hfailed
      obtain hsteps | ⟨hsteps, -⟩ := h hbefore
      · exact sweeping_exec hfault hsteps
      · cases hsteps
  | publishing record entry =>
    intro hcompleted
    rw [step, publish]
    split <;> exact h hcompleted
  | ended result => exact h

theorem sweep_of_completed (hstorage : service.storage = some storage) (actor reason : String)
    (turns : List Turn) (h : ((service.calls domainId).alone s
      (.reading (.hardDelete actor reason)) turns).2.completed = true) :
    Sweep storage domainId "" none s.objects ((service.calls domainId).alone s
      (.reading (.hardDelete actor reason)) turns).1.objects := by
  have hstart : Sweeping storage domainId s.objects s (.reading (.hardDelete actor reason)) := rfl
  have hend := (service.calls domainId).alone_invariant turns hstart (sweeping_step hstorage)
  generalize (service.calls domainId).alone s (.reading (.hardDelete actor reason)) turns = r
    at h hend
  obtain ⟨s', l⟩ := r
  cases l with
  | ended result =>
    cases result with
    | ok record => exact hend (of_decide_eq_true h)
    | error e => cases h
  | reading call => cases h
  | writing record toStatus actor reason => cases h
  | marking deletion => cases h
  | deleting deletion steps => cases h
  | publishing record entry => cases h

end Deleting

/-- The world after saves, each with what it wrote. -/
def savedHistory (storage : DocumentStorage) (w : World) (saves : List (Host × SaveCall)) :
    History :=
  saves.foldl (fun s save => s.after storage (.save save.1 save.2)) ⟨w, []⟩

/-- No object that was saved under the tenant is left, and those of the others are as before. -/
structure Emptied (domainId : String) (s : History) (w : World) : Prop where
  gone : ∀ e ∈ s.past, e.1.domainId = domainId → ∀ o ∈ e.2, w.content o = none
  kept : ∀ e ∈ s.past, e.1.domainId ≠ domainId → ∀ o ∈ e.2, w.content o = s.world.content o

/-- Of the stored objects, those saved under the tenant are the ones that its deletion takes. -/
def SweepsExactly (storage : DocumentStorage) (domainId : String) (s : History) : Prop :=
  ∀ e ∈ s.past, ∀ o ∈ e.2, s.world.content o ≠ none →
    (e.1.domainId = domainId ↔ Swept storage domainId "" none s.world o)

theorem emptied_iff {storage : DocumentStorage} {domainId : String} {s : History} {w : World}
    (h : Sweep storage domainId "" none s.world w) :
    Emptied domainId s w ↔ SweepsExactly storage domainId s := by
  constructor
  · intro hemptied e he o ho hstored
    constructor
    · intro hdomain
      by_contra hswept
      exact hstored ((h.kept o hswept).symm.trans (hemptied.gone e he hdomain o ho))
    · intro hswept
      by_contra hdomain
      exact hstored ((hemptied.kept e he hdomain o ho).symm.trans (h.gone o hswept))
  · intro hexact
    constructor
    · intro e he hdomain o ho
      by_cases hstored : s.world.content o = none
      · by_cases hswept : Swept storage domainId "" none s.world o
        · exact h.gone o hswept
        · exact (h.kept o hswept).trans hstored
      · exact h.gone o ((hexact e he o ho hstored).mp hdomain)
    · intro e he hdomain o ho
      by_cases hstored : s.world.content o = none
      · by_cases hswept : Swept storage domainId "" none s.world o
        · exact (h.gone o hswept).trans hstored.symm
        · exact h.kept o hswept
      · exact h.kept o fun hswept => hdomain ((hexact e he o ho hstored).mpr hswept)

/-- A completed deletion empties the storage of its tenant, and of no other, exactly when the stored
objects of the tenant are those below its directory or with a double slash after its name. -/
theorem completed_deletion_empties_iff (service : PostgresTenantLifecycleService)
    (storage : DocumentStorage) (hstorage : service.storage = some storage)
    (domainId actor reason : String) (w : World) (saves : List (Host × SaveCall)) (s : Platform)
    (hobjects : s.objects = (savedHistory storage w saves).world) (turns : List Turn)
    (hcompleted : ((service.calls domainId).alone s
      (.reading (.hardDelete actor reason)) turns).2.completed = true) :
    Emptied domainId (savedHistory storage w saves) ((service.calls domainId).alone s
        (.reading (.hardDelete actor reason)) turns).1.objects ↔
      SweepsExactly storage domainId (savedHistory storage w saves) := by
  have hsweep := sweep_of_completed hstorage actor reason turns hcompleted
  rw [hobjects] at hsweep
  exact emptied_iff hsweep

section Plain

variable {storage : DocumentStorage} {d : String} {files : FileSystem Bytes} {w : World}
  {call : SaveCall}

theorem dotDot_notMem_tenant (hd : DomainName d) : ".." ∉ storage.dir ++ [d] := by
  intro h
  obtain h | h := List.mem_append.mp h
  · exact storage.dir_resolved h
  · exact hd.ne_dotDot (List.mem_singleton.mp h).symm

/-- An empty document id leads to the directory of the tenant. -/
theorem parts_tenant (hd : DomainName d) (root : PurePath) (hroot : root.parts = storage.dir) :
    ((root.join d).join "").parts = storage.dir ++ [d] := by
  rw [PurePath.join_empty, hd.join, hroot]

theorem removedPlace_of_dir (hd : DomainName d)
    (h : files.get? (storage.dir ++ [d]) = some .dir) :
    storage.removedPlace d "" none files = some (storage.dir ++ [d]) := by
  have hfind := FileSystem.find?_of_get? (dotDot_notMem_tenant hd) h
  cases storage with
  | filesystem storage =>
    have hparts : (storage.target d "" none).parts = _ :=
      @parts_tenant (.filesystem storage) d hd storage.basePath rfl
    rw [DocumentStorage.removedPlace, hparts, hfind]
    rfl
  | minio storage =>
    have hparts : (storage.cacheTarget d "" none).parts = _ :=
      @parts_tenant (.minio storage) d hd storage.cachePath rfl
    rw [DocumentStorage.removedPlace, hparts, hfind]

theorem eq_of_removedPlace (hd : DomainName d) {place : List String}
    (h : storage.removedPlace d "" none files = some place) : place = storage.dir ++ [d] := by
  have hspec : ∀ node, files.find? (storage.dir ++ [d]) = some (place, node) →
      place = storage.dir ++ [d] := by
    intro node hfind
    rw [(FileSystem.find?_spec hfind).1, FileSystem.foldl_visit (dotDot_notMem_tenant hd)]
    rfl
  cases storage with
  | filesystem storage =>
    have hparts : (storage.target d "" none).parts = _ :=
      @parts_tenant (.filesystem storage) d hd storage.basePath rfl
    rw [DocumentStorage.removedPlace, hparts] at h
    obtain ⟨⟨place, node⟩, hfind, rfl⟩ := Option.map_eq_some_iff.mp h
    exact hspec node hfind
  | minio storage =>
    have hparts : (storage.cacheTarget d "" none).parts = _ :=
      @parts_tenant (.minio storage) d hd storage.cachePath rfl
    rw [DocumentStorage.removedPlace, hparts] at h
    split at h
    · rename_i hfind
      cases h
      exact hspec .dir hfind
    · cases h

theorem swept_file_iff (hd : DomainName d) {q : List String}
    (hplaced : Placed storage call (.file q)) (hstored : w.content (.file q) ≠ none) :
    call.domainId = d ↔ Swept storage d "" none w (.file q) := by
  obtain ⟨name, rfl⟩ := hplaced
  have hhome : home storage call ++ [name] = storage.dir ++ [call.domainId] ++
      [call.docId, call.version, name] := by
    simp [place]
  constructor
  · rintro rfl
    refine ⟨storage.dir ++ [call.domainId], removedPlace_of_dir hd ?_, ?_⟩
    · have hsome : w.files.get? (storage.dir ++ [call.domainId] ++
          [call.docId, call.version, name]) ≠ none := by
        intro hnone
        rw [hhome, World.content, FileSystem.file?, hnone] at hstored
        exact hstored rfl
      exact FileSystem.get?_above hsome (List.cons_ne_nil _ _)
    · rw [hhome]
      exact List.prefix_append _ _
  · rintro ⟨place, hplace, hpre⟩
    rw [eq_of_removedPlace hd hplace, hhome, List.append_assoc,
      List.prefix_append_right_inj] at hpre
    exact (List.cons_prefix_cons.mp hpre).1.symm

/-- No key that a save makes has a double slash after the domain. -/
theorem not_swept_blob (hd : DomainName d)
    (hnamed : Named storage call.domainId call.docId (some call.version)) {key : String}
    (hplaced : Placed storage call (.blob key)) : ¬ Swept storage d "" none w (.blob key) := by
  cases storage with
  | filesystem storage => exact id
  | minio storage =>
    rintro ⟨rest, hrest⟩
    obtain ⟨rest', hrest'⟩ : (MinIOStorage.keyPrefix call.domainId call.docId
      (some call.version)).toList <+: key.toList := hplaced
    rw [toList_keyPrefix] at hrest hrest'
    have hdoc : PlainName call.docId := hnamed.doc.plain
    have hkeys := hrest.trans hrest'.symm
    simp only [List.append_assoc, List.cons_append] at hkeys
    obtain ⟨-, hslash⟩ := name_inj hd.noSlash hnamed.domain.noSlash hkeys
    cases hchars : call.docId.toList with
    | nil => exact hdoc.ne_empty (String.toList_eq_nil_iff.mp hchars)
    | cons c cs =>
      rw [hchars] at hslash
      have hc : '/' = c := (List.cons.inj hslash).1
      exact hdoc.noSlash (by rw [hchars, hc]; exact List.mem_cons_self)

theorem kept_savedHistory {saves : List (Host × SaveCall)} (hfresh : Fresh storage w)
    (hnamed : ∀ save ∈ saves, Named storage save.2.domainId save.2.docId (some save.2.version))
    (hfits : ∀ save ∈ saves, storage.FitFile save.2.filename) :
    Kept storage (savedHistory storage w saves) := by
  refine List.foldlRecOn saves _ hfresh.kept ?_
  intro s hkept save hsave
  exact (hkept.save (hnamed save hsave) (hfits save hsave)).1

/-- With plain names a deletion takes the files of its tenant and no object of a bucket. -/
theorem sweepsExactly_iff_of_plain {saves : List (Host × SaveCall)} (hfresh : Fresh storage w)
    (hd : DomainName d)
    (hnamed : ∀ save ∈ saves, Named storage save.2.domainId save.2.docId (some save.2.version))
    (hfits : ∀ save ∈ saves, storage.FitFile save.2.filename) :
    SweepsExactly storage d (savedHistory storage w saves) ↔
      ∀ e ∈ (savedHistory storage w saves).past, e.1.domainId = d → ∀ key, .blob key ∈ e.2 →
        (savedHistory storage w saves).world.content (.blob key) = none := by
  have hkept := kept_savedHistory hfresh hnamed hfits
  constructor
  · intro hexact e he hdomain key hkey
    by_contra hstored
    exact not_swept_blob hd (hkept.named e he) (hkept.placed e he _ hkey)
      ((hexact e he _ hkey hstored).mp hdomain)
  · intro hblobs e he o ho hstored
    cases o with
    | file q => exact swept_file_iff hd (hkept.placed e he _ ho) hstored
    | blob key =>
      constructor
      · intro hdomain
        exact absurd (hblobs e he hdomain key ho) hstored
      · intro hswept
        exact absurd hswept (not_swept_blob hd (hkept.named e he) (hkept.placed e he _ ho))

end Plain

def archivedTenant (storage : DocumentStorage) (saves : List (Host × SaveCall)) : Platform where
  tenants := .ofList [("hr", { displayName := "HR", status := "archived" })]
  tables := fun _ => []
  vectors := ⟨.empty⟩
  objects := (savedHistory storage emptyArchive saves).world

theorem local_deletion_empties :
    Emptied "hr" (savedHistory localArchive emptyArchive [({}, pay "DOC-1" "v1")])
      (((⟨false, some localArchive, false⟩ : PostgresTenantLifecycleService).calls "hr").alone
        (archivedTenant localArchive [({}, pay "DOC-1" "v1")])
        (.reading (.hardDelete "root" "closed")) (List.replicate 22 {})).1.objects := by
  have hfresh : Fresh localArchive emptyArchive :=
    ⟨rfl, fun q _ => file?_emptyArchive q, fun _ => rfl⟩
  have hnamed : ∀ save ∈ [(({}, pay "DOC-1" "v1") : Host × SaveCall)],
      Named localArchive save.2.domainId save.2.docId (some save.2.version) := by
    intro save hsave
    rw [List.mem_singleton.mp hsave]
    refine ⟨⟨by decide, by decide⟩, (by decide : PlainName "DOC-1"), ?_⟩
    rintro _ ⟨⟩
    exact (by decide : PlainName "v1")
  refine (completed_deletion_empties_iff _ localArchive rfl "hr" "root" "closed" emptyArchive _ _
    rfl (List.replicate 22 {}) (by decide +kernel)).mpr ?_
  refine (sweepsExactly_iff_of_plain hfresh ⟨by decide, by decide⟩ hnamed fun _ _ => trivial).mpr ?_
  intro e he _ key hkey
  exact ((kept_savedHistory hfresh hnamed fun _ _ => trivial).placed e he _ hkey).elim

/-- The deletion completes, and the document of the tenant is still in the bucket. -/
theorem bucket_deletion_leaves_objects :
    (((⟨false, some bucketArchive, false⟩ : PostgresTenantLifecycleService).calls "hr").alone
        (archivedTenant bucketArchive [({}, pay "DOC-1" "v1")])
        (.reading (.hardDelete "root" "closed")) (List.replicate 22 {})).2.completed = true ∧
      ¬ Emptied "hr" (savedHistory bucketArchive emptyArchive [({}, pay "DOC-1" "v1")])
        (((⟨false, some bucketArchive, false⟩ : PostgresTenantLifecycleService).calls "hr").alone
          (archivedTenant bucketArchive [({}, pay "DOC-1" "v1")])
          (.reading (.hardDelete "root" "closed")) (List.replicate 22 {})).1.objects := by
  refine ⟨by decide +kernel, fun h => ?_⟩
  have hmem : .blob "hr/DOC-1/v1/pay.txt" ∈
      (History.saved bucketArchive ⟨emptyArchive, []⟩ {} (pay "DOC-1" "v1")).writes := by
    decide +kernel
  have hgone := h.gone (pay "DOC-1" "v1", _) (List.mem_singleton_self _) rfl _ hmem
  exact absurd hgone (by decide +kernel)

end DomainRag.Lifecycle
