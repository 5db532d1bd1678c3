import DomainRag.Storage.Service

/-! # Storage confinement

The names of a document and its version become parts of a path and of an object key as they are.
Where they are plain, every save stays below its own version and every deletion removes what was
saved there and nothing else.
-/

namespace DomainRag.Storage

open Program

/-- A plain name that keys and paths spell alike. -/
structure DomainName (s : String) : Prop extends PlainName s where
  noBackslash : '\\' ∉ s.toList

inductive StorageOp where
  | save (host : Host) (call : SaveCall)
  | delete (host : Host) (domainId docId : String) (version : Option String)

namespace DocumentStorage

variable (storage : DocumentStorage)

def dir : DocumentStorage → List String
  | filesystem storage => storage.base
  | minio storage => storage.cache

def Inside (domainId : String) : StoreObject → Prop
  | .file place => storage.dir ++ [domainId] <+: place
  | .blob key => (domainId ++ "/").toList <+: key.toList

/-- A name of a document or a version that is one part of a path and, where objects are kept by
keys, one part of a key. -/
def FitName (s : String) : DocumentStorage → Prop
  | filesystem _ => PlainName s
  | minio _ => DomainName s

/-- The file name is no single dot, which an object store would take for the version itself. -/
def FitFile (filename : String) : DocumentStorage → Prop
  | filesystem _ => True
  | minio _ => basename filename ≠ "."

end DocumentStorage

namespace StorageOp

def domainId : StorageOp → String
  | save _ call => call.domainId
  | delete _ domainId _ _ => domainId

/-- The names that an operation gives. -/
def Fits (storage : DocumentStorage) : StorageOp → Prop
  | save _ call => storage.FitName call.docId ∧ storage.FitName call.version ∧
      storage.FitFile call.filename
  | delete _ _ docId version => storage.FitName docId ∧ ∀ v ∈ version, storage.FitName v

end StorageOp

/-- The stores with all the saves so far and the objects that each of them wrote. -/
structure History where
  world : World
  past : List (SaveCall × List StoreObject)

namespace History

variable (storage : DocumentStorage)

def start (s : History) : World := { s.world with writes := [] }

def saved (s : History) (host : Host) (call : SaveCall) : World :=
  (storage.save host call).final s.start

def after (s : History) : StorageOp → History
  | .save host call =>
    ⟨s.saved storage host call, s.past ++ [(call, (s.saved storage host call).writes)]⟩
  | .delete host domainId docId version =>
    ⟨(storage.delete host domainId docId version).final s.world, s.past⟩

/-- A save writes inside its domain, changes nothing that it does not write, and writes nothing that
a save for another document or version wrote. -/
structure SaveConfined (s : History) (host : Host) (call : SaveCall) : Prop where
  inside : ∀ o ∈ (s.saved storage host call).writes, storage.Inside call.domainId o
  folders : ∀ place, (s.saved storage host call).files.get? place ≠ s.world.files.get? place →
    storage.Inside call.domainId (.file place)
  framed : ∀ o, o ∉ (s.saved storage host call).writes →
    (s.saved storage host call).content o = s.world.content o
  separate : ∀ e ∈ s.past, (e.1.docId, e.1.version) ≠ (call.docId, call.version) →
    ∀ o ∈ (s.saved storage host call).writes, o ∉ e.2

/-- The saves that a deletion is about: those of the document, and of the version if one is
given. -/
def Selects (domainId docId : String) (version : Option String) (call : SaveCall) : Prop :=
  call.domainId = domainId ∧ call.docId = docId ∧ ∀ v ∈ version, call.version = v

/-- A deletion that returns removes the objects of its saves and leaves all others. -/
structure DeleteExact (s : History) (host : Host) (domainId docId : String)
    (version : Option String) : Prop where
  removed : ∀ n, (storage.delete host domainId docId version).result? s.world = some n →
    ∀ e ∈ s.past, Selects domainId docId version e.1 → ∀ o ∈ e.2,
      ((storage.delete host domainId docId version).final s.world).content o = none
  kept : ∀ o, (∀ e ∈ s.past, Selects domainId docId version e.1 → o ∉ e.2) →
    ((storage.delete host domainId docId version).final s.world).content o = s.world.content o

def Confined (s : History) : StorageOp → Prop
  | .save host call => s.SaveConfined storage host call
  | .delete host domainId docId version => s.DeleteExact storage host domainId docId version

end History

/-- A storage that was just set up: its directory exists and it holds nothing. -/
structure Fresh (storage : DocumentStorage) (w : World) : Prop where
  dir : w.files.get? storage.dir = some .dir
  noFile : ∀ place, storage.dir <+: place → w.files.file? place = none
  noBlob : ∀ key, w.bucket.get? key = none

section Layout

variable {storage : DocumentStorage} {call call' : SaveCall} {o : StoreObject}
  {d doc : String} {version : Option String}

/-- The names of a save, and of a deletion, are plain. -/
structure Named (storage : DocumentStorage) (d doc : String) (version : Option String) : Prop where
  domain : DomainName d
  doc : storage.FitName doc
  version : ∀ v ∈ version, storage.FitName v

theorem DocumentStorage.FitName.plain {s : String} (h : storage.FitName s) : PlainName s := by
  cases storage with
  | filesystem _ => exact h
  | minio _ => exact h.toPlainName

theorem DocumentStorage.dir_resolved (storage : DocumentStorage) : ".." ∉ storage.dir := by
  cases storage with
  | filesystem storage => exact storage.resolved
  | minio storage => exact storage.resolved

def place (storage : DocumentStorage) (d doc : String) (version : Option String) : List String :=
  storage.dir ++ d :: doc :: version.toList

abbrev home (storage : DocumentStorage) (call : SaveCall) : List String :=
  place storage call.domainId call.docId (some call.version)

/-- Where the objects of a document or a version lie. -/
def Region (storage : DocumentStorage) (d doc : String) (version : Option String) :
    StoreObject → Prop
  | .file q => place storage d doc version <+: q
  | .blob key => match storage with
    | .filesystem _ => False
    | .minio _ => (MinIOStorage.keyPrefix d doc version).toList <+: key.toList

/-- Where a save may write. -/
def Placed (storage : DocumentStorage) (call : SaveCall) : StoreObject → Prop
  | .file q => ∃ name, q = home storage call ++ [name]
  | .blob key => Region storage call.domainId call.docId (some call.version) (.blob key)

theorem toList_keyPrefix (d doc : String) (version : Option String) :
    (MinIOStorage.keyPrefix d doc version).toList = d.toList ++ '/' :: (doc.toList ++ '/' ::
      (version.toList.flatMap fun v => v.toList ++ ['/'])) := by
  cases version with
  | none => simp [MinIOStorage.keyPrefix]
  | some v => simp [MinIOStorage.keyPrefix]

theorem Placed.inside (h : Placed storage call o) : storage.Inside call.domainId o := by
  cases o with
  | file q =>
    obtain ⟨name, rfl⟩ := h
    exact ⟨[call.docId, call.version, name], by simp [place]⟩
  | blob key =>
    cases storage with
    | filesystem _ => exact h.elim
    | minio _ =>
      refine List.IsPrefix.trans ?_ h
      rw [toList_keyPrefix]
      exact ⟨call.docId.toList ++ '/' :: (call.version.toList ++ ['/']), by simp⟩

/-- Names without a slash can be read off in front of one. -/
theorem name_inj {a b : String} {r r' : List Char} (ha : '/' ∉ a.toList) (hb : '/' ∉ b.toList)
    (h : a.toList ++ '/' :: r = b.toList ++ '/' :: r') : a = b ∧ r = r' := by
  have hsplit := congrArg (List.splitOn '/') h
  rw [List.splitOn_append_cons_self_of_not_mem ha, List.splitOn_append_cons_self_of_not_mem hb]
    at hsplit
  have hab := (List.cons.inj hsplit).1
  rw [hab] at h
  exact ⟨String.toList_inj.mp hab, (List.cons.inj (List.append_cancel_left h)).2⟩

theorem selects_of_keyPrefix {key : List Char}
    (hcall : Named storage call.domainId call.docId (some call.version))
    (hnamed : Named storage d doc version)
    (hplaced : (MinIOStorage.keyPrefix call.domainId call.docId (some call.version)).toList <+: key)
    (h : (MinIOStorage.keyPrefix d doc version).toList <+: key) :
    History.Selects d doc version call := by
  obtain ⟨rest, rfl⟩ := hplaced
  obtain ⟨rest', hrest⟩ := h
  simp only [toList_keyPrefix, List.append_assoc, List.cons_append] at hrest
  obtain ⟨hd, hrest⟩ := name_inj hnamed.domain.noSlash hcall.domain.noSlash hrest
  obtain ⟨hdoc, hrest⟩ := name_inj hnamed.doc.plain.noSlash hcall.doc.plain.noSlash hrest
  refine ⟨hd.symm, hdoc.symm, ?_⟩
  rintro v hv
  obtain rfl : version = some v := hv
  simp only [Option.toList_some, List.flatMap_cons, List.flatMap_nil, List.append_nil,
    List.append_assoc, List.singleton_append] at hrest
  exact (name_inj (hnamed.version v rfl).plain.noSlash
    (hcall.version call.version rfl).plain.noSlash hrest).1.symm

theorem keyPrefix_of_selects (h : History.Selects d doc version call) :
    (MinIOStorage.keyPrefix d doc version).toList <+:
      (MinIOStorage.keyPrefix call.domainId call.docId (some call.version)).toList := by
  obtain ⟨rfl, rfl, hversion⟩ := h
  cases version with
  | none =>
    rw [toList_keyPrefix, toList_keyPrefix]
    exact ⟨call.version.toList ++ ['/'], by simp⟩
  | some v => rw [hversion v rfl]

/-- A save lies in the regions that select it, and in no others. -/
theorem Placed.region_iff (hcall : Named storage call.domainId call.docId (some call.version))
    (hnamed : Named storage d doc version) (h : Placed storage call o) :
    Region storage d doc version o ↔ History.Selects d doc version call := by
  cases o with
  | file q =>
    obtain ⟨name, rfl⟩ := h
    rw [Region, home, place, place, List.append_assoc, List.prefix_append_right_inj, List.cons_append,
      List.cons_append, List.cons_prefix_cons, List.cons_prefix_cons]
    cases version with
    | none => simp [History.Selects, eq_comm]
    | some v => simp [History.Selects, eq_comm, List.cons_prefix_cons]
  | blob key =>
    cases storage with
    | filesystem _ => exact h.elim
    | minio _ =>
      exact ⟨selects_of_keyPrefix hcall hnamed h, fun hsel => (keyPrefix_of_selects hsel).trans h⟩

/-- Saves of different documents or versions lie apart. -/
theorem Placed.pair_eq {call' : SaveCall}
    (hcall : Named storage call.domainId call.docId (some call.version))
    (hcall' : Named storage call'.domainId call'.docId (some call'.version))
    (h : Placed storage call o) (h' : Placed storage call' o) :
    (call.docId, call.version) = (call'.docId, call'.version) := by
  have hself : Region storage call'.domainId call'.docId (some call'.version) o :=
    (h'.region_iff hcall' hcall').mpr ⟨rfl, rfl, fun _ hv => Option.some.inj hv⟩
  obtain ⟨-, hdoc, hversion⟩ := (h.region_iff hcall hcall').mp hself
  rw [hdoc, hversion _ rfl]

end Layout

section Saves

variable {storage : DocumentStorage} {call : SaveCall} {w w₁ w₂ : World}

/-- What a save has done so far. -/
structure SaveEffect (storage : DocumentStorage) (call : SaveCall) (w w' : World) : Prop where
  placed : ∀ o ∈ w'.writes, Placed storage call o
  framed : ∀ o, o ∉ w'.writes → w'.content o = w.content o
  folders : ∀ q, w'.files.get? q ≠ w.files.get? q → storage.Inside call.domainId (.file q)
  dirs : ∀ q, w.files.get? q = some .dir → w'.files.get? q = some .dir

/-- The directories on the way to a version that are missing belong to the domain. -/
theorem inside_of_missing {q : List String} {n : Nat}
    (hdir : w.files.get? storage.dir = some .dir) (hmissing : w.files.get? q = none)
    (hq : q = (home storage call).take n) :
    storage.Inside call.domainId (.file q) := by
  have hpre : q <+: home storage call :=
    hq ▸ List.take_prefix n _
  obtain ⟨rest, hrest⟩ | ⟨rest, rfl⟩ :=
    List.prefix_or_prefix_of_prefix hpre (List.prefix_append storage.dir _)
  · -- a directory above the storage's own is there
    have hexists : w.files.get? q ≠ none := by
      by_cases hnil : rest = []
      · rw [hnil, List.append_nil] at hrest
        rw [hrest, hdir]
        exact Option.some_ne_none _
      · have habove : w.files.get? q = some .dir := by
          refine FileSystem.get?_above ?_ hnil
          rw [hrest, hdir]
          exact Option.some_ne_none _
        rw [habove]
        exact Option.some_ne_none _
    exact absurd hmissing hexists
  · cases rest with
    | nil =>
      rw [List.append_nil, hdir] at hmissing
      cases hmissing
    | cons name rest =>
      rw [home, place, List.prefix_append_right_inj, List.cons_prefix_cons] at hpre
      obtain ⟨rfl, -⟩ := hpre
      exact ⟨rest, by simp⟩

theorem dotDot_notMem_place {d doc : String} {version : Option String}
    (hnamed : Named storage d doc version) : ".." ∉ place storage d doc version := by
  intro h
  obtain h | h := List.mem_append.mp h
  · exact storage.dir_resolved h
  · obtain h | h := List.mem_cons.mp h
    · exact hnamed.domain.ne_dotDot h.symm
    · obtain h | h := List.mem_cons.mp h
      · exact hnamed.doc.plain.ne_dotDot h.symm
      · exact (hnamed.version ".." (Option.mem_toList.mp h)).plain.ne_dotDot rfl

variable (hnamed : Named storage call.domainId call.docId (some call.version))
  (hdir : w.files.get? storage.dir = some .dir) (hwrites : w.writes = [])

include hnamed hdir hwrites

theorem SaveEffect.of_grown {files : FileSystem Bytes}
    (h : FileSystem.Grown w.files files []
      (home storage call)) :
    SaveEffect storage call w { w with files := files } := by
  refine ⟨?_, ?_, ?_, ?_⟩
  · intro o ho
    rw [hwrites] at ho
    cases ho
  · intro o _
    cases o with
    | blob key => rfl
    | file q =>
      obtain hsame | ⟨hnone, hnew, -⟩ := h q
      · exact FileSystem.file?_congr hsame
      · simp only [World.content, FileSystem.file?, hnone, hnew]
  · intro q hq
    obtain hsame | ⟨hnone, -, n, hn⟩ := h q
    · exact absurd hsame hq
    · refine inside_of_missing hdir hnone (n := n) ?_
      rw [hn, FileSystem.foldl_visit, List.nil_append]
      exact fun hmem => dotDot_notMem_place hnamed (List.mem_of_mem_take hmem)
  · intro q hq
    obtain hsame | ⟨hnone, -, -⟩ := h q
    · exact hsame.trans hq
    · cases hnone.symm.trans hq

/-- The directory of the version is made. -/
theorem ensures_mkdirs_version :
    Ensures (onFiles (FileSystem.mkdirs (home storage call))) w
      (fun _ w₁ => SaveEffect storage call w w₁ ∧ w₁.writes = [] ∧
        w₁.files.get? (home storage call) = some .dir)
      fun _ => SaveEffect storage call w := by
  rw [ensures_onFiles]
  refine (FileSystem.ensures_mkdirsFrom w.files.rooted).mono ?_ ?_
  · rintro _ files ⟨rfl, hmade, hgrown⟩
    rw [FileSystem.foldl_visit (dotDot_notMem_place hnamed), List.nil_append] at hmade
    exact ⟨.of_grown hnamed hdir hwrites hgrown, hwrites, hmade⟩
  · intro _ files hgrown
    exact .of_grown hnamed hdir hwrites hgrown

omit hdir hwrites in
/-- A file name that is written is a name of its own in the directory of the version. -/
theorem SaveEffect.copied {path : PurePath} {bytes : Bytes} {name : String}
    (h : SaveEffect storage call w w₁) (hwrites : w₁.writes = [])
    (hmade : w₁.files.get? (home storage call) = some .dir)
    (hpath : path.parts = home storage call ∨
      path.parts = home storage call ++ [name])
    (hcopied : Copied path bytes w₁ w₂) :
    SaveEffect storage call w w₂ ∧ w₂.bucket = w₁.bucket := by
  have hplain := dotDot_notMem_place hnamed
  have htarget : path.parts.foldl FileSystem.visit [] =
      home storage call ++ [name] := by
    have hnot := hcopied.notDir
    obtain hpath | hpath := hpath
    · rw [hpath, FileSystem.foldl_visit hplain, List.nil_append] at hnot
      exact absurd hmade hnot
    · rw [hpath, List.foldl_append, FileSystem.foldl_visit hplain, List.nil_append] at hnot ⊢
      rw [List.foldl_cons, List.foldl_nil, FileSystem.visit] at hnot ⊢
      by_cases hname : name = ".."
      · rw [if_pos hname] at hnot
        exact absurd (FileSystem.get?_dropLast hmade) hnot
      · rw [if_neg hname]
  have hnew : w₂.writes =
      [.file (home storage call ++ [name])] := by
    rw [hcopied.writes, hwrites, htarget, List.nil_append]
  have hfiles := hcopied.files
  rw [htarget] at hfiles
  have hinside : Placed storage call
      (.file (home storage call ++ [name])) :=
    ⟨name, rfl⟩
  refine ⟨⟨?_, ?_, ?_, ?_⟩, hcopied.bucket⟩
  · intro o ho
    rw [hnew] at ho
    exact List.mem_singleton.mp ho ▸ hinside
  · intro o ho
    rw [hnew, List.mem_singleton] at ho
    rw [← h.framed o (by rw [hwrites]; exact List.not_mem_nil)]
    cases o with
    | blob key => rw [World.content, World.content, hcopied.bucket]
    | file q =>
      refine FileSystem.file?_congr ((hfiles q).trans (if_neg ?_))
      rintro rfl
      exact ho rfl
  · intro q hq
    by_cases hsame : q = home storage call ++ [name]
    · exact hsame ▸ hinside.inside
    · rw [hfiles q, if_neg hsame] at hq
      exact h.folders q hq
  · intro q hq
    have hq₁ := h.dirs q hq
    rw [hfiles q, if_neg]
    · exact hq₁
    · rintro rfl
      exact hcopied.notDir (htarget ▸ hq₁)

omit hnamed hdir hwrites in
theorem SaveEffect.put {key : String} {data : Bytes} (h : SaveEffect storage call w w₁)
    (hplaced : Placed storage call (.blob key)) :
    SaveEffect storage call w
      { w₁ with bucket := w₁.bucket.set key data, writes := w₁.writes ++ [.blob key] } := by
  refine ⟨?_, ?_, h.folders, h.dirs⟩
  · intro o ho
    obtain ho | ho := List.mem_append.mp ho
    · exact h.placed o ho
    · exact List.mem_singleton.mp ho ▸ hplaced
  · intro o ho
    obtain ⟨hold, hnew⟩ := not_or.mp (mt List.mem_append.mpr ho)
    rw [← h.framed o hold]
    cases o with
    | file q => rfl
    | blob key' =>
      refine (Dict.get?_set _ _ _ _).trans (if_neg ?_)
      rintro rfl
      exact hnew List.mem_cons_self

omit hdir hwrites in
theorem parts_home : (storage.dir ++ call.relDir.parts) = home storage call ∧
    call.relDir.root = "" := by
  have hversion := (hnamed.version call.version rfl).plain
  rw [SaveCall.relDir, hnamed.domain.ofString, hnamed.doc.plain.join, hversion.join]
  exact ⟨rfl, rfl⟩

omit hnamed hdir hwrites in
theorem safeFilename_spec (filename : String) :
    '/' ∉ (safeFilename filename).toList ∧ safeFilename filename ≠ "" := by
  unfold safeFilename
  split
  · exact ⟨by decide, by decide⟩
  · rename_i hne
    exact ⟨noSlash_basename filename, hne⟩

end Saves

section Stores

variable {call : SaveCall} {w : World} {host : Host}

theorem LocalFilesystemStorage.ensures_save {storage : LocalFilesystemStorage}
    (hnamed : Named (.filesystem storage) call.domainId call.docId (some call.version))
    (hdir : w.files.get? storage.base = some .dir) (hwrites : w.writes = []) :
    Ensures (storage.save host call) w (fun _ => SaveEffect (.filesystem storage) call w)
      fun _ => SaveEffect (.filesystem storage) call w := by
  obtain ⟨hparts, hroot⟩ := parts_home hnamed
  obtain ⟨hslash, hne⟩ := safeFilename_spec call.filename
  have htarget : storage.basePath.append call.relDir = ⟨"/", home (.filesystem storage) call⟩ := by
    rw [PurePath.append, if_pos hroot]
    exact congrArg (PurePath.mk "/") hparts
  simp only [save, htarget]
  rw [ensures_bind]
  refine (ensures_mkdirs_version hnamed hdir hwrites).mono ?_ fun _ _ h => h
  rintro _ w₁ ⟨heffect, hnone, hmade⟩
  have hpath : (PurePath.join ⟨"/", home (.filesystem storage) call⟩
        (safeFilename call.filename)).parts = home (.filesystem storage) call ∨
      (PurePath.join ⟨"/", home (.filesystem storage) call⟩ (safeFilename call.filename)).parts =
        home (.filesystem storage) call ++ [safeFilename call.filename] := by
    rw [PurePath.join_of_noSlash _ hslash hne]
    split
    · exact .inl rfl
    · exact .inr rfl
  rw [ensures_bind]
  refine ensures_copyStream.mono ?_ ?_
  · intro _ w₂ hcopied
    exact (heffect.copied hnamed hnone hmade hpath hcopied).1
  · rintro _ w₂ (rfl | hcopied)
    · exact heffect
    · exact (heffect.copied hnamed hnone hmade hpath hcopied).1

theorem map_slashed {cs : List Char} (h : '\\' ∉ cs) :
    cs.map (fun c => if c = '\\' then '/' else c) = cs := by
  have hsame : ∀ c ∈ cs, (if c = '\\' then '/' else c) = id c := by
    intro c hc
    have hne : c ≠ '\\' := by
      rintro rfl
      exact h hc
    rw [if_neg hne]
    rfl
  rw [List.map_congr_left hsame, List.map_id]

namespace MinIOStorage

variable {storage : MinIOStorage}

theorem rel_eq (hnamed : Named (.minio storage) call.domainId call.docId (some call.version))
    (hfile : basename call.filename ≠ ".") :
    rel call = ⟨"", [call.domainId, call.docId, call.version, safeFilename call.filename]⟩ := by
  obtain ⟨hslash, hne⟩ := safeFilename_spec call.filename
  have hdot : safeFilename call.filename ≠ "." := by
    unfold safeFilename
    split
    · decide
    · exact hfile
  have hversion := (hnamed.version call.version rfl).plain
  rw [rel, SaveCall.relDir, PurePath.join_of_noSlash _ hslash hne, if_neg hdot,
    hnamed.domain.ofString, hnamed.doc.plain.join, hversion.join]
  rfl

theorem placed_key (hnamed : Named (.minio storage) call.domainId call.docId (some call.version))
    (hfile : basename call.filename ≠ ".") :
    Placed (.minio storage) call (.blob (key call)) := by
  have hversion : DomainName call.version := hnamed.version call.version rfl
  have hdoc : DomainName call.docId := hnamed.doc
  refine ⟨(slashed (safeFilename call.filename)).toList, ?_⟩
  rw [key, rel_eq hnamed hfile, toList_keyPrefix]
  simp [slashed, PurePath.str, map_slashed hnamed.domain.noBackslash, map_slashed hdoc.noBackslash,
    map_slashed hversion.noBackslash]

theorem ensures_save (hnamed : Named (.minio storage) call.domainId call.docId (some call.version))
    (hfile : basename call.filename ≠ ".")
    (hdir : w.files.get? storage.cache = some .dir) (hwrites : w.writes = []) :
    Ensures (storage.save host call) w (fun _ => SaveEffect (.minio storage) call w)
      fun _ => SaveEffect (.minio storage) call w := by
  have htarget : storage.cachePath.append (rel call) =
      ⟨"/", home (.minio storage) call ++ [safeFilename call.filename]⟩ := by
    rw [rel_eq hnamed hfile, PurePath.append, if_pos rfl, home, place, List.append_assoc]
    rfl
  have hparent : (PurePath.mk "/" (home (.minio storage) call ++
      [safeFilename call.filename])).parent.parts = home (.minio storage) call :=
    List.dropLast_concat
  simp only [save, htarget, hparent]
  rw [ensures_bind]
  refine (ensures_mkdirs_version hnamed hdir hwrites).mono ?_ fun _ _ h => h
  rintro _ w₁ ⟨heffect, hnone, hmade⟩
  rw [ensures_bind]
  refine ensures_copyStream.mono ?_ ?_
  · intro _ w₂ hcopied
    obtain ⟨heffect₂, -⟩ := heffect.copied hnamed hnone hmade (.inr rfl) hcopied
    rw [ensures_bind, ensures_ofExcept]
    refine ⟨fun sse _ => ?_, fun _ _ => heffect₂⟩
    rw [ensures_bind, putObject, ensures_failing]
    exact ⟨fun _ _ => heffect₂, fun _ => heffect₂.put (placed_key hnamed hfile)⟩
  · rintro _ w₂ (rfl | hcopied)
    · exact heffect
    · exact (heffect.copied hnamed hnone hmade (.inr rfl) hcopied).1

end MinIOStorage

end Stores

section Deletions

variable {storage : DocumentStorage} {d doc : String} {version : Option String} {w : World}

/-- The files after the directory of a document or a version is removed, or was not there. -/
def Cleared (q : List String) (files files' : FileSystem Bytes) : Prop :=
  (∀ q', q <+: q' → files'.file? q' = none) ∧ ∀ q', ¬ q <+: q' → files'.get? q' = files.get? q'

theorem cleared_removeTree {q : List String} (hq : q ≠ []) (files : FileSystem Bytes) :
    Cleared q files (files.removeTree q) := by
  have hget : ∀ q', (files.removeTree q).get? q' = if q <+: q' then none else files.get? q' :=
    FileSystem.get?_removeTree hq
  refine ⟨fun q' hpre => ?_, fun q' hnot => (hget q').trans (if_neg hnot)⟩
  simp only [FileSystem.file?, hget q', if_pos hpre]

theorem cleared_of_missing {q : List String} {files : FileSystem Bytes} (hq : ".." ∉ q)
    (h : files.find? q = none) : Cleared q files files := by
  refine ⟨?_, fun _ _ => rfl⟩
  rintro _ ⟨rest, rfl⟩
  have hnone : files.get? (q ++ rest) = none := by
    by_contra hsome
    have hdir : ∃ node, files.get? q = some node := by
      by_cases hrest : rest = []
      · rw [hrest, List.append_nil] at hsome
        exact Option.ne_none_iff_exists'.mp hsome
      · exact ⟨.dir, FileSystem.get?_above hsome hrest⟩
    obtain ⟨node, hnode⟩ := hdir
    rw [FileSystem.find?_of_get? hq hnode] at h
    cases h
  simp only [FileSystem.file?, hnone]

theorem place_ne_nil : place storage d doc version ≠ [] := by
  simp [place]

theorem parts_place {root : PurePath} (hroot : root.parts = storage.dir)
    (hnamed : Named storage d doc version) :
    (match version with
      | none => (root.join d).join doc
      | some v => ((root.join d).join doc).join v).parts = place storage d doc version := by
  cases version with
  | none =>
    rw [hnamed.domain.join, hnamed.doc.plain.join, place, hroot, List.append_assoc]
    rfl
  | some v =>
    dsimp only
    rw [hnamed.domain.join, hnamed.doc.plain.join, (hnamed.version v rfl).plain.join, place, hroot,
      List.append_assoc, List.append_assoc]
    rfl

/-- What a deletion may do, also if it raises. -/
structure DeleteEffect (storage : DocumentStorage) (d doc : String) (version : Option String)
    (w w' : World) : Prop where
  kept : ∀ o, ¬ Region storage d doc version o → w'.content o = w.content o
  shrinks : ∀ o bytes, w'.content o = some bytes → w.content o = some bytes
  dir : w'.files.get? storage.dir = w.files.get? storage.dir

theorem not_place_prefix_dir : ¬ place storage d doc version <+: storage.dir := by
  intro h
  have hlength := h.length_le
  simp only [place, List.length_append, List.length_cons] at hlength
  omega

/-- The files and the objects of a region are cleared together. -/
theorem DeleteEffect.of_cleared {w' : World}
    (hfiles : Cleared (place storage d doc version) w.files w'.files)
    (hblobs : ∀ key, ¬ Region storage d doc version (.blob key) →
      w'.bucket.get? key = w.bucket.get? key)
    (hshrinks : ∀ key, w'.bucket.get? key = w.bucket.get? key ∨ w'.bucket.get? key = none) :
    DeleteEffect storage d doc version w w' := by
  refine ⟨?_, ?_, hfiles.2 _ not_place_prefix_dir⟩
  · intro o ho
    cases o with
    | file q => exact FileSystem.file?_congr (hfiles.2 q ho)
    | blob key => exact hblobs key ho
  · intro o bytes ho
    cases o with
    | file q =>
      by_cases hq : place storage d doc version <+: q
      · exact absurd ((hfiles.1 q hq).symm.trans ho) nofun
      · rwa [World.content, FileSystem.file?_congr (hfiles.2 q hq)] at ho
    | blob key =>
      obtain hsame | hnone := hshrinks key
      · rwa [World.content, hsame] at ho
      · exact absurd (hnone.symm.trans ho) nofun

theorem LocalFilesystemStorage.ensures_delete {storage : LocalFilesystemStorage}
    (hnamed : Named (.filesystem storage) d doc version)
    (hnofile : w.files.file? (place (.filesystem storage) d doc version) = none) :
    Ensures (storage.delete d doc version) w
      (fun _ w' => DeleteEffect (.filesystem storage) d doc version w w' ∧
        ∀ o, Region (.filesystem storage) d doc version o → w'.content o = none)
      fun _ _ => False := by
  have hparts : (storage.target d doc version).parts = place (.filesystem storage) d doc version :=
    parts_place rfl hnamed
  have hplain := dotDot_notMem_place hnamed
  have heffect : ∀ w' : World, w'.bucket = w.bucket →
      Cleared (place (.filesystem storage) d doc version) w.files w'.files →
      DeleteEffect (.filesystem storage) d doc version w w' ∧
        ∀ o, Region (.filesystem storage) d doc version o → w'.content o = none := by
    intro w' hbucket hcleared
    refine ⟨.of_cleared hcleared (fun _ _ => by rw [hbucket]) fun _ => .inl (by rw [hbucket]), ?_⟩
    intro o ho
    cases o with
    | file q => exact hcleared.1 q ho
    | blob key => exact ho.elim
  rw [delete, ensures_bind, ensures_get, hparts]
  cases hfind : w.files.find? (place (.filesystem storage) d doc version) with
  | none => exact heffect w rfl (cleared_of_missing hplain hfind)
  | some found =>
    obtain rfl := FileSystem.find?_of_file?_eq_none hplain hnofile hfind
    refine heffect _ rfl ?_
    rw [FileSystem.rmtree_eq_removeTree _ hplain]
    exact cleared_removeTree place_ne_nil _

namespace MinIOStorage

variable {storage : MinIOStorage} {host : Host}

theorem ensures_removeObjects (keys : List String) :
    Ensures (forM keys (removeObject host)) w
      (fun _ w' => w'.files = w.files ∧
        ∀ k, w'.bucket.get? k = if k ∈ keys then none else w.bucket.get? k)
      fun _ w' => w'.files = w.files ∧
        ∀ k, w'.bucket.get? k = w.bucket.get? k ∨ k ∈ keys ∧ w'.bucket.get? k = none := by
  induction keys generalizing w with
  | nil => exact ⟨rfl, fun k => (if_neg List.not_mem_nil).symm⟩
  | cons key keys ih =>
    have herased : ∀ k, (w.bucket.erase key).get? k = if k = key then none else w.bucket.get? k :=
      fun k => Dict.get?_erase w.bucket key k
    rw [List.forM_cons, ensures_bind, removeObject, ensures_failing]
    refine ⟨fun _ _ => ⟨rfl, fun _ => .inl rfl⟩, fun _ => ?_⟩
    refine ih.mono ?_ ?_
    · rintro _ w' ⟨hfiles, hbucket⟩
      refine ⟨hfiles, fun k => ?_⟩
      rw [hbucket k, herased k]
      by_cases hk : k = key
      · simp only [hk, if_true, List.mem_cons, true_or, ite_self]
      · simp only [hk, if_false, List.mem_cons, false_or]
    · rintro _ w' ⟨hfiles, hbucket⟩
      refine ⟨hfiles, fun k => ?_⟩
      obtain hsame | ⟨hk, hnone⟩ := hbucket k
      · rw [herased k] at hsame
        by_cases hk : k = key
        · exact .inr ⟨hk ▸ List.mem_cons_self, hsame.trans (if_pos hk)⟩
        · exact .inl (hsame.trans (if_neg hk))
      · exact .inr ⟨List.mem_cons_of_mem key hk, hnone⟩

theorem cleared_cleanCache (hnamed : Named (.minio storage) d doc version)
    (hnofile : w.files.file? (place (.minio storage) d doc version) = none) :
    Cleared (place (.minio storage) d doc version) w.files
      (cleanCache (storage.cacheTarget d doc version) w).files := by
  have hparts : (storage.cacheTarget d doc version).parts = place (.minio storage) d doc version :=
    parts_place rfl hnamed
  have hplain := dotDot_notMem_place hnamed
  rw [cleanCache, hparts]
  cases hfind : w.files.find? (place (.minio storage) d doc version) with
  | none => exact cleared_of_missing hplain hfind
  | some found =>
    obtain rfl := FileSystem.find?_of_file?_eq_none hplain hnofile hfind
    dsimp only
    rw [FileSystem.rmtree_eq_removeTree _ hplain]
    exact cleared_removeTree place_ne_nil _

theorem bucket_cleanCache (path : PurePath) (w : World) :
    (cleanCache path w).bucket = w.bucket := by
  unfold cleanCache
  split <;> rfl

theorem mem_listed {k : String} :
    (k ∈ w.bucket.keys.filter fun k => (keyPrefix d doc version).toList.isPrefixOf k.toList) ↔
      k ∈ w.bucket.keys ∧ Region (.minio storage) d doc version (.blob k) := by
  rw [List.mem_filter, List.isPrefixOf_iff_prefix]
  rfl

/-- Where the cache was not cleaned, only objects under the prefix can be missing. -/
theorem deleteEffect_of_bucket {w' : World} (hfiles : w'.files = w.files)
    (hbucket : ∀ k, w'.bucket.get? k = w.bucket.get? k ∨
      Region (.minio storage) d doc version (.blob k) ∧ w'.bucket.get? k = none) :
    DeleteEffect (.minio storage) d doc version w w' := by
  refine ⟨?_, ?_, by rw [hfiles]⟩
  · intro o ho
    cases o with
    | file q => rw [World.content, World.content, hfiles]
    | blob key => exact (hbucket key).resolve_right fun h => ho h.1
  · intro o bytes ho
    cases o with
    | file q => rwa [World.content, hfiles] at ho
    | blob key =>
      obtain hsame | ⟨-, hnone⟩ := hbucket key
      · rwa [World.content, hsame] at ho
      · exact absurd (hnone.symm.trans ho) nofun

theorem ensures_delete (hnamed : Named (.minio storage) d doc version)
    (hnofile : w.files.file? (place (.minio storage) d doc version) = none) :
    Ensures (storage.delete host d doc version) w
      (fun _ w' => DeleteEffect (.minio storage) d doc version w w' ∧
        ∀ o, Region (.minio storage) d doc version o → w'.content o = none)
      fun _ => DeleteEffect (.minio storage) d doc version w := by
  rw [delete, ensures_bind, ensures_failing]
  refine ⟨fun _ _ => deleteEffect_of_bucket rfl fun _ => .inl rfl, fun _ => ?_⟩
  rw [ensures_bind, ensures_get, ensures_pure, ensures_bind]
  refine (ensures_removeObjects _).mono ?_ ?_
  · rintro _ w₁ ⟨hfiles, hbucket⟩
    rw [ensures_bind, ensures_modify, ensures_pure]
    have hcleared := cleared_cleanCache (w := w₁) hnamed (hfiles ▸ hnofile)
    have hgone : ∀ k, Region (.minio storage) d doc version (.blob k) →
        w₁.bucket.get? k = none := by
      intro k hk
      rw [hbucket k]
      split
      · rfl
      · rename_i hnot
        exact Dict.get?_eq_none_iff.mpr fun hmem => hnot (mem_listed.mpr ⟨hmem, hk⟩)
    have hleft : ∀ k, ¬ Region (.minio storage) d doc version (.blob k) →
        w₁.bucket.get? k = w.bucket.get? k := by
      intro k hk
      exact (hbucket k).trans (if_neg fun hmem => hk (mem_listed.mp hmem).2)
    rw [hfiles] at hcleared
    refine ⟨.of_cleared hcleared ?_ ?_, ?_⟩
    · intro k hk
      rw [bucket_cleanCache]
      exact hleft k hk
    · intro k
      rw [bucket_cleanCache]
      by_cases hk : Region (.minio storage) d doc version (.blob k)
      · exact .inr (hgone k hk)
      · exact .inl (hleft k hk)
    · intro o ho
      cases o with
      | file q => exact hcleared.1 q ho
      | blob key =>
        rw [World.content, bucket_cleanCache]
        exact hgone key ho
  · rintro _ w₁ ⟨hfiles, hbucket⟩
    refine deleteEffect_of_bucket hfiles fun k => ?_
    obtain hsame | ⟨hk, hnone⟩ := hbucket k
    · exact .inl hsame
    · exact .inr ⟨(mem_listed.mp hk).2, hnone⟩

end MinIOStorage

end Deletions

section Runs

variable {storage : DocumentStorage}

/-- Every object of the storage was written by a save that lies where it should. -/
structure Kept (storage : DocumentStorage) (s : History) : Prop where
  dir : s.world.files.get? storage.dir = some .dir
  named : ∀ e ∈ s.past, Named storage e.1.domainId e.1.docId (some e.1.version)
  placed : ∀ e ∈ s.past, ∀ o ∈ e.2, Placed storage e.1 o
  files : ∀ q bytes, storage.dir <+: q → s.world.files.file? q = some bytes →
    ∃ e ∈ s.past, .file q ∈ e.2
  blobs : ∀ key bytes, s.world.bucket.get? key = some bytes → ∃ e ∈ s.past, .blob key ∈ e.2

theorem Fresh.kept {w : World} (h : Fresh storage w) : Kept storage ⟨w, []⟩ where
  dir := h.dir
  named := nofun
  placed := nofun
  files q _ hq hfile := absurd ((h.noFile q hq).symm.trans hfile) nofun
  blobs key _ hkey := absurd ((h.noBlob key).symm.trans hkey) nofun

variable {s : History} {host : Host}

theorem Kept.known {o : StoreObject} {bytes : Bytes} {d doc : String} {version : Option String}
    (h : Kept storage s) (hregion : Region storage d doc version o)
    (ho : s.world.content o = some bytes) : ∃ e ∈ s.past, o ∈ e.2 := by
  cases o with
  | file q => exact h.files q bytes ((List.prefix_append _ _).trans hregion) ho
  | blob key => exact h.blobs key bytes ho

theorem ensures_storage_save {call : SaveCall} {w : World}
    (hnamed : Named storage call.domainId call.docId (some call.version))
    (hfile : storage.FitFile call.filename) (hdir : w.files.get? storage.dir = some .dir)
    (hwrites : w.writes = []) :
    Ensures (storage.save host call) w (fun _ => SaveEffect storage call w)
      fun _ => SaveEffect storage call w := by
  cases storage with
  | filesystem storage =>
    rw [DocumentStorage.save]
    exact LocalFilesystemStorage.ensures_save hnamed hdir hwrites
  | minio storage =>
    rw [DocumentStorage.save]
    exact MinIOStorage.ensures_save hnamed hfile hdir hwrites

/-- One save keeps the layout and is confined. -/
theorem Kept.save {call : SaveCall} (h : Kept storage s)
    (hnamed : Named storage call.domainId call.docId (some call.version))
    (hfile : storage.FitFile call.filename) :
    Kept storage (s.after storage (.save host call)) ∧ s.SaveConfined storage host call := by
  have heffect : SaveEffect storage call s.start (s.saved storage host call) :=
    (ensures_storage_save (w := s.start) hnamed hfile h.dir rfl).final
  have hcontent : ∀ o, o ∉ (s.saved storage host call).writes →
      (s.saved storage host call).content o = s.world.content o := by
    intro o ho
    rw [heffect.framed o ho]
    cases o <;> rfl
  have hknown : ∀ o bytes, (∀ bytes, s.world.content o = some bytes → ∃ e ∈ s.past, o ∈ e.2) →
      (s.saved storage host call).content o = some bytes →
      ∃ e ∈ s.past ++ [(call, (s.saved storage host call).writes)], o ∈ e.2 := by
    intro o bytes hold ho
    by_cases hnew : o ∈ (s.saved storage host call).writes
    · exact ⟨_, List.mem_append_right _ List.mem_cons_self, hnew⟩
    · obtain ⟨e, he, hmem⟩ := hold bytes (hcontent o hnew ▸ ho)
      exact ⟨e, List.mem_append_left _ he, hmem⟩
  refine ⟨⟨heffect.dirs _ h.dir, ?_, ?_, ?_, ?_⟩, ⟨?_, heffect.folders, hcontent, ?_⟩⟩
  · intro e he
    obtain he | he := List.mem_append.mp he
    · exact h.named e he
    · exact List.mem_singleton.mp he ▸ hnamed
  · intro e he
    obtain he | he := List.mem_append.mp he
    · exact h.placed e he
    · exact List.mem_singleton.mp he ▸ heffect.placed
  · intro q bytes hq hbytes
    exact hknown (.file q) bytes (fun bytes => h.files q bytes hq) hbytes
  · intro key bytes hbytes
    exact hknown (.blob key) bytes (fun bytes => h.blobs key bytes) hbytes
  · intro o ho
    exact (heffect.placed o ho).inside
  · intro e he hpair o ho hmem
    exact hpair ((h.placed e he o hmem).pair_eq (h.named e he) hnamed (heffect.placed o ho))

variable {d doc : String} {version : Option String}

theorem ensures_storage_delete {w : World} (hnamed : Named storage d doc version)
    (hnofile : w.files.file? (place storage d doc version) = none) :
    Ensures (storage.delete host d doc version) w
      (fun _ w' => DeleteEffect storage d doc version w w' ∧
        ∀ o, Region storage d doc version o → w'.content o = none)
      fun _ => DeleteEffect storage d doc version w := by
  cases storage with
  | filesystem storage =>
    rw [DocumentStorage.delete]
    exact (LocalFilesystemStorage.ensures_delete hnamed hnofile).mono (fun _ _ h => h)
      fun _ _ h => h.elim
  | minio storage =>
    rw [DocumentStorage.delete]
    exact MinIOStorage.ensures_delete hnamed hnofile

/-- Files lie one level below the versions. -/
theorem Kept.noFile (h : Kept storage s) :
    s.world.files.file? (place storage d doc version) = none := by
  rw [Option.eq_none_iff_forall_ne_some]
  intro bytes hbytes
  obtain ⟨e, he, hmem⟩ := h.files _ bytes (List.prefix_append _ _) hbytes
  obtain ⟨name, hname⟩ := h.placed e he _ hmem
  have hlength := congrArg List.length hname
  have hversion : version.toList.length ≤ 1 := by cases version <;> simp
  simp only [home, place, List.length_append, List.length_cons, Option.toList_some,
    List.length_nil] at hlength
  omega

/-- One deletion keeps the layout and is exact. -/
theorem Kept.delete (h : Kept storage s) (hnamed : Named storage d doc version) :
    Kept storage (s.after storage (.delete host d doc version)) ∧
      s.DeleteExact storage host d doc version := by
  have hens := @ensures_storage_delete storage host d doc version s.world hnamed h.noFile
  have heffect : DeleteEffect storage d doc version s.world
      ((storage.delete host d doc version).final s.world) :=
    (hens.mono (fun _ _ hw => hw.1) fun _ _ hw => hw).final
  refine ⟨⟨heffect.dir.trans h.dir, h.named, h.placed, ?_, ?_⟩, ⟨?_, ?_⟩⟩
  · intro q bytes hq hbytes
    exact h.files q bytes hq (heffect.shrinks (.file q) bytes hbytes)
  · intro key bytes hbytes
    exact h.blobs key bytes (heffect.shrinks (.blob key) bytes hbytes)
  · intro n hn e he hselects o ho
    have hregion := ((h.placed e he o ho).region_iff (h.named e he) hnamed).mpr hselects
    exact (hens.of_result? hn).2 o hregion
  · intro o hkept
    by_cases hregion : Region storage d doc version o
    · -- nothing in the region but what the selected saves wrote
      have hnone : s.world.content o = none := by
        rw [Option.eq_none_iff_forall_ne_some]
        intro bytes hbytes
        obtain ⟨e, he, hmem⟩ := h.known hregion hbytes
        exact hkept e he (((h.placed e he o hmem).region_iff (h.named e he) hnamed).mp hregion) hmem
      rw [hnone, Option.eq_none_iff_forall_ne_some]
      intro bytes hbytes
      exact absurd (hnone.symm.trans (heffect.shrinks o bytes hbytes)) nofun
    · exact heffect.kept o hregion

/-- For every run of saves and deletions on a storage of either kind: where the names of documents
and versions are plain, every save is confined to its domain and its version, and every deletion is
exact. -/
theorem confined_along_plain_runs (storage : DocumentStorage) (w : World) (hfresh : Fresh storage w)
    (ops : List StorageOp) (hdomains : ∀ op ∈ ops, DomainName op.domainId)
    (hfits : ∀ op ∈ ops, op.Fits storage) :
    Along (History.after storage) (History.Confined storage) ops ⟨w, []⟩ := by
  have hall : Along (History.after storage) (fun _ _ => True) ops ⟨w, []⟩ :=
    Along.of_forall ops fun _ _ _ => trivial
  refine Along.of_invariant (I := Kept storage) hfresh.kept hall ?_
  intro op hop s hkept _
  cases op with
  | save host call =>
    obtain ⟨hdoc, hversion, hfile⟩ := hfits _ hop
    refine hkept.save ⟨hdomains _ hop, hdoc, ?_⟩ hfile
    rintro _ ⟨⟩
    exact hversion
  | delete host d doc version =>
    obtain ⟨hdoc, hversion⟩ := hfits _ hop
    exact hkept.delete ⟨hdomains _ hop, hdoc, hversion⟩

end Runs

section Archive

def emptyArchive : World where
  files := FileSystem.empty.put [] "srv" .dir
  bucket := .empty
  writes := []

def localArchive : DocumentStorage := .filesystem ⟨["srv"], by decide⟩

def bucketArchive : DocumentStorage := .minio ⟨"domainrag", ["srv"], by decide, {}⟩

theorem file?_emptyArchive (q : List String) : emptyArchive.files.file? q = none := by
  have hempty : ∀ q, (FileSystem.empty : FileSystem Bytes).get? q =
      if q = [] then some .dir else none :=
    fun q => Dict.get?_set .empty [] q Node.dir
  have hput : emptyArchive.files.get? q = if q = ["srv"] then some .dir
      else (FileSystem.empty : FileSystem Bytes).get? q := by
    refine FileSystem.get?_put rfl ?_ q
    rw [hempty, if_neg (by decide)]
    exact nofun
  rw [FileSystem.file?, hput, hempty]
  split <;> rename_i heq
  · split at heq
    · cases heq
    · split at heq <;> cases heq
  · rfl

def pay (docId version : String) : SaveCall :=
  uploadCall "DOC-1" "hr" (some docId) version (some "pay.txt") ⟨[1], none⟩

/-- A document id with double dots leads into another domain, and names with slashes let two
documents share an object. -/
theorem unplain_names_escape :
    DomainName "hr" ∧
      ¬ Along (History.after localArchive) (History.Confined localArchive)
        [.save {} (pay "../legal" "v1")] ⟨emptyArchive, []⟩ ∧
      ¬ Along (History.after bucketArchive) (History.Confined bucketArchive)
        [.save {} (pay "a/b" "c"), .save {} (pay "a" "b/c")] ⟨emptyArchive, []⟩ := by
  refine ⟨⟨by decide, by decide⟩, ?_, ?_⟩
  · rintro ⟨hsave, -⟩
    have hmem : .file ["srv", "legal", "v1", "pay.txt"] ∈
        (History.saved localArchive ⟨emptyArchive, []⟩ {} (pay "../legal" "v1")).writes := by
      decide +kernel
    have hinside : ["srv", "hr"] <+: ["srv", "legal", "v1", "pay.txt"] := hsave.inside _ hmem
    exact absurd hinside (by decide)
  · rintro ⟨-, hsave, -⟩
    have hfirst : .blob "hr/a/b/c/pay.txt" ∈
        (History.saved bucketArchive ⟨emptyArchive, []⟩ {} (pay "a/b" "c")).writes := by
      decide +kernel
    have hsecond : .blob "hr/a/b/c/pay.txt" ∈ (History.saved bucketArchive
        (History.after bucketArchive ⟨emptyArchive, []⟩ (.save {} (pay "a/b" "c"))) {}
        (pay "a" "b/c")).writes := by
      decide +kernel
    exact hsave.separate _ List.mem_cons_self (by decide) _ hsecond hfirst

/-- Two versions are saved and one is deleted. -/
theorem plain_versions_confined :
    Along (History.after bucketArchive) (History.Confined bucketArchive)
      [.save {} (pay "a" "v1"), .save {} (pay "a" "v2"), .delete {} "hr" "a" (some "v1")]
      ⟨emptyArchive, []⟩ := by
  have hfile : basename "pay.txt" ≠ "." := by decide +kernel
  have hname : ∀ s ∈ ["hr", "a", "v1", "v2"], DomainName s := by
    intro s hs
    simp only [List.mem_cons, List.not_mem_nil, or_false] at hs
    obtain rfl | rfl | rfl | rfl := hs <;> exact ⟨by decide, by decide⟩
  refine confined_along_plain_runs bucketArchive emptyArchive
    ⟨rfl, fun q _ => file?_emptyArchive q, fun _ => rfl⟩ _ ?_ ?_
  · intro op hop
    simp only [List.mem_cons, List.not_mem_nil, or_false] at hop
    obtain rfl | rfl | rfl := hop <;> exact hname "hr" (by decide)
  · intro op hop
    simp only [List.mem_cons, List.not_mem_nil, or_false] at hop
    obtain rfl | rfl | rfl := hop
    · exact ⟨hname "a" (by decide), hname "v1" (by decide), hfile⟩
    · exact ⟨hname "a" (by decide), hname "v2" (by decide), hfile⟩
    · refine ⟨hname "a" (by decide), ?_⟩
      rintro _ ⟨⟩
      exact hname "v1" (by decide)

end Archive

end DomainRag.Storage
