import DomainRag.Lib.Dict
import DomainRag.Lib.Program
import DomainRag.Lib.Value
import Mathlib.Data.List.Infix

/-! # File systems

A file system is a table of files and directories by their place, a list of names from the root.
The place above an entry is always a directory. Double dots in a path lead up, and every step of a
path has to start at a directory.
-/

namespace DomainRag

inductive Node (B : Type) where
  | file (content : B)
  | dir

def Node.isDir {B : Type} : Node B → Bool
  | file _ => false
  | dir => true

structure FileSystem (B : Type) where
  nodes : Dict (List String) (Node B)
  rooted : nodes.get? [] = some .dir
  closed : ∀ place name, nodes.get? (place ++ [name]) ≠ none → nodes.get? place = some .dir

namespace FileSystem

variable {B : Type}

def get? (fs : FileSystem B) (place : List String) : Option (Node B) := fs.nodes.get? place

def isDir (fs : FileSystem B) (place : List String) : Bool := (fs.get? place).any Node.isDir

theorem isDir_iff {fs : FileSystem B} {place : List String} :
    fs.isDir place = true ↔ fs.get? place = some .dir := by
  unfold isDir
  cases fs.get? place with
  | none => exact ⟨nofun, nofun⟩
  | some node =>
    cases node with
    | file content => exact ⟨nofun, nofun⟩
    | dir => exact ⟨fun _ => rfl, fun _ => rfl⟩

def file? (fs : FileSystem B) (place : List String) : Option B :=
  match fs.get? place with
  | some (.file content) => some content
  | _ => none

theorem file?_eq_some_iff {fs : FileSystem B} {place : List String} {content : B} :
    fs.file? place = some content ↔ fs.get? place = some (.file content) := by
  unfold file?
  split
  · rename_i content' hget
    rw [hget, Option.some.injEq, Option.some.injEq, Node.file.injEq]
  · rename_i hnot
    exact ⟨nofun, fun h => absurd h (hnot content)⟩

theorem file?_congr {fs fs' : FileSystem B} {place : List String}
    (h : fs'.get? place = fs.get? place) : fs'.file? place = fs.file? place := by
  rw [file?, file?, h]

/-- Whatever lies above an entry is a directory. -/
theorem get?_above {fs : FileSystem B} {place rest : List String}
    (h : fs.get? (place ++ rest) ≠ none) (hrest : rest ≠ []) : fs.get? place = some .dir := by
  induction rest using List.reverseRecOn with
  | nil => exact absurd rfl hrest
  | append_singleton rest name ih =>
    rw [← List.append_assoc] at h
    have hdir := fs.closed _ _ h
    cases rest with
    | nil => rwa [List.append_nil] at hdir
    | cons head tail =>
      refine ih ?_ (List.cons_ne_nil head tail)
      rw [get?, hdir]
      exact Option.some_ne_none _

theorem get?_dropLast {fs : FileSystem B} {place : List String}
    (h : fs.get? place = some .dir) : fs.get? place.dropLast = some .dir := by
  by_cases hnil : place = []
  · rw [hnil]
    exact fs.rooted
  · refine fs.closed _ (place.getLast hnil) ?_
    rw [List.dropLast_append_getLast]
    exact fun hnone => absurd (h.symm.trans hnone) nofun

def empty : FileSystem B where
  nodes := .ofList [([], .dir)]
  rooted := rfl
  closed := by
    intro place name h
    refine absurd ?_ h
    have hne : place ++ [name] ≠ [] := by simp
    exact (Dict.get?_set .empty [] (place ++ [name]) Node.dir).trans (if_neg hne)

/-- A new entry of a directory; what is a directory already stays one. -/
def put (fs : FileSystem B) (place : List String) (name : String) (node : Node B) :
    FileSystem B :=
  if h : fs.isDir place = true ∧ fs.isDir (place ++ [name]) = false then
    { nodes := fs.nodes.set (place ++ [name]) node
      rooted := by
        have hne : [] ≠ place ++ [name] := by simp
        rw [Dict.get?_set, if_neg hne]
        exact fs.rooted
      closed := by
        intro place' name' hsome
        have hplace : fs.nodes.get? place' = some .dir := by
          rw [Dict.get?_set] at hsome
          by_cases hsame : place' ++ [name'] = place ++ [name]
          · rw [(List.append_inj' hsame rfl).1]
            exact isDir_iff.mp h.1
          · rw [if_neg hsame] at hsome
            exact fs.closed place' name' hsome
        have hother : place' ≠ place ++ [name] := by
          rintro rfl
          exact absurd (isDir_iff.mpr hplace) (Bool.eq_false_iff.mp h.2)
        rw [Dict.get?_set, if_neg hother]
        exact hplace }
  else fs

theorem get?_put {fs : FileSystem B} {place : List String} {name : String} {node : Node B}
    (hdir : fs.get? place = some .dir) (hnot : fs.get? (place ++ [name]) ≠ some .dir)
    (place' : List String) :
    (fs.put place name node).get? place' =
      if place' = place ++ [name] then some node else fs.get? place' := by
  have h : fs.isDir place = true ∧ fs.isDir (place ++ [name]) = false :=
    ⟨isDir_iff.mpr hdir, Bool.eq_false_iff.mpr fun hd => hnot (isDir_iff.mp hd)⟩
  rw [put, dif_pos h, get?, Dict.get?_set]
  rfl

/-- Everything at and below a place is removed, the root apart. -/
def removeTree (fs : FileSystem B) (place : List String) : FileSystem B where
  nodes := fs.nodes.filterKeys fun place' => place' = [] ∨ ¬ place <+: place'
  rooted := by
    rw [Dict.get?_filterKeys]
    exact fs.rooted
  closed := by
    intro place' name hsome
    rw [Dict.get?_filterKeys] at hsome ⊢
    have hkept : ¬ place <+: place' ++ [name] := by
      intro hpre
      rw [if_neg] at hsome
      · exact hsome rfl
      · simp [hpre]
    have habove : ¬ place <+: place' := fun h => hkept (h.trans (List.prefix_append _ _))
    rw [if_pos (decide_eq_true (.inr habove))]
    refine fs.closed place' name ?_
    rwa [if_pos (decide_eq_true (.inr hkept))] at hsome

theorem get?_removeTree {fs : FileSystem B} {place : List String} (hplace : place ≠ [])
    (place' : List String) :
    (fs.removeTree place).get? place' = if place <+: place' then none else fs.get? place' := by
  rw [get?, removeTree, Dict.get?_filterKeys]
  by_cases hpre : place <+: place'
  · have hne : place' ≠ [] := by
      rintro rfl
      exact hplace (List.prefix_nil.mp hpre)
    simp only [hne, hpre, not_true_eq_false, or_self, decide_false, Bool.false_eq_true, if_false,
      if_true]
  · simp only [hpre, not_false_eq_true, or_true, decide_true, if_true, if_false]
    rfl

/-- `shutil.rmtree` with errors ignored. A directory that was reached by double dots is emptied, but
cannot be removed by that path. -/
def rmtree (fs : FileSystem B) (parts place : List String) : FileSystem B :=
  match parts.getLast?, place.getLast? with
  | some "..", some name => (fs.removeTree place).put place.dropLast name .dir
  | _, _ => fs.removeTree place

theorem rmtree_eq_removeTree (fs : FileSystem B) {parts : List String} (hparts : ".." ∉ parts)
    (place : List String) : fs.rmtree parts place = fs.removeTree place := by
  unfold rmtree
  split
  · rename_i hlast _
    exact absurd (List.mem_of_getLast? hlast) hparts
  · rfl

theorem file?_removeTree (fs : FileSystem B) (place place' : List String) :
    (fs.removeTree place).file? place' = if place <+: place' then none else fs.file? place' := by
  by_cases hplace : place = []
  · subst hplace
    rw [if_pos List.nil_prefix]
    by_cases hroot : place' = []
    · rw [hroot, file?, get?, (fs.removeTree []).rooted]
    · have hnone : (fs.removeTree []).get? place' = none := by
        rw [get?, removeTree, Dict.get?_filterKeys, if_neg]
        simp [hroot]
      rw [file?, hnone]
  · rw [file?, get?_removeTree hplace]
    by_cases hpre : place <+: place'
    · rw [if_pos hpre, if_pos hpre]
    · rw [if_neg hpre, if_neg hpre]
      rfl

theorem file?_put_dir {fs : FileSystem B} {place : List String} {name : String}
    (h : fs.file? (place ++ [name]) = none) (place' : List String) :
    (fs.put place name .dir).file? place' = fs.file? place' := by
  by_cases hput : fs.isDir place = true ∧ fs.isDir (place ++ [name]) = false
  · have hnot : fs.get? (place ++ [name]) ≠ some .dir :=
      fun hdir => absurd (isDir_iff.mpr hdir) (Bool.eq_false_iff.mp hput.2)
    rw [file?, get?_put (isDir_iff.mp hput.1) hnot]
    by_cases hplace : place' = place ++ [name]
    · rw [if_pos hplace, hplace, h]
    · rw [if_neg hplace]
      rfl
  · rw [put, dif_neg hput]

/-- Whichever way a directory was reached, no file in it is left. -/
theorem file?_rmtree (fs : FileSystem B) (parts place place' : List String) :
    (fs.rmtree parts place).file? place' = if place <+: place' then none else fs.file? place' := by
  rw [← file?_removeTree, rmtree]
  split
  · rename_i name _ hname
    have hplace : place.dropLast ++ [name] = place := List.dropLast_append_getLast? name hname
    apply file?_put_dir
    rw [hplace, file?_removeTree, if_pos (List.prefix_refl place)]
  · rfl

def filesBelow (fs : FileSystem B) (place : List String) : List (List String) :=
  fs.nodes.keys.filter fun place' => place <+: place' ∧ place' ≠ place ∧ fs.isDir place' = false

section Paths

def visit (place : List String) (part : String) : List String :=
  if part = ".." then place.dropLast else place ++ [part]

def resolveFrom (fs : FileSystem B) : List String → List String → Option (List String)
  | place, [] => some place
  | place, part :: parts =>
    if fs.isDir place then fs.resolveFrom (visit place part) parts else none

/-- The place of a path, if all the steps to it start at directories. -/
def resolve (fs : FileSystem B) (parts : List String) : Option (List String) :=
  fs.resolveFrom [] parts

def find? (fs : FileSystem B) (parts : List String) : Option (List String × Node B) :=
  match fs.resolve parts with
  | some place => (fs.get? place).map (place, ·)
  | none => none

def fileExistsError : Exc := ⟨"FileExistsError", "[Errno 17] File exists"⟩

def isADirectoryError : Exc := ⟨"IsADirectoryError", "[Errno 21] Is a directory"⟩

def fileNotFoundError : Exc := ⟨"FileNotFoundError", "[Errno 2] No such file or directory"⟩

def enter (place : List String) (part : String) : Program Exc (FileSystem B) (List String) := do
  let fs ← get
  match fs.get? (visit place part) with
  | some .dir => return visit place part
  | some (.file _) => throw fileExistsError
  | none =>
    set (fs.put place part .dir)
    return visit place part

def mkdirsFrom : List String → List String → Program Exc (FileSystem B) (List String)
  | place, [] => return place
  | place, part :: parts => do
    let next ← enter place part
    mkdirsFrom next parts

/-- `mkdir(parents=True, exist_ok=True)`. -/
def mkdirs (parts : List String) : Program Exc (FileSystem B) (List String) := mkdirsFrom [] parts

/-- A file is opened for writing and gets the content; the answer is its place. -/
def writeFile (parts : List String) (content : B) : Program Exc (FileSystem B) (List String) := do
  let fs ← get
  match fs.resolve parts with
  | none => throw fileNotFoundError
  | some place =>
    if fs.isDir place then throw isADirectoryError
    else
      set (fs.put place.dropLast (place.getLast?.getD "") (.file content))
      return place

def directoryNotEmptyError : Exc := ⟨"OSError", "[Errno 39] Directory not empty"⟩

def notADirectoryError : Exc := ⟨"NotADirectoryError", "[Errno 20] Not a directory"⟩

/-- `unlink(missing_ok=True)`. -/
def unlink (parts : List String) : Program Exc (FileSystem B) Unit := do
  let fs ← get
  match fs.find? parts with
  | none => return
  | some (_, .dir) => throw isADirectoryError
  | some (place, .file _) => set (fs.removeTree place)

def isEmptyDir (fs : FileSystem B) (place : List String) : Bool :=
  fs.nodes.keys.all fun place' => ¬ place <+: place' ∨ place' = place

def rmdir (parts : List String) : Program Exc (FileSystem B) Unit := do
  let fs ← get
  match fs.find? parts with
  | none => throw fileNotFoundError
  | some (_, .file _) => throw notADirectoryError
  | some (place, .dir) =>
    if fs.isEmptyDir place then set (fs.removeTree place) else throw directoryNotEmptyError

variable {fs : FileSystem B} {place parts : List String}

theorem foldl_visit (hparts : ".." ∉ parts) : parts.foldl visit place = place ++ parts := by
  induction parts generalizing place with
  | nil => exact (List.append_nil place).symm
  | cons part parts ih =>
    have hpart : part ≠ ".." := fun h => hparts (h ▸ List.mem_cons_self)
    rw [List.foldl_cons, visit, if_neg hpart, ih fun h => hparts (List.mem_cons_of_mem part h),
      List.append_assoc, List.singleton_append]

theorem get?_visit_dropLast {part : String} (h : fs.get? place = some .dir) :
    fs.get? (visit place part).dropLast = some .dir := by
  unfold visit
  split
  · exact get?_dropLast (get?_dropLast h)
  · rwa [List.dropLast_concat]

/-- A path leads to the place that its parts spell, inside a directory. -/
theorem resolveFrom_spec {target : List String} (hplace : fs.get? place.dropLast = some .dir)
    (h : fs.resolveFrom place parts = some target) :
    target = parts.foldl visit place ∧ fs.get? target.dropLast = some .dir := by
  induction parts generalizing place with
  | nil =>
    cases h
    exact ⟨rfl, hplace⟩
  | cons part parts ih =>
    rw [resolveFrom] at h
    split at h
    · rename_i hdir
      exact ih (get?_visit_dropLast (isDir_iff.mp hdir)) h
    · cases h

theorem resolve_spec {target : List String} (h : fs.resolve parts = some target) :
    target = parts.foldl visit [] ∧ fs.get? target.dropLast = some .dir :=
  resolveFrom_spec fs.rooted h

/-- The path of an entry that names no double dots leads to it. -/
theorem resolveFrom_of_get? (hparts : ".." ∉ parts) (h : fs.get? (place ++ parts) ≠ none) :
    fs.resolveFrom place parts = some (place ++ parts) := by
  induction parts generalizing place with
  | nil => rw [resolveFrom, List.append_nil]
  | cons part parts ih =>
    have hpart : part ≠ ".." := fun heq => hparts (heq ▸ List.mem_cons_self)
    have hdir : fs.isDir place = true := isDir_iff.mpr (get?_above h (List.cons_ne_nil _ _))
    rw [List.append_cons] at h ⊢
    rw [resolveFrom, if_pos hdir, visit, if_neg hpart]
    exact ih (fun hmem => hparts (List.mem_cons_of_mem part hmem)) h

theorem find?_of_get? (hparts : ".." ∉ parts) {node : Node B} (h : fs.get? parts = some node) :
    fs.find? parts = some (parts, node) := by
  have hresolve : fs.resolve parts = some parts :=
    resolveFrom_of_get? hparts fun hnone => absurd (h.symm.trans hnone) nofun
  rw [find?, hresolve]
  simp only [h, Option.map_some]

theorem find?_spec {target : List String} {node : Node B}
    (h : fs.find? parts = some (target, node)) :
    target = parts.foldl visit [] ∧ fs.get? target = some node := by
  unfold find? at h
  split at h
  · rename_i place hresolve
    obtain ⟨node', hnode, heq⟩ := Option.map_eq_some_iff.mp h
    obtain ⟨rfl, rfl⟩ := Prod.mk.inj heq
    exact ⟨(resolve_spec hresolve).1, hnode⟩
  · cases h

/-- Where a plain path names no file, it can only be found as a directory. -/
theorem find?_of_file?_eq_none {found : List String × Node B} (hparts : ".." ∉ parts)
    (hnofile : fs.file? parts = none) (h : fs.find? parts = some found) : found = (parts, .dir) := by
  obtain ⟨target, node⟩ := found
  obtain ⟨htarget, hget⟩ := find?_spec h
  rw [foldl_visit hparts, List.nil_append] at htarget
  subst htarget
  cases node with
  | file content => exact absurd (hnofile.symm.trans (file?_eq_some_iff.mpr hget)) nofun
  | dir => rfl

theorem ensures_writeFile {content : B} :
    Program.Ensures (writeFile parts content) fs
      (fun target fs' => target = parts.foldl visit [] ∧ fs.get? target ≠ some .dir ∧
        ∀ place, fs'.get? place = if place = target then some (.file content) else fs.get? place)
      fun _ fs' => fs' = fs := by
  rw [writeFile, Program.ensures_bind, Program.ensures_get]
  cases hresolve : fs.resolve parts with
  | none => rfl
  | some target =>
    obtain ⟨htarget, hdir⟩ := resolve_spec hresolve
    refine Program.ensures_ite.mpr ⟨fun _ => rfl, fun hnot => ?_⟩
    rw [isDir_iff] at hnot
    have hne : target ≠ [] := by
      rintro rfl
      exact hnot fs.rooted
    have hsplit : target.dropLast ++ [target.getLast?.getD ""] = target := by
      rw [List.getLast?_eq_some_getLast hne, Option.getD_some, List.dropLast_append_getLast]
    refine ⟨htarget, hnot, fun place => ?_⟩
    have hput : (fs.put target.dropLast (target.getLast?.getD "") (.file content)).get? place = _ :=
      get?_put hdir (hsplit.symm ▸ hnot) place
    rwa [hsplit] at hput

/-- A path leads where it led before as long as the directories stay. -/
theorem resolveFrom_mono {fs' : FileSystem B} {target : List String}
    (hdirs : ∀ q, fs.get? q = some .dir → fs'.get? q = some .dir)
    (h : fs.resolveFrom place parts = some target) : fs'.resolveFrom place parts = some target := by
  induction parts generalizing place with
  | nil => exact h
  | cons part parts ih =>
    rw [resolveFrom] at h ⊢
    split at h
    · rename_i hdir
      rw [if_pos (isDir_iff.mpr (hdirs place (isDir_iff.mp hdir)))]
      exact ih h
    · cases h

theorem find?_writeFile {fs' : FileSystem B} {target : List String} {content : B}
    (h : writeFile parts content fs = .ok target fs') :
    fs'.find? parts = some (target, .file content) := by
  have hspec := ensures_writeFile.of_ok h
  obtain ⟨-, hnot, hget⟩ := hspec
  have hdirs : ∀ q, fs.get? q = some .dir → fs'.get? q = some .dir := by
    intro q hq
    rw [hget, if_neg]
    · exact hq
    · rintro rfl
      exact hnot hq
  have hresolve : fs.resolve parts = some target := by
    cases hplace : fs.resolve parts with
    | none =>
      rw [writeFile, Program.get_bind_apply, hplace] at h
      cases h
    | some place =>
      rw [writeFile, Program.get_bind_apply, hplace] at h
      cases hdir : fs.isDir place with
      | true =>
        simp only [hdir, if_true] at h
        cases h
      | false =>
        simp only [hdir, Bool.false_eq_true, if_false] at h
        cases h
        rfl
  rw [find?, resolve, resolveFrom_mono hdirs hresolve]
  simp only [hget, if_true, Option.map_some]

/-- The file that a path leads to is gone, and no other one. -/
theorem ensures_unlink {content : B} (h : fs.find? parts = some (place, .file content)) :
    Program.Ensures (unlink parts) fs
      (fun _ fs' => ∀ q, fs'.file? q = if q = place then none else fs.file? q) fun _ _ => False := by
  rw [unlink, Program.ensures_bind, Program.ensures_get]
  simp only [h, Program.ensures_set]
  intro q
  obtain ⟨-, hget⟩ := find?_spec h
  rw [file?_removeTree]
  by_cases hq : q = place
  · rw [if_pos hq, if_pos (hq ▸ List.prefix_refl q)]
  · rw [if_neg hq]
    split
    · rename_i hpre
      obtain ⟨rest, rfl⟩ := hpre
      have hrest : rest ≠ [] := by
        rintro rfl
        exact hq (List.append_nil place)
      have hnone : fs.get? (place ++ rest) = none := by
        by_contra hsome
        exact absurd (hget.symm.trans (get?_above hsome hrest)) nofun
      rw [file?, hnone]
    · rfl

/-- No file goes with a directory. -/
theorem ensures_rmdir :
    Program.Ensures (rmdir parts) fs (fun _ fs' => ∀ q, fs'.file? q = fs.file? q)
      fun _ fs' => ∀ q, fs'.file? q = fs.file? q := by
  rw [rmdir, Program.ensures_bind, Program.ensures_get]
  cases hfind : fs.find? parts with
  | none => exact fun _ => rfl
  | some found =>
    obtain ⟨place, node⟩ := found
    cases node with
    | file content => exact fun _ => rfl
    | dir =>
      refine Program.ensures_ite.mpr ⟨fun hempty => ?_, fun _ _ => rfl⟩
      rw [Program.ensures_set]
      intro q
      obtain ⟨-, hget⟩ := find?_spec hfind
      rw [file?_removeTree]
      split
      · rename_i hpre
        symm
        rw [file?]
        split
        · rename_i content hfile
          have hmem : q ∈ fs.nodes.keys :=
            Dict.get?_isSome_iff.mp (Option.isSome_iff_exists.mpr ⟨_, hfile⟩)
          have hsame : q = place := (of_decide_eq_true (List.all_eq_true.mp hempty q hmem)).resolve_left
            (not_not.mpr hpre)
          rw [hsame] at hfile
          exact absurd (hget.symm.trans hfile) nofun
        · rfl
      · rfl

/-- The directories that are made on the way along a path. -/
def Grown (fs fs' : FileSystem B) (place parts : List String) : Prop :=
  ∀ q, fs'.get? q = fs.get? q ∨
    fs.get? q = none ∧ fs'.get? q = some .dir ∧ ∃ n, q = (parts.take n).foldl visit place

theorem Grown.refl (fs : FileSystem B) (place parts : List String) : Grown fs fs place parts :=
  fun _ => .inl rfl

theorem Grown.file?_eq {fs' : FileSystem B} (h : Grown fs fs' place parts) (q : List String) :
    fs'.file? q = fs.file? q := by
  obtain hsame | ⟨hnone, hdir, -⟩ := h q
  · exact file?_congr hsame
  · rw [file?, file?, hnone, hdir]

theorem ensures_enter {part : String} (hplace : fs.get? place = some .dir) :
    Program.Ensures (enter place part) fs
      (fun next fs' => next = visit place part ∧ fs'.get? next = some .dir ∧
        ∀ q, fs'.get? q = fs.get? q ∨
          fs.get? q = none ∧ fs'.get? q = some .dir ∧ q = visit place part)
      fun _ fs' => fs' = fs := by
  rw [enter, Program.ensures_bind, Program.ensures_get]
  cases hnext : fs.get? (visit place part) with
  | some node =>
    cases node with
    | file content => exact rfl
    | dir => exact ⟨rfl, hnext, fun _ => .inl rfl⟩
  | none =>
    have hpart : part ≠ ".." := by
      rintro rfl
      rw [visit, if_pos rfl, get?_dropLast hplace] at hnext
      cases hnext
    rw [visit, if_neg hpart] at hnext ⊢
    have hput : ∀ q, (fs.put place part .dir).get? q =
        if q = place ++ [part] then some .dir else fs.get? q :=
      get?_put hplace fun hd => absurd (hnext.symm.trans hd) nofun
    refine ⟨rfl, ?_, fun q => ?_⟩
    · exact (hput _).trans (if_pos rfl)
    · by_cases hq : q = place ++ [part]
      · exact .inr ⟨hq ▸ hnext, (hput q).trans (if_pos hq), hq⟩
      · exact .inl ((hput q).trans (if_neg hq))

theorem ensures_mkdirsFrom (hplace : fs.get? place = some .dir) :
    Program.Ensures (mkdirsFrom place parts) fs
      (fun target fs' => target = parts.foldl visit place ∧ fs'.get? target = some .dir ∧
        Grown fs fs' place parts)
      fun _ fs' => Grown fs fs' place parts := by
  induction parts generalizing place fs with
  | nil => exact ⟨rfl, hplace, .refl fs place []⟩
  | cons part parts ih =>
    rw [mkdirsFrom, Program.ensures_bind]
    refine (ensures_enter hplace).mono ?_ ?_
    · rintro next fs₁ ⟨rfl, hnext, hstep⟩
      have hgrown : ∀ fs', Grown fs₁ fs' (visit place part) parts →
          Grown fs fs' place (part :: parts) := by
        intro fs' h q
        obtain hsame | ⟨hnone, hdir, n, hq⟩ := h q
        · rw [hsame]
          obtain hsame' | ⟨hnone', hdir', hq'⟩ := hstep q
          · exact .inl hsame'
          · exact .inr ⟨hnone', hdir', 1, hq'⟩
        · obtain hsame' | ⟨-, hdir', -⟩ := hstep q
          · exact .inr ⟨hsame' ▸ hnone, hdir, n + 1, hq⟩
          · exact absurd (hnone.symm.trans hdir') nofun
      refine (ih hnext).mono ?_ fun _ fs' h => hgrown fs' h
      rintro target fs' ⟨htarget, hdir, h⟩
      exact ⟨htarget, hdir, hgrown fs' h⟩
    · rintro _ _ rfl
      exact .refl _ _ _

end Paths

end FileSystem

end DomainRag
