import DomainRag.Lib.FileSystem
import DomainRag.Lib.PurePath

/-! # Document storage

`DocumentStorage` keeps the uploaded files, below a base directory or as objects of a bucket with a
copy in a cache directory. Both lay them out by domain, document, version and file name, and both
take these names as the caller gives them.
-/

namespace DomainRag.Storage

abbrev Bytes := List UInt8

inductive StoreObject where
  | file (place : List String)
  | blob (key : String)
  deriving DecidableEq

structure World where
  files : FileSystem Bytes
  bucket : Dict String Bytes
  writes : List StoreObject

def World.content (w : World) : StoreObject → Option Bytes
  | .file place => w.files.file? place
  | .blob key => w.bucket.get? key

abbrev StorageTask := Program Exc World

def onFiles {A : Type} (x : Program Exc (FileSystem Bytes) A) : StorageTask A := fun w =>
  match x w.files with
  | .ok a files => .ok a { w with files := files }
  | .error e files => .error e { w with files := files }

structure StoredDocument where
  objectStoragePath : String
  localPath : String
  sizeBytes : Nat

/-- What a stream yields before it ends or raises. -/
structure Stream where
  bytes : Bytes
  fault : Option Exc := none
  deriving DecidableEq

structure SaveCall where
  domainId : String
  docId : String
  version : String
  filename : String
  stream : Stream
  deriving DecidableEq

structure SseSpec where
  keyId : String
  context : Option (Dict String String)

structure StorageEncryptionPolicy where
  mode : String := "none"
  kmsKeyPrefix : String := "domainrag-"
  perTenantKey : Bool := true
  bindTenantContext : Bool := true
  defaultKeySuffix : String := "default"

def StorageEncryptionPolicy.resolve (policy : StorageEncryptionPolicy) (domainId : String) :
    Except Exc (Option SseSpec) :=
  if policy.mode = "none" then .ok none
  else if policy.mode ≠ "sse_kms" then
    .error ⟨"ValueError", s!"unsupported MINIO_SSE_MODE: '{policy.mode}'"⟩
  else
    let suffix := if policy.perTenantKey then domainId else policy.defaultKeySuffix
    let context := if policy.bindTenantContext then some (.ofList [("tenant_id", domainId)]) else none
    .ok (some ⟨policy.kmsKeyPrefix ++ suffix, context⟩)

/-- What the host and the object store raise during one call, if they do. -/
structure Host where
  openFault : Option Exc := none
  putFault : Option SseSpec → Option Exc := fun _ => none
  listFault : Option Exc := none
  removeFault : String → Option Exc := fun _ => none

def safeFilename (filename : String) : String :=
  if basename filename = "" then "upload.bin" else basename filename

def objectKey (objectPath : String) : String :=
  if "s3://".toList.isPrefixOf objectPath.toList then
    let rest := objectPath.toList.drop "s3://".length
    if '/' ∈ rest then String.ofList ((rest.dropWhile (· ≠ '/')).drop 1) else String.ofList rest
  else objectPath

/-- A file is written from a stream; what came before the stream raised stays in it. -/
def copyStream (host : Host) (path : PurePath) (stream : Stream) : StorageTask Nat := do
  let place ← Program.failing host.openFault (onFiles (FileSystem.writeFile path.parts stream.bytes))
  modify fun w => { w with writes := w.writes ++ [.file place] }
  Program.failing stream.fault (return stream.bytes.length)

/-- The directory of a version of a document, below the given one. -/
def SaveCall.relDir (call : SaveCall) : PurePath :=
  ((PurePath.ofString call.domainId).join call.docId).join call.version

structure LocalFilesystemStorage where
  base : List String
  resolved : ".." ∉ base

namespace LocalFilesystemStorage

variable (storage : LocalFilesystemStorage) (host : Host)

def basePath : PurePath := ⟨"/", storage.base⟩

def save (call : SaveCall) : StorageTask StoredDocument := do
  let targetDir := storage.basePath.append call.relDir
  let _ ← onFiles (FileSystem.mkdirs targetDir.parts)
  let targetPath := targetDir.join (safeFilename call.filename)
  let size ← copyStream host targetPath call.stream
  return {
    objectStoragePath := slashed (call.relDir.join (safeFilename call.filename)).str
    localPath := targetPath.str
    sizeBytes := size }

def target (domainId docId : String) (version : Option String) : PurePath :=
  let doc := (storage.basePath.join domainId).join docId
  match version with
  | none => doc
  | some v => doc.join v

def delete (domainId docId : String) (version : Option String) : StorageTask Nat := do
  let path := storage.target domainId docId version
  let w ← get
  match w.files.find? path.parts with
  | none => return 0
  | some (place, .file _) =>
    set { w with files := w.files.removeTree place }
    return 1
  | some (place, .dir) =>
    set { w with files := w.files.rmtree path.parts place }
    return (w.files.filesBelow place).length

def load (objectPath : String) : StorageTask Bytes := do
  let w ← get
  match w.files.find? (storage.basePath.join (objectKey objectPath)).parts with
  | some (_, .file bytes) => return bytes
  | some (_, .dir) => throw FileSystem.isADirectoryError
  | none => throw FileSystem.fileNotFoundError

end LocalFilesystemStorage

structure MinIOStorage where
  bucket : String
  cache : List String
  resolved : ".." ∉ cache
  encryption : StorageEncryptionPolicy := {}

namespace MinIOStorage

variable (storage : MinIOStorage) (host : Host)

def cachePath : PurePath := ⟨"/", storage.cache⟩

def rel (call : SaveCall) : PurePath := call.relDir.join (safeFilename call.filename)

def key (call : SaveCall) : String := slashed (rel call).str

def putObject (sse : Option SseSpec) (key : String) (data : Bytes) : StorageTask Unit :=
  Program.failing (host.putFault sse) do
    modify fun w =>
      { w with bucket := w.bucket.set key data, writes := w.writes ++ [.blob key] }

/-- The object is read back from the copy in the cache, which was just written. -/
def save (call : SaveCall) : StorageTask StoredDocument := do
  let cacheFile := storage.cachePath.append (rel call)
  let _ ← onFiles (FileSystem.mkdirs cacheFile.parent.parts)
  let size ← copyStream host cacheFile call.stream
  let sse ← Program.ofExcept (storage.encryption.resolve call.domainId)
  putObject host sse (key call) call.stream.bytes
  return {
    objectStoragePath := "s3://" ++ storage.bucket ++ "/" ++ key call
    localPath := cacheFile.str
    sizeBytes := size }

def removeObject (key : String) : StorageTask Unit :=
  Program.failing (host.removeFault key) do
    modify fun w => { w with bucket := w.bucket.erase key }

def keyPrefix (domainId docId : String) (version : Option String) : String :=
  "/".intercalate ([domainId, docId] ++ version.toList) ++ "/"

def cacheTarget (domainId docId : String) (version : Option String) : PurePath :=
  let doc := (storage.cachePath.join domainId).join docId
  match version with
  | none => doc
  | some v => doc.join v

/-- The copies go with the objects; a path that is no directory is left. -/
def cleanCache (path : PurePath) (w : World) : World :=
  match w.files.find? path.parts with
  | some (place, .dir) => { w with files := w.files.rmtree path.parts place }
  | some (_, .file _) | none => w

def delete (domainId docId : String) (version : Option String) : StorageTask Nat := do
  let listed ← Program.failing host.listFault do
    let w ← get
    return w.bucket.keys.filter fun k => (keyPrefix domainId docId version).toList.isPrefixOf k.toList
  forM listed (removeObject host)
  modify (cleanCache (storage.cacheTarget domainId docId version))
  return listed.length

def load (objectPath : String) : StorageTask Bytes := do
  let w ← get
  match w.bucket.get? (objectKey objectPath) with
  | some data => return data
  | none => throw ⟨"S3Error", "NoSuchKey"⟩

end MinIOStorage

inductive DocumentStorage where
  | filesystem (storage : LocalFilesystemStorage)
  | minio (storage : MinIOStorage)

namespace DocumentStorage

def save (host : Host) (call : SaveCall) : DocumentStorage → StorageTask StoredDocument
  | filesystem storage => storage.save host call
  | minio storage => storage.save host call

def delete (host : Host) (domainId docId : String) (version : Option String) :
    DocumentStorage → StorageTask Nat
  | filesystem storage => storage.delete domainId docId version
  | minio storage => storage.delete host domainId docId version

end DocumentStorage

section Rules

open Program

variable {A : Type} {w : World}

theorem ensures_onFiles {x : Program Exc (FileSystem Bytes) A} {Q : A → World → Prop}
    {R : Exc → World → Prop} :
    Ensures (onFiles x) w Q R ↔ Ensures x w.files (fun a files => Q a { w with files := files })
      fun e files => R e { w with files := files } := by
  unfold Ensures onFiles
  cases x w.files with
  | ok a files => rfl
  | error e files => rfl

/-- A stream was copied to a file. -/
structure Copied (path : PurePath) (bytes : Bytes) (w w' : World) : Prop where
  notDir : w.files.get? (path.parts.foldl FileSystem.visit []) ≠ some .dir
  files : ∀ q, w'.files.get? q = if q = path.parts.foldl FileSystem.visit [] then some (.file bytes)
    else w.files.get? q
  bucket : w'.bucket = w.bucket
  writes : w'.writes = w.writes ++ [.file (path.parts.foldl FileSystem.visit [])]

theorem ensures_copyStream {host : Host} {path : PurePath} {stream : Stream} :
    Ensures (copyStream host path stream) w (fun _ => Copied path stream.bytes w)
      fun _ w' => w' = w ∨ Copied path stream.bytes w w' := by
  rw [copyStream, ensures_bind, ensures_failing]
  refine ⟨fun _ _ => .inl rfl, fun _ => ?_⟩
  rw [ensures_onFiles]
  refine FileSystem.ensures_writeFile.mono ?_ ?_
  · rintro _ files ⟨rfl, hnot, hfiles⟩
    have hcopied : Copied path stream.bytes w { w with
        files := files
        writes := w.writes ++ [.file (path.parts.foldl FileSystem.visit [])] } :=
      ⟨hnot, hfiles, rfl, rfl⟩
    rw [ensures_bind, ensures_modify, ensures_failing]
    exact ⟨fun _ _ => .inr hcopied, fun _ => hcopied⟩
  · rintro _ _ rfl
    exact .inl rfl

end Rules

/-- The call that an upload makes: the host names a document without an id, and a file without a
name gets one. -/
def uploadCall (newDocId domainId : String) (docId : Option String) (version : String)
    (filename : Option String) (stream : Stream) : SaveCall where
  domainId := domainId
  docId := match docId with
    | some d => if d = "" then newDocId else d
    | none => newDocId
  version := version
  filename := match filename with
    | some f => if f = "" then "upload.bin" else f
    | none => "upload.bin"
  stream := stream

end DomainRag.Storage
