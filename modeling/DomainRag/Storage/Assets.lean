import DomainRag.Auth.Adapter
import DomainRag.Retrieval.Service
import DomainRag.Storage.Service

/-! # Figures of imported exams

An import stores the figures of an exam next to the uploaded documents, and the asset endpoint
serves an object by its key. The endpoint checks that the key lies in the user's domain, but not
that the object is a figure.
-/

namespace DomainRag.Storage

open Program Auth

def strip (s : String) : String :=
  String.ofList ((s.toList.dropWhile Retrieval.isSpace).rdropWhile Retrieval.isSpace)

def hasDotDot (s : String) : Prop := ['.', '.'] <:+: s.toList

instance (s : String) : Decidable (hasDotDot s) := inferInstanceAs (Decidable (_ <:+: _))

/-- The key of an asset without the scheme and the bucket, as the endpoint reads it. -/
def keyBody (skey : String) : String :=
  if "s3://".toList.isPrefixOf skey.toList then
    let rest := skey.toList.drop 5
    if '/' ∈ rest then String.ofList ((rest.dropWhile (· ≠ '/')).drop 1) else ""
  else skey

def firstSegment (s : String) : String := String.ofList (s.toList.takeWhile (· ≠ '/'))

def imageMedia : Dict String String :=
  .ofList [(".png", "image/png"), (".jpg", "image/jpeg"), (".jpeg", "image/jpeg"),
    (".webp", "image/webp"), (".gif", "image/gif")]

def mediaOf (lower : String → String) (skey : String) : String :=
  let ext := if '.' ∈ skey.toList then
    lower (String.ofList ('.' :: skey.toList.rtakeWhile (· ≠ '.'))) else ""
  (imageMedia.get? ext).getD "application/octet-stream"

def ensureTenantMatch (domainId : String) (user : UserContext) : Except AuthError Unit :=
  if "PLATFORM_ADMIN" ∈ user.roles then .ok ()
  else if user.domainId = domainId then .ok ()
  else .error (.http 403 [("error", "tenant_mismatch"), ("expected_domain_id", domainId),
    ("token_domain_id", user.domainId)])

def Forbidden (domainId skey : String) : Prop :=
  hasDotDot skey ∨ skey.toList.head? = some '/' ∨ firstSegment (keyBody skey) ≠ domainId

instance (domainId skey : String) : Decidable (Forbidden domainId skey) :=
  inferInstanceAs (Decidable (_ ∨ _ ∨ _))

def getAssessmentAsset (lower : String → String) (w : World) (domainId key : String)
    (user : UserContext) : Except AuthError (Bytes × String) := do
  ensureTenantMatch domainId user
  if Forbidden domainId (strip key) then .error (.http 403 [("error", "forbidden_asset_key")])
  else match (MinIOStorage.load (strip key)).result? w with
    | some data => .ok (data, mediaOf lower (strip key))
    | none => .error (.http 404 [("error", "asset_not_found")])

/-- The first digits of a random identifier. -/
structure AssetId where
  text : String
  hex : ∀ c ∈ text.toList, c ∈ "0123456789abcdef".toList

structure Figure where
  pngBytes : Bytes
  pageNumber : Value
  bbox : List Value

structure AssetRecord where
  assetId : String
  kind : String
  storageKey : String
  contentHash : String
  sourcePage : Value
  bbox : List Value
  vlmDescription : Value

def figureCall (domainId itemId : String) (assetId : AssetId) (fig : Figure) : SaveCall where
  domainId := domainId
  docId := itemId
  version := "assets"
  filename := assetId.text ++ ".png"
  stream := ⟨fig.pngBytes, none⟩

def storeFigure (storage : MinIOStorage) (host : Host) (sha256 : Bytes → String)
    (domainId itemId : String) (assetId : AssetId) (fig : Figure) : StorageTask AssetRecord := do
  let stored ← storage.save host (figureCall domainId itemId assetId fig)
  return {
    assetId := assetId.text
    kind := "image"
    storageKey := stored.objectStoragePath
    contentHash := "sha256:" ++ sha256 fig.pngBytes
    sourcePage := fig.pageNumber
    bbox := fig.bbox
    vlmDescription := .null }

/-- The storages of the uploads and of the imports, which share a bucket. -/
structure Wiring where
  uploads : MinIOStorage
  assets : MinIOStorage
  sha256 : Bytes → String
  shared : uploads.bucket = assets.bucket

inductive AssetOp where
  | upload (host : Host) (call : SaveCall)
  | figure (host : Host) (domainId itemId : String) (assetId : AssetId) (fig : Figure)

inductive Origin where
  | upload
  | figure
  deriving DecidableEq

/-- A save that went through, with the path that was recorded for it. -/
structure Entry where
  origin : Origin
  call : SaveCall
  path : String
  deriving DecidableEq

/-- The stores with the saves that went through, the latest first. -/
structure Shelf where
  world : World
  log : List Entry

namespace Shelf

variable (wiring : Wiring)

def record (s : Shelf) (w : World) (origin : Origin) (call : SaveCall) : Option String → Shelf
  | some path => ⟨w, ⟨origin, call, path⟩ :: s.log⟩
  | none => ⟨w, s.log⟩

def after (s : Shelf) : AssetOp → Shelf
  | .upload host call =>
    let task := wiring.uploads.save host call
    s.record (task.final s.world) .upload call
      ((task.result? s.world).map StoredDocument.objectStoragePath)
  | .figure host domainId itemId assetId fig =>
    let task := storeFigure wiring.assets host wiring.sha256 domainId itemId assetId fig
    s.record (task.final s.world) .figure (figureCall domainId itemId assetId fig)
      ((task.result? s.world).map AssetRecord.storageKey)

/-- The save that an object of the bucket comes from. -/
def writer (s : Shelf) (key : String) : Option Entry :=
  s.log.find? fun e => MinIOStorage.key e.call = key

end Shelf

/-- The keys of a domain that some request reaches: they start with the domain, have no double dots
and do not end in white space. -/
structure Servable (domainId key : String) : Prop where
  segment : firstSegment key = domainId
  noDots : ¬ hasDotDot key
  noSpace : ∀ c ∈ key.toList.getLast?, Retrieval.isSpace c = false

/-- Whatever the endpoint serves to a user is a figure of the domain, and every figure of the domain
is served by the key that was recorded for it. -/
structure ServesFigures (lower : String → String) (s : Shelf) (domainId : String)
    (user : UserContext) : Prop where
  sound : ∀ key data media, getAssessmentAsset lower s.world domainId key user = .ok (data, media) →
    ∃ e, s.writer (objectKey (strip key)) = some e ∧ e.origin = .figure ∧
      e.call.domainId = domainId ∧ e.call.stream.bytes = data
  complete : ∀ e ∈ s.log, e.origin = .figure → e.call.domainId = domainId →
    ∃ media, getAssessmentAsset lower s.world domainId e.path user =
      .ok (e.call.stream.bytes, media)

/-- The objects of the domain that can be reached were last written by its imports, the figures lie
where they can be reached, and no later save wrote something else in their place. -/
structure FiguresOnly (s : Shelf) (domainId : String) : Prop where
  figures : ∀ key e, s.writer key = some e → Servable domainId key →
    e.origin = .figure ∧ e.call.domainId = domainId
  reachable : ∀ e ∈ s.log, e.origin = .figure → e.call.domainId = domainId →
    Servable domainId (MinIOStorage.key e.call)
  standing : ∀ e ∈ s.log, e.origin = .figure → e.call.domainId = domainId →
    ∀ e', s.writer (MinIOStorage.key e.call) = some e' → e'.call.stream.bytes = e.call.stream.bytes

section Keys

theorem keyBody_eq_objectKey {skey : String} (h : keyBody skey ≠ "") :
    keyBody skey = objectKey skey := by
  have hlength : "s3://".length = 5 := rfl
  unfold keyBody at h
  unfold keyBody objectKey
  rw [hlength]
  split
  · rename_i hscheme
    rw [if_pos hscheme] at h
    dsimp only at h ⊢
    by_cases hslash : '/' ∈ skey.toList.drop 5
    · rw [if_pos hslash, if_pos hslash]
    · rw [if_neg hslash] at h
      exact absurd rfl h
  · rfl

theorem objectKey_suffix (s : String) : (objectKey s).toList <:+ s.toList := by
  unfold objectKey
  split
  · dsimp only
    split
    · rw [String.toList_ofList]
      exact (List.drop_suffix _ _).trans ((List.dropWhile_suffix _).trans (List.drop_suffix _ _))
    · rw [String.toList_ofList]
      exact List.drop_suffix _ _
  · exact List.suffix_refl _

theorem getLast?_strip (s : String) :
    ∀ c ∈ (strip s).toList.getLast?, Retrieval.isSpace c = false := by
  intro c hc
  rw [strip, String.toList_ofList] at hc
  obtain ⟨hne, rfl⟩ := List.mem_getLast?_eq_getLast hc
  exact Bool.not_eq_true _ ▸ List.rdropWhile_last_not _ _ hne

/-- A text that neither starts nor ends with white space is kept by `strip`. -/
theorem strip_eq_self {s : String} (hhead : ∀ c ∈ s.toList.head?, Retrieval.isSpace c = false)
    (hlast : ∀ c ∈ s.toList.getLast?, Retrieval.isSpace c = false) : strip s = s := by
  have hfront : s.toList.dropWhile Retrieval.isSpace = s.toList := by
    cases hs : s.toList with
    | nil => rfl
    | cons c cs =>
      have hc : Retrieval.isSpace c = false := hhead c (by rw [hs]; rfl)
      rw [List.dropWhile_cons, hc]
      rfl
  have hback : s.toList.rdropWhile Retrieval.isSpace = s.toList := by
    rw [List.rdropWhile_eq_self_iff]
    intro hne
    rw [hlast _ (List.getLast?_eq_some_getLast hne)]
    exact Bool.false_ne_true
  rw [strip, hfront, hback, String.ofList_toList]

theorem strip_strip (s : String) : strip (strip s) = strip s := by
  refine strip_eq_self ?_ (getLast?_strip s)
  intro c hc
  have hpre : (strip s).toList <+: s.toList.dropWhile Retrieval.isSpace := by
    rw [strip, String.toList_ofList]
    exact List.rdropWhile_prefix _ _
  obtain ⟨rest, hrest⟩ := hpre
  have hhead := List.head?_dropWhile_not Retrieval.isSpace s.toList
  rw [← hrest, List.head?_append, show (strip s).toList.head? = some c from hc] at hhead
  exact hhead

/-- Double dots do not reach over a slash. -/
theorem dots_append_slash (a b : List Char) :
    ['.', '.'] <:+: a ++ '/' :: b ↔ ['.', '.'] <:+: a ∨ ['.', '.'] <:+: b := by
  induction a with
  | nil => simp [List.infix_cons_iff]
  | cons x a ih =>
    rw [List.cons_append, List.infix_cons_iff, ih, List.infix_cons_iff, or_assoc]
    refine or_congr_left ?_
    cases a with
    | nil => simp [List.cons_prefix_cons]
    | cons y a => simp [List.cons_prefix_cons]

def objectPath (bucket key : String) : String := "s3://" ++ bucket ++ "/" ++ key

theorem toList_objectPath (bucket key : String) :
    (objectPath bucket key).toList =
      's' :: '3' :: ':' :: '/' :: '/' :: (bucket.toList ++ '/' :: key.toList) := by
  simp [objectPath]

/-- The storage and the endpoint read the key of a recorded path alike. -/
theorem keys_objectPath {bucket : String} (hbucket : '/' ∉ bucket.toList) (key : String) :
    objectKey (objectPath bucket key) = key ∧ keyBody (objectPath bucket key) = key := by
  have hrest : (objectPath bucket key).toList.drop 5 = bucket.toList ++ '/' :: key.toList := by
    rw [toList_objectPath]
    rfl
  have hdrop : (bucket.toList ++ '/' :: key.toList).dropWhile (· ≠ '/') = '/' :: key.toList := by
    rw [List.dropWhile_append_of_pos]
    · rfl
    · intro c hc
      exact decide_eq_true fun heq => hbucket (heq ▸ hc)
  have hscheme : "s3://".toList.isPrefixOf (objectPath bucket key).toList = true := by
    rw [toList_objectPath]
    rfl
  have hlength : "s3://".length = 5 := rfl
  have hmem : '/' ∈ bucket.toList ++ '/' :: key.toList :=
    List.mem_append_right _ List.mem_cons_self
  simp only [objectKey, keyBody, hlength, if_pos hscheme, hrest, if_pos hmem, hdrop,
    List.drop_succ_cons, List.drop_zero, String.ofList_toList, and_self]

theorem strip_objectPath {bucket key : String} (hkey : key.toList ≠ [])
    (hspace : ∀ c ∈ key.toList.getLast?, Retrieval.isSpace c = false) :
    strip (objectPath bucket key) = objectPath bucket key := by
  refine strip_eq_self ?_ ?_
  · rw [toList_objectPath]
    rintro _ ⟨⟩
    decide
  · have hsplit : (objectPath bucket key).toList =
        ('s' :: '3' :: ':' :: '/' :: '/' :: (bucket.toList ++ ['/'])) ++ key.toList := by
      rw [toList_objectPath]
      simp
    rw [hsplit, List.getLast?_append_of_ne_nil _ hkey]
    exact hspace

theorem accepted_of_servable {domainId bucket key : String} (hslash : '/' ∉ bucket.toList)
    (hdots : ¬ hasDotDot bucket) (h : Servable domainId key) :
    ¬ Forbidden domainId (objectPath bucket key) := by
  rintro (hdot | hhead | hsegment)
  · rw [hasDotDot, toList_objectPath] at hdot
    have hscheme : ['.', '.'] <:+: bucket.toList ++ '/' :: key.toList := by
      simpa [List.infix_cons_iff, List.cons_prefix_cons] using hdot
    obtain hdot | hdot := (dots_append_slash _ _).mp hscheme
    · exact hdots hdot
    · exact h.noDots hdot
  · rw [toList_objectPath] at hhead
    cases hhead
  · rw [(keys_objectPath hslash key).2] at hsegment
    exact hsegment h.segment

variable {domainId : String} (hdomain : domainId ≠ "")

include hdomain

theorem firstSegment_ne_nil {key : String} (h : firstSegment key = domainId) : key.toList ≠ [] := by
  intro hnil
  rw [firstSegment, hnil] at h
  exact hdomain h.symm

theorem servable_of_accepted {key : String} (h : ¬ Forbidden domainId (strip key)) :
    Servable domainId (objectKey (strip key)) := by
  obtain ⟨hdots, h⟩ := not_or.mp h
  have hsegment : firstSegment (keyBody (strip key)) = domainId := not_not.mp (not_or.mp h).2
  have hbody : keyBody (strip key) ≠ "" := by
    intro hempty
    refine firstSegment_ne_nil hdomain hsegment ?_
    rw [hempty]
    rfl
  rw [keyBody_eq_objectKey hbody] at hsegment
  have hsuffix := objectKey_suffix (strip key)
  refine ⟨hsegment, fun h => hdots (List.IsInfix.trans h hsuffix.isInfix), ?_⟩
  intro c hc
  refine getLast?_strip key c ?_
  obtain ⟨front, hfront⟩ := hsuffix
  rw [← hfront, List.getLast?_append_of_ne_nil _ (firstSegment_ne_nil hdomain hsegment)]
  exact hc

end Keys

section Requests

variable {lower : String → String} {w : World} {domainId : String} {user : UserContext}

theorem result?_load (key : String) (w : World) :
    (MinIOStorage.load key).result? w = w.bucket.get? (objectKey key) := by
  have hload : Ensures (MinIOStorage.load key) w
      (fun data _ => w.bucket.get? (objectKey key) = some data)
      fun _ _ => w.bucket.get? (objectKey key) = none := by
    rw [MinIOStorage.load, ensures_bind, ensures_get]
    cases hget : w.bucket.get? (objectKey key) with
    | some data => exact rfl
    | none => exact rfl
  unfold Ensures at hload
  unfold result?
  split
  · rename_i hrun
    rw [hrun] at hload
    exact hload.symm
  · rename_i hrun
    rw [hrun] at hload
    exact hload.symm

theorem getAssessmentAsset_eq_ok_iff (huser : user.domainId = domainId) {key : String}
    {data : Bytes} {media : String} :
    getAssessmentAsset lower w domainId key user = .ok (data, media) ↔
      ¬ Forbidden domainId (strip key) ∧ w.bucket.get? (objectKey (strip key)) = some data ∧
        mediaOf lower (strip key) = media := by
  have hmatch : ensureTenantMatch domainId user = .ok () := by
    unfold ensureTenantMatch
    rw [if_pos huser, ite_self]
  unfold getAssessmentAsset
  rw [hmatch, result?_load]
  by_cases hforbidden : Forbidden domainId (strip key)
  · simp [hforbidden, bind, Except.bind]
  · cases hget : w.bucket.get? (objectKey (strip key)) with
    | none => simp [hforbidden, bind, Except.bind]
    | some data' => simp [hforbidden, bind, Except.bind]

end Requests

section Runs

variable {wiring : Wiring} {s : Shelf}

/-- A save puts its stream under its key, or puts nothing. -/
theorem ensures_save_bucket {storage : MinIOStorage} {host : Host} {call : SaveCall} {w : World} :
    Ensures (storage.save host call) w
      (fun stored w' => w'.bucket = w.bucket.set (MinIOStorage.key call) call.stream.bytes ∧
        stored.objectStoragePath = objectPath storage.bucket (MinIOStorage.key call))
      fun _ w' => w'.bucket = w.bucket := by
  rw [MinIOStorage.save, ensures_bind, ensures_onFiles]
  refine (ensures_true _ _).mono ?_ fun _ _ _ => rfl
  intro _ files _
  rw [ensures_bind]
  refine ensures_copyStream.mono ?_ ?_
  · intro _ w₂ hcopied
    rw [ensures_bind, ensures_ofExcept]
    refine ⟨fun sse _ => ?_, fun _ _ => hcopied.bucket⟩
    rw [ensures_bind, MinIOStorage.putObject, ensures_failing]
    refine ⟨fun _ _ => hcopied.bucket, fun _ => ⟨?_, rfl⟩⟩
    exact congrArg (Dict.set · (MinIOStorage.key call) call.stream.bytes) hcopied.bucket
  · rintro _ w₂ (rfl | hcopied)
    · rfl
    · exact hcopied.bucket

/-- The log tells what the bucket holds and under which paths. -/
structure Logged (bucket : String) (s : Shelf) : Prop where
  content : ∀ key, s.world.bucket.get? key = (s.writer key).map fun e => e.call.stream.bytes
  path : ∀ e ∈ s.log, e.path = objectPath bucket (MinIOStorage.key e.call)
  figure : ∀ e ∈ s.log, e.origin = .figure → ∃ domainId itemId assetId fig,
    e.call = figureCall domainId itemId assetId fig

theorem Logged.record {bucket : String} {w : World} {origin : Origin} {call : SaveCall}
    {path : Option String} (h : Logged bucket s)
    (hsaved : ∀ p, path = some p → p = objectPath bucket (MinIOStorage.key call) ∧
      w.bucket = s.world.bucket.set (MinIOStorage.key call) call.stream.bytes)
    (hraised : path = none → w.bucket = s.world.bucket)
    (hfigure : origin = .figure → ∃ domainId itemId assetId fig,
      call = figureCall domainId itemId assetId fig) :
    Logged bucket (s.record w origin call path) := by
  cases path with
  | none =>
    refine ⟨?_, h.path, h.figure⟩
    intro key
    rw [Shelf.record, hraised rfl]
    exact h.content key
  | some p =>
    obtain ⟨rfl, hbucket⟩ := hsaved p rfl
    refine ⟨?_, ?_, ?_⟩
    · intro key
      rw [Shelf.record, Shelf.writer, List.find?_cons, hbucket, Dict.get?_set]
      by_cases hkey : MinIOStorage.key call = key
      · simp only [hkey, decide_true, if_true, Option.map_some]
      · simp only [hkey, decide_false, if_neg fun heq : key = _ => hkey heq.symm]
        exact h.content key
    · intro e he
      obtain rfl | he := List.mem_cons.mp he
      · rfl
      · exact h.path e he
    · intro e he
      obtain rfl | he := List.mem_cons.mp he
      · exact hfigure
      · exact h.figure e he

theorem Logged.after (h : Logged wiring.assets.bucket s) (op : AssetOp) :
    Logged wiring.assets.bucket (s.after wiring op) := by
  cases op with
  | upload host call =>
    have hens := @ensures_save_bucket wiring.uploads host call s.world
    rw [wiring.shared] at hens
    refine h.record ?_ ?_ nofun
    · intro p hp
      obtain ⟨stored, hstored, rfl⟩ := Option.map_eq_some_iff.mp hp
      obtain ⟨hbucket, hpath⟩ := hens.of_result? hstored
      exact ⟨hpath, hbucket⟩
    · intro hnone
      obtain ⟨_, hbucket⟩ := hens.of_raised (Option.map_eq_none_iff.mp hnone)
      exact hbucket
  | figure host domainId itemId assetId fig =>
    have hens : Ensures
        (storeFigure wiring.assets host wiring.sha256 domainId itemId assetId fig) s.world
        (fun record w' => w'.bucket = s.world.bucket.set
            (MinIOStorage.key (figureCall domainId itemId assetId fig)) fig.pngBytes ∧
          record.storageKey = objectPath wiring.assets.bucket
            (MinIOStorage.key (figureCall domainId itemId assetId fig)))
        fun _ w' => w'.bucket = s.world.bucket := by
      rw [storeFigure, ensures_bind]
      exact ensures_save_bucket
    refine h.record ?_ ?_ fun _ => ⟨domainId, itemId, assetId, fig, rfl⟩
    · intro p hp
      obtain ⟨record, hrecord, rfl⟩ := Option.map_eq_some_iff.mp hp
      obtain ⟨hbucket, hpath⟩ := hens.of_result? hrecord
      exact ⟨hpath, hbucket⟩
    · intro hnone
      obtain ⟨_, hbucket⟩ := hens.of_raised (Option.map_eq_none_iff.mp hnone)
      exact hbucket

theorem logged_run (wiring : Wiring) (ops : List AssetOp) (h : Logged wiring.assets.bucket s) :
    Logged wiring.assets.bucket (ops.foldl (Shelf.after wiring) s) := by
  induction ops generalizing s with
  | nil => exact h
  | cons op ops ih => exact ih (h.after op)

/-- The key of a figure ends with the suffix of its file. -/
theorem getLast?_key_figureCall (domainId itemId : String) (assetId : AssetId) (fig : Figure) :
    (MinIOStorage.key (figureCall domainId itemId assetId fig)).toList.getLast? = some 'g' := by
  have hname : (assetId.text ++ ".png").toList = assetId.text.toList ++ ['.', 'p', 'n', 'g'] := by
    rw [String.toList_append]
    rfl
  have hslash : '/' ∉ (assetId.text ++ ".png").toList := by
    rw [hname, List.mem_append]
    rintro (h | h)
    · exact absurd (assetId.hex _ h) (by decide)
    · exact absurd h (by decide)
  have hne : ∀ short : String, short.toList.length < 4 → assetId.text ++ ".png" ≠ short := by
    rintro _ hshort rfl
    rw [hname, List.length_append] at hshort
    exact absurd hshort (by simp)
  have hsafe : safeFilename (assetId.text ++ ".png") = assetId.text ++ ".png" := by
    rw [safeFilename, basename_of_noSlash hslash, if_neg (hne "" (by decide))]
  have hrel : MinIOStorage.rel (figureCall domainId itemId assetId fig) =
      ⟨(figureCall domainId itemId assetId fig).relDir.root,
        (figureCall domainId itemId assetId fig).relDir.parts ++ [assetId.text ++ ".png"]⟩ := by
    rw [MinIOStorage.rel, figureCall, hsafe, PurePath.join_of_noSlash _ hslash
      (hne "" (by decide)), if_neg (hne "." (by decide))]
  obtain ⟨front, hfront⟩ := PurePath.str_suffix
    (figureCall domainId itemId assetId fig).relDir.root
    (figureCall domainId itemId assetId fig).relDir.parts (assetId.text ++ ".png")
  rw [MinIOStorage.key, hrel, slashed, String.toList_ofList, ← hfront, hname]
  simp

theorem writer_of_mem {e : Entry} (h : e ∈ s.log) :
    ∃ e', s.writer (MinIOStorage.key e.call) = some e' := by
  have hsome : (s.writer (MinIOStorage.key e.call)).isSome :=
    List.find?_isSome.mpr ⟨e, h, decide_eq_true rfl⟩
  exact Option.isSome_iff_exists.mp hsome

variable {lower : String → String} {domainId : String} {user : UserContext} {bucket : String}
  (hdomain : domainId ≠ "") (huser : user.domainId = domainId) (hslash : '/' ∉ bucket.toList)
  (hlogged : Logged bucket s)

include hdomain huser hslash hlogged

theorem FiguresOnly.serves (hdots : ¬ hasDotDot bucket) (h : FiguresOnly s domainId) :
    ServesFigures lower s domainId user := by
  refine ⟨?_, ?_⟩
  · intro key data media hok
    obtain ⟨haccepted, hdata, -⟩ := (getAssessmentAsset_eq_ok_iff huser).mp hok
    rw [hlogged.content] at hdata
    obtain ⟨e, hwriter, hbytes⟩ := Option.map_eq_some_iff.mp hdata
    obtain ⟨hfigure, hown⟩ := h.figures _ e hwriter (servable_of_accepted hdomain haccepted)
    exact ⟨e, hwriter, hfigure, hown, hbytes⟩
  · intro e he hfigure hown
    have hservable := h.reachable e he hfigure hown
    obtain ⟨e', hwriter⟩ := writer_of_mem he
    have hpath : strip e.path = objectPath bucket (MinIOStorage.key e.call) := by
      rw [hlogged.path e he]
      exact strip_objectPath (firstSegment_ne_nil hdomain hservable.segment) hservable.noSpace
    refine ⟨mediaOf lower (strip e.path), (getAssessmentAsset_eq_ok_iff huser).mpr ⟨?_, ?_, rfl⟩⟩
    · rw [hpath]
      exact accepted_of_servable hslash hdots hservable
    · rw [hpath, (keys_objectPath hslash _).1, hlogged.content, hwriter, Option.map_some,
        h.standing e he hfigure hown e' hwriter]

theorem ServesFigures.figuresOnly (h : ServesFigures lower s domainId user) :
    FiguresOnly s domainId := by
  -- the recorded path of a figure leads the endpoint to its key
  have hserved : ∀ e ∈ s.log, e.origin = .figure → e.call.domainId = domainId →
      Servable domainId (MinIOStorage.key e.call) ∧
        s.world.bucket.get? (MinIOStorage.key e.call) = some e.call.stream.bytes := by
    intro e he hfigure hown
    obtain ⟨media, hok⟩ := h.complete e he hfigure hown
    obtain ⟨haccepted, hdata, -⟩ := (getAssessmentAsset_eq_ok_iff huser).mp hok
    have hpath : strip e.path = objectPath bucket (MinIOStorage.key e.call) := by
      obtain ⟨d, itemId, assetId, fig, hcall⟩ := hlogged.figure e he hfigure
      have hlast := getLast?_key_figureCall d itemId assetId fig
      rw [hlogged.path e he, hcall]
      refine strip_objectPath ?_ ?_
      · intro hnil
        rw [hnil] at hlast
        cases hlast
      · intro c hc
        rw [hlast] at hc
        cases hc
        decide
    have hservable := servable_of_accepted hdomain haccepted
    rw [hpath, (keys_objectPath hslash _).1] at hservable hdata
    exact ⟨hservable, hdata⟩
  refine ⟨?_, fun e he hfigure hown => (hserved e he hfigure hown).1, ?_⟩
  · intro key e hwriter hservable
    have hstrip : strip (objectPath "b" key) = objectPath "b" key :=
      strip_objectPath (firstSegment_ne_nil hdomain hservable.segment) hservable.noSpace
    have hkey : objectKey (objectPath "b" key) = key := (keys_objectPath (by decide) key).1
    have hok : getAssessmentAsset lower s.world domainId (objectPath "b" key) user =
        .ok (e.call.stream.bytes, mediaOf lower (strip (objectPath "b" key))) := by
      refine (getAssessmentAsset_eq_ok_iff huser).mpr ⟨?_, ?_, rfl⟩
      · rw [hstrip]
        exact accepted_of_servable (by decide) (by decide) hservable
      · rw [hstrip, hkey, hlogged.content, hwriter, Option.map_some]
    obtain ⟨e', hwriter', hfigure, hown, -⟩ := h.sound _ _ _ hok
    rw [hstrip, hkey, hwriter] at hwriter'
    cases hwriter'
    exact ⟨hfigure, hown⟩
  · intro e he hfigure hown e' hwriter
    have hdata := (hserved e he hfigure hown).2
    rw [hlogged.content, hwriter] at hdata
    exact Option.some.inj hdata

end Runs

/-- For every run of uploads and imports on the shared bucket and every user of a domain: the asset
endpoint serves the figures of the domain and nothing else, exactly when all objects of the domain
that can be reached are figures that still stand where they were recorded. -/
theorem serves_figures_iff (wiring : Wiring) (hslash : '/' ∉ wiring.assets.bucket.toList)
    (hdots : ¬ hasDotDot wiring.assets.bucket) (lower : String → String) (w : World)
    (hempty : ∀ key, w.bucket.get? key = none) (ops : List AssetOp) (domainId : String)
    (hdomain : domainId ≠ "") (user : UserContext) (huser : user.domainId = domainId) :
    ServesFigures lower (ops.foldl (Shelf.after wiring) ⟨w, []⟩) domainId user ↔
      FiguresOnly (ops.foldl (Shelf.after wiring) ⟨w, []⟩) domainId := by
  have hlogged : Logged wiring.assets.bucket (ops.foldl (Shelf.after wiring) ⟨w, []⟩) :=
    logged_run wiring ops ⟨hempty, nofun, nofun⟩
  exact ⟨ServesFigures.figuresOnly hdomain huser hslash hlogged,
    FiguresOnly.serves hdomain huser hslash hlogged hdots⟩

section Exam

def examWiring : Wiring where
  uploads := ⟨"domainrag", ["tmp", "uploads"], by decide, {}⟩
  assets := ⟨"domainrag", ["tmp", "assets"], by decide, {}⟩
  sha256 := fun _ => ""
  shared := rfl

def bareWorld : World := ⟨.empty, .empty, []⟩

def reader : UserContext where
  userId := .str "clerk"
  domainId := "hr"
  roles := ["USER"]
  clearance := .str "internal"
  department := .null
  domainGroups := []
  preferredUsername := .null
  email := .null
  rawClaims := .empty

def diagram : Figure := ⟨[7], .null, []⟩

theorem diagram_hex : ∀ c ∈ "0a1b2c3d4e5f".toList, c ∈ "0123456789abcdef".toList := by
  intro c hc
  have hall : ("0a1b2c3d4e5f".toList.all fun c => decide (c ∈ "0123456789abcdef".toList)) =
    true := by decide +kernel
  exact of_decide_eq_true (List.all_eq_true.mp hall c hc)

def diagramId : AssetId := ⟨"0a1b2c3d4e5f", diagram_hex⟩

def payroll : SaveCall := uploadCall "DOC-1" "hr" none "v1" (some "pay.txt") ⟨[1], none⟩

/-- A document of the domain is served to a user of whom only the domain is known. -/
theorem uploaded_document_served :
    getAssessmentAsset id (Shelf.after examWiring ⟨bareWorld, []⟩ (.upload {} payroll)).world "hr"
        "hr/DOC-1/v1/pay.txt" reader = .ok ([1], "application/octet-stream") ∧
      ¬ ServesFigures id ([AssetOp.upload {} payroll].foldl (Shelf.after examWiring)
        ⟨bareWorld, []⟩) "hr" reader := by
  have hserved : getAssessmentAsset id
      (Shelf.after examWiring ⟨bareWorld, []⟩ (.upload {} payroll)).world "hr"
      "hr/DOC-1/v1/pay.txt" reader = .ok ([1], "application/octet-stream") := by
    refine (getAssessmentAsset_eq_ok_iff rfl).mpr ⟨?_, ?_, ?_⟩
    · decide +kernel
    · decide +kernel
    · decide +kernel
  refine ⟨hserved, fun h => ?_⟩
  obtain ⟨e, hwriter, hfigure, -, -⟩ := h.sound _ _ _ hserved
  have hlog : (Shelf.after examWiring ⟨bareWorld, []⟩ (.upload {} payroll)).log =
      [⟨.upload, payroll, "s3://domainrag/hr/DOC-1/v1/pay.txt"⟩] := by
    decide +kernel
  have hmem := List.mem_of_find?_eq_some hwriter
  rw [List.foldl_cons, List.foldl_nil, hlog, List.mem_singleton] at hmem
  rw [hmem] at hfigure
  cases hfigure

/-- The figure of an import, with no document next to it. -/
theorem imported_figure_served :
    ServesFigures id ([AssetOp.figure {} "hr" "exam-001" diagramId diagram].foldl
      (Shelf.after examWiring) ⟨bareWorld, []⟩) "hr" reader := by
  have hlog : ([AssetOp.figure {} "hr" "exam-001" diagramId diagram].foldl
      (Shelf.after examWiring) ⟨bareWorld, []⟩).log =
      [⟨.figure, figureCall "hr" "exam-001" diagramId diagram,
        "s3://domainrag/hr/exam-001/assets/0a1b2c3d4e5f.png"⟩] := by
    decide +kernel
  refine (serves_figures_iff examWiring (by decide) (by decide) id bareWorld (fun _ => rfl) _ "hr"
    (by decide) reader rfl).mpr ⟨?_, ?_, ?_⟩
  · intro key e hwriter _
    have hmem := List.mem_of_find?_eq_some hwriter
    rw [hlog, List.mem_singleton] at hmem
    rw [hmem]
    exact ⟨rfl, rfl⟩
  · intro e he _ _
    rw [hlog, List.mem_singleton] at he
    rw [he]
    refine ⟨by decide +kernel, by decide +kernel, ?_⟩
    rw [getLast?_key_figureCall]
    rintro _ ⟨⟩
    decide
  · intro e he _ _ e' hwriter
    have hmem := List.mem_of_find?_eq_some hwriter
    rw [hlog, List.mem_singleton] at he hmem
    rw [he, hmem]

end Exam

end DomainRag.Storage
