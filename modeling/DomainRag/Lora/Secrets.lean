import DomainRag.Lora.Service
import Mathlib.Data.Set.Function

/-! # The secret store in the file system

A secret lies in two files under the safe name of its key, its bytes and what is known about them.
The safe name forgets the characters that a path may not have, and whoever reads or deletes may
write the reference of a secret in the place of its key. The store is a map of its keys as long as
neither of the two confuses them. To the endpoints it is the vault in which a secret lies under the
name of its file.
-/

namespace DomainRag.Lora

open Storage

/-- A symmetric cipher; what it makes of a text depends on the time and on chance as well. -/
structure Fernet where
  encrypt : Nat → Bytes → Bytes
  decrypt : Bytes → Except Exc Bytes
  decrypt_encrypt : ∀ nonce value, decrypt (encrypt nonce value) = .ok value

structure SecretMetadata where
  createdAt : String
  encrypted : Bool
  originalKey : String
  metadata : List (String × Value)

/-- The `.bin` and the `.meta.json` files, by their names without the suffix. -/
structure SecretFiles where
  blobs : Dict String Bytes := .empty
  sidecars : Dict String SecretMetadata := .empty

structure LocalSecretStore where
  refPrefix : String := "local"
  fernet : Option Fernet := none

structure PutSecret where
  key : String
  value : Bytes
  metadata : List (String × Value) := []
  nonce : Nat := 0
  now : String := ""

/-- The name of a key's files; an empty key has none. -/
def fileName (key : String) : Except Exc String :=
  if key = "" then .error ⟨"ValueError", "empty_key"⟩ else .ok (safeKey key)

def secretNotFound (key : String) : Exc := ⟨"SecretNotFoundError", s!"'{key}'"⟩

namespace LocalSecretStore

variable (store : LocalSecretStore) (files : SecretFiles)

def fullPrefix : String := store.refPrefix ++ "://"

def stripRefPrefix (key : String) : String :=
  if store.fullPrefix.toList.isPrefixOf key.toList then
    String.ofList (key.toList.drop store.fullPrefix.toList.length)
  else key

def putSecret (call : PutSecret) : Except Exc (String × SecretFiles) := do
  let payload := match store.fernet with
    | some fernet => fernet.encrypt call.nonce call.value
    | none => call.value
  let name ← fileName call.key
  let sidecar : SecretMetadata := ⟨call.now, store.fernet.isSome, call.key, call.metadata⟩
  return (store.fullPrefix ++ name, ⟨files.blobs.set name payload, files.sidecars.set name sidecar⟩)

/-- What is read from the files of a name. -/
def read (name key : String) : Except Exc Bytes :=
  match files.blobs.get? name with
  | none => .error (secretNotFound key)
  | some blob =>
    match store.fernet with
    | none => .ok blob
    | some fernet =>
      if (files.sidecars.get? name).any SecretMetadata.encrypted then fernet.decrypt blob
      else .ok blob

def getSecret (key : String) : Except Exc Bytes := do
  store.read files (← fileName (store.stripRefPrefix key)) key

def deleteSecret (key : String) : Except Exc SecretFiles := do
  let name ← fileName (store.stripRefPrefix key)
  return ⟨files.blobs.erase name, files.sidecars.erase name⟩

end LocalSecretStore

inductive SecretOp where
  | put (call : PutSecret)
  | delete (key : String)

def SecretOp.key : SecretOp → String
  | put call => call.key
  | delete key => key

/-- The files, and the reference that the last put of each key has returned. -/
structure SecretSession where
  files : SecretFiles := {}
  refs : String → Option String := fun _ => none

namespace LocalSecretStore

variable (store : LocalSecretStore)

def step (s : SecretSession) : SecretOp → SecretSession
  | .put call =>
    match store.putSecret s.files call with
    | .ok (ref, files) => ⟨files, Function.update s.refs call.key (some ref)⟩
    | .error _ => s
  | .delete key =>
    match store.deleteSecret s.files key with
    | .ok files => { s with files := files }
    | .error _ => s

def run (ops : List SecretOp) : SecretSession := ops.foldl store.step {}

end LocalSecretStore

/-- What a store of secrets is for: each key has the bytes it was last put with. -/
abbrev SecretMap := String → Option Bytes

namespace SecretMap

def step (m : SecretMap) : SecretOp → SecretMap
  | .put call => Function.update m call.key (some call.value)
  | .delete key => Function.update m key none

def run (ops : List SecretOp) : SecretMap := ops.foldl step fun _ => none

end SecretMap

/-- After every sequence of operations on the keys, each key and its reference are answered with
what the map of the keys has. -/
def FrameLaw (store : LocalSecretStore) (keys : Set String) : Prop :=
  ∀ ops : List SecretOp, (∀ op ∈ ops, op.key ∈ keys) → ∀ key ∈ keys,
    (store.getSecret (store.run ops).files key).toOption = SecretMap.run ops key ∧
    ∀ ref, (store.run ops).refs key = some ref →
      (store.getSecret (store.run ops).files ref).toOption = SecretMap.run ops key

section Names

theorem withoutDots_append {c : Char} (hc : c ≠ '.') (as bs : List Char) :
    withoutDots (as ++ c :: bs) = withoutDots as ++ c :: withoutDots bs := by
  have hhead : ∀ bs, withoutDots (c :: bs) = c :: withoutDots bs := by
    intro bs
    rw [withoutDots]
    rintro _ rfl
    exact absurd rfl hc
  fun_induction withoutDots as with
  | case1 as ih => exact congrArg ('_' :: ·) ih
  | case2 a as hne ih =>
    rw [List.cons_append, List.cons_append, ← ih, withoutDots]
    intro ds ha hds
    cases as with
    | nil => exact hc (List.cons.inj hds).1
    | cons b as => exact hne as ha (congrArg (· :: as) (List.cons.inj hds).1)
  | case3 => exact hhead bs

theorem withoutDots_ne_nil {cs : List Char} (h : cs ≠ []) : withoutDots cs ≠ [] := by
  fun_cases withoutDots cs with
  | case1 cs => exact List.cons_ne_nil _ _
  | case2 c cs hne => exact List.cons_ne_nil _ _
  | case3 => exact absurd rfl h

theorem safeKey_ne_empty {key : String} (h : key ≠ "") : safeKey key ≠ "" := by
  intro hsafe
  have hchars : key.toList.map withoutSlash ≠ [] := fun hnil =>
    h (String.toList_inj.mp (List.map_eq_nil_iff.mp hnil))
  have hnil := congrArg String.toList hsafe
  rw [safeKey, String.toList_ofList] at hnil
  exact withoutDots_ne_nil hchars (List.map_eq_nil_iff.mp hnil)

theorem fileName_of_ne {key : String} (h : key ≠ "") : fileName key = .ok (safeKey key) := if_neg h

variable {store : LocalSecretStore} {key : String}

theorem stripRefPrefix_of_not_prefix (h : ¬ store.fullPrefix.toList <+: key.toList) :
    store.stripRefPrefix key = key := by
  rw [LocalSecretStore.stripRefPrefix, if_neg]
  rwa [List.isPrefixOf_iff_prefix]

theorem stripRefPrefix_append (key : String) :
    store.stripRefPrefix (store.fullPrefix ++ key) = key := by
  rw [LocalSecretStore.stripRefPrefix, String.toList_append, if_pos, List.drop_left,
    String.ofList_toList]
  exact List.isPrefixOf_iff_prefix.mpr (List.prefix_append _ _)

/-- The name of a key with the prefix of the references is longer than that of what follows. -/
theorem safeKey_append_ne (key : String) : safeKey (store.fullPrefix ++ key) ≠ safeKey key := by
  intro heq
  have hchars : (store.fullPrefix ++ key).toList.map withoutSlash =
      (store.refPrefix.toList ++ [':', '/']).map withoutSlash ++
        '_' :: key.toList.map withoutSlash := by
    simp [LocalSecretStore.fullPrefix, withoutSlash]
  have hlist := congrArg String.toList heq
  rw [safeKey, safeKey, String.toList_ofList, String.toList_ofList, hchars,
    withoutDots_append (by decide)] at hlist
  have hlength := congrArg List.length hlist
  simp only [List.length_map, List.length_append, List.length_cons] at hlength
  omega

end Names

section Law

variable {store : LocalSecretStore} {files files' : SecretFiles} {call : PutSecret} {keys : Set String}
  {key ref : String}

theorem getSecret_of_key (hkey : key ≠ "") (h : ¬ store.fullPrefix.toList <+: key.toList) :
    store.getSecret files key = store.read files (safeKey key) key := by
  rw [LocalSecretStore.getSecret, stripRefPrefix_of_not_prefix h, fileName_of_ne hkey]
  rfl

theorem getSecret_of_ref (hkey : key ≠ "") :
    store.getSecret files (store.fullPrefix ++ safeKey key) =
      store.read files (safeKey key) (store.fullPrefix ++ safeKey key) := by
  rw [LocalSecretStore.getSecret, stripRefPrefix_append, fileName_of_ne (safeKey_ne_empty hkey),
    safeKey_safeKey]
  rfl

theorem exists_putSecret (store : LocalSecretStore) (files : SecretFiles) (h : call.key ≠ "") :
    ∃ files', store.putSecret files call = .ok (store.fullPrefix ++ safeKey call.key, files') := by
  rw [LocalSecretStore.putSecret, fileName_of_ne h]
  exact ⟨_, rfl⟩

/-- A put is read back at its own name and changes no other. -/
theorem read_putSecret (h : store.putSecret files call = .ok (ref, files')) (name asked : String) :
    store.read files' name asked =
      if name = safeKey call.key then .ok call.value else store.read files name asked := by
  have hkey : call.key ≠ "" := by
    intro hempty
    rw [LocalSecretStore.putSecret, hempty, fileName, if_pos rfl] at h
    cases h
  rw [LocalSecretStore.putSecret, fileName_of_ne hkey] at h
  cases h
  rw [LocalSecretStore.read, LocalSecretStore.read]
  simp only [Dict.get?_set]
  by_cases hname : name = safeKey call.key
  · simp only [hname, if_true]
    cases store.fernet with
    | none => rfl
    | some fernet => exact fernet.decrypt_encrypt call.nonce call.value
  · simp only [hname, if_false]

theorem read_erase (name name' asked : String) :
    store.read ⟨files.blobs.erase name, files.sidecars.erase name⟩ name' asked =
      if name' = name then .error (secretNotFound asked) else store.read files name' asked := by
  rw [LocalSecretStore.read, LocalSecretStore.read]
  simp only [Dict.get?_erase]
  by_cases hname : name' = name
  · simp only [hname, if_true]
  · simp only [hname, if_false]

/-- The keys have names of their own, and none of them looks like a reference. -/
structure Separate (store : LocalSecretStore) (keys : Set String) : Prop where
  injOn : keys.InjOn safeKey
  notRef : ∀ key ∈ keys, ¬ store.fullPrefix.toList <+: key.toList

/-- The files of each key hold what the map has for it, and references are those of the keys. -/
structure Agrees (store : LocalSecretStore) (keys : Set String) (s : SecretSession) (m : SecretMap) :
    Prop where
  held : ∀ key ∈ keys, ∀ asked, (store.read s.files (safeKey key) asked).toOption = m key
  refs : ∀ key ref, s.refs key = some ref → ref = store.fullPrefix ++ safeKey key

theorem Agrees.step {s : SecretSession} {m : SecretMap} {op : SecretOp} (h : Agrees store keys s m)
    (hempty : "" ∉ keys) (hkeys : Separate store keys) (hop : op.key ∈ keys) :
    Agrees store keys (store.step s op) (m.step op) := by
  have hother : ∀ key ∈ keys, key ≠ op.key → safeKey key ≠ safeKey op.key :=
    fun key hkey hne heq => hne (hkeys.injOn hkey hop heq)
  have hne : op.key ≠ "" := fun heq => hempty (heq ▸ hop)
  cases op with
  | put call =>
    obtain ⟨files, hput⟩ := exists_putSecret store s.files hne
    have hstep : store.step s (.put call) = ⟨files, Function.update s.refs call.key
        (some (store.fullPrefix ++ safeKey call.key))⟩ := by
      rw [LocalSecretStore.step, hput]
    rw [hstep]
    constructor
    · intro key hkey asked
      rw [read_putSecret hput, SecretMap.step]
      by_cases heq : key = call.key
      · rw [heq, if_pos rfl, Function.update_self]
        rfl
      · have hname : safeKey key ≠ safeKey call.key := hother key hkey heq
        rw [if_neg hname, Function.update_of_ne heq]
        exact h.held key hkey asked
    · intro key ref href
      simp only at href
      by_cases heq : key = call.key
      · rw [heq, Function.update_self] at href
        rw [heq]
        exact (Option.some.inj href).symm
      · rw [Function.update_of_ne heq] at href
        exact h.refs key ref href
  | delete key =>
    have hname : fileName key = .ok (safeKey key) := fileName_of_ne hne
    rw [LocalSecretStore.step, LocalSecretStore.deleteSecret,
      stripRefPrefix_of_not_prefix (hkeys.notRef key hop), hname]
    constructor
    · intro key' hkey' asked
      refine (congrArg Except.toOption (read_erase (safeKey key) (safeKey key') asked)).trans ?_
      rw [SecretMap.step]
      by_cases heq : key' = key
      · rw [heq, if_pos rfl, Function.update_self]
        rfl
      · have hname : safeKey key' ≠ safeKey key := hother key' hkey' heq
        rw [if_neg hname, Function.update_of_ne heq]
        exact h.held key' hkey' asked
    · exact h.refs

theorem Agrees.run {s : SecretSession} {m : SecretMap} {ops : List SecretOp}
    (h : Agrees store keys s m) (hempty : "" ∉ keys) (hkeys : Separate store keys)
    (hops : ∀ op ∈ ops, op.key ∈ keys) :
    Agrees store keys (ops.foldl store.step s) (ops.foldl SecretMap.step m) := by
  induction ops generalizing s m with
  | nil => exact h
  | cons op ops ih =>
    exact ih (h.step hempty hkeys (hops op List.mem_cons_self))
      fun op' hop' => hops op' (List.mem_cons_of_mem op hop')

theorem frameLaw_of_separate (hempty : "" ∉ keys) (hkeys : Separate store keys) :
    FrameLaw store keys := by
  intro ops hops key hkey
  have hagrees : Agrees store keys (store.run ops) (SecretMap.run ops) :=
    Agrees.run ⟨fun _ _ _ => rfl, nofun⟩ hempty hkeys hops
  have hne : key ≠ "" := fun heq => hempty (heq ▸ hkey)
  constructor
  · rw [getSecret_of_key hne (hkeys.notRef key hkey)]
    exact hagrees.held key hkey key
  · intro ref href
    rw [hagrees.refs key ref href, getSecret_of_ref hne]
    exact hagrees.held key hkey _

/-- The store is a map of its keys exactly as long as they are separate. -/
theorem frameLaw_iff (hempty : "" ∉ keys) : FrameLaw store keys ↔ Separate store keys := by
  refine ⟨fun h => ?_, frameLaw_of_separate hempty⟩
  have hput : ∀ (key : String) (value : Bytes), key ∈ keys → ∃ ref files,
      store.putSecret {} { key := key, value := value } = .ok (ref, files) ∧
        (store.run [.put { key := key, value := value }]).files = files := by
    intro key value hkey
    obtain ⟨files, hfiles⟩ := @exists_putSecret { key := key, value := value } store {}
      fun heq => hempty (heq ▸ hkey)
    refine ⟨_, files, hfiles, ?_⟩
    rw [LocalSecretStore.run, List.foldl_cons, List.foldl_nil, LocalSecretStore.step, hfiles]
  have hnotRef : ∀ key ∈ keys, ¬ store.fullPrefix.toList <+: key.toList := by
    rintro key hkey ⟨rest, hrest⟩
    obtain ⟨ref, files, hfiles, hrun⟩ := hput key [0] hkey
    have hkey' : key = store.fullPrefix ++ String.ofList rest := by
      rw [← String.toList_inj, String.toList_append, String.toList_ofList, hrest]
    have hlaw := (h [.put { key := key, value := [0] }] (by simpa [SecretOp.key]) key hkey).1
    rw [hrun, SecretMap.run, List.foldl_cons, List.foldl_nil, SecretMap.step,
      Function.update_self, LocalSecretStore.getSecret, hkey', stripRefPrefix_append] at hlaw
    by_cases hnil : String.ofList rest = ""
    · rw [hnil] at hlaw
      cases hlaw
    · rw [fileName_of_ne hnil] at hlaw
      have hread := read_putSecret hfiles (safeKey (String.ofList rest)) key
      rw [if_neg fun heq => safeKey_append_ne _ (hkey' ▸ heq.symm)] at hread
      rw [← hkey'] at hlaw
      cases (congrArg Except.toOption hread).symm.trans hlaw
  refine ⟨fun key hkey key' hkey' heq => ?_, hnotRef⟩
  by_contra hne
  obtain ⟨ref, files, hfiles, hrun⟩ := hput key [0] hkey
  have hne' : key' ≠ "" := fun heq => hempty (heq ▸ hkey')
  obtain ⟨files', hfiles'⟩ := @exists_putSecret { key := key', value := [1] } store files hne'
  have hlaw := (h [.put { key := key, value := [0] }, .put { key := key', value := [1] }]
    (by simp [SecretOp.key, hkey, hkey']) key hkey).1
  have hstep : (store.run [.put { key := key, value := [0] }, .put { key := key', value := [1] }]).files
      = files' := by
    change (store.step (store.run [.put { key := key, value := [0] }])
      (.put { key := key', value := [1] })).files = files'
    rw [LocalSecretStore.step, hrun, hfiles']
  have hmap : SecretMap.run
      [.put { key := key, value := [0] }, .put { key := key', value := [1] }] key = some [0] := by
    change Function.update (Function.update (fun _ => none) key (some [0])) key' (some [1]) key = _
    rw [Function.update_of_ne hne, Function.update_self]
  rw [hstep, hmap, getSecret_of_key (fun heq => hempty (heq ▸ hkey)) (hnotRef key hkey),
    read_putSecret hfiles', if_pos heq] at hlaw
  cases hlaw

/-- Two keys share their files. -/
theorem keys_share_files : ¬ FrameLaw {} {key | key ≠ ""} := by
  intro h
  have hempty : "" ∉ {key : String | key ≠ ""} := fun hempty => hempty rfl
  have hkeys := ((frameLaw_iff hempty).mp h).injOn
  have hsame : safeKey "lora/hr" = safeKey "lora_hr" := by decide +kernel
  exact absurd (hkeys (by decide) (by decide) hsame) (by decide)

/-- A cipher that puts a version and the low bits of the time before the bytes that it flips. -/
def flipping : Fernet where
  encrypt nonce value := 128 :: UInt8.ofNat nonce :: value.map (~~~ ·)
  decrypt
    | 128 :: _ :: flipped => .ok (flipped.map (~~~ ·))
    | _ => .error ⟨"InvalidToken", ""⟩
  decrypt_encrypt nonce value := by
    have hback : (value.map (~~~ ·)).map (~~~ ·) = value := by
      rw [List.map_map]
      exact (List.map_congr_left fun b _ => UInt8.not_not).trans (List.map_id value)
    exact congrArg Except.ok hback

theorem separate_adapters (fernet : Option Fernet) :
    Separate { fernet := fernet } {"lora/hr/a1", "lora/hr/a2"} := by
  constructor
  · rintro key (rfl | rfl) key' (rfl | rfl) heq
    · rfl
    · exact absurd heq (by decide +kernel)
    · exact absurd heq (by decide +kernel)
    · rfl
  · rintro key (rfl | rfl)
    · exact show ¬ "local://".toList <+: "lora/hr/a1".toList by decide
    · exact show ¬ "local://".toList <+: "lora/hr/a2".toList by decide

/-- Keys of different adapters are kept apart, with and without a cipher. -/
theorem frameLaw_adapters : FrameLaw {} {"lora/hr/a1", "lora/hr/a2"} ∧
    FrameLaw { fernet := some flipping } {"lora/hr/a1", "lora/hr/a2"} := by
  have hempty : "" ∉ ({"lora/hr/a1", "lora/hr/a2"} : Set String) := by simp
  exact ⟨(frameLaw_iff hempty).mpr (separate_adapters none),
    (frameLaw_iff hempty).mpr (separate_adapters (some flipping))⟩

end Law

section Vault

variable {store : LocalSecretStore} {files files' : SecretFiles} {secrets : Dict String Bytes}

/-- Under each name the files hold the bytes that the vault has. -/
def Holds (store : LocalSecretStore) (files : SecretFiles) (secrets : Dict String Bytes) : Prop :=
  ∀ name asked, (store.read files name asked).toOption = secrets.get? name

/-- The vault after the endpoints have stored or deleted a secret. -/
def Vault.afterSecret (v : Vault) : SecretOp → Vault
  | .put call => (Lora.putSecret localSecretStore {} call.key call.value).final v
  | .delete key => (Lora.deleteSecret localSecretStore {} key).final v

theorem stripRefPrefix_local (hlocal : store.refPrefix = "local") (key : String) :
    store.stripRefPrefix key = Lora.stripRefPrefix key := by
  have hfull : store.fullPrefix = "local://" := by
    rw [LocalSecretStore.fullPrefix, hlocal]
    rfl
  rw [LocalSecretStore.stripRefPrefix, Lora.stripRefPrefix, hfull]
  rfl

theorem Holds.putSecret {call : PutSecret} {ref : String} (hlocal : store.refPrefix = "local")
    (h : Holds store files secrets) (hput : store.putSecret files call = .ok (ref, files')) :
    ref = localSecretStore.ref call.key ∧
      Holds store files' (secrets.set (localSecretStore.slot call.key) call.value) := by
  have hkey : call.key ≠ "" := by
    intro hempty
    rw [LocalSecretStore.putSecret, hempty, fileName, if_pos rfl] at hput
    cases hput
  obtain ⟨files'', hfiles⟩ := exists_putSecret store files hkey
  obtain ⟨hname, -⟩ := Prod.mk.inj (Except.ok.inj (hput.symm.trans hfiles))
  constructor
  · rw [hname, LocalSecretStore.fullPrefix, hlocal]
    rfl
  · intro name asked
    have hslot : localSecretStore.slot call.key = safeKey call.key := rfl
    rw [read_putSecret hput, Dict.get?_set, hslot]
    split
    · rfl
    · exact h name asked

theorem Holds.deleteSecret {key : String} (hlocal : store.refPrefix = "local")
    (h : Holds store files secrets) (hdelete : store.deleteSecret files key = .ok files') :
    Holds store files' (secrets.erase (localSecretStore.lookup key)) := by
  rw [LocalSecretStore.deleteSecret, stripRefPrefix_local hlocal] at hdelete
  obtain ⟨name, hname, hdelete⟩ := Except.bind_eq_ok_iff.mp hdelete
  cases hdelete
  have hsafe : name = localSecretStore.lookup key := by
    rw [fileName] at hname
    split at hname
    · cases hname
    · exact (Except.ok.inj hname).symm
  intro name' asked
  rw [read_erase, Dict.get?_erase, hsafe]
  split
  · rfl
  · exact h name' asked

/-- A key or a reference is answered with what the vault has for it. -/
theorem Holds.getSecret {key : String} (hlocal : store.refPrefix = "local")
    (h : Holds store files secrets) (hkey : store.stripRefPrefix key ≠ "") :
    (store.getSecret files key).toOption = secrets.get? (localSecretStore.lookup key) := by
  rw [LocalSecretStore.getSecret, fileName_of_ne hkey, stripRefPrefix_local hlocal]
  exact h _ key

/-- The store in the file system, with or without a cipher, does for the endpoints what the vault
does. -/
theorem holds_along_ops {s : SecretSession} {v : Vault} {ops : List SecretOp}
    (hlocal : store.refPrefix = "local") (hops : ∀ op ∈ ops, store.stripRefPrefix op.key ≠ "")
    (h : Holds store s.files v.secrets) :
    Holds store (ops.foldl store.step s).files (ops.foldl Vault.afterSecret v).secrets := by
  induction ops generalizing s v with
  | nil => exact h
  | cons op ops ih =>
    obtain ⟨hop, hops⟩ := List.forall_mem_cons.mp hops
    refine ih hops ?_
    cases op with
    | put call =>
      have hkey : call.key ≠ "" := by
        intro hempty
        rw [SecretOp.key, hempty, stripRefPrefix_local hlocal] at hop
        exact hop (by decide)
      obtain ⟨files', hput⟩ := exists_putSecret store s.files hkey
      rw [LocalSecretStore.step, hput]
      exact (h.putSecret hlocal hput).2
    | delete key =>
      have hkey : store.stripRefPrefix key ≠ "" := hop
      have hdelete : store.deleteSecret s.files key =
          .ok ⟨s.files.blobs.erase (safeKey (store.stripRefPrefix key)),
            s.files.sidecars.erase (safeKey (store.stripRefPrefix key))⟩ := by
        rw [LocalSecretStore.deleteSecret, fileName_of_ne hkey]
        rfl
      rw [LocalSecretStore.step, hdelete]
      exact h.deleteSecret hlocal hdelete

end Vault

end DomainRag.Lora
