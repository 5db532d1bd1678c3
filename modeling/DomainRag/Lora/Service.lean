import DomainRag.Lib.Pairs
import DomainRag.Storage.Assets
import Mathlib.Data.List.Chain

/-! # LoRA adapters

An adapter has a row in the registry, where its id is unique over all tenants, and its weights are
kept as a secret under a key that is made from the tenant, the id and the version. An upload
stores the secret first, and removes it again when the registry refuses the row.
-/

namespace DomainRag.Lora

open Program Auth Storage

/-- A store of secrets: where a key is stored, the reference that is answered for it, and where a
key or a reference is looked up. -/
structure KeyHub where
  slot : String → String
  ref : String → String
  lookup : String → String
  lookup_ref : ∀ key, lookup (ref key) = slot key
  lookup_key : ∀ key, "lora/".toList <+: key.toList → lookup key = slot key

section LocalSecretStore

def withoutSlash (c : Char) : Char := if c = '/' ∨ c = '\\' then '_' else c

def withoutDots : List Char → List Char
  | '.' :: '.' :: cs => '_' :: withoutDots cs
  | c :: cs => c :: withoutDots cs
  | [] => []

def isSafe (c : Char) : Bool := c.isAlphanum || c = '.' || c = '_' || c = '-'

def safeChar (c : Char) : Char := if isSafe c then c else '_'

def safeKey (key : String) : String :=
  String.ofList ((withoutDots (key.toList.map withoutSlash)).map safeChar)

def stripRefPrefix (key : String) : String :=
  if "local://".toList.isPrefixOf key.toList then String.ofList (key.toList.drop 8) else key

def Dotless (cs : List Char) : Prop := cs.IsChain fun a b => a = '.' → b ≠ '.'

theorem head?_withoutDots {cs : List Char} (h : (withoutDots cs).head? = some '.') :
    cs.head? = some '.' := by
  fun_cases withoutDots cs with
  | case1 cs => exact rfl
  | case2 c cs hne =>
    rw [withoutDots] at h
    · exact h
    · exact hne
  | case3 => cases h

theorem dotless_withoutDots (cs : List Char) : Dotless (withoutDots cs) := by
  fun_induction withoutDots cs with
  | case1 cs ih => exact List.isChain_cons.mpr ⟨fun _ _ h => absurd h (by decide), ih⟩
  | case2 c cs hne ih =>
    refine List.isChain_cons.mpr ⟨?_, ih⟩
    rintro b hb rfl rfl
    have hhead := head?_withoutDots hb
    cases cs with
    | nil => cases hhead
    | cons d ds =>
      cases hhead
      exact hne ds rfl rfl
  | case3 => exact List.isChain_nil

theorem withoutDots_of_dotless {cs : List Char} (h : Dotless cs) : withoutDots cs = cs := by
  fun_induction withoutDots cs with
  | case1 cs ih => exact absurd rfl ((List.isChain_cons.mp h).1 '.' rfl rfl)
  | case2 c cs hne ih => rw [ih (List.isChain_cons.mp h).2]
  | case3 => rfl

theorem isSafe_safeChar (c : Char) : isSafe (safeChar c) = true := by
  unfold safeChar
  split
  · assumption
  · decide

theorem dot_of_safeChar {c : Char} (h : safeChar c = '.') : c = '.' := by
  unfold safeChar at h
  split at h
  · exact h
  · cases h

theorem withoutSlash_of_isSafe {c : Char} (h : isSafe c = true) : withoutSlash c = c := by
  rw [withoutSlash, if_neg]
  rintro (rfl | rfl) <;> cases h

/-- A key that was made safe is safe already. -/
theorem safeKey_safeKey (key : String) : safeKey (safeKey key) = safeKey key := by
  have hdotless : Dotless ((withoutDots (key.toList.map withoutSlash)).map safeChar) :=
    List.isChain_map_of_isChain _ (fun _ _ h ha hb => h (dot_of_safeChar ha) (dot_of_safeChar hb))
      (dotless_withoutDots _)
  have hsafe : ∀ c ∈ (withoutDots (key.toList.map withoutSlash)).map safeChar, isSafe c = true := by
    intro c hc
    obtain ⟨d, -, rfl⟩ := List.mem_map.mp hc
    exact isSafe_safeChar d
  unfold safeKey
  generalize (withoutDots (key.toList.map withoutSlash)).map safeChar = cs at hdotless hsafe ⊢
  have hslash : cs.map withoutSlash = cs :=
    (List.map_congr_left fun c hc => withoutSlash_of_isSafe (hsafe c hc)).trans (List.map_id cs)
  have hchar : cs.map safeChar = cs :=
    (List.map_congr_left fun c hc => if_pos (hsafe c hc)).trans (List.map_id cs)
  rw [String.toList_ofList, hslash, withoutDots_of_dotless hdotless, hchar]

theorem stripRefPrefix_ref (key : String) : stripRefPrefix ("local://" ++ key) = key := by
  rw [stripRefPrefix, String.toList_append, if_pos (by simp)]
  simp

theorem stripRefPrefix_of_lora {key : String} (h : "lora/".toList <+: key.toList) :
    stripRefPrefix key = key := by
  rw [stripRefPrefix, if_neg]
  rw [List.isPrefixOf_iff_prefix]
  intro hlocal
  obtain hpre | hpre := List.prefix_or_prefix_of_prefix h hlocal
  · exact absurd hpre (by decide)
  · exact absurd hpre (by decide)

/-- The store in the file system: a secret lies in the file of its safe key. -/
def localSecretStore : KeyHub where
  slot := safeKey
  ref key := "local://" ++ safeKey key
  lookup key := safeKey (stripRefPrefix key)
  lookup_ref key := by rw [stripRefPrefix_ref, safeKey_safeKey]
  lookup_key key h := by
    rw [stripRefPrefix_of_lora h]

end LocalSecretStore

inductive AdapterStatus where
  | registered
  | active
  | retired
  deriving DecidableEq, Repr

structure AdapterRecord where
  adapterId : String
  domainId : String
  version : Value := .null
  baseModel : Value := .null
  keyhubSecretRef : Option String := none
  status : AdapterStatus := .registered
  trainingMetadata : List (Value × Value) := []
  registeredAt : Option Nat := none
  activatedAt : Option Nat := none
  retiredAt : Option Nat := none

abbrev LoRARegistry := Dict String AdapterRecord

structure Vault where
  registry : LoRARegistry
  secrets : Dict String Bytes

/-- A registry that fails does so before it has written, or after. -/
inductive RegistryFault where
  | before (e : Exc)
  | after (e : Exc)

/-- What the services raise during one request, and its time. -/
structure Host where
  putFault : Option Exc := none
  getFault : Option Exc := none
  deleteFault : Option Exc := none
  registryFault : Option RegistryFault := none
  now : Nat := 0

/-- The server of the models, where there is one. -/
structure Vllm where
  writeFault : Option Exc := none
  loadFault : Option Exc := none

abbrev VaultTask := Program AuthError Vault

namespace LoRARegistry

def get (registry : LoRARegistry) (domainId adapterId : String) : Option AdapterRecord :=
  (registry.get? adapterId).filter fun rec => rec.domainId = domainId

def conflictError (adapterId : String) : Exc :=
  ⟨"LoRAConflictError", s!"adapter_id already exists: {adapterId}"⟩

def upload (registry : LoRARegistry) (record : AdapterRecord) (now : Nat) :
    Except Exc (AdapterRecord × LoRARegistry) :=
  if record.adapterId ∈ registry.keys then .error (conflictError record.adapterId)
  else
    let rec' := { record with
      status := .registered, registeredAt := some now, activatedAt := none, retiredAt := none }
    .ok (rec', registry.set record.adapterId rec')

def activated (record : AdapterRecord) (now : Nat) : AdapterRecord :=
  if record.status = .active then record
  else { record with status := .active, activatedAt := some now }

def retired (record : AdapterRecord) (now : Nat) : AdapterRecord :=
  if record.status = .retired then record
  else { record with status := .retired, retiredAt := some now }

end LoRARegistry

def adapterNotFound (adapterId : String) : AuthError :=
  .http 404 [("error", "adapter_not_found"), ("adapter_id", adapterId)]

def writing (fault : Option RegistryFault) (x : Except Exc (AdapterRecord × LoRARegistry)) :
    Program Exc Vault AdapterRecord := do
  match fault with
  | some (.before e) => throw e
  | _ =>
    let (record, registry) ← Program.ofExcept x
    modify fun v => { v with registry := registry }
    match fault with
    | some (.after e) => throw e
    | _ => return record

structure UploadRequest where
  domainId : String
  user : UserContext
  weights : Bytes
  filename : Value
  metadata : Dict String Value

namespace UploadRequest

variable (request : UploadRequest)

def field (key : String) : Value := (request.metadata.get? key).getD .null

def adapterId : Except AuthError String :=
  match request.field "adapter_id" with
  | .str id => if id = "" then .error (.http 422 [("error", "adapter_id_missing")]) else .ok id
  | _ => .error (.http 422 [("error", "adapter_id_missing")])

def trainingMetadata : Except Exc (List (Value × Value)) := do
  let pairs ← dictOf ((request.field "training_metadata").orElse (.dict []))
  return setDefault (.str "filename") request.filename
    (setDefault (.str "weights_size_bytes") (.int request.weights.length) pairs)

end UploadRequest

/-- The key of the weights; `repr` is the host's text of a value that is no string. -/
def secretKey (repr : Value → String) (domainId adapterId : String) (version : Value) : String :=
  if version.truthy then s!"lora/{domainId}/{adapterId}/{version.text repr}"
  else s!"lora/{domainId}/{adapterId}"

def AdapterRecord.key (repr : Value → String) (record : AdapterRecord) : String :=
  secretKey repr record.domainId record.adapterId record.version

section Endpoints

variable (hub : KeyHub) (repr : Value → String) (host : Host)

def putSecret (key : String) (value : Bytes) : Program Exc Vault String :=
  Program.failing host.putFault do
    modify fun v => { v with secrets := v.secrets.set (hub.slot key) value }
    return hub.ref key

def deleteSecret (key : String) : Program Exc Vault Unit :=
  Program.failing host.deleteFault
    (modify fun v => { v with secrets := v.secrets.erase (hub.lookup key) })

/-- The weights are stored before the registry is asked. Whatever it raises, they are removed. -/
def uploadLoraAdapter (request : UploadRequest) : VaultTask AdapterRecord := do
  Program.ofExcept (ensureTenantMatch request.domainId request.user)
  let adapterId ← Program.ofExcept request.adapterId
  let training ← Program.ofExcept (request.trainingMetadata.mapError .raised)
  let version := request.field "version"
  let key := secretKey repr request.domainId adapterId version
  let ref ← Program.catching (putSecret hub host key request.weights) fun e =>
    throw (.http 500 [("error", "keyhub_put_failed"), ("message", e.message)])
  let record : AdapterRecord :=
    { adapterId := adapterId, domainId := request.domainId, version := version
      baseModel := request.field "base_model", keyhubSecretRef := some ref
      trainingMetadata := training }
  let v ← get
  Program.catching (writing host.registryFault (v.registry.upload record host.now)) fun e => do
    Program.catching (deleteSecret hub host key) fun _ => return
    if e.typeName = "LoRAConflictError" then
      throw (.http 409 [("error", "adapter_id_exists"), ("adapter_id", adapterId)])
    else throw (.raised e)

/-- The weights are fetched and given to the server, where there is one, before the adapter
becomes active. -/
def activateLoraAdapter (vllm : Option Vllm) (domainId : String) (user : UserContext)
    (adapterId : String) : VaultTask AdapterRecord := do
  Program.ofExcept (ensureTenantMatch domainId user)
  let v ← get
  match v.registry.get domainId adapterId with
  | none => throw (adapterNotFound adapterId)
  | some record =>
    if record.status = .retired then
      throw (.http 400 [("error", "invalid_transition"), ("from", "retired"), ("to", "active")])
    match vllm with
    | none => pure ()
    | some server =>
      let failed (message : String) : AuthError :=
        .http 502 [("error", "lora_orchestration_failed"), ("message", message)]
      match record.keyhubSecretRef with
      | none => throw (failed s!"adapter {adapterId}: keyhub_secret_ref missing")
      | some ref =>
        if ref = "" then throw (failed s!"adapter {adapterId}: keyhub_secret_ref missing")
        Program.catching (Program.failing host.getFault (return)) fun e : Exc =>
          throw (failed s!"keyhub fetch failed for {ref}: {e.message}")
        if (v.secrets.get? (hub.lookup ref)).isNone then
          throw (failed s!"keyhub fetch failed for {ref}: '{ref}'")
        Program.failing (server.writeFault.map .raised) (return)
        Program.catching (Program.failing server.loadFault (return)) fun e : Exc =>
          throw (failed s!"vllm load failed for {adapterId}: {e.message}")
    let record' := LoRARegistry.activated record host.now
    Program.catching
      (writing host.registryFault (.ok (record', v.registry.set adapterId record'))) fun e =>
        throw (.raised e)

/-- The server's answer does not matter. -/
def retireLoraAdapter (domainId : String) (user : UserContext) (adapterId : String) :
    VaultTask AdapterRecord := do
  Program.ofExcept (ensureTenantMatch domainId user)
  let v ← get
  match v.registry.get domainId adapterId with
  | none => throw (adapterNotFound adapterId)
  | some record =>
    let record' := LoRARegistry.retired record host.now
    Program.catching
      (writing host.registryFault (.ok (record', v.registry.set adapterId record'))) fun e =>
        throw (.raised e)

/-- The row goes; the secret stays. -/
def deleteLoraAdapter (domainId : String) (user : UserContext) (adapterId : String) :
    VaultTask Unit := do
  Program.ofExcept (ensureTenantMatch domainId user)
  let v ← get
  match v.registry.get domainId adapterId with
  | none => throw (adapterNotFound adapterId)
  | some record =>
    if record.status = .active then
      throw (.http 409 [("error", "adapter_active_cannot_delete"), ("adapter_id", adapterId)])
    let _ ← Program.catching
      (writing host.registryFault (.ok (record, v.registry.erase adapterId))) fun e =>
        throw (.raised e)

end Endpoints

end DomainRag.Lora
