import DomainRag.Lora.Service

/-! # Uploads of adapters that are rejected

A rejected upload removes the secret under the key that it has just written. Where a registered
adapter keeps its weights under that key, as it does when the same adapter is uploaded twice, its
weights are lost.
-/

namespace DomainRag.Lora

open Program Auth Storage

/-- The requests that change the registry or the secrets. -/
inductive Request where
  | upload (host : Host) (request : UploadRequest)
  | activate (host : Host) (vllm : Option Vllm) (domainId : String) (user : UserContext)
      (adapterId : String)
  | retire (host : Host) (domainId : String) (user : UserContext) (adapterId : String)
  | delete (host : Host) (domainId : String) (user : UserContext) (adapterId : String)

section Runs

variable (hub : KeyHub) (repr : Value → String)

def Vault.after (v : Vault) : Request → Vault
  | .upload host request => (uploadLoraAdapter hub repr host request).final v
  | .activate host vllm domainId user adapterId =>
    (activateLoraAdapter hub host vllm domainId user adapterId).final v
  | .retire host domainId user adapterId => (retireLoraAdapter host domainId user adapterId).final v
  | .delete host domainId user adapterId => (deleteLoraAdapter host domainId user adapterId).final v

def Vault.reached (requests : List Request) : Vault :=
  requests.foldl (Vault.after hub repr) ⟨.empty, .empty⟩

/-- A registered adapter is found under its id, and its reference is the one of its key. -/
def Keyed (registry : LoRARegistry) : Prop :=
  ∀ id record, registry.get? id = some record →
    record.adapterId = id ∧ record.keyhubSecretRef = some (hub.ref (record.key repr))

end Runs

section Invariant

variable {hub : KeyHub} {repr : Value → String} {host : Host} {v : Vault}

theorem Keyed.set {registry : LoRARegistry} {record : AdapterRecord} (h : Keyed hub repr registry)
    (hrecord : record.keyhubSecretRef = some (hub.ref (record.key repr))) :
    Keyed hub repr (registry.set record.adapterId record) := by
  intro id row hrow
  rw [Dict.get?_set] at hrow
  split at hrow
  · rename_i hid
    cases hrow
    exact ⟨hid.symm, hrecord⟩
  · exact h id row hrow

theorem Keyed.erase {registry : LoRARegistry} {adapterId : String} (h : Keyed hub repr registry) :
    Keyed hub repr (registry.erase adapterId) := by
  intro id row hrow
  rw [Dict.get?_erase] at hrow
  split at hrow
  · cases hrow
  · exact h id row hrow

theorem ensures_writing {fault : Option RegistryFault}
    {x : Except Exc (AdapterRecord × LoRARegistry)} :
    Ensures (writing fault x) v
      (fun record v' => ∃ registry, x = .ok (record, registry) ∧ v' = { v with registry := registry })
      fun e v' => (v' = v ∧ ∀ r e', x = .ok r → fault ≠ some (.after e')) ∨
        ∃ record registry, x = .ok (record, registry) ∧ fault = some (.after e) ∧
          v' = { v with registry := registry } := by
  cases fault with
  | none =>
    cases x with
    | error e => exact .inl ⟨rfl, nofun⟩
    | ok r => exact ⟨r.2, rfl, rfl⟩
  | some fault =>
    cases fault with
    | before e => exact .inl ⟨rfl, fun _ _ _ => nofun⟩
    | after e =>
      cases x with
      | error e' => exact .inl ⟨rfl, nofun⟩
      | ok r => exact .inr ⟨r.1, r.2, rfl, rfl, rfl⟩

/-- A program keeps the registry keyed on either way out. -/
def KeepsKeyed (hub : KeyHub) (repr : Value → String) {E A : Type} (x : Program E Vault A)
    (v : Vault) : Prop :=
  Ensures x v (fun _ v' => Keyed hub repr v'.registry) fun _ v' => Keyed hub repr v'.registry

theorem keepsKeyed_writing {fault : Option RegistryFault} {E : Type}
    {x : Except Exc (AdapterRecord × LoRARegistry)} {handler : Exc → Program E Vault AdapterRecord}
    (hv : Keyed hub repr v.registry)
    (hx : ∀ record registry, x = .ok (record, registry) → Keyed hub repr registry)
    (hhandler : ∀ e v', Keyed hub repr v'.registry → KeepsKeyed hub repr (handler e) v') :
    KeepsKeyed hub repr (Program.catching (writing fault x) handler) v := by
  refine ensures_catching.mpr (ensures_writing.mono ?_ ?_)
  · rintro record v' ⟨registry, hok, rfl⟩
    exact hx record registry hok
  · rintro e v' (⟨rfl, -⟩ | ⟨record, registry, hok, -, rfl⟩)
    · exact hhandler e v' hv
    · exact hhandler e _ (hx record registry hok)

theorem get_spec {registry : LoRARegistry} {domainId adapterId : String} {record : AdapterRecord}
    (h : registry.get domainId adapterId = some record) : registry.get? adapterId = some record :=
  (Option.filter_eq_some_iff.mp h).1

theorem keyed_replace {record record' : AdapterRecord} {domainId adapterId : String}
    (hv : Keyed hub repr v.registry) (hget : v.registry.get domainId adapterId = some record)
    (hid : record'.adapterId = record.adapterId)
    (hkey : record'.key repr = record.key repr)
    (href : record'.keyhubSecretRef = record.keyhubSecretRef) :
    Keyed hub repr (v.registry.set adapterId record') := by
  obtain ⟨hadapter, hrecord⟩ := hv adapterId record (get_spec hget)
  rw [← hadapter, ← hid]
  refine hv.set ?_
  rw [href, hkey, hrecord]

/-- The guard of an endpoint writes nothing. -/
theorem keepsKeyed_guarded {A : Type} {guard : Except AuthError Unit} {body : Vault → VaultTask A}
    (hv : Keyed hub repr v.registry) (hbody : KeepsKeyed hub repr (body v) v) :
    KeepsKeyed hub repr (Program.ofExcept guard >>= fun _ => get >>= body) v := by
  refine ensures_bind.mpr (ensures_ofExcept.mpr ⟨fun _ _ => ?_, fun _ _ => hv⟩)
  rw [ensures_bind, ensures_get]
  exact hbody

theorem keepsKeyed_retire {domainId adapterId : String} {user : UserContext}
    (hv : Keyed hub repr v.registry) :
    KeepsKeyed hub repr (retireLoraAdapter host domainId user adapterId) v := by
  apply keepsKeyed_guarded hv
  cases hget : v.registry.get domainId adapterId with
  | none => exact hv
  | some record =>
    refine keepsKeyed_writing hv ?_ fun _ _ h => h
    rintro _ _ ⟨⟩
    refine keyed_replace hv hget ?_ ?_ ?_ <;> unfold LoRARegistry.retired <;> split <;> rfl

theorem keepsKeyed_delete {domainId adapterId : String} {user : UserContext}
    (hv : Keyed hub repr v.registry) :
    KeepsKeyed hub repr (deleteLoraAdapter host domainId user adapterId) v := by
  apply keepsKeyed_guarded hv
  cases hget : v.registry.get domainId adapterId with
  | none => exact hv
  | some record =>
    refine ensures_ite.mpr ⟨fun _ => hv, fun _ => ?_⟩
    refine ensures_bind.mpr (keepsKeyed_writing hv ?_ fun _ _ h => h)
    rintro _ _ ⟨⟩
    exact hv.erase

theorem keepsKeyed_activate {vllm : Option Vllm} {domainId adapterId : String} {user : UserContext}
    (hv : Keyed hub repr v.registry) :
    KeepsKeyed hub repr (activateLoraAdapter hub host vllm domainId user adapterId) v := by
  apply keepsKeyed_guarded hv
  cases hget : v.registry.get domainId adapterId with
  | none => exact hv
  | some record =>
    have hwrite : KeepsKeyed hub repr (Program.catching
        (writing host.registryFault (.ok (LoRARegistry.activated record host.now,
          v.registry.set adapterId (LoRARegistry.activated record host.now)))) fun e =>
        (throw (.raised e) : VaultTask AdapterRecord)) v := by
      refine keepsKeyed_writing hv ?_ fun _ _ h => h
      rintro _ _ ⟨⟩
      refine keyed_replace hv hget ?_ ?_ ?_ <;> unfold LoRARegistry.activated <;> split <;> rfl
    refine ensures_ite.mpr ⟨fun _ => hv, fun _ => ?_⟩
    cases vllm with
    | none => exact hwrite
    | some server =>
      simp only []
      cases record.keyhubSecretRef with
      | none => exact hv
      | some ref =>
        refine ensures_ite.mpr ⟨fun _ => hv, fun _ => ?_⟩
        rw [ensures_bind, ensures_catching, ensures_failing]
        refine ⟨fun _ _ => hv, fun _ => ensures_ite.mpr ⟨fun _ => hv, fun _ => ?_⟩⟩
        rw [ensures_bind, ensures_failing]
        refine ⟨fun _ _ => hv, fun _ => ?_⟩
        rw [ensures_pure, ensures_bind, ensures_catching, ensures_failing]
        exact ⟨fun _ _ => hv, fun _ => hwrite⟩

theorem ensures_deleteSecret {key : String} :
    Ensures (Program.catching (deleteSecret hub host key) fun _ => (return : VaultTask Unit)) v
      (fun _ v' => v'.registry = v.registry ∧ v'.secrets =
        if host.deleteFault.isNone then v.secrets.erase (hub.lookup key) else v.secrets)
      fun _ _ => False := by
  rw [ensures_catching, deleteSecret, ensures_failing]
  refine ⟨fun e he => ?_, fun hnone => ?_⟩
  · refine ensures_pure.mpr ⟨rfl, ?_⟩
    rw [he]
    rfl
  · refine ensures_modify.mpr ⟨rfl, ?_⟩
    rw [hnone]
    rfl

/-- The checks before the weights are read. -/
structure UploadRequest.Checked (request : UploadRequest) (adapterId : String) : Prop where
  tenant : ensureTenantMatch request.domainId request.user = .ok ()
  adapterId : request.adapterId = .ok adapterId

def UploadRequest.key (request : UploadRequest) (repr : Value → String) (adapterId : String) :
    String :=
  secretKey repr request.domainId adapterId (request.field "version")

structure Row (hub : KeyHub) (repr : Value → String) (request : UploadRequest) (id : String)
    (record : AdapterRecord) : Prop where
  adapterId : record.adapterId = id
  key : record.key repr = request.key repr id
  ref : record.keyhubSecretRef = some (hub.ref (request.key repr id))

theorem upload_eq_ok {registry registry' : LoRARegistry} {record row : AdapterRecord} {now : Nat}
    (h : registry.upload record now = .ok (row, registry')) :
    record.adapterId ∉ registry.keys ∧ registry' = registry.set record.adapterId row ∧
      row.adapterId = record.adapterId ∧ (∀ repr, row.key repr = record.key repr) ∧
      row.keyhubSecretRef = record.keyhubSecretRef := by
  rw [LoRARegistry.upload] at h
  split at h
  · cases h
  · rename_i hnew
    cases h
    exact ⟨hnew, rfl, rfl, fun _ => rfl, rfl⟩

/-- The registry takes the row, and then fails all the same. -/
def Commits (host : Host) (v : Vault) (adapterId : String) : Prop :=
  (∃ e, host.registryFault = some (.after e)) ∧ adapterId ∉ v.registry.keys

/-- How an upload ends that raises after its checks. -/
inductive Rejected (hub : KeyHub) (repr : Value → String) (host : Host) (request : UploadRequest)
    (adapterId : String) (v v' : Vault) : Prop where
  | stopped (early : (∀ training, request.trainingMetadata ≠ .ok training) ∨ host.putFault ≠ none)
      (left : v' = v)
  | refused (training : List (Value × Value)) (read : request.trainingMetadata = .ok training)
      (put : host.putFault = none) (kept : ¬ Commits host v adapterId)
      (registry : v'.registry = v.registry)
      (secrets : v'.secrets =
        let stored := v.secrets.set (hub.slot (request.key repr adapterId)) request.weights
        if host.deleteFault.isNone then stored.erase (hub.lookup (request.key repr adapterId))
        else stored)
  | committed (training : List (Value × Value)) (read : request.trainingMetadata = .ok training)
      (put : host.putFault = none) (commits : Commits host v adapterId) (row : AdapterRecord)
      (isRow : Row hub repr request adapterId row)
      (registry : v'.registry = v.registry.set adapterId row)

theorem ensures_upload {request : UploadRequest} {adapterId : String}
    (hchecked : request.Checked adapterId) :
    Ensures (uploadLoraAdapter hub repr host request) v
      (fun _ v' => ∃ row, Row hub repr request adapterId row ∧
        v'.registry = v.registry.set adapterId row)
      fun _ => Rejected hub repr host request adapterId v := by
  rw [uploadLoraAdapter, ensures_bind, hchecked.tenant]
  refine ensures_pure.mpr ?_
  rw [ensures_bind, hchecked.adapterId]
  refine ensures_pure.mpr ?_
  rw [ensures_bind, ensures_ofExcept]
  cases hread : request.trainingMetadata with
  | error e =>
    refine ⟨fun _ h => (nomatch h), fun _ _ => .stopped (.inl ?_) rfl⟩
    rw [hread]
    exact fun _ h => nomatch h
  | ok training =>
    refine ⟨fun training' _ => ?_, fun _ h => (nomatch h)⟩
    rw [ensures_bind, ensures_catching, putSecret, ensures_failing]
    refine ⟨fun e he => .stopped (.inr (he ▸ Option.some_ne_none e)) rfl, fun hput => ?_⟩
    rw [ensures_bind, ensures_modify, ensures_pure, ensures_bind, ensures_get, ensures_catching]
    refine ensures_writing.mono ?_ ?_
    · rintro row v' ⟨registry, hok, rfl⟩
      obtain ⟨-, hset, hid, hkey, href⟩ := upload_eq_ok hok
      exact ⟨row, ⟨hid, hkey repr, href⟩, hset⟩
    · intro e v' hfailed
      rw [ensures_bind]
      refine ensures_deleteSecret.mono ?_ fun _ _ h => h.elim
      rintro _ v'' ⟨hregistry, hsecrets⟩
      have hend : Rejected hub repr host request adapterId v v'' := by
        obtain ⟨rfl, hfault⟩ | ⟨row, registry, hok, hfault, rfl⟩ := hfailed
        · refine .refused training hread hput ?_ hregistry hsecrets
          rintro ⟨⟨e', hafter⟩, hnew⟩
          exact hfault _ e' (if_neg hnew) hafter
        · obtain ⟨hnew, hset, hid, hkey, href⟩ := upload_eq_ok hok
          refine .committed training hread hput ⟨⟨e, hfault⟩, hnew⟩ row ⟨hid, hkey repr, href⟩ ?_
          exact hregistry.trans hset
      exact ensures_ite.mpr ⟨fun _ => hend, fun _ => hend⟩

theorem keepsKeyed_upload {request : UploadRequest} (hv : Keyed hub repr v.registry) :
    KeepsKeyed hub repr (uploadLoraAdapter hub repr host request) v := by
  have hrow : ∀ {adapterId row registry}, Row hub repr request adapterId row →
      registry = v.registry.set adapterId row → Keyed hub repr registry := by
    rintro adapterId row registry hisRow rfl
    rw [← hisRow.adapterId]
    refine hv.set ?_
    rw [hisRow.ref, hisRow.key]
  cases htenant : ensureTenantMatch request.domainId request.user with
  | error e =>
    rw [KeepsKeyed, uploadLoraAdapter, ensures_bind, htenant]
    exact hv
  | ok u =>
    cases hid : request.adapterId with
    | error e =>
      rw [KeepsKeyed, uploadLoraAdapter, ensures_bind, htenant]
      refine ensures_pure.mpr ?_
      rw [ensures_bind, hid]
      exact hv
    | ok adapterId =>
      refine (ensures_upload ⟨htenant, hid⟩).mono ?_ ?_
      · rintro _ v' ⟨row, hisRow, hregistry⟩
        exact hrow hisRow hregistry
      · intro _ v' hrejected
        cases hrejected with
        | stopped _ hleft => exact hleft.symm ▸ hv
        | refused _ _ _ _ hregistry _ => exact hregistry.symm ▸ hv
        | committed _ _ _ _ row hisRow hregistry => exact hrow hisRow hregistry

theorem keyed_reached (requests : List Request) :
    Keyed hub repr (Vault.reached hub repr requests).registry := by
  unfold Vault.reached
  refine Along.final (P := fun _ _ => True) (I := fun v : Vault => Keyed hub repr v.registry)
    (.of_forall requests fun _ _ _ => trivial) (fun _ _ h => nomatch h) ?_
  intro request _ v hv _
  cases request with
  | upload host request => exact (keepsKeyed_upload hv).final
  | activate host vllm domainId user adapterId => exact (keepsKeyed_activate hv).final
  | retire host domainId user adapterId => exact (keepsKeyed_retire hv).final
  | delete host domainId user adapterId => exact (keepsKeyed_delete hv).final

end Invariant

/-- The registry is as it was, and the weights of the registered adapters are still found. -/
structure Spared (hub : KeyHub) (v v' : Vault) : Prop where
  registry : v'.registry = v.registry
  weights : ∀ id record ref bytes, v.registry.get? id = some record →
    record.keyhubSecretRef = some ref → v.secrets.get? (hub.lookup ref) = some bytes →
    v'.secrets.get? (hub.lookup ref) = some bytes

/-- Some registered adapter keeps its weights where the key leads. -/
def Shared (hub : KeyHub) (repr : Value → String) (v : Vault) (key : String) : Prop :=
  ∃ id record, v.registry.get? id = some record ∧ hub.slot (record.key repr) = hub.slot key

/-- The upload stops before it stores its weights, or the registry does not take its row and no
registered adapter has weights under its key that would be lost. -/
def Harmless (hub : KeyHub) (repr : Value → String) (host : Host) (request : UploadRequest)
    (adapterId : String) (v : Vault) : Prop :=
  ((∀ training, request.trainingMetadata ≠ .ok training) ∨ host.putFault ≠ none) ∨
    ¬ Commits host v adapterId ∧
      (Shared hub repr v (request.key repr adapterId) →
        v.secrets.get? (hub.slot (request.key repr adapterId)) = none ∨
        host.deleteFault ≠ none ∧
          v.secrets.get? (hub.slot (request.key repr adapterId)) = some request.weights)

section Rejections

variable {hub : KeyHub} {repr : Value → String} {host : Host} {request : UploadRequest}
  {adapterId : String} {v v' : Vault}

theorem lora_prefix_secretKey (repr : Value → String) (domainId adapterId : String)
    (version : Value) : "lora/".toList <+: (secretKey repr domainId adapterId version).toList := by
  unfold secretKey
  split
  · rw [String.toList_append, String.toList_append, String.toList_append, String.toList_append,
      String.toList_append, List.append_assoc, List.append_assoc, List.append_assoc,
      List.append_assoc]
    exact List.prefix_append _ _
  · rw [String.toList_append, String.toList_append, String.toList_append, List.append_assoc,
      List.append_assoc]
    exact List.prefix_append _ _

theorem get?_refused {secrets : Dict String Bytes} {key : String} {weights : Bytes}
    (hlora : hub.lookup key = hub.slot key) (slot : String) :
    (let stored := secrets.set (hub.slot key) weights
      if host.deleteFault.isNone then stored.erase (hub.lookup key) else stored).get? slot =
    if slot = hub.slot key then (if host.deleteFault.isNone then none else some weights)
    else secrets.get? slot := by
  rw [hlora]
  by_cases hdelete : host.deleteFault.isNone
  · simp only [hdelete, if_true, Dict.get?_erase, Dict.get?_set]
    split <;> rfl
  · simp only [hdelete, Bool.false_eq_true, if_false, Dict.get?_set]

/-- What the removal leaves of the weights of the registered adapters. -/
theorem spared_iff_of_refused (hkeyed : Keyed hub repr v.registry)
    (hregistry : v'.registry = v.registry)
    (hsecrets : ∀ slot, v'.secrets.get? slot = if slot = hub.slot (request.key repr adapterId) then
      (if host.deleteFault.isNone then none else some request.weights) else v.secrets.get? slot) :
    Spared hub v v' ↔ (Shared hub repr v (request.key repr adapterId) →
      v.secrets.get? (hub.slot (request.key repr adapterId)) = none ∨
      host.deleteFault ≠ none ∧
        v.secrets.get? (hub.slot (request.key repr adapterId)) = some request.weights) := by
  have hlookup : ∀ {id record ref}, v.registry.get? id = some record →
      record.keyhubSecretRef = some ref → hub.lookup ref = hub.slot (record.key repr) := by
    intro id record ref hget href
    cases href.symm.trans (hkeyed id record hget).2
    exact hub.lookup_ref _
  constructor
  · rintro ⟨-, hweights⟩ ⟨id, record, hget, hslot⟩
    cases hbefore : v.secrets.get? (hub.slot (request.key repr adapterId)) with
    | none => exact .inl rfl
    | some bytes =>
      have href := (hkeyed id record hget).2
      have hafter := hweights id record _ bytes hget href (by rw [hlookup hget href, hslot, hbefore])
      rw [hlookup hget href, hslot, hsecrets, if_pos rfl] at hafter
      split at hafter
      · cases hafter
      · rename_i hfault
        refine .inr ⟨fun hnone => hfault (by rw [hnone]; rfl), ?_⟩
        exact congrArg some (Option.some.inj hafter).symm
  · intro hspares
    refine ⟨hregistry, fun id record ref bytes hget href hbytes => ?_⟩
    rw [hlookup hget href] at hbytes ⊢
    rw [hsecrets]
    split
    · rename_i hslot
      obtain hnone | ⟨hfault, hsame⟩ := hspares ⟨id, record, hget, hslot⟩
      · rw [hslot, hnone] at hbytes
        cases hbytes
      · rw [if_neg (fun hnone => hfault (Option.isNone_iff_eq_none.mp hnone))]
        rw [hslot, hsame] at hbytes
        exact hbytes
    · exact hbytes

end Rejections

/-- After any requests of any tenants, an upload that raises after its checks leaves the registry
and the weights of the registered adapters as they were exactly when it is harmless. -/
theorem rejected_upload_spares_iff (hub : KeyHub) (repr : Value → String) (requests : List Request)
    (host : Host) (request : UploadRequest) (adapterId : String) (e : AuthError) (v' : Vault)
    (hchecked : request.Checked adapterId)
    (hrejected : uploadLoraAdapter hub repr host request (Vault.reached hub repr requests) =
      .error e v') :
    Spared hub (Vault.reached hub repr requests) v' ↔
      Harmless hub repr host request adapterId (Vault.reached hub repr requests) := by
  have hkeyed : Keyed hub repr (Vault.reached hub repr requests).registry := keyed_reached requests
  generalize Vault.reached hub repr requests = v at hkeyed hrejected ⊢
  have hend : Rejected hub repr host request adapterId v v' :=
    (ensures_upload hchecked).of_error hrejected
  have hgoes : ∀ {training}, request.trainingMetadata = .ok training → host.putFault = none →
      ¬ ((∀ training, request.trainingMetadata ≠ .ok training) ∨ host.putFault ≠ none) := by
    rintro training hread hput (h | h)
    · exact h training hread
    · exact h hput
  cases hend with
  | stopped hearly hleft =>
    subst hleft
    exact iff_of_true ⟨rfl, fun _ _ _ _ _ _ h => h⟩ (.inl hearly)
  | refused training hread hput hkept hregistry hsecrets =>
    rw [Harmless, or_iff_right (hgoes hread hput), and_iff_right hkept]
    refine spared_iff_of_refused hkeyed hregistry fun slot => ?_
    rw [hsecrets]
    exact get?_refused (hub.lookup_key _ (lora_prefix_secretKey _ _ _ _)) slot
  | committed training hread hput hcommits row hisRow hregistry =>
    refine iff_of_false ?_ ?_
    · rintro ⟨hsame, -⟩
      refine hcommits.2 (Dict.get?_isSome_iff.mp ?_)
      rw [← hsame, hregistry, Dict.get?_set, if_pos rfl]
      rfl
    · rintro (hearly | ⟨hnot, -⟩)
      · exact hgoes hread hput hearly
      · exact hnot hcommits

section Office

def hrAdmin : UserContext :=
  ⟨.null, "hr", ["DOMAIN_ADMIN"], .null, .null, [], .null, .null, .empty⟩

def uploadTone (version : Value) (weights : Bytes) : UploadRequest where
  domainId := "hr"
  user := hrAdmin
  weights := weights
  filename := .str "tone.bin"
  metadata := .ofList [("adapter_id", .str "tone"), ("version", version)]

def firstUpload : List Request := [.upload {} (uploadTone (.str "1") [1])]

def rejects {A : Type} (x : VaultTask A) (v : Vault) : Bool := (x.result? v).isNone

theorem exists_of_rejects {A : Type} {x : VaultTask A} {v : Vault} (h : rejects x v = true) :
    ∃ e, x v = .error e (x.final v) := by
  unfold rejects Program.result? at h
  unfold Program.final
  cases hx : x v with
  | ok a v' =>
    rw [hx] at h
    cases h
  | error e v' => exact ⟨e, rfl⟩

theorem checked_uploadTone (version : Value) (weights : Bytes) :
    (uploadTone version weights).Checked "tone" := ⟨rfl, rfl⟩

def officeRepr (_ : Value) : String := "value"

/-- The second version goes under another key. -/
theorem rejected_upload_spares_other_version : ∃ e,
    uploadLoraAdapter localSecretStore officeRepr {} (uploadTone (.str "2") [2])
        (Vault.reached localSecretStore officeRepr firstUpload) =
      .error e ((uploadLoraAdapter localSecretStore officeRepr {} (uploadTone (.str "2") [2])).final
        (Vault.reached localSecretStore officeRepr firstUpload)) ∧
    Spared localSecretStore (Vault.reached localSecretStore officeRepr firstUpload)
      ((uploadLoraAdapter localSecretStore officeRepr {} (uploadTone (.str "2") [2])).final
        (Vault.reached localSecretStore officeRepr firstUpload)) := by
  obtain ⟨e, he⟩ := exists_of_rejects
    (x := uploadLoraAdapter localSecretStore officeRepr {} (uploadTone (.str "2") [2]))
    (v := Vault.reached localSecretStore officeRepr firstUpload) (by decide +kernel)
  refine ⟨e, he, (rejected_upload_spares_iff localSecretStore officeRepr firstUpload {}
    (uploadTone (.str "2") [2]) "tone" e _ (checked_uploadTone _ _) he).mpr (.inr ⟨?_, ?_⟩)⟩
  · rintro ⟨⟨e, he⟩, -⟩
    cases he
  · intro _
    left
    rw [← Option.isNone_iff_eq_none]
    decide +kernel

/-- The same adapter once more: the request is rejected, and the weights of the registered
adapter are gone. -/
theorem second_upload_loses_weights : ∃ e,
    uploadLoraAdapter localSecretStore officeRepr {} (uploadTone (.str "1") [2])
        (Vault.reached localSecretStore officeRepr firstUpload) =
      .error e ((uploadLoraAdapter localSecretStore officeRepr {} (uploadTone (.str "1") [2])).final
        (Vault.reached localSecretStore officeRepr firstUpload)) ∧
    ¬ Spared localSecretStore (Vault.reached localSecretStore officeRepr firstUpload)
      ((uploadLoraAdapter localSecretStore officeRepr {} (uploadTone (.str "1") [2])).final
        (Vault.reached localSecretStore officeRepr firstUpload)) := by
  obtain ⟨e, he⟩ := exists_of_rejects
    (x := uploadLoraAdapter localSecretStore officeRepr {} (uploadTone (.str "1") [2]))
    (v := Vault.reached localSecretStore officeRepr firstUpload) (by decide +kernel)
  refine ⟨e, he, fun hspared => ?_⟩
  obtain ⟨record, hrecord, href⟩ := (Option.any_eq_true
    (fun record => record.keyhubSecretRef = some "local://lora_hr_tone_1")
    ((Vault.reached localSecretStore officeRepr firstUpload).registry.get? "tone")).mp
    (by decide +kernel)
  have hbefore : (Vault.reached localSecretStore officeRepr firstUpload).secrets.get?
      (localSecretStore.lookup "local://lora_hr_tone_1") = some [1] := by decide +kernel
  have hafter := hspared.weights "tone" record _ [1] hrecord (of_decide_eq_true href) hbefore
  have hgone : ((uploadLoraAdapter localSecretStore officeRepr {} (uploadTone (.str "1") [2])).final
      (Vault.reached localSecretStore officeRepr firstUpload)).secrets.get?
      (localSecretStore.lookup "local://lora_hr_tone_1") = none := by decide +kernel
  cases hgone.symm.trans hafter

end Office

end DomainRag.Lora
