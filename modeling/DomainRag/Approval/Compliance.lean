import DomainRag.Approval.Lookup

/-! # Strict compliance modes

Under a strict compliance mode every question should be stored masked. The mode is a field of the
tenant's configuration object, and the conversion of that object into the dictionary that the
chat reads leaves it out, so that the configured policy decides alone.
-/

namespace DomainRag.Approval

open Chat (TenantConfig RAGGraphDeps ChatRequest StreamingChatService StreamingRequest
  ChatLogPayload StoresMasked chatRun checked)

variable {V S : Type}

namespace World

variable (w : World V S) (disk : DiskConfig S)

def effective : Option (TenantConfigObject S Nat) :=
  (w.load disk).1.memory.configs[(w.load disk).2]?

/-- The loader of `_build_config_loader_with_pii_approval`, which may raise. -/
def loader : Option (TenantConfig S) :=
  match w.approvals.isPlainApproved w.now with
  | .error _ => none
  | .ok approved => ((w.load disk).1.memory.inject (w.load disk).2 approved).map
      (·.configToDict (w.load disk).2)

/-- The configured policy is `mask`, or it is `plain` and there is no approval. -/
def Unapproved (service : Pii.PIIService) : Prop :=
  (w.load disk).1.memory.policyOf service (w.load disk).2 = "mask" ∨
    (w.load disk).1.memory.policyOf service (w.load disk).2 = "plain" ∧
      w.approvals.isPlainApproved w.now = .ok false

end World

section Policy

theorem storagePolicy_mask_iff {service : Pii.PIIService} {config : Pii.PiiConfig}
    {mode : Option String} {approved : Bool} (hmode : service.forced mode = false) :
    service.storagePolicy (some config) mode approved = .mask ↔
      service.lower (config.piiStoragePolicy.getD "mask") = "mask" ∨
        service.lower (config.piiStoragePolicy.getD "mask") = "plain" ∧ approved = false := by
  refine ⟨fun h => ?_, storagePolicy_eq_mask⟩
  simp only [Pii.PIIService.storagePolicy, Option.getD_some, hmode, Bool.false_eq_true,
    false_or] at h
  by_contra hneither
  obtain ⟨hmask, hplain⟩ := not_or.mp hneither
  rw [if_neg hplain, if_neg hmask] at h
  cases h

theorem Memory.inject_policy {m m' : Memory S} {cfg : Nat} {approved : Bool}
    (h : m.inject cfg approved = some m') : ∃ a s, m'.storageAt cfg = some a ∧
      m'.storages[a]? = some s ∧ s.plainApproved = some approved ∧
      s.piiStoragePolicy = (m.storageOf cfg).piiStoragePolicy := by
  obtain ⟨p, pii, hp, hpii, hstorage, rfl⟩ | ⟨a, s, hat, hs, rfl⟩ := inject_cases h
  · obtain ⟨hlt, -⟩ := List.getElem?_eq_some_iff.mp hpii
    refine ⟨m.storages.length, { plainApproved := some approved }, ?_,
      List.getElem?_concat_length, rfl, ?_⟩
    · exact storageAt_eq_some_iff.mpr
        ⟨p, { pii with storage := .dict m.storages.length }, hp, List.getElem?_set_self hlt, rfl⟩
    · rw [storageOf, storageAt_of_missing hp hpii hstorage]
      rfl
  · obtain ⟨hlt, -⟩ := List.getElem?_eq_some_iff.mp hs
    refine ⟨a, { s with plainApproved := some approved }, hat, List.getElem?_set_self hlt, rfl, ?_⟩
    rw [storageOf, hat, Option.bind_some, hs]
    rfl

theorem Memory.configToDict_complianceMode (m : Memory S) (cfg : Nat) :
    (m.configToDict cfg).complianceMode = none := by
  rw [configToDict]
  split <;> rfl

theorem Memory.configToDict_pii {m : Memory S} {cfg a : Nat} (h : m.storageAt cfg = some a) :
    (m.configToDict cfg).pii = m.piiOf cfg := by
  obtain ⟨p, -, hp, -⟩ := storageAt_eq_some_iff.mp h
  obtain ⟨config, hconfig, -⟩ := piiAt_eq_some_iff.mp hp
  rw [configToDict, hconfig]

/-- The dictionary of the loader stores masked exactly when the policy does without the mode. -/
theorem World.loader_storesMasked_iff {w : World V S} {disk : DiskConfig S}
    {config : TenantConfig S} {service : Pii.PIIService}
    (hlower : service.lower "standard" = "standard") (h : w.loader disk = some config) :
    StoresMasked service config ↔ w.Unapproved disk service := by
  rw [loader] at h
  cases happroved : w.approvals.isPlainApproved w.now with
  | error e =>
    rw [happroved] at h
    cases h
  | ok approved =>
    rw [happroved] at h
    obtain ⟨m, hinject, rfl⟩ := Option.map_eq_some_iff.mp h
    obtain ⟨a, s, hat, hs, hwritten, hpolicy⟩ := Memory.inject_policy hinject
    obtain ⟨pii, hpii, hconfigured, hanswer⟩ := Memory.piiOf_eq_some hat hs
    have hmode : service.forced (some (m.configToDict (w.load disk).2).storageMode) = false := by
      rw [TenantConfig.storageMode, Memory.configToDict_complianceMode]
      change (service.lower "standard" = "gdpr_strict" ||
        service.lower "standard" = "hipaa_strict") = false
      rw [hlower]
      decide
    rw [StoresMasked, TenantConfig.plainApproved, Memory.configToDict_pii hat, hpii,
      storagePolicy_mask_iff hmode, hconfigured, Option.getD_some, hanswer, hwritten, hpolicy,
      Unapproved, happroved, Memory.policyOf]
    exact or_congr_right (and_congr_right fun _ => Except.ok.injEq _ _ ▸ Iff.rfl)

end Policy

section Runs

variable [LinearOrder S] [Zero S] [One S] [Add S] [Sub S] [Mul S] [Div S] [NatCast S]
  [OfScientific S]

/-- Every chat run on the configuration, of the graph or streamed, stores its question under the
policy `mask`, whatever the other services do. -/
structure MasksEveryRun (V : Type) (service : Pii.PIIService) (config : TenantConfig S) :
    Prop where
  structured : ∀ (deps : RAGGraphDeps V S) (request : ChatRequest),
    deps.piiService = some service → deps.configLoader request.domainId = .ok config →
    ∀ p, .logged p ∈ (chatRun deps request).calls → p.piiStoragePolicy = .mask
  streamed : ∀ (chat : StreamingChatService S) (request : StreamingRequest),
    chat.piiService = some service →
    ∀ p, .logged p ∈ (chat.stream request config).calls → p.piiStoragePolicy = .mask

theorem logged_policy {deps : RAGGraphDeps V S} {request : ChatRequest}
    {config : TenantConfig S} {p : ChatLogPayload S}
    (hconfig : deps.configLoader request.domainId = .ok config)
    (h : .logged p ∈ (chatRun deps request).calls) :
    p.piiStoragePolicy = (checked deps config request).piiStoragePolicy := by
  rw [Chat.chatRun_of_config hconfig] at h
  obtain ⟨n, state, hreach, hlogged⟩ := Machine.mem_calls_iff.mp h
  have hrank : (Chat.checkInputPiiRouter (checked deps config request)).rank <
      Chat.Node.checkInputPii.rank := by
    rw [Chat.checkInputPiiRouter]
    split <;> decide
  have hkept := hreach.invariant (P := fun k t => t.piiStoragePolicy =
    (checked deps config request).piiStoragePolicy ∧ k.rank < Chat.Node.checkInputPii.rank)
    ⟨rfl, hrank⟩ ?_
  · obtain ⟨-, rfl⟩ := Chat.execNode_logged hlogged
    exact hkept.1
  · rintro k t t' k' ⟨ht, hk⟩ hexec hnext
    have hne : k ≠ .checkInputPii := by
      rintro rfl
      exact absurd hk (lt_irrefl _)
    exact ⟨((Chat.execNode_frame hexec).policy hne).trans ht,
      (Chat.nextNode_descends k t' k' hnext).trans hk⟩

omit [LinearOrder S] [One S] [Add S] [Sub S] [Mul S] [Div S] [NatCast S] [OfScientific S] in
theorem checked_policy {deps : RAGGraphDeps V S} {service : Pii.PIIService}
    {config : TenantConfig S} (request : ChatRequest) (hpii : deps.piiService = some service)
    (hmask : StoresMasked service config) :
    (checked deps config request).piiStoragePolicy = .mask := by
  refine checkInputPiiNode_policy ?_ ?_
  · change (Chat.tenantResolverNode (.initial request)).piiStoragePolicy = .mask
    rw [Chat.tenantResolverNode]
    split <;> rfl
  · intro other hother
    obtain rfl := Option.some.inj (hpii.symm.trans hother)
    exact hmask

def silentStream (service : Pii.PIIService) : StreamingChatService S where
  llm _ := ([], none)
  prompt question := .ok question
  defaultModel := ""
  repr _ := ""
  piiService := some service
  chatLogWriter := some fun _ => .ok ""
  newRequestId := ""
  newConversationId := ""

omit [LinearOrder S] [One S] [Add S] [Sub S] [Mul S] [Div S] [NatCast S] [OfScientific S] in
theorem silentStream_logged (service : Pii.PIIService) (request : StreamingRequest)
    (config : TenantConfig S) :
    ∃ p, .logged p ∈ ((silentStream service).stream request config).calls ∧
      p.piiStoragePolicy = (Chat.storageDecision service config request.question).policy := by
  rw [StreamingChatService.stream]
  split
  · exact ⟨_, List.mem_singleton_self _, rfl⟩
  · exact ⟨_, List.mem_cons_of_mem _ (List.mem_singleton_self _), rfl⟩

theorem masksEveryRun_iff {service : Pii.PIIService} {config : TenantConfig S} :
    MasksEveryRun V service config ↔ StoresMasked service config := by
  constructor
  · intro h
    obtain ⟨p, hp, hpolicy⟩ := silentStream_logged service
      ⟨"", "", "", none, none, none, .null, 1024, 0.5⟩ config
    have hmask := h.streamed (silentStream service) _ rfl p hp
    rw [hpolicy, Chat.storageDecision, service.maskForStorage_policy] at hmask
    exact hmask
  · intro hmask
    refine ⟨?_, ?_⟩
    · intro deps request hpii hconfig p hp
      rw [logged_policy hconfig hp]
      exact checked_policy request hpii hmask
    · intro chat request hpii p hp
      obtain ⟨routing, answer, reason, masked, rfl⟩ := Chat.stream_logged hp
      refine checkInput_policy ?_
      intro other hother
      obtain rfl := Option.some.inj (hpii.symm.trans hother)
      exact hmask

/-- For a tenant under a strict compliance mode every chat run stores the question masked exactly
when the configured policy would do so anyway. -/
theorem strict_mode_masks_iff (service : Pii.PIIService)
    (hlower : service.lower "standard" = "standard") (w : World V S) (disk : DiskConfig S)
    (object : TenantConfigObject S Nat) (config : TenantConfig S)
    (_hobject : w.effective disk = some object)
    (_hstrict : object.complianceMode = "gdpr_strict" ∨ object.complianceMode = "hipaa_strict")
    (hconfig : w.loader disk = some config) :
    MasksEveryRun V service config ↔ w.Unapproved disk service :=
  masksEveryRun_iff.trans (World.loader_storesMasked_iff hlower hconfig)

end Runs

section Strict

open Chat (mobileService)

def strictFiles (policy : String) : DiskConfig ℚ where
  pii := .dict { storage := .dict { piiStoragePolicy := some policy } }
  complianceMode := "gdpr_strict"

def approvedHr : World ℚ ℚ := hr.step hrApproval

theorem strict_mode_masks_mask : ∃ object config,
    hr.effective (strictFiles "mask") = some object ∧ object.complianceMode = "gdpr_strict" ∧
    hr.loader (strictFiles "mask") = some config ∧ MasksEveryRun ℚ mobileService config := by
  refine ⟨_, _, rfl, rfl, rfl, ?_⟩
  refine (strict_mode_masks_iff mobileService rfl hr (strictFiles "mask") _ _ rfl (.inl rfl)
    rfl).mpr (.inl ?_)
  decide +kernel

/-- With an approval of plain storage the strict mode is without effect. -/
theorem strict_mode_stores_plain : ∃ object config,
    approvedHr.effective (strictFiles "plain") = some object ∧
    object.complianceMode = "gdpr_strict" ∧
    approvedHr.loader (strictFiles "plain") = some config ∧
    ¬ MasksEveryRun ℚ mobileService config := by
  refine ⟨_, _, rfl, rfl, rfl, fun h => ?_⟩
  have hmask := masksEveryRun_iff.mp h
  revert hmask
  rw [StoresMasked]
  decide +kernel

end Strict

end DomainRag.Approval
