import DomainRag.Approval.Service
import DomainRag.Lib.Program

/-! # Plain storage and the answer of the lookup

A request whose lookup returned no approval should store its question masked. Its answer stands in
the shared `storage` dictionary until its input check reads it back, and another request may write
its own answer there in between. A configured policy that is neither `mask` nor `plain` is stored
as plain without any approval.
-/

namespace DomainRag.Approval

open Chat (TenantConfig RAGState RAGGraphDeps StreamingChatService ChatLogPayload execNode
  nextNode checkInputPiiNode storageDecision StoresMasked)

variable {V S : Type}

section Policy

/-- A configured policy is stored as `mask` when it is `mask`, and without the approval also when
it is `plain`. -/
theorem storagePolicy_eq_mask {service : Pii.PIIService} {config : Pii.PiiConfig}
    {mode : Option String} {approved : Bool}
    (h : service.lower (config.piiStoragePolicy.getD "mask") = "mask" ∨
      service.lower (config.piiStoragePolicy.getD "mask") = "plain" ∧ approved = false) :
    service.storagePolicy (some config) mode approved = .mask := by
  simp only [Pii.PIIService.storagePolicy, Option.getD_some]
  obtain h | ⟨h, rfl⟩ := h
  · rw [h]
    simp
  · rw [h]
    simp

theorem checkInputPiiNode_policy {deps : RAGGraphDeps V S} {state : RAGState S}
    (hstate : state.piiStoragePolicy = .mask)
    (h : ∀ service, deps.piiService = some service → StoresMasked service state.tenantConfig) :
    (checkInputPiiNode deps state).piiStoragePolicy = .mask := by
  rw [checkInputPiiNode]
  cases hpii : deps.piiService with
  | none => exact hstate
  | some service =>
    have hpolicy := (Chat.storageDecision_masked state.question (h service hpii)).1
    simp only [Chat.withInputCheck, Chat.withStorage]
    split <;> exact hpolicy

theorem checkInput_policy {chat : StreamingChatService S} {request : Chat.StreamingRequest}
    {config : TenantConfig S}
    (h : ∀ service, chat.piiService = some service → StoresMasked service config) :
    (chat.checkInput request config).policy = .mask := by
  rw [StreamingChatService.checkInput]
  cases hpii : chat.piiService with
  | none => rfl
  | some service => exact (Chat.storageDecision_masked request.question (h service hpii)).1

end Policy

namespace Memory

variable {m m' : Memory S} {cfg other a b : Nat} {s : StorageSection} {approved : Bool}

/-- Dictionaries and objects are added and none is changed. -/
structure Extends (m m' : Memory S) : Prop where
  storages : m.storages <+: m'.storages
  piis : m.piis <+: m'.piis
  configs : m.configs <+: m'.configs

theorem Extends.refl (m : Memory S) : Extends m m :=
  ⟨List.prefix_rfl, List.prefix_rfl, List.prefix_rfl⟩

theorem Extends.trans {m'' : Memory S} (h : Extends m m') (h' : Extends m' m'') :
    Extends m m'' :=
  ⟨h.storages.trans h'.storages, h.piis.trans h'.piis, h.configs.trans h'.configs⟩

theorem piiAt_eq_some_iff {p : Nat} :
    m.piiAt cfg = some p ↔ ∃ config, m.configs[cfg]? = some config ∧ config.pii = .dict p := by
  unfold piiAt
  constructor
  · intro h
    split at h
    · rename_i heq
      cases h
      exact ⟨_, heq, rfl⟩
    · cases h
  · rintro ⟨config, hconfig, hpii⟩
    cases config
    cases hpii
    rw [hconfig]

theorem storageAt_eq_some_iff : m.storageAt cfg = some a ↔
    ∃ p pii, m.piiAt cfg = some p ∧ m.piis[p]? = some pii ∧ pii.storage = .dict a := by
  unfold storageAt
  constructor
  · intro h
    split at h
    · rename_i heq
      cases h
      obtain ⟨p, hp, hpii⟩ := Option.bind_eq_some_iff.mp heq
      exact ⟨p, _, hp, hpii, rfl⟩
    · cases h
  · rintro ⟨p, pii, hp, hpii, hstorage⟩
    cases pii
    cases hstorage
    simp only [hp, Option.bind_some, hpii]

theorem storageAt_of_missing {p : Nat} {pii : PiiSection Nat} (hp : m.piiAt cfg = some p)
    (hpii : m.piis[p]? = some pii) (hstorage : pii.storage = .missing) :
    m.storageAt cfg = none := by
  rw [Option.eq_none_iff_forall_ne_some]
  intro a hat
  obtain ⟨p', pii', hp', hpii', hdict⟩ := storageAt_eq_some_iff.mp hat
  obtain rfl := Option.some.inj (hp.symm.trans hp')
  obtain rfl := Option.some.inj (hpii.symm.trans hpii')
  rw [hstorage] at hdict
  cases hdict

theorem Extends.storageAt (h : Extends m m') (hat : m.storageAt cfg = some a) :
    m'.storageAt cfg = some a := by
  obtain ⟨p, pii, hp, hpii, hstorage⟩ := storageAt_eq_some_iff.mp hat
  obtain ⟨config, hconfig, hdict⟩ := piiAt_eq_some_iff.mp hp
  refine storageAt_eq_some_iff.mpr ⟨p, pii, ?_, getElem?_of_prefix h.piis hpii, hstorage⟩
  exact piiAt_eq_some_iff.mpr ⟨config, getElem?_of_prefix h.configs hconfig, hdict⟩

theorem extends_addStorage (entry : Entry StorageSection) : Extends m (m.addStorage entry).1 := by
  cases entry with
  | missing => exact .refl m
  | other truthy => exact .refl m
  | dict s => exact ⟨List.prefix_append _ _, List.prefix_rfl, List.prefix_rfl⟩

theorem extends_mergeStorage (static : Entry StorageSection) (upper : Entry Nat) :
    Extends m (m.mergeStorage static upper).1 := by
  cases upper with
  | missing => exact extends_addStorage static
  | other truthy => exact .refl m
  | dict a =>
    cases static with
    | missing => exact .refl m
    | other truthy => exact .refl m
    | dict s => exact extends_addStorage _

theorem extends_addPii (rest : Pii.PiiConfig) (storage : Entry Nat) :
    Extends m (m.addPii rest storage).1 :=
  ⟨List.prefix_rfl, List.prefix_append _ _, List.prefix_rfl⟩

theorem extends_loadPii (static : Entry (PiiSection StorageSection)) (runtime : Option Nat) :
    Extends m (m.loadPii static runtime).1 := by
  unfold loadPii
  split
  · exact .refl m
  · exact .refl m
  · exact (extends_mergeStorage _ _).trans (extends_addPii _ _)
  · exact extends_addPii _ _

theorem extends_addConfig (config : TenantConfigObject S Nat) :
    Extends m (m.addConfig config).1 :=
  ⟨List.prefix_rfl, List.prefix_rfl, List.prefix_append _ _⟩

/-- What the loader writes: the answer stands in the dictionary of the configuration, and every
other dictionary is as it was. -/
structure Injected (m m' : Memory S) (cfg : Nat) (approved : Bool) : Prop where
  written : ∃ a s, m'.storageAt cfg = some a ∧ m'.storages[a]? = some s ∧
    s.plainApproved = some approved
  storageAt : ∀ other a, m.storageAt other = some a → m'.storageAt other = some a
  shared : ∀ a s, m.storageAt cfg = some a → m.storages[a]? = some s →
    m'.storages[a]? = some { s with plainApproved := some approved }
  kept : ∀ a s, m.storageAt cfg ≠ some a → m.storages[a]? = some s → m'.storages[a]? = some s

theorem injected_missing {p : Nat} {pii : PiiSection Nat} (hp : m.piiAt cfg = some p)
    (hpii : m.piis[p]? = some pii) (hstorage : pii.storage = .missing) :
    Injected m
      { m with
        storages := m.storages ++ [{ plainApproved := some approved }]
        piis := m.piis.set p { pii with storage := .dict m.storages.length } } cfg approved := by
  obtain ⟨hlt, -⟩ := List.getElem?_eq_some_iff.mp hpii
  have hnone := storageAt_of_missing hp hpii hstorage
  refine ⟨⟨m.storages.length, { plainApproved := some approved }, ?_, ?_, rfl⟩, ?_, ?_, ?_⟩
  · refine storageAt_eq_some_iff.mpr ⟨p, { pii with storage := .dict m.storages.length }, hp, ?_, rfl⟩
    exact List.getElem?_set_self hlt
  · exact List.getElem?_concat_length
  · intro other a hat
    obtain ⟨p', pii', hp', hpii', hdict⟩ := storageAt_eq_some_iff.mp hat
    refine storageAt_eq_some_iff.mpr ⟨p', pii', hp', ?_, hdict⟩
    -- The dictionary that gets a section had none.
    have hne : p ≠ p' := by
      rintro rfl
      obtain rfl := Option.some.inj (hpii.symm.trans hpii')
      rw [hstorage] at hdict
      cases hdict
    exact (List.getElem?_set_ne hne).trans hpii'
  · intro a s hat
    rw [hnone] at hat
    cases hat
  · intro a s _ hs
    exact getElem?_of_prefix (List.prefix_append _ _) hs

theorem injected_dict (hat : m.storageAt cfg = some a) (hs : m.storages[a]? = some s) :
    Injected m { m with storages := m.storages.set a { s with plainApproved := some approved } }
      cfg approved := by
  obtain ⟨hlt, -⟩ := List.getElem?_eq_some_iff.mp hs
  refine ⟨⟨a, { s with plainApproved := some approved }, hat, List.getElem?_set_self hlt, rfl⟩,
    fun _ _ h => h, ?_, ?_⟩
  · intro b t hb ht
    obtain rfl := Option.some.inj (hat.symm.trans hb)
    obtain rfl := Option.some.inj (hs.symm.trans ht)
    exact List.getElem?_set_self hlt
  · intro b t hb ht
    have hne : a ≠ b := by
      rintro rfl
      exact hb hat
    exact (List.getElem?_set_ne hne).trans ht

/-- The loader adds a `storage` section where there is none, and writes into it where there is. -/
theorem inject_cases (h : m.inject cfg approved = some m') :
    (∃ p pii, m.piiAt cfg = some p ∧ m.piis[p]? = some pii ∧ pii.storage = .missing ∧
      m' =
        { m with
          storages := m.storages ++ [{ plainApproved := some approved }]
          piis := m.piis.set p { pii with storage := .dict m.storages.length } }) ∨
    ∃ a s, m.storageAt cfg = some a ∧ m.storages[a]? = some s ∧
      m' = { m with storages := m.storages.set a { s with plainApproved := some approved } } := by
  unfold inject at h
  cases hp : m.piiAt cfg with
  | none => simp only [hp, reduceCtorEq] at h
  | some p =>
    cases hpii : m.piis[p]? with
    | none => simp only [hp, hpii, reduceCtorEq] at h
    | some pii =>
      simp only [hp, hpii] at h
      cases hstorage : pii.storage with
      | missing =>
        simp only [hstorage, Option.some.injEq] at h
        exact .inl ⟨p, pii, rfl, hpii, hstorage, h.symm⟩
      | other truthy => simp only [hstorage, reduceCtorEq] at h
      | dict a =>
        simp only [hstorage, Option.map_eq_some_iff] at h
        obtain ⟨s, hs, rfl⟩ := h
        exact .inr ⟨a, s, storageAt_eq_some_iff.mpr ⟨p, pii, hp, hpii, hstorage⟩, hs, rfl⟩

theorem injected_of_inject (h : m.inject cfg approved = some m') : Injected m m' cfg approved := by
  obtain ⟨p, pii, hp, hpii, hstorage, rfl⟩ | ⟨a, s, hat, hs, rfl⟩ := inject_cases h
  · exact injected_missing hp hpii hstorage
  · exact injected_dict hat hs

theorem piiOf_eq_some (hat : m.storageAt cfg = some a) (hs : m.storages[a]? = some s) :
    ∃ config, m.piiOf cfg = some config ∧ config.piiStoragePolicy = s.piiStoragePolicy ∧
      config.plainApproved = s.plainApproved := by
  have hof : m.storageOf cfg = s := by
    rw [storageOf, hat, Option.bind_some, hs]
    rfl
  obtain ⟨p, pii, hp, hpii, -⟩ := storageAt_eq_some_iff.mp hat
  refine ⟨{ pii.rest with
    piiStoragePolicy := s.piiStoragePolicy
    plainApproved := s.plainApproved }, ?_, rfl, rfl⟩
  rw [piiOf, hp, Option.bind_some, hpii, hof]
  rfl

def policyOf (m : Memory S) (service : Pii.PIIService) (cfg : Nat) : String :=
  service.lower ((m.storageOf cfg).piiStoragePolicy.getD "mask")

/-- The shared section gives no approval, or none is asked for. -/
def Withholds (m : Memory S) (service : Pii.PIIService) (cfg : Nat) : Prop :=
  ∃ a s, m.storageAt cfg = some a ∧ m.storages[a]? = some s ∧
    (s.plainApproved = some false ∨ service.lower (s.piiStoragePolicy.getD "mask") ≠ "plain")

variable {service : Pii.PIIService}

theorem policyOf_eq (hat : m.storageAt cfg = some a) (hs : m.storages[a]? = some s) :
    m.policyOf service cfg = service.lower (s.piiStoragePolicy.getD "mask") := by
  rw [policyOf, storageOf, hat, Option.bind_some, hs]
  rfl

theorem Withholds.extends (h : m.Withholds service cfg) (hext : Extends m m') :
    m'.Withholds service cfg := by
  obtain ⟨a, s, hat, hs, hwithheld⟩ := h
  exact ⟨a, s, hext.storageAt hat, getElem?_of_prefix hext.storages hs, hwithheld⟩

/-- An answer that another request writes keeps what was withheld, unless it is an approval that
is written into the same section where plain storage is asked for. -/
theorem Withholds.injected (h : m.Withholds service other) (hinj : Injected m m' cfg approved)
    (hspared : approved = true → ∀ a, m.storageAt cfg = some a → m.storageAt other = some a →
      m.policyOf service other ≠ "plain") : m'.Withholds service other := by
  obtain ⟨a, s, hat, hs, hwithheld⟩ := h
  by_cases hshared : m.storageAt cfg = some a
  · refine ⟨a, _, hinj.storageAt other a hat, hinj.shared a s hshared hs, ?_⟩
    cases approved with
    | false => exact .inl rfl
    | true => exact .inr (policyOf_eq hat hs ▸ hspared rfl a hshared hat)
  · exact ⟨a, s, hinj.storageAt other a hat, hinj.kept a s hshared hs, hwithheld⟩

theorem Injected.withholds (hinj : Injected m m' cfg false) : m'.Withholds service cfg := by
  obtain ⟨a, s, hat, hs, hwritten⟩ := hinj.written
  exact ⟨a, s, hat, hs, .inl hwritten⟩

theorem Withholds.storesMasked {config : TenantConfig S} (h : m.Withholds service cfg)
    (hknown : m.policyOf service cfg = "mask" ∨ m.policyOf service cfg = "plain")
    (hconfig : config.pii = m.piiOf cfg) : StoresMasked service config := by
  obtain ⟨a, s, hat, hs, hwithheld⟩ := h
  obtain ⟨pii, hpii, hpolicy, happroved⟩ := piiOf_eq_some hat hs
  rw [policyOf_eq hat hs] at hknown
  rw [StoresMasked, TenantConfig.plainApproved, hconfig, hpii]
  apply storagePolicy_eq_mask
  rw [hpolicy, Option.getD_some, happroved]
  obtain hmask | hplain := hknown
  · exact .inl hmask
  · exact .inr ⟨hplain, by rw [hwithheld.resolve_right (not_not.mpr hplain)]; rfl⟩

end Memory

section Guard

/-- A request without an approval whose input check has still to read the shared section. -/
inductive Stage.Unchecked (service : Pii.PIIService) (cfg : Nat) : Stage V S → Prop
  | running {deps : RAGGraphDeps V S} {state : RAGState S} (h : deps.piiService = some service) :
      Unchecked service cfg (.running deps cfg false .checkInputPii state)
  | streaming {chat : StreamingChatService S} {request : Chat.StreamingRequest}
      (h : chat.piiService = some service) :
      Unchecked service cfg (.streaming chat request cfg false)

/-- No approval is written into the section of an unchecked request that asks for plain storage. -/
def World.Spares (w : World V S) (stage : Stage V S) : Prop :=
  ∀ work cfg a, stage = .injecting work cfg true → w.memory.storageAt cfg = some a →
    ∀ waiting ∈ w.requests, ∀ service other, waiting.Unchecked service other →
      w.memory.storageAt other = some a → w.memory.policyOf service other ≠ "plain"

def World.Recognises (w : World V S) (stage : Stage V S) : Prop :=
  ∀ service cfg, stage.Unchecked service cfg →
    w.memory.policyOf service cfg = "mask" ∨ w.memory.policyOf service cfg = "plain"

def World.Guarded (w : World V S) : Op V S → Prop
  | .advance i => ∀ stage, w.requests[i]? = some stage → w.Spares stage ∧ w.Recognises stage
  | _ => True

end Guard

section Invariant

/-- Plain storage is approved: a request whose own lookup returned no approval has stored no
question under the policy `plain`. -/
def World.PlainApproved (w : World V S) : Prop :=
  ∀ row ∈ w.rows, row.approved = false → row.payload.piiStoragePolicy ≠ .plain

/-- A request without an approval will store its question masked. -/
def Stage.Sound (m : Memory S) : Stage V S → Prop
  | .running deps cfg false n state =>
    state.piiStoragePolicy = .mask ∧ n.rank ≤ Chat.Node.checkInputPii.rank ∧
      (n = .checkInputPii → ∀ service, deps.piiService = some service → m.Withholds service cfg)
  | .streaming chat _ cfg false =>
    ∀ service, chat.piiService = some service → m.Withholds service cfg
  | _ => True

structure World.Sound (w : World V S) : Prop where
  stages : ∀ stage ∈ w.requests, stage.Sound w.memory
  rows : ∀ row ∈ w.rows, row.approved = false → row.payload.piiStoragePolicy = .mask

theorem World.Sound.plainApproved {w : World V S} (h : w.Sound) : w.PlainApproved := by
  intro row hrow hanswer
  rw [h.rows row hrow hanswer]
  nofun

theorem Stage.Sound.mono {m m' : Memory S} {stage : Stage V S} (h : stage.Sound m)
    (hkept : ∀ service cfg, stage.Unchecked service cfg → m.Withholds service cfg →
      m'.Withholds service cfg) : stage.Sound m' := by
  cases stage with
  | running deps cfg approved n state =>
    cases approved with
    | true => trivial
    | false =>
      obtain ⟨hmask, hrank, hwithheld⟩ := h
      refine ⟨hmask, hrank, ?_⟩
      rintro rfl service hpii
      exact hkept service cfg (.running hpii) (hwithheld rfl service hpii)
  | streaming chat request cfg approved =>
    cases approved with
    | true => trivial
    | false =>
      intro service hpii
      exact hkept service cfg (.streaming hpii) (h service hpii)
  | loading | asking | injecting | finished => trivial

theorem World.Sound.setStage {w : World V S} {i : Nat} {stage : Stage V S} (h : w.Sound)
    (hstage : stage.Sound w.memory) : (w.setStage i stage).Sound := by
  refine ⟨?_, h.rows⟩
  intro stage' hmem
  obtain hmem | rfl := List.mem_or_eq_of_mem_set hmem
  · exact h.stages stage' hmem
  · exact hstage

theorem World.Sound.addRows {w : World V S} {i : Nat} {approved : Bool}
    {payloads : List (ChatLogPayload S)} (h : w.Sound)
    (hrows : approved = false → ∀ p ∈ payloads, p.piiStoragePolicy = .mask) :
    (w.addRows i approved payloads).Sound := by
  refine ⟨h.stages, ?_⟩
  intro row hrow hanswer
  obtain hrow | hrow := List.mem_append.mp hrow
  · exact h.rows row hrow hanswer
  · obtain ⟨p, hp, rfl⟩ := List.mem_map.mp hrow
    exact hrows hanswer p hp

theorem World.Sound.load {w : World V S} {disk : DiskConfig S} (h : w.Sound) :
    (w.load disk).1.Sound := by
  have hfresh : Memory.Extends w.memory ((w.memory.loadPii disk.pii w.runtimePii).1.addConfig
      { disk with pii := (w.memory.loadPii disk.pii w.runtimePii).2 }).1 :=
    (Memory.extends_loadPii _ _).trans (Memory.extends_addConfig _)
  have hkept : ∀ stage : Stage V S, ∀ service cfg, stage.Unchecked service cfg →
      w.memory.Withholds service cfg → Memory.Withholds _ service cfg :=
    fun _ _ _ _ hwithheld => hwithheld.extends hfresh
  unfold World.load
  split
  · split
    · exact h
    · exact ⟨fun stage hmem => (h.stages stage hmem).mono (hkept stage), h.rows⟩
  · exact ⟨fun stage hmem => (h.stages stage hmem).mono (hkept stage), h.rows⟩

theorem afterNode_sound {m : Memory S} {deps : RAGGraphDeps V S} {cfg : Nat} {approved : Bool}
    {n : Chat.Node} {result : Except Exc (RAGState S)}
    (hrank : approved = false → n.rank ≤ Chat.Node.checkInputPii.rank)
    (hmask : approved = false → ∀ state', result = .ok state' →
      state'.piiStoragePolicy = .mask) :
    (World.afterNode deps cfg approved n result).Sound m := by
  cases result with
  | error e => trivial
  | ok state' =>
    rw [World.afterNode]
    cases hnext : nextNode n state' with
    | none => trivial
    | some n' =>
      cases approved with
      | true => trivial
      | false =>
        have hlt := (Chat.nextNode_descends n state' n' hnext).trans_le (hrank rfl)
        refine ⟨hmask rfl state' rfl, hlt.le, ?_⟩
        rintro rfl
        exact absurd hlt (lt_irrefl _)

theorem start_sound [Zero S] {m m' : Memory S} {cfg : Nat} {approved : Bool} (work : Work V S)
    (hinj : Memory.Injected m m' cfg approved) :
    (World.start m' cfg approved work).Sound m' := by
  cases approved with
  | true =>
    cases work with
    | structured deps request => trivial
    | streamed chat request => trivial
  | false =>
    cases work with
    | structured deps request =>
      refine ⟨?_, le_rfl, fun _ _ _ => hinj.withholds⟩
      simp only [Chat.entered, Chat.tenantResolverNode]
      split <;> rfl
    | streamed chat request => exact fun _ _ => hinj.withholds

theorem World.Sound.inject [Zero S] {w : World V S} {i : Nat} {work : Work V S} {cfg : Nat}
    {approved : Bool} {m' : Memory S}
    (h : w.Sound) (hspares : w.Spares (.injecting work cfg approved))
    (hinject : w.memory.inject cfg approved = some m') :
    ({ w with memory := m' }.setStage i (World.start m' cfg approved work)).Sound := by
  have hinj := Memory.injected_of_inject hinject
  have hworld : World.Sound { w with memory := m' } := by
    refine ⟨?_, h.rows⟩
    intro stage hmem
    refine (h.stages stage hmem).mono ?_
    intro service other hunchecked hwithheld
    refine hwithheld.injected hinj ?_
    rintro rfl a hat hother
    exact hspares work cfg a rfl hat stage hmem service other hunchecked hother
  exact hworld.setStage (start_sound work hinj)

end Invariant

section Steps

variable [LinearOrder S] [Zero S] [One S] [Add S] [Sub S] [Mul S] [Div S] [NatCast S]
  [OfScientific S] {w : World V S} {i : Nat}

theorem execNode_masked {deps : RAGGraphDeps V S} {cfg : Nat} {n : Chat.Node}
    {state state' : RAGState S}
    (hsound : (Stage.running deps cfg false n state).Sound w.memory)
    (hknown : w.Recognises (.running deps cfg false n state))
    (hexec : (execNode deps n (w.seen cfg state)).2 = .ok state') :
    state'.piiStoragePolicy = .mask := by
  obtain ⟨hmask, -, hwithheld⟩ := hsound
  by_cases hn : n = .checkInputPii
  · subst hn
    obtain rfl := Except.ok.inj hexec
    refine checkInputPiiNode_policy hmask ?_
    intro service hpii
    exact (hwithheld rfl service hpii).storesMasked (hknown service cfg (.running hpii)) rfl
  · exact ((Chat.execNode_frame hexec).policy hn).trans hmask

theorem World.Sound.node {deps : RAGGraphDeps V S} {cfg : Nat} {approved : Bool} {n : Chat.Node}
    {state : RAGState S} (h : w.Sound)
    (hstage : (Stage.running deps cfg approved n state).Sound w.memory)
    (hknown : w.Recognises (.running deps cfg approved n state)) :
    (w.advance i (.running deps cfg approved n state)).Sound := by
  have hrows : approved = false → ∀ p ∈ (execNode deps n (w.seen cfg state)).1.filterMap loggedBy,
      p.piiStoragePolicy = .mask := by
    rintro rfl p hp
    obtain ⟨call, hcall, hlogged⟩ := List.mem_filterMap.mp hp
    cases call with
    | logged payload =>
      obtain rfl := Option.some.inj hlogged
      obtain ⟨-, rfl⟩ := Chat.execNode_logged hcall
      exact hstage.1
    | structured _ => cases hlogged
    | conversational _ => cases hlogged
    | assessment _ => cases hlogged
  refine (h.addRows hrows).setStage (afterNode_sound ?_ ?_)
  · rintro rfl
    exact hstage.2.1
  · rintro rfl state' hexec
    exact execNode_masked hstage hknown hexec

theorem World.Sound.stream {chat : StreamingChatService S} {request : Chat.StreamingRequest}
    {cfg : Nat} {approved : Bool} (h : w.Sound)
    (hstage : (Stage.streaming chat request cfg approved : Stage V S).Sound w.memory)
    (hknown : w.Recognises (.streaming chat request cfg approved)) :
    (w.advance i (.streaming chat request cfg approved)).Sound := by
  have hrows : approved = false →
      ∀ p ∈ (chat.stream request (w.memory.configToDict cfg)).calls.filterMap streamedBy,
        p.piiStoragePolicy = .mask := by
    rintro rfl p hp
    obtain ⟨call, hcall, hlogged⟩ := List.mem_filterMap.mp hp
    cases call with
    | llm _ => cases hlogged
    | logged payload =>
      obtain rfl := Option.some.inj hlogged
      obtain ⟨routing, answer, reason, masked, rfl⟩ := Chat.stream_logged hcall
      refine checkInput_policy ?_
      intro service hpii
      have hwithheld := hstage service hpii
      refine hwithheld.storesMasked (hknown service cfg (.streaming hpii)) ?_
      obtain ⟨a, s, hat, -⟩ := hwithheld
      obtain ⟨p, -, hp, -⟩ := Memory.storageAt_eq_some_iff.mp hat
      obtain ⟨config, hconfig, -⟩ := Memory.piiAt_eq_some_iff.mp hp
      rw [Memory.configToDict, hconfig]
  exact (h.addRows hrows).setStage trivial

theorem World.Sound.advance {stage : Stage V S} (h : w.Sound) (hstage : stage.Sound w.memory)
    (hspares : w.Spares stage) (hknown : w.Recognises stage) : (w.advance i stage).Sound := by
  cases stage with
  | loading work => exact h
  | finished => exact h
  | asking work cfg =>
    rw [World.advance]
    split <;> exact h.setStage trivial
  | injecting work cfg approved =>
    rw [World.advance]
    split
    · exact h.setStage trivial
    · rename_i m' hinject
      exact h.inject hspares hinject
  | running deps cfg approved n state => exact h.node hstage hknown
  | streaming chat request cfg approved => exact h.stream hstage hknown

theorem World.Sound.step {op : Op V S} (h : w.Sound) (hguarded : w.Guarded op) :
    (w.step op).Sound := by
  cases op with
  | clock now => exact ⟨h.stages, h.rows⟩
  | approve approvalId reason approvedBy validUntil =>
    rw [World.step]
    split <;> exact ⟨h.stages, h.rows⟩
  | revoke revokedBy revokeReason =>
    rw [World.step]
    split <;> exact ⟨h.stages, h.rows⟩
  | arrive work =>
    refine ⟨?_, h.rows⟩
    intro stage hmem
    obtain hmem | hmem := List.mem_append.mp hmem
    · exact h.stages stage hmem
    · rw [List.mem_singleton.mp hmem]
      trivial
  | load j disk =>
    rw [World.step]
    split
    · exact h.load.setStage trivial
    · exact h
  | advance j =>
    rw [World.step]
    cases hstage : w.requests[j]? with
    | none => exact h
    | some stage =>
      obtain ⟨hspares, hknown⟩ := hguarded stage hstage
      exact h.advance (h.stages stage (List.mem_of_getElem? hstage)) hspares hknown

structure World.Idle (w : World V S) : Prop where
  requests : w.requests = []
  rows : w.rows = []

/-- For every interleaving of requests, approvals and revocations: no request whose own lookup
returned no approval stores its question as plain, as long as no approval is written into the
section of such a request before its input check, and the input checks find a known policy. -/
theorem plain_needs_own_approval (w : World V S) (hw : w.Idle) (ops : List (Op V S))
    (hguarded : Along World.step World.Guarded ops w) :
    (ops.foldl World.step w).PlainApproved := by
  have hstart : w.Sound := by
    refine ⟨?_, ?_⟩
    · rw [hw.requests]
      exact fun _ hmem => absurd hmem List.not_mem_nil
    · rw [hw.rows]
      exact fun _ hmem => absurd hmem List.not_mem_nil
  exact (hguarded.final hstart fun op _ w' h hop => h.step hop).plainApproved

end Steps

section Guards

variable {w : World V S} {i cfg : Nat}

/-- A request that is not about to write an approval has only its own input check to answer for. -/
theorem guarded_advance {stage : Stage V S} (h : w.requests[i]? = some stage)
    (hspares : ∀ work cfg, stage ≠ .injecting work cfg true)
    (hknown : w.Recognises stage) : w.Guarded (.advance i) := by
  intro stage' hstage
  obtain rfl := Option.some.inj (h.symm.trans hstage)
  exact ⟨fun work cfg _ heq => absurd heq (hspares work cfg), hknown⟩

theorem guarded_asking {work : Work V S} (h : w.requests[i]? = some (.asking work cfg)) :
    w.Guarded (.advance i) := by
  refine guarded_advance h ?_ ?_
  · intro _ _ heq
    cases heq
  · intro _ _ hunchecked
    cases hunchecked

theorem guarded_denied {work : Work V S}
    (h : w.requests[i]? = some (.injecting work cfg false)) : w.Guarded (.advance i) := by
  refine guarded_advance h ?_ ?_
  · intro _ _ heq
    cases heq
  · intro _ _ hunchecked
    cases hunchecked

theorem guarded_streaming {chat : StreamingChatService S} {request : Chat.StreamingRequest}
    (h : w.requests[i]? = some (.streaming chat request cfg false))
    (hknown : ∀ service, chat.piiService = some service →
      w.memory.policyOf service cfg = "mask" ∨ w.memory.policyOf service cfg = "plain") :
    w.Guarded (.advance i) := by
  refine guarded_advance h ?_ ?_
  · intro _ _ heq
    cases heq
  · intro service _ hunchecked
    cases hunchecked with
    | streaming hpii => exact hknown service hpii

end Guards

section Hr

open Chat (outageDeps mobileService leaveQuestion)

def hr : World ℚ ℚ where
  now := 0
  approvals := { domainId := "hr" }

def hrFiles : DiskConfig ℚ where
  pii := .dict { storage := .dict { piiStoragePolicy := some "plain" } }

def hrChat : Work ℚ ℚ := .structured (outageDeps ℚ mobileService {} none) leaveQuestion

def hrApproval : Op ℚ ℚ := .approve "a1" "audit" "admin" none

/-- The second request is approved and writes its answer before the first one is checked. -/
def overtaken : List (Op ℚ ℚ) :=
  [.arrive hrChat, .load 0 hrFiles, .advance 0, .advance 0, hrApproval,
    .arrive hrChat, .load 1 hrFiles, .advance 1, .advance 1] ++ List.replicate 10 (.advance 0)

theorem overtaken_request_stores_plain : hr.Idle ∧
    (overtaken.foldl World.step hr).rows.map
      (fun row => (row.approved, row.payload.piiStoragePolicy)) = [(false, .plain)] ∧
    ¬ (overtaken.foldl World.step hr).PlainApproved := by
  have hrows : (overtaken.foldl World.step hr).rows.map
      (fun row => (row.approved, row.payload.piiStoragePolicy)) = [(false, .plain)] := by
    decide +kernel
  refine ⟨⟨rfl, rfl⟩, hrows, fun h => ?_⟩
  obtain ⟨row, hrow, heq⟩ := List.mem_map.mp
    (hrows ▸ List.mem_singleton_self (false, Pii.StoragePolicy.plain))
  obtain ⟨hanswer, hpolicy⟩ := Prod.mk.inj heq
  exact h row hrow hanswer hpolicy

def hrStream : StreamingChatService ℚ where
  llm _ := (["답변"], none)
  prompt question := .ok question
  defaultModel := "tenant_slm"
  repr _ := ""
  piiService := some mobileService
  chatLogWriter := some fun _ => .ok "c1"
  newRequestId := "r1"
  newConversationId := "c1"

/-- The approval comes after the lookup of the only request. -/
def approvedLate : List (Op ℚ ℚ) :=
  [.arrive (.streamed hrStream ⟨"hr", "u1", "010-1234-5678", none, none, none, .null, 1024, 0.5⟩),
    .load 0 hrFiles, .advance 0, .advance 0, hrApproval, .advance 0]

theorem approvedLate_stores_masked : (approvedLate.foldl World.step hr).rows.map
      (fun row => (row.approved, row.payload.question)) = [(false, "010-****-****")] ∧
    (approvedLate.foldl World.step hr).PlainApproved := by
  refine ⟨by decide +kernel, plain_needs_own_approval hr ⟨rfl, rfl⟩ approvedLate ?_⟩
  refine ⟨trivial, trivial, guarded_asking rfl, guarded_denied rfl, trivial,
    guarded_streaming rfl ?_, trivial⟩
  intro service hpii
  obtain rfl := Option.some.inj hpii
  exact .inr (by decide +kernel)

end Hr

end DomainRag.Approval
