import DomainRag.Lora.Orchestrator

/-! # Activations that fail

An activation that fails should leave the adapter as it was: its row, whether the server has it
loaded, and whether its weights are in the shared directory. It does so when the weights were not
there before and the server had not loaded them.
-/

namespace DomainRag.Lora

open Program Storage

def Cluster.isLoaded (s : Cluster) (adapterId : String) : Bool := (s.loaded.get? adapterId).isSome

namespace LoRAOrchestrator

variable (orchestrator : LoRAOrchestrator)

/-- Where the weights of an adapter lie. -/
def place (domainId adapterId : String) : List String :=
  (orchestrator.weightsFile domainId adapterId).foldl FileSystem.visit []

def hasWeights (s : Cluster) (domainId adapterId : String) : Bool :=
  (s.files.file? (orchestrator.place domainId adapterId)).isSome

structure Unchanged (call : ActivateCall) (s s' : Cluster) : Prop where
  record : s'.registry.get? call.adapterId = s.registry.get? call.adapterId
  loaded : s'.isLoaded call.adapterId = s.isLoaded call.adapterId
  weights : orchestrator.hasWeights s' call.domainId call.adapterId =
    orchestrator.hasWeights s call.domainId call.adapterId

def Atomic (call : ActivateCall) (s : Cluster) : Prop :=
  ∀ e, (orchestrator.activate call s).2 = .error e →
    orchestrator.Unchanged call s (orchestrator.activate call s).1

/-- What holds along a run: activations that fail change nothing, and with a model server every active
adapter has its weights in place and is loaded. -/
structure Lawful (ops : List AdapterOp) : Prop where
  atomic : ∀ pre call post, ops = pre ++ .activate call :: post →
    orchestrator.Atomic call (orchestrator.run pre)
  kept : orchestrator.vllm = true → ∀ earlier, earlier <+: ops → ∀ adapterId record,
    (orchestrator.run earlier).registry.get? adapterId = some record → record.status = .active →
    orchestrator.hasWeights (orchestrator.run earlier) record.domainId adapterId = true ∧
      (orchestrator.run earlier).isLoaded adapterId = true

/-- An activation comes to the model server. -/
def Reaches (call : ActivateCall) (s : Cluster) : Prop :=
  orchestrator.vllm = true ∧ ∃ record blob place files,
    s.registry.get call.domainId call.adapterId = some record ∧ record.status ≠ .retired ∧
    fetchWeights call record = .ok blob ∧
    orchestrator.writeWeights call.domainId call.adapterId blob s.files = .ok place files

/-- The weights are not in place before an activation whose load or whose registry step fails, and
the adapter is not loaded before one whose registry step fails (or is, if it then cannot be unloaded). -/
def Clean (s : Cluster) : AdapterOp → Prop
  | .activate call => orchestrator.Reaches call s →
      (call.loadFault ≠ none ∨ call.registerFault ≠ none →
        orchestrator.hasWeights s call.domainId call.adapterId = false) ∧
      (call.loadFault = none → call.registerFault ≠ none →
        s.isLoaded call.adapterId = call.unloadFault.isSome)
  | _ => True

section Files

variable {orchestrator} {domainId adapterId : String} {blob : Bytes} {files files' : FileSystem Bytes}

theorem writeWeights_ok {target : List String}
    (h : orchestrator.writeWeights domainId adapterId blob files = .ok target files') :
    files'.find? (orchestrator.weightsFile domainId adapterId) =
        some (orchestrator.place domainId adapterId, .file blob) ∧
      ∀ q, files'.file? q =
        if q = orchestrator.place domainId adapterId then some blob else files.file? q := by
  rw [writeWeights] at h
  cases hdirs : FileSystem.mkdirs (orchestrator.adapterDir domainId adapterId).parts files with
  | error e files₁ =>
    simp only [bind, EStateM.bind, hdirs] at h
    cases h
  | ok dir files₁ =>
    rw [bind_apply hdirs] at h
    obtain ⟨-, -, hgrown⟩ := (FileSystem.ensures_mkdirsFrom files.rooted).of_ok hdirs
    have hfind := FileSystem.find?_writeFile h
    obtain ⟨htarget, -, hget⟩ := FileSystem.ensures_writeFile.of_ok h
    change target = orchestrator.place domainId adapterId at htarget
    rw [htarget] at hfind hget
    refine ⟨hfind, fun q => ?_⟩
    rw [← hgrown.file?_eq q, FileSystem.file?, hget]
    by_cases hq : q = orchestrator.place domainId adapterId
    · rw [if_pos hq, if_pos hq]
    · rw [if_neg hq, if_neg hq]
      rfl

theorem writeWeights_error {e : Exc}
    (h : orchestrator.writeWeights domainId adapterId blob files = .error e files')
    (q : List String) : files'.file? q = files.file? q := by
  have hensures : Ensures (orchestrator.writeWeights domainId adapterId blob) files
      (fun _ _ => True) fun _ files' => ∀ q, files'.file? q = files.file? q := by
    rw [writeWeights, ensures_bind]
    refine (FileSystem.ensures_mkdirsFrom files.rooted).mono ?_ fun _ _ hgrown => hgrown.file?_eq
    rintro dir files₁ ⟨-, -, hgrown⟩
    refine FileSystem.ensures_writeFile.mono (fun _ _ _ => trivial) ?_
    rintro _ _ rfl
    exact hgrown.file?_eq
  exact hensures.of_error h q

theorem file?_discardWeights
    (h : files.find? (orchestrator.weightsFile domainId adapterId) =
      some (orchestrator.place domainId adapterId, .file blob)) (q : List String) :
    ((orchestrator.discardWeights domainId adapterId).final files).file? q =
      if q = orchestrator.place domainId adapterId then none else files.file? q := by
  have hensures : Ensures (orchestrator.discardWeights domainId adapterId) files
      (fun _ files' => ∀ q, files'.file? q =
        if q = orchestrator.place domainId adapterId then none else files.file? q)
      fun _ files' => ∀ q, files'.file? q =
        if q = orchestrator.place domainId adapterId then none else files.file? q := by
    rw [discardWeights, ensures_bind]
    refine (FileSystem.ensures_unlink h).mono ?_ fun _ _ => False.elim
    intro _ files₁ hfiles
    refine FileSystem.ensures_rmdir.mono ?_ ?_
    · exact fun _ files₂ hsame q => (hsame q).trans (hfiles q)
    · exact fun _ files₂ hsame q => (hsame q).trans (hfiles q)
  exact hensures.final q

end Files

section Outcomes

variable {orchestrator} {call : ActivateCall} {s : Cluster}

/-- What an activation does, by the stage that it comes to. -/
inductive Outcome (orchestrator : LoRAOrchestrator) (call : ActivateCall) (s s' : Cluster) :
    Except ActivateError AdapterRecord → Prop
  | refused (e : ActivateError) : ¬ orchestrator.Reaches call s → s'.registry = s.registry →
      s'.loaded = s.loaded → (∀ q, s'.files.file? q = s.files.file? q) →
      Outcome orchestrator call s s' (.error e)
  | unserved (record : AdapterRecord) : orchestrator.vllm = false →
      Outcome orchestrator call s s' (.ok record)
  | loadFailed (e : ActivateError) : orchestrator.Reaches call s → call.loadFault ≠ none →
      s'.registry = s.registry → s'.loaded = s.loaded →
      (∀ q, s'.files.file? q =
        if q = orchestrator.place call.domainId call.adapterId then none else s.files.file? q) →
      Outcome orchestrator call s s' (.error e)
  | registerFailed (e : ActivateError) : orchestrator.Reaches call s → call.loadFault = none →
      call.registerFault ≠ none → s'.registry = s.registry →
      (∀ id, s'.isLoaded id = if id = call.adapterId then call.unloadFault.isSome
        else s.isLoaded id) →
      (∀ q, s'.files.file? q =
        if q = orchestrator.place call.domainId call.adapterId then none else s.files.file? q) →
      Outcome orchestrator call s s' (.error e)
  | served (record : AdapterRecord) : call.loadFault = none → call.registerFault = none →
      record.domainId = call.domainId →
      (∀ id, s'.registry.get? id =
        if id = call.adapterId then some record else s.registry.get? id) →
      (∀ id, s'.isLoaded id = if id = call.adapterId then true else s.isLoaded id) →
      (∀ q, (s'.files.file? q).isSome =
        if q = orchestrator.place call.domainId call.adapterId then true
        else (s.files.file? q).isSome) →
      Outcome orchestrator call s s' (.ok record)

theorem isLoaded_set (registry : LoRARegistry) (files : FileSystem Bytes) (dir id : String) :
    Cluster.isLoaded ⟨registry, files, s.loaded.set call.adapterId dir⟩ id =
      if id = call.adapterId then true else s.isLoaded id := by
  rw [Cluster.isLoaded, Dict.get?_set]
  split <;> rfl

@[simp] theorem registry_unload (fault : Option Exc) (adapterId : String) :
    (unload adapterId fault s).registry = s.registry := by
  cases fault <;> rfl

@[simp] theorem files_unload (fault : Option Exc) (adapterId : String) :
    (unload adapterId fault s).files = s.files := by
  cases fault <;> rfl

theorem isLoaded_unload (fault : Option Exc) (adapterId id : String) :
    (unload adapterId fault s).isLoaded id =
      if id = adapterId ∧ fault = none then false else s.isLoaded id := by
  cases fault with
  | some e => simp [unload]
  | none =>
    rw [unload, Cluster.isLoaded, Dict.get?_erase]
    by_cases hid : id = adapterId
    · simp [hid]
    · simp [hid, Cluster.isLoaded]

theorem get_eq_some_iff {registry : LoRARegistry} {domainId adapterId : String}
    {record : AdapterRecord} : registry.get domainId adapterId = some record ↔
      registry.get? adapterId = some record ∧ record.domainId = domainId := by
  rw [LoRARegistry.get, Option.filter_eq_some_iff, decide_eq_true_eq]

theorem outcome_serve {record : AdapterRecord} {blob : Bytes} {target : List String}
    {files : FileSystem Bytes} (hvllm : orchestrator.vllm = true)
    (hrecord : s.registry.get call.domainId call.adapterId = some record)
    (hstatus : record.status ≠ .retired) (hblob : fetchWeights call record = .ok blob)
    (hwrite : orchestrator.writeWeights call.domainId call.adapterId blob s.files = .ok target files) :
    Outcome orchestrator call s (orchestrator.serve call { s with files := files }).1
      (orchestrator.serve call { s with files := files }).2 := by
  have hreaches : orchestrator.Reaches call s :=
    ⟨hvllm, record, blob, target, files, hrecord, hstatus, hblob, hwrite⟩
  obtain ⟨hfind, hfiles⟩ := writeWeights_ok hwrite
  have hdiscard : ∀ q, ((orchestrator.discardWeights call.domainId call.adapterId).final files).file? q =
      if q = orchestrator.place call.domainId call.adapterId then none else s.files.file? q := by
    intro q
    rw [file?_discardWeights hfind, hfiles]
    by_cases hq : q = orchestrator.place call.domainId call.adapterId
    · rw [if_pos hq, if_pos hq]
    · rw [if_neg hq, if_neg hq, if_neg hq]
  rw [serve]
  cases hload : call.loadFault with
  | some e =>
    exact .loadFailed _ hreaches (hload ▸ nofun) rfl rfl hdiscard
  | none =>
    cases hregister : call.registerFault with
    | some e =>
      simp only [register, hregister]
      refine .registerFailed _ hreaches hload (hregister ▸ nofun) ?_ ?_ ?_
      · exact registry_unload _ _
      · intro id
        change Cluster.isLoaded (unload _ _ _) id = _
        rw [isLoaded_unload, isLoaded_set]
        cases call.unloadFault with
        | none => by_cases hid : id = call.adapterId <;> simp [hid, Cluster.isLoaded]
        | some e => by_cases hid : id = call.adapterId <;> simp [hid, Cluster.isLoaded]
      · intro q
        rw [← hdiscard q, discard, files_unload]
    | none =>
      have hactivate : LoRARegistry.activate s.registry call.domainId call.adapterId call.now =
          .ok (LoRARegistry.activated record call.now,
            s.registry.set call.adapterId (LoRARegistry.activated record call.now)) := by
        rw [LoRARegistry.activate, hrecord]
        exact if_neg hstatus
      simp only [register, hregister, hactivate]
      refine .served _ hload hregister ?_ ?_ ?_ ?_
      · rw [← (get_eq_some_iff.mp hrecord).2, LoRARegistry.activated]
        split <;> rfl
      · exact fun id => Dict.get?_set _ _ _ _
      · exact isLoaded_set _ _ _
      · intro q
        rw [hfiles]
        split <;> rfl

theorem outcome_activate (orchestrator : LoRAOrchestrator) (call : ActivateCall) (s : Cluster) :
    Outcome orchestrator call s (orchestrator.activate call s).1 (orchestrator.activate call s).2 := by
  have hrefused : ∀ e, ¬ orchestrator.Reaches call s →
      Outcome orchestrator call s s (.error e) :=
    fun e h => .refused e h rfl rfl fun _ => rfl
  rw [activate]
  cases hrecord : s.registry.get call.domainId call.adapterId with
  | none =>
    refine hrefused _ ?_
    rintro ⟨-, _, _, _, _, hsome, -⟩
    exact absurd (hrecord.symm.trans hsome) nofun
  | some record =>
    by_cases hstatus : record.status = .retired
    · simp only [hstatus, if_true]
      refine hrefused _ ?_
      rintro ⟨-, record', _, _, _, hsome, hnot, -⟩
      obtain rfl := Option.some.inj (hrecord.symm.trans hsome)
      exact hnot hstatus
    · cases hvllm : orchestrator.vllm with
      | false =>
        have hnot : ¬ orchestrator.Reaches call s := fun h => absurd (hvllm.symm.trans h.1) nofun
        simp only [hstatus, if_false, if_true]
        rw [register]
        split
        · exact hrefused _ hnot
        · split
          · exact hrefused _ hnot
          · exact .unserved _ hvllm
      | true =>
        simp only [hstatus, if_false, Bool.true_eq_false]
        cases hblob : fetchWeights call record with
        | error e =>
          refine hrefused _ ?_
          rintro ⟨-, record', _, _, _, hsome, -, hok, -⟩
          obtain rfl := Option.some.inj (hrecord.symm.trans hsome)
          exact absurd (hblob.symm.trans hok) nofun
        | ok blob =>
          cases hwrite : orchestrator.writeWeights call.domainId call.adapterId blob s.files with
          | error e files =>
            simp only [hwrite]
            refine .refused _ ?_ rfl rfl fun q => writeWeights_error hwrite q
            rintro ⟨-, record', blob', _, _, hsome, -, hok, hwritten⟩
            obtain rfl := Option.some.inj (hrecord.symm.trans hsome)
            obtain rfl := Except.ok.inj (hblob.symm.trans hok)
            exact absurd (hwrite.symm.trans hwritten) nofun
          | ok target files =>
            simp only [hwrite]
            exact outcome_serve hvllm hrecord hstatus hblob hwrite

/-- An activation leaves the adapter as it was when it fails, exactly when it is clean. -/
theorem atomic_iff : orchestrator.Atomic call s ↔ orchestrator.Clean s (.activate call) := by
  have houtcome := outcome_activate orchestrator call s
  rw [Atomic]
  generalize orchestrator.activate call s = r at houtcome ⊢
  obtain ⟨s', result⟩ := r
  cases houtcome with
  | refused e hnot hregistry hloaded hfiles =>
    refine ⟨fun _ hreaches => absurd hreaches hnot, fun _ _ _ => ⟨?_, ?_, ?_⟩⟩
    · exact congrArg (Dict.get? · _) hregistry
    · exact congrArg (fun loaded => (Dict.get? loaded _).isSome) hloaded
    · exact congrArg Option.isSome (hfiles _)
  | unserved record hvllm =>
    refine ⟨fun _ hreaches => ?_, fun _ => nofun⟩
    exact absurd (hvllm.symm.trans hreaches.1) nofun
  | loadFailed e hreaches hload hregistry hloaded hfiles =>
    have hgone : orchestrator.hasWeights s' call.domainId call.adapterId = false := by
      rw [hasWeights, hfiles, if_pos rfl]
      rfl
    constructor
    · intro h _
      refine ⟨fun _ => ?_, fun hnone => absurd hnone hload⟩
      rw [← (h e rfl).weights, hgone]
    · rintro h _ ⟨⟩
      refine ⟨congrArg (Dict.get? · _) hregistry,
        congrArg (fun loaded => (Dict.get? loaded _).isSome) hloaded, ?_⟩
      rw [hgone, (h hreaches).1 (.inl hload)]
  | registerFailed e hreaches hload hregister hregistry hloaded hfiles =>
    have hgone : orchestrator.hasWeights s' call.domainId call.adapterId = false := by
      rw [hasWeights, hfiles, if_pos rfl]
      rfl
    have hleft : s'.isLoaded call.adapterId = call.unloadFault.isSome := by
      rw [hloaded, if_pos rfl]
    constructor
    · intro h _
      refine ⟨fun _ => ?_, fun _ _ => ?_⟩
      · rw [← (h e rfl).weights, hgone]
      · rw [← (h e rfl).loaded, hleft]
    · rintro h _ ⟨⟩
      obtain ⟨hweights, hserved⟩ := h hreaches
      refine ⟨congrArg (Dict.get? · _) hregistry, ?_, ?_⟩
      · rw [hleft, hserved hload hregister]
      · rw [hgone, hweights (.inr hregister)]
  | served record hload hregister _ _ _ _ =>
    refine ⟨fun _ _ => ⟨?_, fun _ hnot => absurd hregister hnot⟩, fun _ => nofun⟩
    rintro (hnot | hnot)
    · exact absurd hload hnot
    · exact absurd hregister hnot

end Outcomes

section Runs

variable {orchestrator} {s s' : Cluster}

theorem Atomic.unchanged {call : ActivateCall} (h : orchestrator.Atomic call s)
    (hraised : (orchestrator.activate call s).2.isOk = false) :
    orchestrator.Unchanged call s (orchestrator.activate call s).1 := by
  cases hresult : (orchestrator.activate call s).2 with
  | error e => exact h e hresult
  | ok record =>
    rw [hresult] at hraised
    cases hraised

/-- Every active adapter has its weights in place and is loaded. -/
def Kept (orchestrator : LoRAOrchestrator) (s : Cluster) : Prop :=
  ∀ adapterId record, s.registry.get? adapterId = some record → record.status = .active →
    orchestrator.hasWeights s record.domainId adapterId = true ∧ s.isLoaded adapterId = true

theorem Kept.of_same (h : orchestrator.Kept s) (hregistry : s'.registry = s.registry)
    (hloaded : ∀ id, s'.isLoaded id = s.isLoaded id)
    (hfiles : ∀ q, (s'.files.file? q).isSome = (s.files.file? q).isSome) : orchestrator.Kept s' := by
  intro id record hrecord hactive
  rw [hasWeights, hfiles, hloaded]
  exact h id record (hregistry ▸ hrecord) hactive

/-- A row that is not active, or is gone, asks for nothing. -/
theorem Kept.of_inactive (adapterId : String) (h : orchestrator.Kept s)
    (hinactive : ∀ record, s'.registry.get? adapterId = some record → record.status ≠ .active)
    (hother : ∀ id, id ≠ adapterId → s'.registry.get? id = s.registry.get? id)
    (hloaded : ∀ id, id ≠ adapterId → s'.isLoaded id = s.isLoaded id)
    (hfiles : s'.files = s.files) : orchestrator.Kept s' := by
  intro id record hrecord hactive
  have hid : id ≠ adapterId := by
    rintro rfl
    exact hinactive record hrecord hactive
  rw [hasWeights, hfiles, hloaded id hid]
  exact h id record (hother id hid ▸ hrecord) hactive

theorem isSome_of_hasWeights {domainId adapterId : String}
    (h : orchestrator.hasWeights s domainId adapterId = false)
    (hfiles : ∀ q, s'.files.file? q =
      if q = orchestrator.place domainId adapterId then none else s.files.file? q) (q : List String) :
    (s'.files.file? q).isSome = (s.files.file? q).isSome := by
  rw [hfiles]
  split
  · rename_i hq
    rw [hq]
    exact h.symm
  · rfl

theorem Kept.activate {call : ActivateCall} (hvllm : orchestrator.vllm = true)
    (h : orchestrator.Kept s) (hclean : orchestrator.Clean s (.activate call)) :
    orchestrator.Kept (orchestrator.activate call s).1 := by
  have houtcome := outcome_activate orchestrator call s
  generalize orchestrator.activate call s = r at houtcome ⊢
  obtain ⟨s', result⟩ := r
  cases houtcome with
  | refused e hnot hregistry hloaded hfiles =>
    refine h.of_same hregistry ?_ fun q => congrArg Option.isSome (hfiles q)
    exact fun id => congrArg (fun loaded => (Dict.get? loaded id).isSome) hloaded
  | unserved record hnone => exact absurd (hvllm.symm.trans hnone) nofun
  | loadFailed e hreaches hload hregistry hloaded hfiles =>
    refine h.of_same hregistry ?_ (isSome_of_hasWeights ((hclean hreaches).1 (.inl hload)) hfiles)
    exact fun id => congrArg (fun loaded => (Dict.get? loaded id).isSome) hloaded
  | registerFailed e hreaches hload hregister hregistry hloaded hfiles =>
    obtain ⟨hweights, hserved⟩ := hclean hreaches
    refine h.of_same hregistry ?_ (isSome_of_hasWeights (hweights (.inr hregister)) hfiles)
    intro id
    rw [hloaded]
    split
    · rename_i hid
      rw [hid, hserved hload hregister]
    · rfl
  | served record hload hregister hdomain hregistry hloaded hfiles =>
    intro id record' hrecord hactive
    rw [hasWeights, hfiles, hloaded]
    rw [hregistry] at hrecord
    by_cases hid : id = call.adapterId
    · rw [if_pos hid] at hrecord ⊢
      cases hrecord
      rw [hdomain, hid]
      exact ⟨if_pos rfl, rfl⟩
    · rw [if_neg hid] at hrecord ⊢
      obtain ⟨hweights, hserved⟩ := h id record' hrecord hactive
      refine ⟨?_, hserved⟩
      split
      · rfl
      · exact hweights

theorem Kept.retire {call : RetireCall} (h : orchestrator.Kept s) :
    orchestrator.Kept (orchestrator.retire call s).1 := by
  rw [LoRAOrchestrator.retire, LoRARegistry.retire]
  cases s.registry.get call.domainId call.adapterId with
  | none => exact h
  | some record =>
    have hretired : ∀ record',
        (s.registry.set call.adapterId (LoRARegistry.retired record call.now)).get? call.adapterId =
          some record' → record'.status ≠ .active := by
      intro record' hrecord
      rw [Dict.get?_set, if_pos rfl] at hrecord
      cases hrecord
      rw [LoRARegistry.retired]
      split
      · rename_i hstatus
        rw [hstatus]
        nofun
      · nofun
    have hother : ∀ id, id ≠ call.adapterId →
        (s.registry.set call.adapterId (LoRARegistry.retired record call.now)).get? id =
          s.registry.get? id := by
      intro id hid
      rw [Dict.get?_set, if_neg hid]
    simp only
    split
    · refine h.of_inactive call.adapterId ?_ ?_ ?_ (files_unload _ _)
      · rw [registry_unload]
        exact hretired
      · rw [registry_unload]
        exact hother
      · intro id hid
        rw [isLoaded_unload, if_neg (fun hand => hid hand.1)]
        rfl
    · exact h.of_inactive call.adapterId hretired hother (fun _ _ => rfl) rfl

theorem Kept.step {op : AdapterOp} (hvllm : orchestrator.vllm = true) (h : orchestrator.Kept s)
    (hclean : orchestrator.Clean s op) : orchestrator.Kept (orchestrator.step s op) := by
  cases op with
  | upload record now =>
    rw [LoRAOrchestrator.step, LoRARegistry.upload]
    by_cases hmem : record.adapterId ∈ s.registry.keys
    · simp only [hmem, if_true]
      exact h
    · simp only [hmem, if_false]
      refine h.of_inactive record.adapterId ?_ ?_ (fun _ _ => rfl) rfl
      · intro record' hrecord
        rw [Dict.get?_set, if_pos rfl] at hrecord
        cases hrecord
        nofun
      · intro id hid
        rw [Dict.get?_set, if_neg hid]
  | activate call => exact h.activate hvllm hclean
  | retire call => exact h.retire
  | delete domainId adapterId =>
    rw [LoRAOrchestrator.step, LoRARegistry.delete]
    cases s.registry.get domainId adapterId with
    | none => exact h
    | some record =>
      by_cases hactive : record.status = .active
      · simp only [hactive, if_true]
        exact h
      · simp only [hactive, if_false]
        refine h.of_inactive adapterId ?_ ?_ (fun _ _ => rfl) rfl
        · intro record' hrecord
          rw [Dict.get?_erase, if_pos rfl] at hrecord
          cases hrecord
        · intro id hid
          rw [Dict.get?_erase, if_neg hid]

/-- A run is lawful exactly when all of its activations are clean. -/
theorem lawful_iff (orchestrator : LoRAOrchestrator) (ops : List AdapterOp) :
    orchestrator.Lawful ops ↔ Along orchestrator.step orchestrator.Clean ops start := by
  constructor
  · intro h
    refine Along.of_forall_prefix fun pre op post hops => ?_
    cases op with
    | activate call => exact atomic_iff.mp (h.atomic pre call post hops)
    | upload _ _ | retire _ | delete _ _ => trivial
  · intro h
    constructor
    · rintro pre call post rfl
      exact atomic_iff.mpr h.after.1
    · rintro hvllm earlier ⟨post, rfl⟩
      have hkept : orchestrator.Kept (orchestrator.run earlier) :=
        h.of_append.final nofun fun op _ s hs hop => Kept.step hvllm hs hop
      exact hkept

end Runs

def hrAdapter : AdapterRecord where
  adapterId := "tone"
  domainId := "hr"
  keyhubSecretRef := some "local://tone"

def activateTone (loadFault : Option Exc) : ActivateCall where
  domainId := "hr"
  adapterId := "tone"
  fetch _ := .ok [1]
  loadFault := loadFault

/-- The adapter is active when a second activation fails to load it. -/
def reload : List AdapterOp :=
  [.upload hrAdapter 1, .activate (activateTone none),
    .activate (activateTone (some ⟨"RuntimeError", "already loaded"⟩))]

theorem reload_removes_weights : ¬ (LoRAOrchestrator.mk true ["lora"]).Lawful reload := by
  intro h
  have hatomic := h.atomic [.upload hrAdapter 1, .activate (activateTone none)] _ [] rfl
  exact absurd (hatomic.unchanged (by decide +kernel)).weights (by decide +kernel)

end LoRAOrchestrator

end DomainRag.Lora
