import DomainRag.Chat.PromptStudio
import DomainRag.Lib.Program

/-! # Which edits of a prompt are used

The generator gets the first record of its task, by version and slot. An edit of another record
leaves its prompt as it is. The edits of one tenant are never seen by another.
-/

namespace DomainRag.Chat

namespace PromptPatch

variable (p : PromptPatch)

def key : RecordKey := (p.task, p.version, p.abSlot)

def order : String ×ₗ String ×ₗ String := toLex (p.task, toLex (p.version, p.abSlot))

/-- The system template that a patch makes of the record that it is made on. -/
def systemOn (old : Option PromptRecord) : String :=
  p.system.getD ((old.map PromptRecord.system).getD "")

def userOn (old : Option PromptRecord) : String :=
  p.user.getD ((old.map PromptRecord.user).getD "")

def IsEmpty : Prop := p.system.isNone ∧ p.user.isNone

end PromptPatch

namespace PromptStudioService

section Overlay

variable {studio : PromptStudioService} {runtime : PromptRuntime} {domainId task : String}
  {platform : Dict RecordKey PromptRecord}

def Keyed (records : Dict RecordKey PromptRecord) : Prop :=
  ∀ k r, records.get? k = some r → r.key = k

theorem keyed_set {records : Dict RecordKey PromptRecord} (h : Keyed records) (r : PromptRecord) :
    Keyed (records.set r.key r) := by
  intro k r' hget
  rw [Dict.get?_set] at hget
  split at hget
  · next hk =>
    cases hget
    exact hk.symm
  · exact h k r' hget

theorem keyed_platformRecords (h : studio.platformRecords = .ok platform) : Keyed platform := by
  have hfold : ∀ (files : List (Option Value)) (d d' : Dict RecordKey PromptRecord), Keyed d →
      files.foldlM studio.addFile d = .ok d' → Keyed d' := by
    intro files
    induction files with
    | nil =>
      intro d d' hd heq
      cases heq
      exact hd
    | cons file files ih =>
      intro d d' hd heq
      rw [List.foldlM_cons] at heq
      obtain ⟨d₁, hstep, heq⟩ := Except.bind_eq_ok_iff.mp heq
      refine ih d₁ d' ?_ heq
      obtain ⟨r?, -, hstep⟩ := Except.bind_eq_ok_iff.mp hstep
      cases r? with
      | none =>
        cases hstep
        exact hd
      | some r =>
        cases hstep
        exact keyed_set hd r
  exact hfold studio.files .empty platform nofun h

/-- The records that a tenant sees. -/
def overlay (platform : Dict RecordKey PromptRecord) (runtime : PromptRuntime) (domainId : String) :
    Dict RecordKey PromptRecord :=
  platform.update (runtime.records.sectionAt domainId).entries

theorem get?_overlay (k : RecordKey) : (overlay platform runtime domainId).get? k =
    (runtime.records.get? (domainId, k)).or (platform.get? k) := by
  rw [overlay, Dict.get?_update, Dict.get?_sectionAt]

def KeyedRuntime (runtime : PromptRuntime) : Prop :=
  ∀ domainId k r, runtime.records.get? (domainId, k) = some r → r.key = k

theorem keyed_overlay (hplatform : Keyed platform) (hruntime : KeyedRuntime runtime) :
    Keyed (overlay platform runtime domainId) := by
  intro k r hget
  rw [get?_overlay, Option.or_eq_some_iff] at hget
  rcases hget with hget | ⟨-, hget⟩
  · exact hruntime domainId k r hget
  · exact hplatform k r hget

theorem listTasks_eq (h : studio.platformRecords = .ok platform) :
    studio.listTasks runtime domainId = .ok ((overlay platform runtime domainId).values.insertionSort
      fun r r' => r.order ≤ r'.order) := by
  rw [listTasks, h]
  rfl

theorem key_eq_of_order_eq {r r' : PromptRecord} (h : r.order = r'.order) : r.key = r'.key := by
  simp only [PromptRecord.order, EmbeddingLike.apply_eq_iff_eq, Prod.mk.injEq] at h
  simp [PromptRecord.key, h]

theorem order_eq_of_key_eq {r r' : PromptRecord} (h : r.key = r'.key) : r.order = r'.order := by
  simp only [PromptRecord.key, Prod.mk.injEq] at h
  simp [PromptRecord.order, h]

theorem head?_filter_values {records : Dict RecordKey PromptRecord} (hkeyed : Keyed records)
    {p : PromptRecord → Bool} {r : PromptRecord} :
    ((records.values.insertionSort fun r r' => r.order ≤ r'.order).filter p).head? = some r ↔
      records.get? r.key = some r ∧ p r = true ∧
        ∀ r', records.get? r'.key = some r' → p r' = true → r.order ≤ r'.order := by
  have hmem : ∀ r, r ∈ records.values ↔ records.get? r.key = some r := by
    intro r
    rw [Dict.mem_values_iff]
    constructor
    · rintro ⟨k, hget⟩
      rwa [hkeyed k r hget]
    · intro hget
      exact ⟨r.key, hget⟩
  rw [head?_filter_insertionSort_iff]
  · simp only [hmem]
  · intro a ha b hb hab
    have hget := (hmem a).mp ha
    rw [key_eq_of_order_eq hab, (hmem b).mp hb] at hget
    exact (Option.some.inj hget).symm

structure IsFirst (records : Dict RecordKey PromptRecord) (task : String) (r : PromptRecord) :
    Prop where
  stored : records.get? r.key = some r
  ofTask : r.task = task
  least : ∀ r', records.get? r'.key = some r' → r'.task = task → r.order ≤ r'.order

theorem IsFirst.unique {records : Dict RecordKey PromptRecord} {r r' : PromptRecord}
    (hr : IsFirst records task r) (hr' : IsFirst records task r') : r = r' := by
  have horder : r.order = r'.order :=
    le_antisymm (hr.least r' hr'.stored hr'.ofTask) (hr'.least r hr.stored hr.ofTask)
  have hget := hr.stored
  rw [key_eq_of_order_eq horder, hr'.stored] at hget
  exact (Option.some.inj hget).symm

theorem IsFirst.congr {records records' : Dict RecordKey PromptRecord} {r : PromptRecord}
    (hr : IsFirst records task r) (h : ∀ k, records'.get? k = records.get? k) :
    IsFirst records' task r where
  stored := by rw [h, hr.stored]
  ofTask := hr.ofTask
  least := fun r' hr' => hr.least r' (h _ ▸ hr')

theorem exists_isFirst {records : Dict RecordKey PromptRecord} (hkeyed : Keyed records)
    {r : PromptRecord} (hr : records.get? r.key = some r) :
    ∃ first, IsFirst records r.task first := by
  cases hhead : ((records.values.insertionSort fun r r' => r.order ≤ r'.order).filter
      fun r' => r'.task = r.task).head? with
  | none =>
    rw [List.head?_eq_none_iff, List.filter_eq_nil_iff] at hhead
    refine absurd (decide_eq_true rfl) (hhead r ?_)
    rw [List.mem_insertionSort, Dict.mem_values_iff]
    exact ⟨r.key, hr⟩
  | some first =>
    obtain ⟨hget, htask, hleast⟩ := (head?_filter_values hkeyed).mp hhead
    simp only [decide_eq_true_eq] at htask hleast
    exact ⟨first, hget, htask, hleast⟩

section Replace

variable {records records' : Dict RecordKey PromptRecord} {new : PromptRecord}

/-- A record is the first one where it comes before what was the first. -/
theorem isFirst_of_order_le (hkeyed : Keyed records)
    (hset : ∀ k, records'.get? k = if k = new.key then some new else records.get? k)
    (h : ∀ r, IsFirst records new.task r → new.order ≤ r.order) :
    IsFirst records' new.task new where
  stored := by rw [hset, if_pos rfl]
  ofTask := rfl
  least := by
    intro r hr htask
    rw [hset] at hr
    split at hr
    · cases hr
      exact le_rfl
    · obtain ⟨first, hfirst⟩ := exists_isFirst hkeyed hr
      rw [htask] at hfirst
      exact (h first hfirst).trans (hfirst.least r hr htask)

/-- A record that is put after the first one leaves it the first. -/
theorem IsFirst.of_order_lt {r : PromptRecord} (hr : IsFirst records task r)
    (hset : ∀ k, records'.get? k = if k = new.key then some new else records.get? k)
    (h : r.order < new.order) : IsFirst records' task r where
  stored := by
    rw [hset, if_neg, hr.stored]
    intro hkey
    exact h.ne (order_eq_of_key_eq hkey)
  ofTask := hr.ofTask
  least := by
    intro r' hr' htask
    rw [hset] at hr'
    split at hr'
    · cases hr'
      exact h.le
    · exact hr.least r' hr' htask

end Replace

theorem getPrompt_task (h : studio.platformRecords = .ok platform)
    (hruntime : KeyedRuntime runtime) (domainId task : String) :
    ∃ first?, studio.getPrompt runtime domainId task = .ok first? ∧
      ∀ r, first? = some r ↔ IsFirst (overlay platform runtime domainId) task r := by
  have hkeyed : Keyed (overlay platform runtime domainId) :=
    keyed_overlay (keyed_platformRecords h) hruntime
  rw [getPrompt, listTasks_eq h]
  refine ⟨_, rfl, ?_⟩
  intro r
  rw [head?_filter_values hkeyed]
  simp only [decide_eq_true_eq]
  constructor
  · rintro ⟨hget, htask, hleast⟩
    exact ⟨hget, htask, hleast⟩
  · rintro ⟨hget, htask, hleast⟩
    exact ⟨hget, htask, hleast⟩

theorem getPrompt_key (h : studio.platformRecords = .ok platform)
    (hruntime : KeyedRuntime runtime) (domainId task version abSlot : String) :
    studio.getPrompt runtime domainId task (some version) (some abSlot) =
      .ok ((overlay platform runtime domainId).get? (task, version, abSlot)) := by
  have hkeyed : Keyed (overlay platform runtime domainId) :=
    keyed_overlay (keyed_platformRecords h) hruntime
  rw [getPrompt, listTasks_eq h]
  refine congrArg Except.ok (Option.ext fun r => ?_)
  simp only [List.filter_filter]
  rw [head?_filter_values hkeyed]
  simp only [Bool.and_eq_true, decide_eq_true_eq]
  constructor
  · rintro ⟨hget, ⟨hslot, hversion, htask⟩, -⟩
    rwa [PromptRecord.key, hslot, hversion, htask] at hget
  · intro hget
    have hkey := hkeyed _ r hget
    have hparts := hkey
    simp only [PromptRecord.key, Prod.mk.injEq] at hparts
    refine ⟨by rwa [hkey], ⟨hparts.2.2, hparts.2.1, hparts.1⟩, ?_⟩
    rintro r' hget' ⟨hslot, hversion, htask⟩
    have hkey' : r'.key = (task, version, abSlot) := by
      rw [PromptRecord.key, htask, hversion, hslot]
    rw [hkey', hget, Option.some.injEq] at hget'
    rw [hget']

/-- The prompt that the generator obtains has the templates of the first record of its task. -/
theorem obtained_of_isFirst (h : studio.platformRecords = .ok platform)
    (hruntime : KeyedRuntime runtime) {r : PromptRecord}
    (hr : IsFirst (overlay platform runtime domainId) "chat_answer" r)
    (service : GenerationService) :
    studio.obtained service runtime domainId =
      { system := r.system, user := r.user, responseSchema := service.prompt.responseSchema } := by
  obtain ⟨first?, hget, hfirst⟩ := getPrompt_task h hruntime domainId "chat_answer"
  rw [(hfirst r).mpr hr] at hget
  simp only [obtained, GenerationService.effectivePrompt, buildPromptProvider, hget]
  rfl

/-- The prompt of a tenant depends on the records of this tenant alone. -/
theorem obtained_congr {runtime' : PromptRuntime}
    (hsection : ∀ k, runtime'.records.get? (domainId, k) = runtime.records.get? (domainId, k))
    (h : studio.platformRecords = .ok platform) (hruntime : KeyedRuntime runtime)
    (hruntime' : KeyedRuntime runtime') (service : GenerationService) :
    studio.obtained service runtime' domainId = studio.obtained service runtime domainId := by
  obtain ⟨first, hget, hfirst⟩ := getPrompt_task h hruntime domainId "chat_answer"
  obtain ⟨first', hget', hfirst'⟩ := getPrompt_task h hruntime' domainId "chat_answer"
  have hrecords : ∀ k, (overlay platform runtime' domainId).get? k =
      (overlay platform runtime domainId).get? k := by
    intro k
    rw [get?_overlay, get?_overlay, hsection]
  have hsame : first' = first := by
    ext r
    rw [hfirst, hfirst']
    exact ⟨fun hr => hr.congr fun k => (hrecords k).symm, fun hr => hr.congr hrecords⟩
  simp only [obtained, GenerationService.effectivePrompt, buildPromptProvider, hget, hget', hsame]

end Overlay

section Patching

variable {studio : PromptStudioService} {runtime : PromptRuntime} {p : PromptPatch}
  {platform : Dict RecordKey PromptRecord}

theorem revise_eq_ok (h : studio.platformRecords = .ok platform) (hruntime : KeyedRuntime runtime)
    {old : Option PromptRecord} {new : PromptRecord}
    (hrevise : studio.revise runtime p = .ok (old, new)) :
    old = (overlay platform runtime p.domainId).get? p.key ∧ new.key = p.key ∧
      new.system = p.systemOn old ∧ new.user = p.userOn old := by
  rw [revise] at hrevise
  split at hrevise
  · cases hrevise
  · obtain ⟨existing, hexisting, hrevise⟩ := Except.bind_eq_ok_iff.mp hrevise
    rw [getPrompt_key h hruntime, Except.ok.injEq] at hexisting
    cases hrevise
    refine ⟨hexisting.symm, ?_, ?_, ?_⟩
    · cases old with
      | none => rfl
      | some r => exact keyed_overlay (keyed_platformRecords h) hruntime _ r hexisting
    · cases old <;> rfl
    · cases old <;> rfl

theorem patch_eq_ok {change : PromptChangeRecord} {runtime' : PromptRuntime}
    (hpatch : studio.patch runtime p = .ok (change, runtime')) :
    ∃ old new, studio.revise runtime p = .ok (old, new) ∧
      runtime'.records = runtime.records.set (p.domainId, p.key) new := by
  obtain ⟨⟨old, new⟩, hrevise, hpatch⟩ := Except.bind_eq_ok_iff.mp hpatch
  cases hpatch
  exact ⟨old, new, hrevise, rfl⟩

theorem platformRecords_of_revise {old : Option PromptRecord} {new : PromptRecord}
    (hrevise : studio.revise runtime p = .ok (old, new)) :
    ∃ platform, studio.platformRecords = .ok platform := by
  rw [revise] at hrevise
  split at hrevise
  · cases hrevise
  · obtain ⟨existing, hexisting, -⟩ := Except.bind_eq_ok_iff.mp hrevise
    obtain ⟨records, hrecords, -⟩ := Except.bind_eq_ok_iff.mp hexisting
    obtain ⟨platform, hplatform, -⟩ := Except.bind_eq_ok_iff.mp hrecords
    exact ⟨platform, hplatform⟩

theorem patch_of_revise {old : Option PromptRecord} {new : PromptRecord}
    (hrevise : studio.revise runtime p = .ok (old, new)) :
    ∃ change runtime', studio.patch runtime p = .ok (change, runtime') ∧
      runtime'.records = runtime.records.set (p.domainId, p.key) new := by
  rw [patch, hrevise]
  exact ⟨_, _, rfl, rfl⟩

theorem keyed_of_patch (hruntime : KeyedRuntime runtime) {change : PromptChangeRecord}
    {runtime' : PromptRuntime} (hpatch : studio.patch runtime p = .ok (change, runtime')) :
    KeyedRuntime runtime' := by
  obtain ⟨old, new, hrevise, hrecords⟩ := patch_eq_ok hpatch
  obtain ⟨platform, hplatform⟩ := platformRecords_of_revise hrevise
  intro domainId k r hget
  rw [hrecords, Dict.get?_set] at hget
  split at hget
  · next hk =>
    cases hget
    rw [(revise_eq_ok hplatform hruntime hrevise).2.1]
    exact (congrArg Prod.snd hk).symm
  · exact hruntime domainId k r hget

variable (studio) in
/-- The state after a patch. One that raises leaves the state as it is. -/
def after (runtime : PromptRuntime) (p : PromptPatch) : PromptRuntime :=
  match studio.patch runtime p with
  | .ok (_, runtime') => runtime'
  | .error _ => runtime

theorem keyed_after (hruntime : KeyedRuntime runtime) (p : PromptPatch) :
    KeyedRuntime (studio.after runtime p) := by
  unfold after
  split
  · next hpatch => exact keyed_of_patch hruntime hpatch
  · exact hruntime

/-- What a patch puts over the records of its own tenant, it does not put over those of another. -/
theorem get?_overlay_patch {runtime' : PromptRuntime} {new : PromptRecord}
    (hrecords : runtime'.records = runtime.records.set (p.domainId, p.key) new) (k : RecordKey) :
    (overlay platform runtime' p.domainId).get? k =
      if k = p.key then some new else (overlay platform runtime p.domainId).get? k := by
  rw [get?_overlay, get?_overlay, hrecords, Dict.get?_set]
  by_cases hk : k = p.key
  · simp [hk]
  · simp [hk]

variable (studio) in
/-- Right after a patch of the task that the generator asks for, the tenant's prompt is the patched
one, and the prompt of every other tenant is what it was. -/
def InForce (service : GenerationService) (runtime : PromptRuntime) (p : PromptPatch) : Prop :=
  ∀ old change runtime',
    studio.getPrompt runtime p.domainId p.task (some p.version) (some p.abSlot) = .ok old →
    studio.patch runtime p = .ok (change, runtime') →
      (p.task = "chat_answer" →
        (studio.obtained service runtime' p.domainId).system = p.systemOn old ∧
          (studio.obtained service runtime' p.domainId).user = p.userOn old) ∧
      ∀ domainId, domainId ≠ p.domainId →
        studio.obtained service runtime' domainId = studio.obtained service runtime domainId

variable (studio) in
/-- The record that the generator gets for the tenant does not come before the patched one, or it
already has the patched templates. -/
def Reaches (runtime : PromptRuntime) (p : PromptPatch) : Prop :=
  p.task = "chat_answer" → ¬ p.IsEmpty → ∀ platform, studio.platformRecords = .ok platform →
    ∀ first, IsFirst (overlay platform runtime p.domainId) "chat_answer" first →
      p.order ≤ first.order ∨
        first.system = p.systemOn ((overlay platform runtime p.domainId).get? p.key) ∧
          first.user = p.userOn ((overlay platform runtime p.domainId).get? p.key)

theorem order_eq_of_key_eq_patch {r : PromptRecord} (h : r.key = p.key) : r.order = p.order := by
  simp only [PromptRecord.key, PromptPatch.key, Prod.mk.injEq] at h
  simp [PromptRecord.order, PromptPatch.order, h]

theorem obtained_patch_iff (service : GenerationService) {old : Option PromptRecord}
    {new : PromptRecord} {runtime' : PromptRuntime} (h : studio.platformRecords = .ok platform)
    (hruntime : KeyedRuntime runtime) (hruntime' : KeyedRuntime runtime')
    (hrevise : studio.revise runtime p = .ok (old, new))
    (hrecords : runtime'.records = runtime.records.set (p.domainId, p.key) new)
    (htask : p.task = "chat_answer") :
    (studio.obtained service runtime' p.domainId).system = new.system ∧
        (studio.obtained service runtime' p.domainId).user = new.user ↔
      ∀ first, IsFirst (overlay platform runtime p.domainId) "chat_answer" first →
        new.order ≤ first.order ∨ first.system = new.system ∧ first.user = new.user := by
  obtain ⟨-, hkey, -⟩ := revise_eq_ok h hruntime hrevise
  have hset : ∀ k, (overlay platform runtime' p.domainId).get? k =
      if k = new.key then some new else (overlay platform runtime p.domainId).get? k := by
    rw [hkey]
    exact get?_overlay_patch hrecords
  have hnew : new.task = "chat_answer" := (congrArg Prod.fst hkey).trans htask
  by_cases hbefore : ∃ first, IsFirst (overlay platform runtime p.domainId) "chat_answer" first ∧
      first.order < new.order
  · obtain ⟨first, hfirst, hlt⟩ := hbefore
    rw [obtained_of_isFirst h hruntime' (hfirst.of_order_lt hset hlt)]
    constructor
    · intro hsame first' hfirst'
      rw [hfirst'.unique hfirst]
      exact .inr hsame
    · intro hall
      exact (hall first hfirst).resolve_left hlt.not_ge
  · have hle : ∀ first, IsFirst (overlay platform runtime p.domainId) "chat_answer" first →
        new.order ≤ first.order := by
      intro first hfirst
      by_contra hlt
      exact hbefore ⟨first, hfirst, not_le.mp hlt⟩
    have hkeyed : Keyed (overlay platform runtime p.domainId) :=
      keyed_overlay (keyed_platformRecords h) hruntime
    have hfirst := isFirst_of_order_le hkeyed hset (hnew ▸ hle)
    rw [hnew] at hfirst
    rw [obtained_of_isFirst h hruntime' hfirst]
    exact ⟨fun _ first hfirst => .inl (hle first hfirst), fun _ => ⟨rfl, rfl⟩⟩

theorem revise_of_not_isEmpty {old : Option PromptRecord} (hempty : ¬ p.IsEmpty)
    (hget : studio.getPrompt runtime p.domainId p.task (some p.version) (some p.abSlot) = .ok old) :
    ∃ new, studio.revise runtime p = .ok (old, new) := by
  unfold PromptPatch.IsEmpty at hempty
  rw [revise, if_neg hempty, hget]
  exact ⟨_, rfl⟩

theorem not_isEmpty_of_revise {old : Option PromptRecord} {new : PromptRecord}
    (hrevise : studio.revise runtime p = .ok (old, new)) : ¬ p.IsEmpty := by
  rw [revise] at hrevise
  split at hrevise
  · cases hrevise
  · assumption

theorem inForce_iff_reaches (hruntime : KeyedRuntime runtime) (service : GenerationService) :
    studio.InForce service runtime p ↔ studio.Reaches runtime p := by
  constructor
  · intro h htask hempty platform hplatform first hfirst
    have hget := getPrompt_key hplatform hruntime p.domainId p.task p.version p.abSlot
    obtain ⟨new, hrevise⟩ := revise_of_not_isEmpty hempty hget
    obtain ⟨change, runtime', hpatch, hrecords⟩ := patch_of_revise hrevise
    obtain ⟨-, hkey, hsystem, huser⟩ := revise_eq_ok hplatform hruntime hrevise
    obtain ⟨hforce, -⟩ := h _ change runtime' hget hpatch
    have hforce := hforce htask
    rw [← hsystem, ← huser, obtained_patch_iff service hplatform hruntime
      (keyed_of_patch hruntime hpatch) hrevise hrecords htask] at hforce
    rw [PromptPatch.key, ← hsystem, ← huser, ← order_eq_of_key_eq_patch hkey]
    exact hforce first hfirst
  · intro h old change runtime' hget hpatch
    obtain ⟨old', new, hrevise, hrecords⟩ := patch_eq_ok hpatch
    obtain ⟨platform, hplatform⟩ := platformRecords_of_revise hrevise
    obtain ⟨hold, hkey, hsystem, huser⟩ := revise_eq_ok hplatform hruntime hrevise
    have hruntime' := keyed_of_patch hruntime hpatch
    constructor
    · intro htask
      rw [getPrompt_key hplatform hruntime, Except.ok.injEq] at hget
      have hsame : old' = old := hold.trans hget
      rw [← hsame, ← hsystem, ← huser,
        obtained_patch_iff service hplatform hruntime hruntime' hrevise hrecords htask]
      intro first hfirst
      rw [order_eq_of_key_eq_patch hkey, hsystem, huser, hold]
      exact h htask (not_isEmpty_of_revise hrevise) platform hplatform first hfirst
    · intro domainId hne
      refine obtained_congr ?_ hplatform hruntime hruntime' service
      intro k
      rw [hrecords, Dict.get?_set, if_neg fun hk => hne (congrArg Prod.fst hk)]

end Patching

/-- Exactly the runs whose patches all reach the generator have every patch in force. -/
theorem along_inForce_iff (studio : PromptStudioService) (service : GenerationService)
    (ps : List PromptPatch) :
    Along studio.after (studio.InForce service) ps {} ↔ Along studio.after studio.Reaches ps {} := by
  have hempty : KeyedRuntime {} := nofun
  constructor
  · intro h
    refine h.of_invariant hempty ?_
    intro p _ runtime hruntime hforce
    exact ⟨keyed_after hruntime p, (inForce_iff_reaches hruntime service).mp hforce⟩
  · intro h
    refine h.of_invariant hempty ?_
    intro p _ runtime hruntime hreaches
    exact ⟨keyed_after hruntime p, (inForce_iff_reaches hruntime service).mpr hreaches⟩

/-- The prompt of the platform stands under v1, before an edit that is made under v2. -/
theorem edit_under_v2_not_in_force :
    ¬ ∀ (studio : PromptStudioService) (service : GenerationService) (ps : List PromptPatch),
      Along studio.after (studio.InForce service) ps {} := by
  intro h
  let studio : PromptStudioService :=
    { files := [some (.dict [("name", .str "chat_answer"), ("version", .str "v1"),
        ("ab_slot", .str "control"), ("system", .str "S"), ("user", .str "U")])]
      repr := fun _ => "" }
  let service : GenerationService :=
    { prompt := { system := "S", user := "U", responseSchema := .null }
      model := "m"
      render := fun template _ => .ok template
      llm := fun _ => .ok ""
      loads := fun _ => .ok .null }
  let p : PromptPatch :=
    { domainId := "t", task := "chat_answer", version := "v2", abSlot := "control"
      system := some "edited" }
  have hobtained : (studio.obtained service (studio.after {} p) "t").system = "S" := by
    decide +kernel
  have hget : (studio.getPrompt {} "t" "chat_answer" (some "v2") (some "control")).toBool := by
    decide +kernel
  have hpatch : (studio.patch {} p).toBool := by decide +kernel
  cases hold : studio.getPrompt {} "t" "chat_answer" (some "v2") (some "control") with
  | error => simp [hold, Except.toBool] at hget
  | ok old =>
    cases hnew : studio.patch {} p with
    | error => simp [hnew, Except.toBool] at hpatch
    | ok new =>
      have hafter : studio.after {} p = new.2 := by rw [after, hnew]
      have hforce := ((h studio service [p]).1 old new.1 new.2 hold hnew).1 rfl
      rw [← hafter, hobtained] at hforce
      exact absurd hforce.1 (by decide +kernel : "S" ≠ "edited")

end PromptStudioService

end DomainRag.Chat
