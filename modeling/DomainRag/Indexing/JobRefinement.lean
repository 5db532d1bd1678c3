import DomainRag.Indexing.PostgresJobs

/-! # The two job tables

For a privileged role `PostgresIndexingJobRepository` does what the repository in memory does, as
long as no call makes a second job of a document version active. The index refuses such a call,
which the repository in memory carries out.
-/

namespace DomainRag.Indexing

open Store

inductive JobCall where
  | create (job : IndexingJobRecord)
  | update (jobId : String) (patch : JobPatch)
  | get (jobId : String)
  | listByTenant (domainId : String) (status : Option JobStatus) (limit offset : Nat)

/-- What a call returns or raises: the conflict names a job, and `integrity` is the error of the
database itself. -/
inductive CallAnswer where
  | done
  | conflict (jobId : String)
  | integrity
  | unknown (jobId : String)
  | job (job : Option IndexingJobRecord)
  | jobs (jobs : List IndexingJobRecord)

/-- An update of an unknown job is an error in memory, and is passed over in the database. -/
inductive SameAnswer : CallAnswer → CallAnswer → Prop
  | same (answer : CallAnswer) : SameAnswer answer answer
  | ignored (jobId : String) : SameAnswer (.unknown jobId) .done

namespace PostgresIndexingJobRepository

variable (repo : PostgresIndexingJobRepository)

def call (rows : List IndexingJobRecord) : JobCall → CallAnswer × List IndexingJobRecord
  | .create job =>
    match indexingJobs.insert (repo.session.of job.domainId) job rows with
    | .ok rows' => (.done, rows')
    | .error _ =>
      match repo.findActiveJobId (jobDoc job) rows with
      | some jobId => (.conflict jobId, rows)
      | none => (.integrity, rows)
  | .update jobId patch =>
    match repo.update jobId patch rows with
    | .ok rows' => (.done, rows')
    | .error _ => (.integrity, rows)
  | .get jobId => (.job (repo.get jobId rows), rows)
  | .listByTenant domainId status limit offset =>
    (.jobs (repo.listByTenant domainId status limit offset rows), rows)

def callAll (rows : List IndexingJobRecord) : List JobCall →
    List CallAnswer × List IndexingJobRecord
  | [] => ([], rows)
  | c :: calls => ((repo.call rows c).1 :: (callAll (repo.call rows c).2 calls).1,
    (callAll (repo.call rows c).2 calls).2)

end PostgresIndexingJobRepository

/-- The active job that stands in the way of a new one. -/
def activeJob? (j : JobRepository) (job : IndexingJobRecord) : Option IndexingJobRecord :=
  j.jobs.values.find? fun existing => existing.domainId = job.domainId
    ∧ existing.docId = job.docId ∧ existing.docVersion = job.docVersion
    ∧ existing.status.active

def memoryCall (j : JobRepository) : JobCall → CallAnswer × JobRepository
  | .create job =>
    match j.create job with
    | .ok j' => (.done, j')
    | .error _ => (.conflict ((activeJob? j job).elim "" IndexingJobRecord.jobId), j)
  | .update jobId patch =>
    match j.update jobId patch with
    | .ok j' => (.done, j')
    | .error _ => (.unknown jobId, j)
  | .get jobId => (.job (j.get jobId), j)
  | .listByTenant domainId status limit offset =>
    (.jobs (j.listByTenant domainId status limit offset), j)

def memoryCallAll (j : JobRepository) : List JobCall → List CallAnswer × JobRepository
  | [] => ([], j)
  | c :: calls => ((memoryCall j c).1 :: (memoryCallAll (memoryCall j c).2 calls).1,
    (memoryCallAll (memoryCall j c).2 calls).2)

/-- The two tables hold the same jobs, in the order in which they were registered. -/
structure HoldsSame (j : JobRepository) (rows : List IndexingJobRecord) : Prop where
  order : j.jobs.values = rows
  mem : ∀ id job, j.get id = some job ↔ job ∈ rows ∧ job.jobId = id
  nodup : (rows.map IndexingJobRecord.jobId).Nodup

section HoldsSame

variable {j : JobRepository} {rows : List IndexingJobRecord}

theorem HoldsSame.get_jobId (h : HoldsSame j rows) {job : IndexingJobRecord} (hjob : job ∈ rows) :
    j.get job.jobId = some job := (h.mem job.jobId job).mpr ⟨hjob, rfl⟩

theorem HoldsSame.eq_of_jobId (h : HoldsSame j rows) {job job' : IndexingJobRecord} (hjob : job ∈ rows)
    (hjob' : job' ∈ rows) (hid : job.jobId = job'.jobId) : job = job' := by
  have hget := h.get_jobId hjob
  rw [hid, h.get_jobId hjob', Option.some.injEq] at hget
  exact hget.symm

theorem HoldsSame.notMem (h : HoldsSame j rows) {id : String} (hget : j.get id = none) :
    ∀ job ∈ rows, job.jobId ≠ id := by
  rintro job hjob rfl
  rw [h.get_jobId hjob] at hget
  cases hget

theorem HoldsSame.consistent_iff (h : HoldsSame j rows) :
    indexingJobs.Consistent rows ↔ OneActive j := by
  constructor
  · intro hconsistent id₁ id₂ job₁ job₂ h₁ h₂ ha₁ ha₂ hdoc
    obtain ⟨hjob₁, rfl⟩ := (h.mem id₁ job₁).mp h₁
    obtain ⟨hjob₂, rfl⟩ := (h.mem id₂ job₂).mp h₂
    rw [hconsistent.eq_of_clash hjob₁ hjob₂ (by simp [indexingJobs, hdoc, ha₁, ha₂])]
  · intro hone
    have hdistinct : rows.Pairwise fun job job' => job.jobId ≠ job'.jobId :=
      List.pairwise_map.mp h.nodup
    apply List.Pairwise.imp_of_mem _ hdistinct
    intro job job' hjob hjob' hne
    by_contra hclash
    rw [Bool.not_eq_false] at hclash
    simp only [indexingJobs, Bool.or_eq_true, Bool.and_eq_true, decide_eq_true_eq] at hclash
    rcases hclash with hid | ⟨⟨hdoc, ha⟩, ha'⟩
    · exact hne hid
    · exact hne (hone _ _ job job' (h.get_jobId hjob) (h.get_jobId hjob') ha ha' hdoc)

theorem HoldsSame.find? (h : HoldsSame j rows) (id : String) :
    (rows.filter fun job => job.jobId = id).head? = j.get id := by
  cases hget : j.get id with
  | none =>
    rw [List.head?_eq_none_iff, List.filter_eq_nil_iff]
    intro job hjob
    rw [decide_eq_true_eq]
    exact h.notMem hget job hjob
  | some job =>
    obtain ⟨hjob, hid⟩ := (h.mem id job).mp hget
    have hmem : job ∈ rows.filter fun job => job.jobId = id := by
      rw [List.mem_filter, decide_eq_true_eq]
      exact ⟨hjob, hid⟩
    obtain ⟨first, hfirst⟩ := Option.isSome_iff_exists.mp
      (List.isSome_head?.mpr (List.ne_nil_of_mem hmem))
    obtain ⟨hrow, hrowId⟩ := List.mem_filter.mp (List.mem_of_head? hfirst)
    rw [hfirst, h.eq_of_jobId hrow hjob ((of_decide_eq_true hrowId).trans hid.symm)]

end HoldsSame

section Calls

variable {repo : PostgresIndexingJobRepository} {j : JobRepository}
  {rows : List IndexingJobRecord}

theorem create_eq (job : IndexingJobRecord) : j.create job =
    match activeJob? j job with
    | some existing => .error ⟨"IndexingConflictError",
        s!"active indexing job already exists: {existing.jobId}"⟩
    | none => .ok ⟨j.jobs.set job.jobId job⟩ := rfl

theorem of_activeJob? {job existing : IndexingJobRecord} (h : HoldsSame j rows)
    (hfind : activeJob? j job = some existing) :
    existing ∈ rows ∧ jobDoc existing = jobDoc job ∧ existing.status.active = true := by
  have hvalue := List.mem_of_find?_eq_some hfind
  have hmatch := List.find?_some hfind
  simp only [decide_eq_true_eq] at hmatch
  obtain ⟨hdomain, hdoc, hversion, hactive⟩ := hmatch
  obtain ⟨id, hid⟩ := Dict.mem_values_iff.mp hvalue
  refine ⟨((h.mem id existing).mp hid).1, ?_, hactive⟩
  rw [jobDoc, jobDoc, hdomain, hdoc, hversion]

theorem HoldsSame.create {job : IndexingJobRecord} {j' : JobRepository} (h : HoldsSame j rows)
    (hfresh : j.get job.jobId = none) (hcreate : j.create job = .ok j') :
    HoldsSame j' (rows ++ [job]) := by
  have hget := get_of_create hcreate
  have hnew := h.notMem hfresh
  have horder : j'.jobs.values = rows ++ [job] := by
    rw [create_eq] at hcreate
    split at hcreate
    · cases hcreate
    · cases hcreate
      rw [Dict.values_set_of_new hfresh, h.order]
  refine ⟨horder, fun id job' => ?_, ?_⟩
  · rw [hget, List.mem_append, List.mem_singleton]
    by_cases hid : id = job.jobId
    · rw [if_pos hid, Option.some.injEq]
      constructor
      · rintro rfl
        exact ⟨Or.inr rfl, hid.symm⟩
      · rintro ⟨hjob' | rfl, hid'⟩
        · exact absurd (hid'.trans hid) (hnew job' hjob')
        · rfl
    · rw [if_neg hid, h.mem]
      constructor
      · rintro ⟨hjob', hid'⟩
        exact ⟨Or.inl hjob', hid'⟩
      · rintro ⟨hjob' | rfl, hid'⟩
        · exact ⟨hjob', hid'⟩
        · exact absurd hid'.symm hid
  · rw [List.map_append, List.nodup_append]
    refine ⟨h.nodup, List.nodup_singleton _, ?_⟩
    rintro id hid id' hid' rfl
    obtain ⟨job', hjob', rfl⟩ := List.mem_map.mp hid
    exact hnew job' hjob' (List.mem_singleton.mp hid')

/-- The rows after an update that reached the job. -/
def patched (id : String) (patch : JobPatch) (rows : List IndexingJobRecord) :
    List IndexingJobRecord :=
  rows.map fun job => if job.jobId = id then patch.apply job else job

theorem jobId_patched (id : String) (patch : JobPatch) (row : IndexingJobRecord) :
    (if row.jobId = id then patch.apply row else row).jobId = row.jobId := by
  split <;> rfl

theorem HoldsSame.values_set {id : String} {patch : JobPatch} {job : IndexingJobRecord}
    (h : HoldsSame j rows) (hjob : j.get id = some job) :
    (j.jobs.set id (patch.apply job)).values = patched id patch rows := by
  obtain ⟨hmem, hid⟩ := (h.mem id job).mp hjob
  rw [Dict.values_set_of_known hjob, patched, ← h.order, Dict.values, List.map_map]
  refine List.map_congr_left fun e he => ?_
  have hentry := (h.mem e.1 e.2).mp (Dict.get?_eq_some_iff.mpr he)
  simp only [Function.comp_apply, hentry.2]
  by_cases hkey : e.1 = id
  · rw [if_pos hkey, if_pos hkey]
    congr 1
    exact h.eq_of_jobId hmem hentry.1 (hid.trans (hkey.symm.trans hentry.2.symm))
  · rw [if_neg hkey, if_neg hkey]

theorem HoldsSame.set {id : String} {patch : JobPatch} {j' : JobRepository} (h : HoldsSame j rows)
    (hupdate : j.update id patch = .ok j') :
    HoldsSame j' (patched id patch rows) := by
  obtain ⟨job, hjob, rfl⟩ := exists_of_update hupdate
  obtain ⟨hmem, hid⟩ := (h.mem id job).mp hjob
  refine ⟨h.values_set hjob, fun id' job' => ?_, ?_⟩
  · rw [JobRepository.get, Dict.get?_set, patched, List.mem_map]
    by_cases hid' : id' = id
    · rw [if_pos hid', Option.some.injEq]
      constructor
      · rintro rfl
        exact ⟨⟨job, hmem, if_pos hid⟩, hid.trans hid'.symm⟩
      · rintro ⟨⟨row, hrow, rfl⟩, hrowId⟩
        rw [jobId_patched] at hrowId
        have hrowId' := hrowId.trans hid'
        rw [if_pos hrowId', h.eq_of_jobId hrow hmem (hrowId'.trans hid.symm)]
    · rw [if_neg hid']
      have hget : j.jobs.get? id' = some job' ↔ job' ∈ rows ∧ job'.jobId = id' := h.mem id' job'
      rw [hget]
      constructor
      · rintro ⟨hjob', hjobId⟩
        exact ⟨⟨job', hjob', if_neg fun heq => hid' (hjobId.symm.trans heq)⟩, hjobId⟩
      · rintro ⟨⟨row, hrow, rfl⟩, hrowId⟩
        rw [jobId_patched] at hrowId
        have hne : ¬ row.jobId = id := fun heq => hid' (hrowId.symm.trans heq)
        rw [if_neg hne]
        exact ⟨hrow, hrowId⟩
  · rw [patched, List.map_map]
    have hids : (IndexingJobRecord.jobId ∘ fun job =>
        if job.jobId = id then patch.apply job else job) = IndexingJobRecord.jobId :=
      funext (jobId_patched id patch)
    rw [hids]
    exact h.nodup

theorem call_create (hbypass : repo.session.bypass = true) (h : HoldsSame j rows)
    (hone : OneActive j) {job : IndexingJobRecord} (hactive : job.status.active = true)
    (hfresh : j.get job.jobId = none) :
    (memoryCall j (.create job)).1 = (repo.call rows (.create job)).1 ∧
      OneActive (memoryCall j (.create job)).2 ∧
      HoldsSame (memoryCall j (.create job)).2 (repo.call rows (.create job)).2 := by
  have hsees : indexingJobs.sees (repo.session.of job.domainId) job = true :=
    SecuredTable.sees_of_bypass (s := repo.session.of job.domainId) hbypass job
  cases hcreate : j.create job with
  | ok j' =>
    have hfree := (free_of_create hcreate).1
    have hinsert : indexingJobs.insert (repo.session.of job.domainId) job rows =
        .ok (rows ++ [job]) := by
      refine SecuredTable.insert_eq_ok_iff.mpr ⟨hsees, fun row hrow => ?_, rfl⟩
      have hid := h.notMem hfresh row hrow
      have hdoc : row.status.active = true → jobDoc row ≠ jobDoc job :=
        hfree row.jobId row (h.get_jobId hrow)
      rw [Bool.eq_false_iff]
      intro hclash
      simp only [indexingJobs, Bool.or_eq_true, Bool.and_eq_true, decide_eq_true_eq] at hclash
      rcases hclash with hsame | ⟨⟨hsame, ha⟩, -⟩
      · exact hid hsame
      · exact hdoc ha hsame
    simp only [memoryCall, hcreate, PostgresIndexingJobRepository.call, hinsert]
    exact ⟨trivial, hone.create hcreate, h.create hfresh hcreate⟩
  | error e =>
    cases hfind : activeJob? j job with
    | none =>
      rw [create_eq, hfind] at hcreate
      cases hcreate
    | some existing =>
      obtain ⟨hrow, hdoc, ha⟩ := of_activeJob? h hfind
      have hinsert : indexingJobs.insert (repo.session.of job.domainId) job rows =
          .error .unique :=
        (SecuredTable.insert_eq_unique_iff hsees).mpr
          ⟨existing, hrow, by simp [indexingJobs, hdoc, ha, hactive]⟩
      have hlook := PostgresIndexingJobRepository.findActiveJobId_eq repo
        (h.consistent_iff.mpr hone) hrow ha
      rw [hdoc] at hlook
      simp only [memoryCall, hcreate, hfind, PostgresIndexingJobRepository.call, hinsert, hlook]
      exact ⟨rfl, hone, h⟩

theorem update_unknown (hbypass : repo.session.bypass = true) (h : HoldsSame j rows) {id : String}
    (hget : j.get id = none) (patch : JobPatch) : repo.update id patch rows = .ok rows := by
  have hnone : indexingJobs.select repo.session (fun job => job.jobId = id) rows = [] := by
    rw [SecuredTable.select_of_bypass hbypass, ← List.head?_eq_none_iff, h.find?, hget]
  rw [PostgresIndexingJobRepository.update, SecuredTable.updateFound, hnone]

theorem update_known (hbypass : repo.session.bypass = true) (h : HoldsSame j rows) {id : String}
    {patch : JobPatch} {j' : JobRepository} (hupdate : j.update id patch = .ok j') :
    repo.update id patch rows =
      if indexingJobs.Consistent (patched id patch rows) then .ok (patched id patch rows)
      else .error .unique := by
  obtain ⟨job, hjob, -⟩ := exists_of_update hupdate
  have hfirst := h.find? id
  rw [hjob, ← SecuredTable.select_of_bypass (t := indexingJobs) hbypass] at hfirst
  rw [PostgresIndexingJobRepository.update, SecuredTable.updateFound]
  have hpatched : (rows.map fun job => if (job.jobId = id : Bool) then patch.apply job else job) =
      patched id patch rows := by
    simp only [patched, decide_eq_true_eq]
  cases hselect : indexingJobs.select repo.session (fun job => job.jobId = id) rows with
  | nil =>
    rw [hselect] at hfirst
    cases hfirst
  | cons row others =>
    simp only
    rw [SecuredTable.update_of_bypass (t := indexingJobs) (s := repo.session.of _) hbypass,
      hpatched]

theorem call_update (hbypass : repo.session.bypass = true) (h : HoldsSame j rows) (id : String)
    (patch : JobPatch) (hone : OneActive (memoryCall j (.update id patch)).2) :
    SameAnswer (memoryCall j (.update id patch)).1 (repo.call rows (.update id patch)).1 ∧
      HoldsSame (memoryCall j (.update id patch)).2 (repo.call rows (.update id patch)).2 := by
  cases hget : j.get id with
  | none =>
    have hupdate : j.update id patch = .error ⟨"KeyError", s!"'job not found: {id}'"⟩ := by
      rw [JobRepository.update, show j.jobs.get? id = none from hget]
    simp only [memoryCall, hupdate, PostgresIndexingJobRepository.call,
      update_unknown hbypass h hget]
    exact ⟨.ignored id, h⟩
  | some job =>
    obtain ⟨j', hupdate⟩ := exists_update (Option.isSome_iff_exists.mpr ⟨job, hget⟩) patch
    simp only [memoryCall, hupdate] at hone
    have hconsistent := (h.set hupdate).consistent_iff.mpr hone
    simp only [memoryCall, hupdate, PostgresIndexingJobRepository.call,
      update_known hbypass h hupdate, if_pos hconsistent]
    exact ⟨.same .done, h.set hupdate⟩

/-- The index refuses the update that the table in memory should not have carried out. -/
theorem call_refused (hbypass : repo.session.bypass = true) (h : HoldsSame j rows)
    (hone : OneActive j) {c : JobCall} (hfresh : ∀ job, c = .create job →
      job.status.active = true ∧ j.get job.jobId = none) :
    (repo.call rows c).1 = .integrity ↔ ¬ OneActive (memoryCall j c).2 := by
  cases c with
  | create job =>
    obtain ⟨hactive, hnew⟩ := hfresh job rfl
    obtain ⟨hanswer, hone', -⟩ := call_create hbypass h hone hactive hnew
    constructor
    · intro hrefused
      rw [← hanswer, memoryCall] at hrefused
      split at hrefused <;> cases hrefused
    · exact fun hnot => absurd hone' hnot
  | get id => exact ⟨by rintro ⟨⟩, fun hnot => absurd hone hnot⟩
  | listByTenant domainId status limit offset =>
    exact ⟨by rintro ⟨⟩, fun hnot => absurd hone hnot⟩
  | update id patch =>
    cases hget : j.get id with
    | none =>
      have hupdate : j.update id patch = .error ⟨"KeyError", s!"'job not found: {id}'"⟩ := by
        rw [JobRepository.update, show j.jobs.get? id = none from hget]
      simp only [memoryCall, hupdate, PostgresIndexingJobRepository.call,
        update_unknown hbypass h hget]
      exact ⟨by rintro ⟨⟩, fun hnot => absurd hone hnot⟩
    | some job =>
      obtain ⟨j', hupdate⟩ := exists_update (Option.isSome_iff_exists.mpr ⟨job, hget⟩) patch
      simp only [memoryCall, hupdate, PostgresIndexingJobRepository.call,
        update_known hbypass h hupdate]
      rw [← (h.set hupdate).consistent_iff]
      by_cases hconsistent : indexingJobs.Consistent (patched id patch rows)
      · simp only [if_pos hconsistent]
        exact ⟨by rintro ⟨⟩, fun hnot => absurd hconsistent hnot⟩
      · simp only [if_neg hconsistent]
        exact ⟨fun _ => hconsistent, fun _ => trivial⟩

theorem listByTenant_eq (hbypass : repo.session.bypass = true) (h : HoldsSame j rows)
    (domainId : String) (status : Option JobStatus) (limit offset : Nat) :
    repo.listByTenant domainId status limit offset rows =
      j.listByTenant domainId status limit offset := by
  rw [PostgresIndexingJobRepository.listByTenant,
    SecuredTable.select_of_bypass (s := repo.session.of domainId) hbypass]
  unfold JobRepository.listByTenant
  rw [h.order]
  cases status with
  | none => simp only [Option.all_none, Bool.and_true]
  | some status =>
    simp only [Option.all_some, List.filter_filter, Bool.and_comm]

theorem call_agrees (hbypass : repo.session.bypass = true) (h : HoldsSame j rows)
    (hone : OneActive j) {c : JobCall} (hfresh : ∀ job, c = .create job →
      job.status.active = true ∧ j.get job.jobId = none)
    (hone' : OneActive (memoryCall j c).2) :
    SameAnswer (memoryCall j c).1 (repo.call rows c).1 ∧
      HoldsSame (memoryCall j c).2 (repo.call rows c).2 := by
  cases c with
  | create job =>
    obtain ⟨hactive, hnew⟩ := hfresh job rfl
    obtain ⟨hanswer, -, hagrees⟩ := call_create hbypass h hone hactive hnew
    rw [hanswer]
    exact ⟨.same _, hagrees⟩
  | update id patch => exact call_update hbypass h id patch hone'
  | get id =>
    have hget : repo.get id rows = j.get id := by
      rw [PostgresIndexingJobRepository.get, SecuredTable.select_of_bypass hbypass, h.find?]
    rw [PostgresIndexingJobRepository.call, hget]
    exact ⟨.same _, h⟩
  | listByTenant domainId status limit offset =>
    have hlist := listByTenant_eq hbypass h domainId status limit offset
    rw [PostgresIndexingJobRepository.call, hlist]
    exact ⟨.same _, h⟩

/-- New jobs are active and have identifiers of their own. -/
def FreshCalls (j : JobRepository) : List JobCall → Prop
  | [] => True
  | c :: calls => (∀ job, c = .create job → job.status.active = true ∧ j.get job.jobId = none) ∧
    FreshCalls (memoryCall j c).2 calls

/-- No call makes a second job of a version active. -/
def KeepsOneActive (j : JobRepository) : List JobCall → Prop
  | [] => True
  | c :: calls => OneActive (memoryCall j c).2 ∧ KeepsOneActive (memoryCall j c).2 calls

theorem callAll_agrees (hbypass : repo.session.bypass = true) {calls : List JobCall}
    (h : HoldsSame j rows) (hone : OneActive j) (hfresh : FreshCalls j calls)
    (hkeeps : KeepsOneActive j calls) :
    List.Forall₂ SameAnswer (memoryCallAll j calls).1 (repo.callAll rows calls).1 ∧
      HoldsSame (memoryCallAll j calls).2 (repo.callAll rows calls).2 ∧
      OneActive (memoryCallAll j calls).2 := by
  induction calls generalizing j rows with
  | nil => exact ⟨.nil, h, hone⟩
  | cons c calls ih =>
    obtain ⟨hnew, hfresh'⟩ := hfresh
    obtain ⟨hone', hkeeps'⟩ := hkeeps
    obtain ⟨hanswer, hagrees⟩ := call_agrees hbypass h hone hnew hone'
    obtain ⟨hanswers, hend, honeEnd⟩ := ih hagrees hone' hfresh' hkeeps'
    exact ⟨.cons hanswer hanswers, hend, honeEnd⟩

end Calls

section Crossing

open PostgresIndexingJobRepository (handbookJob)

/-- A pooled session of `domainrag_platform_admin`. -/
def adminPool : PostgresIndexingJobRepository := ⟨{ bypass := true }⟩

def emptyTable : JobRepository := ⟨.empty⟩

/-- A failed job, and a second one for the same document. -/
def crossingCalls : List JobCall :=
  [.create handbookJob, .update "J1" { status := some .failed },
    .create { handbookJob with jobId := "J2" }, .update "J9" {}, .listByTenant "hr" none 50 0]

end Crossing

end DomainRag.Indexing
