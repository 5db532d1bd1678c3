import DomainRag.Lib.RowSecurity
import DomainRag.Indexing.Exclusive

/-! # The job table in PostgreSQL

`PostgresIndexingJobRepository` sets the tenant before it writes or lists, but looks a job up by its
identifier alone before it updates or returns it. A transaction here is one session of the
repository; what any number of callers do is a list of transactions.
-/

namespace DomainRag.Indexing

open Store

/-- The table: a tenant owns its jobs, identifiers are unique, and so is the active job of a
document version. -/
def indexingJobs : SecuredTable IndexingJobRecord where
  owner job := job.domainId
  clash job job' := job.jobId = job'.jobId ||
    (jobDoc job = jobDoc job' && job.status.active && job'.status.active)
  clash_symm job job' := by
    rw [Bool.eq_iff_iff]
    simp only [Bool.or_eq_true, Bool.and_eq_true, decide_eq_true_eq]
    constructor <;> rintro (h | ⟨⟨hdoc, ha⟩, hb⟩)
    · exact Or.inl h.symm
    · exact Or.inr ⟨⟨hdoc.symm, hb⟩, ha⟩
    · exact Or.inl h.symm
    · exact Or.inr ⟨⟨hdoc.symm, hb⟩, ha⟩

/-- The repository, by the session that its pool hands out. -/
structure PostgresIndexingJobRepository where
  session : Session

inductive JobTransaction where
  | insert (job : IndexingJobRecord)
  | findActiveJobId (doc : DocKey)
  | update (jobId : String) (patch : JobPatch)
  | get (jobId : String)
  | listByTenant (domainId : String) (status : Option JobStatus) (limit offset : Nat)

/-- What a transaction asks of the table. -/
def JobTransaction.change : JobTransaction → SecuredTable.Change IndexingJobRecord
  | insert job => .insert job
  | update jobId patch => .updateFound (fun job => job.jobId = jobId) patch.apply
  | findActiveJobId _ | get _ | listByTenant .. => .read

inductive JobAnswer where
  | done
  | refused (why : SecuredTable.Refusal)
  | found (jobId : Option String)
  | job (job : Option IndexingJobRecord)
  | jobs (jobs : List IndexingJobRecord)

namespace PostgresIndexingJobRepository

variable (repo : PostgresIndexingJobRepository)

/-- The newest active job of a document version. -/
def findActiveJobId (doc : DocKey) (rows : List IndexingJobRecord) : Option String :=
  ((indexingJobs.select (repo.session.of doc.domainId)
    (fun job => jobDoc job = doc && job.status.active) rows).getLast?).map
    IndexingJobRecord.jobId

def update (jobId : String) (patch : JobPatch) (rows : List IndexingJobRecord) :
    Except SecuredTable.Refusal (List IndexingJobRecord) :=
  indexingJobs.updateFound repo.session (fun job => job.jobId = jobId) patch.apply rows

def get (jobId : String) (rows : List IndexingJobRecord) : Option IndexingJobRecord :=
  (indexingJobs.select repo.session (fun job => job.jobId = jobId) rows).head?

/-- The jobs of a tenant, newest first. -/
def listByTenant (domainId : String) (status : Option JobStatus) (limit offset : Nat)
    (rows : List IndexingJobRecord) : List IndexingJobRecord :=
  (((indexingJobs.select (repo.session.of domainId) (fun job => job.domainId = domainId &&
    status.all (job.status = ·)) rows).reverse).drop offset).take limit

def transact (rows : List IndexingJobRecord) : JobTransaction →
    JobAnswer × List IndexingJobRecord
  | .insert job =>
    match indexingJobs.insert (repo.session.of job.domainId) job rows with
    | .ok rows' => (.done, rows')
    | .error why => (.refused why, rows)
  | .findActiveJobId doc => (.found (repo.findActiveJobId doc rows), rows)
  | .update jobId patch =>
    match repo.update jobId patch rows with
    | .ok rows' => (.done, rows')
    | .error why => (.refused why, rows)
  | .get jobId => (.job (repo.get jobId rows), rows)
  | .listByTenant domainId status limit offset =>
    (.jobs (repo.listByTenant domainId status limit offset rows), rows)

/-- The table after transactions of any callers. -/
def run (rows : List IndexingJobRecord) : List JobTransaction → List IndexingJobRecord
  | [] => rows
  | transaction :: rest => run (repo.transact rows transaction).2 rest

section AppRole

variable {repo} {rows : List IndexingJobRecord}

/-- The sessions of the application role, in which no tenant is set before a transaction begins. -/
structure AppRole (repo : PostgresIndexingJobRepository) : Prop where
  ordinary : repo.session.bypass = false
  idle : repo.session.setting.getD "" = ""

def Named (rows : List IndexingJobRecord) : Prop := ∀ job ∈ rows, job.domainId ≠ ""

theorem blind_of_app (happ : repo.AppRole) (hnamed : Named rows) :
    indexingJobs.Blind repo.session rows :=
  SecuredTable.blind_of_idle happ.ordinary happ.idle hnamed

theorem update_of_app (happ : repo.AppRole) (hnamed : Named rows) (jobId : String)
    (patch : JobPatch) : repo.update jobId patch rows = .ok rows :=
  SecuredTable.updateFound_of_blind (blind_of_app happ hnamed) _ _

theorem get_of_app (happ : repo.AppRole) (hnamed : Named rows) (jobId : String) :
    repo.get jobId rows = none := by
  rw [get, SecuredTable.select_of_blind (blind_of_app happ hnamed), List.head?_nil]

theorem transact_snd (transaction : JobTransaction) :
    (repo.transact rows transaction).2 = indexingJobs.apply repo.session rows transaction.change := by
  cases transaction with
  | insert job =>
    rw [transact, JobTransaction.change, SecuredTable.apply]
    change _ = (indexingJobs.insert (repo.session.of job.domainId) job rows).toOption.getD rows
    cases indexingJobs.insert (repo.session.of job.domainId) job rows <;> rfl
  | update jobId patch =>
    rw [transact, update, JobTransaction.change, SecuredTable.apply]
    cases indexingJobs.updateFound repo.session (fun job => job.jobId = jobId) patch.apply rows <;>
      rfl
  | findActiveJobId doc => rfl
  | get jobId => rfl
  | listByTenant domainId status limit offset => rfl

theorem run_eq (transactions : List JobTransaction) :
    repo.run rows transactions =
      indexingJobs.applyAll repo.session rows (transactions.map JobTransaction.change) := by
  induction transactions generalizing rows with
  | nil => rfl
  | cons transaction rest ih => rw [run, ih, transact_snd]; rfl

theorem mem_of_change {job : IndexingJobRecord} {transactions : List JobTransaction}
    (h : .insert job ∈ transactions.map JobTransaction.change) : .insert job ∈ transactions := by
  obtain ⟨transaction, hmem, hchange⟩ := List.mem_map.mp h
  cases transaction with
  | insert job' =>
    obtain rfl := SecuredTable.Change.insert.inj hchange
    exact hmem
  | update | findActiveJobId | get | listByTenant => cases hchange

/-- What has been registered stays as it is, and only registrations come after it. -/
theorem run_of_app (happ : repo.AppRole) (transactions : List JobTransaction)
    (hnamed : Named rows) (hinserts : ∀ job, .insert job ∈ transactions → job.domainId ≠ "") :
    ∃ added, repo.run rows transactions = rows ++ added ∧
      ∀ job ∈ added, .insert job ∈ transactions := by
  obtain ⟨added, hrun, hadded⟩ := SecuredTable.applyAll_of_ordinary (t := indexingJobs)
    happ.ordinary happ.idle (transactions.map JobTransaction.change) hnamed
    fun job hjob => hinserts job (mem_of_change hjob)
  exact ⟨added, run_eq transactions ▸ hrun, fun job hjob => mem_of_change (hadded job hjob)⟩

theorem consistent_run (transactions : List JobTransaction) (h : indexingJobs.Consistent rows) :
    indexingJobs.Consistent (repo.run rows transactions) := by
  rw [run_eq]
  exact SecuredTable.consistent_applyAll _ h

theorem mem_select_of {doc : DocKey} {job : IndexingJobRecord} :
    job ∈ indexingJobs.select (repo.session.of doc.domainId)
        (fun job => jobDoc job = doc && job.status.active) rows ↔
      job ∈ rows ∧ jobDoc job = doc ∧ job.status.active = true := by
  rw [SecuredTable.select, List.mem_filter, Bool.and_eq_true, Bool.and_eq_true,
    decide_eq_true_eq]
  constructor
  · rintro ⟨hjob, -, hdoc, hactive⟩
    exact ⟨hjob, hdoc, hactive⟩
  · rintro ⟨hjob, rfl, hactive⟩
    exact ⟨hjob, SecuredTable.sees_of (t := indexingJobs) repo.session job, rfl, hactive⟩

/-- The active job of a document version is found, whoever looks for it. -/
theorem findActiveJobId_eq (repo : PostgresIndexingJobRepository) {job : IndexingJobRecord} (h : indexingJobs.Consistent rows)
    (hjob : job ∈ rows) (hactive : job.status.active = true) :
    repo.findActiveJobId (jobDoc job) rows = some job.jobId := by
  have hmem : job ∈ indexingJobs.select (repo.session.of (jobDoc job).domainId)
      (fun job' => jobDoc job' = jobDoc job && job'.status.active) rows :=
    mem_select_of.mpr ⟨hjob, rfl, hactive⟩
  rw [findActiveJobId, Option.map_eq_some_iff]
  obtain ⟨last, hlast⟩ := Option.isSome_iff_exists.mp
    (List.getLast?_isSome.mpr (List.ne_nil_of_mem hmem))
  obtain ⟨hrow, hdoc, hlive⟩ := mem_select_of.mp (List.mem_of_getLast? hlast)
  refine ⟨last, hlast, congrArg IndexingJobRecord.jobId (h.eq_of_clash hrow hjob ?_)⟩
  simp [indexingJobs, hdoc, hlive, hactive]

/-- Under the application role a registered job stays as it was registered: after any
transactions of any callers an update of it does nothing, reading it finds nothing, and the
version of its document cannot be registered again. -/
theorem registered_job_stays (happ : repo.AppRole) (hconsistent : indexingJobs.Consistent rows)
    (hnamed : Named rows) {job : IndexingJobRecord} (hjob : job ∈ rows)
    (hactive : job.status.active = true) (transactions : List JobTransaction)
    (hinserts : ∀ job, .insert job ∈ transactions → job.domainId ≠ "") :
    job ∈ repo.run rows transactions ∧
    (∀ patch, repo.transact (repo.run rows transactions) (.update job.jobId patch) =
      (.done, repo.run rows transactions)) ∧
    (repo.transact (repo.run rows transactions) (.get job.jobId)).1 = .job none ∧
    (∀ job', jobDoc job' = jobDoc job → job'.status.active = true →
      repo.transact (repo.run rows transactions) (.insert job') =
        (.refused .unique, repo.run rows transactions)) ∧
    (repo.transact (repo.run rows transactions) (.findActiveJobId (jobDoc job))).1 =
      .found (some job.jobId) := by
  obtain ⟨added, hrun, hadded⟩ := run_of_app happ transactions hnamed hinserts
  have hmem : job ∈ repo.run rows transactions := by
    rw [hrun]
    exact List.mem_append_left _ hjob
  have hnamed' : Named (repo.run rows transactions) := by
    intro job' hjob'
    rw [hrun] at hjob'
    rcases List.mem_append.mp hjob' with hjob' | hjob'
    · exact hnamed job' hjob'
    · exact hinserts job' (hadded job' hjob')
  refine ⟨hmem, ?_, ?_, ?_, ?_⟩
  · intro patch
    rw [transact, update_of_app happ hnamed']
  · rw [transact, get_of_app happ hnamed']
  · intro job' hdoc hactive'
    have hclash : indexingJobs.clash job job' = true := by
      simp [indexingJobs, hdoc, hactive, hactive']
    have hrefused : indexingJobs.insert (repo.session.of job'.domainId) job'
        (repo.run rows transactions) = .error .unique :=
      (SecuredTable.insert_eq_unique_iff (SecuredTable.sees_of (t := indexingJobs) repo.session
        job')).mpr ⟨job, hmem, hclash⟩
    rw [transact, hrefused]
  · rw [transact, findActiveJobId_eq repo (consistent_run transactions hconsistent) hmem hactive]

end AppRole

section Pool

/-- A pooled session of `domainrag_app` that has served a transaction already. -/
def pool : PostgresIndexingJobRepository := ⟨{ setting := some "" }⟩

def handbookJob : IndexingJobRecord where
  jobId := "J1"
  domainId := "d1"
  docId := "handbook"
  docVersion := "v1"

/-- The job is executed, and the document is uploaded once more. -/
def handbookTransactions : List JobTransaction :=
  [.update "J1" { status := some .parsing }, .update "J1" { status := some .completed },
    .insert { handbookJob with jobId := "J2" }, .findActiveJobId (jobDoc handbookJob)]

theorem registered_job_stays_handbook :
    handbookJob ∈ pool.run [handbookJob] handbookTransactions ∧
    (∀ patch, pool.transact (pool.run [handbookJob] handbookTransactions) (.update "J1" patch) =
      (.done, pool.run [handbookJob] handbookTransactions)) ∧
    (pool.transact (pool.run [handbookJob] handbookTransactions) (.get "J1")).1 = .job none ∧
    (∀ job', jobDoc job' = jobDoc handbookJob → job'.status.active = true →
      pool.transact (pool.run [handbookJob] handbookTransactions) (.insert job') =
        (.refused .unique, pool.run [handbookJob] handbookTransactions)) ∧
    (pool.transact (pool.run [handbookJob] handbookTransactions)
      (.findActiveJobId (jobDoc handbookJob))).1 = .found (some "J1") := by
  have hinserts : ∀ job, .insert job ∈ handbookTransactions → job.domainId ≠ "" := by
    intro job hjob
    simp only [handbookTransactions, List.mem_cons, reduceCtorEq, JobTransaction.insert.injEq,
      List.not_mem_nil, or_false, false_or] at hjob
    rw [hjob]
    decide
  exact registered_job_stays ⟨rfl, rfl⟩ (List.pairwise_singleton _ _)
    (fun job hjob => by rw [List.mem_singleton.mp hjob]; decide)
    (List.mem_singleton_self _) rfl _ hinserts

end Pool

end PostgresIndexingJobRepository

end DomainRag.Indexing
