import DomainRag.Lib.RowSecurity
import DomainRag.Evaluation.Orchestrator

/-! # The evaluation jobs in PostgreSQL

A job is promoted when it has been completed and its gate was passed, and both are written with
`PostgresEvaluationJobRepository.update`, which looks the job up before a tenant is set.
-/

namespace DomainRag.Evaluation

structure EvaluationJobPatch where
  status : Option String := none
  summary : Option Value := none
  gateResult : Option Value := none
  errorMessage : Option String := none

def EvaluationJobPatch.apply (patch : EvaluationJobPatch) (job : EvaluationJobRecord) :
    EvaluationJobRecord :=
  { job with
    status := patch.status.getD job.status
    summary := patch.summary.getD job.summary
    gateResult := patch.gateResult.getD job.gateResult
    errorMessage := patch.errorMessage.or job.errorMessage }

def evaluationJobs : SecuredTable EvaluationJobRecord where
  owner job := job.domainId
  clash job job' := job.jobId = job'.jobId
  clash_symm _ _ := decide_eq_decide.mpr eq_comm

structure PostgresEvaluationJobRepository where
  session : Session

/-- The calls of the orchestrator that reach the table. A job is created as `prepare_run` creates
it, whoever asks for it. -/
inductive EvaluationTransaction where
  | prepareRun (jobId domainId datasetName actor : String)
    (configOverride : List (String × Value))
  | update (jobId : String) (patch : EvaluationJobPatch)
  | promote (domainId jobId : String)

namespace PostgresEvaluationJobRepository

variable (repo : PostgresEvaluationJobRepository) (rows : List EvaluationJobRecord)

def create (job : EvaluationJobRecord) :
    Except SecuredTable.Refusal (List EvaluationJobRecord) :=
  evaluationJobs.insert (repo.session.of job.domainId) job rows

def update (jobId : String) (patch : EvaluationJobPatch) :
    Except SecuredTable.Refusal (List EvaluationJobRecord) :=
  evaluationJobs.updateFound repo.session (fun job => job.jobId = jobId) patch.apply rows

def get (domainId jobId : String) : Option EvaluationJobRecord :=
  (evaluationJobs.select (repo.session.of domainId)
    (fun job => job.domainId = domainId && job.jobId = jobId) rows).head?

/-- `EvaluationOrchestrator.promote`: the error that it raises, and the table after it. -/
def promote (domainId jobId : String) : Except Exc (List EvaluationJobRecord) :=
  match repo.get rows domainId jobId with
  | none => .error ⟨"FileNotFoundError", jobId⟩
  | some record =>
    if record.status ≠ "completed" ∧ record.status ≠ "promoted" then
      .error ⟨"ValueError", s!"promote requires completed status, got {record.status}"⟩
    else
      match record.gateResult.get "passed" with
      | .error e => .error e
      | .ok passed =>
        if (passed.getD .null).truthy then
          .ok ((repo.update rows jobId { status := some "promoted" }).toOption.getD rows)
        else .error ⟨"ValueError", "promotion_gate_not_passed"⟩

/-- The table after a call. -/
def after : EvaluationTransaction → List EvaluationJobRecord
  | .prepareRun jobId domainId datasetName actor configOverride =>
    (repo.create rows { jobId := jobId, domainId := domainId, datasetName := datasetName,
                        actor := actor, configOverride := configOverride }).toOption.getD rows
  | .update jobId patch => (repo.update rows jobId patch).toOption.getD rows
  | .promote domainId jobId => (repo.promote rows domainId jobId).toOption.getD rows

def run (transactions : List EvaluationTransaction) : List EvaluationJobRecord :=
  transactions.foldl repo.after rows

section AppRole

structure AppRole (repo : PostgresEvaluationJobRepository) : Prop where
  ordinary : repo.session.bypass = false
  idle : repo.session.setting.getD "" = ""

/-- The jobs that have not been looked at since they were prepared. -/
def Untouched (rows : List EvaluationJobRecord) : Prop :=
  ∀ job ∈ rows, job.domainId ≠ "" ∧ job.status = "pending"

variable {repo rows}

theorem update_of_app (happ : repo.AppRole) (h : Untouched rows) (jobId : String)
    (patch : EvaluationJobPatch) : repo.update rows jobId patch = .ok rows :=
  SecuredTable.updateFound_of_blind
    (SecuredTable.blind_of_idle happ.ordinary happ.idle fun job hjob => (h job hjob).1) _ _

theorem mem_of_get {domainId jobId : String} {job : EvaluationJobRecord}
    (h : repo.get rows domainId jobId = some job) : job ∈ rows :=
  (List.mem_filter.mp (List.mem_of_head? h)).1

/-- A job that is found is still pending, and is not promoted. -/
theorem promote_of_untouched (h : Untouched rows) (domainId jobId : String) :
    repo.promote rows domainId jobId =
      .error (match repo.get rows domainId jobId with
        | none => ⟨"FileNotFoundError", jobId⟩
        | some _ => ⟨"ValueError", "promote requires completed status, got pending"⟩) := by
  rw [promote]
  cases hget : repo.get rows domainId jobId with
  | none => rfl
  | some job =>
    have hstatus := (h job (mem_of_get hget)).2
    simp only [hstatus]
    rfl

theorem untouched_after (happ : repo.AppRole) (h : Untouched rows)
    (transaction : EvaluationTransaction)
    (hnamed : ∀ jobId domainId datasetName actor configOverride, transaction =
      .prepareRun jobId domainId datasetName actor configOverride → domainId ≠ "") :
    Untouched (repo.after rows transaction) := by
  cases transaction with
  | prepareRun jobId domainId datasetName actor configOverride =>
    rw [after]
    cases hcreate : repo.create rows _ with
    | error why => exact h
    | ok rows' =>
      obtain ⟨-, -, rfl⟩ := SecuredTable.insert_eq_ok_iff.mp hcreate
      intro job hjob
      rcases List.mem_append.mp hjob with hjob | hjob
      · exact h job hjob
      · rw [List.mem_singleton.mp hjob]
        exact ⟨hnamed _ _ _ _ _ rfl, rfl⟩
  | update jobId patch =>
    rw [after, update_of_app happ h]
    exact h
  | promote domainId jobId =>
    rw [after, promote_of_untouched h]
    exact h

theorem untouched_run (happ : repo.AppRole) (transactions : List EvaluationTransaction)
    (h : Untouched rows)
    (hnamed : ∀ jobId domainId datasetName actor configOverride,
      .prepareRun jobId domainId datasetName actor configOverride ∈ transactions →
        domainId ≠ "") : Untouched (repo.run rows transactions) := by
  induction transactions generalizing rows with
  | nil => exact h
  | cons transaction rest ih =>
    refine ih (untouched_after happ h transaction ?_) fun _ _ _ _ _ hrest =>
      hnamed _ _ _ _ _ (List.mem_cons_of_mem _ hrest)
    rintro _ _ _ _ _ rfl
    exact hnamed _ _ _ _ _ List.mem_cons_self

/-- Under the application role no job is ever promoted: whatever the executions write, a job
stays pending, and a request to promote it is refused for that. -/
theorem never_promoted (happ : repo.AppRole) (transactions : List EvaluationTransaction)
    (hnamed : ∀ jobId domainId datasetName actor configOverride,
      .prepareRun jobId domainId datasetName actor configOverride ∈ transactions →
        domainId ≠ "") :
    (∀ job ∈ repo.run [] transactions, job.status = "pending") ∧
    ∀ domainId jobId, repo.promote (repo.run [] transactions) domainId jobId =
      .error (match repo.get (repo.run [] transactions) domainId jobId with
        | none => ⟨"FileNotFoundError", jobId⟩
        | some _ => ⟨"ValueError", "promote requires completed status, got pending"⟩) := by
  have huntouched : Untouched (repo.run [] transactions) :=
    untouched_run happ transactions nofun hnamed
  exact ⟨fun job hjob => (huntouched job hjob).2, promote_of_untouched huntouched⟩

end AppRole

section Nightly

def appPool : PostgresEvaluationJobRepository := ⟨{ setting := some "" }⟩

/-- An evaluation that ends well, and its promotion. -/
def nightly : List EvaluationTransaction :=
  [.prepareRun "EVAL-1" "d1" "platform_smoke" "admin" [],
    .update "EVAL-1" { status := some "running" },
    .update "EVAL-1" { status := some "completed",
                       gateResult := some (.dict [("passed", .bool true)]) },
    .promote "d1" "EVAL-1"]

theorem never_promoted_nightly :
    (∀ job ∈ appPool.run [] nightly, job.status = "pending") ∧
    ∀ domainId jobId, appPool.promote (appPool.run [] nightly) domainId jobId =
      .error (match appPool.get (appPool.run [] nightly) domainId jobId with
        | none => ⟨"FileNotFoundError", jobId⟩
        | some _ => ⟨"ValueError", "promote requires completed status, got pending"⟩) := by
  refine never_promoted ⟨rfl, rfl⟩ nightly ?_
  intro jobId domainId datasetName actor configOverride h
  simp only [nightly, List.mem_cons, reduceCtorEq, EvaluationTransaction.prepareRun.injEq,
    List.not_mem_nil, or_false] at h
  rw [h.2.1]
  decide

end Nightly

end PostgresEvaluationJobRepository

end DomainRag.Evaluation
