import DomainRag.Evaluation.Runner
import DomainRag.Lib.Program

/-! # Evaluation jobs

A job is prepared for a tenant and a dataset name, and executed later. The name leads to a folder,
and the folder to the cases. What runs the chat graph is the state built from a case.
-/

namespace DomainRag.Evaluation

structure EvaluationJobRecord where
  jobId : String
  domainId : String
  datasetName : String
  status : String := "pending"
  actor : String
  configOverride : List (String × Value)
  summary : Value := .dict []
  gateResult : Value := .dict []
  errorMessage : Option String := none

/-- What the chat graph is started with for a case. -/
structure RAGState where
  requestId : String
  domainId : Value
  userId : Value
  question : Value
  userContext : Value
  uiMode : Value

def stateOf (repr : Value → String) (case : EvalCase) : RAGState where
  requestId := "eval-" ++ case.caseId.text repr
  domainId := case.domainId
  userId := (case.userContext.lookup "user_id").getD (.str "eval-user")
  question := case.question
  userContext := (Value.dict case.userContext).orElse (.dict [("user_id", .str "eval-user"),
    ("domain_id", case.domainId), ("clearance", .str "internal"), ("department", .null),
    ("domain_groups", .list []), ("roles", .list [.str "USER"])])
  uiMode := case.uiMode

/-- The chat graph, from a state and from what the loader of the case returns or raises. -/
abbrev ChatGraph := RAGState → Except Exc Contents → Except Exc Value

structure DatasetSpec (B : Type) where
  kind : String
  qaPath : PurePath
  goldPath : Option PurePath
  gatePath : Option PurePath
  load : FileSystem B → Except Exc EvalDataset

/-- The service. The results of the cases and the gate file, if there is one, give the summary and
the result of the gate. -/
structure EvaluationOrchestrator (B : Type) where
  evalRoot : PurePath
  reader : Reader B
  configLoader : ConfigLoader
  repr : Value → String
  assess : List Value → Option B → Except Exc (Value × Value)

structure Evaluations (B : Type) where
  files : FileSystem B
  jobs : List EvaluationJobRecord
  pending : Dict String (String × List (String × Value))

structure RunRequest where
  jobId : String
  domainId : String
  datasetName : String
  actor : String
  configOverride : List (String × Value)

/-- What an execution reads and runs: the files of cases that it opens, and the states that the
chat graph is started with. -/
structure Execution where
  opened : List (List String)
  states : List RAGState

namespace EvaluationOrchestrator

variable {B : Type} (service : EvaluationOrchestrator B)

def unsupportedDataset (datasetName : String) : Exc := ⟨"FileNotFoundError",
  s!"unsupported dataset_name: {datasetName} (expected 'platform_smoke' or 'tenant_<tid>')"⟩

/-- The tenant of a dataset name is whatever follows the prefix; that of the job is not looked at. -/
def resolveDataset (files : FileSystem B) (_domainId datasetName : String) :
    Except Exc (DatasetSpec B) :=
  if datasetName = "platform_smoke" then
    .ok {
      kind := "platform_smoke"
      qaPath := smokePath service.evalRoot
      goldPath := none
      gatePath := none
      load := fun fs => service.reader.loadPlatformSmoke fs service.evalRoot }
  else if "tenant_".toList.isPrefixOf datasetName.toList then
    let tid := String.ofList (datasetName.toList.drop 7)
    let base := tenantBase service.evalRoot tid
    let gatePath := base.join "promotion_gate.yaml"
    .ok {
      kind := "tenant_qa"
      qaPath := base.join "qa.jsonl"
      goldPath := some (base.join "citation_gold.jsonl")
      gatePath := if (files.find? gatePath.parts).isSome then some gatePath else none
      load := fun fs => service.reader.loadTenantDataset fs service.evalRoot tid }
  else .error (unsupportedDataset datasetName)

def prepareRun (call : RunRequest) : Program Exc (Evaluations B) String := do
  let s ← get
  let spec ← Program.ofExcept (service.resolveDataset s.files call.domainId call.datasetName)
  if (s.files.find? spec.qaPath.parts).isNone then
    throw ⟨"FileNotFoundError", call.datasetName⟩
  modify fun s => { s with
    jobs := s.jobs ++ [{
      jobId := call.jobId
      domainId := call.domainId
      datasetName := call.datasetName
      actor := call.actor
      configOverride := call.configOverride }]
    pending := s.pending.set call.jobId (call.datasetName, call.configOverride) }
  return call.jobId

/-- The place of a file that is opened to be read. -/
def placeOf (files : FileSystem B) (path : PurePath) : List (List String) :=
  match files.find? path.parts with
  | some (place, .file _) => [place]
  | _ => []

/-- The files that loading the cases opens, the one with the cases after the other has been read. -/
def opens (files : FileSystem B) (spec : DatasetSpec B) : List (List String) :=
  (spec.goldPath.map (placeOf files)).getD [] ++
    match service.reader.readGold files spec.goldPath with
    | .error _ => []
    | .ok _ => placeOf files spec.qaPath

def updateJob (jobId : String) (f : EvaluationJobRecord → EvaluationJobRecord) :
    Program Exc (Evaluations B) Unit :=
  modify fun s => { s with jobs := s.jobs.map fun job => if job.jobId = jobId then f job else job }

def graphOf (graph : ChatGraph) : Graph := fun case loaded =>
  graph (stateOf service.repr case) loaded

/-- The results of the cases and what the gate makes of them. -/
def results (graph : ChatGraph) (files : FileSystem B) (spec : DatasetSpec B)
    (override : List (String × Value)) : Except Exc (Value × Value) := do
  let dataset ← spec.load files
  let perCase ← (Evaluation.execute service.configLoader (service.graphOf graph) override
    dataset.cases).1
  let gate := spec.gatePath.bind fun path => (files.find? path.parts).bind fun found =>
    match found.2 with
    | .file content => some content
    | .dir => none
  service.assess perCase gate

def executionOf (graph : ChatGraph) (files : FileSystem B) (spec : DatasetSpec B)
    (override : List (String × Value)) : Execution where
  opened := service.opens files spec
  states := match spec.load files with
    | .error _ => []
    | .ok dataset => (started service.configLoader (service.graphOf graph) override
      dataset.cases).map (stateOf service.repr)

/-- A job is taken from those that are pending, so it is executed at most once. -/
def execute (graph : ChatGraph) (jobId domainId : String) :
    Program Exc (Evaluations B) Execution := do
  let s ← get
  match s.pending.get? jobId with
  | none => return ⟨[], []⟩
  | some (datasetName, override) =>
    modify fun s => { s with pending := s.pending.erase jobId }
    updateJob jobId fun job => { job with status := "running" }
    match service.resolveDataset s.files domainId datasetName with
    | .error e =>
      updateJob jobId fun job => { job with status := "failed", errorMessage := some e.message }
      return ⟨[], []⟩
    | .ok spec =>
      match service.results graph s.files spec override with
      | .error e =>
        updateJob jobId fun job => { job with status := "failed", errorMessage := some e.message }
      | .ok (summary, gateResult) =>
        updateJob jobId fun job =>
          { job with status := "completed", summary := summary, gateResult := gateResult }
      return service.executionOf graph s.files spec override

end EvaluationOrchestrator

end DomainRag.Evaluation
