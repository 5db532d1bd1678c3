import DomainRag.Evaluation.Independence
import DomainRag.Evaluation.Orchestrator

/-! # Where the cases of a job come from

A dataset name leads to the folder of whatever tenant it names, and a row may name a tenant of its
own. A job stays in its tenant exactly if the name and the rows do.
-/

namespace DomainRag.Evaluation

open Heap

section Started

variable {baseLoader : ConfigLoader} {graph : Graph} {override : List (String × Value)}
  {dataset : List EvalCase}

theorem startedCases_subset (x : Option Nat) (cases : List StoredCase) (h : Heap) :
    ∀ c ∈ startedCases baseLoader graph x cases h, c ∈ cases.map StoredCase.case := by
  induction cases generalizing h with
  | nil => nofun
  | cons case rest ih =>
    intro c hc
    rw [startedCases] at hc
    split at hc
    · rw [List.mem_singleton.mp hc]
      exact List.mem_cons_self
    · obtain rfl | hc := List.mem_cons.mp hc
      · exact List.mem_cons_self
      · exact List.mem_cons_of_mem _ (ih _ c hc)

/-- A graph that never raises is run for all cases. -/
theorem startedCases_eq (hgraph : ∀ c loaded, ∃ v, graph c loaded = .ok v)
    (hloader : ∀ tid config, baseLoader tid = .ok config → (Value.dict config).Distinct)
    {cases : List StoredCase} {h : Heap} {extra : Nat} (hr : Ready h extra cases) {x : Option Nat}
    (hx : x = some extra ∨ x = none ∧ (h.cell extra).entries = []) :
    startedCases baseLoader graph x cases h = cases.map StoredCase.case := by
  induction cases generalizing h with
  | nil => rfl
  | cons case rest ih =>
    obtain ⟨h', hrun, -, hx', hr'⟩ := @runOne_spec h extra case rest baseLoader graph hr x hx hloader
    obtain ⟨v, hv⟩ := hgraph case.case ((baseLoader case.case.domainId).map
      (seen (h.contents (some (.ref extra))) case.case))
    rw [hv] at hrun
    simp only [startedCases, hrun, ih hr' hx', List.map_cons]

theorem started_subset (hdataset : ∀ c ∈ dataset, (Value.dict c.configOverride).Distinct) :
    ∀ c ∈ started baseLoader graph override dataset, c ∈ dataset := by
  intro c hc
  have hmem := startedCases_subset _ _ _ c hc
  obtain ⟨-, hmap, -, -⟩ := storeCases_spec hdataset (Heap.empty.storeDict override).2
  exact hmap ▸ hmem

theorem started_eq (hgraph : ∀ c loaded, ∃ v, graph c loaded = .ok v)
    (hloader : ∀ tid config, baseLoader tid = .ok config → (Value.dict config).Distinct)
    (hoverride : (Value.dict override).Distinct)
    (hdataset : ∀ c ∈ dataset, (Value.dict c.configOverride).Distinct) :
    started baseLoader graph override dataset = dataset := by
  obtain ⟨hr, -, hempty⟩ := ready_of_stored hoverride hdataset
  obtain ⟨-, hmap, -, -⟩ := storeCases_spec hdataset (Heap.empty.storeDict override).2
  exact (startedCases_eq hgraph hloader hr (passed_of_empty hempty)).trans hmap

end Started

namespace EvaluationOrchestrator

variable {B : Type} (service : EvaluationOrchestrator B)

/-- The place to which a path leads. -/
def folder (path : PurePath) : List String := path.parts.foldl FileSystem.visit []

/-- A folder of the platform or of a tenant, or one below. -/
def Within (domainId : String) (place : List String) : Prop :=
  folder (service.evalRoot.join "platform") <+: place ∨
    folder (tenantBase service.evalRoot domainId) <+: place

/-- However the graph turns out, the job of the request opens only files in folders of the platform
and of its tenant, and but for a platform dataset runs the graph for its tenant alone. -/
def StaysInTenant (call : RunRequest) (s : Evaluations B) : Prop :=
  ∀ graph, ∃ e, (service.execute graph call.jobId call.domainId).result? s = some e ∧
    (∀ place ∈ e.opened, service.Within call.domainId place.dropLast) ∧
    (call.datasetName ≠ "platform_smoke" → ∀ state ∈ e.states, state.domainId = .str call.domainId)

/-- There is a file to open in the folder of a tenant. -/
def HasFiles (files : FileSystem B) (tid : String) : Prop :=
  let gold := (tenantBase service.evalRoot tid).join "citation_gold.jsonl"
  let qa := (tenantBase service.evalRoot tid).join "qa.jsonl"
  (∃ place content, files.find? gold.parts = some (place, .file content)) ∨
    files.find? gold.parts = none ∧
      ∃ place content, files.find? qa.parts = some (place, .file content)

/-- The name is that of the platform's dataset, or it names a folder that belongs to the job's
tenant or the platform, and no case of that folder is for another tenant. -/
def NamesOwn (files : FileSystem B) (domainId datasetName : String) : Prop :=
  datasetName = "platform_smoke" ∨ ∃ tid, datasetName = "tenant_" ++ tid ∧
    (service.HasFiles files tid →
      service.Within domainId (folder (tenantBase service.evalRoot tid))) ∧
    ∀ dataset, service.reader.loadTenantDataset files service.evalRoot tid = .ok dataset →
      ∀ c ∈ dataset.cases, c.domainId = .str domainId

section Places

variable {service} {files : FileSystem B}

theorem dropLast_of_mem_placeOf {base : PurePath} {name : String} (hname : PlainName name)
    {place : List String} (h : place ∈ placeOf files (base.join name)) :
    place.dropLast = folder base := by
  unfold placeOf at h
  split at h
  · rename_i place' content hfind
    rw [List.mem_singleton.mp h, (FileSystem.find?_spec hfind).1, hname.join]
    simp only [List.foldl_append, List.foldl_cons, List.foldl_nil]
    rw [FileSystem.visit, if_neg hname.ne_dotDot, List.dropLast_concat]
    rfl
  · cases h

theorem exists_mem_placeOf_iff {path : PurePath} : (∃ place, place ∈ placeOf files path) ↔
    ∃ place content, files.find? path.parts = some (place, .file content) := by
  unfold placeOf
  split
  · rename_i place content hfind
    exact ⟨fun _ => ⟨place, content, hfind⟩, fun _ => ⟨place, List.mem_singleton_self place⟩⟩
  · rename_i hnot
    exact ⟨fun ⟨_, h⟩ => (nomatch h), fun ⟨place, content, h⟩ => absurd h (hnot place content)⟩

end Places

section Jobs

variable {service} {call : RunRequest} {s : Evaluations B} {files : FileSystem B}

/-- The two kinds of dataset names, and what they lead to. -/
theorem resolveDataset_cases {domainId datasetName : String} {spec : DatasetSpec B}
    (h : service.resolveDataset files domainId datasetName = .ok spec) :
    (datasetName = "platform_smoke" ∧ spec.qaPath = smokePath service.evalRoot ∧
        spec.goldPath = none ∧
          spec.load = fun fs => service.reader.loadPlatformSmoke fs service.evalRoot) ∨
      ∃ tid, datasetName = "tenant_" ++ tid ∧
        spec.qaPath = (tenantBase service.evalRoot tid).join "qa.jsonl" ∧
          spec.goldPath = some ((tenantBase service.evalRoot tid).join "citation_gold.jsonl") ∧
            spec.load = fun fs => service.reader.loadTenantDataset fs service.evalRoot tid := by
  rw [resolveDataset] at h
  split at h
  · rename_i hname
    cases h
    exact .inl ⟨hname, rfl, rfl, rfl⟩
  · split at h
    · rename_i hprefix
      cases h
      have hdrop : "tenant_".toList ++ datasetName.toList.drop 7 = datasetName.toList :=
        List.prefix_iff_eq_append.mp (List.isPrefixOf_iff_prefix.mp hprefix)
      refine .inr ⟨String.ofList (datasetName.toList.drop 7), ?_, rfl, rfl, rfl⟩
      apply String.toList_injective
      exact (hdrop.symm.trans (congrArg _ String.toList_ofList.symm)).trans
        String.toList_append.symm
    · cases h

theorem resolveDataset_files {domainId datasetName : String} {spec : DatasetSpec B}
    (h : service.resolveDataset files domainId datasetName = .ok spec) (files' : FileSystem B) :
    ∃ spec', service.resolveDataset files' domainId datasetName = .ok spec' := by
  rw [resolveDataset] at h ⊢
  split
  · exact ⟨_, rfl⟩
  · split
    · exact ⟨_, rfl⟩
    · rename_i hname hprefix
      rw [if_neg hname, if_neg hprefix] at h
      cases h

theorem prepareRun_spec {jobId : String} (h : (service.prepareRun call).result? s = some jobId) :
    (∃ spec, service.resolveDataset s.files call.domainId call.datasetName = .ok spec) ∧
      ((service.prepareRun call).final s).pending.get? call.jobId =
        some (call.datasetName, call.configOverride) := by
  have hprepare : (service.prepareRun call).Ensures s
      (fun _ s' => (∃ spec, service.resolveDataset s.files call.domainId call.datasetName =
        .ok spec) ∧ s'.pending.get? call.jobId = some (call.datasetName, call.configOverride))
      fun _ _ => True := by
    unfold prepareRun
    rw [Program.ensures_bind, Program.ensures_get, Program.ensures_bind, Program.ensures_ofExcept]
    refine ⟨fun spec hspec => ?_, fun _ _ => trivial⟩
    rw [Program.ensures_ite]
    refine ⟨fun _ => trivial, fun _ => ⟨⟨spec, hspec⟩, ?_⟩⟩
    exact (Dict.get?_set _ _ _ _).trans (if_pos rfl)
  exact hprepare.of_result? h

theorem execute_spec {graph : ChatGraph} {jobId domainId datasetName : String}
    {override : List (String × Value)} {spec : DatasetSpec B}
    (hpending : s.pending.get? jobId = some (datasetName, override))
    (hspec : service.resolveDataset s.files domainId datasetName = .ok spec) :
    (service.execute graph jobId domainId).result? s =
      some (service.executionOf graph s.files spec override) := by
  have hruns : (service.execute graph jobId domainId).Ensures s
      (fun e _ => e = service.executionOf graph s.files spec override) fun _ _ => False := by
    unfold execute
    rw [Program.ensures_bind, Program.ensures_get, hpending]
    simp only [hspec]
    refine Program.ensures_bind.mpr (Program.ensures_bind.mpr ?_)
    cases service.results graph s.files spec override with
    | error e => exact rfl
    | ok result => exact rfl
  obtain ⟨e, he⟩ := hruns.exists_result
  rw [he, hruns.of_result? he]

/-- Loading the cases of a tenant opens a file if there is one. -/
theorem exists_opened_iff {tid : String} {spec : DatasetSpec B}
    (hqa : spec.qaPath = (tenantBase service.evalRoot tid).join "qa.jsonl")
    (hgold : spec.goldPath = some ((tenantBase service.evalRoot tid).join "citation_gold.jsonl")) :
    (∃ place, place ∈ service.opens files spec) ↔ service.HasFiles files tid := by
  rw [opens, hqa, hgold, Option.map_some, Option.getD_some, HasFiles]
  constructor
  · rintro ⟨place, hplace⟩
    obtain hplace | hplace := List.mem_append.mp hplace
    · exact .inl (exists_mem_placeOf_iff.mp ⟨place, hplace⟩)
    · rw [Reader.readGold] at hplace
      cases hfind : files.find? ((tenantBase service.evalRoot tid).join "citation_gold.jsonl").parts
        with
      | none =>
        rw [hfind] at hplace
        exact .inr ⟨rfl, exists_mem_placeOf_iff.mp ⟨place, hplace⟩⟩
      | some found =>
        obtain ⟨place', node⟩ := found
        cases node with
        | file content => exact .inl ⟨place', content, rfl⟩
        | dir =>
          rw [hfind, Reader.readJsonl, hfind] at hplace
          cases hplace
  · rintro (hfile | ⟨hnone, hfile⟩)
    · obtain ⟨place, hplace⟩ := exists_mem_placeOf_iff.mpr hfile
      exact ⟨place, List.mem_append_left _ hplace⟩
    · obtain ⟨place, hplace⟩ := exists_mem_placeOf_iff.mpr hfile
      refine ⟨place, List.mem_append_right _ ?_⟩
      rw [Reader.readGold, hnone]
      exact hplace

theorem folder_of_mem_opens {tid : String} {spec : DatasetSpec B}
    (hqa : spec.qaPath = (tenantBase service.evalRoot tid).join "qa.jsonl")
    (hgold : spec.goldPath = some ((tenantBase service.evalRoot tid).join "citation_gold.jsonl"))
    {place : List String} (h : place ∈ service.opens files spec) :
    place.dropLast = folder (tenantBase service.evalRoot tid) := by
  rw [opens, hqa, hgold, Option.map_some, Option.getD_some] at h
  obtain h | h := List.mem_append.mp h
  · exact dropLast_of_mem_placeOf (by decide) h
  · split at h
    · cases h
    · exact dropLast_of_mem_placeOf (by decide) h

/-- A job that was prepared stays in its tenant exactly if its dataset name is that of the platform
or names the tenant's own folder, and the cases of the folder are the tenant's. -/
theorem staysInTenant_iff {s' : Evaluations B} {jobId : String}
    (hprepared : (service.prepareRun call).result? s = some jobId)
    (hpending : s'.pending.get? call.jobId =
      ((service.prepareRun call).final s).pending.get? call.jobId)
    (hoverride : (Value.dict call.configOverride).Distinct)
    (hloader : ∀ tid config, service.configLoader tid = .ok config →
      (Value.dict config).Distinct) :
    service.StaysInTenant call s' ↔
      service.NamesOwn s'.files call.domainId call.datasetName := by
  obtain ⟨⟨spec₀, hspec₀⟩, hfinal⟩ := prepareRun_spec hprepared
  obtain ⟨spec, hspec⟩ := resolveDataset_files hspec₀ s'.files
  have hexecute : ∀ graph, (service.execute graph call.jobId call.domainId).result? s' =
      some (service.executionOf graph s'.files spec call.configOverride) :=
    fun graph => execute_spec (hpending.trans hfinal) hspec
  obtain ⟨hname, hqa, hgold, -⟩ | ⟨tid, hname, hqa, hgold, hload⟩ := resolveDataset_cases hspec
  · refine iff_of_true (fun graph => ⟨_, hexecute graph, fun place hplace => .inl ?_,
      fun hne => absurd hname hne⟩) (.inl hname)
    simp only [executionOf, opens, hgold, hqa, Reader.readGold, Option.map_none, Option.getD_none,
      List.nil_append, smokePath] at hplace
    rw [dropLast_of_mem_placeOf (by decide) hplace]
  · have hne : call.datasetName ≠ "platform_smoke" := by
      intro heq
      have hchars := congrArg String.toList (hname.symm.trans heq)
      rw [String.toList_append] at hchars
      exact absurd (congrArg List.head? hchars) (by simp)
    have htid : ∀ tid', call.datasetName = "tenant_" ++ tid' → tid' = tid := by
      intro tid' heq
      exact (String.append_right_inj _).mp (heq.symm.trans hname)
    constructor
    · intro h
      refine .inr ⟨tid, hname, fun hfiles => ?_, fun dataset hdataset c hc => ?_⟩
      · obtain ⟨e, he, hopened, -⟩ := h fun _ _ => .ok .null
        obtain rfl := Option.some.inj ((hexecute _).symm.trans he)
        obtain ⟨place, hplace⟩ := (exists_opened_iff hqa hgold).mpr hfiles
        rw [← folder_of_mem_opens hqa hgold hplace]
        exact hopened place hplace
      · -- A graph that returns for each state is run for every case of the dataset.
        obtain ⟨e, he, -, hstates⟩ := h fun _ _ => .ok .null
        obtain rfl := Option.some.inj ((hexecute _).symm.trans he)
        refine hstates hne (stateOf service.repr c) ?_
        have hall := @started_eq service.configLoader (service.graphOf fun _ _ => .ok .null)
          call.configOverride dataset.cases (fun _ _ => ⟨_, rfl⟩) hloader hoverride
          fun c hc => (parsed_of_loadDataset hdataset c hc).distinct
        simp only [executionOf, hload, hdataset, hall]
        exact List.mem_map_of_mem hc
    · rintro (hsmoke | ⟨tid', hname', hwithin, hcases⟩) graph
      · exact absurd hsmoke hne
      · obtain rfl := htid tid' hname'
        refine ⟨_, hexecute graph, fun place hplace => ?_, fun _ state hstate => ?_⟩
        · rw [folder_of_mem_opens hqa hgold hplace]
          exact hwithin ((exists_opened_iff hqa hgold).mp ⟨place, hplace⟩)
        · simp only [executionOf, hload] at hstate
          split at hstate
          · cases hstate
          · rename_i dataset hdataset
            obtain ⟨c, hc, rfl⟩ := List.mem_map.mp hstate
            exact hcases dataset hdataset c (started_subset
              (fun c hc => (parsed_of_loadDataset hdataset c hc).distinct) c hc)

end Jobs

end EvaluationOrchestrator

section Folders

open EvaluationOrchestrator

def ownLine : String := "\x7b\"case_id\": \"c1\", \"question\": \"?\"\x7d"

def foreignLine : String :=
  "\x7b\"case_id\": \"c2\", \"question\": \"?\", \"domain_id\": \"rival\"\x7d"

def rowOf (line : String) : Except Exc Value :=
  if line = ownLine then .ok (.dict [("case_id", .str "c1"), ("question", .str "?")])
  else if line = foreignLine then
    .ok (.dict [("case_id", .str "c2"), ("question", .str "?"), ("domain_id", .str "rival")])
  else .error ⟨"JSONDecodeError", "Expecting value"⟩

def lineReader : Reader (List String) where
  linesOf lines := lines.map .ok
  strip := id
  loads := rowOf
  parsed line v h := by
    unfold rowOf at h
    split at h
    · cases h
      refine .dict (by decide) ?_
      simp only [List.forall_mem_cons, List.not_mem_nil, false_implies, implies_true, and_true]
      exact ⟨.str _, .str _⟩
    · split at h
      · cases h
        refine .dict (by decide) ?_
        simp only [List.forall_mem_cons, List.not_mem_nil, false_implies, implies_true, and_true]
        exact ⟨.str _, .str _, .str _⟩
      · cases h

def evaluations (lines : List String) : Evaluations (List String) where
  files := (((((FileSystem.empty.put [] "tenants" .dir).put ["tenants"] "acme" .dir).put
    ["tenants", "acme"] "qa.jsonl" (.file lines)).put ["tenants"] "rival" .dir).put
    ["tenants", "rival"] "qa.jsonl" (.file [ownLine]))
  jobs := []
  pending := .empty

def plainService : EvaluationOrchestrator (List String) where
  evalRoot := ⟨"/", []⟩
  reader := lineReader
  configLoader := noConfig
  repr _ := ""
  assess _ _ := .ok (.null, .null)

def acmeRequest (datasetName : String) : RunRequest where
  jobId := "EVAL-1"
  domainId := "acme"
  datasetName := datasetName
  actor := "admin"
  configOverride := []

def textOf : Value → Option String
  | .str s => some s
  | _ => none

theorem textOf_eq_some_iff {v : Value} {text : String} : textOf v = some text ↔ v = .str text := by
  cases v <;> simp [textOf]

/-- The tenants for which the graph is run if it always returns. -/
def tenantsRun (call : RunRequest) (s : Evaluations (List String)) : Option (List (Option String)) :=
  ((plainService.execute (fun _ _ => .ok .null) call.jobId call.domainId).result? s).map fun e =>
    e.states.map fun state => textOf state.domainId

theorem own_dataset_stays :
    plainService.StaysInTenant (acmeRequest "tenant_acme")
      ((plainService.prepareRun (acmeRequest "tenant_acme")).final (evaluations [ownLine])) := by
  refine (@staysInTenant_iff _ plainService (acmeRequest "tenant_acme") (evaluations [ownLine]) _
    "EVAL-1" (by decide +kernel) rfl Value.distinct_empty distinct_noConfig).mpr ?_
  refine .inr ⟨"acme", rfl, fun _ => .inr (List.prefix_refl _), fun dataset hdataset c hc => ?_⟩
  have hcases : (plainService.reader.loadTenantDataset
      ((plainService.prepareRun (acmeRequest "tenant_acme")).final (evaluations [ownLine])).files
      plainService.evalRoot "acme").toOption.map
        (fun dataset => dataset.cases.map fun c => textOf c.domainId) = some [some "acme"] := by
    decide +kernel
  rw [hdataset] at hcases
  have hall : dataset.cases.map (fun c => textOf c.domainId) = [some "acme"] :=
    Option.some.inj hcases
  have hmem : textOf c.domainId ∈ dataset.cases.map fun c => textOf c.domainId :=
    List.mem_map_of_mem hc
  rw [hall, List.mem_singleton] at hmem
  exact textOf_eq_some_iff.mp hmem

theorem leaves_of_tenantsRun {call : RunRequest} {s : Evaluations (List String)}
    (hrun : tenantsRun call s = some [some "rival"]) (hname : call.datasetName ≠ "platform_smoke")
    (hdomain : call.domainId ≠ "rival") : ¬ plainService.StaysInTenant call s := by
  intro h
  obtain ⟨e, he, -, hstates⟩ := h fun _ _ => .ok .null
  rw [tenantsRun, he, Option.map_some, Option.some.injEq] at hrun
  obtain ⟨state, hstate, htext⟩ := List.mem_map.mp (hrun ▸ List.mem_singleton_self (some "rival"))
  rw [hstates hname state hstate, textOf, Option.some.injEq] at htext
  exact hdomain htext

/-- Another tenant's dataset, and a row for another tenant in the own one. -/
theorem foreign_datasets_run :
    ((plainService.prepareRun (acmeRequest "tenant_rival")).result? (evaluations [ownLine]) =
        some "EVAL-1" ∧
      ¬ plainService.StaysInTenant (acmeRequest "tenant_rival")
        ((plainService.prepareRun (acmeRequest "tenant_rival")).final (evaluations [ownLine]))) ∧
    (plainService.prepareRun (acmeRequest "tenant_acme")).result? (evaluations [foreignLine]) =
        some "EVAL-1" ∧
      ¬ plainService.StaysInTenant (acmeRequest "tenant_acme")
        ((plainService.prepareRun (acmeRequest "tenant_acme")).final (evaluations [foreignLine])) := by
  refine ⟨⟨by decide +kernel, ?_⟩, by decide +kernel, ?_⟩
  · exact leaves_of_tenantsRun (by decide +kernel) (by decide) (by decide)
  · exact leaves_of_tenantsRun (by decide +kernel) (by decide) (by decide)

end Folders

end DomainRag.Evaluation
