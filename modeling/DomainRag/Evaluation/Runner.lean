import DomainRag.Evaluation.Dataset
import DomainRag.Lib.HeapMerge

/-! # Running the cases of a dataset

The runner merges the override of the run and that of the case into a new dictionary, and the loader
of the case merges that one into a copy of the tenant's configuration. Only the outer dictionaries
are new: what the overrides hold below is referred to and written in place, and the override of the
run is one object for all cases.
-/

namespace DomainRag.Evaluation

/-- A case of a loaded dataset, with the address of its override. -/
structure StoredCase where
  case : EvalCase
  configOverride : Nat

/-- What the graph makes of a case, from the configuration that the loader it is given returns or
the error that it raises. -/
abbrev Graph := EvalCase → Except Exc Contents → Except Exc Value

abbrev ConfigLoader := Value → Except Exc (List (String × Value))

/-- Nested dictionaries without a cycle are no deeper than there are dictionaries. -/
def deepMerge (base overlay : Nat) (h : Heap) : Except Exc Heap := h.deepMerge h.next base overlay

/-- An override that is missing or empty is not merged. -/
def deepMergeIf (base : Nat) (overlay : Option Nat) (h : Heap) : Except Exc Heap :=
  match overlay with
  | some a => if (h.cell a).entries = [] then .ok h else deepMerge base a h
  | none => .ok h

def merge (a b : Option Nat) (h : Heap) : Except Exc (Nat × Heap) := do
  let out := h.next
  let h ← deepMergeIf out a (h.push .empty)
  let h ← deepMergeIf out b h
  return (out, h)

/-- The loader of a case, which copies what the loader of the runner returns. -/
def patchedConfig (baseLoader : ConfigLoader) (mergedOverride : Nat) (tid : Value) (h : Heap) :
    Except Exc Contents × Heap :=
  match baseLoader tid with
  | .error e => (.error e, h)
  | .ok config =>
    let (cfg, h') := h.storeDict config
    match deepMerge cfg mergedOverride h' with
    | .error e => (.error e, h')
    | .ok h'' => (.ok (h''.contents (some (.ref cfg))), h'')

section Run

variable (baseLoader : ConfigLoader) (graph : Graph)

def runOne (extraOverride : Option Nat) (case : StoredCase) (h : Heap) : Except Exc Value × Heap :=
  match merge extraOverride (some case.configOverride) h with
  | .error e => (.error e, h)
  | .ok (mergedOverride, h') =>
    let (loaded, h'') := patchedConfig baseLoader mergedOverride case.case.domainId h'
    (graph case.case loaded, h'')

/-- The cases run one after the other, until one raises. -/
def run (extraOverride : Option Nat) : List StoredCase → Heap → Except Exc (List Value) × Heap
  | [], h => (.ok [], h)
  | case :: rest, h =>
    match runOne baseLoader graph extraOverride case h with
    | (.error e, h') => (.error e, h')
    | (.ok result, h') =>
      match run extraOverride rest h' with
      | (.error e, h'') => (.error e, h'')
      | (.ok results, h'') => (.ok (result :: results), h'')

/-- The cases whose graph is run: those up to the first that raises. -/
def startedCases (extraOverride : Option Nat) : List StoredCase → Heap → List EvalCase
  | [], _ => []
  | case :: rest, h =>
    match runOne baseLoader graph extraOverride case h with
    | (.error _, _) => [case.case]
    | (.ok _, h') => case.case :: startedCases extraOverride rest h'

def storeCases : List EvalCase → Heap → List StoredCase × Heap
  | [], h => ([], h)
  | case :: rest, h =>
    let (a, h') := h.storeDict case.configOverride
    let (cases, h'') := storeCases rest h'
    (⟨case, a⟩ :: cases, h'')

/-- A run over a dataset: the results of its cases, and the override of the run afterwards. -/
def execute (override : List (String × Value)) (dataset : List EvalCase) :
    Except Exc (List Value) × Contents :=
  let (extra, h) := Heap.empty.storeDict override
  let (cases, h') := storeCases dataset h
  let (results, h'') := run baseLoader graph (if override = [] then none else some extra) cases h'
  (results, h''.contents (some (.ref extra)))

def started (override : List (String × Value)) (dataset : List EvalCase) : List EvalCase :=
  let (extra, h) := Heap.empty.storeDict override
  let (cases, h') := storeCases dataset h
  startedCases baseLoader graph (if override = [] then none else some extra) cases h'

end Run

end DomainRag.Evaluation
