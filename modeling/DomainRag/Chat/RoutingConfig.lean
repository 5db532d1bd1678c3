import DomainRag.Chat.Router
import DomainRag.Chat.Nodes
import DomainRag.Lib.Shape

/-! # The routing document of a tenant

A document is looked over before it is stored or tried: the shapes of its rules, the keys of their
conditions and the values of those conditions that have a fixed set of values. A dry run asks the
router for its decision.
-/

namespace DomainRag.Chat

def queryTypes : List String :=
  ["document_qa", "assessment_extract", "assessment_generate", "assessment_hybrid", "free_chat",
    "meta"]

def supportTypes : List String := ["direct", "synthesis", "inference", "conflict"]

def complexityLevels : List String := ["low", "medium", "high"]

def allowedWhenKeys : List String :=
  ["query_type", "support_type", "complexity", "retrieval_confidence_below"]

def enumForWhenKey : List (String × List String) :=
  [("query_type", queryTypes), ("support_type", supportTypes), ("complexity", complexityLevels)]

/-- The operator `in` of a set of texts, which raises for a container. -/
def inEnum (allowed : List String) (v : Value) : Except Exc Bool := do
  let _ ← v.intKey?
  return match v with
    | .str s => s ∈ allowed
    | _ => false

def invalidValues (allowed : List String) : Value → Except Exc (List Value)
  | .list vs => filterOk (fun v => do return !(← inEnum allowed v)) vs
  | v => do return if ← inEnum allowed v then [] else [v]

/-- The validator of routing documents. Its messages show values with `repr`. -/
structure RoutingValidator where
  repr : Value → String

namespace RoutingValidator

variable (validator : RoutingValidator)

def enumErrors (i : Nat) (conditions : List (String × Value)) (key : String)
    (allowed : List String) : Except Exc (List String) :=
  match conditions.lookup key with
  | none => return []
  | some v => do
    let invalid ← invalidValues allowed v
    return if invalid.isEmpty then []
      else [s!"rules[{i}].when.{key}_invalid_values=" ++ validator.repr (.list invalid)]

def whenErrors (i : Nat) (conditions : List (String × Value)) : Except Exc (List String) := do
  let bad := (conditions.filter fun e => e.1 ∉ allowedWhenKeys).map fun e => Value.str e.1
  let unknown := if bad.isEmpty then []
    else [s!"rules[{i}].when_unknown_keys=" ++ validator.repr (.list bad)]
  let invalid ← enumForWhenKey.mapM fun e => validator.enumErrors i conditions e.1 e.2
  return unknown ++ invalid.flatten

def conditionErrors (i : Nat) : Value → Except Exc (List String)
  | .null => return []
  | .dict conditions => validator.whenErrors i conditions
  | _ => return [s!"rules[{i}].when_not_dict"]

def ruleErrors (i : Nat) : Value → Except Exc (List String)
  | .dict rule => do
    let conditions ← validator.conditionErrors i ((rule.lookup "when").getD .null)
    let sets := ["use_model", "model", "action"].any fun k => ((rule.lookup k).getD .null).truthy
    return conditions ++ if sets then [] else [s!"rules[{i}]_missing_use_model_or_action"]
  | _ => return [s!"rules[{i}]_not_dict"]

def rulesErrors : Value → Except Exc (List String)
  | .list rules => do
    return (← rules.zipIdx.mapM fun rule => validator.ruleErrors rule.2 rule.1).flatten
  | _ => return []

def shapeErrors (rules default : Value) : List String :=
  (match rules with
    | .null | .list _ => []
    | _ => ["rules_not_list"]) ++
  match default with
    | .null | .dict _ => []
    | _ => ["default_not_dict"]

def routingSchemaError (errors : List String) : Exc :=
  ⟨"RoutingSchemaError", "; ".intercalate errors⟩

def validateRoutingYaml : Value → Except Exc Unit
  | .dict document => do
    let rules := (document.lookup "rules").getD .null
    let shape := shapeErrors rules ((document.lookup "default").getD .null)
    let errors := shape ++ (← validator.rulesErrors rules)
    if errors.isEmpty then return else throw (routingSchemaError errors)
  | _ => throw (routingSchemaError ["routing_yaml_not_dict"])

end RoutingValidator

/-- A request for a dry run. The decision of the classifier that is tried has texts. -/
structure DryRunRequest where
  classifierDecision : ClassificationResult
  routingConfig : Option Value := none
  retrievalConfidence : Option Rat := none

namespace ModelRouter

variable (router : ModelRouter)

def dryrunDecide (routingConfig : Value) (classifierDecision : ClassificationResult)
    (tenantModelConfig : Value) (retrievalConfidence : Option Rat) :
    Except Exc RoutingDecision :=
  router.decide
    { classification :=
        { queryType := orDefault (some classifierDecision.queryType) "document_qa"
          supportType := classifierDecision.supportType
          complexity := classifierDecision.complexity }
      routingConfig, tenantModelConfig, retrievalConfidence }

/-- A dry run of a document, which is validated first, or of the one in effect. -/
def dryrunRouting (validator : RoutingValidator) (routing model : Value) (request : DryRunRequest) :
    Except Exc RoutingDecision :=
  match request.routingConfig with
  | none =>
    router.dryrunDecide (routing.orElse (.dict [])) request.classifierDecision
      (model.orElse .null) request.retrievalConfidence
  | some document => do
    validator.validateRoutingYaml document
    router.dryrunDecide document request.classifierDecision (model.orElse .null)
      request.retrievalConfidence

end ModelRouter

end DomainRag.Chat
