import DomainRag.Chat.State

/-! # Routing rules

The router goes through the rules of `routing.yaml` from top to bottom and takes the first one
whose conditions all hold. Rules are untyped, so that a malformed one raises.
-/

namespace DomainRag.Chat

structure RoutingRequest where
  classification : ClassificationResult
  routingConfig : Value
  tenantModelConfig : Value
  retrievalConfidence : Option Rat := none

structure RoutingDecision where
  matchedRule : String
  model : String
  useLora : Bool := true
  useRag : Bool := true
  uiMode : String := "chat_structured"
  requireJudge : Bool := false
  requireSimilarityCheck : Bool := false
  action : Value := .null
  loraAdapter : Value := .null

/-- The router, with the conversions `str` and `float` of the host language. -/
structure ModelRouter where
  repr : Value → String
  float : Value → Except Exc Rat

def optional : Option String → Value
  | none => .null
  | some s => .str s

/-- The value that a condition of a rule is compared with. -/
def signal (request : RoutingRequest) (key : String) : Value :=
  if key = "query_type" then .str request.classification.queryType
  else if key = "support_type" then optional request.classification.supportType
  else if key = "complexity" then optional request.classification.complexity
  else if key = "retrieval_confidence" then
    (request.retrievalConfidence.map Value.float).getD .null
  else .null

def allowsValue (expected actual : Value) : Bool :=
  match expected with
  | .list vs => actual.mem vs
  | expected => actual.eq expected

def resolveLora (useLora : Bool) (modelKey : String) (tenantModelConfig : Value) :
    Except Exc Value :=
  if !useLora then .ok .null
  else do
    let endpoint ← (tenantModelConfig.orElse (.dict [])).getD modelKey .null
    let lora ← (endpoint.orElse (.dict [])).getD "lora_adapter" .null
    return if lora.truthy then lora else .null

namespace ModelRouter

variable (router : ModelRouter) (request : RoutingRequest)

def conditionHolds (key : String) (expected : Value) : Except Exc Bool :=
  if key = "retrieval_confidence_below" then
    match request.retrievalConfidence with
    | none => .ok false
    | some actual => do return actual < (← router.float expected)
  else .ok (allowsValue expected (signal request key))

def matchesRule (conditions : Value) : Except Exc Bool :=
  if !conditions.truthy then .ok true
  else do (← conditions.items).allM fun e => router.conditionHolds request e.1 e.2

def modelKey (rule default : Value) : Except Exc String := do
  let useModel ← rule.getD "use_model" .null
  let model ← rule.getD "model" .null
  let fallback ← default.getD "model" .null
  return ((useModel.orElse model).orElse (fallback.orElse (.str "tenant_slm"))).text router.repr

def applyRule (rule default : Value) : Except Exc RoutingDecision := do
  let model ← router.modelKey rule default
  let useLora ← rule.getD "use_lora" (← default.getD "use_lora" (.bool true))
  let lora ← resolveLora useLora.truthy model request.tenantModelConfig
  let name ← rule.getD "name" .null
  let useRag ← rule.getD "use_rag" (← default.getD "use_rag" (.bool true))
  let uiMode ← rule.getD "ui_mode" (← default.getD "ui_mode" (.str "chat_structured"))
  let requireJudge ← rule.getD "require_judge" (.bool false)
  let requireSimilarityCheck ← rule.getD "require_similarity_check" (.bool false)
  let action ← rule.getD "action" .null
  return {
    matchedRule := (name.orElse (.str "unnamed")).text router.repr
    model := model
    useLora := useLora.truthy
    useRag := useRag.truthy
    uiMode := uiMode.text router.repr
    requireJudge := requireJudge.truthy
    requireSimilarityCheck := requireSimilarityCheck.truthy
    action := action
    loraAdapter := lora }

def applyDefault (default : Value) : Except Exc RoutingDecision := do
  let model ← default.getD "model" .null
  let modelKey := (model.orElse (.str "tenant_slm")).text router.repr
  let useLora ← default.getD "use_lora" (.bool true)
  let lora ← resolveLora useLora.truthy modelKey request.tenantModelConfig
  let useRag ← default.getD "use_rag" (.bool true)
  let uiMode ← default.getD "ui_mode" (.str "chat_structured")
  return {
    matchedRule := "default"
    model := modelKey
    useLora := useLora.truthy
    useRag := useRag.truthy
    uiMode := uiMode.text router.repr
    loraAdapter := lora }

def decideAmong (default : Value) : List Value → Except Exc RoutingDecision
  | [] => router.applyDefault request default
  | rule :: rules => do
    let conditions ← rule.getD "when" .null
    if ← router.matchesRule request conditions then router.applyRule request rule default
    else decideAmong default rules

def decide : Except Exc RoutingDecision := do
  let cfg := request.routingConfig.orElse (.dict [])
  let rules ← cfg.getD "rules" .null
  let default ← cfg.getD "default" .null
  router.decideAmong request (default.orElse (.dict [])) (← (rules.orElse (.list [])).iter)

end ModelRouter

end DomainRag.Chat
