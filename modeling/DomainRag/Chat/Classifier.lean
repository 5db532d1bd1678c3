import DomainRag.Lib.Dict
import DomainRag.Lib.Value

/-! # The query classifier

The rules of the first tier search the question for patterns. If none of them matches, the second
tier asks a language model, and what goes wrong there leads to the decision of the configuration.
-/

namespace DomainRag.Chat.Classifier

structure ClassifierTier2Prompt where
  system : String
  user : String
  responseSchema : Value

/-- The result; what a rule or the model says of the support and of the complexity is not checked. -/
structure ClassificationResult where
  queryType : String
  supportType : Value := .null
  complexity : Value := .null
  tier1Matched : Option String := none
  tier2Called : Bool := false
  tier2ParseOk : Bool := true
  tier2Error : Option String := none
  rawResponse : Option String := none

structure ClassifierConfig where
  tier1Rules : List Value := []
  tier2Enable : Bool := true
  tier2Fallback : Dict String Value := .ofList [("query_type", .str "document_qa"),
    ("support_type", .str "direct"), ("complexity", .str "medium")]

/-- The classifier. A search for a pattern raises `error` if the pattern is not valid. -/
structure QueryClassifier where
  llm : Option (String → (model : String) → (schema : Value) → Except Exc String) := none
  prompt : Option ClassifierTier2Prompt := none
  model : Option String := none
  search : (pattern text : String) → Except Exc Bool
  render : (template : String) → (context : List (String × String)) → Except Exc String
  loads : String → Except Exc Value
  repr : Value → String

/-- What the second tier returns. -/
structure Tier2Outcome where
  decision : Dict String Value
  parseOk : Bool
  error : Option String := none
  raw : Option String := none

def ClassifierConfig.fallback (config : ClassifierConfig) (k : String) (d : Value) : Value :=
  (config.tier2Fallback.get? k).getD d

namespace QueryClassifier

variable (x : QueryClassifier) (question : String)

section Model

def searchPattern : Value → Except Exc Bool
  | .str p => x.search p question
  | .list _ => .error (.typeError "unhashable type: 'list'")
  | .dict _ => .error (.typeError "unhashable type: 'dict'")
  | _ => .error (.typeError "first argument must be string or compiled pattern")

/-- The test of a pattern, which a pattern that is not valid does not pass. -/
def tryPattern (p : Value) : Except Exc Bool :=
  match x.searchPattern question p with
  | .error e => if e.typeName = "error" then .ok false else .error e
  | .ok found => .ok found

def tryRule (rule : Value) : Except Exc Bool := do
  let patterns ← ((← rule.getD "patterns" .null).orElse (.list [])).iter
  patterns.anyM (x.tryPattern question)

def tier1Match (rules : List Value) : Except Exc (Option Value) :=
  rules.findM? (x.tryRule question)

def promptText (prompt : ClassifierTier2Prompt) : Except Exc String := do
  let system ← x.render prompt.system []
  let user ← x.render prompt.user [("question", question)]
  return system ++ "\n\n" ++ user

/-- The decision of the configuration, with what went wrong. -/
def fellBack (config : ClassifierConfig) (error : String) (raw : Option String) : Tier2Outcome :=
  ⟨config.tier2Fallback, false, some error, raw⟩

def readReply (config : ClassifierConfig) (raw : String) : Except Exc Tier2Outcome :=
  match x.loads raw with
  | .error e =>
    if e.typeName = "JSONDecodeError" then
      .ok (fellBack config s!"json_decode_error: {e.message}" (some raw))
    else .error e
  | .ok data => do
    let queryType ← data.getD "query_type" .null
    let supportType ← data.getD "support_type" .null
    let complexity ← data.getD "complexity" .null
    return {
      decision := .ofList [
        ("query_type", .str ((queryType.orElse
          (config.fallback "query_type" (.str "document_qa"))).text x.repr)),
        ("support_type", supportType.orElse (config.fallback "support_type" .null)),
        ("complexity", complexity.orElse (config.fallback "complexity" .null))]
      parseOk := true
      raw := some raw }

/-- The reply of the model, or why there is none. -/
def ask : Except Exc (Except String String) :=
  match x.llm, x.prompt, x.model with
  | some llm, some prompt, some model => do
    let text ← x.promptText question prompt
    match llm text model prompt.responseSchema with
    | .error e => return .error s!"tier2_call_error: {e.message}"
    | .ok raw => return .ok raw
  | _, _, _ => return .error "tier2_not_configured"

def tier2 (config : ClassifierConfig) : Except Exc Tier2Outcome := do
  match ← x.ask question with
  | .error error => return fellBack config error none
  | .ok raw => x.readReply config raw

def classify (config : ClassifierConfig) : Except Exc ClassificationResult := do
  match ← x.tier1Match question config.tier1Rules with
  | some rule =>
    let queryType ← rule.getD "query_type" .null
    let supportType ← rule.getD "support_type" .null
    let complexity ← rule.getD "complexity" .null
    let name ← rule.getD "name" .null
    return {
      queryType := (queryType.orElse (.str "document_qa")).text x.repr
      supportType := supportType
      complexity := complexity
      tier1Matched := some ((name.orElse (.str "unnamed")).text x.repr) }
  | none =>
    if !config.tier2Enable then
      return {
        queryType := (config.fallback "query_type" (.str "document_qa")).text x.repr
        supportType := config.fallback "support_type" .null
        complexity := config.fallback "complexity" .null
        tier2ParseOk := false
        tier2Error := some "tier2_disabled" }
    let outcome ← x.tier2 question config
    let queryType := (outcome.decision.get? "query_type").getD .null
    return {
      queryType := (queryType.orElse (.str "document_qa")).text x.repr
      supportType := (outcome.decision.get? "support_type").getD .null
      complexity := (outcome.decision.get? "complexity").getD .null
      tier2Called := true
      tier2ParseOk := outcome.parseOk
      tier2Error := outcome.error
      rawResponse := outcome.raw }

end Model

end QueryClassifier

end DomainRag.Chat.Classifier
