import DomainRag.Chat.Nodes

/-! # The answer generator

The service renders its prompt, asks the LLM and decodes what it writes. It checks that the
segments of an answer are a list, and nothing inside it. The node tries one model after the
other until an answer has segments.
-/

namespace DomainRag.Chat

open Verifier (RetrievedChunk)

structure GenerationPrompt where
  system : String
  user : String
  responseSchema : Value

structure LLMRequest where
  prompt : String
  model : String
  maxTokens : Int
  temperature : Rat
  guidedJsonSchema : Value
  loraAdapter : Value

/-- The generator of structured answers. The template engine, the LLM and the JSON decoder are
those of the host. -/
structure GenerationService where
  llm : LLMRequest → Except Exc String
  render : String → List (String × Value) → Except Exc String
  loads : String → Except Exc Value
  prompt : GenerationPrompt
  model : String
  maxTokens : Int := 1024
  temperature : Rat := 0.2
  promptProvider : Option (String → Except Exc (Option GenerationPrompt)) := none

variable {V S : Type}

def contextView (chunks : List (RetrievedChunk S)) : Value :=
  .list (chunks.map fun c => .dict [("title", .str c.title), ("page_number", c.pageNumber),
    ("section_title", c.sectionTitle.orElse (.str "")), ("content", .str c.content)])

def nonemptyList? : Value → Option (List Value)
  | .list (v :: vs) => some (v :: vs)
  | _ => none

/-- What the service makes of the value under `answer_segments`. -/
def GenerationResult.ofSegments (raw : String) (limitations : Value) :
    Value → GenerationResult
  | .list segments =>
    { rawResponse := raw, answerSegments := segments, limitations := limitations }
  | _ =>
    { rawResponse := raw, parseOk := false, parseError := some "answer_segments not a list" }

namespace GenerationService

variable (service : GenerationService)

/-- A provider that raises or has no prompt leaves the service with its own. -/
def effectivePrompt (domainId : String) : GenerationPrompt :=
  match service.promptProvider with
  | none => service.prompt
  | some provider =>
    match provider domainId with
    | .ok (some prompt) => prompt
    | _ => service.prompt

def renderPrompt (request : StructuredRequest S) : Except Exc String := do
  let prompt := service.effectivePrompt request.domainId
  let system ← service.render prompt.system []
  let user ← service.render prompt.user
    [("question", .str request.question), ("contexts", contextView request.contexts)]
  return system ++ "\n\n" ++ user

def respond (request : StructuredRequest S) : Except Exc String := do
  let rendered ← service.renderPrompt request
  service.llm {
    prompt := rendered
    model := orDefault (some request.modelOverride) service.model
    maxTokens := service.maxTokens
    temperature := service.temperature
    guidedJsonSchema := (service.effectivePrompt request.domainId).responseSchema
    loraAdapter := request.loraAdapter }

def generateStructured (request : StructuredRequest S) : Except Exc GenerationResult := do
  let raw ← service.respond request
  match service.loads raw with
  | .error e =>
    if e.typeName = "JSONDecodeError" then
      return {
        rawResponse := raw
        parseOk := false
        parseError := some ("json_decode_error: " ++ e.message) }
    else throw e
  | .ok parsed =>
    let segments := ((← parsed.get "answer_segments").getD .null).orElse (.list [])
    let limitations := (← parsed.get "limitations").getD .null
    return .ofSegments raw limitations segments

/-- The segments of a text that decodes to an object with a nonempty list of them. -/
def segmentsOf (raw : String) : Option (List Value) :=
  match service.loads raw with
  | .ok (.dict kvs) => nonemptyList? ((kvs.lookup "answer_segments").getD .null)
  | _ => none

/-- The segments of the first model whose text has some; without any the answer is empty. -/
def answer (state : RAGState S) : List Value :=
  ((chainSteps (orDefault state.selectedModel "tenant_slm") state.selectedLora).findSome?
    fun step => (service.respond (structuredRequest state step)).toOption.bind
      service.segmentsOf).getD []

end GenerationService

def RAGGraphDeps.generatedBy (deps : RAGGraphDeps V S) (service : GenerationService) :
    RAGGraphDeps V S :=
  { deps with generateStructured := service.generateStructured }

def GenerationResult.accepted (result : GenerationResult) : Option (List Value) :=
  if result.parseOk && !result.answerSegments.isEmpty then some result.answerSegments else none

theorem accepted_ofSegments (raw : String) (limitations v : Value) :
    (GenerationResult.ofSegments raw limitations (v.orElse (.list []))).accepted =
      nonemptyList? v := by
  cases v with
  | list segments => cases segments <;> rfl
  | null => rfl
  | bool _ | int _ | float _ | str _ | dict _ =>
    rw [Value.orElse]
    split <;> rfl

theorem accepted_generateStructured (service : GenerationService) (request : StructuredRequest S) :
    (service.generateStructured request).toOption.bind GenerationResult.accepted =
      (service.respond request).toOption.bind service.segmentsOf := by
  rw [GenerationService.generateStructured]
  cases service.respond request with
  | error e => rfl
  | ok raw =>
    change Option.bind (Except.toOption _) _ = service.segmentsOf raw
    rw [GenerationService.segmentsOf]
    simp only [bind, Except.bind]
    cases service.loads raw with
    | error e =>
      simp only
      split <;> rfl
    | ok parsed =>
      cases parsed with
      | dict kvs => exact accepted_ofSegments raw _ _
      | null | bool _ | int _ | float _ | str _ | list _ => rfl

theorem runChain_answer {deps : RAGGraphDeps V S} {state : RAGState S} (steps : List ChainStep)
    {acc : ChainOutcome S} (hacc : acc.answer = none) :
    (runChain deps state steps acc).answer.map (fun a => a.2.answerSegments) =
      steps.findSome? fun step =>
        (deps.generateStructured (structuredRequest state step)).toOption.bind
          GenerationResult.accepted := by
  induction steps generalizing acc with
  | nil => rw [runChain, hacc]; rfl
  | cons step steps ih =>
    rw [runChain, List.findSome?_cons]
    cases deps.generateStructured (structuredRequest state step) with
    | error e => exact ih hacc
    | ok result =>
      simp only [Except.toOption, Option.bind_some, GenerationResult.accepted]
      split
      · rfl
      · exact ih hacc

theorem withChain_answerSegments (outcome : ChainOutcome S) (state : RAGState S) :
    (withChain outcome state).answerSegments =
      .raw ((outcome.answer.map fun a => a.2.answerSegments).getD []) := by
  rw [withChain]
  cases outcome.answer <;> rfl

/-- The node leaves the segments of the first usable answer, as the LLM wrote them. -/
theorem generateAnswerNode_segments (deps : RAGGraphDeps V S) (service : GenerationService)
    (state : RAGState S) : (generateAnswerNode (deps.generatedBy service) state).2.answerSegments =
      .raw (service.answer state) := by
  simp only [generateAnswerNode, withChain_answerSegments]
  rw [runChain_answer _ rfl, GenerationService.answer]
  simp only [RAGGraphDeps.generatedBy, accepted_generateStructured]

end DomainRag.Chat
