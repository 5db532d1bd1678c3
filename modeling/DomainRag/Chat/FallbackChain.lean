import DomainRag.Chat.Graph

/-! # The fallback chain of the generator

The node that answers tries the model of the router first, then the same model without its adapter,
then the shared model. It stops at the first answer with segments and keeps a record of every
failure.
-/

namespace DomainRag.Chat

variable {V S : Type} {deps : RAGGraphDeps V S} {state : RAGState S}

section Steps

def ChainStep.pair (step : ChainStep) : String × Value := (step.model, step.lora)

variable {model : String} {lora : Value}

/-- No pair of a model and an adapter is tried twice. -/
theorem nodup_pairs (model : String) (lora : Value) :
    ((chainSteps model lora).map ChainStep.pair).Nodup := by
  rw [chainSteps, List.map_cons, List.map_append]
  by_cases hslm : model = "tenant_slm" ∧ lora.truthy = true
  · obtain ⟨rfl, hlora⟩ := hslm
    have hne : lora ≠ .null := by
      rintro rfl
      exact absurd hlora (by decide)
    simp [hlora, hne, ChainStep.pair]
  · rw [if_neg hslm]
    split
    · rename_i hshared
      simp [ChainStep.pair, hshared]
    · simp

end Steps

section Run

/-- The record of a step's failure, if it fails: the generator raises, or its answer cannot be parsed
or has no segments. -/
def failure? (deps : RAGGraphDeps V S) (state : RAGState S) (step : ChainStep) : Option ModelFailure :=
  match deps.generateStructured (structuredRequest state step) with
  | .error e => some (step.failed e.typeName (some e.message))
  | .ok result =>
    if result.parseOk && !result.answerSegments.isEmpty then none
    else some (step.failed "parse_error" result.parseError)

/-- The steps up to the first one that does not fail. -/
def tried (deps : RAGGraphDeps V S) (state : RAGState S) : List ChainStep → List ChainStep
  | [] => []
  | step :: rest =>
    if (failure? deps state step).isSome then step :: tried deps state rest else [step]

def callOf (state : RAGState S) (step : ChainStep) : Call S :=
  .structured (structuredRequest state step)

/-- All steps are tried if they fail, and otherwise those up to the first that does not. -/
theorem tried_cases (deps : RAGGraphDeps V S) (state : RAGState S) (steps : List ChainStep) :
    (∀ step ∈ steps, (failure? deps state step).isSome) ∧ tried deps state steps = steps ∨
      ∃ before step after, steps = before ++ step :: after ∧
        (∀ s ∈ before, (failure? deps state s).isSome) ∧ failure? deps state step = none ∧
        tried deps state steps = before ++ [step] := by
  induction steps with
  | nil => exact .inl ⟨List.forall_mem_nil _, rfl⟩
  | cons step rest ih =>
    rw [tried, List.forall_mem_cons]
    split
    · rename_i hstep
      obtain ⟨hall, htried⟩ | ⟨before, last, after, rfl, hbefore, hlast, htried⟩ := ih
      · exact .inl ⟨⟨hstep, hall⟩, by rw [htried]⟩
      · refine .inr ⟨step :: before, last, after, rfl, ?_, hlast, by rw [htried]; rfl⟩
        exact List.forall_mem_cons.mpr ⟨hstep, hbefore⟩
    · rename_i hstep
      rw [Bool.not_eq_true, Option.isSome_eq_false_iff, Option.isNone_iff_eq_none] at hstep
      exact .inr ⟨[], step, rest, rfl, List.forall_mem_nil _, hstep, rfl⟩

theorem forall₂_failures {steps : List ChainStep}
    (h : ∀ step ∈ steps, (failure? deps state step).isSome) :
    List.Forall₂ (fun step failure => failure? deps state step = some failure) steps
      (steps.filterMap (failure? deps state)) := by
  induction steps with
  | nil => exact .nil
  | cons step steps ih =>
    obtain ⟨hstep, hsteps⟩ := List.forall_mem_cons.mp h
    obtain ⟨failure, hfailure⟩ := Option.isSome_iff_exists.mp hstep
    rw [List.filterMap_cons_some hfailure]
    exact .cons hfailure (ih hsteps)

theorem runChain_eq (deps : RAGGraphDeps V S) (state : RAGState S) (steps : List ChainStep)
    (acc : ChainOutcome S) (hacc : acc.answer = none) :
    (runChain deps state steps acc).calls =
        acc.calls ++ (tried deps state steps).map (callOf state) ∧
      (runChain deps state steps acc).failures =
        acc.failures ++ (tried deps state steps).filterMap (failure? deps state) ∧
      ((runChain deps state steps acc).answer = none ↔
        ∀ step ∈ steps, (failure? deps state step).isSome) := by
  induction steps generalizing acc with
  | nil => simp [runChain, tried, hacc]
  | cons step rest ih =>
    rw [runChain, tried, List.forall_mem_cons]
    cases hgenerated : deps.generateStructured (structuredRequest state step) with
    | error e =>
      have hfailure : failure? deps state step = some (step.failed e.typeName (some e.message)) := by
        rw [failure?, hgenerated]
      obtain ⟨hcalls, hfailures, hanswer⟩ := ih
        { acc with
          calls := acc.calls ++ [.structured (structuredRequest state step)]
          failures := acc.failures ++ [step.failed e.typeName (some e.message)] } hacc
      simp [hcalls, hfailures, hanswer, hfailure, callOf]
    | ok result =>
      dsimp only
      split
      · rename_i haccepted
        have hfailure : failure? deps state step = none := by
          rw [failure?, hgenerated]
          exact if_pos haccepted
        simp [hfailure, callOf]
      · rename_i hrejected
        have hfailure : failure? deps state step =
            some (step.failed "parse_error" result.parseError) := by
          rw [failure?, hgenerated]
          exact if_neg hrejected
        obtain ⟨hcalls, hfailures, hanswer⟩ := ih
          { acc with
            calls := acc.calls ++ [.structured (structuredRequest state step)]
            failures := acc.failures ++ [step.failed "parse_error" result.parseError]
            last := some result } hacc
        simp [hcalls, hfailures, hanswer, hfailure, callOf]

/-- What the node does along its steps: the first of them fail, each leaving a record behind the
earlier ones, and then there is no step left or the next one answers. -/
structure ChainRun (deps : RAGGraphDeps V S) (state : RAGState S) (steps failed : List ChainStep)
    (calls : List (Call S)) (state' : RAGState S) : Prop where
  records : ∃ new, List.Forall₂ (fun step failure => failure? deps state step = some failure)
    failed new ∧ state'.modelFailureChain = state.modelFailureChain ++ new
  ended : steps = failed ∧ calls = failed.map (callOf state) ∧
      state'.fallbackReason = some .lowGenerationQuality ∨
    ∃ step rest, steps = failed ++ step :: rest ∧ failure? deps state step = none ∧
      calls = (failed ++ [step]).map (callOf state) ∧ state'.fallbackReason = state.fallbackReason

theorem fallbackReason_withChain (outcome : ChainOutcome S) (state : RAGState S) :
    (withChain outcome state).fallbackReason =
      if outcome.answer.isNone then some .lowGenerationQuality else state.fallbackReason := by
  rw [withChain]
  cases outcome.answer <;> rfl

theorem modelFailureChain_withChain (outcome : ChainOutcome S) (state : RAGState S) :
    (withChain outcome state).modelFailureChain = outcome.failures := by
  rw [withChain]
  cases outcome.answer <;> rfl

theorem exists_chainRun (deps : RAGGraphDeps V S) (state : RAGState S) :
    ∃ failed, ChainRun deps state
      (chainSteps (orDefault state.selectedModel "tenant_slm") state.selectedLora) failed
      (generateAnswerNode deps state).1 (generateAnswerNode deps state).2 := by
  rw [generateAnswerNode]
  generalize chainSteps (orDefault state.selectedModel "tenant_slm") state.selectedLora = steps
  obtain ⟨hcalls, hfailures, hanswer⟩ :=
    runChain_eq deps state steps { failures := state.modelFailureChain } rfl
  rw [List.nil_append] at hcalls
  obtain ⟨hall, htried⟩ | ⟨failed, step, rest, rfl, hfailed, hstep, htried⟩ :=
    tried_cases deps state steps
  · refine ⟨steps, ⟨_, forall₂_failures hall, ?_⟩, .inl ⟨rfl, ?_, ?_⟩⟩
    · rw [modelFailureChain_withChain, hfailures, htried]
    · rw [hcalls, htried]
    · rw [fallbackReason_withChain, hanswer.mpr hall]
      rfl
  · refine ⟨failed, ⟨_, forall₂_failures hfailed, ?_⟩, .inr ⟨step, rest, rfl, hstep, ?_, ?_⟩⟩
    · rw [modelFailureChain_withChain, hfailures, htried, List.filterMap_append,
        List.filterMap_cons_none hstep, List.filterMap_nil, List.append_nil]
    · rw [hcalls, htried]
    · have hsome : (runChain deps state (failed ++ step :: rest)
          { failures := state.modelFailureChain }).answer ≠ none := by
        intro hnone
        have hsome := hanswer.mp hnone step (by simp)
        rw [hstep] at hsome
        cases hsome
      rw [fallbackReason_withChain, if_neg (by simpa using hsome)]

end Run

section Node

variable [LinearOrder S] [Zero S] [One S] [Add S] [Sub S] [Mul S] [Div S] [NatCast S]
  [OfScientific S]

end Node

end DomainRag.Chat
