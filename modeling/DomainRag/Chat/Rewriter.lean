import DomainRag.Chat.Assessment

/-! # Query rewriting

Before retrieval the question may be replaced by a hypothetical answer or extended by keywords.
Whatever goes wrong, the question itself is used.
-/

namespace DomainRag.Chat

structure LlmRequest where
  prompt : String
  model : String
  maxTokens : Int
  temperature : Rat

structure RewriteResult where
  rewrittenQuery : String
  strategy : String
  rawOutput : Option String := none
  error : Option String := none

/-- The rewriter: its LLMs by endpoint, and its templates, whose rendering may raise. -/
structure QueryRewriter where
  text : TextOps
  llms : String → Option (LlmRequest → Except Exc String)
  hydeSystem : String
  hydeUser : String → Except Exc String
  expandSystem : Int → Except Exc String
  expandUser : String → Int → Except Exc String
  defaultModel : String

def stripChars (chars : List Char) (s : String) : String :=
  String.ofList (((s.toList.dropWhile (· ∈ chars)).reverse.dropWhile (· ∈ chars)).reverse)

def splitCommas (s : String) : List String := (s.toList.splitOn ',').map String.ofList

/-- Keywords in their order, each once up to case, until there are enough. -/
def keepTerms (lower : String → String) (maxTerms : Int) : List String → List String →
    List String
  | out, [] => out
  | out, t :: rest =>
    if lower t ∈ out.map lower then keepTerms lower maxTerms out rest
    else if maxTerms ≤ (out ++ [t]).length then out ++ [t]
    else keepTerms lower maxTerms (out ++ [t]) rest

namespace QueryRewriter

variable (rewriter : QueryRewriter) (cfg : RewriteConfig) (question : String)

def maxTerms : Int := cfg.maxTerms.getD 8

def buildHydePrompt : Except Exc String := do
  return rewriter.text.strip (rewriter.hydeSystem ++ "\n\n" ++ (← rewriter.hydeUser question))

def buildExpandPrompt : Except Exc String := do
  let user ← rewriter.expandUser question (maxTerms cfg)
  return rewriter.text.strip ((← rewriter.expandSystem (maxTerms cfg)) ++ "\n\n" ++ user)

def mergeExpandKeywords (rawKeywords : String) : String :=
  let commas := rawKeywords.map fun c => if c = ';' then ',' else c
  let tokens := ((rewriter.text.splitLines commas).flatMap splitCommas).map
    (stripChars [' ', '·', '-', '•', '\t'])
  let rough := tokens.filter fun t =>
    t ≠ "" && rewriter.text.lower t ≠ rewriter.text.lower question
  let out := keepTerms rewriter.text.lower (maxTerms cfg) [] rough
  if out.isEmpty then question else question ++ " " ++ joinWith " " out

def buildPrompt (strategy : String) : Except Exc String :=
  if strategy = "hyde" then rewriter.buildHydePrompt question
  else rewriter.buildExpandPrompt cfg question

def askLlm (strategy : String) (generate : LlmRequest → Except Exc String) :
    Except Exc String := do
  generate {
    prompt := ← rewriter.buildPrompt cfg question strategy
    model := if cfg.model.getD "" = "" then rewriter.defaultModel else cfg.model.getD ""
    maxTokens := cfg.maxTokens.getD 256
    temperature := cfg.temperature.getD 0.3 }

def ofOutput (strategy raw : String) : RewriteResult :=
  let body := rewriter.text.strip raw
  if body = "" then
    { rewrittenQuery := question
      strategy := strategy
      rawOutput := some raw
      error := some "empty_output" }
  else
    let rewritten := if strategy = "hyde" then body
      else rewriter.mergeExpandKeywords cfg question body
    { rewrittenQuery := if rewritten = "" then question else rewritten
      strategy := strategy
      rawOutput := some raw }

def rewriteBy (strategy : String) : RewriteResult :=
  let endpoint := cfg.endpoint.getD "tenant_slm"
  match rewriter.llms endpoint with
  | none =>
    { rewrittenQuery := question
      strategy := strategy
      error := some ("endpoint_not_available:" ++ endpoint) }
  | some generate =>
    match rewriter.askLlm cfg question strategy generate with
    | .error e =>
      { rewrittenQuery := question
        strategy := strategy
        error := some ("llm_error:" ++ e.typeName) }
    | .ok raw => rewriter.ofOutput cfg question strategy raw

def strategyOf : String :=
  let named := cfg.strategy.getD ""
  rewriter.text.lower (if named = "" then "none" else named)

def rewrite (config : Option RewriteConfig) : RewriteResult :=
  let cfg := config.getD {}
  let strategy := rewriter.strategyOf cfg
  if !cfg.enable.getD false || strategy ∈ ["none", "null", ""] then
    { rewrittenQuery := question, strategy := "none" }
  else if strategy ∉ ["hyde", "llm_expand"] then
    { rewrittenQuery := question
      strategy := "none"
      error := some ("unknown_strategy:" ++ strategy) }
  else rewriter.rewriteBy cfg question strategy

/-- The strategy that the configuration switches on. -/
def strategy? (cfg : RewriteConfig) : Option String :=
  let strategy := rewriter.strategyOf cfg
  if cfg.enable.getD false ∧ strategy ∈ ["hyde", "llm_expand"] then some strategy else none

/-- What the LLM of a strategy says of the question, if it says anything. -/
def answer? (strategy : String) : Option String :=
  ((rewriter.llms (cfg.endpoint.getD "tenant_slm")).bind fun generate =>
    ((rewriter.askLlm cfg question strategy generate).toOption.map rewriter.text.strip)).filter
      (· ≠ "")

/-- The strategy and the answer that a rewriting is made of. -/
def reply? (config : Option RewriteConfig) : Option (String × String) :=
  (rewriter.strategy? (config.getD {})).bind fun strategy =>
    (rewriter.answer? (config.getD {}) question strategy).map (strategy, ·)

/-- The query that an answer makes of the question. -/
def rewriting (strategy body : String) : String :=
  if strategy = "hyde" then body else rewriter.mergeExpandKeywords cfg question body

theorem mergeExpandKeywords_ne_empty {body : String} (h : question ≠ "") :
    rewriter.mergeExpandKeywords cfg question body ≠ "" := by
  simp only [mergeExpandKeywords]
  split
  · exact h
  · rw [String.append_assoc]
    intro hempty
    have hlist := congrArg String.toList hempty
    rw [String.toList_append] at hlist
    exact h (String.toList_inj.mp (List.append_eq_nil_iff.mp hlist).1)

theorem rewriteBy_query (strategy : String) (h : question ≠ "") :
    (rewriter.rewriteBy cfg question strategy).rewrittenQuery =
      ((rewriter.answer? cfg question strategy).map
        (rewriter.rewriting cfg question strategy)).getD question := by
  rw [rewriteBy, answer?]
  cases rewriter.llms (cfg.endpoint.getD "tenant_slm") with
  | none => rfl
  | some generate =>
    simp only [Option.bind_some]
    cases rewriter.askLlm cfg question strategy generate with
    | error e => rfl
    | ok raw =>
      simp only [ofOutput, Except.toOption, Option.map_some]
      by_cases hbody : rewriter.text.strip raw = ""
      · rw [if_pos hbody, Option.filter_some_neg (by simpa using hbody)]
        rfl
      · rw [if_neg hbody, Option.filter_some_pos (by simpa using hbody)]
        simp only [Option.map_some, Option.getD_some, rewriting]
        split
        · rfl
        · rw [if_neg (rewriter.mergeExpandKeywords_ne_empty cfg question h)]

/-- The question goes to retrieval as it is, unless an LLM has answered. -/
theorem rewrite_query (config : Option RewriteConfig) (h : question ≠ "") :
    (rewriter.rewrite question config).rewrittenQuery =
      ((rewriter.reply? question config).map fun reply =>
        rewriter.rewriting (config.getD {}) question reply.1 reply.2).getD question := by
  rw [rewrite, reply?, strategy?]
  generalize config.getD {} = cfg
  generalize rewriter.strategyOf cfg = strategy
  cases henable : cfg.enable.getD false with
  | false => rfl
  | true =>
    by_cases hnone : strategy ∈ ["none", "null", ""]
    · have hunknown : strategy ∉ ["hyde", "llm_expand"] := by
        rintro hknown
        simp only [List.mem_cons, List.not_mem_nil, or_false] at hnone hknown
        obtain rfl | rfl | rfl := hnone <;> simp at hknown
      simp [hnone, hunknown]
    · by_cases hknown : strategy ∈ ["hyde", "llm_expand"]
      · simp only [hnone, hknown]
        simp only [Bool.not_true, Bool.false_or, decide_false, Bool.false_eq_true, if_false,
          not_true_eq_false, and_self, if_true, Option.bind_some, Option.map_map]
        exact rewriter.rewriteBy_query cfg question strategy h
      · simp [hnone, hknown]

theorem rewrite_ne_empty (config : Option RewriteConfig) (h : question ≠ "") :
    (rewriter.rewrite question config).rewrittenQuery ≠ "" := by
  rw [rewriter.rewrite_query question config h]
  cases hreply : rewriter.reply? question config with
  | none => exact h
  | some reply =>
    obtain ⟨strategy, hstrategy, hanswer⟩ := Option.bind_eq_some_iff.mp hreply
    obtain ⟨body, hbody, rfl⟩ := Option.map_eq_some_iff.mp hanswer
    have hspoken : body ≠ "" := by simpa using (Option.filter_eq_some_iff.mp hbody).2
    simp only [Option.map_some, Option.getD_some, rewriting]
    split
    · exact hspoken
    · exact rewriter.mergeExpandKeywords_ne_empty _ question h

end QueryRewriter

end DomainRag.Chat
