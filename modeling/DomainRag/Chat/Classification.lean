import DomainRag.Chat.Classifier
import DomainRag.Lib.Except
import DomainRag.Lib.Shape

/-! # What becomes of a question

A rule with a match decides, else the model, else the configuration. A rule that is no object, a
pattern that is no text, a template that cannot be filled in and JSON other than an object raise
instead.
-/

namespace DomainRag.Chat.Classifier.QueryClassifier

variable {x : QueryClassifier} {question : String}

section Rules

variable {rule p : Value} {rules : List Value} {b : Bool}

def patternsOf (rule : Value) : List Value :=
  ((rule.field "patterns" .null).orElse (.list [])).iter.toOption.getD []

/-- The pattern is valid and is found in the question. -/
def isFound (x : QueryClassifier) (question : String) : Value → Bool
  | .str p => (x.search p question).toOption.getD false
  | _ => false

def hasMatch (x : QueryClassifier) (question : String) (rule : Value) : Bool :=
  (patternsOf rule).any (x.isFound question)

/-- A pattern that can be tried: a text that is valid or is refused as a pattern. -/
def Tryable (x : QueryClassifier) (question : String) (p : Value) : Prop :=
  ∃ s, p = .str s ∧ ∀ e, x.search s question = .error e → e.typeName = "error"

/-- A rule whose patterns can be tried up to the first that is found. -/
structure Searchable (x : QueryClassifier) (question : String) (rule : Value) : Prop where
  object : rule.isDict = true
  patterns : (rule.field "patterns" .null).Loops
  tried : UpTo (fun p => x.isFound question p = false) (x.Tryable question) (patternsOf rule)

theorem isDict_of_hasMatch (h : x.hasMatch question rule = true) : rule.isDict = true := by
  cases rule with
  | dict kvs => rfl
  | null | bool _ | int _ | float _ | str _ | list _ => cases h

theorem isFound_of_tryPattern (h : x.tryPattern question p = .ok b) : b = x.isFound question p := by
  cases p with
  | str s =>
    simp only [tryPattern, searchPattern] at h
    rw [isFound]
    cases hsearch : x.search s question with
    | ok found =>
      rw [hsearch] at h
      cases h
      rfl
    | error e =>
      rw [hsearch] at h
      dsimp only at h
      split at h
      · cases h
        rfl
      · cases h
  | null | bool _ | int _ | float _ | list _ | dict _ => cases h

theorem returns_tryPattern_iff : Returns (x.tryPattern question p) ↔ x.Tryable question p := by
  cases p with
  | str s =>
    simp only [tryPattern, searchPattern, Tryable, Value.str.injEq, exists_eq_left']
    cases x.search s question with
    | ok found => exact ⟨fun _ => nofun, fun _ => returns_ok found⟩
    | error e =>
      dsimp only
      constructor
      · rintro ⟨b, h⟩ _ ⟨⟩
        split at h
        · assumption
        · cases h
      · intro h
        rw [if_pos (h e rfl)]
        exact returns_ok false
  | null | bool _ | int _ | float _ | list _ | dict _ =>
    constructor
    · rintro ⟨b, h⟩
      cases h
    · rintro ⟨s, h, -⟩
      cases h

theorem tryRule_eq_ok_iff : x.tryRule question rule = .ok b ↔
    x.Searchable question rule ∧ b = x.hasMatch question rule := by
  rw [tryRule, Except.bind_eq_ok_iff]
  simp only [Except.bind_eq_ok_iff, anyM_eq_ok_iff fun _ _ => isFound_of_tryPattern,
    returns_tryPattern_iff, Value.getD_eq_ok_iff]
  constructor
  · rintro ⟨_, ⟨hobject, rfl⟩, patterns, hpatterns, htried, rfl⟩
    have hof : patternsOf rule = patterns := by
      rw [patternsOf, hpatterns]
      rfl
    rw [hasMatch, hof]
    exact ⟨⟨hobject, Value.loops_iff.mpr ⟨patterns, hpatterns⟩, hof ▸ htried⟩, rfl⟩
  · rintro ⟨⟨hobject, hloops, htried⟩, rfl⟩
    obtain ⟨patterns, hpatterns⟩ := Value.loops_iff.mp hloops
    have hof : patternsOf rule = patterns := by
      rw [patternsOf, hpatterns]
      rfl
    rw [hasMatch, hof]
    exact ⟨_, ⟨hobject, rfl⟩, patterns, hpatterns, hof ▸ htried, rfl⟩

theorem tier1Match_eq_ok_iff {found : Option Value} : x.tier1Match question rules = .ok found ↔
    UpTo (fun rule => x.hasMatch question rule = false) (x.Searchable question) rules ∧
      found = rules.find? (x.hasMatch question) := by
  have hreturns : ∀ rule, Returns (x.tryRule question rule) ↔ x.Searchable question rule := by
    intro rule
    simp only [Returns, tryRule_eq_ok_iff, exists_and_left, exists_eq, and_true]
  rw [tier1Match, findM?_eq_ok_iff fun _ _ h => (tryRule_eq_ok_iff.mp h).2]
  simp only [hreturns]

end Rules

section Replies

variable {config : ClassifierConfig} {raw : String} {data : Value}
  {outcome : Tier2Outcome}

/-- A reply that can be read: a JSON object, or a text that is refused as JSON. -/
def Parses (x : QueryClassifier) (raw : String) : Prop :=
  match x.loads raw with
  | .ok data => data.isDict = true
  | .error e => e.typeName = "JSONDecodeError"

/-- A question that the model can be asked, with a reply that can be read. -/
structure Answerable (x : QueryClassifier) (question : String) : Prop where
  rendered : ∀ prompt, x.prompt = some prompt → x.llm.isSome → x.model.isSome →
    Returns (x.promptText question prompt)
  parsed : ∀ raw, x.ask question = .ok (.ok raw) → x.Parses raw

/-- The JSON object that a reply is. -/
def object? (x : QueryClassifier) (raw : String) : Option Value :=
  (x.loads raw).toOption.filter Value.isDict

/-- The decision of the model, with the configuration's for what it leaves out. -/
def decisionOf (x : QueryClassifier) (config : ClassifierConfig) (data : Value) :
    Dict String Value :=
  .ofList [
    ("query_type", .str (((data.field "query_type" .null).orElse
      (config.fallback "query_type" (.str "document_qa"))).text x.repr)),
    ("support_type", (data.field "support_type" .null).orElse
      (config.fallback "support_type" .null)),
    ("complexity", (data.field "complexity" .null).orElse (config.fallback "complexity" .null))]

theorem returns_readReply_iff : Returns (x.readReply config raw) ↔ x.Parses raw := by
  rw [readReply, Parses]
  cases x.loads raw with
  | error e =>
    dsimp only
    constructor
    · rintro ⟨outcome, h⟩
      split at h
      · assumption
      · cases h
    · intro h
      rw [if_pos h]
      exact returns_ok _
  | ok data =>
    constructor
    · exact fun h => (Value.returns_getD_bind_iff.mp h).1
    · intro hobject
      simp only [Value.getD_of_isDict hobject]
      exact returns_ok _

theorem readReply_eq_ok (h : x.readReply config raw = .ok outcome) :
    match x.object? raw with
    | some data => outcome = ⟨x.decisionOf config data, true, none, some raw⟩
    | none => outcome.decision = config.tier2Fallback ∧ outcome.parseOk = false := by
  rw [object?]
  rw [readReply] at h
  cases hloads : x.loads raw with
  | error e =>
    rw [hloads] at h
    dsimp only at h
    split at h
    · cases h
      exact ⟨rfl, rfl⟩
    · cases h
  | ok data =>
    rw [hloads] at h
    have hobject : data.isDict = true := (Value.returns_getD_bind_iff.mp ⟨outcome, h⟩).1
    simp only [Value.getD_of_isDict hobject] at h
    cases h
    rw [Except.toOption, Option.filter_some, if_pos hobject]
    rfl

theorem returns_ask_iff : Returns (x.ask question) ↔ ∀ prompt, x.prompt = some prompt →
    x.llm.isSome → x.model.isSome → Returns (x.promptText question prompt) := by
  rw [ask]
  cases x.llm with
  | none => exact ⟨fun _ _ _ => nofun, fun _ => returns_pure _⟩
  | some llm =>
  cases x.prompt with
  | none => exact ⟨fun _ => nofun, fun _ => returns_pure _⟩
  | some prompt =>
  cases x.model with
  | none => exact ⟨fun _ _ _ _ => nofun, fun _ => returns_pure _⟩
  | some model =>
    dsimp only
    rw [returns_bind_iff]
    constructor
    · rintro ⟨text, htext, -⟩ _ ⟨⟩ _ _
      exact ⟨text, htext⟩
    · intro h
      obtain ⟨text, htext⟩ := h prompt rfl rfl rfl
      refine ⟨text, htext, ?_⟩
      split
      · exact returns_pure _
      · exact returns_pure _

theorem returns_tier2_iff : Returns (x.tier2 question config) ↔ x.Answerable question := by
  rw [tier2, returns_bind_iff]
  constructor
  · rintro ⟨reply, hask, h⟩
    refine ⟨returns_ask_iff.mp ⟨reply, hask⟩, fun raw hraw => ?_⟩
    cases hask.symm.trans hraw
    exact returns_readReply_iff.mp h
  · rintro ⟨hrendered, hparsed⟩
    obtain ⟨reply, hask⟩ := returns_ask_iff.mpr hrendered
    refine ⟨reply, hask, ?_⟩
    cases reply with
    | error error => exact returns_pure _
    | ok raw => exact returns_readReply_iff.mpr (hparsed raw hask)

/-- The reply of the model and the JSON object that it is. -/
def reply? (x : QueryClassifier) (question : String) : Option (String × Value) :=
  match x.ask question with
  | .ok (.ok raw) => (x.object? raw).map (raw, ·)
  | _ => none

theorem tier2_eq_ok (h : x.tier2 question config = .ok outcome) :
    match x.reply? question with
    | some (raw, data) => outcome = ⟨x.decisionOf config data, true, none, some raw⟩
    | none => outcome.decision = config.tier2Fallback ∧ outcome.parseOk = false := by
  obtain ⟨reply, hask, h⟩ := Except.bind_eq_ok_iff.mp h
  rw [reply?, hask]
  cases reply with
  | error error =>
    cases h
    exact ⟨rfl, rfl⟩
  | ok raw =>
    have houtcome := readReply_eq_ok h
    dsimp only
    cases hobject : x.object? raw with
    | none =>
      rw [hobject] at houtcome
      exact houtcome
    | some data =>
      rw [hobject] at houtcome
      exact houtcome

end Replies

section Promise

variable {config : ClassifierConfig} {result : ClassificationResult}

def ruleResult (x : QueryClassifier) (rule : Value) : ClassificationResult where
  queryType := ((rule.field "query_type" .null).orElse (.str "document_qa")).text x.repr
  supportType := rule.field "support_type" .null
  complexity := rule.field "complexity" .null
  tier1Matched := some (((rule.field "name" .null).orElse (.str "unnamed")).text x.repr)

/-- The decision of the model. The configuration decides what the model leaves out. -/
def modelResult (x : QueryClassifier) (config : ClassifierConfig) (raw : String) (data : Value) :
    ClassificationResult where
  queryType :=
    let named := ((data.field "query_type" .null).orElse
      (config.fallback "query_type" (.str "document_qa"))).text x.repr
    if named = "" then "document_qa" else named
  supportType := (data.field "support_type" .null).orElse (config.fallback "support_type" .null)
  complexity := (data.field "complexity" .null).orElse (config.fallback "complexity" .null)
  tier2Called := true
  rawResponse := some raw

/-- The decision of the configuration. An empty type may be replaced. -/
structure FellBack (x : QueryClassifier) (config : ClassifierConfig) (result : ClassificationResult) :
    Prop where
  parseOk : result.tier2ParseOk = false
  queryType :
    let given := config.fallback "query_type" (.str "document_qa")
    result.queryType = given.text x.repr ∨
      given.truthy = false ∧ result.queryType = "document_qa"
  supportType : result.supportType = config.fallback "support_type" .null
  complexity : result.complexity = config.fallback "complexity" .null

/-- The result is the decision of the first rule with a match, else the model's if it is asked and
replies with a JSON object, else the configuration's. -/
def Degrades (x : QueryClassifier) (question : String) (config : ClassifierConfig)
    (result : ClassificationResult) : Prop :=
  match config.tier1Rules.find? (x.hasMatch question) with
  | some rule => result = x.ruleResult rule
  | none =>
    match if config.tier2Enable then x.reply? question else none with
    | some (raw, data) => result = x.modelResult config raw data
    | none => x.FellBack config result

theorem orElse_text_str (s d : String) (repr : Value → String) :
    ((Value.str s).orElse (.str d)).text repr = if s = "" then d else s := by
  rw [Value.orElse]
  by_cases hs : s = ""
  · rw [hs]
    rfl
  · have htruthy : (Value.str s).truthy = true := by
      simpa [Value.truthy] using hs
    rw [if_pos htruthy, if_neg hs]
    rfl

/-- The type of the second tier's fallback. -/
theorem queryType_of_fallback (config : ClassifierConfig) (repr : Value → String) :
    let given := config.fallback "query_type" (.str "document_qa")
    let shown := ((config.tier2Fallback.get? "query_type").getD .null).orElse (.str "document_qa")
    shown.text repr = given.text repr ∨ given.truthy = false ∧ shown.text repr = "document_qa" := by
  rw [ClassifierConfig.fallback]
  cases config.tier2Fallback.get? "query_type" with
  | none => exact .inl rfl
  | some v =>
    dsimp only [Option.getD_some]
    rw [Value.orElse]
    cases v.truthy with
    | true => exact .inl rfl
    | false => exact .inr ⟨rfl, rfl⟩

theorem classify_eq_ok (h : x.classify question config = .ok result) :
    x.Degrades question config result := by
  obtain ⟨found, hfound, h⟩ := Except.bind_eq_ok_iff.mp h
  obtain ⟨hrules, rfl⟩ := tier1Match_eq_ok_iff.mp hfound
  rw [Degrades]
  cases hmatch : config.tier1Rules.find? (x.hasMatch question) with
  | some rule =>
    rw [hmatch] at h
    have hobject := (Value.returns_getD_bind_iff.mp ⟨result, h⟩).1
    simp only [Value.getD_of_isDict hobject] at h
    cases h
    rfl
  | none =>
    rw [hmatch] at h
    dsimp only at h ⊢
    cases henable : config.tier2Enable with
    | false =>
      rw [henable] at h
      cases h
      exact ⟨rfl, .inl rfl, rfl, rfl⟩
    | true =>
      rw [henable, if_neg (show ¬ (!true) = true by decide)] at h
      obtain ⟨outcome, houtcome, h⟩ := Except.bind_eq_ok_iff.mp h
      cases h
      have hspec := tier2_eq_ok houtcome
      rw [if_pos rfl]
      cases hreply : x.reply? question with
      | some reply =>
        rw [hreply] at hspec
        dsimp only at hspec ⊢
        rw [hspec, modelResult, ← orElse_text_str]
        rfl
      | none =>
        rw [hreply] at hspec
        dsimp only at hspec ⊢
        obtain ⟨hdecision, hparse⟩ := hspec
        rw [hdecision]
        exact ⟨hparse, queryType_of_fallback config x.repr, rfl, rfl⟩

theorem returns_classify_iff : Returns (x.classify question config) ↔
    UpTo (fun rule => x.hasMatch question rule = false) (x.Searchable question) config.tier1Rules ∧
      (config.tier1Rules.find? (x.hasMatch question) = none → config.tier2Enable = true →
        x.Answerable question) := by
  rw [classify, returns_bind_iff]
  simp only [tier1Match_eq_ok_iff, and_assoc, exists_and_left, exists_eq_left]
  refine and_congr_right fun hrules => ?_
  cases hmatch : config.tier1Rules.find? (x.hasMatch question) with
  | some rule =>
    have hobject : rule.isDict = true := isDict_of_hasMatch (List.find?_some hmatch)
    simp only [Value.getD_of_isDict hobject]
    exact iff_of_true (returns_ok _) (by simp)
  | none =>
    dsimp only
    cases config.tier2Enable with
    | false =>
      rw [if_pos (show (!false) = true by decide)]
      exact iff_of_true (returns_pure _) (by simp)
    | true =>
      rw [if_neg (show ¬ (!true) = true by decide), forall_prop_of_true rfl,
        forall_prop_of_true rfl, ← returns_tier2_iff, returns_bind_iff]
      constructor
      · rintro ⟨outcome, houtcome, -⟩
        exact ⟨outcome, houtcome⟩
      · rintro ⟨outcome, houtcome⟩
        exact ⟨outcome, houtcome, returns_pure _⟩

/-- The classifier degrades gracefully if the rules and patterns that it comes to can be tried, and
if, when the model is asked, the templates can be rendered and the reply can be read. -/
theorem degrades_iff : (∃ result, x.classify question config = .ok result ∧
      x.Degrades question config result) ↔
    UpTo (fun rule => x.hasMatch question rule = false) (x.Searchable question) config.tier1Rules ∧
      (config.tier1Rules.find? (x.hasMatch question) = none → config.tier2Enable = true →
        x.Answerable question) := by
  rw [← returns_classify_iff]
  constructor
  · rintro ⟨result, h, -⟩
    exact ⟨result, h⟩
  · rintro ⟨result, h⟩
    exact ⟨result, h, classify_eq_ok h⟩

/-- A classifier whose model replies with JSON that is no object. -/
def nullReplying : QueryClassifier where
  llm := some fun _ _ _ => .ok "null"
  prompt := some ⟨"질문을 분류하세요.", "질문", .dict []⟩
  model := some "qwen-7b"
  search _ _ := .ok false
  render template _ := .ok template
  loads _ := .ok .null
  repr := Value.typeName

/-- The classifier asks the JSON null for a field and raises. -/
theorem null_reply_raises : ¬ ∀ x question config, ∃ result,
    classify x question config = .ok result ∧ x.Degrades question config result := by
  intro h
  obtain ⟨result, hresult, -⟩ := h nullReplying "안녕" {}
  cases hresult

end Promise

end DomainRag.Chat.Classifier.QueryClassifier
