import DomainRag.Chat.EventStream
import DomainRag.Retrieval.Service

/-! # The answer of the LLM server

`VllmLLMClient.stream` reads the lines of the server's own event stream and yields the contents of
its chunks. Put before the streaming chat it gives the text that the browser shows.
-/

namespace DomainRag.Chat

namespace VllmLLMClient

def strip (cs : List Char) : List Char :=
  (cs.dropWhile Retrieval.isSpace).rdropWhile Retrieval.isSpace

def attributeError (v : Json) : Exc :=
  let name := match v with
    | .null => "NoneType"
    | .bool _ => "bool"
    | .number text => if text.all fun c => c.isDigit || c = '-' then "int" else "float"
    | .string _ => "str"
    | .array _ => "list"
    | .object _ => "dict"
  ⟨"AttributeError", s!"'{name}' object has no attribute 'get'"⟩

/-- `v.get(key, default)` -/
def get (v : Json) (key : List Char) (default : Json) : Except Exc Json :=
  match v with
  | .object members => .ok ((member? key members).getD default)
  | v => .error (attributeError v)

/-- `chunk["choices"][0]`, unless one of the errors that are caught is raised. -/
def firstChoice? (chunk : Json) : Option Json :=
  match chunk with
  | .object members =>
    match member? "choices".toList members with
    | some (.array (choice :: _)) => some choice
    | some (.string (c :: _)) => some (.string [c])
    | _ => none
  | _ => none

/-- The content of a chunk; without a first choice the chunk is passed over. -/
def content? (chunk : Json) : Option (Except Exc Json) :=
  (firstChoice? chunk).map fun choice => do
    let delta ← get choice "delta".toList (.object [])
    get delta "content".toList .null

def truthy : Json → Bool
  | .null => false
  | .bool b => b
  | .number text => (text.takeWhile fun c => c ≠ 'e' && c ≠ 'E').any fun c => '1' ≤ c && c ≤ '9'
  | .string s => !s.isEmpty
  | .array items => !items.isEmpty
  | .object members => !members.isEmpty

/-- The values that are yielded for the lines of the answer, and the error that ends them. -/
def stream : List (List Char) → List Json × Option Exc
  | [] => ([], none)
  | line :: lines =>
    if ¬ "data:".toList <+: line then stream lines
    else if strip (line.drop 5) = "[DONE]".toList then ([], none)
    else
      match (Json.parse (strip (line.drop 5))).bind content? with
      | none => stream lines
      | some (.error e) => ([], some e)
      | some (.ok v) =>
        if truthy v then (v :: (stream lines).1, (stream lines).2) else stream lines

/-- The text of a content. A content that is no string is not looked at here. -/
def contentText : Json → String
  | .string s => String.ofList s
  | _ => ""

/-- The client as the streaming chat calls it. -/
def llm (answer : LlmStreamRequest → List (List Char)) (request : LlmStreamRequest) :
    List String × Option Exc :=
  ((stream (answer request)).1.map contentText, (stream (answer request)).2)

section Answer

/-- The lines of a server that sends these contents: comments and blank lines may stand between
the chunks, and what comes after the end is not read. -/
inductive AnswerLines (gap : List Char) : List (List Char) → List (List Char) → Prop
  | closed : AnswerLines gap [] []
  | done (rest : List (List Char)) : AnswerLines gap ("data: [DONE]".toList :: rest) []
  | other {line : List Char} {lines contents : List (List Char)} :
    ¬ "data:".toList <+: line → AnswerLines gap lines contents →
    AnswerLines gap (line :: lines) contents
  | chunk {members : List (List Char × Json)} {s : List Char} {lines contents : List (List Char)} :
    (Json.object members).WellFormed → content? (.object members) = some (.ok (.string s)) →
    AnswerLines gap lines contents →
    AnswerLines gap (("data: ".toList ++ (Json.object members).write gap) :: lines) (s :: contents)
  | silent {members : List (List Char × Json)} {lines contents : List (List Char)} :
    (Json.object members).WellFormed →
    content? (.object members) = none ∨ content? (.object members) = some (.ok .null) →
    AnswerLines gap lines contents →
    AnswerLines gap (("data: ".toList ++ (Json.object members).write gap) :: lines) contents

variable {gap : List Char} {lines contents : List (List Char)}

theorem stream_other {line : List Char} (h : ¬ "data:".toList <+: line) :
    stream (line :: lines) = stream lines := by
  rw [stream, if_pos h]

theorem strip_write (members : List (List Char × Json)) :
    strip (' ' :: (Json.object members).write gap) = (Json.object members).write gap := by
  obtain ⟨body, hbody⟩ := Json.write_object gap members
  have hopen : ¬ Retrieval.isSpace '{' = true := by decide
  have hclose : ¬ Retrieval.isSpace '}' = true := by decide
  rw [hbody, strip, List.dropWhile_cons_of_pos (by decide), List.dropWhile_cons_of_neg hopen,
    ← List.cons_append, List.rdropWhile_concat_neg _ _ _ hclose]

/-- A line with a chunk is read as the chunk that was written. -/
theorem stream_chunk (hgap : ∀ c ∈ gap, Json.isSpace c) {members : List (List Char × Json)}
    (hwf : (Json.object members).WellFormed) :
    stream (("data: ".toList ++ (Json.object members).write gap) :: lines) =
      match content? (.object members) with
      | none => stream lines
      | some (.error e) => ([], some e)
      | some (.ok v) =>
        if truthy v then (v :: (stream lines).1, (stream lines).2) else stream lines := by
  have hline : "data: ".toList ++ (Json.object members).write gap =
      "data:".toList ++ ' ' :: (Json.object members).write gap := rfl
  have hdrop : ("data:".toList ++ ' ' :: (Json.object members).write gap).drop 5 =
      ' ' :: (Json.object members).write gap := rfl
  have hdone : ¬ (Json.object members).write gap = "[DONE]".toList := by
    obtain ⟨body, hbody⟩ := Json.write_object gap members
    rw [hbody]
    intro heq
    exact absurd (List.cons.inj heq).1 (by decide)
  rw [stream, hline, if_neg (not_not.mpr (List.prefix_append _ _)), hdrop, strip_write,
    if_neg hdone, Json.parse_write hgap hwf]
  rfl

/-- The client yields the contents that are not empty. -/
theorem stream_answers (hgap : ∀ c ∈ gap, Json.isSpace c) (h : AnswerLines gap lines contents) :
    stream lines = ((contents.filter fun s => !s.isEmpty).map .string, none) := by
  induction h with
  | closed => rfl
  | done rest => rfl
  | other hline _ ih => rw [stream_other hline, ih]
  | @chunk members s lines contents hwf hcontent _ ih =>
    rw [stream_chunk hgap hwf, hcontent]
    cases s with
    | nil => exact ih
    | cons c s =>
      change (_ :: (stream _).1, (stream _).2) = _
      rw [ih]
      rfl
  | silent hwf hcontent _ ih =>
    rw [stream_chunk hgap hwf]
    rcases hcontent with hcontent | hcontent
    · rw [hcontent, ih]
    · rw [hcontent]
      exact ih

end Answer

end VllmLLMClient

section Shown

namespace StreamingChatService

variable {S : Type} {service : StreamingChatService S} {request : StreamingRequest}
  {config : TenantConfig S}

theorem saveLog_events {run : StreamRun S} {payload : ChatLogPayload S}
    {event : Option String → StreamEvent} (h : (service.saveLog run payload event).raised = none) :
    ∃ id, (service.saveLog run payload event).events = run.events ++ [event id] := by
  rw [saveLog] at h ⊢
  cases hwriter : service.chatLogWriter with
  | none => exact ⟨none, rfl⟩
  | some write =>
    rw [hwriter] at h
    simp only at h ⊢
    cases hwrite : write payload with
    | error e =>
      rw [hwrite] at h
      cases h
    | ok id => exact ⟨some id, rfl⟩

theorem saveLog_head? {run : StreamRun S} {payload : ChatLogPayload S}
    {event : Option String → StreamEvent} {call : StreamCall S} (h : run.calls.head? = some call) :
    (service.saveLog run payload event).calls.head? = some call := by
  have happend : (run.calls ++ [StreamCall.logged payload]).head? = some call := by
    rw [List.head?_append, h, Option.some_or]
  rw [saveLog]
  cases service.chatLogWriter with
  | none => exact h
  | some write =>
    simp only
    cases write payload with
    | error e => exact happend
    | ok id => exact happend

variable [Zero S]

/-- How a stream goes on that ends without an exception. -/
inductive Course (service : StreamingChatService S) (request : StreamingRequest)
    (run : StreamRun S) : Prop
  | fallback (reason message : String) (blocked : List String)
    (hevents : run.events = [service.fallbackEvent request reason blocked message])
  | answer (llmRequest : LlmStreamRequest) (conversationId : String) (metadata : StreamMetadata)
    (hcall : run.calls.head? = some (.llm llmRequest))
    (hllm : (service.llm llmRequest).2 = none)
    (hevents : run.events = ((service.llm llmRequest).1.filter (· ≠ "")).map .token ++
      [.complete (service.requestId request) conversationId metadata])
  | failure (llmRequest : LlmStreamRequest) (e : Exc)
    (hcall : run.calls.head? = some (.llm llmRequest))
    (hllm : (service.llm llmRequest).2 = some e)
    (hevents : run.events = ((service.llm llmRequest).1.filter (· ≠ "")).map .token ++
      [.error "llm_error" e.typeName])

theorem streamBlocked_course {checked : StreamCheck}
    (h : (service.streamBlocked request checked).raised = none) :
    Course service request (service.streamBlocked request checked) := by
  obtain ⟨id, hevents⟩ := saveLog_events h
  exact .fallback _ _ _ hevents

theorem streamRefused_course {checked : StreamCheck} {routing : StreamRouting}
    {reason : FallbackReason}
    (h : (service.streamRefused request checked routing reason).raised = none) :
    Course service request (service.streamRefused request checked routing reason) := by
  obtain ⟨id, hevents⟩ := saveLog_events h
  exact .fallback _ _ _ hevents

theorem streamTokens_course {checked : StreamCheck} {routing : StreamRouting} {prompt : String}
    (h : (service.streamTokens request config checked routing prompt).raised = none) :
    Course service request (service.streamTokens request config checked routing prompt) := by
  rw [streamTokens] at h ⊢
  split
  · rename_i e hllm
    simp only [hllm] at h
    obtain ⟨id, hevents⟩ := saveLog_events h
    exact .failure _ e (saveLog_head? rfl) hllm hevents
  · rename_i hllm
    simp only [hllm] at h
    obtain ⟨id, hevents⟩ := saveLog_events h
    exact .answer _ _ _ (saveLog_head? rfl) hllm hevents

theorem streamRouted_course {checked : StreamCheck} {routing : StreamRouting}
    {refusal : Option FallbackReason}
    (h : (service.streamRouted request config checked routing refusal).raised = none) :
    Course service request (service.streamRouted request config checked routing refusal) := by
  cases refusal with
  | some reason => exact streamRefused_course h
  | none =>
    rw [streamRouted] at h ⊢
    cases hprompt : service.prompt request.question with
    | error e =>
      simp only [hprompt] at h
      cases h
    | ok prompt =>
      simp only [hprompt] at h
      exact streamTokens_course h

theorem stream_course (h : (service.stream request config).raised = none) :
    Course service request (service.stream request config) := by
  rw [stream] at h ⊢
  by_cases hblocked : (service.checkInput request config).check.blocked = true
  · simp only [hblocked, if_true] at h ⊢
    exact streamBlocked_course h
  · simp only [if_neg hblocked] at h ⊢
    cases hcls : service.classify request config with
    | error e =>
      simp only [hcls] at h
      cases h
    | ok cls =>
      simp only [hcls] at h ⊢
      cases hroute : service.route config cls with
      | error e =>
        simp only [hroute] at h
        cases h
      | ok decision =>
        simp only [hroute] at h ⊢
        exact streamRouted_course h

end StreamingChatService

namespace VllmLLMClient

variable {gap : List Char} {answer : LlmStreamRequest → List (List Char)}
  {contents : LlmStreamRequest → List (List Char)}

theorem llm_answers (hgap : ∀ c ∈ gap, Json.isSpace c)
    (hanswer : ∀ r, AnswerLines gap (answer r) (contents r)) (r : LlmStreamRequest) :
    llm answer r = (((contents r).filter fun s => !s.isEmpty).map String.ofList, none) := by
  rw [llm, stream_answers hgap (hanswer r), List.map_map]
  rfl

theorem filter_texts (contents : List (List Char)) :
    ((contents.filter fun s => !s.isEmpty).map String.ofList).filter (· ≠ "") =
      (contents.filter fun s => !s.isEmpty).map String.ofList := by
  apply List.filter_eq_self.mpr
  intro text htext
  obtain ⟨s, hs, rfl⟩ := List.mem_map.mp htext
  obtain ⟨-, hne⟩ := List.mem_filter.mp hs
  rw [decide_eq_true_eq]
  intro hempty
  have hnil : s = [] := by
    rw [← String.toList_ofList (l := s), hempty]
    rfl
  rw [hnil] at hne
  cases hne

theorem flatten_filter (contents : List (List Char)) :
    (contents.filter fun s => !s.isEmpty).flatten = contents.flatten := by
  induction contents with
  | nil => rfl
  | cons s contents ih =>
    cases s with
    | nil => exact ih
    | cons c s =>
      rw [List.filter_cons_of_pos rfl, List.flatten_cons, ih, List.flatten_cons]

end VllmLLMClient

open StreamingChatService VllmLLMClient

def HandlerCall.text : HandlerCall → List Char
  | .token text => text
  | _ => []

variable {S : Type} [Zero S]

/-- The browser shows all of the contents that the LLM server sent, in their order and nothing
else, and is told once that the answer is complete; or it is told of a fallback. -/
theorem answer_shown {service : StreamingChatService S} {request : StreamingRequest}
    {config : TenantConfig S} {gap : List Char} {answer : LlmStreamRequest → List (List Char)}
    {contents : LlmStreamRequest → List (List Char)} (hgap : ∀ c ∈ gap, Json.isSpace c)
    (hanswer : ∀ r, AnswerLines gap (answer r) (contents r)) (hllm : service.llm = llm answer)
    (hraised : (service.stream request config).raised = none) (floats : FloatText)
    (latencyMs : Int) (handlers : StreamingChatHandlers) (pieces : List (List UInt8))
    (hpieces : pieces.flatten = (service.stream request config).events.flatMap fun event =>
      event.sse floats latencyMs) :
    (∃ reason message blocked, chatStream handlers pieces =
      [service.fallbackEvent request reason blocked message].filterMap fun event =>
        event.call floats latencyMs handlers) ∨
    ∃ r conversationId metadata,
      (service.stream request config).calls.head? = some (.llm r) ∧
      chatStream handlers pieces = ((contents r).filter fun s => !s.isEmpty).map .token ++
        [.complete ((StreamEvent.complete (service.requestId request) conversationId
          metadata).json floats latencyMs)] ∧
      (chatStream handlers pieces).flatMap HandlerCall.text = (contents r).flatten := by
  have hcalls := chatStream_events floats latencyMs handlers
    (service.stream request config).events (.token "") [] (List.nil_prefix)
    (sse_ne_nil floats latencyMs _).symm pieces (by rw [hpieces, List.append_nil])
  have hresult := llm_answers hgap hanswer
  rw [hcalls]
  cases stream_course hraised with
  | fallback reason message blocked hevents =>
    left
    exact ⟨reason, message, blocked, by rw [hevents]⟩
  | failure r e hcall herror hevents =>
    rw [hllm, hresult] at herror
    cases herror
  | answer r conversationId metadata hcall hdone hevents =>
    right
    rw [hllm, hresult, filter_texts] at hevents
    have hshown : (service.stream request config).events.filterMap
        (fun event => event.call floats latencyMs handlers) =
        ((contents r).filter fun s => !s.isEmpty).map .token ++
          [.complete ((StreamEvent.complete (service.requestId request) conversationId
            metadata).json floats latencyMs)] := by
      rw [hevents, List.filterMap_append, List.map_map, List.filterMap_map,
        List.filterMap_cons_some (call_complete floats latencyMs handlers _ _ _),
        List.filterMap_nil, ← List.filterMap_eq_map]
      congr 2
      funext s
      change StreamEvent.call _ _ _ (.token (String.ofList s)) = _
      rw [call_token, String.toList_ofList]
      rfl
    refine ⟨r, conversationId, metadata, hcall, hshown, ?_⟩
    rw [hshown, List.flatMap_append, List.flatMap_map]
    change List.flatMap id _ ++ [] = _
    rw [List.append_nil, List.flatMap_id, flatten_filter]

end Shown

section Greeting

open VllmLLMClient

def greetingChunk (content : String) : List (List Char × Json) :=
  [("choices".toList, .array [.object
    [("delta".toList, .object [("content".toList, .string content.toList)])]])]

def greetingAnswer (_ : LlmStreamRequest) : List (List Char) :=
  ["data: ".toList ++ (Json.object (greetingChunk "안녕")).write [], [],
    "data: ".toList ++ (Json.object (greetingChunk "")).write [],
    "data: ".toList ++ (Json.object (greetingChunk "하세요")).write [],
    "data: [DONE]".toList]

theorem greeting_answers (r : LlmStreamRequest) :
    AnswerLines [] (greetingAnswer r) ["안녕".toList, [], "하세요".toList] := by
  have hwf : ∀ content, (Json.object (greetingChunk content)).WellFormed :=
    fun _ => ⟨⟨⟨⟨trivial, trivial⟩, trivial⟩, trivial⟩, trivial⟩
  have hcontent : ∀ content : String, content? (.object (greetingChunk content)) =
      some (.ok (.string content.toList)) := by
    intro content
    have hfirst : firstChoice? (.object (greetingChunk content)) = some (.object
        [("delta".toList, .object [("content".toList, .string content.toList)])]) := by
      simp only [firstChoice?, greetingChunk, member?_single]
    rw [content?, hfirst, Option.map_some]
    simp only [VllmLLMClient.get, member?_single, Option.getD_some]
    rfl
  exact .chunk (hwf _) (hcontent "안녕") (.other (by decide) (.chunk (hwf _) (hcontent "")
    (.chunk (hwf _) (hcontent "하세요") (.done []))))

def greetingService : StreamingChatService Rat where
  llm := llm greetingAnswer
  prompt := .ok
  defaultModel := "tenant_slm"
  repr _ := ""
  newRequestId := "r1"
  newConversationId := "c1"

def greetingRequest : StreamingRequest where
  domainId := "d1"
  userId := "u1"
  question := "안녕?"

def greetingStream : List UInt8 :=
  (greetingService.stream greetingRequest {}).events.flatMap fun event =>
    event.sse integerFloats 0

theorem answer_shown_greeting :
    (∃ reason message blocked, chatStream greetingHandlers [greetingStream.take 31,
        greetingStream.drop 31] =
      [greetingService.fallbackEvent greetingRequest reason blocked message].filterMap fun event =>
        event.call integerFloats 0 greetingHandlers) ∨
    ∃ r conversationId metadata,
      (greetingService.stream greetingRequest {}).calls.head? = some (.llm r) ∧
      chatStream greetingHandlers [greetingStream.take 31, greetingStream.drop 31] =
        (["안녕".toList, [], "하세요".toList].filter fun s => !s.isEmpty).map .token ++
          [.complete ((StreamEvent.complete (greetingService.requestId greetingRequest)
            conversationId metadata).json integerFloats 0)] ∧
      (chatStream greetingHandlers [greetingStream.take 31, greetingStream.drop 31]).flatMap
        HandlerCall.text = ["안녕".toList, [], "하세요".toList].flatten := by
  have hsaved : ∀ run payload event, (greetingService.saveLog run payload event).raised =
      run.raised := fun _ _ _ => rfl
  have htokens : ∀ checked routing prompt, (greetingService.streamTokens greetingRequest {} checked
      routing prompt).raised = none := by
    intro checked routing prompt
    rw [StreamingChatService.streamTokens]
    split <;> rw [hsaved]
  have hraised : (greetingService.stream greetingRequest {}).raised = none := by
    rw [StreamingChatService.stream]
    split
    · exact hsaved _ _ _
    · exact htokens (greetingService.checkInput greetingRequest {})
        (greetingService.routing greetingRequest { queryType := "free_chat" } none) "안녕?"
  have hgap : ∀ c ∈ ([] : List Char), Json.isSpace c := nofun
  have hllm : greetingService.llm = llm greetingAnswer := rfl
  exact answer_shown hgap greeting_answers hllm hraised integerFloats 0 greetingHandlers _ (by
      rw [List.flatten_cons, List.flatten_singleton, List.take_append_drop, greetingStream])

end Greeting

end DomainRag.Chat
