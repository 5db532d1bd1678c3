import Mathlib.Data.List.DropRight
import DomainRag.Lib.Dumps
import DomainRag.Lib.Utf8
import DomainRag.Chat.Streaming

/-! # The event stream

The endpoint writes every event of the chat as a frame of UTF-8 bytes. `chatStream` gets the bytes
in pieces that the network chooses: it decodes them, cuts the frames off its buffer and hands the
data of a frame to the handler that its event names.
-/

namespace DomainRag.Chat

/-- How floats are spelled; the text is one that a document may hold. -/
structure FloatText where
  text : Rat → List Char
  isNumber : ∀ q, Json.IsNumber (text q)

section Server

def severityText : Pii.Severity → String
  | .low => "low"
  | .medium => "medium"
  | .high => "high"

def actionText : Pii.Action → String
  | .block => "block"
  | .warn => "warn"
  | .log => "log"
  | .mask => "mask"

def findingDict (finding : Pii.FindingRecord) : Value :=
  .dict [("category", .str finding.category),
    ("severity", .str (severityText finding.severity)),
    ("position", .list [.int finding.position.1, .int finding.position.2]),
    ("masked_form", .str finding.maskedForm),
    ("action", .str (actionText finding.action))]

/-- `asdict` -/
def ClassificationResult.toLogDict (cls : ClassificationResult) : Value :=
  .dict [("query_type", .str cls.queryType),
    ("support_type", optional cls.supportType),
    ("complexity", optional cls.complexity),
    ("tier1_matched", optional cls.tier1Matched),
    ("tier2_called", .bool cls.tier2Called),
    ("tier2_parse_ok", .bool cls.tier2ParseOk),
    ("tier2_error", optional cls.tier2Error),
    ("raw_response", optional cls.rawResponse)]

def ClassifierDecision.dict : ClassifierDecision → Value
  | .none => .dict []
  | .skipped queryType => .dict [("skipped", .bool true), ("query_type", .str queryType)]
  | .result cls => cls.toLogDict

def streamRoutingDict (record : RoutingRecord) : Value :=
  .dict [("matched_rule", optional record.matchedRule),
    ("selected_model", optional record.selectedModel),
    ("selected_lora", record.selectedLora),
    ("use_rag", .bool record.useRag),
    ("ui_mode", .str record.uiMode)]

def StreamMetadata.dict (metadata : StreamMetadata) (latencyMs : Int) : Value :=
  .dict [("ui_mode", .str "chat_streaming"),
    ("llm_model", optional metadata.llmModel),
    ("lora_adapter", metadata.loraAdapter),
    ("latency_ms", .int latencyMs),
    ("pii", .dict [("input_pii_found", .list (metadata.inputPiiFound.map findingDict)),
      ("output_pii_masked", .list (metadata.outputPiiMasked.map findingDict))]),
    ("classifier_decision", metadata.classifierDecision.dict),
    ("routing_decision", streamRoutingDict metadata.routingDecision),
    ("citation_disabled", .bool true)]

def StreamEvent.event : StreamEvent → String
  | .token _ => "token"
  | .complete .. => "complete"
  | .error .. => "error"
  | .fallback .. => "fallback"

/-- The data of an event. Only a blocked question names the categories that block it. -/
def StreamEvent.data (latencyMs : Int) : StreamEvent → List (String × Value)
  | .token text => [("text", .str text)]
  | .complete messageId conversationId metadata =>
    [("message_id", .str messageId),
      ("conversation_id", .str conversationId),
      ("metadata", metadata.dict latencyMs)]
  | .error reason detail => [("reason", .str reason), ("detail", .str detail)]
  | .fallback reason blockedCategories message messageId conversationId =>
    [("reason", .str reason)] ++
      (if reason = "input_pii_blocked" then
        [("blocked_categories", .list (blockedCategories.map .str))] else []) ++
      [("message", .str message), ("message_id", .str messageId),
        ("conversation_id", .str conversationId)]

variable (floats : FloatText) (latencyMs : Int)

def StreamEvent.json (event : StreamEvent) : Json :=
  (Value.dict (event.data latencyMs)).json floats.text

/-- The lines of an event. -/
def StreamEvent.frame (event : StreamEvent) : List Char :=
  ("event: ".toList ++ event.event.toList) ++
    '\n' :: ("data: ".toList ++ (Value.dict (event.data latencyMs)).dumps floats.text)

/-- What `_sse` yields for an event. -/
def StreamEvent.sse (event : StreamEvent) : List UInt8 :=
  Utf8.encode (event.frame floats latencyMs ++ ['\n', '\n'])

end Server

section Browser

/-- White space and line ends of ECMAScript. -/
def isTrimmed (c : Char) : Bool :=
  c.toNat ∈ [0x09, 0x0A, 0x0B, 0x0C, 0x0D, 0x20, 0xA0, 0x1680, 0x2028, 0x2029, 0x202F, 0x205F,
    0x3000, 0xFEFF] || (0x2000 ≤ c.toNat && c.toNat ≤ 0x200A)

def trim (cs : List Char) : List Char := (cs.dropWhile isTrimmed).rdropWhile isTrimmed

structure FrameFields where
  event : List Char := "message".toList
  dataLines : List (List Char) := []

def FrameFields.line (fields : FrameFields) (line : List Char) : FrameFields :=
  if "event:".toList <+: line then { fields with event := trim (line.drop 6) }
  else if "data:".toList <+: line then
    { fields with dataLines := fields.dataLines ++ [trim (line.drop 5)] }
  else fields

def FrameFields.data (fields : FrameFields) : List Char := ['\n'].intercalate fields.dataLines

def frameFields (raw : List Char) : FrameFields := (raw.splitOn '\n').foldl FrameFields.line {}

inductive HandlerCall where
  | token (text : List Char)
  | complete (payload : Json)
  | fallback (payload : Json)
  | error (payload : Json)

/-- Which of the optional handlers there are, and how a value that is no string is shown. -/
structure StreamingChatHandlers where
  onFallback : Bool := true
  onError : Bool := true
  string : Json → List Char

/-- The last member of that name. -/
def member? (key : List Char) (members : List (List Char × Json)) : Option Json :=
  (members.reverse.find? fun m => m.1 = key).map Prod.snd

theorem member?_single (key : List Char) (v : Json) : member? key [(key, v)] = some v := by
  simp [member?]

variable (handlers : StreamingChatHandlers)

/-- `String(parsed.text ?? '')`, which `null` has no property for. -/
def tokenText? : Json → Option (List Char)
  | .null => none
  | .object members =>
    match member? "text".toList members with
    | none | some .null => some []
    | some (.string s) => some s
    | some v => some (handlers.string v)
  | _ => some []

def handle (event : List Char) (parsed : Json) : Option HandlerCall :=
  if event = "token".toList then (tokenText? handlers parsed).map .token
  else if event = "complete".toList then some (.complete parsed)
  else if event = "fallback".toList then
    if handlers.onFallback then some (.fallback parsed) else none
  else if event = "error".toList then
    if handlers.onError then some (.error parsed) else none
  else none

/-- What is done with a frame. Data that is no document is passed over. -/
def dispatch (raw : List Char) : Option HandlerCall :=
  if (frameFields raw).data = [] then none
  else (Json.parse (frameFields raw).data).bind (handle handlers (frameFields raw).event)

def sseFraming : Framing Char (List Char) := .separated ['\n', '\n'] (List.cons_ne_nil _ _)

def chatStreamReader : Reader (Utf8.StreamDecoder × sseFraming.Buffer) UInt8 HandlerCall :=
  (Utf8.reader.comp sseFraming.reader).filterMap (dispatch handlers)

/-- The handler calls of `chatStream` on the pieces that `reader.read` returns. -/
def chatStream (pieces : List (List UInt8)) : List HandlerCall :=
  ((chatStreamReader handlers).readAll ({}, .empty) pieces).2

end Browser

section Delivery

variable {floats : FloatText} {latencyMs : Int}

theorem newline_notMem {cs : List Char} (h : Json.Printable cs) : '\n' ∉ cs :=
  fun hmem => absurd (h _ hmem) (by decide)

theorem event_mem (event : StreamEvent) :
    event.event ∈ ["token", "complete", "error", "fallback"] := by
  cases event <;> simp [StreamEvent.event]

theorem newline_notMem_event (event : StreamEvent) :
    '\n' ∉ "event: ".toList ++ event.event.toList :=
  (by decide : ∀ name ∈ ["token", "complete", "error", "fallback"],
    '\n' ∉ "event: ".toList ++ name.toList) _ (event_mem event)

theorem newline_notMem_data (floats : FloatText) (v : Value) : '\n' ∉ "data: ".toList ++ v.dumps floats.text := by
  rw [List.mem_append, not_or]
  exact ⟨by decide, newline_notMem (Value.printable_dumps floats.isNumber v)⟩

theorem trim_event (event : StreamEvent) :
    trim (' ' :: event.event.toList) = event.event.toList :=
  (by decide : ∀ name ∈ ["token", "complete", "error", "fallback"],
    trim (' ' :: name.toList) = name.toList) _ (event_mem event)

theorem exists_dumps_dict (floats : FloatText) (kvs : List (String × Value)) :
    ∃ body, (Value.dict kvs).dumps floats.text = '{' :: (body ++ ['}']) :=
  Json.write_object _ _

theorem trim_dumps (kvs : List (String × Value)) :
    trim (' ' :: (Value.dict kvs).dumps floats.text) = (Value.dict kvs).dumps floats.text := by
  obtain ⟨body, hbody⟩ := exists_dumps_dict floats kvs
  have hopen : ¬ isTrimmed '{' = true := by decide
  have hclose : ¬ isTrimmed '}' = true := by decide
  rw [hbody, trim, List.dropWhile_cons_of_pos (by decide), List.dropWhile_cons_of_neg hopen,
    ← List.cons_append, List.rdropWhile_concat_neg _ _ _ hclose]

theorem line_event (fields : FrameFields) (name : List Char) :
    fields.line ("event: ".toList ++ name) = { fields with event := trim (' ' :: name) } := by
  have hname : "event: ".toList ++ name = "event:".toList ++ ' ' :: name := rfl
  rw [FrameFields.line, hname, if_pos (List.prefix_append _ _)]
  rfl

theorem line_data (fields : FrameFields) (data : List Char) :
    fields.line ("data: ".toList ++ data) =
      { fields with dataLines := fields.dataLines ++ [trim (' ' :: data)] } := by
  have hdata : "data: ".toList ++ data = "data:".toList ++ ' ' :: data := rfl
  have hevent : ¬ "event:".toList <+: "data:".toList ++ ' ' :: data := fun hprefix =>
    absurd (List.cons_prefix_cons.mp hprefix).1 (by decide)
  rw [FrameFields.line, hdata, if_neg hevent, if_pos (List.prefix_append _ _)]
  rfl

theorem frameFields_lines {name data : List Char} (hname : '\n' ∉ "event: ".toList ++ name)
    (hdata : '\n' ∉ "data: ".toList ++ data) :
    frameFields (("event: ".toList ++ name) ++ '\n' :: ("data: ".toList ++ data)) =
      ⟨trim (' ' :: name), [trim (' ' :: data)]⟩ := by
  have hsplit := List.splitOn_append_cons_self_of_not_mem hname ("data: ".toList ++ data)
  rw [List.splitOn_eq_singleton hdata] at hsplit
  rw [frameFields, hsplit, List.foldl_cons, line_event, List.foldl_cons, line_data]
  rfl

theorem frameFields_frame (event : StreamEvent) :
    frameFields (event.frame floats latencyMs) =
      ⟨event.event.toList, [(Value.dict (event.data latencyMs)).dumps floats.text]⟩ := by
  have hlines := frameFields_lines (newline_notMem_event event)
    (newline_notMem_data floats (.dict (event.data latencyMs)))
  rw [trim_event, trim_dumps] at hlines
  exact hlines

/-- A frame is handed on as the event that it was written for. -/
theorem dispatch_frame (handlers : StreamingChatHandlers) (event : StreamEvent) :
    dispatch handlers (event.frame floats latencyMs) =
      handle handlers event.event.toList (event.json floats latencyMs) := by
  have hdata : FrameFields.data ⟨event.event.toList,
      [(Value.dict (event.data latencyMs)).dumps floats.text]⟩ =
      (Value.dict (event.data latencyMs)).dumps floats.text := List.intercalate_singleton
  obtain ⟨body, hbody⟩ := exists_dumps_dict floats (event.data latencyMs)
  have hne : (Value.dict (event.data latencyMs)).dumps floats.text ≠ [] := by
    rw [hbody]
    exact List.cons_ne_nil _ _
  rw [dispatch, frameFields_frame, hdata, if_neg hne, Value.parse_dumps floats.isNumber,
    Option.bind_some]
  rfl

variable (floats latencyMs) in
/-- The text of an event, with the blank line. -/
def StreamEvent.text (event : StreamEvent) : List Char :=
  event.frame floats latencyMs ++ ['\n', '\n']

theorem cut_text (floats : FloatText) (latencyMs : Int) (event : StreamEvent) (rest : List Char) :
    sseFraming.cut (event.text floats latencyMs ++ rest) =
      some (event.frame floats latencyMs, rest) := by
  have hne : "data: ".toList ++ (Value.dict (event.data latencyMs)).dumps floats.text ≠ [] :=
    List.cons_ne_nil _ _
  rw [StreamEvent.text, List.append_assoc]
  exact cutAt_blankLine (newline_notMem_event event) (newline_notMem_data floats _) hne rest

theorem head?_event (event : StreamEvent) (rest : List Char) :
    (event.frame floats latencyMs ++ rest).head? ≠ some Utf8.byteOrderMark := by
  change some 'e' ≠ _
  decide

theorem head?_flatMap_text (events : List StreamEvent) :
    (events.flatMap fun event => event.text floats latencyMs).head? ≠ some Utf8.byteOrderMark := by
  cases events with
  | nil => exact (nofun : none ≠ some _)
  | cons event events =>
    rw [List.flatMap_cons, StreamEvent.text, List.append_assoc]
    exact head?_event event _

theorem encode_flatMap_text (events : List StreamEvent) :
    Utf8.encode (events.flatMap fun event => event.text floats latencyMs) =
      events.flatMap fun event => event.sse floats latencyMs := by
  induction events with
  | nil => rfl
  | cons event events ih =>
    rw [List.flatMap_cons, Utf8.encode_append, ih, List.flatMap_cons]
    rfl

/-- A part of the bytes of an event does not reach the blank line that ends it. -/
theorem cut_part {event : StreamEvent} {part : List UInt8} (begun : Bool)
    (hpart : part <+: event.sse floats latencyMs) (hproper : part ≠ event.sse floats latencyMs) :
    sseFraming.cut (Utf8.reader.read ⟨{}, begun⟩ part).2 = none := by
  have hbytes : event.sse floats latencyMs =
      Utf8.encode (event.frame floats latencyMs ++ ['\n']) ++ [10] := by
    rw [StreamEvent.sse, List.append_cons, Utf8.encode_append]
    rfl
  have hshort : part <+: Utf8.encode (event.frame floats latencyMs ++ ['\n']) := by
    rw [hbytes] at hpart hproper
    exact (List.prefix_concat_iff.mp hpart).resolve_left hproper
  have hread := Utf8.read_encode_prefix begun (head?_event event _) hshort
  have hlength := hread.length_le
  have hcut := cut_text floats latencyMs event []
  rw [List.append_nil] at hcut
  apply Framing.cut_of_prefix hcut
  · apply hread.trans
    rw [StreamEvent.text, List.prefix_append_right_inj]
    exact List.prefix_append ['\n'] ['\n']
  · intro heq
    rw [heq, StreamEvent.text] at hlength
    simp only [List.length_append, List.length_cons, List.length_nil] at hlength
    omega

end Delivery

section

variable (floats : FloatText) (latencyMs : Int) (handlers : StreamingChatHandlers)

/-- The handler call that an event asks for. -/
def StreamEvent.call (event : StreamEvent) : Option HandlerCall :=
  handle handlers event.event.toList (event.json floats latencyMs)

theorem call_token (text : String) :
    (StreamEvent.token text).call floats latencyMs handlers = some (.token text.toList) := by
  have hjson : (StreamEvent.token text).json floats latencyMs =
      .object [("text".toList, .string text.toList)] := by
    simp only [StreamEvent.json, StreamEvent.data, Value.json, Value.jsonMembers]
  have hmember : member? "text".toList [("text".toList, Json.string text.toList)] =
      some (.string text.toList) := by
    simp [member?]
  rw [StreamEvent.call, hjson, StreamEvent.event, handle, if_pos rfl, tokenText?, hmember]
  rfl

theorem call_complete (messageId conversationId : String) (metadata : StreamMetadata) :
    (StreamEvent.complete messageId conversationId metadata).call floats latencyMs handlers =
      some (.complete ((StreamEvent.complete messageId conversationId metadata).json floats
        latencyMs)) := by
  rw [StreamEvent.call, StreamEvent.event, handle, if_neg (by decide), if_pos rfl]

theorem sse_ne_nil (event : StreamEvent) : event.sse floats latencyMs ≠ [] := by
  rw [StreamEvent.sse, Utf8.encode_append]
  exact List.append_ne_nil_of_right_ne_nil _ (by decide)

/-- The handlers are called for the events that arrived as a whole, once each and in their order,
however the network cuts the bytes into pieces and wherever the connection breaks. -/
theorem chatStream_events (events : List StreamEvent) (next : StreamEvent) (part : List UInt8)
    (hpart : part <+: next.sse floats latencyMs) (hproper : part ≠ next.sse floats latencyMs)
    (pieces : List (List UInt8))
    (hpieces : pieces.flatten =
      (events.flatMap fun event => event.sse floats latencyMs) ++ part) :
    chatStream handlers pieces =
      events.filterMap fun event => event.call floats latencyMs handlers := by
  have hdecoded : (Utf8.reader.read {} pieces.flatten).2 =
      (events.flatMap fun event => event.text floats latencyMs) ++
        (Utf8.reader.read ⟨{}, !(events.flatMap fun event =>
          event.text floats latencyMs).isEmpty⟩ part).2 := by
    rw [hpieces, ← encode_flatMap_text, Utf8.reader.read_append,
      Utf8.read_encode false (head?_flatMap_text events), Bool.false_or]
  have hdrain := sseFraming.drain_flatMap
    (fun (event : StreamEvent) (_ : event ∈ events) rest => cut_text floats latencyMs event rest)
    (Utf8.reader.read ⟨{}, !(events.flatMap fun event =>
      event.text floats latencyMs).isEmpty⟩ part).2
  rw [Framing.drain_of_none (cut_part _ hpart hproper), List.append_nil] at hdrain
  rw [chatStream, Reader.readAll_eq]
  change ((sseFraming.drain ((Utf8.reader.read {} pieces.flatten).2)).2).filterMap
    (dispatch handlers) = _
  rw [hdecoded, hdrain, List.filterMap_map]
  congr 1
  exact funext (dispatch_frame handlers)

end

section Greeting

def integerFloats : FloatText := ⟨fun q => Json.intText q.num, fun q => Json.isNumber_intText q.num⟩

def greetingHandlers : StreamingChatHandlers where
  string _ := []

def greeting : List StreamEvent := [.token "안녕", .error "llm_error" "ReadTimeout"]

def greetingBytes : List UInt8 := greeting.flatMap fun event => event.sse integerFloats 0

/-- The cut stands inside a character, and the connection breaks inside the third event. -/
theorem chatStream_events_greeting :
    chatStream greetingHandlers [greetingBytes.take 31, greetingBytes.drop 31 ++ [0x65, 0x76]] =
      greeting.filterMap fun event => event.call integerFloats 0 greetingHandlers :=
  chatStream_events integerFloats 0 greetingHandlers greeting (.token "") [0x65, 0x76]
    (by decide +kernel) (by decide +kernel) _ (by
      rw [List.flatten_cons, List.flatten_singleton, ← List.append_assoc, List.take_append_drop]
      rfl)

end Greeting

end DomainRag.Chat
