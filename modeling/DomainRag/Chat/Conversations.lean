import DomainRag.Chat.LogActions
import DomainRag.Chat.StreamLog
import DomainRag.Lib.Threads

/-! # Conversations

The turns of a conversation are read back from the chat log, as the history of the next question and
as the messages of the conversation. Both reads ask for the domain and the conversation only. The
repository, which decides whether a user may see a conversation at all, asks for the user as well.
-/

namespace DomainRag.Chat

open Verifier (SupportType Citation)

variable {V S : Type}

section Reader

structure ChatLogListFilters (S : Type) where
  userId : Option String := none
  conversationId : Option String := none
  fallbackOnly : Bool := false
  uiMode : Option String := none
  keyword : Option String := none
  citationType : Option String := none
  minConfidence : Option S := none
  maxConfidence : Option S := none

structure ChatLogRecord (S : Type) where
  id : String
  payload : ChatLogPayload S

structure ChatLogListResult (S : Type) where
  items : List (ChatLogRecord S)
  total : Nat
  page : Int
  pageSize : Int

def SupportType.reads (text : String) : SupportType → Bool
  | .direct => text = "direct"
  | .synthesis => text = "synthesis"
  | .inference => text = "inference"
  | .conflict => text = "conflict"
  | .other (.str raw) => text = raw
  | .other _ => false

/-- The texts of a record that a keyword is looked for in. -/
def haystack (payload : ChatLogPayload S) : String :=
  " ".intercalate ([payload.question] ++ payload.rewrittenQuery.toList ++ [payload.answer])

variable [LE S] [DecidableLE S]

def rowMatches (lower : String → String) (f : ChatLogListFilters S)
    (payload : ChatLogPayload S) : Bool :=
  f.userId.all (· = payload.userId) && f.conversationId.all (some · = payload.conversationId) &&
    (!f.fallbackOnly || payload.fallbackReason.any (· ≠ "")) && f.uiMode.all (· = payload.uiMode) &&
    f.citationType.all (fun t => payload.citationTypes.any (SupportType.reads t)) &&
    f.minConfidence.all (· ≤ payload.confidence) && f.maxConfidence.all (payload.confidence ≤ ·) &&
    f.keyword.all fun k => k = "" ∨ (lower k).toList <:+: (lower (haystack payload)).toList

/-- A page of the records of a domain, the latest first. -/
def listByTenant (lower : String → String) (records : List (ChatLogPayload S)) (domainId : String)
    (filters : ChatLogListFilters S) (page pageSize : Int) : ChatLogListResult S :=
  let page := max 1 page
  let pageSize := max 1 (min pageSize 100)
  let rows := ((records.filter (·.domainId = domainId)).filter (rowMatches lower filters)).reverse
  let start := ((page - 1) * pageSize).toNat
  let number (i : Nat) := String.ofList (List.leftpad 8 '0' (toString (rows.length - 1 - i)).toList)
  { items := (rows.drop start).take pageSize.toNat |>.zipIdx start |>.map fun (payload, i) =>
      ⟨"inmem-" ++ number i, payload⟩
    total := rows.length
    page := page
    pageSize := pageSize }

end Reader

section Repository

/-- What the chat endpoints share: the log, and the titles and deletions of conversations. -/
structure ChatSite (S : Type) where
  writer : InMemoryChatLogWriter S := {}
  titleOverrides : Dict String String := .empty
  deleted : List String := []

structure ConversationRecord where
  id : String
  domainId : String
  userId : String
  title : Option String
  messageCount : Nat

namespace ChatSite

/-- The turns of a user under one conversation id, which is not empty and not deleted. -/
def conversationFor (site : ChatSite S) (domainId userId id : String) :
    List (ChatLogPayload S) :=
  site.writer.records.filter fun r => r.domainId = domainId ∧ r.userId = userId ∧
    r.conversationId = some id ∧ id ≠ "" ∧ id ∉ site.deleted

def recordFromGroup (site : ChatSite S) (domainId userId id : String)
    (recs : List (ChatLogPayload S)) : ConversationRecord where
  id := id
  domainId := domainId
  userId := userId
  title := match site.titleOverrides.get? id, recs with
    | some title, _ => some title
    | none, first :: _ =>
      if first.question = "" then none else some (String.ofList (first.question.toList.take 80))
    | none, [] => none
  messageCount := recs.length

def getConversation (site : ChatSite S) (domainId userId id : String) : Option ConversationRecord :=
  match site.conversationFor domainId userId id with
  | [] => none
  | recs => some (site.recordFromGroup domainId userId id recs)

def updateTitle (site : ChatSite S) (domainId userId id title : String) : ChatSite S :=
  match site.conversationFor domainId userId id with
  | [] => site
  | _ => { site with titleOverrides := site.titleOverrides.set id title }

def deleteConversation (site : ChatSite S) (domainId userId id : String) : ChatSite S :=
  match site.conversationFor domainId userId id with
  | [] => site
  | _ => { site with deleted := site.deleted ++ [id] }

end ChatSite

end Repository

section Turns

/-- A question to `chat_structured`, with the identifiers that the service draws for it. -/
structure ChatCall where
  domainId : String
  userId : String
  user : UserContext
  question : String
  conversationId : Option String
  newRequestId : String
  newConversationId : String
  defaultModel : String

def ChatCall.conversation (call : ChatCall) : String :=
  orDefault call.conversationId call.newConversationId

inductive ChatMessage (S : Type) where
  | user (content messageId : String)
  | assistant (content messageId : String) (citations : List (Citation S))
      (citationTypes : List SupportType) (fallbackReason : Option String)
      (grounding : Option Grounding) (assessmentItems : List AssessmentItem)

variable [LE S] [DecidableLE S]

/-- The records that the history is made of: the last three turns of the conversation, the oldest
first, and none for a new conversation. -/
def historyRecords (lower : String → String) (site : ChatSite S) (call : ChatCall) :
    List (ChatLogRecord S) :=
  if call.conversationId = none then []
  else
    ((listByTenant lower site.writer.records call.domainId
      { conversationId := some call.conversation } 1 10).items.take 3).reverse

def historyTurns (record : ChatLogRecord S) : List Turn :=
  (if record.payload.question = "" then []
    else [⟨"user", String.ofList (record.payload.question.toList.take 600)⟩]) ++
  (if record.payload.answer = "" then []
    else [⟨"assistant", String.ofList (record.payload.answer.toList.take 1500)⟩])

/-- A read that fails leaves the question without a history. -/
def loadHistory (lower : String → String) (fault : Option Exc) (site : ChatSite S)
    (call : ChatCall) : List Turn :=
  match fault with
  | some _ => []
  | none => (historyRecords lower site call).flatMap historyTurns

def messageRecords (lower : String → String) (site : ChatSite S)
    (domainId conversationId : String) : List (ChatLogRecord S) :=
  (listByTenant lower site.writer.records domainId { conversationId := some conversationId }
    1 100).items.reverse

def messagesOf (record : ChatLogRecord S) : List (ChatMessage S) :=
  (if record.payload.question = "" then []
    else [.user record.payload.question record.payload.requestId]) ++
  [.assistant record.payload.answer record.payload.requestId record.payload.citations
    record.payload.citationTypes record.payload.fallbackReason
    record.payload.routingDecision.grounding record.payload.routingDecision.assessmentItems]

def listMessages (lower : String → String) (site : ChatSite S) (domainId conversationId : String) :
    List (ChatMessage S) :=
  (messageRecords lower site domainId conversationId).flatMap messagesOf

end Turns

section Endpoints

inductive ChatEndpoint where
  | chat (call : ChatCall)
  | chatStream (request : StreamingRequest)
  | getConversation (domainId userId id : String)
  | patchConversation (domainId userId id title : String)
  | deleteConversation (domainId userId id : String)

/-- What a step of an endpoint meets: the graph and the streaming service of the moment, and the
error of the log reader, if it raises. -/
structure ChatHost (V S : Type) where
  deps : RAGGraphDeps V S
  streaming : StreamingChatService S
  config : TenantConfig S
  lower : String → String
  readFault : Option Exc := none

inductive ChatStage (S : Type) where
  | loading (call : ChatCall)
  | answering (request : ChatRequest)
  | streaming (request : StreamingRequest)
  | looking (domainId userId id : String)
  | listing (record : ConversationRecord)
  | retitling (domainId userId id title : String)
  | deleting (domainId userId id : String)
  | answered (ending : Machine.Ending Node (RAGState S) Exc)
  | streamed (events : List StreamEvent)
  | shown (record : ConversationRecord) (messages : List (ChatMessage S))
  | missing
  | done

def ChatCall.request (call : ChatCall) (history : List Turn) : ChatRequest where
  requestId := call.newRequestId
  domainId := call.domainId
  userId := call.userId
  conversationId := some call.conversation
  question := call.question
  history := history
  userContext := some call.user
  defaultModel := some call.defaultModel

def Call.record? : Call S → Option (ChatLogPayload S)
  | .logged payload => some payload
  | _ => none

def ChatSite.write (site : ChatSite S) (payloads : List (ChatLogPayload S)) : ChatSite S :=
  { site with writer := payloads.foldl (fun writer p => (writer.write p).2) site.writer }

variable [LinearOrder S] [Zero S] [One S] [Add S] [Sub S] [Mul S] [Div S] [NatCast S]
  [OfScientific S]

def ChatHost.chatStructured (host : ChatHost V S) (site : ChatSite S) (request : ChatRequest) :
    Machine.Run Node (RAGState S) Exc (Call S) :=
  chatRun { host.deps with chatLogWriter := some fun p => .ok (site.writer.write p).1 } request

def ChatHost.chatStreaming (host : ChatHost V S) (site : ChatSite S) (request : StreamingRequest) :
    StreamRun S :=
  { host.streaming with chatLogWriter := some fun p => .ok (site.writer.write p).1 }.stream request
    host.config

def chatStep (host : ChatHost V S) (site : ChatSite S) : ChatStage S → ChatSite S × ChatStage S
  | .loading call =>
    (site, .answering (call.request (loadHistory host.lower host.readFault site call)))
  | .answering request =>
    let run := host.chatStructured site request
    (site.write (run.calls.filterMap Call.record?), .answered run.ending)
  | .streaming request =>
    let run := host.chatStreaming site request
    (site.write (run.calls.filterMap StreamCall.record?), .streamed run.events)
  | .looking domainId userId id =>
    match site.getConversation domainId userId id with
    | none => (site, .missing)
    | some record => (site, .listing record)
  | .listing record =>
    (site, .shown record (listMessages host.lower site record.domainId record.id))
  | .retitling domainId userId id title => (site.updateTitle domainId userId id title, .done)
  | .deleting domainId userId id => (site.deleteConversation domainId userId id, .done)
  | stage => (site, stage)

def ChatEndpoint.enter : ChatEndpoint → ChatStage S
  | chat call => .loading call
  | chatStream request => .streaming request
  | getConversation domainId userId id => .looking domainId userId id
  | patchConversation domainId userId id title => .retitling domainId userId id title
  | deleteConversation domainId userId id => .deleting domainId userId id

def chatThreads (V S : Type) [LinearOrder S] [Zero S] [One S] [Add S] [Sub S] [Mul S] [Div S]
    [NatCast S] [OfScientific S] :
    Threads (ChatSite S) (ChatStage S) ChatEndpoint (ChatHost V S) where
  enter := ChatEndpoint.enter
  step := chatStep

end Endpoints

end DomainRag.Chat
