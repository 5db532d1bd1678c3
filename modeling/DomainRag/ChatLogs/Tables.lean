import DomainRag.Lib.Program
import DomainRag.Lib.Value

/-! # The chat log tables

The writer stores one row of the chat log for a turn, and on the first turn of a conversation a row
of the conversation with the start of the question as its title. The eraser deletes or masks the
rows of the chat log that belong to a user.
-/

namespace DomainRag.ChatLogs

open Program

structure LogColumns where
  retrievedChunks : Value
  citations : Value
  citationTypes : Value
  llmModel : Value
  embeddingModel : Value
  rerankerModel : Value
  promptVersion : Value
  latencyMs : Value
  uiMode : Value
  confidence : Value
  fallbackReason : Value
  unsupportedRatio : Value
  verifierMetrics : Value
  routingDecision : Value
  classifierDecision : Value
  modelFailureChain : Value
  inferenceJudgeResults : Value
  conflictGroups : Value
  inputPiiFound : Value
  outputPiiMasked : Value
  piiStoragePolicy : String

structure Texts where
  question : String
  rewrittenQuery : Option String
  answer : String

structure ChatLogPayload where
  domainId : String
  requestId : String
  userId : Option String
  conversationId : Option String
  texts : Texts
  columns : LogColumns

structure ChatLogRow where
  id : String
  domainId : String
  requestId : String
  userId : Option String
  conversationId : String
  question : Option String
  rewrittenQuery : Option String
  answer : Option String
  columns : LogColumns
  createdAt : Nat

structure ConversationRow where
  id : String
  domainId : String
  userId : String
  title : String
  createdAt : Nat

inductive ErasureMode where
  | maskOnly
  | hardDelete
  deriving DecidableEq

structure AuditRow where
  domainId : String
  action : String
  actor : String
  reason : String
  mode : ErasureMode
  affectedRows : Nat

structure ChatTables where
  logs : List ChatLogRow
  conversations : List ConversationRow
  audits : List AuditRow

def ChatTables.empty : ChatTables := ⟨[], [], []⟩

abbrev LogTask := Program Exc ChatTables

def notNullViolation (column : String) : Exc :=
  ⟨"IntegrityError", s!"null value in column '{column}' violates not-null constraint"⟩

def uniqueViolation : Exc :=
  ⟨"IntegrityError", "duplicate key value violates unique constraint 'conversations_pkey'"⟩

def invalidUuid : Exc := ⟨"DataError", "invalid input syntax for type uuid"⟩

/-- A turn to be written, with what the database draws for it and the error that it raises, if it
refuses the row for another reason than the constraints below; `uuid` reads an identifier. -/
structure Write where
  payload : ChatLogPayload
  uuid : String → Option String
  newConversationId : String
  newRowId : String
  now : Nat
  fault : Option Exc := none

def titleOf (question : String) : String := String.ofList (question.toList.take 80)

namespace PostgresChatLogWriter

def hasConversation (t : ChatTables) (id : String) : Bool := t.conversations.any (·.id = id)

def conversationRow (w : Write) (id userId : String) : ConversationRow where
  id := id
  domainId := w.payload.domainId
  userId := userId
  title := titleOf w.payload.texts.question
  createdAt := w.now

/-- The conversation of the turn, and the row to insert for it, if any. -/
def conversationFor (t : ChatTables) (w : Write) : Except Exc (String × List ConversationRow) :=
  match w.payload.userId with
  | none => .error (notNullViolation "user_id")
  | some userId =>
    match w.payload.conversationId with
    | none =>
      if hasConversation t w.newConversationId then .error uniqueViolation
      else .ok (w.newConversationId, [conversationRow w w.newConversationId userId])
    | some cid =>
      match w.uuid cid with
      | none => .error invalidUuid
      | some id =>
        if hasConversation t id then .ok (id, []) else .ok (id, [conversationRow w id userId])

def logRow (w : Write) (conversationId : String) : ChatLogRow where
  id := w.newRowId
  domainId := w.payload.domainId
  requestId := w.payload.requestId
  userId := w.payload.userId
  conversationId := conversationId
  question := some w.payload.texts.question
  rewrittenQuery := w.payload.texts.rewrittenQuery
  answer := some w.payload.texts.answer
  columns := w.payload.columns
  createdAt := w.now

/-- Both rows are stored in one transaction. -/
def write (w : Write) : LogTask String := failing w.fault do
  let t ← get
  let (id, rows) ← Program.ofExcept (conversationFor t w)
  set { t with
    conversations := t.conversations ++ rows
    logs := t.logs ++ [logRow w id] }
  return w.payload.conversationId.getD id

end PostgresChatLogWriter

def ChatLogRow.Of (domainId userId : String) (row : ChatLogRow) : Prop :=
  row.domainId = domainId ∧ row.userId = some userId

instance (domainId userId : String) (row : ChatLogRow) : Decidable (row.Of domainId userId) :=
  inferInstanceAs (Decidable (_ ∧ _))

def ConversationRow.Of (domainId userId : String) (row : ConversationRow) : Prop :=
  row.domainId = domainId ∧ row.userId = userId

instance (domainId userId : String) (row : ConversationRow) : Decidable (row.Of domainId userId) :=
  inferInstanceAs (Decidable (_ ∧ _))

namespace PostgresChatLogEraser

structure ErasureResult where
  domainId : String
  userId : String
  mode : ErasureMode
  affectedRows : Nat
  reason : String

def masked (row : ChatLogRow) : ChatLogRow :=
  { row with
    question := none
    rewrittenQuery := none
    answer := none
    columns := { row.columns with
      retrievedChunks := .list []
      citations := .list []
      citationTypes := .list []
      inputPiiFound := .list []
      outputPiiMasked := .list []
      piiStoragePolicy := "erased" }
    userId := none }

def checkRow (row : ChatLogRow) : Except Exc ChatLogRow :=
  match row.question with
  | none => .error (notNullViolation "question")
  | some _ => .ok row

def erasedLogs (domainId userId : String) (mode : ErasureMode) (logs : List ChatLogRow) :
    Except Exc (List ChatLogRow) :=
  match mode with
  | .hardDelete => .ok (logs.filter fun row => ¬ row.Of domainId userId)
  | .maskOnly => logs.mapM fun row =>
    if row.Of domainId userId then checkRow (masked row) else .ok row

/-- The lifecycle log is written after the rows are committed. -/
def eraseMyLogs (domainId userId : String) (mode : ErasureMode) (reason : String)
    (auditFault : Option Exc) : LogTask ErasureResult := do
  let t ← get
  let logs ← Program.ofExcept (erasedLogs domainId userId mode t.logs)
  let affected := (t.logs.filter fun row => row.Of domainId userId).length
  set { t with logs := logs }
  failing auditFault do
    modify fun t => { t with audits := t.audits ++
      [⟨domainId, "user_right_to_erasure_executed", userId, reason, mode, affected⟩] }
  return ⟨domainId, userId, mode, affected, reason⟩

end PostgresChatLogEraser

end DomainRag.ChatLogs
