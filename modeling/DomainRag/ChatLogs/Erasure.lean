import DomainRag.ChatLogs.Tables
import DomainRag.Lib.Except

/-! # The right to erasure

Two histories that differ in the texts of one user leave the same rows up to these texts. Erasure
has to remove what is left of them: it deletes the rows of the chat log, but the titles of the
conversations stay, and masking is refused by the table itself.
-/

namespace DomainRag.ChatLogs

open Program PostgresChatLogWriter PostgresChatLogEraser

def ChatLogPayload.Of (domainId userId : String) (payload : ChatLogPayload) : Prop :=
  payload.domainId = domainId ∧ payload.userId = some userId

instance (domainId userId : String) (payload : ChatLogPayload) :
    Decidable (payload.Of domainId userId) :=
  inferInstanceAs (Decidable (_ ∧ _))

def Write.withTexts (w : Write) (texts : Texts) : Write :=
  { w with payload := { w.payload with texts := texts } }

/-- The same write, up to the texts if it is one of the user in the domain. -/
def SameBut (domainId userId : String) (w w' : Write) : Prop :=
  ∃ texts, w' = w.withTexts texts ∧ (¬ w.payload.Of domainId userId → texts = w.payload.texts)

def after (t : ChatTables) (w : Write) : ChatTables := (write w).final t

/-- The tables after a history of writes; a write that raises is dropped. -/
def written (history : List Write) : ChatTables := history.foldl after .empty

/-- A request to erase, with the error of the lifecycle log, if it raises. -/
structure ErasureCall where
  domainId : String
  userId : String
  mode : ErasureMode
  reason : String
  auditFault : Option Exc := none

namespace ErasureCall

def task (call : ErasureCall) : LogTask ErasureResult :=
  eraseMyLogs call.domainId call.userId call.mode call.reason call.auditFault

def erased (call : ErasureCall) (t : ChatTables) : ChatTables := call.task.final t

/-- What the erasure promises: the rows that remain do not depend on the texts of the user, the rows
of others are unchanged, and a second erasure affects no row. -/
structure ForgetsUser (call : ErasureCall) (history : List Write) : Prop where
  blind : ∀ history', List.Forall₂ (SameBut call.domainId call.userId) history history' →
    (call.erased (written history')).logs = (call.erased (written history)).logs ∧
      (call.erased (written history')).conversations =
        (call.erased (written history)).conversations
  otherLogs : List.Sublist
    ((written history).logs.filter fun row => ¬ row.Of call.domainId call.userId)
    (call.erased (written history)).logs
  otherConversations : List.Sublist
    ((written history).conversations.filter fun row => ¬ row.Of call.domainId call.userId)
    (call.erased (written history)).conversations
  repeated : ∀ again : ErasureCall, again.domainId = call.domainId → again.userId = call.userId →
    again.mode = call.mode →
    (again.erased (call.erased (written history))).logs = (call.erased (written history)).logs ∧
      (again.erased (call.erased (written history))).conversations =
        (call.erased (written history)).conversations ∧
      ∀ result, again.task.result? (call.erased (written history)) = some result →
        result.affectedRows = 0

/-- The user has no conversation in the domain, and where the rows are masked no row of the chat
log either. -/
structure NothingLeft (call : ErasureCall) (t : ChatTables) : Prop where
  conversations : ∀ row ∈ t.conversations, ¬ row.Of call.domainId call.userId
  logs : call.mode = .maskOnly → ∀ row ∈ t.logs, ¬ row.Of call.domainId call.userId

end ErasureCall

section Writes

variable {t t' : ChatTables} {w w' : Write}

def stored (t : ChatTables) (w : Write) : ChatTables :=
  match w.fault, conversationFor t w with
  | none, .ok (id, rows) => { t with
    conversations := t.conversations ++ rows
    logs := t.logs ++ [logRow w id] }
  | _, _ => t

theorem after_eq (t : ChatTables) (w : Write) : after t w = stored t w := by
  have hens : Ensures (write w) t (fun _ t' => t' = stored t w) fun _ t' => t' = stored t w := by
    rw [write, ensures_failing, stored]
    refine ⟨fun e he => ?_, fun hnone => ?_⟩
    · rw [he]
    · rw [hnone, ensures_bind, ensures_get, ensures_bind, ensures_ofExcept]
      refine ⟨fun r hr => ?_, fun e he => ?_⟩
      · rw [hr]
        rfl
      · rw [he]
  exact hens.final

/-- A conversation is inserted for the user and the domain of the write, with the start of the
question. -/
theorem conversationFor_ok {id : String} {rows : List ConversationRow}
    (h : conversationFor t w = .ok (id, rows)) :
    ∃ userId, w.payload.userId = some userId ∧
      ∀ row ∈ rows, row = conversationRow w id userId := by
  unfold conversationFor at h
  split at h
  · cases h
  · rename_i userId huser
    refine ⟨userId, huser, ?_⟩
    split at h
    · split at h
      · cases h
      · cases h
        exact fun row hrow => List.mem_singleton.mp hrow
    · split at h
      · cases h
      · split at h
        · cases h
          exact nofun
        · cases h
          exact fun row hrow => List.mem_singleton.mp hrow

theorem after_cases (t : ChatTables) (w : Write) : after t w = t ∨
    ∃ id rows userId, w.payload.userId = some userId ∧
      (∀ row ∈ rows, row = conversationRow w id userId) ∧
      (after t w).conversations = t.conversations ++ rows ∧
      (after t w).logs = t.logs ++ [logRow w id] := by
  rw [after_eq, stored]
  split
  · rename_i id rows _ hfor
    obtain ⟨userId, huser, hrows⟩ := conversationFor_ok hfor
    exact .inr ⟨id, rows, userId, huser, hrows, rfl, rfl⟩
  · exact .inl rfl

end Writes

section Blanking

variable {domainId userId : String} {t t' : ChatTables} {w w' : Write}

def blankLog (domainId userId : String) (row : ChatLogRow) : ChatLogRow :=
  if row.Of domainId userId then { row with question := none, rewrittenQuery := none, answer := none }
  else row

def blankConversation (domainId userId : String) (row : ConversationRow) : ConversationRow :=
  if row.Of domainId userId then { row with title := "" } else row

/-- Two tables with the same rows up to the texts of the user. -/
structure Alike (domainId userId : String) (t t' : ChatTables) : Prop where
  logs : t'.logs.map (blankLog domainId userId) = t.logs.map (blankLog domainId userId)
  conversations : t'.conversations.map (blankConversation domainId userId) =
    t.conversations.map (blankConversation domainId userId)

theorem blankConversation_id (row : ConversationRow) :
    (blankConversation domainId userId row).id = row.id := by
  unfold blankConversation
  split <;> rfl

theorem Alike.hasConversation (h : Alike domainId userId t t') (id : String) :
    hasConversation t' id = hasConversation t id := by
  have hblank : ∀ t : ChatTables, PostgresChatLogWriter.hasConversation t id =
      (t.conversations.map (blankConversation domainId userId)).any (·.id = id) := by
    intro t
    rw [List.any_map, PostgresChatLogWriter.hasConversation]
    congr 1
    funext row
    rw [Function.comp_apply, blankConversation_id]
  rw [hblank, hblank, h.conversations]

/-- The conversation does not depend on the texts, and its row only in the title. -/
theorem conversationFor_withTexts (h : Alike domainId userId t t') (texts : Texts) :
    conversationFor t' (w.withTexts texts) = (conversationFor t w).map fun r =>
      (r.1, r.2.map fun row => { row with title := titleOf texts.question }) := by
  unfold conversationFor
  simp only [Write.withTexts, h.hasConversation]
  cases w.payload.userId with
  | none => rfl
  | some userId =>
    cases w.payload.conversationId with
    | none =>
      dsimp only
      split <;> rfl
    | some cid =>
      dsimp only
      cases w.uuid cid with
      | none => rfl
      | some id =>
        dsimp only
        split <;> rfl

theorem blankLog_logRow {texts : Texts} (id : String)
    (htexts : ¬ w.payload.Of domainId userId → texts = w.payload.texts) :
    blankLog domainId userId (logRow (w.withTexts texts) id) =
      blankLog domainId userId (logRow w id) := by
  by_cases hof : w.payload.Of domainId userId
  · have hrow : (logRow w id).Of domainId userId := hof
    have hrow' : (logRow (w.withTexts texts) id).Of domainId userId := hof
    rw [blankLog, blankLog, if_pos hrow, if_pos hrow']
    rfl
  · rw [htexts hof]
    rfl

theorem blankConversation_conversationRow {texts : Texts} (id user : String)
    (huser : w.payload.userId = some user)
    (htexts : ¬ w.payload.Of domainId userId → texts = w.payload.texts) :
    blankConversation domainId userId
        { conversationRow w id user with title := titleOf texts.question } =
      blankConversation domainId userId (conversationRow w id user) := by
  by_cases hof : w.payload.Of domainId userId
  · have hrow : (conversationRow w id user).Of domainId userId :=
      ⟨hof.1, Option.some.inj (huser.symm.trans hof.2)⟩
    have hrow' : ConversationRow.Of domainId userId
        { conversationRow w id user with title := titleOf texts.question } := hrow
    rw [blankConversation, blankConversation, if_pos hrow, if_pos hrow']
  · rw [htexts hof]
    rfl

theorem Alike.after (h : Alike domainId userId t t') (hw : SameBut domainId userId w w') :
    Alike domainId userId (after t w) (after t' w') := by
  obtain ⟨texts, rfl, htexts⟩ := hw
  have hfault : (w.withTexts texts).fault = w.fault := rfl
  rw [after_eq, after_eq, stored, stored, conversationFor_withTexts h, hfault]
  cases w.fault with
  | some e => exact h
  | none =>
    cases hfor : conversationFor t w with
    | error e => exact h
    | ok r =>
      obtain ⟨id, rows⟩ := r
      obtain ⟨user, huser, hrows⟩ := conversationFor_ok hfor
      refine ⟨?_, ?_⟩
      · have hlog := blankLog_logRow (w := w) id htexts
        simp only [Except.map, List.map_append, List.map_singleton, h.logs, hlog]
      · have hblank : ∀ row ∈ rows, blankConversation domainId userId
            { row with title := titleOf texts.question } =
            blankConversation domainId userId row := by
          intro row hrow
          rw [hrows row hrow]
          exact blankConversation_conversationRow id user huser htexts
        simp only [Except.map, List.map_append, h.conversations, List.map_map, Function.comp_def,
          List.map_congr_left hblank]

/-- Histories that differ in the texts of the user leave the same rows up to these texts. -/
theorem alike_written {history history' : List Write}
    (h : List.Forall₂ (SameBut domainId userId) history history') :
    Alike domainId userId (written history) (written history') := by
  have hrun : ∀ t t', Alike domainId userId t t' →
      Alike domainId userId (history.foldl ChatLogs.after t) (history'.foldl ChatLogs.after t') := by
    induction h with
    | nil => exact fun _ _ h => h
    | cons hw _ ih => exact fun t t' h => ih _ _ (h.after hw)
  exact hrun _ _ ⟨rfl, rfl⟩

theorem of_blankLog (row : ChatLogRow) :
    (blankLog domainId userId row).Of domainId userId ↔ row.Of domainId userId := by
  unfold blankLog
  split <;> rfl

theorem of_blankConversation (row : ConversationRow) :
    (blankConversation domainId userId row).Of domainId userId ↔ row.Of domainId userId := by
  unfold blankConversation
  split <;> rfl

/-- Lists that agree up to a change of the rows of one kind have the same other rows. -/
theorem filter_of_map_eq {R : Type} {p : R → Prop} [DecidablePred p] {b : R → R}
    (hp : ∀ r, p (b r) ↔ p r) (hb : ∀ r, ¬ p r → b r = r) {l l' : List R}
    (h : l'.map b = l.map b) : (l'.filter fun r => ¬ p r) = l.filter fun r => ¬ p r := by
  have hfilter : ∀ l : List R, ((l.map b).filter fun r => ¬ p r) = l.filter fun r => ¬ p r := by
    intro l
    induction l with
    | nil => rfl
    | cons r l ih =>
      rw [List.map_cons, List.filter_cons, List.filter_cons, ih]
      by_cases hr : p r
      · simp only [hp, hr, not_true_eq_false, decide_false, Bool.false_eq_true, if_false]
      · simp only [hr, not_false_eq_true, decide_true, if_true, hb r hr]
  rw [← hfilter l', ← hfilter l, h]

theorem exists_of_map_eq {R : Type} {p : R → Prop} {b : R → R} (hp : ∀ r, p (b r) ↔ p r)
    {l l' : List R} (h : l'.map b = l.map b) (hr : ∃ r ∈ l, p r) : ∃ r ∈ l', p r := by
  obtain ⟨r, hmem, hpr⟩ := hr
  have hmap : b r ∈ l'.map b := h ▸ List.mem_map_of_mem hmem
  obtain ⟨r', hmem', heq⟩ := List.mem_map.mp hmap
  exact ⟨r', hmem', (hp r').mp (heq ▸ (hp r).mpr hpr)⟩

theorem Alike.filter_logs (h : Alike domainId userId t t') :
    (t'.logs.filter fun row => ¬ row.Of domainId userId) =
      t.logs.filter fun row => ¬ row.Of domainId userId :=
  filter_of_map_eq of_blankLog (fun _ hrow => if_neg hrow) h.logs

theorem Alike.filter_conversations (h : Alike domainId userId t t') :
    (t'.conversations.filter fun row => ¬ row.Of domainId userId) =
      t.conversations.filter fun row => ¬ row.Of domainId userId :=
  filter_of_map_eq of_blankConversation (fun _ hrow => if_neg hrow) h.conversations

end Blanking

section Effects

variable {domainId userId : String}

/-- Masking a row takes away its question, which the table requires. -/
theorem erasedLogs_maskOnly {logs logs' : List ChatLogRow}
    (h : erasedLogs domainId userId .maskOnly logs = .ok logs') :
    logs' = logs ∧ ∀ row ∈ logs, ¬ row.Of domainId userId := by
  have hrow : ∀ row row' : ChatLogRow, (if row.Of domainId userId then checkRow (masked row)
      else .ok row) = .ok row' → row = row' ∧ ¬ row.Of domainId userId := by
    intro row row' heq
    by_cases hof : row.Of domainId userId
    · rw [if_pos hof] at heq
      cases heq
    · rw [if_neg hof] at heq
      exact ⟨Except.ok.inj heq, hof⟩
  induction mapM_eq_ok_iff.mp h with
  | nil => exact ⟨rfl, nofun⟩
  | cons hhead hrest ih =>
    obtain ⟨rfl, hof⟩ := hrow _ _ hhead
    obtain ⟨rfl, hothers⟩ := ih (mapM_eq_ok_iff.mpr hrest)
    refine ⟨rfl, fun row hmem => ?_⟩
    obtain rfl | hmem := List.mem_cons.mp hmem
    · exact hof
    · exact hothers row hmem

/-- The rows that an erasure leaves: deleting takes those of the user, and masking leaves all of
them as they are, because it raises where there is one. -/
def remaining (call : ErasureCall) (logs : List ChatLogRow) : List ChatLogRow :=
  match call.mode with
  | .hardDelete => logs.filter fun row => ¬ row.Of call.domainId call.userId
  | .maskOnly => logs

theorem remaining_of_erasedLogs {call : ErasureCall} {logs logs' : List ChatLogRow}
    (h : erasedLogs call.domainId call.userId call.mode logs = .ok logs') :
    logs' = remaining call logs ∧
      (call.mode = .maskOnly → ∀ row ∈ logs, ¬ row.Of call.domainId call.userId) := by
  unfold remaining
  cases hmode : call.mode with
  | hardDelete =>
    rw [hmode] at h
    exact ⟨(Except.ok.inj h).symm, nofun⟩
  | maskOnly =>
    rw [hmode] at h
    obtain ⟨heq, hnone⟩ := erasedLogs_maskOnly h
    exact ⟨heq, fun _ => hnone⟩

theorem ensures_task (call : ErasureCall) (t : ChatTables) :
    Ensures call.task t
      (fun result t' => (t'.logs = remaining call t.logs ∧ t'.conversations = t.conversations) ∧
        result.affectedRows =
          (t.logs.filter fun row => row.Of call.domainId call.userId).length ∧
        (call.mode = .maskOnly → ∀ row ∈ t.logs, ¬ row.Of call.domainId call.userId))
      fun _ t' => t'.logs = remaining call t.logs ∧ t'.conversations = t.conversations := by
  rw [ErasureCall.task, eraseMyLogs, ensures_bind, ensures_get, ensures_bind, ensures_ofExcept]
  refine ⟨fun logs hlogs => ?_, fun e he => ⟨?_, rfl⟩⟩
  · obtain ⟨rfl, hnone⟩ := remaining_of_erasedLogs hlogs
    rw [ensures_bind, ensures_set, ensures_bind, ensures_failing]
    exact ⟨fun _ _ => ⟨rfl, rfl⟩, fun _ => ⟨⟨rfl, rfl⟩, rfl, hnone⟩⟩
  · unfold remaining
    cases hmode : call.mode with
    | hardDelete =>
      rw [hmode] at he
      cases he
    | maskOnly => rfl

theorem ErasureCall.erased_spec (call : ErasureCall) (t : ChatTables) :
    (call.erased t).logs = remaining call t.logs ∧
      (call.erased t).conversations = t.conversations := by
  have hens : Ensures call.task t
      (fun _ t' => t'.logs = remaining call t.logs ∧ t'.conversations = t.conversations)
      fun _ t' => t'.logs = remaining call t.logs ∧ t'.conversations = t.conversations :=
    (ensures_task call t).mono (fun _ _ h => h.1) fun _ _ h => h
  exact hens.final

end Effects

section Histories

variable {domainId userId : String} {history : List Write}

theorem written_invariant {P : ChatTables → Prop} (hempty : P .empty)
    (hstep : ∀ w ∈ history, ∀ t, P t → P (after t w)) : P (written history) := by
  have hrun : ∀ t, P t → P (history.foldl after t) := by
    induction history with
    | nil => exact fun _ h => h
    | cons w history ih =>
      intro t h
      exact ih (fun w' hw' => hstep w' (List.mem_cons_of_mem w hw')) _
        (hstep w List.mem_cons_self t h)
  exact hrun _ hempty

/-- A user with a conversation has a row of the chat log. -/
theorem logged_of_conversation
    (h : ∃ row ∈ (written history).conversations, row.Of domainId userId) :
    ∃ row ∈ (written history).logs, row.Of domainId userId := by
  have hinv : ∀ row ∈ (written history).conversations, row.Of domainId userId →
      ∃ row ∈ (written history).logs, row.Of domainId userId := by
    refine written_invariant (P := fun t => ∀ row ∈ t.conversations, row.Of domainId userId →
      ∃ row ∈ t.logs, row.Of domainId userId) nofun ?_
    intro w _ t ht row hrow hof
    obtain hsame | ⟨id, rows, user, huser, hrows, hconversations, hlogs⟩ := after_cases t w
    · rw [hsame] at hrow ⊢
      exact ht row hrow hof
    · rw [hconversations] at hrow
      rw [hlogs]
      obtain hrow | hrow := List.mem_append.mp hrow
      · obtain ⟨log, hlog, hlogOf⟩ := ht row hrow hof
        exact ⟨log, List.mem_append_left _ hlog, hlogOf⟩
      · rw [hrows row hrow] at hof
        exact ⟨logRow w id, List.mem_append_right _ List.mem_cons_self, hof.1,
          huser.trans (congrArg some hof.2)⟩
  obtain ⟨row, hrow, hof⟩ := h
  exact hinv row hrow hof

/-- The write with the given question in the place of the user's texts. -/
def Write.retext (domainId userId question : String) (w : Write) : Write :=
  if w.payload.Of domainId userId then w.withTexts ⟨question, none, question⟩ else w

theorem sameBut_retext (question : String) (w : Write) :
    SameBut domainId userId w (w.retext domainId userId question) := by
  unfold Write.retext
  split
  · rename_i hof
    exact ⟨_, rfl, fun hnot => absurd hof hnot⟩
  · exact ⟨w.payload.texts, rfl, fun _ => rfl⟩

theorem sameBut_map_retext (question : String) (history : List Write) :
    List.Forall₂ (SameBut domainId userId) history
      (history.map (Write.retext domainId userId question)) := by
  rw [List.forall₂_map_right_iff, List.forall₂_same]
  exact fun w _ => sameBut_retext question w

theorem question_retext {question : String} {w : Write}
    (h : (w.retext domainId userId question).payload.Of domainId userId) :
    (w.retext domainId userId question).payload.texts.question = question := by
  unfold Write.retext at h ⊢
  split
  · rfl
  · rename_i hnot
    rw [if_neg hnot] at h
    exact absurd h hnot

/-- All that the tables keep of the user's texts is then the given question. -/
theorem written_retext (question : String) (history : List Write) :
    (∀ row ∈ (written (history.map (Write.retext domainId userId question))).conversations,
        row.Of domainId userId → row.title = titleOf question) ∧
      ∀ row ∈ (written (history.map (Write.retext domainId userId question))).logs,
        row.Of domainId userId → row.question = some question := by
  refine written_invariant (P := fun t =>
    (∀ row ∈ t.conversations, row.Of domainId userId → row.title = titleOf question) ∧
      ∀ row ∈ t.logs, row.Of domainId userId → row.question = some question) ⟨nofun, nofun⟩ ?_
  intro w hw t ⟨hconv, hlog⟩
  obtain ⟨w, -, rfl⟩ := List.mem_map.mp hw
  obtain hsame | ⟨id, rows, user, huser, hrows, hconversations, hlogs⟩ :=
    after_cases t (w.retext domainId userId question)
  · rw [hsame]
    exact ⟨hconv, hlog⟩
  · rw [hconversations, hlogs]
    refine ⟨fun row hrow hof => ?_, fun row hrow hof => ?_⟩
    · obtain hrow | hrow := List.mem_append.mp hrow
      · exact hconv row hrow hof
      · rw [hrows row hrow] at hof ⊢
        exact congrArg titleOf (question_retext ⟨hof.1, huser.trans (congrArg some hof.2)⟩)
    · obtain hrow | hrow := List.mem_append.mp hrow
      · exact hlog row hrow hof
      · rw [List.mem_singleton.mp hrow] at hof ⊢
        exact congrArg some (question_retext hof)

end Histories

namespace ErasureCall

variable {call : ErasureCall} {history : List Write}

/-- Whatever of the user's is left shows the texts. -/
theorem ForgetsUser.nothingLeft (h : call.ForgetsUser history) :
    call.NothingLeft (written history) := by
  -- two histories with different questions, which the erasure must make the same
  let told := fun question => written (history.map
    (Write.retext call.domainId call.userId question))
  have halike : ∀ question, Alike call.domainId call.userId (written history) (told question) :=
    fun question => alike_written (sameBut_map_retext question history)
  have hsame : (call.erased (told "a")).logs = (call.erased (told "b")).logs ∧
      (call.erased (told "a")).conversations = (call.erased (told "b")).conversations := by
    obtain ⟨hlogs, hconversations⟩ := h.blind _ (sameBut_map_retext "a" history)
    obtain ⟨hlogs', hconversations'⟩ := h.blind _ (sameBut_map_retext "b" history)
    exact ⟨hlogs.trans hlogs'.symm, hconversations.trans hconversations'.symm⟩
  refine ⟨?_, ?_⟩
  · intro row hrow hof
    obtain ⟨row', hrow', hof'⟩ :=
      exists_of_map_eq of_blankConversation (halike "a").conversations ⟨row, hrow, hof⟩
    have ha := (written_retext "a" history).1 row' hrow' hof'
    have hconversations := hsame.2
    rw [(call.erased_spec _).2, (call.erased_spec _).2] at hconversations
    have hb := (written_retext "b" history).1 row' (hconversations ▸ hrow') hof'
    exact absurd (ha.symm.trans hb) (by decide)
  · intro hmode row hrow hof
    obtain ⟨row', hrow', hof'⟩ := exists_of_map_eq of_blankLog (halike "a").logs ⟨row, hrow, hof⟩
    have ha := (written_retext "a" history).2 row' hrow' hof'
    have hlogs : (told "a").logs = (told "b").logs := by
      have hremaining := hsame.1
      rw [(call.erased_spec _).1, (call.erased_spec _).1, remaining, remaining, hmode] at hremaining
      exact hremaining
    have hb := (written_retext "b" history).2 row' (hlogs ▸ hrow') hof'
    exact absurd (ha.symm.trans hb) (by decide)

/-- Where nothing of the user's is left after the erasure, the rest does not depend on the texts. -/
theorem remaining_alike {t t' : ChatTables} (h : Alike call.domainId call.userId t t')
    (hnone : call.mode = .maskOnly → ∀ row ∈ t.logs, ¬ row.Of call.domainId call.userId) :
    remaining call t'.logs = remaining call t.logs := by
  unfold remaining
  cases hmode : call.mode with
  | hardDelete => exact h.filter_logs
  | maskOnly =>
    have hnone' : ∀ row ∈ t'.logs, ¬ row.Of call.domainId call.userId := by
      intro row hrow hof
      obtain ⟨row', hrow', hof'⟩ := exists_of_map_eq of_blankLog h.logs.symm ⟨row, hrow, hof⟩
      exact hnone hmode row' hrow' hof'
    have hfilter := h.filter_logs
    rwa [List.filter_eq_self.mpr fun row hrow => decide_eq_true (hnone' row hrow),
      List.filter_eq_self.mpr fun row hrow => decide_eq_true (hnone hmode row hrow)] at hfilter

theorem conversations_alike {t t' : ChatTables} (h : Alike call.domainId call.userId t t')
    (hnone : ∀ row ∈ t.conversations, ¬ row.Of call.domainId call.userId) :
    t'.conversations = t.conversations := by
  have hnone' : ∀ row ∈ t'.conversations, ¬ row.Of call.domainId call.userId := by
    intro row hrow hof
    obtain ⟨row', hrow', hof'⟩ :=
      exists_of_map_eq of_blankConversation h.conversations.symm ⟨row, hrow, hof⟩
    exact hnone row' hrow' hof'
  have hfilter := h.filter_conversations
  rwa [List.filter_eq_self.mpr fun row hrow => decide_eq_true (hnone' row hrow),
    List.filter_eq_self.mpr fun row hrow => decide_eq_true (hnone row hrow)] at hfilter

theorem sublist_remaining (call : ErasureCall) (logs : List ChatLogRow) :
    List.Sublist (logs.filter fun row => ¬ row.Of call.domainId call.userId)
      (remaining call logs) := by
  unfold remaining
  split
  · exact List.Sublist.refl _
  · exact List.filter_sublist

theorem remaining_remaining {again : ErasureCall} (hdomain : again.domainId = call.domainId)
    (huser : again.userId = call.userId) (hmode : again.mode = call.mode)
    (logs : List ChatLogRow) : remaining again (remaining call logs) = remaining call logs := by
  unfold remaining
  rw [hdomain, huser, hmode]
  cases call.mode with
  | hardDelete => simp only [List.filter_filter, Bool.and_self]
  | maskOnly => rfl

/-- A second erasure that returns finds no row of the user. -/
theorem affected_again {again : ErasureCall} {t : ChatTables} {result : ErasureResult}
    (hdomain : again.domainId = call.domainId) (huser : again.userId = call.userId)
    (hmode : again.mode = call.mode)
    (h : again.task.result? (call.erased t) = some result) : result.affectedRows = 0 := by
  obtain ⟨-, haffected, hmasked⟩ := (ensures_task again (call.erased t)).of_result? h
  rw [haffected, List.length_eq_zero_iff, List.filter_eq_nil_iff]
  intro row hrow
  rw [decide_eq_true_eq]
  cases hcall : again.mode with
  | maskOnly => exact hmasked hcall row hrow
  | hardDelete =>
    rw [(call.erased_spec t).1, remaining, ← hmode, hcall, List.mem_filter] at hrow
    rw [hdomain, huser]
    exact of_decide_eq_true hrow.2

/-- For every history of writes, every user and domain and either mode: the erasure does what it
promises exactly if the user has no conversation in the domain, and no row to be masked. -/
theorem forgetsUser_iff (call : ErasureCall) (history : List Write) :
    call.ForgetsUser history ↔ call.NothingLeft (written history) := by
  refine ⟨ForgetsUser.nothingLeft, fun hnothing => ⟨?_, ?_, ?_, ?_⟩⟩
  · intro history' hsame
    have halike := alike_written hsame
    rw [(call.erased_spec _).1, (call.erased_spec _).1, (call.erased_spec _).2,
      (call.erased_spec _).2]
    exact ⟨remaining_alike halike hnothing.logs, conversations_alike halike hnothing.conversations⟩
  · rw [(call.erased_spec _).1]
    exact sublist_remaining call _
  · rw [(call.erased_spec _).2]
    exact List.filter_sublist
  · intro again hdomain huser hmode
    refine ⟨?_, (again.erased_spec _).2, fun result => affected_again hdomain huser hmode⟩
    rw [(again.erased_spec _).1, (call.erased_spec _).1]
    exact remaining_remaining hdomain huser hmode _

end ErasureCall

section Clerk

def noColumns : LogColumns where
  retrievedChunks := .list []
  citations := .list []
  citationTypes := .list []
  llmModel := .null
  embeddingModel := .null
  rerankerModel := .null
  promptVersion := .null
  latencyMs := .null
  uiMode := .str "chat_structured"
  confidence := .int 0
  fallbackReason := .null
  unsupportedRatio := .int 0
  verifierMetrics := .dict []
  routingDecision := .dict []
  classifierDecision := .dict []
  modelFailureChain := .list []
  inferenceJudgeResults := .list []
  conflictGroups := .list []
  inputPiiFound := .list []
  outputPiiMasked := .list []
  piiStoragePolicy := "mask"

def turn (userId question : String) : Write where
  payload :=
    { domainId := "hr"
      requestId := "r1"
      userId := some userId
      conversationId := some "c1"
      texts := ⟨question, none, "answer"⟩
      columns := noColumns }
  uuid := some
  newConversationId := "c0"
  newRowId := "l1"
  now := 0

def erasure (mode : ErasureMode) : ErasureCall := ⟨"hr", "clerk", mode, "my data", none⟩

/-- The title of the conversation outlives both kinds of erasure. -/
theorem title_outlives_erasure :
    ¬ (erasure .hardDelete).ForgetsUser [turn "clerk" "about my illness"] ∧
      ¬ (erasure .maskOnly).ForgetsUser [turn "clerk" "about my illness"] := by
  have hmem : conversationRow (turn "clerk" "about my illness") "c1" "clerk" ∈
      (written [turn "clerk" "about my illness"]).conversations := List.mem_cons_self
  exact ⟨fun h => h.nothingLeft.conversations _ hmem ⟨rfl, rfl⟩,
    fun h => h.nothingLeft.conversations _ hmem ⟨rfl, rfl⟩⟩

end Clerk

end DomainRag.ChatLogs
