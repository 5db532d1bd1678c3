import Mathlib.Data.List.Count
import Mathlib.Data.List.DropRight
import Mathlib.Tactic.Ring
import DomainRag.Lib.Dict
import DomainRag.Lib.Threads
import DomainRag.Lib.Value

/-! # Events for the ledger

Whoever reports an event waits until the ledger has acknowledged it or the last attempt has failed.
The attempts of several reports, with the pauses between them, share the ledger and the counters of
the client's module. An attempt may have been stored though its answer got lost.
-/

namespace DomainRag.Audit

structure LedgerEvent where
  eventType : String
  domainId : String
  actor : Option String
  reason : Option String
  details : Dict String Value
  timestamp : String

def text (s : Option String) : Value := s.elim .null .str

def LedgerEvent.toPayload (event : LedgerEvent) : Value :=
  .dict [("event_type", .str event.eventType), ("source_system", .str "domainrag"),
    ("domain_id", .str event.domainId), ("actor", text event.actor),
    ("reason", text event.reason), ("details", .dict event.details.entries),
    ("timestamp", .str event.timestamp)]

/-- What a security event is reported with. -/
inductive AuditCall where
  | authFailure (domainId : String) (actor : Option String) (reason : String)
    (details : Option (Dict String Value))
  | tenantMismatch (domainId : String) (actor expectedTenant tokenTenant : Option String)
    (details : Option (Dict String Value))
  | hardDelete (domainId actor reason docId : String) (version : Option String)
    (removedChunks affectedChatLogs : Int) (chatLogsAction : String)
  | platformAdminAction (domainId actor action : String) (details : Option (Dict String Value))
  | configChangeBreaking (domainId actor category path : String)
    (details : Option (Dict String Value))
  | piiHighSeverityBlock (domainId : String) (actor : Option String) (categories : List String)
    (details : Option (Dict String Value))

def AuditCall.event (timestamp : String) : AuditCall → LedgerEvent
  | authFailure domainId actor reason details =>
    ⟨"auth_failure", domainId, actor, some reason, details.getD .empty, timestamp⟩
  | tenantMismatch domainId actor expectedTenant tokenTenant details =>
    ⟨"tenant_mismatch", domainId, actor, some "path domain_id mismatch with token claim",
      ((details.getD .empty).setDefault "expected_tenant" (text expectedTenant)).setDefault
        "token_tenant" (text tokenTenant), timestamp⟩
  | hardDelete domainId actor reason docId version removedChunks affectedChatLogs action =>
    ⟨"hard_delete", domainId, some actor, some reason,
      .ofList [("doc_id", .str docId), ("version", text version),
        ("removed_chunks", .int removedChunks), ("affected_chat_logs", .int affectedChatLogs),
        ("chat_logs_action", .str action)], timestamp⟩
  | platformAdminAction domainId actor action details =>
    ⟨"platform_admin_action", domainId, some actor, some action,
      (details.getD .empty).setDefault "action" (.str action), timestamp⟩
  | configChangeBreaking domainId actor category path details =>
    ⟨"config_change_breaking", domainId, some actor,
      some ("breaking config change: " ++ category ++ "." ++ path),
      (details.getD .empty).update [("category", .str category), ("path", .str path)], timestamp⟩
  | piiHighSeverityBlock domainId actor categories details =>
    ⟨"pii_high_severity_block", domainId, actor,
      some "high severity PII detected in user input",
      (details.getD .empty).set "blocked_categories" (.list (categories.map .str)), timestamp⟩

def defaultEvents : List String :=
  ["auth_failure", "tenant_mismatch", "hard_delete", "platform_admin_action",
    "config_change_breaking", "pii_high_severity_block"]

structure LedgerAuditService where
  enable : Bool := true
  enabledEvents : List String

namespace LedgerAuditService

def init (enable : Bool) (enabledEvents : Option (List String)) : LedgerAuditService where
  enable := enable
  enabledEvents := if enabledEvents.getD [] = [] then defaultEvents else enabledEvents.getD []

/-- The event that a report is published with, unless it is turned off. -/
def event? (service : LedgerAuditService) (call : AuditCall) (timestamp : String) :
    Option LedgerEvent :=
  if service.enable ∧ (call.event timestamp).eventType ∈ service.enabledEvents then
    some (call.event timestamp)
  else none

end LedgerAuditService

structure HttpxLedgerClient where
  endpoint : String
  apiKey : Option String
  maxRetries : Nat
  backoffBase : Rat

structure LedgerRequest where
  url : String
  headers : List (String × String)
  json : Value

namespace HttpxLedgerClient

def init (endpoint : String) (apiKey : Option String) (maxRetries : Int := 3)
    (backoffBaseSeconds : Rat := 1 / 2) : Except Exc HttpxLedgerClient :=
  if endpoint = "" then .error ⟨"ValueError", "ledger endpoint required"⟩
  else .ok
    { endpoint := String.ofList (endpoint.toList.rdropWhile (· = '/'))
      apiKey := apiKey
      maxRetries := maxRetries.toNat
      backoffBase := backoffBaseSeconds }

variable (client : HttpxLedgerClient)

def request (event : LedgerEvent) : LedgerRequest where
  url := client.endpoint ++ "/api/v1/events"
  headers := ("Content-Type", "application/json") ::
    if client.apiKey.getD "" = "" then []
    else [("Authorization", "Bearer " ++ client.apiKey.getD "")]
  json := event.toPayload

end HttpxLedgerClient

inductive LedgerAnswer where
  | response (status : Nat) (text : String)
  | raised (e : Exc)

/-- What is wrong with an answer. -/
def LedgerAnswer.error? : LedgerAnswer → Option String
  | response status text =>
    if status < 400 then none
    else some ("ledger HTTP " ++ toString status ++ ": " ++ String.ofList (text.toList.take 200))
  | raised e => some e.message

/-- What becomes of one attempt: whether the ledger stores it, and what the client hears. -/
structure LedgerPost where
  stored : Bool
  answer : LedgerAnswer

structure LedgerLetter where
  eventType : String
  domainId : String
  timestamp : String
  error : String
  attempts : Nat

/-- What the ledger has stored, and the counters of the module. -/
structure LedgerState where
  stored : List LedgerRequest := []
  publishFailuresTotal : Nat := 0
  deadLetters : List LedgerLetter := []

inductive PublishStage where
  | skipped
  | posting (event : LedgerEvent) (attempt : Nat) (waited : Rat)
  | sleeping (event : LedgerEvent) (attempt : Nat) (waited : Rat)
  | returned (event : LedgerEvent) (attempts : Nat) (waited : Rat) (ok : Bool)

section Publish

variable (client : HttpxLedgerClient) (service : LedgerAuditService)

def letter (event : LedgerEvent) (error : String) : LedgerLetter where
  eventType := event.eventType
  domainId := event.domainId
  timestamp := event.timestamp
  error := error
  attempts := client.maxRetries + 1

/-- `deque(maxlen=100)` -/
def keepLetters (letters : List LedgerLetter) (letter : LedgerLetter) : List LedgerLetter :=
  (letters ++ [letter]).drop (letters.length + 1 - 100)

def LedgerState.receive (s : LedgerState) (post : LedgerPost) (event : LedgerEvent) : LedgerState :=
  if post.stored then { s with stored := s.stored ++ [client.request event] } else s

def LedgerState.fail (s : LedgerState) (event : LedgerEvent) (error : String) : LedgerState :=
  { s with
    publishFailuresTotal := s.publishFailuresTotal + 1
    deadLetters := keepLetters s.deadLetters (letter client event error) }

def enterPublish (report : AuditCall × String) : PublishStage :=
  match service.event? report.1 report.2 with
  | none => .skipped
  | some event => .posting event 0 0

/-- One attempt of `publish`, or the pause after it. -/
def publishStep (post : LedgerPost) (s : LedgerState) : PublishStage → LedgerState × PublishStage
  | .skipped => (s, .skipped)
  | .posting event attempt waited =>
    match post.answer.error? with
    | none => (s.receive client post event, .returned event (attempt + 1) waited true)
    | some error =>
      if attempt < client.maxRetries then
        (s.receive client post event, .sleeping event attempt waited)
      else
        ((s.receive client post event).fail client event error,
          .returned event (attempt + 1) waited false)
  | .sleeping event attempt waited =>
    (s, .posting event (attempt + 1) (waited + client.backoffBase * 2 ^ attempt))
  | .returned event attempts waited ok => (s, .returned event attempts waited ok)

def ledger : Threads LedgerState PublishStage (AuditCall × String) LedgerPost where
  enter := enterPublish service
  step := publishStep client

end Publish

namespace PublishStage

/-- The attempts that a call has made for a kind of request. -/
def posts (client : HttpxLedgerClient) (kind : LedgerRequest → Bool) : PublishStage → Nat
  | skipped => 0
  | posting event attempt _ => if kind (client.request event) then attempt else 0
  | sleeping event attempt _ => if kind (client.request event) then attempt + 1 else 0
  | returned event attempts _ _ => if kind (client.request event) then attempts else 0

/-- Whether a call has returned that a request of the kind was acknowledged. -/
def acknowledged (client : HttpxLedgerClient) (kind : LedgerRequest → Bool) : PublishStage → Nat
  | returned event _ _ true => if kind (client.request event) then 1 else 0
  | _ => 0

def failed : PublishStage → Nat
  | returned _ _ _ false => 1
  | _ => 0

end PublishStage

/-- The letter of a report that is given up at a step. -/
def PublishStage.lost? (client : HttpxLedgerClient) (post : LedgerPost) :
    PublishStage → Option LedgerLetter
  | posting event attempt _ =>
    if attempt < client.maxRetries then none else post.answer.error?.map (letter client event)
  | _ => none

def lostBy (client : HttpxLedgerClient) (p : Pool LedgerState PublishStage) :
    Move (AuditCall × String) LedgerPost → Option LedgerLetter
  | .start _ => none
  | .advance i post => p.threads[i]?.bind (PublishStage.lost? client post)

/-- The letters of the reports that a run gives up, in the order in which it does. -/
def lostLetters (client : HttpxLedgerClient) (service : LedgerAuditService)
    (p : Pool LedgerState PublishStage) :
    List (Move (AuditCall × String) LedgerPost) → List LedgerLetter
  | [] => []
  | move :: moves => (lostBy client p move).toList ++
    lostLetters client service ((ledger client service).move p move) moves

/-- The ledger acknowledges nothing that it has not stored. -/
def Honest (moves : List (Move (AuditCall × String) LedgerPost)) : Prop :=
  ∀ i post, .advance i post ∈ moves → post.answer.error? = none → post.stored = true

/-- Every attempt that the ledger stores is also acknowledged. -/
def Heard (moves : List (Move (AuditCall × String) LedgerPost)) : Prop :=
  ∀ i post, .advance i post ∈ moves → post.stored → post.answer.error? = none

/-- What the ledger and the counters say of the reports. -/
structure LedgerAccounts (client : HttpxLedgerClient) (service : LedgerAuditService)
    (moves : List (Move (AuditCall × String) LedgerPost))
    (p : Pool LedgerState PublishStage) : Prop where
  returned : ∀ event attempts waited ok, .returned event attempts waited ok ∈ p.threads →
    attempts ≤ client.maxRetries + 1 ∧ waited = client.backoffBase * (2 ^ (attempts - 1) - 1) ∧
      (ok = false → attempts = client.maxRetries + 1)
  acknowledged : Honest moves → ∀ event attempts waited,
    .returned event attempts waited true ∈ p.threads → client.request event ∈ p.shared.stored
  reported : ∀ request ∈ p.shared.stored, ∃ report event, .start report ∈ moves ∧
    service.event? report.1 report.2 = some event ∧ request = client.request event
  failures : p.shared.publishFailuresTotal = (p.threads.map PublishStage.failed).sum
  counted : p.shared.publishFailuresTotal = (lostLetters client service ⟨{}, []⟩ moves).length
  letters : p.shared.deadLetters = (lostLetters client service ⟨{}, []⟩ moves).rtake 100
  named : ∀ l ∈ lostLetters client service ⟨{}, []⟩ moves, ∃ event error waited,
    l = letter client event error ∧
      .returned event (client.maxRetries + 1) waited false ∈ p.threads
  copies : ∀ kind, p.shared.stored.countP kind ≤ (p.threads.map (·.posts client kind)).sum
  once : Honest moves → Heard moves → ∀ kind,
    p.shared.stored.countP kind = (p.threads.map (·.acknowledged client kind)).sum

section Reports

variable {client : HttpxLedgerClient} {service : LedgerAuditService}
  {moves moves' : List (Move (AuditCall × String) LedgerPost)} {s : LedgerState}
  {post : LedgerPost} {l : PublishStage}

/-- Some report was published with the event. -/
def Reported (service : LedgerAuditService) (moves : List (Move (AuditCall × String) LedgerPost))
    (event : LedgerEvent) : Prop :=
  ∃ report, .start report ∈ moves ∧ service.event? report.1 report.2 = some event

def PublishStage.Fits (client : HttpxLedgerClient) (service : LedgerAuditService)
    (moves : List (Move (AuditCall × String) LedgerPost)) (s : LedgerState) : PublishStage → Prop
  | skipped => True
  | posting event attempt waited => Reported service moves event ∧ attempt ≤ client.maxRetries ∧
      waited = client.backoffBase * (2 ^ attempt - 1)
  | sleeping event attempt waited => Reported service moves event ∧ attempt < client.maxRetries ∧
      waited = client.backoffBase * (2 ^ attempt - 1)
  | returned event attempts waited ok => attempts ≤ client.maxRetries + 1 ∧
      waited = client.backoffBase * (2 ^ (attempts - 1) - 1) ∧
      if ok then Honest moves → client.request event ∈ s.stored
      else attempts = client.maxRetries + 1

theorem mem_receive {request : LedgerRequest} {event : LedgerEvent} :
    request ∈ (s.receive client post event).stored ↔
      request ∈ s.stored ∨ post.stored = true ∧ request = client.request event := by
  rw [LedgerState.receive]
  split
  · rename_i h
    simp only [h, List.mem_append, List.mem_singleton, true_and]
  · rename_i h
    exact ⟨.inl, fun hmem => hmem.resolve_right fun hnew => h hnew.1⟩

theorem countP_receive (client : HttpxLedgerClient) (post : LedgerPost) (s : LedgerState)
    (kind : LedgerRequest → Bool) (event : LedgerEvent) :
    (s.receive client post event).stored.countP kind = s.stored.countP kind +
      if post.stored ∧ kind (client.request event) then 1 else 0 := by
  rw [LedgerState.receive]
  split
  · rename_i h
    simp only [h, List.countP_append, List.countP_singleton, true_and]
  · rename_i h
    rw [if_neg fun hboth => h hboth.1, Nat.add_zero]

theorem keepLetters_rtake (letters : List LedgerLetter) (l : LedgerLetter) :
    keepLetters (letters.rtake 100) l = (letters ++ [l]).rtake 100 := by
  have hlength : (letters.rtake 100).length = min letters.length 100 := by
    rw [List.rtake, List.length_drop]
    omega
  rw [keepLetters, hlength, List.rtake, List.rtake,
    ← List.drop_append_of_le_length (Nat.sub_le _ _), List.drop_drop, List.length_append,
    List.length_singleton]
  congr 1
  omega

theorem stored_publishStep {request : LedgerRequest} (h : request ∈ s.stored) :
    request ∈ (publishStep client post s l).1.stored := by
  cases l with
  | posting event attempt waited =>
    rw [publishStep]
    have hreceive : request ∈ (s.receive client post event).stored := mem_receive.mpr (.inl h)
    split
    · exact hreceive
    · split
      · exact hreceive
      · exact hreceive
  | skipped => exact h
  | sleeping event attempt waited => exact h
  | returned event attempts waited ok => exact h

/-- The pauses double. -/
theorem waited_next (base : Rat) (attempt : Nat) :
    base * (2 ^ attempt - 1) + base * 2 ^ attempt = base * (2 ^ (attempt + 1) - 1) := by
  ring

theorem publishStep_fits (h : l.Fits client service moves s)
    (hpost : Honest moves → post.answer.error? = none → post.stored = true) :
    (publishStep client post s l).2.Fits client service moves (publishStep client post s l).1 := by
  cases l with
  | posting event attempt waited =>
    obtain ⟨hreported, hattempt, hwaited⟩ := h
    rw [publishStep]
    split
    · rename_i hanswer
      exact ⟨Nat.succ_le_succ hattempt, hwaited,
        fun hhonest => mem_receive.mpr (.inr ⟨hpost hhonest hanswer, rfl⟩)⟩
    · split
      · rename_i hlt
        exact ⟨hreported, hlt, hwaited⟩
      · rename_i hlast
        have hall : attempt = client.maxRetries := by omega
        exact ⟨Nat.succ_le_succ hattempt, hwaited, congrArg (· + 1) hall⟩
  | sleeping event attempt waited =>
    obtain ⟨hreported, hattempt, rfl⟩ := h
    exact ⟨hreported, hattempt, waited_next client.backoffBase attempt⟩
  | skipped => trivial
  | returned event attempts waited ok => exact h

theorem PublishStage.Fits.mono {s' : LedgerState} (h : l.Fits client service moves s)
    (hmoves : ∀ move ∈ moves, move ∈ moves') (hstored : ∀ r ∈ s.stored, r ∈ s'.stored) :
    l.Fits client service moves' s' := by
  have hmono : ∀ event, Reported service moves event → Reported service moves' event :=
    fun event ⟨report, hmem, hevent⟩ => ⟨report, hmoves _ hmem, hevent⟩
  cases l with
  | skipped => trivial
  | posting event attempt waited => exact ⟨hmono event h.1, h.2⟩
  | sleeping event attempt waited => exact ⟨hmono event h.1, h.2⟩
  | returned event attempts waited ok =>
    obtain ⟨hattempts, hwaited, hok⟩ := h
    cases ok with
    | true =>
      refine ⟨hattempts, hwaited, fun hhonest => hstored _ (hok fun i post hmem => ?_)⟩
      exact hhonest i post (hmoves _ hmem)
    | false => exact ⟨hattempts, hwaited, hok⟩

theorem enterPublish_fits {report : AuditCall × String} (hreport : .start report ∈ moves)
    (s : LedgerState) : (enterPublish service report).Fits client service moves s := by
  rw [enterPublish]
  split
  · trivial
  · rename_i event hevent
    refine ⟨⟨report, hreport, hevent⟩, Nat.zero_le _, ?_⟩
    rw [pow_zero, sub_self, mul_zero]

/-- What the ledger has stored, beside the calls. -/
structure Kept (client : HttpxLedgerClient) (service : LedgerAuditService)
    (moves : List (Move (AuditCall × String) LedgerPost))
    (p : Pool LedgerState PublishStage) : Prop where
  fits : p.Asserts fun s l => l.Fits client service moves s
  reported : ∀ request ∈ p.shared.stored, ∃ event,
    Reported service moves event ∧ request = client.request event

theorem mem_publishStep {request : LedgerRequest}
    (h : request ∈ (publishStep client post s l).1.stored) : request ∈ s.stored ∨
      ∃ event attempt waited, l = .posting event attempt waited ∧
        request = client.request event := by
  cases l with
  | posting event attempt waited =>
    have hreceive : request ∈ (s.receive client post event).stored := by
      rw [publishStep] at h
      split at h
      · exact h
      · split at h
        · exact h
        · exact h
    obtain hold | ⟨-, hnew⟩ := mem_receive.mp hreceive
    · exact .inl hold
    · exact .inr ⟨event, attempt, waited, rfl, hnew⟩
  | skipped => exact .inl h
  | sleeping event attempt waited => exact .inl h
  | returned event attempts waited ok => exact .inl h

theorem counters_receive (client : HttpxLedgerClient) (post : LedgerPost) (s : LedgerState)
    (event : LedgerEvent) :
    (s.receive client post event).publishFailuresTotal = s.publishFailuresTotal ∧
      (s.receive client post event).deadLetters = s.deadLetters := by
  rw [LedgerState.receive]
  split
  · exact ⟨rfl, rfl⟩
  · exact ⟨rfl, rfl⟩

/-- The counters change only when a report is given up. -/
theorem counters_publishStep (client : HttpxLedgerClient) (post : LedgerPost) (s : LedgerState)
    (l : PublishStage) :
    (l.lost? client post = none ∧
      (publishStep client post s l).1.publishFailuresTotal = s.publishFailuresTotal ∧
      (publishStep client post s l).1.deadLetters = s.deadLetters ∧
      (publishStep client post s l).2.failed = l.failed) ∨
    ∃ event error attempts waited, l.lost? client post = some (letter client event error) ∧
      (publishStep client post s l).1.publishFailuresTotal = s.publishFailuresTotal + 1 ∧
      (publishStep client post s l).1.deadLetters =
        keepLetters s.deadLetters (letter client event error) ∧
      (publishStep client post s l).2 = .returned event attempts waited false ∧ l.failed = 0 := by
  cases l with
  | posting event attempt waited =>
    obtain ⟨htotal, hletters⟩ := counters_receive client post s event
    rw [publishStep, PublishStage.lost?]
    cases post.answer.error? with
    | none =>
      refine .inl ⟨?_, htotal, hletters, rfl⟩
      split <;> rfl
    | some error =>
      by_cases hlt : attempt < client.maxRetries
      · simp only [if_pos hlt]
        exact .inl ⟨trivial, htotal, hletters, rfl⟩
      · simp only [if_neg hlt]
        refine .inr ⟨event, error, attempt + 1, waited, rfl, ?_, ?_, rfl, rfl⟩
        · exact congrArg (· + 1) htotal
        · exact congrArg (keepLetters · (letter client event error)) hletters
  | skipped => exact .inl ⟨rfl, rfl, rfl, rfl⟩
  | sleeping event attempt waited => exact .inl ⟨rfl, rfl, rfl, rfl⟩
  | returned event attempts waited ok => exact .inl ⟨rfl, rfl, rfl, rfl⟩

theorem Kept.mono {p : Pool LedgerState PublishStage} (h : Kept client service moves p)
    (hmoves : ∀ move ∈ moves, move ∈ moves') : Kept client service moves' p := by
  refine ⟨fun l hl => (h.fits l hl).mono hmoves fun _ hr => hr, fun request hrequest => ?_⟩
  obtain ⟨event, ⟨report, hmem, hevent⟩, heq⟩ := h.reported request hrequest
  exact ⟨event, ⟨report, hmoves _ hmem, hevent⟩, heq⟩

theorem Kept.advance {p : Pool LedgerState PublishStage} (h : Kept client service moves p)
    {i : Nat} (hl : p.threads[i]? = some l) (hmem : .advance i post ∈ moves) :
    Kept client service moves ((ledger client service).move p (.advance i post)) := by
  obtain ⟨before, after, hthreads, hmove⟩ :
      ∃ before after, p.threads = before ++ l :: after ∧
        (ledger client service).move p (.advance i post) =
          ⟨(publishStep client post p.shared l).1,
            before ++ (publishStep client post p.shared l).2 :: after⟩ := Threads.move_split post hl
  have hfits := h.fits l (List.mem_of_getElem? hl)
  have hhonest : Honest moves → post.answer.error? = none → post.stored = true :=
    fun hhonest => hhonest i post hmem
  constructor
  · apply h.fits.move
    · exact fun call hcall => nomatch hcall
    · rintro _ post' l' ⟨⟩ _ hl'
      exact publishStep_fits hl' hhonest
    · intro _ post' l' _ _ _ l'' _ hl''
      exact hl''.mono (fun _ hm => hm) fun _ hr => stored_publishStep hr
  · intro request hrequest
    rw [hmove] at hrequest
    obtain hold | ⟨event, attempt, waited, rfl, heq⟩ := mem_publishStep hrequest
    · exact h.reported request hold
    · exact ⟨event, hfits.1, heq⟩

theorem kept_run (client : HttpxLedgerClient) (service : LedgerAuditService)
    (moves : List (Move (AuditCall × String) LedgerPost)) :
    Kept client service moves ((ledger client service).run ⟨{}, []⟩ moves) := by
  induction moves using List.reverseRecOn with
  | nil => exact ⟨nofun, nofun⟩
  | append_singleton moves move ih =>
    rw [Threads.run_append]
    have ih := ih.mono fun m hm => List.mem_append_left [move] hm
    generalize (ledger client service).run ⟨{}, []⟩ moves = p at ih ⊢
    change Kept client service _ ((ledger client service).move p move)
    obtain ⟨report, rfl, hmove⟩ | ⟨i, post, rfl, -, hmove⟩ | ⟨i, post, l, rfl, hl, -⟩ :=
      (ledger client service).move_cases p move
    · rw [hmove]
      refine ⟨fun l hl => ?_, ih.reported⟩
      obtain hl | hl := List.mem_append.mp hl
      · exact ih.fits l hl
      · rw [List.mem_singleton.mp hl]
        exact enterPublish_fits (List.mem_append_right _ (List.mem_singleton_self _)) _
    · rw [hmove]
      exact ih
    · exact ih.advance hl (List.mem_append_right _ (List.mem_singleton_self _))

theorem lostLetters_append (p : Pool LedgerState PublishStage)
    (moves : List (Move (AuditCall × String) LedgerPost))
    (move : Move (AuditCall × String) LedgerPost) :
    lostLetters client service p (moves ++ [move]) = lostLetters client service p moves ++
      (lostBy client ((ledger client service).run p moves) move).toList := by
  induction moves generalizing p with
  | nil =>
    rw [List.nil_append, lostLetters, lostLetters, lostLetters, List.append_nil, List.nil_append]
    rfl
  | cons first moves ih =>
    rw [List.cons_append, lostLetters, ih, lostLetters, List.append_assoc]
    rfl

/-- The counters have what has been given up so far, whose reports have returned. -/
structure Counted (client : HttpxLedgerClient) (lost : List LedgerLetter)
    (p : Pool LedgerState PublishStage) : Prop where
  total : p.shared.publishFailuresTotal = lost.length
  letters : p.shared.deadLetters = lost.rtake 100
  named : ∀ l ∈ lost, ∃ event error attempts waited,
    l = letter client event error ∧ .returned event attempts waited false ∈ p.threads

theorem Counted.advance {p : Pool LedgerState PublishStage} {lost : List LedgerLetter}
    (h : Counted client lost p) {i : Nat} (hl : p.threads[i]? = some l) :
    Counted client (lost ++ (lostBy client p (.advance i post)).toList)
      ((ledger client service).move p (.advance i post)) := by
  obtain ⟨before, after, hthreads, hmove⟩ :
      ∃ before after, p.threads = before ++ l :: after ∧
        (ledger client service).move p (.advance i post) =
          ⟨(publishStep client post p.shared l).1,
            before ++ (publishStep client post p.shared l).2 :: after⟩ := Threads.move_split post hl
  have hreturned : ∀ event attempts waited, .returned event attempts waited false ∈ p.threads →
      .returned event attempts waited false ∈
        before ++ (publishStep client post p.shared l).2 :: after := by
    intro event attempts waited hmem
    rw [hthreads, List.mem_append, List.mem_cons] at hmem
    rw [List.mem_append, List.mem_cons]
    obtain hmem | rfl | hmem := hmem
    · exact .inl hmem
    · exact .inr (.inl rfl)
    · exact .inr (.inr hmem)
  have hlost : lostBy client p (.advance i post) = l.lost? client post := by
    rw [lostBy, hl]
    rfl
  rw [hmove, hlost]
  obtain ⟨hnone, htotal, hletters, -⟩ | ⟨event, error, attempts, waited, hsome, htotal, hletters,
    hend, -⟩ := counters_publishStep client post p.shared l
  · rw [hnone, Option.toList_none, List.append_nil]
    refine ⟨htotal.trans h.total, hletters.trans h.letters, fun lost hlost => ?_⟩
    obtain ⟨event, error, attempts, waited, heq, hmem⟩ := h.named lost hlost
    exact ⟨event, error, attempts, waited, heq, hreturned _ _ _ hmem⟩
  · rw [hsome, Option.toList_some]
    refine ⟨?_, ?_, fun lost hlost => ?_⟩
    · rw [List.length_append, List.length_singleton, ← h.total]
      exact htotal
    · rw [← keepLetters_rtake, ← h.letters]
      exact hletters
    · obtain hlost | hlost := List.mem_append.mp hlost
      · obtain ⟨event, error, attempts, waited, heq, hmem⟩ := h.named lost hlost
        exact ⟨event, error, attempts, waited, heq, hreturned _ _ _ hmem⟩
      · refine ⟨event, error, attempts, waited, List.mem_singleton.mp hlost, ?_⟩
        change _ ∈ before ++ (publishStep client post p.shared l).2 :: after
        rw [hend]
        exact List.mem_append_right _ List.mem_cons_self

theorem counted_run (client : HttpxLedgerClient) (service : LedgerAuditService)
    (moves : List (Move (AuditCall × String) LedgerPost)) :
    Counted client (lostLetters client service ⟨{}, []⟩ moves)
      ((ledger client service).run ⟨{}, []⟩ moves) := by
  induction moves using List.reverseRecOn with
  | nil => exact ⟨rfl, rfl, nofun⟩
  | append_singleton moves move ih =>
    rw [lostLetters_append, Threads.run_append]
    generalize (ledger client service).run ⟨{}, []⟩ moves = p at ih ⊢
    change Counted client _ ((ledger client service).move p move)
    obtain ⟨report, rfl, hmove⟩ | ⟨i, post, rfl, hl, hmove⟩ | ⟨i, post, l, rfl, hl, -⟩ :=
      (ledger client service).move_cases p move
    · rw [hmove, lostBy, Option.toList_none, List.append_nil]
      refine ⟨ih.total, ih.letters, fun lost hlost => ?_⟩
      obtain ⟨event, error, attempts, waited, heq, hmem⟩ := ih.named lost hlost
      exact ⟨event, error, attempts, waited, heq, List.mem_append_left _ hmem⟩
    · rw [hmove, lostBy, hl, Option.bind_none, Option.toList_none, List.append_nil]
      exact ih
    · exact ih.advance hl

theorem posts_enter (kind : LedgerRequest → Bool) (report : AuditCall × String) :
    (enterPublish service report).posts client kind = 0 := by
  rw [enterPublish]
  split
  · rfl
  · exact ite_self 0

theorem acknowledged_enter (kind : LedgerRequest → Bool) (report : AuditCall × String) :
    (enterPublish service report).acknowledged client kind = 0 := by
  rw [enterPublish]
  split <;> rfl

theorem failed_enter (report : AuditCall × String) : (enterPublish service report).failed = 0 := by
  rw [enterPublish]
  split <;> rfl

/-- What the ledger stores at a step is one more post of the call, at most. -/
theorem copies_publishStep (kind : LedgerRequest → Bool) {others : Nat}
    (h : s.stored.countP kind ≤ others + l.posts client kind) :
    (publishStep client post s l).1.stored.countP kind ≤
      others + (publishStep client post s l).2.posts client kind := by
  cases l with
  | posting event attempt waited =>
    have hcount := countP_receive client post s kind event
    rw [PublishStage.posts] at h
    have hnext : (s.receive client post event).stored.countP kind ≤
        others + if kind (client.request event) then attempt + 1 else 0 := by
      rw [hcount]
      split at h
      · rename_i hkind
        rw [if_pos hkind]
        split <;> omega
      · rename_i hkind
        rw [if_neg hkind, if_neg fun hboth => hkind hboth.2]
        exact h
    rw [publishStep]
    split
    · exact hnext
    · split
      · exact hnext
      · exact hnext
  | sleeping event attempt waited => exact h
  | skipped => exact h
  | returned event attempts waited ok => exact h

/-- Where everything stored is acknowledged, a call stores its request when it returns. -/
theorem once_publishStep (hhonest : post.answer.error? = none → post.stored = true)
    (hheard : post.stored = true → post.answer.error? = none)
    (kind : LedgerRequest → Bool) {others : Nat}
    (h : s.stored.countP kind = others + l.acknowledged client kind) :
    (publishStep client post s l).1.stored.countP kind =
      others + (publishStep client post s l).2.acknowledged client kind := by
  cases l with
  | posting event attempt waited =>
    have hcount := countP_receive client post s kind event
    have h : s.stored.countP kind = others := h
    rw [publishStep]
    split
    · rename_i hanswer
      rw [hcount, h, PublishStage.acknowledged]
      simp only [hhonest hanswer, true_and]
    · rename_i error hanswer
      have hlost : ¬ (post.stored = true ∧ kind (client.request event) = true) := by
        intro hboth
        rw [hheard hboth.1] at hanswer
        cases hanswer
      rw [if_neg hlost, Nat.add_zero] at hcount
      split
      · exact hcount.trans h
      · exact hcount.trans h
  | sleeping event attempt waited => exact h
  | skipped => exact h
  | returned event attempts waited ok => exact h

/-- At every point of every interleaving of reports: a report that has returned has made at most the
allowed attempts, with doubling pauses between them, and has used them up if it failed; the dead
letters are those of the last hundred reports that were given up. -/
theorem ledger_accounts (client : HttpxLedgerClient) (service : LedgerAuditService)
    (moves : List (Move (AuditCall × String) LedgerPost)) :
    LedgerAccounts client service moves ((ledger client service).run ⟨{}, []⟩ moves) := by
  have h := kept_run client service moves
  have hcounted := counted_run client service moves
  constructor
  case returned =>
    intro event attempts waited ok hmem
    obtain ⟨hattempts, hwaited, hok⟩ := h.fits _ hmem
    refine ⟨hattempts, hwaited, ?_⟩
    rintro rfl
    exact hok
  case acknowledged =>
    intro hhonest event attempts waited hmem
    exact (h.fits _ hmem).2.2 hhonest
  case reported =>
    intro request hrequest
    obtain ⟨event, ⟨report, hmem, hevent⟩, heq⟩ := h.reported request hrequest
    exact ⟨report, event, hmem, hevent, heq⟩
  case failures =>
    apply Threads.run_weighs Eq LedgerState.publishFailuresTotal PublishStage.failed rfl failed_enter
    intro i post s l others _ hsum
    obtain ⟨-, htotal, -, hfailed⟩ | ⟨event, error, attempts, waited, -, htotal, -, hend, hfailed⟩ :=
      counters_publishStep client post s l
    · exact htotal.trans (hsum.trans (congrArg (others + ·) hfailed.symm))
    · refine htotal.trans ?_
      rw [hsum, hfailed]
      change _ = others + (publishStep client post s l).2.failed
      rw [hend]
      rfl
  case counted => exact hcounted.total
  case letters => exact hcounted.letters
  case named =>
    intro lost hlost
    obtain ⟨event, error, attempts, waited, heq, hmem⟩ := hcounted.named lost hlost
    have hattempts : attempts = client.maxRetries + 1 := (h.fits _ hmem).2.2
    exact ⟨event, error, waited, heq, hattempts ▸ hmem⟩
  case copies =>
    intro kind
    apply Threads.run_weighs (· ≤ ·) (fun s : LedgerState => s.stored.countP kind)
      (PublishStage.posts client kind) (by rfl) (posts_enter kind)
    exact fun i post s l others _ hsum => copies_publishStep kind hsum
  case once =>
    intro hhonest hheard kind
    apply Threads.run_weighs Eq (fun s : LedgerState => s.stored.countP kind)
      (PublishStage.acknowledged client kind) rfl (acknowledged_enter kind)
    exact fun i post s l others hmem hsum =>
      once_publishStep (hhonest i post hmem) (hheard i post hmem) kind hsum

end Reports

end DomainRag.Audit
