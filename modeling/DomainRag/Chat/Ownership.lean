import DomainRag.Chat.Conversations

/-! # Whose turns a user sees

A user should see only turns that this user sent, in the history of a question and in the messages
of a conversation. The reads go by the conversation id alone, so this rests on the ids: it holds as
long as nobody asks under an id that another user has a turn under.
-/

namespace DomainRag.Chat

variable {V S : Type}

/-- Every turn that is logged under the conversation id was sent by the user. -/
def OwnedBy (userId domainId id : String) (records : List (ChatLogPayload S)) : Prop :=
  ∀ r ∈ records, r.domainId = domainId → r.conversationId = some id → r.userId = userId

/-- A conversation id of a domain belongs to one user. -/
def OneOwner (records : List (ChatLogPayload S)) : Prop :=
  ∀ r ∈ records, ∀ r' ∈ records, r'.domainId = r.domainId → r'.conversationId = r.conversationId →
    r'.userId = r.userId

/-- What a step shows to a user, in a prompt or as messages, are turns of that user. -/
def ShowsOwn [LE S] [DecidableLE S] (p : Pool (ChatSite S) (ChatStage S)) :
    Move ChatEndpoint (ChatHost V S) → Prop
  | .start _ => True
  | .advance i host =>
    match p.threads[i]? with
    | some (.loading call) => ∀ r ∈ historyRecords host.lower p.shared call,
      r.payload.userId = call.userId
    | some (.listing record) => ∀ r ∈ messageRecords host.lower p.shared record.domainId record.id,
      r.payload.userId = record.userId
    | _ => True

/-- A question names no conversation that another user has a turn in, both when its history is read
and when its turn is logged. -/
def AsksOwn (p : Pool (ChatSite S) (ChatStage S)) : Move ChatEndpoint (ChatHost V S) → Prop
  | .start _ => True
  | .advance i host =>
    match p.threads[i]? with
    | some (.loading call) => call.conversationId ≠ none →
      OwnedBy call.userId call.domainId call.conversation p.shared.writer.records
    | some (.answering request) => ∀ id, request.conversationId = some id →
      OwnedBy request.userId request.domainId id p.shared.writer.records
    | some (.streaming request) => OwnedBy request.userId request.domainId
      (host.streaming.conversationId request) p.shared.writer.records
    | _ => True

section Reads

variable [LE S] [DecidableLE S] {lower : String → String} {site : ChatSite S}

/-- A page under a conversation id holds records of that domain and conversation. -/
theorem mem_listByTenant {records : List (ChatLogPayload S)} {domainId id : String}
    {page pageSize : Int} {r : ChatLogRecord S}
    (h : r ∈ (listByTenant lower records domainId { conversationId := some id } page
      pageSize).items) :
    r.payload ∈ records ∧ r.payload.domainId = domainId ∧ r.payload.conversationId = some id := by
  obtain ⟨⟨payload, i⟩, hpayload, rfl⟩ := List.mem_map.mp h
  have hmem := List.mem_of_mem_drop (List.mem_of_mem_take (List.fst_mem_of_mem_zipIdx hpayload))
  obtain ⟨hmem, hmatches⟩ := List.mem_filter.mp (List.mem_reverse.mp hmem)
  obtain ⟨hrecords, hdomain⟩ := List.mem_filter.mp hmem
  simp only [rowMatches, Option.all_some, Option.all_none, Bool.and_eq_true,
    decide_eq_true_eq] at hmatches
  exact ⟨hrecords, of_decide_eq_true hdomain, hmatches.1.1.1.1.1.1.2.symm⟩

theorem userId_of_historyRecords {call : ChatCall}
    (h : call.conversationId ≠ none →
      OwnedBy call.userId call.domainId call.conversation site.writer.records)
    {r : ChatLogRecord S} (hr : r ∈ historyRecords lower site call) :
    r.payload.userId = call.userId := by
  rw [historyRecords] at hr
  split at hr
  · cases hr
  · rename_i hprior
    obtain ⟨hmem, hdomain, hid⟩ :=
      mem_listByTenant (List.mem_of_mem_take (List.mem_reverse.mp hr))
    exact h hprior r.payload hmem hdomain hid

theorem userId_of_messageRecords (h : OneOwner site.writer.records) {domainId userId id : String}
    (hown : ∃ r ∈ site.writer.records, r.domainId = domainId ∧ r.conversationId = some id ∧
      r.userId = userId)
    {r : ChatLogRecord S} (hr : r ∈ messageRecords lower site domainId id) :
    r.payload.userId = userId := by
  obtain ⟨own, hmem, rfl, hid, rfl⟩ := hown
  obtain ⟨hmem', hdomain', hid'⟩ := mem_listByTenant (List.mem_reverse.mp hr)
  exact h own hmem r.payload hmem' hdomain' (hid'.trans hid.symm)

end Reads

section Writes

/-- A turn was logged under the ids of its request. -/
structure LoggedAs (domainId userId id : String) (payload : ChatLogPayload S) : Prop where
  domainId : payload.domainId = domainId
  userId : payload.userId = userId
  conversationId : payload.conversationId = some id

theorem records_write (site : ChatSite S) {payloads : List (ChatLogPayload S)}
    (h : ∀ p ∈ payloads, p.conversationId ≠ none) :
    (site.write payloads).writer.records = site.writer.records ++ payloads := by
  rw [ChatSite.write]
  induction payloads generalizing site with
  | nil => exact (List.append_nil _).symm
  | cons p payloads ih =>
    obtain ⟨id, hid⟩ := Option.ne_none_iff_exists'.mp (h p List.mem_cons_self)
    have hwrite : (site.writer.write p).2.records = site.writer.records ++ [p] := by
      rw [InMemoryChatLogWriter.write, hid]
    have hrest := ih { site with writer := (site.writer.write p).2 } fun p' hp' =>
      h p' (List.mem_cons_of_mem p hp')
    rw [List.foldl_cons]
    refine hrest.trans ?_
    rw [hwrite, List.append_assoc, List.singleton_append]

theorem OneOwner.append {records payloads : List (ChatLogPayload S)} {domainId userId id : String}
    (h : OneOwner records) (howned : OwnedBy userId domainId id records)
    (hpayloads : ∀ p ∈ payloads, LoggedAs domainId userId id p) :
    OneOwner (records ++ payloads) := by
  intro r hr r' hr' hdomain hid
  obtain hr | hr := List.mem_append.mp hr <;> obtain hr' | hr' := List.mem_append.mp hr'
  · exact h r hr r' hr' hdomain hid
  · obtain ⟨hdomain', huser', hid'⟩ := hpayloads r' hr'
    rw [huser']
    exact (howned r hr (hdomain.symm.trans hdomain') (hid.symm.trans hid')).symm
  · obtain ⟨hdomain', huser', hid'⟩ := hpayloads r hr
    rw [huser']
    exact howned r' hr' (hdomain.trans hdomain') (hid.trans hid')
  · rw [(hpayloads r hr).userId, (hpayloads r' hr').userId]

theorem mem_record?_chat {calls : List (Call S)} {p : ChatLogPayload S}
    (h : p ∈ calls.filterMap Call.record?) : .logged p ∈ calls := by
  obtain ⟨call, hcall, hp⟩ := List.mem_filterMap.mp h
  cases call with
  | logged payload =>
    cases hp
    exact hcall
  | structured request => cases hp
  | conversational request => cases hp
  | assessment call => cases hp

theorem mem_record?_stream {calls : List (StreamCall S)} {p : ChatLogPayload S}
    (h : p ∈ calls.filterMap StreamCall.record?) : .logged p ∈ calls := by
  obtain ⟨call, hcall, hp⟩ := List.mem_filterMap.mp h
  cases call with
  | logged payload =>
    cases hp
    exact hcall
  | llm request => cases hp

variable [LinearOrder S] [Zero S] [One S] [Add S] [Sub S] [Mul S] [Div S] [NatCast S]
  [OfScientific S]

/-- The turn that a run of the graph logs has the ids of its request. -/
theorem chatRun_loggedAs {deps : RAGGraphDeps V S} {request : ChatRequest} {id : String}
    (hid : request.conversationId = some id) {p : ChatLogPayload S}
    (h : .logged p ∈ (chatRun deps request).calls) :
    LoggedAs request.domainId request.userId id p := by
  obtain ⟨n, state, hreach, hlogged⟩ := Machine.mem_calls_iff.mp h
  have hkept : state.domainId = request.domainId ∧ state.userId = request.userId ∧
      state.conversationId = some id := by
    refine hreach.invariant (P := fun _ t => t.domainId = request.domainId ∧
      t.userId = request.userId ∧ t.conversationId = some id) ⟨rfl, rfl, hid⟩ ?_
    rintro k t t' k' ⟨hdomain, huser, hconversation⟩ hexec hnext
    have hframe := execNode_frame hexec
    have hk : k ≠ .saveChatLog := by
      rintro rfl
      cases hnext
    exact ⟨hframe.domainId.trans hdomain, hframe.userId.trans huser,
      (hframe.conversationId hk).trans hconversation⟩
  obtain ⟨-, rfl⟩ := execNode_logged hlogged
  exact ⟨hkept.1, hkept.2.1, hkept.2.2⟩

omit [LinearOrder S] [One S] [Add S] [Sub S] [Mul S] [Div S] [NatCast S] [OfScientific S] in
theorem chatStreaming_loggedAs {host : ChatHost V S} {site : ChatSite S}
    {request : StreamingRequest} {p : ChatLogPayload S}
    (h : .logged p ∈ (host.chatStreaming site request).calls) :
    LoggedAs request.domainId request.userId (host.streaming.conversationId request) p := by
  obtain ⟨routing, answer, reason, masked, rfl⟩ := stream_logged h
  exact ⟨rfl, rfl, rfl⟩

end Writes

section Runs

/-- A question has its conversation id, and a user whose messages are about to be listed has a turn
in the conversation. -/
def StageOk (site : ChatSite S) : ChatStage S → Prop
  | .answering request => request.conversationId ≠ none
  | .listing record => ∃ r ∈ site.writer.records, r.domainId = record.domainId ∧
      r.conversationId = some record.id ∧ r.userId = record.userId
  | _ => True

theorem StageOk.mono {site site' : ChatSite S} {l : ChatStage S} (h : StageOk site l)
    (hgrows : site.writer.records <+: site'.writer.records) : StageOk site' l := by
  cases l with
  | answering request => exact h
  | listing record =>
    obtain ⟨r, hr, hown⟩ := h
    exact ⟨r, hgrows.subset hr, hown⟩
  | _ => trivial

theorem stageOk_looking {site : ChatSite S} {domainId userId id : String}
    {record : ConversationRecord} (h : site.getConversation domainId userId id = some record) :
    StageOk site (.listing record) := by
  rw [ChatSite.getConversation] at h
  cases hrecs : site.conversationFor domainId userId id with
  | nil =>
    rw [hrecs] at h
    cases h
  | cons r recs =>
    rw [hrecs] at h
    cases h
    have hr : r ∈ site.conversationFor domainId userId id := by
      rw [hrecs]
      exact List.mem_cons_self
    obtain ⟨hmem, hown⟩ := List.mem_filter.mp hr
    obtain ⟨hdomain, huser, hid, -⟩ := of_decide_eq_true hown
    exact ⟨r, hmem, hdomain, hid, huser⟩

theorem OneOwner.write {site : ChatSite S} {payloads : List (ChatLogPayload S)}
    {domainId userId id : String} (h : OneOwner site.writer.records)
    (howned : OwnedBy userId domainId id site.writer.records)
    (hpayloads : ∀ p ∈ payloads, LoggedAs domainId userId id p) :
    OneOwner (site.write payloads).writer.records ∧
      site.writer.records <+: (site.write payloads).writer.records := by
  have hrecords := records_write site fun p hp hnone =>
    absurd ((hpayloads p hp).conversationId.symm.trans hnone) nofun
  rw [hrecords]
  exact ⟨h.append howned hpayloads, List.prefix_append _ _⟩

variable [LinearOrder S] [Zero S] [One S] [Add S] [Sub S] [Mul S] [Div S] [NatCast S]
  [OfScientific S]

/-- One step of an endpoint keeps the owners of the conversations, and only adds to the log. -/
theorem oneOwner_step {p : Pool (ChatSite S) (ChatStage S)} {i : Nat} {host : ChatHost V S}
    {l : ChatStage S} (hl : p.threads[i]? = some l) (hok : StageOk p.shared l)
    (hone : OneOwner p.shared.writer.records)
    (hasks : AsksOwn p (.advance i host : Move ChatEndpoint (ChatHost V S))) :
    OneOwner (chatStep host p.shared l).1.writer.records ∧
      p.shared.writer.records <+: (chatStep host p.shared l).1.writer.records := by
  have hsame : OneOwner p.shared.writer.records ∧
      p.shared.writer.records <+: p.shared.writer.records := ⟨hone, List.prefix_refl _⟩
  simp only [AsksOwn, hl] at hasks
  cases l with
  | answering request =>
    obtain ⟨id, hid⟩ := Option.ne_none_iff_exists'.mp hok
    exact hone.write (hasks id hid) fun payload hpayload =>
      chatRun_loggedAs hid (mem_record?_chat hpayload)
  | streaming request =>
    exact hone.write hasks fun payload hpayload =>
      chatStreaming_loggedAs (mem_record?_stream hpayload)
  | looking domainId userId id =>
    rw [chatStep]
    split <;> exact hsame
  | retitling domainId userId id title =>
    rw [chatStep, ChatSite.updateTitle]
    split <;> exact hsame
  | deleting domainId userId id =>
    rw [chatStep, ChatSite.deleteConversation]
    split <;> exact hsame
  | _ => exact hsame

theorem stageOk_step {host : ChatHost V S} {site : ChatSite S} {l : ChatStage S}
    (hgrows : site.writer.records <+: (chatStep host site l).1.writer.records)
    (h : StageOk site l) : StageOk (chatStep host site l).1 (chatStep host site l).2 := by
  cases l with
  | loading call => exact Option.some_ne_none _
  | looking domainId userId id =>
    rw [chatStep]
    split
    · trivial
    · rename_i hrecord
      exact stageOk_looking hrecord
  | answering request => trivial
  | streaming request => trivial
  | listing record => trivial
  | retitling domainId userId id title => trivial
  | deleting domainId userId id => trivial
  | _ => exact h.mono hgrows

/-- Conversations have one owner each, and every call stands as it should. -/
def Owned (p : Pool (ChatSite S) (ChatStage S)) : Prop :=
  OneOwner p.shared.writer.records ∧ p.Asserts StageOk

theorem Owned.move {p : Pool (ChatSite S) (ChatStage S)} {m : Move ChatEndpoint (ChatHost V S)}
    (h : Owned p) (hm : AsksOwn p m) : Owned ((chatThreads V S).move p m) := by
  obtain ⟨hone, hstages⟩ := h
  have hstep : ∀ i host l, m = .advance i host → p.threads[i]? = some l →
      OneOwner (chatStep host p.shared l).1.writer.records ∧
        p.shared.writer.records <+: (chatStep host p.shared l).1.writer.records := by
    rintro i host l rfl hl
    exact oneOwner_step hl (hstages l (List.mem_of_getElem? hl)) hone hm
  constructor
  · exact Threads.shared_move (P := fun site : ChatSite S => OneOwner site.writer.records) hone
      fun i host l hm hl => (hstep i host l hm hl).1
  · refine hstages.move ?_ ?_ ?_
    · intro call _
      cases call <;> trivial
    · intro i host l hm hl hok
      exact stageOk_step (hstep i host l hm hl).2 hok
    · intro i host l hm hl _ l' _ hok'
      exact hok'.mono (hstep i host l hm hl).2

omit [Zero S] [One S] [Add S] [Sub S] [Mul S] [Div S] [NatCast S] [OfScientific S] in
theorem showsOwn_of_owned {p : Pool (ChatSite S) (ChatStage S)}
    {m : Move ChatEndpoint (ChatHost V S)} (h : Owned p) (hm : AsksOwn p m) : ShowsOwn p m := by
  cases m with
  | start call => trivial
  | advance i host =>
    simp only [ShowsOwn, AsksOwn] at hm ⊢
    cases hl : p.threads[i]? with
    | none => trivial
    | some l =>
      rw [hl] at hm
      cases l with
      | loading call => exact fun r hr => userId_of_historyRecords hm hr
      | listing record =>
        have hok : StageOk p.shared (.listing record) := h.2 _ (List.mem_of_getElem? hl)
        exact fun r hr => userId_of_messageRecords h.1 hok hr
      | _ => trivial

/-- In every run in which no question names a conversation of another user, every history and every
list of messages holds only turns of the user it is for. -/
theorem shows_own_turns (ms : List (Move ChatEndpoint (ChatHost V S)))
    (h : Along (chatThreads V S).move AsksOwn ms ⟨{}, []⟩) :
    Along (chatThreads V S).move ShowsOwn ms ⟨{}, []⟩ := by
  have hstart : Owned (⟨{}, []⟩ : Pool (ChatSite S) (ChatStage S)) :=
    ⟨fun r hr => absurd hr List.not_mem_nil, fun l hl => absurd hl List.not_mem_nil⟩
  exact h.of_invariant (I := Owned) hstart fun m _ p hp hm =>
    ⟨hp.move hm, showsOwn_of_owned hp hm⟩

end Runs

section Office

def officeHost : ChatHost ℚ ℚ where
  deps := officeDeps
  streaming := mobileStream ["15"] none
  config := {}
  lower := id

def leaveCall (userId : String) : ChatCall where
  domainId := "hr"
  userId := userId
  user := { userId := some userId }
  question := "연차는 며칠인가요?"
  conversationId := some "c1"
  newRequestId := "r-" ++ userId
  newConversationId := "c-" ++ userId
  defaultModel := "slm"

def leaveStream (userId : String) : StreamingRequest where
  domainId := "hr"
  userId := userId
  question := "며칠?"
  conversationId := some "c1"

/-- A user asks, and the turn is logged. -/
def firstTurn : List (Move ChatEndpoint (ChatHost ℚ ℚ)) :=
  [.start (.chat (leaveCall "u1")), .advance 0 officeHost, .advance 0 officeHost]

def secondAsks : List (Move ChatEndpoint (ChatHost ℚ ℚ)) :=
  firstTurn ++ [.start (.chat (leaveCall "u2"))]

def secondStreams : List (Move ChatEndpoint (ChatHost ℚ ℚ)) :=
  firstTurn ++ [.start (.chatStream (leaveStream "u2")), .advance 1 officeHost,
    .start (.getConversation "hr" "u1" "c1"), .advance 2 officeHost]

/-- The users whose turns a step would show. -/
def shownUsers (ms : List (Move ChatEndpoint (ChatHost ℚ ℚ)))
    (records : ChatSite ℚ → List (ChatLogRecord ℚ)) : List String :=
  (records ((chatThreads ℚ ℚ).run ⟨{}, []⟩ ms).shared).map (·.payload.userId)

/-- The conversation that a call is about to list, and for whom. -/
def listed? : ChatStage ℚ → Option (String × String × String)
  | .listing record => some (record.domainId, record.id, record.userId)
  | _ => none

theorem showsOwn_of_listing {p : Pool (ChatSite ℚ) (ChatStage ℚ)} {i : Nat}
    {domainId id userId : String} (hi : p.threads[i]?.bind listed? = some (domainId, id, userId))
    (h : ShowsOwn p (.advance i officeHost)) :
    ∀ r ∈ messageRecords officeHost.lower p.shared domainId id, r.payload.userId = userId := by
  obtain ⟨l, hl, hlisted⟩ := Option.bind_eq_some_iff.mp hi
  simp only [ShowsOwn, hl] at h
  cases l with
  | listing record =>
    cases hlisted
    exact h
  | _ => cases hlisted

/-- Another user asks under the same conversation id and gets the turn of the first as history, or
streams under it and puts a turn into the messages of the first. -/
theorem shared_conversation_shows_turns :
    ¬ Along (chatThreads ℚ ℚ).move ShowsOwn (secondAsks ++ [.advance 1 officeHost]) ⟨{}, []⟩ ∧
      ¬ Along (chatThreads ℚ ℚ).move ShowsOwn (secondStreams ++ [.advance 2 officeHost])
        ⟨{}, []⟩ := by
  constructor
  · intro h
    have hshows : ∀ r ∈ historyRecords id ((chatThreads ℚ ℚ).run ⟨{}, []⟩ secondAsks).shared
        (leaveCall "u2"), r.payload.userId = "u2" := h.after.1
    have husers : "u1" ∈ shownUsers secondAsks (historyRecords id · (leaveCall "u2")) := by
      decide +kernel
    obtain ⟨r, hr, huser⟩ := List.mem_map.mp husers
    exact absurd ((hshows r hr).symm.trans huser) (by decide)
  · intro h
    have hlisting : (((chatThreads ℚ ℚ).run ⟨{}, []⟩ secondStreams).threads[2]?.bind listed?) =
        some ("hr", "c1", "u1") := by
      decide +kernel
    have hshows := showsOwn_of_listing hlisting h.after.1
    have husers : "u2" ∈ shownUsers secondStreams (messageRecords id · "hr" "c1") := by
      decide +kernel
    obtain ⟨r, hr, huser⟩ := List.mem_map.mp husers
    exact absurd ((hshows r hr).symm.trans huser) (by decide)

theorem shows_own_turns_office :
    Along (chatThreads ℚ ℚ).move ShowsOwn
      (firstTurn ++ [.start (.chat (leaveCall "u1")), .advance 1 officeHost]) ⟨{}, []⟩ := by
  refine shows_own_turns _ ⟨trivial, ?_, ?_, trivial, ?_, trivial⟩
  · intro _ r hr
    cases hr
  · intro id _ r hr
    cases hr
  · intro _
    have hown : ∀ r ∈ ((chatThreads ℚ ℚ).run ⟨{}, []⟩ firstTurn).shared.writer.records,
        r.userId = "u1" := by
      decide +kernel
    exact fun r hr _ _ => hown r hr

end Office

end DomainRag.Chat
