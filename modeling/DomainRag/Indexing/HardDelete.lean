import DomainRag.Indexing.Service

/-! # Hard deletes

`HardDeleteService` removes the chunk rows first and then the points under the ids of these rows.
A step that raises leaves a dead letter in the result and the next step goes on.
-/

namespace DomainRag.Indexing

open Store Program

inductive ChatLogsAction where
  | keepExcerpts
  | maskExcerpts
  | deleteLogs
  deriving DecidableEq, Repr

structure DeadLetter where
  step : String
  chunkIds : List String := []
  error : String
  deriving DecidableEq, Repr

structure HardDeleteResult where
  domainId : String
  docId : String
  version : Option String
  removedChunks : Nat
  removedStorageFiles : Nat
  removedDocuments : Nat
  affectedChatLogs : Nat
  chatLogsActionApplied : ChatLogsAction
  deadLetters : List DeadLetter

/-- The service with the calls that raise in this request and the answers of the stores that it
only passes the request on to. -/
structure HardDeleteService where
  deleteByDocFault : Option Exc := none
  deletePointsFault : Option Exc := none
  deleteDocumentFault : Option Exc := none
  storageDelete : String → String → Option String → Except Exc Nat
  chatLogsHandler : String → String → ChatLogsAction → Except Exc Nat
  audit : HardDeleteResult → Except Exc Unit

namespace HardDeleteService

variable (svc : HardDeleteService)

def deleteChunks (domainId docId : String) (version : Option String) :
    StoreTask (List String × List DeadLetter) :=
  tryCatch
    (failing svc.deleteByDocFault do
      let s ← get
      let (ids, chunks) := s.chunks.deleteByDoc domainId docId version
      set { s with chunks := chunks }
      return (ids, []))
    fun e => return ([], [{ step := "delete_chunks", error := e.message }])

def deletePoints (domainId : String) (chunkIds : List String) : StoreTask (List DeadLetter) := do
  if chunkIds.isEmpty then return []
  tryCatch
    (failing svc.deletePointsFault do
      modify fun s => { s with vectors := s.vectors.deletePoints domainId chunkIds }
      return [])
    fun e => return [{ step := "vector_store_delete", chunkIds := chunkIds, error := e.message }]

def deleteStorage (domainId docId : String) (version : Option String) :
    StoreTask (Nat × List DeadLetter) :=
  tryCatch
    (do
      let removed ← Program.ofExcept (svc.storageDelete domainId docId version)
      return (removed, []))
    fun e => return (0, [{ step := "storage_delete", error := e.message }])

def deleteDocuments (domainId docId : String) (version : Option String) :
    StoreTask (Nat × List DeadLetter) :=
  tryCatch
    (failing svc.deleteDocumentFault do
      let s ← get
      let (removed, documents) := s.documents.delete domainId docId version
      set { s with documents := documents }
      return (removed, []))
    fun e => return (0, [{ step := "delete_document", error := e.message }])

def handleChatLogs (domainId docId : String) (action : ChatLogsAction) : Except Exc Nat :=
  if action = .keepExcerpts then .ok 0 else svc.chatLogsHandler domainId docId action

def finish (domainId docId : String) (version : Option String) (action : ChatLogsAction)
    (chunkIds : List String) (letters : List DeadLetter) : StoreTask HardDeleteResult := do
  let (files, storageLetters) ← svc.deleteStorage domainId docId version
  let (documents, documentLetters) ← svc.deleteDocuments domainId docId version
  let logs ← Program.ofExcept (svc.handleChatLogs domainId docId action)
  let result : HardDeleteResult :=
    { domainId := domainId, docId := docId, version := version
      removedChunks := chunkIds.length, removedStorageFiles := files
      removedDocuments := documents, affectedChatLogs := logs
      chatLogsActionApplied := action
      deadLetters := letters ++ storageLetters ++ documentLetters }
  Program.ofExcept (svc.audit result)
  return result

def execute (domainId docId : String) (version : Option String) (action : ChatLogsAction) :
    StoreTask HardDeleteResult := do
  let (chunkIds, chunkLetters) ← svc.deleteChunks domainId docId version
  let pointLetters ← svc.deletePoints domainId chunkIds
  svc.finish domainId docId version action chunkIds (chunkLetters ++ pointLetters)

end HardDeleteService

/-- The rows and points after a hard delete, whichever way it ends. -/
structure HardDeleted (svc : HardDeleteService) (domainId docId : String)
    (version : Option String) (s s' : Stores) : Prop where
  rows : s'.chunks = if svc.deleteByDocFault = none then
    (s.chunks.deleteByDoc domainId docId version).2 else s.chunks
  points : ∀ d id, s'.vectors.point? d id =
    if svc.deleteByDocFault = none ∧ svc.deletePointsFault = none ∧ d = domainId ∧
      id ∈ (s.chunks.deleteByDoc domainId docId version).1 then none else s.vectors.point? d id

section

variable {svc : HardDeleteService} {domainId docId : String} {version : Option String}
  {s : Stores} {R : Exc → Stores → Prop}

theorem ensures_deleteChunks {Q : List String × List DeadLetter → Stores → Prop}
    (hdone : svc.deleteByDocFault = none →
      Q ((s.chunks.deleteByDoc domainId docId version).1, [])
        { s with chunks := (s.chunks.deleteByDoc domainId docId version).2 })
    (hletter : ∀ letter, svc.deleteByDocFault ≠ none → Q ([], [letter]) s) :
    Ensures (svc.deleteChunks domainId docId version) s Q R := by
  rw [HardDeleteService.deleteChunks, ensures_tryCatch, ensures_failing]
  refine ⟨fun e he => ?_, fun hnone => hdone hnone⟩
  exact hletter _ (by rw [he]; exact Option.some_ne_none e)

theorem ensures_deletePoints {ids : List String} {Q : List DeadLetter → Stores → Prop}
    (hempty : ids = [] → Q [] s)
    (hdone : ids ≠ [] → svc.deletePointsFault = none →
      Q [] { s with vectors := s.vectors.deletePoints domainId ids })
    (hletter : ∀ letter, ids ≠ [] → svc.deletePointsFault ≠ none → Q [letter] s) :
    Ensures (svc.deletePoints domainId ids) s Q R := by
  rw [HardDeleteService.deletePoints]
  refine ensures_ite.mpr ⟨fun h => hempty (List.isEmpty_iff.mp h), fun h => ?_⟩
  have hne : ids ≠ [] := fun hnil => h (List.isEmpty_iff.mpr hnil)
  rw [ensures_tryCatch, ensures_failing]
  refine ⟨fun e he => ?_, fun hnone => hdone hne hnone⟩
  exact hletter _ hne (by rw [he]; exact Option.some_ne_none e)

theorem ensures_deleteStorage {Q : Nat × List DeadLetter → Stores → Prop}
    (hQ : ∀ r, Q r s) : Ensures (svc.deleteStorage domainId docId version) s Q R := by
  rw [HardDeleteService.deleteStorage, ensures_tryCatch, ensures_bind, ensures_ofExcept]
  exact ⟨fun _ _ => hQ _, fun _ _ => hQ _⟩

theorem ensures_deleteDocuments {Q : Nat × List DeadLetter → Stores → Prop}
    (hQ : ∀ r documents, Q r { s with documents := documents }) :
    Ensures (svc.deleteDocuments domainId docId version) s Q R := by
  rw [HardDeleteService.deleteDocuments, ensures_tryCatch, ensures_failing]
  exact ⟨fun _ _ => hQ _ s.documents, fun _ => hQ _ _⟩

theorem ensures_finish {action : ChatLogsAction} {ids : List String}
    {letters : List DeadLetter} {Q : HardDeleteResult → Stores → Prop}
    (hQ : ∀ r documents, (r.deadLetters = [] → letters = []) → Q r { s with documents := documents })
    (hR : ∀ e documents, R e { s with documents := documents }) :
    Ensures (svc.finish domainId docId version action ids letters) s Q R := by
  rw [HardDeleteService.finish, ensures_bind]
  refine ensures_deleteStorage fun _ => ?_
  rw [ensures_bind]
  refine ensures_deleteDocuments fun _ documents => ?_
  rw [ensures_bind, ensures_ofExcept]
  refine ⟨fun _ _ => ?_, fun e _ => hR e documents⟩
  rw [ensures_bind, ensures_ofExcept]
  refine ⟨fun _ _ => hQ _ documents ?_, fun e _ => hR e documents⟩
  intro hnil
  exact (List.append_eq_nil_iff.mp (List.append_eq_nil_iff.mp hnil).1).1

theorem ensures_execute {action : ChatLogsAction} :
    Ensures (svc.execute domainId docId version action) s
      (fun r s' => HardDeleted svc domainId docId version s s' ∧
        (r.deadLetters = [] → svc.deleteByDocFault = none ∧
          ((s.chunks.deleteByDoc domainId docId version).1 = [] ∨ svc.deletePointsFault = none)))
      fun _ s' => HardDeleted svc domainId docId version s s' := by
  rw [HardDeleteService.execute, ensures_bind]
  refine ensures_deleteChunks (fun hrows => ?_) fun letter hrows => ?_
  · rw [ensures_bind]
    refine ensures_deletePoints (fun hempty => ?_) (fun _ hpoints => ?_) fun letter _ hpoints => ?_
    · have hdone : ∀ documents, HardDeleted svc domainId docId version s
          { s with chunks := (s.chunks.deleteByDoc domainId docId version).2
                   documents := documents } := by
        refine fun _ => ⟨(if_pos hrows).symm, fun d id => (if_neg ?_).symm⟩
        rw [hempty]
        rintro ⟨-, -, -, hmem⟩
        exact List.not_mem_nil hmem
      exact ensures_finish (fun _ documents _ => ⟨hdone documents, fun _ => ⟨hrows, .inl hempty⟩⟩)
        fun _ documents => hdone documents
    · have hdone : ∀ documents, HardDeleted svc domainId docId version s
          { s with chunks := (s.chunks.deleteByDoc domainId docId version).2
                   vectors := s.vectors.deletePoints domainId
                     (s.chunks.deleteByDoc domainId docId version).1
                   documents := documents } := by
        refine fun _ => ⟨(if_pos hrows).symm, fun d id => ?_⟩
        simp only [VectorStore.point?_deletePoints, hrows, hpoints, true_and]
      exact ensures_finish (fun _ documents _ => ⟨hdone documents, fun _ => ⟨hrows, .inr hpoints⟩⟩)
        fun _ documents => hdone documents
    · have hdone : ∀ documents, HardDeleted svc domainId docId version s
          { s with chunks := (s.chunks.deleteByDoc domainId docId version).2
                   documents := documents } :=
        fun _ => ⟨(if_pos hrows).symm, fun d id => (if_neg fun h => hpoints h.2.1).symm⟩
      refine ensures_finish (fun _ documents hletters => ⟨hdone documents, fun hnil => ?_⟩)
        fun _ documents => hdone documents
      cases hletters hnil
  · rw [ensures_bind]
    have hdone : ∀ documents, HardDeleted svc domainId docId version s
        { s with documents := documents } :=
      fun _ => ⟨(if_neg hrows).symm, fun d id => (if_neg fun h => hrows h.1).symm⟩
    refine ensures_deletePoints (fun _ => ?_) (fun hne => absurd rfl hne)
      fun _ hne => absurd rfl hne
    refine ensures_finish (fun _ documents hletters => ⟨hdone documents, fun hnil => ?_⟩)
      fun _ documents => hdone documents
    cases hletters hnil

end

end DomainRag.Indexing
