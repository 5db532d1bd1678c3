import DomainRag.Chat.Nodes
import DomainRag.Indexing.HardDelete

/-! # Chat logs after a hard delete

The records in memory that cite a deleted document are kept, dropped or masked. Masking rewrites the
excerpts of the citations of that document and nothing else: the retrieved chunks of a record keep
their content, and a record that only retrieved the document is not looked at.
-/

namespace DomainRag.Chat

open Verifier
open Indexing (ChatLogsAction)

variable {S : Type}

structure InMemoryChatLogWriter (S : Type) where
  records : List (ChatLogPayload S) := []
  convCounter : Nat := 0

namespace InMemoryChatLogWriter

def nextId (writer : InMemoryChatLogWriter S) : String :=
  "conv-" ++ String.ofList (List.leftpad 8 '0' (toString (writer.convCounter + 1)).toList)

/-- A turn without a conversation gets the next number as its id. -/
def write (writer : InMemoryChatLogWriter S) (payload : ChatLogPayload S) :
    String × InMemoryChatLogWriter S :=
  match payload.conversationId with
  | some id => (id, { writer with records := writer.records ++ [payload] })
  | none => (writer.nextId,
      { records := writer.records ++ [{ payload with conversationId := some writer.nextId }]
        convCounter := writer.convCounter + 1 })

/-- The records of turns that `save_chat_log` wrote. -/
def saved (states : List (RAGState S)) : InMemoryChatLogWriter S :=
  states.foldl (fun writer state => (writer.write (chatLogPayload state)).2) {}

end InMemoryChatLogWriter

def citesDoc (docId : String) (c : Citation S) : Bool :=
  match c.docId with
  | some (.str d) => d = docId
  | _ => false

def maskedExcerpt : String := "[masked: hard_deleted]"

def maskCitation (docId : String) (c : Citation S) : Citation S :=
  if citesDoc docId c then { c with excerpt := maskedExcerpt } else c

namespace InMemoryChatLogsActionHandler

def affects (domainId docId : String) (record : ChatLogPayload S) : Bool :=
  record.domainId = domainId ∧ record.citations.any (citesDoc docId)

/-- What becomes of one record. -/
def applyRecord (domainId docId : String) (action : ChatLogsAction) (record : ChatLogPayload S) :
    Option (ChatLogPayload S) :=
  if affects domainId docId record then
    match action with
    | .deleteLogs => none
    | .keepExcerpts | .maskExcerpts =>
      some { record with citations := record.citations.map (maskCitation docId) }
  else some record

/-- The number of affected records, and the writer after the action. -/
def apply (domainId docId : String) (action : ChatLogsAction) (writer : InMemoryChatLogWriter S) :
    Nat × InMemoryChatLogWriter S :=
  match action with
  | .keepExcerpts => (0, writer)
  | .maskExcerpts | .deleteLogs =>
    (writer.records.countP (affects domainId docId),
      { writer with records := writer.records.filterMap (applyRecord domainId docId action) })

end InMemoryChatLogsActionHandler

section Masking

variable {domainId docId : String}

def HoldsExcerpt (docId : String) (record : ChatLogPayload S) : Prop :=
  ∃ c ∈ record.citations, citesDoc docId c = true ∧ c.excerpt ≠ maskedExcerpt

def HoldsContent (docId : String) (record : ChatLogPayload S) : Prop :=
  ∃ chunk ∈ record.retrievedChunks, chunk.docId = docId ∧ chunk.content ≠ ""

/-- A record of another domain is as before, and so is whatever in a record does not belong to the
document. -/
structure Framed (domainId docId : String) (record record' : ChatLogPayload S) : Prop where
  domain : record.domainId ≠ domainId → record' = record
  fields : record' =
    { record with
      citations := record'.citations
      retrievedChunks := record'.retrievedChunks }
  citations : List.Forall₂ (fun c c' => citesDoc docId c = false → c' = c) record.citations
    record'.citations
  chunks : List.Forall₂ (fun chunk chunk' => chunk.docId ≠ docId → chunk' = chunk)
    record.retrievedChunks record'.retrievedChunks

/-- No text of the document is left in the records of the domain. -/
structure ForgetsDocument (domainId docId : String) (records records' : List (ChatLogPayload S)) :
    Prop where
  cleared : ∀ record ∈ records', record.domainId = domainId →
    ¬ HoldsExcerpt docId record ∧ ¬ HoldsContent docId record
  framed : List.Forall₂ (Framed domainId docId) records records'

/-- The citations of the document are masked in the records of the domain, and the retrieved chunks
are as before. -/
structure MasksCitations (domainId docId : String) (records records' : List (ChatLogPayload S)) :
    Prop where
  cleared : ∀ record ∈ records', record.domainId = domainId → ¬ HoldsExcerpt docId record
  framed : List.Forall₂ (fun record record' => Framed domainId docId record record' ∧
    record'.retrievedChunks = record.retrievedChunks) records records'

open InMemoryChatLogsActionHandler

theorem excerpt_maskCitation {c : Citation S} (h : citesDoc docId (maskCitation docId c) = true) :
    (maskCitation docId c).excerpt = maskedExcerpt := by
  rw [maskCitation] at h ⊢
  by_cases hc : citesDoc docId c
  · rw [if_pos hc]
  · rw [if_neg hc] at h
    exact absurd h hc

/-- Masking keeps every record, in its place. -/
theorem records_apply_maskExcerpts (writer : InMemoryChatLogWriter S) :
    List.Forall₂ (fun record record' =>
      applyRecord domainId docId .maskExcerpts record = some record') writer.records
      (apply domainId docId .maskExcerpts writer).2.records := by
  simp only [apply]
  induction writer.records with
  | nil => exact .nil
  | cons record records ih =>
    obtain ⟨record', hrecord⟩ : ∃ record',
        applyRecord domainId docId .maskExcerpts record = some record' := by
      rw [applyRecord]
      split
      · exact ⟨_, rfl⟩
      · exact ⟨_, rfl⟩
    rw [List.filterMap_cons, hrecord]
    exact .cons hrecord ih

theorem framed_applyRecord {record record' : ChatLogPayload S}
    (h : applyRecord domainId docId .maskExcerpts record = some record') :
    Framed domainId docId record record' ∧ record'.retrievedChunks = record.retrievedChunks := by
  rw [applyRecord] at h
  split at h
  · rename_i haffects
    cases h
    refine ⟨⟨?_, rfl, ?_, List.forall₂_same.mpr fun _ _ _ => rfl⟩, rfl⟩
    · intro hdomain
      exact absurd (of_decide_eq_true haffects).1 hdomain
    · rw [List.forall₂_map_right_iff]
      exact List.forall₂_same.mpr fun c _ hc => if_neg (Bool.eq_false_iff.mp hc)
  · cases h
    exact ⟨⟨fun _ => rfl, rfl, List.forall₂_same.mpr fun _ _ _ => rfl,
      List.forall₂_same.mpr fun _ _ _ => rfl⟩, rfl⟩

theorem not_holdsExcerpt_applyRecord {record record' : ChatLogPayload S}
    (h : applyRecord domainId docId .maskExcerpts record = some record')
    (hdomain : record'.domainId = domainId) : ¬ HoldsExcerpt docId record' := by
  rintro ⟨c, hc, hcites, hexcerpt⟩
  rw [applyRecord] at h
  split at h
  · cases h
    obtain ⟨c₀, -, rfl⟩ := List.mem_map.mp hc
    exact hexcerpt (excerpt_maskCitation hcites)
  · rename_i hunaffected
    cases h
    refine hunaffected (decide_eq_true ⟨hdomain, ?_⟩)
    exact List.any_eq_true.mpr ⟨c, hc, hcites⟩

/-- For every list of records: masking clears the excerpts of the citations of the document in its
domain, and changes nothing else. -/
theorem mask_excerpts_masks_citations (domainId docId : String) (writer : InMemoryChatLogWriter S) :
    MasksCitations domainId docId writer.records
      (apply domainId docId .maskExcerpts writer).2.records where
  cleared := by
    intro record' hrecord' hdomain
    obtain ⟨record, -, h⟩ := List.mem_filterMap.mp hrecord'
    exact not_holdsExcerpt_applyRecord h hdomain
  framed := (records_apply_maskExcerpts writer).imp fun _ _ h => framed_applyRecord h

end Masking

def payChunk : RetrievedChunk Rat where
  chunkId := "c1"
  docId := "DOC-1"
  title := "Pay"
  content := "Salaries are paid on the 25th."
  pageNumber := .null
  sectionTitle := .null
  denseScore := 0
  sparseScore := 0
  fusedScore := 0
  payload := .ofList [("doc_id", .str "DOC-1")]

def paySegment : Segment Rat where
  index := 0
  text := "On the 25th."
  citations := [1]
  supportType := .direct
  inferenceChain := .null
  conflictGroups := .null

/-- A turn that retrieved a document and cites it. -/
def payState : RAGState Rat :=
  { RAGState.initial ⟨"r1", "hr", "u1", none, "When?", [], none, none⟩ with
    finalContexts := [payChunk]
    citations := (assembleCitations [paySegment] [payChunk] "hr").1 }

/-- The excerpt of the cited document is masked, and its content is still among the retrieved
chunks. -/
theorem retrieved_content_outlives_masking :
    ¬ ForgetsDocument "hr" "DOC-1" (InMemoryChatLogWriter.saved [payState]).records
      (InMemoryChatLogsActionHandler.apply "hr" "DOC-1" .maskExcerpts
        (InMemoryChatLogWriter.saved [payState])).2.records := by
  intro h
  obtain ⟨-, hcontent⟩ := h.cleared _ (List.mem_singleton_self _) rfl
  exact hcontent ⟨excerptOf payChunk, List.mem_singleton_self _, rfl, by decide⟩

end DomainRag.Chat
