import Mathlib.Algebra.Order.Field.Rat
import Mathlib.Data.Finset.Card
import Mathlib.Data.Finset.Dedup
import Mathlib.Order.BoundedOrder.Basic
import DomainRag.Lib.Ranking
import DomainRag.Acl.Filter
import DomainRag.Store.Vectors
import DomainRag.Verifier.Segment

/-! # Retrieval

A question is embedded, the points of the domain that the filter admits are scored and cut, the
remaining candidates may be reranked, and the first of them become the contexts of the prompt.
A reranker addresses candidates by their index.
-/

namespace DomainRag.Retrieval

open Store
open Verifier (RetrievedChunk)

structure QueryVectors where
  dense : List Rat
  sparse : Dict Nat Rat

section Scores

variable (sqrt : Rat → Rat)

def norm (a : List Rat) : Rat :=
  let n := sqrt (a.map fun x => x * x).sum
  if n = 0 then 1 else n

def cosine (a b : List Rat) : Rat :=
  if a.isEmpty || b.isEmpty then 0
  else (List.zipWith (· * ·) a b).sum / (norm sqrt a * norm sqrt b)

def sparseDot (a b : Dict Nat Rat) : Rat :=
  if a.entries.isEmpty || b.entries.isEmpty then 0
  else
    let (a, b) := if a.entries.length > b.entries.length then (b, a) else (a, b)
    (a.entries.map fun e => e.2 * (b.get? e.1).getD 0).sum

def fusedScore (query : QueryVectors) (p : Point) : Rat :=
  (cosine sqrt query.dense p.dense + sparseDot query.sparse p.sparse) / 2

end Scores

/-- The points that the filter admits, in their order; a comparison that raises ends the query. -/
def matching (aclFilter : Option Acl.Filter) : List Point → Except Exc (List Point) :=
  filterOk fun p => Acl.payloadMatch p.payload aclFilter

structure Hit where
  id : String
  score : Rat
  payload : Dict String Value

def hybridQuery (sqrt : Rat → Rat) (vs : VectorStore) (domainId : String) (query : QueryVectors)
    (aclFilter : Option Acl.Filter) (topK : Nat) : Except Exc (List Hit) := do
  let c ← vs.coll domainId
  let points ← matching aclFilter c.points.values
  let scored := points.map fun p => (fusedScore sqrt query p, p)
  return ((rank Prod.fst scored).take topK).map fun e => ⟨e.2.id, e.1, e.2.payload⟩

def isSpace (c : Char) : Bool :=
  let n := c.toNat
  (9 ≤ n && n ≤ 13) || (28 ≤ n && n ≤ 32) || n = 0x85 || n = 0xA0 || n = 0x1680
    || (0x2000 ≤ n && n ≤ 0x200A) || n = 0x2028 || n = 0x2029 || n = 0x202F || n = 0x205F
    || n = 0x3000

def split (s : String) : List String :=
  ((s.toList.splitOnP isSpace).filter fun w => !w.isEmpty).map String.ofList

structure RerankEntry (S : Type) where
  index : Option Int
  score : Option S

def RerankEntry.idx {S : Type} (e : RerankEntry S) : Int := e.index.getD (-1)

/-- `inMemory` compares the words; `tei` asks the rerank service with the question and the texts
of the candidates. -/
inductive Reranker (S : Type) where
  | inMemory
  | tei (post : String → List String → Except Exc (List (RerankEntry S)))

structure RetrievalConfig where
  fusedTopK : Nat := 50
  rerankTopK : Nat := 10
  contextTopK : Nat := 5
  rerankerBypass : Bool := false

structure RetrievalResult (S : Type) where
  fused : List (RetrievedChunk S)
  reranked : List (RetrievedChunk S)
  contexts : List (RetrievedChunk S)

/-- The service with its embedder and reranker. Scores are compared in a linear order whose least
element is negative infinity; `toFloat` is the score of a computed number. -/
structure RetrievalService (S : Type) where
  embedQuery : String → Except Exc QueryVectors
  sqrt : Rat → Rat
  toFloat : Rat → S
  repr : Value → String
  reranker : Option (Reranker S)

section Rerank

variable {S : Type}

def jaccard (question content : String) : Rat :=
  let q := (split question).toFinset
  let c := (split content).toFinset
  if q = ∅ ∨ c = ∅ then 0 else (q ∩ c).card / (q ∪ c).card

def setScore (score : S) (c : RetrievedChunk S) : RetrievedChunk S :=
  { c with rerankScore := some score }

/-- One entry of the reply; an index outside the candidates is skipped. -/
def applyEntry (zero : S) (candidates : List (RetrievedChunk S)) (item : RerankEntry S) :
    List (RetrievedChunk S) :=
  if 0 ≤ item.idx ∧ item.idx < candidates.length then
    candidates.modify item.idx.toNat (setScore (item.score.getD zero))
  else candidates

variable [LinearOrder S] [OrderBot S]

/-- The candidates with the scores that the reranker sets in place, and its answer. -/
def Reranker.rerank (toFloat : Rat → S) (question : String) (candidates : List (RetrievedChunk S))
    (topK : Nat) :
    Reranker S → Except Exc (List (RetrievedChunk S) × List (RetrievedChunk S))
  | .inMemory =>
    let scored := candidates.map fun c => setScore (toFloat (jaccard question c.content)) c
    .ok (scored, (rank (fun c => c.rerankScore.getD (toFloat 0)) scored).take topK)
  | .tei post =>
    if candidates.isEmpty then .ok (candidates, [])
    else do
      let data ← post question (candidates.map RetrievedChunk.content)
      let scored := data.foldl (applyEntry (toFloat 0)) candidates
      return (scored, (rank (fun c => c.rerankScore.getD ⊥) scored).take topK)

end Rerank

namespace RetrievalService

variable {S : Type} (svc : RetrievalService S)

def textAt (payload : Dict String Value) (key : String) : String :=
  ((payload.get? key).getD (.str "")).text svc.repr

def hitToRetrievedChunk (h : Hit) : RetrievedChunk S where
  chunkId := h.id
  docId := svc.textAt h.payload "doc_id"
  title := svc.textAt h.payload "title"
  content := svc.textAt h.payload "content"
  pageNumber := (h.payload.get? "page_number").getD .null
  sectionTitle := (h.payload.get? "section_title").getD .null
  denseScore := svc.toFloat 0
  sparseScore := svc.toFloat 0
  fusedScore := svc.toFloat h.score
  payload := h.payload

variable [LinearOrder S] [OrderBot S]

def activeReranker (config : RetrievalConfig) : Option (Reranker S) :=
  if config.rerankerBypass then none else svc.reranker

/-- The candidates and the answer of the reranker, or the first candidates without one. -/
def rerankFused (question : String) (fused : List (RetrievedChunk S)) (config : RetrievalConfig) :
    Except Exc (List (RetrievedChunk S) × List (RetrievedChunk S)) :=
  match svc.activeReranker config with
  | none => .ok (fused, fused.take config.rerankTopK)
  | some reranker => reranker.rerank svc.toFloat question fused config.rerankTopK

def retrieve (vs : VectorStore) (domainId question : String) (aclFilter : Option Acl.Filter)
    (config : RetrievalConfig) : Except Exc (RetrievalResult S) := do
  let query ← svc.embedQuery question
  let hits ← hybridQuery svc.sqrt vs domainId query aclFilter config.fusedTopK
  let (fused, reranked) ← svc.rerankFused question (hits.map svc.hitToRetrievedChunk) config
  return ⟨fused, reranked, reranked.take config.contextTopK⟩

end RetrievalService

end DomainRag.Retrieval
