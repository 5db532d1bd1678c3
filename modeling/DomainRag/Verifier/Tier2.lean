import Mathlib.Order.Defs.LinearOrder
import DomainRag.Verifier.Conflict

/-! # Tier 2

The claim of each segment is compared with the chunks that it cites. All texts are embedded in
one batch, each distinct text once, and every support type has its own rule for what a segment
keeps.
-/

namespace DomainRag.Verifier

structure Embedder (V : Type) where
  embedBatch : List String → Except Exc (List V)

variable {V S : Type}

/-- The embedder that maps each text of a batch by one function. -/
def Embedder.ofFn (embed : String → V) : Embedder V := ⟨fun texts => .ok (texts.map embed)⟩

def Embedder.embedTexts (embedder : Embedder V) (uniqueTexts : List String) :
    Except Exc (List V) :=
  if uniqueTexts.isEmpty then .ok [] else embedder.embedBatch uniqueTexts

theorem Embedder.embedTexts_eq {embedder : Embedder V} {embed : String → V} {texts : List String}
    (h : texts ≠ [] → embedder.embedBatch texts = .ok (texts.map embed)) :
    embedder.embedTexts texts = .ok (texts.map embed) := by
  rw [embedTexts]
  split
  · rename_i hempty
    rw [List.isEmpty_iff.mp hempty]
    rfl
  · rename_i hne
    exact h fun hempty => hne (List.isEmpty_iff.mpr hempty)

structure Pair where
  segIdx : Nat
  citationIdx : Int
  claimPos : Nat
  chunkPos : Nat

def intern (uniqueTexts : List String) (t : String) : Nat × List String :=
  if t ∈ uniqueTexts then (uniqueTexts.idxOf t, uniqueTexts)
  else (uniqueTexts.length, uniqueTexts ++ [t])

def Segment.compared (t : VerifierThresholds S) (seg : Segment S) : Bool :=
  match seg.supportType with
  | .conflict => seg.conflictGroups.truthy
  | .inference => t.inferenceJudgeEnabled
  | _ => true

def addPair (contexts : List (RetrievedChunk S)) (seg : Segment S)
    (acc : List Pair × List String) (cidx : Int) : List Pair × List String :=
  match contextAt contexts cidx with
  | none => acc
  | some ctx =>
    let claim := intern acc.2 seg.text
    let chunk := intern claim.2 ctx.content
    (acc.1 ++ [⟨seg.index, cidx, claim.1, chunk.1⟩], chunk.2)

def collectPairs (contexts : List (RetrievedChunk S)) (t : VerifierThresholds S)
    (segments : List (Segment S)) : List Pair × List String :=
  segments.foldl (fun acc seg =>
    if seg.compared t then seg.citations.foldl (addPair contexts seg) acc else acc) ([], [])

section Order

variable [LinearOrder S]

def classify (similarity : S) (t : VerifierThresholds S) : SupportLevel × Bool :=
  if t.strongThreshold ≤ similarity then (.strong, true)
  else if t.mediumThreshold ≤ similarity then (.medium, true)
  else (.weak, false)

def verifiedCitation (t : VerifierThresholds S) (segIdx : Nat) (cidx : Int) (sim : S) :
    VerifiedCitation S where
  segmentIndex := segIdx
  chunkIndex := cidx
  similarity := sim
  supportLevel := (classify sim t).1
  verified := (classify sim t).2

def listGet (xs : List V) (i : Nat) : Except Exc V :=
  match xs[i]? with
  | some x => .ok x
  | none => .error ⟨"IndexError", "list index out of range"⟩

def assessPair (cosine : V → V → S) (embeddings : List V) (t : VerifierThresholds S)
    (pair : Pair) : Except Exc (VerifiedCitation S) := do
  let claim ← listGet embeddings pair.claimPos
  let chunk ← listGet embeddings pair.chunkPos
  return verifiedCitation t pair.segIdx pair.citationIdx (cosine claim chunk)

end Order

/-- The assessments of one segment by citation index, a later one replacing an earlier one. -/
def assessMap (assessments : List (VerifiedCitation S)) (segIdx : Nat) :
    Dict Int (VerifiedCitation S) :=
  assessments.foldl (fun m a => if a.segmentIndex = segIdx then m.set a.chunkIndex a else m) .empty

def chunkVerified (m : Dict Int (VerifiedCitation S)) (c : Int) : Bool :=
  match m.get? c with
  | some a => a.verified
  | none => false

def memberVerified (m : Dict Int (VerifiedCitation S)) (c : Value) : Except Exc Bool := do
  match ← c.intKey? with
  | some k => return chunkVerified m k
  | none => return false

def groupVerified (m : Dict Int (VerifiedCitation S)) (group : Value) : Except Exc Bool := do
  if group.truthy then (← group.iter).allM (memberVerified m)
  else return false

def allGroupsOk (m : Dict Int (VerifiedCitation S)) (groups : Value) : Except Exc Bool := do
  (← groups.iter).allM (groupVerified m)

def VerifiedCitation.capped (a : VerifiedCitation S) : VerifiedCitation S :=
  { a with
    supportLevel := if a.supportLevel = .strong then .medium else a.supportLevel
    verified := true }

def Segment.downgrade (seg : Segment S) (reason : DowngradeReason)
    (citationMeta : Dict Int (VerifiedCitation S)) : Segment S :=
  { seg with citations := [], citationMeta := citationMeta, downgraded := some reason }

def classifyConflict (m : Dict Int (VerifiedCitation S)) (seg : Segment S) :
    Except Exc (Segment S) := do
  let groups := seg.conflictGroups.orElse (.list [])
  if (← groups.len) < 2 then return seg.downgrade .conflictGroupsMissing .empty
  else if !(← allGroupsOk m groups) then return seg.downgrade .conflictGroupWeak m
  else return { seg with citationMeta := m.pick VerifiedCitation.capped seg.citations }

def allCitationsVerified (m : Dict Int (VerifiedCitation S)) (seg : Segment S) : Bool :=
  !seg.citations.isEmpty && seg.citations.all (chunkVerified m)

def classifyInference (t : VerifierThresholds S) (m : Dict Int (VerifiedCitation S))
    (seg : Segment S) : Segment S :=
  if !t.inferenceJudgeEnabled then seg.downgrade .judgeNotEnabled .empty
  else if !allCitationsVerified m seg then seg.downgrade .tier2ChunkWeak m
  else { seg with citationMeta := m.pick id seg.citations, pendingJudge := true }

def dropWeak (m : Dict Int (VerifiedCitation S)) (seg : Segment S) : Segment S :=
  let kept := seg.citations.filter (chunkVerified m)
  { seg with citations := kept, citationMeta := m.pick id kept }

def classifySegment (t : VerifierThresholds S) (m : Dict Int (VerifiedCitation S))
    (seg : Segment S) : Except Exc (Segment S) :=
  match seg.supportType with
  | .conflict => classifyConflict m seg
  | .inference => .ok (classifyInference t m seg)
  | .synthesis => .ok (if !allCitationsVerified m seg then seg.downgrade .synthesisChunkWeak m
      else dropWeak m seg)
  | _ => .ok (dropWeak m seg)

section Run

variable [LinearOrder S] [Zero S] [Add S] [Div S] [NatCast S]

def average (xs : List S) : S := if xs.isEmpty then 0 else xs.sum / (xs.length : S)

structure Tier2Result (S : Type) where
  segments : List (Segment S)
  assessments : List (VerifiedCitation S)
  avgSimilarity : S

def tier2Classify (embedder : Embedder V) (cosine : V → V → S) (segments : List (Segment S))
    (contexts : List (RetrievedChunk S)) (t : VerifierThresholds S) :
    Except Exc (Tier2Result S) := do
  let batch := collectPairs contexts t segments
  let embeddings ← embedder.embedTexts batch.2
  let assessments ← batch.1.mapM (assessPair cosine embeddings t)
  let newSegments ← segments.mapM fun seg =>
    classifySegment t (assessMap assessments seg.index) seg
  return ⟨newSegments, assessments, average (assessments.map VerifiedCitation.similarity)⟩

end Run

end DomainRag.Verifier
