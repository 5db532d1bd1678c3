import DomainRag.Indexing.Service
import DomainRag.Pii.Service

/-! # PII in the text of a chunk

The third policy of `PIIService`: findings from a threshold on become warnings of the chunk, and
one of high severity blocks its indexing when the tenant's configuration asks for this. The
configuration is the tenant's own data, with sections that may be missing or of another type.
-/

namespace DomainRag.Pii

open Indexing

def Severity.rank : Severity → Nat
  | low => 1
  | medium => 2
  | high => 3

def Severity.name : Severity → String
  | low => "low"
  | medium => "medium"
  | high => "high"

/-- The severity that a value names; an unknown value counts as `medium`. -/
def severityOf : Value → Except Exc Severity
  | .str s => .ok ((Severity.ofString? s).getD .medium)
  | .list _ => .error (.typeError "unhashable type: 'list'")
  | .dict _ => .error (.typeError "unhashable type: 'dict'")
  | _ => .ok .medium

def warningOf (finding : PIIFinding) (severity : Severity) : Value :=
  .dict
    [("category", .str finding.category),
     ("severity", .str severity.name),
     ("position", .list [.int finding.position.1, .int finding.position.2]),
     ("masked_form", .str finding.maskedForm),
     ("action", .str "warn")]

def configSection (v : Value) (key : String) : Except Exc Value := do
  return ((← v.get key).getD .null).orElse (.dict [])

/-- The findings of a text with the severity that the configuration gives their category. -/
def judge (rules : List PIIRule) (severityMap : Value) (content : String) :
    Except Exc (List (PIIFinding × Severity)) :=
  (scan rules content).mapM fun f => do
    let configured ← severityMap.getD f.category (.str f.severity)
    return (f, ← severityOf configured)

/-- `repr` gives the text of a value that is no string. -/
def PIIService.checkChunkPii (service : PIIService) (repr : Value → String)
    (chunkContent : String) (piiConfig : Value) : Except Exc ChunkPIIWarning := do
  let cfg := piiConfig.orElse (.dict [])
  let indexingCfg ← configSection cfg "indexing"
  let enable ← indexingCfg.getD "enable" (.bool true)
  if !enable.truthy || chunkContent = "" then return {}
  let onChunkCfg ← configSection indexingCfg "on_pii_found_in_chunk"
  let configured ← onChunkCfg.getD "severity_threshold" (.str "medium")
  let thresholdRank :=
    ((Severity.ofString? (service.lower (configured.text repr))).map Severity.rank).getD 2
  let blockFlag ← onChunkCfg.getD "block_indexing" (.bool false)
  let severityMap ← configSection cfg "severity_map"
  let judged ← judge service.rules severityMap chunkContent
  let found := judged.filter fun e => thresholdRank ≤ e.2.rank
  let hasHigh := found.any fun e => e.2 = .high
  return {
    piiWarnings := found.map fun e => warningOf e.1 e.2
    hasHighSeverity := hasHigh
    blockIndexing := blockFlag.truthy && hasHigh }

end DomainRag.Pii
