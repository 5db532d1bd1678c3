import DomainRag.Pii.Detector

/-! # PII policies

`PIIService` puts the tenant's policies on top of the detector: which findings block a question,
in which form a question is stored, and how an answer is masked.
-/

namespace DomainRag.Pii

inductive Severity where
  | low
  | medium
  | high
  deriving DecidableEq, Repr

inductive Action where
  | block
  | warn
  | log
  | mask
  deriving DecidableEq, Repr

inductive StoragePolicy where
  | mask
  | plain
  deriving DecidableEq, Repr

/-- The keys of `pii.yaml` that the service reads. An absent key or section is `none`, and
`lower` is Python's case folding of a configured name. -/
structure PiiConfig where
  inputEnable : Option Bool := none
  highSeverity : Option String := none
  mediumSeverity : Option String := none
  lowSeverity : Option String := none
  severityMap : List (String × String) := []
  piiStoragePolicy : Option String := none
  plainApproved : Option Bool := none
  responseEnable : Option Bool := none

/-- A finding as the chat log keeps it: the text that was found is not part of it. -/
structure FindingRecord where
  category : String
  severity : Severity
  position : Nat × Nat
  maskedForm : String
  action : Action
  deriving DecidableEq, Repr

def Severity.ofString? (s : String) : Option Severity :=
  if s = "low" then some .low
  else if s = "medium" then some .medium
  else if s = "high" then some .high
  else none

def resolveSeverity (category default : String) (severityMap : List (String × String)) :
    Severity :=
  (Severity.ofString? ((severityMap.lookup category).getD default)).getD .medium

/-- The action of the input check; an unknown name counts as `log`. -/
def resolveAction (severity : Severity) (cfg : PiiConfig) : Action :=
  let configured := match severity with
    | .high => cfg.highSeverity.getD "block"
    | .medium => cfg.mediumSeverity.getD "warn"
    | .low => cfg.lowSeverity.getD "log"
  if configured = "block" then .block
  else if configured = "warn" then .warn
  else .log

def findingToDict (finding : PIIFinding) (severity : Severity) (action : Action) :
    FindingRecord where
  category := finding.category
  severity := severity
  position := finding.position
  maskedForm := finding.maskedForm
  action := action

structure InputPIICheck where
  findings : List FindingRecord := []
  blocked : Bool := false
  blockedCategories : List String := []

structure OutputPIIMask where
  maskedText : String
  findings : List FindingRecord

structure StoragePIIDecision where
  policy : StoragePolicy
  text : String
  findings : List FindingRecord
  complianceForced : Bool
  plainApprovalMissing : Bool

structure PIIService where
  rules : List PIIRule
  lower : String → String

namespace PIIService

variable (service : PIIService)

def checkInput (question : String) (piiConfig : Option PiiConfig) : InputPIICheck :=
  let cfg := piiConfig.getD {}
  if !cfg.inputEnable.getD true then {}
  else
    let judged := (scan service.rules question).map fun f =>
      let severity := resolveSeverity f.category f.severity cfg.severityMap
      findingToDict f severity (resolveAction severity cfg)
    let blocking := judged.filter fun f => f.action = .block
    { findings := judged
      blocked := !blocking.isEmpty
      blockedCategories := (blocking.map FindingRecord.category).dedup.insertionSort (· ≤ ·) }

def forced (complianceMode : Option String) : Bool :=
  let mode := service.lower (complianceMode.getD "")
  mode = "gdpr_strict" || mode = "hipaa_strict"

/-- The policy under which a question is stored: plain storage needs the approval, and the
strict compliance modes rule it out. -/
def storagePolicy (piiConfig : Option PiiConfig) (complianceMode : Option String)
    (plainApproved : Bool) : StoragePolicy :=
  let configured := service.lower ((piiConfig.getD {}).piiStoragePolicy.getD "mask")
  let effective := if configured = "plain" ∧ plainApproved = false then "mask" else configured
  if service.forced complianceMode = true ∨ effective = "mask" then .mask else .plain

def maskedFindings (cfg : PiiConfig) (raw : List PIIFinding) : List FindingRecord :=
  raw.map fun f => findingToDict f (resolveSeverity f.category f.severity cfg.severityMap) .mask

def maskForStorage (text : String) (piiConfig : Option PiiConfig)
    (complianceMode : Option String) (plainApproved : Bool) : StoragePIIDecision :=
  let cfg := piiConfig.getD {}
  let policy := service.storagePolicy piiConfig complianceMode plainApproved
  let missing := service.lower (cfg.piiStoragePolicy.getD "mask") = "plain" && !plainApproved
  if text = "" ∨ policy = .plain then
    { policy := policy
      text := text
      findings := []
      complianceForced := service.forced complianceMode
      plainApprovalMissing := missing }
  else
    { policy := policy
      text := (mask service.rules text).1
      findings := maskedFindings cfg (mask service.rules text).2
      complianceForced := service.forced complianceMode
      plainApprovalMissing := missing }

def maskOutput (text : String) (piiConfig : Option PiiConfig) : OutputPIIMask :=
  let cfg := piiConfig.getD {}
  if !cfg.responseEnable.getD true || text = "" then ⟨text, []⟩
  else ⟨(mask service.rules text).1, maskedFindings cfg (mask service.rules text).2⟩

theorem maskForStorage_policy (text : String) (piiConfig : Option PiiConfig)
    (complianceMode : Option String) (plainApproved : Bool) :
    (service.maskForStorage text piiConfig complianceMode plainApproved).policy =
      service.storagePolicy piiConfig complianceMode plainApproved := by
  simp only [maskForStorage]
  split <;> rfl

end PIIService

theorem scan_empty (rules : List PIIRule) : scan rules "" = [] := by
  rw [List.eq_nil_iff_forall_not_mem]
  intro f hf
  obtain ⟨rule, -, hpos, -⟩ := mem_scan hf
  have hinside := rule.pattern.inside "" f.position hpos
  rw [String.toList_empty, List.length_nil] at hinside
  omega

theorem mask_empty (rules : List PIIRule) : (mask rules "").1 = "" := by
  rw [mask, scan_empty]
  rfl

/-- Under the policy `mask` the stored text is the masked form, also for the empty text. -/
theorem PIIService.maskForStorage_text (service : PIIService) (text : String)
    (piiConfig : Option PiiConfig) (complianceMode : Option String) (plainApproved : Bool)
    (h : service.storagePolicy piiConfig complianceMode plainApproved = .mask) :
    (service.maskForStorage text piiConfig complianceMode plainApproved).text =
      (mask service.rules text).1 := by
  simp only [maskForStorage, h, reduceCtorEq, or_false]
  split
  · rename_i htext
    rw [htext, mask_empty]
  · rfl

end DomainRag.Pii
