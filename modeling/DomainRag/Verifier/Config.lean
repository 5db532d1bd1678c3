import DomainRag.Verifier.Pipeline

/-! # The citation configuration of a tenant

Thresholds, the limits of both gates, confidence weights, the judge switch and the conflict
heuristic are all read from one optional section of the tenant's configuration.
-/

namespace DomainRag.Verifier

variable {V S : Type}

/-- The keys of `citation.yaml` that the chat graph reads. An absent key or section is `none`. -/
structure CitationConfig (S : Type) where
  strong : Option S := none
  medium : Option S := none
  minVerifiedCount : Option Int := none
  maxUnsupportedRatio : Option S := none
  minConfidence : Option S := none
  weightRetrieval : Option S := none
  weightVerified : Option S := none
  weightSupported : Option S := none
  weightCoverage : Option S := none
  judgeEnable : Option Bool := none
  heuristicEnable : Option Bool := none
  heuristicPatterns : Option (List String) := none
  minTop1Rerank : Option S := none
  minStrongChunks : Option Int := none
  strongChunkThreshold : Option S := none

def VerifierThresholds.fromConfig [OfScientific S] (citationConfig : Option (CitationConfig S)) :
    VerifierThresholds S :=
  let cfg := citationConfig.getD {}
  { strongThreshold := cfg.strong.getD 0.75
    mediumThreshold := cfg.medium.getD 0.55
    minVerifiedCount := cfg.minVerifiedCount.getD 1
    maxUnsupportedRatio := cfg.maxUnsupportedRatio.getD 0.5
    minConfidence := cfg.minConfidence.getD 0.5
    weightRetrieval := cfg.weightRetrieval.getD 0.30
    weightVerified := cfg.weightVerified.getD 0.30
    weightSupported := cfg.weightSupported.getD 0.20
    weightCoverage := cfg.weightCoverage.getD 0.20
    inferenceJudgeEnabled := cfg.judgeEnable.getD false }

def Signal.text : Signal → String
  | dateDiff => "date_diff"
  | numericDiff => "numeric_diff"
  | ruleIdDiff => "rule_id_diff"

def allowedSignals : List Signal := [.dateDiff, .numericDiff, .ruleIdDiff]

/-- The detector of a configuration: no patterns without the heuristic, all of them when none
are listed, and unknown names are ignored. -/
def ConflictDetector.fromConfig (patterns : Patterns) (cfg : CitationConfig S) :
    ConflictDetector where
  patterns := patterns
  enabledPatterns :=
    if cfg.heuristicEnable.getD false then
      match cfg.heuristicPatterns.getD [] with
      | [] => allowedSignals
      | names => allowedSignals.filter fun s => s.text ∈ names
    else []

/-- The tenant's own detector when its configuration has a citation section, else the default. -/
def detectorFor (patterns : Patterns) (default : Option ConflictDetector)
    (citationConfig : Option (CitationConfig S)) : Option ConflictDetector :=
  match citationConfig with
  | some cfg => some (.fromConfig patterns cfg)
  | none => default

end DomainRag.Verifier
