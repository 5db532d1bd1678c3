import Mathlib.Algebra.Order.Ring.Rat
import DomainRag.Lib.ReadThrough
import DomainRag.Config.Overrides

/-! # The cache of the loaded configuration

A load takes the configuration from a cache for a minute, and otherwise reads the files and merges
the overrides of the process into it before it stores the result. Overrides are changed first, and
the cache is dropped after that.
-/

namespace DomainRag.Config

/-- What a load reads: the files, and the overrides of the process. -/
structure ConfigState where
  sources : ConfigSources
  service : TenantConfigService := {}

inductive ConfigChange where
  /-- Somebody edits the files. -/
  | edit (platform : String → Value) (tenant : String → Option Value)
  | applyRuntimeOverride (domainId category : String) (value : Value)
  | clearRuntimeOverrides (domainId : Option String)
  | invalidate (domainId : Option String)

namespace TenantConfigService

def ttl : Rat := 60

def changed (s : ConfigState) : ConfigChange → ConfigState
  | .edit platform tenant =>
    { s with sources := { s.sources with platform := platform, tenant := tenant } }
  | .applyRuntimeOverride domainId category value =>
    { s with service := s.service.applyRuntimeOverride domainId category value }
  | .clearRuntimeOverrides (some domainId) =>
    { s with service := s.service.clearRuntimeOverrides domainId }
  | .clearRuntimeOverrides none => { s with service := {} }
  | .invalidate _ => s

def dropped : ConfigChange → Option (Option String)
  | .edit _ _ => none
  | .applyRuntimeOverride domainId _ _ => some (some domainId)
  | .clearRuntimeOverrides domainId => some domainId
  | .invalidate domainId => some domainId

def withOverrides (s : ConfigState) (domainId : String) (config : Value) : Except Exc Value :=
  ((s.service.runtimeOverrides.get? domainId).getD .empty).entries.foldlM (withOverride s.sources)
    config

/-- `load`, `apply_runtime_override`, `clear_runtime_overrides` and `invalidate` in their steps. The
files are read first, and then the overrides. -/
def cached : ReadThrough ConfigState ConfigChange String Value Value Exc Rat where
  start s domainId := loadFromDisk s.sources domainId
  finish := withOverrides
  write := changed
  drops := dropped
  fresh time now := now - time < ttl

end TenantConfigService

open TenantConfigService ReadThrough

abbrev ConfigMove := Move (CacheCall ConfigChange String) Rat

/-- The configuration of a domain as it is read between two points of a run. -/
def ReadBetween (s : ConfigState) (since upto : List ConfigMove) (domainId : String)
    (config : Value) : Prop :=
  ∃ first second raw, since <+: first ∧ first <+: second ∧ second <+: upto ∧
    loadFromDisk (cached.run s first).shared.source.sources domainId = .ok raw ∧
    withOverrides (cached.run s second).shared.source domainId raw = .ok config

/-- From here on nothing that was read before is returned: the run has just begun, or the domain has
just been dropped and no load of it was between its reading and its storing. -/
inductive Barrier (s : ConfigState) (domainId : String) : List ConfigMove → Prop where
  | start : Barrier s domainId []
  | dropped {moves : List ConfigMove} {i : Nat} {which : Option String} (now : Rat)
      (hdropping : (cached.run s moves).threads[i]? = some (.dropping which))
      (hwhich : ∀ d, which = some d → d = domainId)
      (hfinishing : ∀ raw, .finishing domainId raw ∉ (cached.run s moves).threads)
      (hstoring : ∀ config, .storing domainId config ∉ (cached.run s moves).threads) :
      Barrier s domainId (moves ++ [.advance i now])

theorem Barrier.settled {s : ConfigState} {domainId : String} {since : List ConfigMove}
    (h : Barrier s domainId since) : Settled domainId (cached.run s since) := by
  cases h with
  | start => exact settled_start domainId
  | dropped now hdropping hwhich hfinishing hstoring =>
    exact settled_dropped hdropping hwhich hfinishing hstoring

/-- In every interleaving of loads with changes of the files and of the overrides: a load that
returns after a barrier returns a configuration that was read after it, by the load itself or by
another one that has stored it less than a minute ago. -/
theorem load_returns (s : ConfigState) {domainId : String} {since moves : List ConfigMove}
    (hbarrier : Barrier s domainId since) (hsince : since <+: moves) {i : Nat} {now : Rat}
    {config : Value}
    (hbefore : (cached.run s moves).threads[i]? ≠ some (.returned domainId config))
    (hafter : (cached.run s (moves ++ [.advance i now])).threads[i]? =
      some (.returned domainId config)) :
    ReadBetween s since moves domainId config ∨
      ∃ time before j, before ++ [.advance j time] <+: moves ∧ now - time < 60 ∧
        ReadBetween s since before domainId config := by
  obtain hmade | ⟨time, ⟨before, j, hstarts, hmade⟩, hfresh⟩ :=
    served hbarrier.settled hsince hbefore hafter
  · exact .inl hmade
  · exact .inr ⟨time, before, j, hstarts, of_decide_eq_true hfresh, hmade⟩

section Routing

def hrFiles : ConfigState where
  sources :=
    { platform := fun category => if category = "routing" then .dict [("top_k", .int 4)] else .null
      tenant := fun _ => none
      classAttrs := fun _ => none }

/-- An override is put in place, and the cache is dropped. -/
def overridden : List ConfigMove :=
  [.start (.write (.applyRuntimeOverride "hr" "routing" (.dict [("top_k", .int 8)]))),
    .advance 0 0]

/-- A load after that, up to its last step. -/
def loading : List ConfigMove :=
  overridden ++ [.advance 0 0] ++ [.start (.load "hr"), .advance 1 1, .advance 1 1, .advance 1 1]

def hrConfig : Value :=
  .dict (("domain_id", .str "hr") :: categories.map (fun category =>
    (category, if category = "routing" then .dict [("top_k", .int 8)] else .dict [])) ++
    [("compliance_mode", .str "standard"), ("_sources", .dict [])])

theorem load_returns_routing :
    ReadBetween hrFiles (overridden ++ [.advance 0 0]) loading "hr" hrConfig ∨
      ∃ time before j, before ++ [.advance j time] <+: loading ∧ 1 - time < 60 ∧
        ReadBetween hrFiles (overridden ++ [.advance 0 0]) before "hr" hrConfig := by
  have hbarrier : Barrier hrFiles "hr" (overridden ++ [.advance 0 0]) := by
    have hdropping : (cached.run hrFiles overridden).threads[0]? =
        some (.dropping (some "hr")) := rfl
    apply Barrier.dropped 0 hdropping
    · rintro d ⟨⟩
      rfl
    · exact fun raw h => nomatch List.mem_singleton.mp h
    · exact fun config h => nomatch List.mem_singleton.mp h
  exact load_returns (i := 1) hrFiles hbarrier (List.prefix_append _ _) (fun h => nomatch h) rfl

end Routing

end DomainRag.Config
