import DomainRag.Assessment.Samples
import DomainRag.Storage.Assets

/-! # The endpoint that takes items out of the bank

The service cites and counts what it selected. The endpoint caps the items of its answer afterwards,
and leaves the citations and the counted uses as they are.
-/

namespace DomainRag.Assessment.Extract

open Sampling Auth
open Storage (ensureTenantMatch)

structure ExtractRequest extends ExtractCriteria where
  count : Option Int := none

/-- The items that the answer shows, and their number. -/
def ExtractRequest.cap (req : ExtractRequest) (result : ExtractResult) :
    List AssessmentItemRecord × Int :=
  match req.count with
  | none => (result.items, result.extractedCount)
  | some count =>
    if 0 ≤ count then (result.items.take count.toNat, min result.extractedCount count)
    else (result.items, result.extractedCount)

structure AssessmentLogPayload where
  domainId : String
  requestId : String
  action : String
  actor : Value
  criteria : ExtractRequest
  extractedCount : Int
  insufficientPool : Dict String Int
  latencyMs : Int

structure ExtractResponse where
  requestId : String
  domainId : String
  mode : String := "extract"
  items : List AssessmentItemRecord
  extractedCount : Int
  citations : List Citation
  insufficientPool : Dict String Int
  latencyMs : Int

/-- The bank and the log. -/
structure Desk where
  bank : InMemoryAssessmentItemRepository
  log : List AssessmentLogPayload := []

/-- What a call reads from its host: an id, the clock and the time that it took. -/
structure HostReadings where
  requestId : String
  listedAt : Rat
  touchedAt : Rat
  latencyMs : Int

variable (rng : Sampler AssessmentItemRecord) (host : HostReadings)

def extractItems (desk : Desk) (domainId : String) (req : ExtractRequest) (user : UserContext) :
    Except AuthError (ExtractResponse × Desk) := do
  ensureTenantMatch domainId user
  let (result, bank) ← (extract rng host.listedAt host.touchedAt desk.bank domainId
    req.toExtractCriteria).mapError .raised
  let (itemsOut, extractedCount) := req.cap result
  let payload : AssessmentLogPayload :=
    { domainId, requestId := host.requestId, action := "extract", actor := user.userId
      criteria := req, extractedCount, insufficientPool := result.insufficientPool
      latencyMs := host.latencyMs }
  return ({ requestId := host.requestId, domainId, items := itemsOut, extractedCount
            citations := result.citations, insufficientPool := result.insufficientPool
            latencyMs := host.latencyMs },
          { bank, log := desk.log ++ [payload] })

/-- The items of the answer are those that it cites, in their order, and those whose use was
counted. -/
structure Agrees (touchedAt : Rat) (domainId : String) (before after : Desk)
    (response : ExtractResponse) : Prop where
  cited : response.citations.map Citation.itemId = response.items.map fun r => r.itemId
  used : ∀ key, after.bank.records.get? key = (before.bank.records.get? key).map fun r =>
    if key.1 = domainId ∧ key.2 ∈ response.items.map (fun r => r.itemId) then r.touch touchedAt
    else r
  counted : response.extractedCount = response.items.length

/-- How many items are selected from those that match. -/
def selectionSize (criteria : ExtractCriteria) (rows : List AssessmentItemRecord) : Int :=
  match criteria.difficultyDistribution with
  | none => (rows.take 1000).length
  | some dist =>
    if dist.entries = [] then (rows.take 1000).length
    else (dist.entries.map fun e => max 0 (min (available (rows.take 1000) e.1) e.2)).sum

variable {rng host}

theorem length_selected (criteria : ExtractCriteria) (rows : List AssessmentItemRecord) :
    ((selection rng criteria rows).selected.length : Int) = selectionSize criteria rows := by
  rw [selection, select, selectionSize]
  cases criteria.difficultyDistribution with
  | none => rfl
  | some dist =>
    simp only [List.isEmpty_iff]
    split
    · rfl
    · rw [selected_foldl, List.nil_append, length_draws]
      rfl

section Answered

variable {desk after : Desk} {domainId : String} {req : ExtractRequest} {user : UserContext}
  {response : ExtractResponse}

/-- An answer shows what the service selected, up to the cap. -/
theorem extractItems_answer (h : extractItems rng host desk domainId req user =
    .ok (response, after)) : ∃ rows result,
      desk.bank.candidates host.listedAt domainId req.toExtractCriteria = .ok rows ∧
      Extracted rng host.touchedAt domainId req.toExtractCriteria rows desk.bank result after.bank ∧
      (response.items, response.extractedCount) = req.cap result ∧
      response.citations = result.citations := by
  obtain ⟨_, -, h⟩ := Except.bind_eq_ok_iff.mp h
  obtain ⟨⟨result, bank⟩, hextract, h⟩ := Except.bind_eq_ok_iff.mp h
  cases h
  cases hcandidates : desk.bank.candidates host.listedAt domainId req.toExtractCriteria with
  | error e =>
    rw [extract, InMemoryAssessmentItemRepository.listCandidatesForExtract, hcandidates] at hextract
    cases hextract
  | ok rows =>
    obtain ⟨result', bank', heq, hextracted⟩ := extract_of_candidates rng host.touchedAt hcandidates
    rw [heq] at hextract
    cases hextract
    exact ⟨rows, result, rfl, hextracted, rfl, rfl⟩

theorem cap_cases (req : ExtractRequest) {result : ExtractResult}
    (hcount : result.extractedCount = result.items.length) :
    (∀ count, req.count = some count → 0 ≤ count → (result.items.length : Int) ≤ count) ∧
        req.cap result = (result.items, (result.items.length : Int)) ∨
      ∃ count, req.count = some count ∧ 0 ≤ count ∧ count < result.items.length ∧
        req.cap result = (result.items.take count.toNat, count) := by
  rw [ExtractRequest.cap, hcount]
  cases req.count with
  | none => exact .inl ⟨nofun, rfl⟩
  | some count =>
    simp only [Option.some.injEq, forall_eq', exists_eq_left']
    by_cases hneg : 0 ≤ count
    · rw [if_pos hneg]
      by_cases hle : (result.items.length : Int) ≤ count
      · have htake : result.items.take count.toNat = result.items :=
          List.take_of_length_le (by omega)
        rw [htake, min_eq_left hle]
        exact .inl ⟨fun _ => hle, rfl⟩
      · have hlt : count < result.items.length := by omega
        rw [min_eq_right hlt.le]
        exact .inr ⟨hneg, hlt, rfl⟩
    · rw [if_neg hneg]
      exact .inl ⟨fun hpos => absurd hpos hneg, rfl⟩

/-- The answer agrees with what was cited and counted exactly if the cap, when it is set and not
negative, is not below what was selected. -/
theorem extractItems_agrees_iff (rng : Sampler AssessmentItemRecord) (host : HostReadings)
    (desk after : Desk) (domainId : String) (req : ExtractRequest) (user : UserContext)
    (response : ExtractResponse)
    (h : extractItems rng host desk domainId req user = .ok (response, after)) :
    Agrees host.touchedAt domainId desk after response ↔
      ∃ rows, desk.bank.candidates host.listedAt domainId req.toExtractCriteria = .ok rows ∧
        ∀ count, req.count = some count → 0 ≤ count →
          selectionSize req.toExtractCriteria rows ≤ count := by
  obtain ⟨rows, result, hrows, hextracted, hcap, hcitations⟩ := extractItems_answer h
  have hsize : (result.items.length : Int) = selectionSize req.toExtractCriteria rows := by
    rw [hextracted.items, List.length_map, length_selected]
  have hcited : response.citations.map Citation.itemId = result.items.map fun r => r.itemId := by
    rw [hcitations, hextracted.citations]
  simp only [hrows, Except.ok.injEq, exists_eq_left', ← hsize]
  rcases cap_cases req hextracted.extractedCount with ⟨hfits, hall⟩ | ⟨count, hcount, hpos, hlt, hcut⟩
  · rw [hall, Prod.mk.injEq] at hcap
    refine iff_of_true ⟨?_, ?_, ?_⟩ hfits
    · rw [hcited, hcap.1]
    · rw [hcap.1]
      exact hextracted.used
    · rw [hcap.1, hcap.2]
  · rw [hcut, Prod.mk.injEq] at hcap
    apply iff_of_false
    · intro hagrees
      have hlen := congrArg List.length hagrees.cited
      rw [hcited, hcap.1, List.length_map, List.length_map, List.length_take] at hlen
      omega
    · intro hfits
      have hle := hfits count hcount hpos
      omega

end Answered

section CappedAnswer

def student : UserContext where
  userId := .str "u1"
  domainId := "math"
  roles := []
  clearance := .null
  department := .null
  domainGroups := []
  preferredUsername := .null
  email := .null
  rawClaims := .empty

def twoItems : InMemoryAssessmentItemRepository :=
  bankOf "math" [approvedItem "easy" "a", approvedItem "easy" "b"] (by decide) (by decide)

def oneOfTwo : ExtractRequest where
  count := some 1

def atNoon : HostReadings := ⟨"r1", 0, 1, 5⟩

theorem oneOfTwo_answered : ∃ response after,
    extractItems firstOf atNoon ⟨twoItems, []⟩ "math" oneOfTwo student = .ok (response, after) ∧
      response.citations.map Citation.itemId = ["a", "b"] ∧
      response.items.map (fun r => r.itemId) = ["a"] := by
  refine ⟨_, _, rfl, ?_, ?_⟩
  · decide +kernel
  · decide +kernel

theorem extractItems_agrees_iff_oneOfTwo : ∃ response after,
    extractItems firstOf atNoon ⟨twoItems, []⟩ "math" oneOfTwo student = .ok (response, after) ∧
      (Agrees 1 "math" ⟨twoItems, []⟩ after response ↔
        ∃ rows, twoItems.candidates 0 "math" oneOfTwo.toExtractCriteria = .ok rows ∧
          ∀ count, oneOfTwo.count = some count → 0 ≤ count →
            selectionSize oneOfTwo.toExtractCriteria rows ≤ count) := by
  obtain ⟨response, after, h, -⟩ := oneOfTwo_answered
  exact ⟨response, after, h, extractItems_agrees_iff firstOf atNoon ⟨twoItems, []⟩ after "math"
    oneOfTwo student response h⟩

theorem capped_answer_disagrees : ∃ response after,
    extractItems firstOf atNoon ⟨twoItems, []⟩ "math" oneOfTwo student = .ok (response, after) ∧
      ¬ Agrees 1 "math" ⟨twoItems, []⟩ after response := by
  obtain ⟨response, after, h, hcited, hitems⟩ := oneOfTwo_answered
  refine ⟨response, after, h, ?_⟩
  intro hagrees
  have hsame := hagrees.cited
  rw [hcited, hitems] at hsame
  cases hsame

end CappedAnswer

end DomainRag.Assessment.Extract
