import DomainRag.Pii.Detector
import DomainRag.Pii.Service

/-! # What a configured policy promises

The policy under which questions are stored is a string of the tenant's configuration, of which the
service knows two. Every other string counts as plain storage, without an approval.
-/

namespace DomainRag.Pii.PIIService

variable (service : PIIService) (piiConfig : Option PiiConfig) (complianceMode : Option String)
  (plainApproved : Bool) (text : String)

/-- The configured policy, as the service compares it. -/
def configured : String := service.lower ((piiConfig.getD {}).piiStoragePolicy.getD "mask")

/-- Plain storage is configured and approved, and the compliance mode does not rule it out. -/
structure PlainAllowed : Prop where
  configured : service.configured piiConfig = "plain"
  approved : plainApproved = true
  notGdpr : service.lower (complianceMode.getD "") ≠ "gdpr_strict"
  notHipaa : service.lower (complianceMode.getD "") ≠ "hipaa_strict"

/-- A text is stored as it is exactly where that is allowed, and masked everywhere else. -/
structure FailSafe : Prop where
  plain : (service.maskForStorage text piiConfig complianceMode plainApproved).policy = .plain ↔
    service.PlainAllowed piiConfig complianceMode plainApproved
  raw : service.PlainAllowed piiConfig complianceMode plainApproved →
    (service.maskForStorage text piiConfig complianceMode plainApproved).text = text
  masked : ¬ service.PlainAllowed piiConfig complianceMode plainApproved →
    (service.maskForStorage text piiConfig complianceMode plainApproved).policy = .mask ∧
      (service.maskForStorage text piiConfig complianceMode plainApproved).text =
        (mask service.rules text).1

variable {service piiConfig complianceMode plainApproved text}

theorem forced_eq_false_iff : service.forced complianceMode = false ↔
    service.lower (complianceMode.getD "") ≠ "gdpr_strict" ∧
      service.lower (complianceMode.getD "") ≠ "hipaa_strict" := by
  simp only [forced, Bool.or_eq_false_iff, decide_eq_false_iff_not, ne_eq]

/-- Without a strict mode, a policy that is not `mask` is plain unless only its approval misses. -/
theorem storagePolicy_plain_iff :
    service.storagePolicy piiConfig complianceMode plainApproved = .plain ↔
      service.forced complianceMode = false ∧ service.configured piiConfig ≠ "mask" ∧
        (service.configured piiConfig = "plain" → plainApproved = true) := by
  rw [storagePolicy]
  change (if _ ∨ (if service.configured piiConfig = "plain" ∧ _ then "mask"
    else service.configured piiConfig) = "mask" then StoragePolicy.mask else .plain) = .plain ↔ _
  cases service.forced complianceMode with
  | true => simp
  | false =>
    cases plainApproved with
    | true => simp
    | false =>
      by_cases hplain : service.configured piiConfig = "plain"
      · simp [hplain]
      · simp [hplain]

theorem maskForStorage_raw
    (h : service.storagePolicy piiConfig complianceMode plainApproved = .plain) :
    (service.maskForStorage text piiConfig complianceMode plainApproved).text = text := by
  simp only [maskForStorage, h, or_true, if_true]

/-- Storage is fail-safe exactly under a policy that the service knows or a strict mode. -/
theorem failSafe_iff : service.FailSafe piiConfig complianceMode plainApproved text ↔
    service.configured piiConfig = "mask" ∨ service.configured piiConfig = "plain" ∨
      service.forced complianceMode = true := by
  constructor
  · intro h
    by_contra hnone
    simp only [not_or, Bool.not_eq_true] at hnone
    obtain ⟨hmask, hplain, hforced⟩ := hnone
    have hpolicy := (maskForStorage_policy service text piiConfig complianceMode plainApproved).trans
      (storagePolicy_plain_iff.mpr ⟨hforced, hmask, fun hp => absurd hp hplain⟩)
    exact hplain (h.plain.mp hpolicy).configured
  · intro hknown
    have hallowed : service.storagePolicy piiConfig complianceMode plainApproved = .plain ↔
        service.PlainAllowed piiConfig complianceMode plainApproved := by
      rw [storagePolicy_plain_iff]
      constructor
      · rintro ⟨hforced, hmask, happroved⟩
        have hplain : service.configured piiConfig = "plain" := by
          obtain hm | hp | hf := hknown
          · exact absurd hm hmask
          · exact hp
          · exact absurd (hforced.symm.trans hf) nofun
        exact ⟨hplain, happroved hplain, (forced_eq_false_iff.mp hforced).1,
          (forced_eq_false_iff.mp hforced).2⟩
      · rintro ⟨hplain, happroved, hgdpr, hhipaa⟩
        refine ⟨forced_eq_false_iff.mpr ⟨hgdpr, hhipaa⟩, ?_, fun _ => happroved⟩
        rw [hplain]
        decide
    refine ⟨?_, fun h => maskForStorage_raw (hallowed.mpr h), fun h => ?_⟩
    · rw [maskForStorage_policy]
      exact hallowed
    · have hmask : service.storagePolicy piiConfig complianceMode plainApproved = .mask := by
        cases hpolicy : service.storagePolicy piiConfig complianceMode plainApproved with
        | mask => rfl
        | plain => exact absurd (hallowed.mp hpolicy) h
      exact ⟨(maskForStorage_policy _ _ _ _ _).trans hmask, maskForStorage_text _ _ _ _ _ hmask⟩

def phoneQuestion : String := "연락처 010-1234-5678 로 문의한 건은?"

def phoneService : PIIService where
  rules :=
    [ { category := "phone", severity := "medium", maskTemplate := "010-****-****",
        pattern := .once phoneQuestion 4 17 (by decide) } ]
  lower := id

/-- A misspelt policy stores the number without an approval. -/
theorem misspelt_policy_stores_plain :
    (phoneService.maskForStorage phoneQuestion (some { piiStoragePolicy := some "masked" })
      (some "standard") false).text = phoneQuestion ∧
    ¬ phoneService.FailSafe (some { piiStoragePolicy := some "masked" }) (some "standard") false
      phoneQuestion := by
  refine ⟨maskForStorage_raw (by decide), fun h => ?_⟩
  have hplain : (phoneService.maskForStorage phoneQuestion
      (some { piiStoragePolicy := some "masked" }) (some "standard") false).policy = .plain :=
    (maskForStorage_policy _ _ _ _ _).trans (by decide)
  exact absurd (h.plain.mp hplain).approved nofun

end DomainRag.Pii.PIIService
