import DomainRag.Acl.Filter

/-! # Who sees what

The purpose of the filter stated without conditions and evaluation: which payloads a user sees
on a day. The evaluator agrees with it on every payload with an access list and ISO dates.
-/

namespace DomainRag.Acl

def LevelWithin (clearance level : String) : Prop :=
  ∃ rank, (level, rank) ∈ securityRank ∧ rank ≤ clearanceRank clearance

/-- A security level, or a list that holds one, within the clearance. -/
def LevelAllowed (clearance : String) (v : Value) : Prop :=
  ∃ level, LevelWithin clearance level ∧ (v = .str level ∨ ∃ vs, v = .list vs ∧ .str level ∈ vs)

def Identifies (user : User) (term : String) : Prop :=
  term = "user:" ++ user.userId ∨
    (∃ d, user.department = some d ∧ d ≠ "" ∧ term = "dept:" ++ d) ∨
    ∃ g ∈ user.domainGroups, term = groupTerm g

/-- A flag that compares equal to true. -/
def IsTrue (v : Value) : Prop := v.num? = some 1

structure Visible (user : User) (today : Date) (payload : Payload) : Prop where
  approved : field payload "approval_status" = .str "approved"
  level : LevelAllowed user.clearance (field payload "security_level")
  acl : ∃ vs, field payload "acl" = .list vs ∧ ∃ term, Identifies user term ∧ .str term ∈ vs
  validFrom : ∀ d : Date, field payload "valid_from" = .str d.isoformat → ¬ today.Before d
  validUntil : ∀ d : Date, field payload "valid_until" = .str d.isoformat → ¬ d.Before today
  live : ¬ IsTrue (field payload "archived")

def IsoOrNull (v : Value) : Prop := v = .null ∨ ∃ d : Date, v = .str d.isoformat

structure WellTyped (payload : Payload) : Prop where
  acl : ∃ vs, field payload "acl" = .list vs
  validFrom : IsoOrNull (field payload "valid_from")
  validUntil : IsoOrNull (field payload "valid_until")

theorem mem_allowedLevels {clearance level : String} :
    level ∈ allowedLevels clearance ↔ LevelWithin clearance level := by
  simp only [allowedLevels, List.mem_map, List.mem_filter, decide_eq_true_eq, Prod.exists,
    exists_and_right, exists_eq_right, LevelWithin]

theorem mem_userAclTerms {user : User} {term : String} :
    term ∈ userAclTerms user ↔ Identifies user term := by
  have hdept : term ∈ departmentTerms user.department ↔
      ∃ d, user.department = some d ∧ d ≠ "" ∧ term = "dept:" ++ d := by
    rw [departmentTerms]
    cases user.department with
    | none => simp only [Option.getD_none, if_true, List.not_mem_nil, reduceCtorEq, false_and,
        exists_false]
    | some d =>
      by_cases h : d = ""
      · simp only [h, Option.getD_some, if_true, List.not_mem_nil, Option.some.injEq, false_iff]
        rintro ⟨d, rfl, hne, -⟩
        exact hne rfl
      · simp only [h, Option.getD_some, if_false, List.mem_singleton, Option.some.injEq,
          exists_eq_left', ne_eq, not_false_eq_true, true_and]
  simp only [userAclTerms, List.mem_eraseDups, List.cons_append, List.mem_cons, List.mem_append,
    hdept, List.mem_map, Identifies]
  simp only [eq_comm]

theorem matchesAny_str_iff {v : Value} {ss : List String} :
    matchesAny v (ss.map Value.str) = true ↔
      ∃ s ∈ ss, v = .str s ∨ ∃ vs, v = .list vs ∧ .str s ∈ vs := by
  cases v with
  | list vs =>
    simp only [matchesAny, List.any_eq_true, Value.mem_map_str_iff, reduceCtorEq, false_or,
      Value.list.injEq, exists_eq_left']
    constructor
    · rintro ⟨a, ha, s, hs, rfl⟩
      exact ⟨s, hs, ha⟩
    · rintro ⟨s, hs, hmem⟩
      exact ⟨.str s, hmem, s, hs, rfl⟩
  | null | bool _ | int _ | float _ | str _ | dict _ =>
    simp only [matchesAny, Value.mem_map_str_iff, reduceCtorEq, false_and, exists_false, or_false]

section Evaluate

variable (payload : Payload)

theorem matchValue_decides (key : String) (value : Value) :
    Decides (conditionMatch payload (.matchValue key value))
      ((field payload key).eq value = true) := by
  rw [conditionMatch]
  exact .of_eq Iff.rfl

theorem matchAny_decides (key : String) (ss : List String) :
    Decides (conditionMatch payload (.matchAny key (ss.map Value.str)))
      (∃ s ∈ ss, field payload key = .str s ∨
        ∃ vs, field payload key = .list vs ∧ .str s ∈ vs) := by
  rw [conditionMatch]
  exact .of_eq matchesAny_str_iff

theorem compare_isoformat (sign : String) (d today : Date) :
    (Value.str d.isoformat).compare sign (.str today.isoformat) =
      .ok (compareOfLessAndEq d.isoformat today.isoformat) := by
  rw [Value.compare]

theorem compare_eq_gt_iff (d today : Date) :
    compareOfLessAndEq d.isoformat today.isoformat = .gt ↔ today.Before d := by
  rw [← Date.isoformat_lt_iff, compareOfLessAndEq]
  split
  · rename_i h
    exact ⟨nofun, fun h' => absurd (lt_trans h h') (lt_irrefl _)⟩
  · split
    · rename_i h
      exact ⟨nofun, fun h' => absurd (h ▸ h') (lt_irrefl _)⟩
    · rename_i hlt hne
      exact ⟨fun _ => lt_of_le_of_ne (not_lt.mp hlt) (Ne.symm hne), fun _ => rfl⟩

theorem compare_eq_lt_iff (d today : Date) :
    compareOfLessAndEq d.isoformat today.isoformat = .lt ↔ d.Before today := by
  rw [← Date.isoformat_lt_iff, compareOfLessAndEq]
  split
  · rename_i h
    exact ⟨fun _ => h, fun _ => rfl⟩
  · rename_i h
    split <;> exact ⟨nofun, fun h' => absurd h' h⟩

theorem withinBound_none_decides (sign : String) (excluded : Ordering → Bool) (actual : Value) :
    Decides (withinBound sign excluded actual none) True :=
  .always

theorem inRange_lte_decides (d today : Date) :
    Decides (inRange (.str d.isoformat) { lte := some (.str today.isoformat) })
      (¬ today.Before d) := by
  have hbound : Decides (withinBound ">" (· == .gt) (.str d.isoformat)
      (some (.str today.isoformat))) (¬ today.Before d) := by
    rw [withinBound, compare_isoformat]
    refine .of_eq ?_
    rw [Bool.not_eq_true', beq_eq_false_iff_ne, ne_eq, compare_eq_gt_iff]
  have hfree := fun sign excluded => withinBound_none_decides sign excluded (.str d.isoformat)
  exact (hbound.and fun _ => (hfree "<" _).and fun _ => (hfree ">=" _).and fun _ =>
    hfree "<=" _).congr (by simp only [and_true])

theorem inRange_gte_decides (d today : Date) :
    Decides (inRange (.str d.isoformat) { gte := some (.str today.isoformat) })
      (¬ d.Before today) := by
  have hbound : Decides (withinBound "<" (· == .lt) (.str d.isoformat)
      (some (.str today.isoformat))) (¬ d.Before today) := by
    rw [withinBound, compare_isoformat]
    refine .of_eq ?_
    rw [Bool.not_eq_true', beq_eq_false_iff_ne, ne_eq, compare_eq_lt_iff]
  have hfree := fun sign excluded => withinBound_none_decides sign excluded (.str d.isoformat)
  exact ((hfree ">" _).and fun _ => hbound.and fun _ => (hfree ">=" _).and fun _ =>
    hfree "<=" _).congr (by simp only [and_true, true_and])

theorem nullOr_decides {key : String} (hkey : key ≠ "") {bounds : Range} {P : Date → Prop}
    (hiso : IsoOrNull (field payload key))
    (hrange : ∀ d, Decides (inRange (.str d.isoformat) bounds) (P d)) :
    Decides (conditionMatch payload (nullOr key bounds))
      (∀ d : Date, field payload key = .str d.isoformat → P d) := by
  have hnull : Decides (conditionMatch payload (.isNull key)) (isNone (field payload key) = true) := by
    rw [conditionMatch]
    exact .of_eq (by simp only [hkey, decide_false, Bool.false_or])
  have htest : Decides (conditionMatch payload (nullOr key bounds))
      (isNone (field payload key) = true ∨
        ∀ d : Date, field payload key = .str d.isoformat → P d) := by
    rw [nullOr, conditionMatch, anyMatch, anyMatch, anyMatch]
    refine hnull.or fun hnotNull => ?_
    obtain hfield | ⟨d, hfield⟩ := hiso
    · exact absurd (by rw [hfield]; rfl) hnotNull
    · rw [conditionMatch, hfield]
      refine ((hrange d).or fun _ => Decides.never).congr ?_
      rw [or_false]
      constructor
      · intro h d' hd'
        rw [← (hrange d').eq_ok_true_iff, ← hd', (hrange d).eq_ok_true_iff]
        exact h
      · intro h
        exact h d rfl
  refine htest.congr ⟨?_, .inr⟩
  rintro (h | h)
  · intro d hd
    rw [hd] at h
    cases h
  · exact h

/-- The evaluator never raises on a well-typed payload and agrees with `Visible`. -/
theorem payloadMatch_decides (user : User) (today : Date) (h : WellTyped payload) :
    Decides (payloadMatch payload (some (buildQdrantAclFilter user (some today) true)))
      (Visible user today payload) := by
  have hmust := (matchValue_decides payload "approval_status" (.str "approved")).and fun _ =>
    (matchAny_decides payload "security_level" (allowedLevels user.clearance)).and fun _ =>
      (matchAny_decides payload "acl" (userAclTerms user)).and fun _ =>
        (nullOr_decides payload (by decide) h.validFrom
          fun d => inRange_lte_decides d today).and fun _ =>
          (nullOr_decides payload (by decide) h.validUntil
            fun d => inRange_gte_decides d today).and fun _ => Decides.always
  have hmustNot := ((matchValue_decides payload "archived" (.bool true)).or fun _ =>
    Decides.never).not
  have hfilter : payloadMatch payload (some (buildQdrantAclFilter user (some today) true)) =
      lazyAnd (allMatch payload (buildQdrantAclFilter user (some today) true).must)
        (do return !(← anyMatch payload [.matchValue "archived" (.bool true)])) := rfl
  rw [hfilter]
  simp only [buildQdrantAclFilter, List.cons_append, List.nil_append, allMatch, anyMatch]
  refine (hmust.and fun _ => hmustNot).congr ?_
  simp only [Value.eq_str_iff, mem_allowedLevels, mem_userAclTerms, Value.eq_true_iff, and_true,
    or_false]
  obtain ⟨vs, hacl⟩ := h.acl
  constructor
  · rintro ⟨⟨happroved, hlevel, ⟨term, hterm, hmem⟩, hfrom, huntil⟩, hlive⟩
    refine ⟨happroved, hlevel, ?_, hfrom, huntil, hlive⟩
    obtain hstr | ⟨vs', hvs', hmem⟩ := hmem
    · rw [hacl] at hstr
      cases hstr
    · exact ⟨vs', hvs', term, hterm, hmem⟩
  · rintro ⟨happroved, hlevel, ⟨vs', hvs', term, hterm, hmem⟩, hfrom, huntil, hlive⟩
    exact ⟨⟨happroved, hlevel, ⟨term, hterm, .inr ⟨vs', hvs', hmem⟩⟩, hfrom, huntil⟩, hlive⟩

end Evaluate

section Consequences

variable {user : User} {today : Date} {payload payload' : Payload}

def aclKeys : List String :=
  ["approval_status", "security_level", "acl", "valid_from", "valid_until", "archived"]

theorem Visible.clearance_mono (h : Visible user today payload) {clearance : String}
    (hrank : clearanceRank user.clearance ≤ clearanceRank clearance) :
    Visible { user with clearance := clearance } today payload := by
  obtain ⟨level, ⟨rank, hmem, hle⟩, hfield⟩ := h.level
  exact { h with level := ⟨level, ⟨rank, hmem, hle.trans hrank⟩, hfield⟩ }

theorem Visible.groups_mono (h : Visible user today payload) {groups : List String}
    (hgroups : user.domainGroups ⊆ groups) :
    Visible { user with domainGroups := groups } today payload := by
  obtain ⟨vs, hvs, term, hterm, hmem⟩ := h.acl
  refine { h with acl := ⟨vs, hvs, term, ?_, hmem⟩ }
  obtain huser | hdept | ⟨g, hg, hterm⟩ := hterm
  · exact .inl huser
  · exact .inr (.inl hdept)
  · exact .inr (.inr ⟨g, hgroups hg, hterm⟩)

theorem Visible.of_same_fields (h : Visible user today payload)
    (hsame : ∀ key ∈ aclKeys, field payload' key = field payload key) :
    Visible user today payload' where
  approved := (hsame _ (by decide)).trans h.approved
  level := (hsame "security_level" (by decide)).symm ▸ h.level
  acl := (hsame "acl" (by decide)).symm ▸ h.acl
  validFrom := (hsame "valid_from" (by decide)).symm ▸ h.validFrom
  validUntil := (hsame "valid_until" (by decide)).symm ▸ h.validUntil
  live := (hsame "archived" (by decide)).symm ▸ h.live

theorem WellTyped.of_same_fields (h : WellTyped payload)
    (hsame : ∀ key ∈ aclKeys, field payload' key = field payload key) : WellTyped payload' where
  acl := (hsame "acl" (by decide)).symm ▸ h.acl
  validFrom := (hsame "valid_from" (by decide)).symm ▸ h.validFrom
  validUntil := (hsame "valid_until" (by decide)).symm ▸ h.validUntil

/-- The filter of a user admits exactly the visible payloads; more clearance and more groups
never hide one, and no other field matters. -/
theorem filter_admits_exactly_visible (user : User) (today : Date) (payload : Payload)
    (h : WellTyped payload) :
    (payloadMatch payload (some (buildQdrantAclFilter user (some today) true)) = .ok true ↔
      Visible user today payload) ∧
    (∀ clearance, clearanceRank user.clearance ≤ clearanceRank clearance →
      payloadMatch payload (some (buildQdrantAclFilter user (some today) true)) = .ok true →
      payloadMatch payload (some (buildQdrantAclFilter { user with clearance := clearance }
        (some today) true)) = .ok true) ∧
    (∀ groups, user.domainGroups ⊆ groups →
      payloadMatch payload (some (buildQdrantAclFilter user (some today) true)) = .ok true →
      payloadMatch payload (some (buildQdrantAclFilter { user with domainGroups := groups }
        (some today) true)) = .ok true) ∧
    ∀ payload' : Payload, (∀ key ∈ aclKeys, field payload' key = field payload key) →
      payloadMatch payload' (some (buildQdrantAclFilter user (some today) true)) =
        payloadMatch payload (some (buildQdrantAclFilter user (some today) true)) := by
  have hiff : ∀ u : User, payloadMatch payload (some (buildQdrantAclFilter u (some today) true)) =
      .ok true ↔ Visible u today payload := fun u =>
    (payloadMatch_decides payload u today h).eq_ok_true_iff
  refine ⟨hiff user, fun clearance hrank hmatch => ?_, fun groups hgroups hmatch => ?_,
    fun payload' hsame => ?_⟩
  · exact (hiff _).mpr (((hiff user).mp hmatch).clearance_mono hrank)
  · exact (hiff _).mpr (((hiff user).mp hmatch).groups_mono hgroups)
  · obtain ⟨b, hb, hvisible⟩ := payloadMatch_decides payload user today h
    obtain ⟨b', hb', hvisible'⟩ :=
      payloadMatch_decides payload' user today (h.of_same_fields hsame)
    have hback : ∀ key ∈ aclKeys, field payload key = field payload' key :=
      fun key hkey => (hsame key hkey).symm
    rw [hb, hb', Except.ok.injEq, Bool.eq_iff_iff, hvisible, hvisible']
    exact ⟨fun hv => hv.of_same_fields hback, fun hv => hv.of_same_fields hsame⟩

end Consequences

section Example

def rulesPayload (level : Value) : Payload :=
  .ofList [("approval_status", .str "approved"), ("security_level", level),
    ("acl", .list [.str "group:hr"]), ("valid_from", .str "2024-01-01")]

def newYear : Date := ⟨2024, 1, 1, by decide, by decide, by decide⟩

def hrUser : User := ⟨"kim", "internal", none, ["hr"]⟩

theorem rulesPayload_wellTyped (level : Value) : WellTyped (rulesPayload level) where
  acl := ⟨[.str "group:hr"], rfl⟩
  validFrom := .inr ⟨newYear, by
    change Value.str "2024-01-01" = .str newYear.isoformat
    congr 1⟩
  validUntil := .inl rfl

theorem filter_admits_rulesPayload :
    Visible hrUser newYear (rulesPayload (.str "internal")) :=
  (filter_admits_exactly_visible hrUser newYear (rulesPayload (.str "internal"))
    (rulesPayload_wellTyped _)).1.mp (by decide +kernel)

/-- A list in the place of the security level is searched for an allowed one. -/
theorem filter_admits_listed_level :
    payloadMatch (rulesPayload (.list [.str "public"]))
      (some (buildQdrantAclFilter hrUser (some newYear) true)) = .ok true ∧
    ¬ ∃ level, LevelWithin hrUser.clearance level ∧
      field (rulesPayload (.list [.str "public"])) "security_level" = .str level := by
  refine ⟨by decide +kernel, ?_⟩
  rintro ⟨level, -, h⟩
  cases h

end Example

end DomainRag.Acl
