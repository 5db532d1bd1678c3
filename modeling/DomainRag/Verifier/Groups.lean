import DomainRag.Verifier.Conflict

/-! # Conflict groups

The groups of a reported conflict partition the cited chunks that state a value by the values that
they state. Amounts and articles are grouped over distinct chunks, dates over the citations as they
stand, so that a chunk which is cited twice stands in its group twice.
-/

namespace DomainRag.Verifier

variable {S : Type}

/-- The groups divide the cited chunks that state some value by the values that they state. -/
structure WellGrouped (values : Int → Finset String) (cidxs : List Int) (groups : List (List Int)) :
    Prop where
  two : 2 ≤ groups.length
  nonempty : ∀ g ∈ groups, g ≠ []
  nodup : ∀ g ∈ groups, g.Nodup
  disjoint : groups.Pairwise List.Disjoint
  cited : ∀ g ∈ groups, ∀ c ∈ g, c ∈ cidxs
  together : ∀ c ∈ cidxs, ∀ c' ∈ cidxs,
    (∃ g ∈ groups, c ∈ g ∧ c' ∈ g) ↔ values c = values c' ∧ values c ≠ ∅
  once : ∀ c ∈ cidxs, values c ≠ ∅ → ∃! g, g ∈ groups ∧ c ∈ g

section Grouping

variable {values : Int → Finset String} {cidxs chunks : List Int}

/-- The chunks that state exactly the given values, in ascending order. -/
def stating (values : Int → Finset String) (chunks : List Int) (vals : Finset String) : List Int :=
  (chunks.filter fun c => values c = vals).insertionSort (· ≤ ·)

theorem mem_stating {vals : Finset String} {c : Int} :
    c ∈ stating values chunks vals ↔ c ∈ chunks ∧ values c = vals := by
  rw [stating, List.mem_insertionSort, List.mem_filter, decide_eq_true_eq]

/-- One step of the grouping loop. -/
def groupChunk (values : Int → Finset String) (groups : Dict (Finset String) (List Int)) (c : Int) :
    Dict (Finset String) (List Int) :=
  if values c = ∅ then groups
  else groups.set (values c) ((groups.get? (values c)).getD [] ++ [c])

theorem get?_groupChunk (groups : Dict (Finset String) (List Int)) (c : Int)
    (vals : Finset String) : (groupChunk values groups c).get? vals =
      if values c = vals ∧ vals ≠ ∅ then some ((groups.get? vals).getD [] ++ [c])
      else groups.get? vals := by
  rw [groupChunk]
  split
  · rename_i hempty
    refine (if_neg ?_).symm
    rintro ⟨heq, hne⟩
    exact hne (heq.symm.trans hempty)
  · rename_i hne
    rw [Dict.get?_set]
    by_cases heq : values c = vals
    · rw [if_pos heq.symm, if_pos ⟨heq, heq ▸ hne⟩, heq]
    · rw [if_neg fun h => heq h.symm, if_neg fun h => heq h.1]

theorem get?_groups (chunks : List Int) (vals : Finset String) :
    (chunks.foldl (groupChunk values) .empty).get? vals =
      if vals ≠ ∅ ∧ ∃ c ∈ chunks, values c = vals then
        some (chunks.filter fun c => values c = vals)
      else none := by
  induction chunks using List.reverseRecOn with
  | nil => exact (if_neg fun h => nomatch h.2).symm
  | append_singleton chunks c ih =>
    have hlast : (∃ c' ∈ chunks ++ [c], values c' = vals) ↔
        (∃ c' ∈ chunks, values c' = vals) ∨ values c = vals := by
      simp only [List.mem_append, List.mem_singleton, or_and_right, exists_or, exists_eq_left]
    rw [List.foldl_concat, get?_groupChunk, ih, List.filter_append, List.filter_singleton]
    simp only [hlast]
    by_cases hvals : vals = ∅
    · simp only [hvals, ne_eq, not_true_eq_false, and_false, false_and, if_false]
    · by_cases heq : values c = vals
      · by_cases hbefore : ∃ c' ∈ chunks, values c' = vals
        · simp only [hvals, heq, hbefore, ne_eq, not_false_eq_true, and_self, or_self, if_true,
            Option.getD_some, decide_true, cond_true]
        · have hnone : chunks.filter (fun c => values c = vals) = [] :=
            List.filter_eq_nil_iff.mpr fun c' hc' h => hbefore ⟨c', hc', of_decide_eq_true h⟩
          simp only [hvals, heq, hbefore, hnone, ne_eq, not_false_eq_true, and_self, and_false,
            or_true, if_true, if_false, Option.getD_none, decide_true, cond_true]
      · simp only [hvals, heq, ne_eq, not_false_eq_true, true_and, false_and, or_false, if_false,
          decide_false, cond_false, List.append_nil]

/-- The groups stand under the different sets of values that some chunk states. -/
theorem exists_groups (values : Int → Finset String) (chunks : List Int) :
    ∃ sets : List (Finset String), sets.Nodup ∧
      (∀ vals, vals ∈ sets ↔ vals ≠ ∅ ∧ ∃ c ∈ chunks, values c = vals) ∧
      groupChunksByValue chunks values = sets.map (stating values chunks) := by
  have hget := @get?_groups values chunks
  have hgroups : groupChunksByValue chunks values =
      (chunks.foldl (groupChunk values) .empty).values.map
        fun g => g.insertionSort (· ≤ ·) := rfl
  rw [hgroups]
  generalize chunks.foldl (groupChunk values) .empty = groups at hget
  refine ⟨groups.keys, groups.nodup, fun vals => ?_, ?_⟩
  · rw [← Dict.get?_isSome_iff, hget]
    split
    · rename_i h
      exact iff_of_true rfl h
    · rename_i h
      exact iff_of_false nofun h
  · rw [Dict.values, Dict.keys, List.map_map, List.map_map]
    refine List.map_congr_left fun e he => ?_
    have hentry : groups.get? e.1 = some e.2 := Dict.get?_eq_some_iff.mpr he
    rw [hget] at hentry
    split at hentry
    · exact congrArg _ (Option.some.inj hentry).symm
    · cases hentry

theorem count_stating {vals : Finset String} {c : Int} (h : values c = vals) :
    (stating values chunks vals).count c = chunks.count c := by
  rw [stating, (List.perm_insertionSort _ _).count_eq]
  exact List.count_filter (decide_eq_true h)

/-- Chunks are well grouped exactly if none that states a value is listed twice. -/
theorem wellGrouped_iff (hsame : ∀ c, values c ≠ ∅ → (c ∈ chunks ↔ c ∈ cidxs))
    (htwo : 2 ≤ (groupChunksByValue chunks values).length) :
    WellGrouped values cidxs (groupChunksByValue chunks values) ↔
      ∀ c, values c ≠ ∅ → chunks.count c ≤ 1 := by
  obtain ⟨sets, hnodup, hsets, hgroups⟩ := exists_groups values chunks
  rw [hgroups] at htwo ⊢
  have hgroup : ∀ c ∈ chunks, values c ≠ ∅ →
      stating values chunks (values c) ∈ sets.map (stating values chunks) := fun c hc hne =>
    List.mem_map_of_mem ((hsets _).mpr ⟨hne, c, hc, rfl⟩)
  constructor
  · intro h c hne
    by_cases hc : c ∈ chunks
    · have hcount : (stating values chunks (values c)).count c = chunks.count c := count_stating rfl
      rw [← hcount]
      exact List.nodup_iff_count_le_one.mp (h.nodup _ (hgroup c hc hne)) c
    · rw [List.count_eq_zero_of_not_mem hc]
      exact Nat.zero_le 1
  · intro hcount
    refine ⟨htwo, ?_, ?_, ?_, ?_, ?_, ?_⟩
    · rintro _ hg
      obtain ⟨vals, hvals, rfl⟩ := List.mem_map.mp hg
      obtain ⟨-, c, hc, heq⟩ := (hsets vals).mp hvals
      exact List.ne_nil_of_mem (mem_stating.mpr ⟨hc, heq⟩)
    · rintro _ hg
      obtain ⟨vals, hvals, rfl⟩ := List.mem_map.mp hg
      refine List.nodup_iff_count_le_one.mpr fun c => ?_
      by_cases hc : values c = vals
      · rw [count_stating hc]
        exact hcount c (hc ▸ ((hsets vals).mp hvals).1)
      · rw [List.count_eq_zero_of_not_mem fun hmem => hc (mem_stating.mp hmem).2]
        exact Nat.zero_le 1
    · rw [List.pairwise_map]
      refine hnodup.imp fun hne c hc hc' => hne ?_
      exact (mem_stating.mp hc).2.symm.trans (mem_stating.mp hc').2
    · rintro _ hg c hc
      obtain ⟨vals, hvals, rfl⟩ := List.mem_map.mp hg
      obtain ⟨hmem, heq⟩ := mem_stating.mp hc
      exact (hsame c (heq ▸ ((hsets vals).mp hvals).1)).mp hmem
    · intro c hc c' hc'
      constructor
      · rintro ⟨_, hg, hmem, hmem'⟩
        obtain ⟨vals, hvals, rfl⟩ := List.mem_map.mp hg
        have heq := (mem_stating.mp hmem).2
        exact ⟨heq.trans (mem_stating.mp hmem').2.symm, heq ▸ ((hsets vals).mp hvals).1⟩
      · rintro ⟨heq, hne⟩
        have hmem := (hsame c hne).mpr hc
        have hmem' := (hsame c' (heq ▸ hne)).mpr hc'
        exact ⟨_, hgroup c hmem hne, mem_stating.mpr ⟨hmem, rfl⟩, mem_stating.mpr ⟨hmem', heq.symm⟩⟩
    · intro c hc hne
      have hmem := (hsame c hne).mpr hc
      refine ⟨_, ⟨hgroup c hmem hne, mem_stating.mpr ⟨hmem, rfl⟩⟩, ?_⟩
      rintro _ ⟨hg, hcg⟩
      obtain ⟨vals, -, rfl⟩ := List.mem_map.mp hg
      rw [(mem_stating.mp hcg).2]

/-- There are two groups exactly if two cited chunks state different values. -/
theorem two_le_length_groups : 2 ≤ (groupChunksByValue chunks values).length ↔
    ∃ c ∈ chunks, ∃ c' ∈ chunks, values c ≠ ∅ ∧ values c' ≠ ∅ ∧ values c ≠ values c' := by
  obtain ⟨sets, hnodup, hsets, hgroups⟩ := exists_groups values chunks
  rw [hgroups, List.length_map]
  constructor
  · intro htwo
    match sets, htwo with
    | vals :: vals' :: sets, _ =>
      obtain ⟨hne, c, hc, rfl⟩ := (hsets vals).mp List.mem_cons_self
      obtain ⟨hne', c', hc', rfl⟩ :=
        (hsets vals').mp (List.mem_cons_of_mem _ List.mem_cons_self)
      have hdiffer := (List.nodup_cons.mp hnodup).1
      exact ⟨c, hc, c', hc', hne, hne', fun heq => hdiffer (heq ▸ List.mem_cons_self)⟩
  · rintro ⟨c, hc, c', hc', hne, hne', hdiffer⟩
    have hpair : [values c, values c'] ⊆ sets := by
      intro vals hvals
      obtain rfl | hvals := List.mem_cons.mp hvals
      · exact (hsets _).mpr ⟨hne, c, hc, rfl⟩
      · rw [List.mem_singleton.mp hvals]
        exact (hsets _).mpr ⟨hne', c', hc', rfl⟩
    have hpairNodup : [values c, values c'].Nodup :=
      List.nodup_cons.mpr ⟨fun h => hdiffer (List.mem_singleton.mp h), List.nodup_singleton _⟩
    exact (List.subperm_of_subset hpairNodup hpair).length_le

theorem mem_uniqueValues {v : String} :
    v ∈ uniqueValues values chunks ↔ ∃ c ∈ chunks, v ∈ values c := by
  induction chunks with
  | nil => simp [uniqueValues]
  | cons c chunks ih =>
    change v ∈ values c ∪ uniqueValues values chunks ↔ _
    rw [Finset.mem_union, ih, List.exists_mem_cons_iff]

/-- Chunks that state different values state two values between them. -/
theorem two_le_card_uniqueValues (h : 2 ≤ (groupChunksByValue chunks values).length) :
    2 ≤ (uniqueValues values chunks).card := by
  obtain ⟨c, hc, c', hc', hne, hne', hdiffer⟩ := two_le_length_groups.mp h
  by_contra hlt
  have hone : (uniqueValues values chunks).card ≤ 1 := by omega
  have hsub : ∀ k ∈ chunks, values k ⊆ uniqueValues values chunks :=
    fun k hk v hv => mem_uniqueValues.mpr ⟨k, hk, hv⟩
  have hwhole : ∀ k ∈ chunks, values k ≠ ∅ → values k = uniqueValues values chunks := by
    intro k hk hkne
    refine Finset.eq_of_subset_of_card_le (hsub k hk) (hone.trans ?_)
    exact Finset.card_pos.mpr (Finset.nonempty_iff_ne_empty.mpr hkne)
  exact hdiffer ((hwhole c hc hne).trans (hwhole c' hc' hne').symm)

theorem mem_contributing {c : Int} :
    c ∈ contributing values cidxs ↔ c ∈ cidxs ∧ values c ≠ ∅ := by
  rw [contributing, List.mem_filter, List.mem_eraseDups, decide_eq_true_eq]

theorem nodup_eraseDups (cs : List Int) : cs.eraseDups.Nodup := by
  induction hlength : cs.length using Nat.strong_induction_on generalizing cs with
  | h n ih =>
    cases cs with
    | nil => exact List.nodup_nil
    | cons c cs =>
      rw [List.eraseDups_cons, List.nodup_cons]
      refine ⟨fun hmem => ?_, ih _ ?_ _ rfl⟩
      · have hne := (List.mem_filter.mp (List.mem_eraseDups.mp hmem)).2
        rw [beq_self_eq_true] at hne
        cases hne
      · exact hlength ▸ Nat.lt_succ_of_le (List.length_filter_le _ cs)

theorem nodup_contributing : (contributing values cidxs).Nodup := (nodup_eraseDups cidxs).filter _

/-- Amounts and articles are grouped over distinct chunks. -/
theorem wellGrouped_detectAmong {signal : Signal} {unit : Option String}
    {detection : ConflictDetection} (h : detectAmong signal unit values cidxs = some detection) :
    detection.signal = signal ∧ detection.details.unit = unit ∧
      WellGrouped values cidxs detection.conflictGroups := by
  simp only [detectAmong] at h
  split at h
  · rename_i hmany
    cases h
    refine ⟨rfl, rfl, (wellGrouped_iff (fun c hne => ?_) hmany.2.2).mpr fun c _ => ?_⟩
    · rw [mem_contributing, and_iff_left hne]
    · exact List.nodup_iff_count_le_one.mp nodup_contributing c
  · cases h

/-- Dates are grouped over the citations as they stand. -/
theorem detectDateDiff_eq_some {detection : ConflictDetection}
    (h : detectDateDiff values cidxs = some detection) :
    detection.signal = .dateDiff ∧ detection.conflictGroups = groupChunksByValue cidxs values ∧
      2 ≤ (groupChunksByValue cidxs values).length := by
  simp only [detectDateDiff] at h
  split at h
  · rename_i hmany
    cases h
    exact ⟨rfl, rfl, hmany.2⟩
  · cases h

theorem exists_detectDateDiff (h : 2 ≤ (groupChunksByValue cidxs values).length) :
    ∃ detection, detectDateDiff values cidxs = some detection := by
  simp only [detectDateDiff]
  rw [if_pos ⟨two_le_card_uniqueValues h, h⟩]
  exact ⟨_, rfl⟩

end Grouping

section Detection

variable {detector : ConflictDetector} {segment : Segment S} {contexts : List (RetrievedChunk S)}

def contentOf (contexts : List (RetrievedChunk S)) (c : Int) : String :=
  ((contextAt contexts c).map RetrievedChunk.content).getD ""

def Patterns.datesOf (p : Patterns) (contexts : List (RetrievedChunk S)) (c : Int) :
    Finset String :=
  p.extractDates (contentOf contexts c)

/-- The values that a chunk states for the reported signal. -/
def Patterns.reportedValues (p : Patterns) (contexts : List (RetrievedChunk S))
    (detection : ConflictDetection) (c : Int) : Finset String :=
  match detection.signal with
  | .dateDiff => p.datesOf contexts c
  | .numericDiff =>
    ((p.extractNumericByUnit (contentOf contexts c)).get? (detection.details.unit.getD "")).getD ∅
  | .ruleIdDiff => p.extractRuleIds (contentOf contexts c)

def citedChunks (segment : Segment S) (contexts : List (RetrievedChunk S)) : List Int :=
  segment.citations.filter (inRange contexts.length)

/-- Whatever conflict is reported, its groups are well formed. -/
def ReportsWellGrouped (detector : ConflictDetector) (segment : Segment S)
    (contexts : List (RetrievedChunk S)) : Prop :=
  ∀ detection, detector.detectInSegment segment contexts = some detection →
    WellGrouped (detector.patterns.reportedValues contexts detection)
      (citedChunks segment contexts) detection.conflictGroups

/-- Cited chunks state different dates, and one that states a date is cited twice. -/
structure DatedTwice (detector : ConflictDetector) (segment : Segment S)
    (contexts : List (RetrievedChunk S)) : Prop where
  enabled : .dateDiff ∈ detector.enabledPatterns
  unmarked : segment.supportType.isConflict = false
  differ : ∃ c ∈ citedChunks segment contexts, ∃ c' ∈ citedChunks segment contexts,
    detector.patterns.datesOf contexts c ≠ ∅ ∧ detector.patterns.datesOf contexts c' ≠ ∅ ∧
      detector.patterns.datesOf contexts c ≠ detector.patterns.datesOf contexts c'
  twice : ∃ c, detector.patterns.datesOf contexts c ≠ ∅ ∧
    2 ≤ (citedChunks segment contexts).count c

theorem detectNumericDiff_eq_some {units : Int → Dict String (Finset String)} {cidxs : List Int}
    {detection : ConflictDetection} (h : detectNumericDiff units cidxs = some detection) :
    ∃ unit, detectAmong .numericDiff (some unit) (fun c => ((units c).get? unit).getD ∅) cidxs =
      some detection := by
  obtain ⟨unit, -, h⟩ := List.exists_of_findSome?_eq_some h
  exact ⟨unit, h⟩

/-- A detection is one of dates, of amounts of one unit, or of articles. -/
theorem detectInSegment_cases {detection : ConflictDetection}
    (h : detector.detectInSegment segment contexts = some detection) :
    (.dateDiff ∈ detector.enabledPatterns ∧ segment.supportType.isConflict = false ∧
      detectDateDiff (detector.patterns.datesOf contexts) (citedChunks segment contexts) =
        some detection) ∨
      detection.signal ≠ .dateDiff ∧ WellGrouped (detector.patterns.reportedValues contexts detection)
        (citedChunks segment contexts) detection.conflictGroups := by
  simp only [ConflictDetector.detectInSegment] at h
  split at h
  · cases h
  · rename_i hopen
    simp only [Bool.or_eq_true, not_or, Bool.not_eq_true] at hopen
    obtain hdate | ⟨-, h⟩ := Option.or_eq_some_iff.mp h
    · obtain ⟨henabled, hdate⟩ := Option.ite_none_right_eq_some.mp hdate
      exact .inl ⟨henabled, hopen.1.2, hdate⟩
    · right
      obtain hnumber | ⟨-, hrule⟩ := Option.or_eq_some_iff.mp h
      · obtain ⟨-, hnumber⟩ := Option.ite_none_right_eq_some.mp hnumber
        obtain ⟨unit, hunit⟩ := detectNumericDiff_eq_some hnumber
        obtain ⟨hsignal, hunit, hgroups⟩ := wellGrouped_detectAmong hunit
        refine ⟨hsignal ▸ nofun, ?_⟩
        unfold Patterns.reportedValues
        rw [hsignal, hunit]
        exact hgroups
      · obtain ⟨-, hrule⟩ := Option.ite_none_right_eq_some.mp hrule
        obtain ⟨hsignal, -, hgroups⟩ := wellGrouped_detectAmong hrule
        refine ⟨hsignal ▸ nofun, ?_⟩
        unfold Patterns.reportedValues
        rw [hsignal]
        exact hgroups

/-- A conflict of dates is reported before all others. -/
theorem exists_dateDetection (henabled : .dateDiff ∈ detector.enabledPatterns)
    (hunmarked : segment.supportType.isConflict = false)
    (hmany : 2 ≤ (citedChunks segment contexts).length)
    (htwo : 2 ≤ (groupChunksByValue (citedChunks segment contexts)
      (detector.patterns.datesOf contexts)).length) :
    ∃ detection, detector.detectInSegment segment contexts = some detection ∧
      detectDateDiff (detector.patterns.datesOf contexts) (citedChunks segment contexts) =
        some detection := by
  obtain ⟨detection, hdate⟩ := exists_detectDateDiff htwo
  refine ⟨detection, ?_, hdate⟩
  have hopen : (!detector.enabled || segment.supportType.isConflict ||
      (citedChunks segment contexts).length < 2) = false := by
    have hnonempty : detector.enabledPatterns ≠ [] := List.ne_nil_of_mem henabled
    simp only [ConflictDetector.enabled, hunmarked, Bool.or_false, Bool.not_not, Bool.or_eq_false_iff,
      List.isEmpty_eq_false_iff, decide_eq_false_iff_not, not_lt]
    exact ⟨hnonempty, hmany⟩
  simp only [ConflictDetector.detectInSegment]
  change (if (!detector.enabled || segment.supportType.isConflict ||
    (citedChunks segment contexts).length < 2) = true then none else _) = _
  rw [hopen, if_neg Bool.false_ne_true, if_pos henabled]
  change (detectDateDiff (detector.patterns.datesOf contexts) (citedChunks segment contexts)).or _ = _
  rw [hdate, Option.some_or]

/-- The groups of a conflict of dates are well formed unless a chunk with a date is cited twice. -/
theorem wellGrouped_dates_iff {detection : ConflictDetection}
    (h : detectDateDiff (detector.patterns.datesOf contexts) (citedChunks segment contexts) =
      some detection) :
    WellGrouped (detector.patterns.reportedValues contexts detection) (citedChunks segment contexts)
      detection.conflictGroups ↔
        ∀ c, detector.patterns.datesOf contexts c ≠ ∅ →
          (citedChunks segment contexts).count c ≤ 1 := by
  obtain ⟨hsignal, hgroups, htwo⟩ := detectDateDiff_eq_some h
  have hvalues : detector.patterns.reportedValues contexts detection =
      detector.patterns.datesOf contexts := by
    funext c
    rw [Patterns.reportedValues, hsignal]
  rw [hvalues, hgroups]
  exact wellGrouped_iff (fun c _ => Iff.rfl) htwo

/-- Conflict groups are well formed exactly if no chunk with a date is cited twice where cited
chunks state different dates. -/
theorem reportsWellGrouped_iff :
    ReportsWellGrouped detector segment contexts ↔ ¬ DatedTwice detector segment contexts := by
  constructor
  · rintro h ⟨henabled, hunmarked, hdiffer, c, hne, htwice⟩
    obtain ⟨detection, hdetected, hdate⟩ := exists_dateDetection henabled hunmarked
      (htwice.trans List.count_le_length) (two_le_length_groups.mpr hdiffer)
    have hcount := (wellGrouped_dates_iff hdate).mp (h detection hdetected) c hne
    omega
  · intro h detection hdetected
    obtain ⟨henabled, hunmarked, hdate⟩ | ⟨-, hgrouped⟩ := detectInSegment_cases hdetected
    · refine (wellGrouped_dates_iff hdate).mpr fun c hne => ?_
      by_contra hcount
      refine h ⟨henabled, hunmarked, ?_, c, hne, by omega⟩
      exact two_le_length_groups.mp (detectDateDiff_eq_some hdate).2.2
    · exact hgrouped

end Detection

section Example

def effectivePatterns : Patterns where
  dates text :=
    if text = "시행 2024-01-01" then [(2024, 1, 1)]
    else if text = "시행 2024-03-01" then [(2024, 3, 1)] else []
  numericUnits _ := []
  articleClauses _ := []
  articles _ := []

def effectiveChunk (content : String) : RetrievedChunk Int where
  chunkId := content
  docId := "rules"
  title := "취업규칙"
  content := content
  pageNumber := .null
  sectionTitle := .null
  denseScore := 0
  sparseScore := 0
  fusedScore := 0
  payload := .empty

/-- The first of two chunks is cited twice. -/
def repeatedCitation : Segment Int where
  index := 0
  text := "시행일이 문서마다 다릅니다."
  citations := [1, 1, 2]
  supportType := .direct
  inferenceChain := .null
  conflictGroups := .null

/-- The group of the first chunk holds it twice. -/
theorem repeated_citation_twice_in_group :
    ¬ ReportsWellGrouped ⟨effectivePatterns, [.dateDiff]⟩ repeatedCitation
      [effectiveChunk "시행 2024-01-01", effectiveChunk "시행 2024-03-01"] := by
  intro h
  have hgroups : (ConflictDetector.detectInSegment ⟨effectivePatterns, [.dateDiff]⟩ repeatedCitation
      [effectiveChunk "시행 2024-01-01", effectiveChunk "시행 2024-03-01"]).map
        ConflictDetection.conflictGroups = some [[1, 1], [2]] := by
    decide +kernel
  obtain ⟨detection, hdetected, hgroups⟩ := Option.map_eq_some_iff.mp hgroups
  have hnodup := (h detection hdetected).nodup [1, 1] (hgroups ▸ List.mem_cons_self)
  exact absurd hnodup (by decide)

end Example

end DomainRag.Verifier
