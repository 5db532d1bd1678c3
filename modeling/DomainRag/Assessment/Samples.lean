import DomainRag.Assessment.Extract

/-! # What an extraction takes

The service lists at most a thousand candidates before it splits them by difficulty. What it takes
is right if these hold enough items of each difficulty, or all that there are.
-/

namespace DomainRag.Assessment.Extract

open Sampling

section Touching

variable {repo : InMemoryAssessmentItemRepository} {now : Rat} {domainId : String}

@[simp] theorem touch_itemId (r : AssessmentItemRecord) :
    (r.touch now).itemId = r.itemId := rfl

@[simp] theorem difficultyKey_touch (r : AssessmentItemRecord) :
    difficultyKey (r.touch now) = difficultyKey r := rfl

theorem get?_touch (itemId : String) (key : String × String) :
    (repo.touch now domainId itemId).records.get? key =
      (repo.records.get? key).map fun r =>
        if key = (domainId, itemId) then r.touch now else r :=
  Dict.get?_mapValues _ _ _

/-- The items of the list, and no others, are used once more. -/
theorem get?_touchUsed {itemIds : List String} (h : itemIds.Nodup) (key : String × String) :
    (repo.touchUsed now domainId itemIds).records.get? key =
      (repo.records.get? key).map fun r =>
        if key.1 = domainId ∧ key.2 ∈ itemIds then r.touch now else r := by
  induction itemIds generalizing repo with
  | nil => simp [InMemoryAssessmentItemRepository.touchUsed]
  | cons itemId itemIds ih =>
    rw [List.nodup_cons] at h
    change (InMemoryAssessmentItemRepository.touchUsed (repo.touch now domainId itemId) now domainId
      itemIds).records.get? key = _
    rw [ih h.2, get?_touch, Option.map_map]
    congr 1
    funext r
    obtain ⟨d, i⟩ := key
    by_cases hd : d = domainId
    · by_cases hi : i = itemId
      · simp [hd, hi, h.1]
      · simp [hd, hi]
    · simp [hd]

end Touching

section Candidates

variable {repo : InMemoryAssessmentItemRepository} {now : Rat} {domainId : String}
  {criteria : ExtractCriteria} {rows : List AssessmentItemRecord}

theorem wants_of_hashable {r : AssessmentItemRecord} (h : ∀ tag ∈ r.tags, tag.Hashable) :
    criteria.wants r = .ok (r.tags.any criteria.isWanted) := by
  have htags : r.tags.mapM ExtractCriteria.element = .ok r.tags := by
    rw [mapM_eq_ok_iff, List.forall₂_same]
    intro tag htag
    obtain ⟨key, hkey⟩ := h tag htag
    cases tag with
    | list vs => cases hkey
    | dict kvs => cases hkey
    | _ => rfl
  rw [ExtractCriteria.wants, htags]
  rfl

theorem returns_wants_iff {r : AssessmentItemRecord} :
    Returns (criteria.wants r) ↔ ∀ tag ∈ r.tags, tag.Hashable := by
  constructor
  · rintro ⟨found, h⟩
    obtain ⟨tags, htags, -⟩ := Except.bind_eq_ok_iff.mp h
    intro tag htag
    obtain ⟨element, helement⟩ := returns_mapM_iff.mp ⟨tags, htags⟩ tag htag
    cases tag with
    | list vs => cases helement
    | dict kvs => cases helement
    | _ => exact ⟨_, rfl⟩
  · exact fun h => ⟨_, wants_of_hashable h⟩

namespace InMemoryAssessmentItemRepository

variable (repo) (t : Option Rat)

/-- The items of a domain that match but for their tags. -/
def selected (domainId : String) (criteria : ExtractCriteria) : List AssessmentItemRecord :=
  (repo.records.entries.filter fun e => e.1.1 = domainId ∧ criteria.selects t e.2).map Prod.snd

/-- The items of a domain that satisfy the criteria. -/
def matching (domainId : String) (criteria : ExtractCriteria) : List AssessmentItemRecord :=
  (repo.selected t domainId criteria).filter fun r =>
    criteria.tagsAny.isEmpty || r.tags.any criteria.isWanted

/-- If tags are asked for, no item that matches otherwise has a tag that is a list or a dictionary. -/
def Taggable (domainId : String) (criteria : ExtractCriteria) : Prop :=
  criteria.tagsAny ≠ [] → ∀ r ∈ repo.selected t domainId criteria, ∀ tag ∈ r.tags, tag.Hashable

variable {repo} {t}

theorem candidates_eq_ok_iff : repo.candidates now domainId criteria = .ok rows ↔
    ∃ t, criteria.threshold now = .ok t ∧ repo.Taggable t domainId criteria ∧
      rows = repo.matching t domainId criteria := by
  rw [candidates, Except.bind_eq_ok_iff]
  refine exists_congr fun t => and_congr_right fun _ => ?_
  change (if criteria.tagsAny.isEmpty = true then .ok (repo.selected t domainId criteria)
    else filterOk criteria.wants (repo.selected t domainId criteria)) = .ok rows ↔ _
  rw [Taggable, matching]
  cases hasked : criteria.tagsAny with
  | nil =>
    have hall : (repo.selected t domainId criteria).filter (fun r =>
        ([] : List String).isEmpty || r.tags.any criteria.isWanted) =
          repo.selected t domainId criteria :=
      List.filter_true _
    rw [if_pos List.isEmpty_nil, Except.ok.injEq, hall, eq_comm]
    exact (and_iff_right fun hnil => absurd rfl hnil).symm
  | cons tag tags =>
    simp only [ne_eq, reduceCtorEq, not_false_eq_true, forall_const, List.isEmpty_cons,
      Bool.false_or, Bool.false_eq_true, if_false]
    have hfilter (h : ∀ r ∈ repo.selected t domainId criteria, ∀ tag ∈ r.tags, tag.Hashable) :
        (repo.selected t domainId criteria).filter (passes criteria.wants) =
          (repo.selected t domainId criteria).filter fun r => r.tags.any criteria.isWanted := by
      apply List.filter_congr
      intro r hr
      rw [passes, wants_of_hashable (h r hr)]
    constructor
    · intro h
      have hhashable : ∀ r ∈ repo.selected t domainId criteria, ∀ tag ∈ r.tags, tag.Hashable :=
        fun r hr => returns_wants_iff.mp (returns_filterOk_iff.mp ⟨rows, h⟩ r hr)
      exact ⟨hhashable, (filterOk_eq h).trans (hfilter hhashable)⟩
    · rintro ⟨hhashable, rfl⟩
      have hreturns : Returns (filterOk criteria.wants (repo.selected t domainId criteria)) :=
        returns_filterOk_iff.mpr fun r hr => returns_wants_iff.mpr (hhashable r hr)
      obtain ⟨rows, h⟩ := hreturns
      rw [h, ← hfilter hhashable, filterOk_eq h]

end InMemoryAssessmentItemRepository

theorem candidates_sublist (h : repo.candidates now domainId criteria = .ok rows) :
    ∃ t, rows.Sublist ((repo.records.entries.filter fun e =>
      e.1.1 = domainId ∧ criteria.selects t e.2).map Prod.snd) := by
  obtain ⟨t, -, -, rfl⟩ := InMemoryAssessmentItemRepository.candidates_eq_ok_iff.mp h
  exact ⟨t, List.filter_sublist⟩

theorem mem_candidates (h : repo.candidates now domainId criteria = .ok rows)
    {r : AssessmentItemRecord} (hr : r ∈ rows) : repo.get domainId r.itemId = some r := by
  obtain ⟨t, hsub⟩ := candidates_sublist h
  obtain ⟨e, he, rfl⟩ := List.mem_map.mp (hsub.subset hr)
  rw [List.mem_filter, decide_eq_true_eq] at he
  have hkey := repo.keyed e he.1
  have hdomain : (domainId, e.2.itemId) = e.1 := by rw [hkey, ← he.2.1, hkey]
  rw [InMemoryAssessmentItemRepository.get, hdomain, Dict.get?_eq_some_iff]
  exact he.1

theorem nodup_candidates (h : repo.candidates now domainId criteria = .ok rows) :
    (rows.map fun r => r.itemId).Nodup := by
  obtain ⟨t, hsub⟩ := candidates_sublist h
  refine List.Nodup.sublist (hsub.map _) ?_
  rw [List.map_map, List.nodup_map_iff_inj_on]
  · intro e he e' he' hid
    rw [List.mem_filter, decide_eq_true_eq] at he he'
    apply List.inj_on_of_nodup_map repo.records.nodup he.1 he'.1
    have hkey := repo.keyed e he.1
    have hkey' := repo.keyed e' he'.1
    apply Prod.ext
    · rw [he.2.1, he'.2.1]
    · rw [hkey, hkey']
      exact hid
  · exact (List.Nodup.of_map _ repo.records.nodup).filter _

/-- The rows of the bank as the generators see them. -/
def InMemoryAssessmentItemRepository.itemRows (repo : InMemoryAssessmentItemRepository) : ItemRows :=
  ⟨repo.records.mapValues fun _ r => r.toItemRecord⟩

/-- The criteria of a generator, which asks for no tags and leaves out no recent items. -/
def ofGenerator (criteria : Assessment.ExtractCriteria) : ExtractCriteria where
  subject := criteria.subject
  chapter := criteria.chapter
  qualityStatus := criteria.qualityStatus

/-- The generators list the same candidates as the service. -/
theorem listCandidatesForExtract_itemRows (repo : InMemoryAssessmentItemRepository) (now : Rat)
    (domainId : String) (criteria : Assessment.ExtractCriteria) (limit : Nat) :
    (repo.listCandidatesForExtract now domainId (ofGenerator criteria) limit).map
        (List.map fun r => r.toItemRecord) =
      .ok (repo.itemRows.listCandidatesForExtract domainId criteria limit) := by
  have hrows : repo.candidates now domainId (ofGenerator criteria) =
      .ok (repo.selected none domainId (ofGenerator criteria)) := rfl
  have hselected : (repo.selected none domainId (ofGenerator criteria)).map
      (fun r => r.toItemRecord) =
        (repo.itemRows.records.entries.filter fun e => e.1.1 = domainId ∧
          (criteria.subject.isNone ∨ e.2.subject = criteria.subject) ∧
          (criteria.chapter.isNone ∨ e.2.chapter = criteria.chapter) ∧
          (criteria.qualityStatus = [] ∨ e.2.qualityStatus ∈ criteria.qualityStatus)).map
            Prod.snd := by
    rw [InMemoryAssessmentItemRepository.selected, InMemoryAssessmentItemRepository.itemRows,
      Dict.mapValues, List.filter_map, List.map_map, List.map_map]
    refine congrArg _ (List.filter_congr fun e _ => Bool.eq_iff_iff.mpr ?_)
    simp only [ExtractCriteria.selects, Function.comp_apply, Option.all_none, Bool.and_true,
      Bool.and_eq_true, Bool.or_eq_true, decide_eq_true_eq, List.isEmpty_iff, and_assoc]
    simp only [ofGenerator, Option.isNone_none, true_or, true_and]
  rw [InMemoryAssessmentItemRepository.listCandidatesForExtract, hrows,
    ItemRows.listCandidatesForExtract, ← hselected, ← List.map_take]
  rfl

end Candidates

section Selecting

variable {rng : Sampler AssessmentItemRecord} {candidates : List AssessmentItemRecord}

def available (rows : List AssessmentItemRecord) (d : String) : Int :=
  (group difficultyKey rows d).length

theorem available_append (rows rows' : List AssessmentItemRecord) (d : String) :
    available (rows ++ rows') d = available rows d + available rows' d := by
  rw [available, group_append, List.length_append, Nat.cast_add]
  rfl

theorem selectStep_eq (s : Selection) (e : String × Int) :
    selectStep rng (groups difficultyKey candidates) s e =
      { selected := s.selected ++ draws rng difficultyKey candidates [e] s.calls
        insufficientPool := if available candidates e.1 < e.2 then
          s.insufficientPool.set e.1 (e.2 - available candidates e.1) else s.insufficientPool
        calls := if 0 < share difficultyKey candidates e then s.calls + 1 else s.calls } := by
  have hshare : min ((group difficultyKey candidates e.1).length : Int) e.2 =
    share difficultyKey candidates e := rfl
  simp only [selectStep, getD_groups, available, draws, hshare]
  by_cases hpick : 0 < share difficultyKey candidates e
  · have hnonempty : group difficultyKey candidates e.1 ≠ [] := by
      intro hnil
      rw [← hshare, hnil, List.length_nil] at hpick
      omega
    rw [if_pos ⟨hnonempty, hpick⟩, if_pos hpick, if_pos hpick, List.append_nil]
    rfl
  · rw [if_neg (fun h => hpick h.2), if_neg hpick, if_neg hpick, List.append_nil]
    rfl

theorem draws_cons (e : String × Int) (rest : List (String × Int)) (i : Nat) :
    draws rng difficultyKey candidates (e :: rest) i =
      draws rng difficultyKey candidates [e] i ++ draws rng difficultyKey candidates rest
        (if 0 < share difficultyKey candidates e then i + 1 else i) := by
  by_cases h : 0 < share difficultyKey candidates e <;> simp [draws, h]

theorem selected_foldl (entries : List (String × Int)) (s : Selection) :
    (entries.foldl (selectStep rng (groups difficultyKey candidates)) s).selected =
      s.selected ++ draws rng difficultyKey candidates entries s.calls := by
  induction entries generalizing s with
  | nil => simp [draws]
  | cons e rest ih => rw [List.foldl_cons, ih, selectStep_eq, draws_cons e rest, List.append_assoc]

theorem get?_insufficientPool_of_notMem {entries : List (String × Int)} {d : String}
    (h : d ∉ entries.map Prod.fst) (s : Selection) :
    (entries.foldl (selectStep rng (groups difficultyKey candidates)) s).insufficientPool.get? d =
      s.insufficientPool.get? d := by
  induction entries generalizing s with
  | nil => rfl
  | cons e rest ih =>
    rw [List.map_cons, List.mem_cons, not_or] at h
    rw [List.foldl_cons, ih h.2, selectStep_eq]
    simp only
    split
    · rw [Dict.get?_set, if_neg h.1]
    · rfl

theorem get?_insufficientPool {entries : List (String × Int)} (h : (entries.map Prod.fst).Nodup)
    {e : String × Int} (he : e ∈ entries) (s : Selection) :
    (entries.foldl (selectStep rng (groups difficultyKey candidates)) s).insufficientPool.get? e.1 =
      if available candidates e.1 < e.2 then some (e.2 - available candidates e.1)
      else s.insufficientPool.get? e.1 := by
  induction entries generalizing s with
  | nil => cases he
  | cons e₀ rest ih =>
    rw [List.map_cons, List.nodup_cons] at h
    rw [List.foldl_cons]
    rcases List.mem_cons.mp he with rfl | he
    · rw [get?_insufficientPool_of_notMem h.1, selectStep_eq]
      simp only
      split
      · rw [Dict.get?_set, if_pos rfl]
      · rfl
    · have hne : e.1 ≠ e₀.1 := by
        intro heq
        exact h.1 (heq ▸ List.mem_map_of_mem he)
      rw [ih h.2 he, selectStep_eq]
      simp only
      split
      · rfl
      · split
        · rw [Dict.get?_set, if_neg hne]
        · rfl

end Selecting

section Extracting

variable {rng : Sampler AssessmentItemRecord} {listedAt touchedAt : Rat}
  {repo : InMemoryAssessmentItemRepository} {domainId : String} {criteria : ExtractCriteria}
  {rows : List AssessmentItemRecord}

/-- What the service takes from the candidates of the domain. -/
abbrev selection (rng : Sampler AssessmentItemRecord) (criteria : ExtractCriteria)
    (rows : List AssessmentItemRecord) : Selection :=
  select rng criteria (rows.take 1000)

variable (rng criteria) in
theorem selected_sub (hnodup : (rows.map fun r => r.itemId).Nodup) :
    (selection rng criteria rows).selected ⊆ rows ∧
      ((selection rng criteria rows).selected.map fun r => r.itemId).Nodup := by
  have hsub : rows.take 1000 ⊆ rows := List.take_subset 1000 rows
  have htake : ((rows.take 1000).map fun r => r.itemId).Nodup := by
    rw [List.map_take]
    exact hnodup.take
  have hall : rows.take 1000 ⊆ rows ∧ ((rows.take 1000).map fun r => r.itemId).Nodup :=
    ⟨hsub, htake⟩
  rw [selection, select]
  cases criteria.difficultyDistribution with
  | none => exact hall
  | some dist =>
    simp only
    split
    · exact hall
    · rw [selected_foldl, List.nil_append]
      have hdraws : draws rng difficultyKey (rows.take 1000) dist.entries 0 ⊆ rows.take 1000 :=
        fun r hr => (mem_draws hr).1
      refine ⟨fun r hr => hsub (hdraws hr), ?_⟩
      apply List.Nodup.map_on
      · intro r hr r' hr' hid
        exact List.inj_on_of_nodup_map htake (hdraws hr) (hdraws hr') hid
      · exact nodup_draws htake.of_map dist.nodup 0

/-- The result shows what was selected from the candidates, once more used, and the bank counts
this use. -/
structure Extracted (rng : Sampler AssessmentItemRecord) (touchedAt : Rat) (domainId : String)
    (criteria : ExtractCriteria) (rows : List AssessmentItemRecord)
    (before : InMemoryAssessmentItemRepository) (result : ExtractResult)
    (after : InMemoryAssessmentItemRepository) : Prop where
  items : result.items = (selection rng criteria rows).selected.map (·.touch touchedAt)
  extractedCount : result.extractedCount = result.items.length
  citations : result.citations.map Citation.itemId = result.items.map fun r => r.itemId
  insufficientPool : result.insufficientPool = (selection rng criteria rows).insufficientPool
  used : ∀ key, after.records.get? key = (before.records.get? key).map fun r =>
    if key.1 = domainId ∧ key.2 ∈ result.items.map (fun r => r.itemId) then r.touch touchedAt
    else r

variable (touchedAt repo domainId) in
theorem get?_of_selected {selected : List AssessmentItemRecord}
    (hnodup : (selected.map fun r => r.itemId).Nodup) (key : String × String) :
    (if selected.isEmpty then repo else
      repo.touchUsed touchedAt domainId (selected.map fun r => r.itemId)).records.get? key =
      (repo.records.get? key).map fun r =>
        if key.1 = domainId ∧ key.2 ∈ selected.map (fun r => r.itemId) then r.touch touchedAt
        else r := by
  split
  · next hempty => simp [List.isEmpty_iff.mp hempty]
  · exact get?_touchUsed hnodup key

variable (rng touchedAt) in
theorem extract_of_candidates (hrows : repo.candidates listedAt domainId criteria = .ok rows) :
    ∃ result after, extract rng listedAt touchedAt repo domainId criteria = .ok (result, after) ∧
      Extracted rng touchedAt domainId criteria rows repo result after := by
  have hlist : repo.listCandidatesForExtract listedAt domainId criteria 1000 =
      .ok (rows.take 1000) := by
    rw [InMemoryAssessmentItemRepository.listCandidatesForExtract, hrows]
    rfl
  have hselection := selected_sub rng criteria (nodup_candidates hrows)
  rw [extract, hlist]
  refine ⟨_, _, rfl, ?_⟩
  generalize hselected : (selection rng criteria rows).selected = selected at hselection
  obtain ⟨hsub, hnodup⟩ := hselection
  have hget := get?_of_selected touchedAt repo domainId hnodup
  have hitems : selected.map (fun r => ((if selected.isEmpty then repo else
      repo.touchUsed touchedAt domainId (selected.map fun r => r.itemId)).get domainId
        r.itemId).getD r) = selected.map (·.touch touchedAt) := by
    apply List.map_congr_left
    intro r hr
    have hrow := mem_candidates hrows (hsub hr)
    rw [InMemoryAssessmentItemRepository.get] at hrow ⊢
    rw [hget, hrow, Option.map_some, Option.getD_some, if_pos ⟨rfl, List.mem_map_of_mem hr⟩]
  have hids : (selected.map (·.touch touchedAt)).map (fun r => r.itemId) =
      selected.map fun r => r.itemId := by
    rw [List.map_map]
    rfl
  have hextracted : Extracted rng touchedAt domainId criteria rows repo
      { items := selected.map (·.touch touchedAt)
        extractedCount := (selected.map (·.touch touchedAt)).length
        citations := ((selected.map (·.touch touchedAt)).zipIdx 1).map fun e =>
          itemToCitation e.1 s!"[{e.2}]" domainId
        insufficientPool := (selection rng criteria rows).insufficientPool }
      (if selected.isEmpty then repo else
        repo.touchUsed touchedAt domainId (selected.map fun r => r.itemId)) := by
    refine ⟨by rw [hselected], rfl, ?_, rfl, ?_⟩
    · rw [List.map_map]
      conv_rhs => rw [← List.zipIdx_map_fst 1 (selected.map (·.touch touchedAt)), List.map_map]
      rfl
    · rw [hids]
      exact hget
  rw [← hitems] at hextracted
  subst hselected
  exact hextracted

theorem candidates_of_extract {result : ExtractResult} {after : InMemoryAssessmentItemRepository}
    (h : extract rng listedAt touchedAt repo domainId criteria = .ok (result, after)) :
    ∃ rows, repo.candidates listedAt domainId criteria = .ok rows := by
  obtain ⟨listed, hlisted, -⟩ := Except.bind_eq_ok_iff.mp h
  obtain ⟨rows, hrows, -⟩ := Except.bind_eq_ok_iff.mp hlisted
  exact ⟨rows, hrows⟩

end Extracting

section Distribution

/-- From the items `rows` that match, each difficulty has as many as were asked for, or all there
are; the shortfall is told, and the use of these items, and no others, is counted. -/
structure Sampled (dist : Dict String Int) (rows : List AssessmentItemRecord) (touchedAt : Rat)
    (domainId : String) (before : InMemoryAssessmentItemRepository) (result : ExtractResult)
    (after : InMemoryAssessmentItemRepository) : Prop where
  matching : ∀ item ∈ result.items, ∃ r ∈ rows, item = r.touch touchedAt
  distinct : (result.items.map fun r => r.itemId).Nodup
  counts : ∀ d, available result.items d = min (available rows d) ((dist.get? d).getD 0)
  shortfall : ∀ d, result.insufficientPool.get? d =
    if available rows d < (dist.get? d).getD 0 then
      some ((dist.get? d).getD 0 - available rows d) else none
  used : ∀ key, after.records.get? key = (before.records.get? key).map fun r =>
    if key.1 = domainId ∧ key.2 ∈ result.items.map (fun r => r.itemId) then r.touch touchedAt
    else r

/-- The first thousand of the items that match have enough of each difficulty, or all there are.
Only if there are none at all, nothing may be asked for. -/
structure Sufficient (dist : Dict String Int) (rows : List AssessmentItemRecord) : Prop where
  reached : ∀ e ∈ dist.entries,
    min (available (rows.take 1000) e.1) e.2 = min (available rows e.1) e.2
  asked : dist.entries = [] → rows = []

variable {rng : Sampler AssessmentItemRecord} {criteria : ExtractCriteria}
  {dist : Dict String Int} {rows : List AssessmentItemRecord}

theorem available_map_touch (now : Rat) (d : String) :
    available (rows.map (·.touch now)) d = available rows d := by
  simp only [available, group, List.filter_map, List.length_map]
  rfl

theorem available_nonneg (rows : List AssessmentItemRecord) (d : String) : 0 ≤ available rows d :=
  Int.natCast_nonneg _

theorem available_take_le (n : Nat) (d : String) : available (rows.take n) d ≤ available rows d := by
  have hsub : (group difficultyKey (rows.take n) d).Sublist (group difficultyKey rows d) :=
    (List.take_sublist n rows).filter _
  exact Int.ofNat_le.mpr hsub.length_le

theorem available_selection (hdist : criteria.difficultyDistribution = some dist)
    (hasked : dist.entries ≠ []) {d : String} {n : Int} (hd : dist.get? d = some n) (hn : 0 ≤ n) :
    available (selection rng criteria rows).selected d =
      min (available (rows.take 1000) d) n := by
  rw [Dict.get?_eq_some_iff] at hd
  have hdraws : ((group difficultyKey (draws rng difficultyKey (rows.take 1000)
      dist.entries 0) d).length : Int) = max 0 (share difficultyKey (rows.take 1000) (d, n)) :=
    length_group_draws dist.nodup 0 hd
  have hpos := available_nonneg (rows.take 1000) d
  rw [selection, select, hdist]
  simp only [List.isEmpty_iff, hasked, if_false, selected_foldl, List.nil_append]
  rw [available, hdraws, share]
  exact max_eq_right (le_min hpos hn)

theorem available_selection_of_none (hdist : criteria.difficultyDistribution = some dist)
    (hasked : dist.entries ≠ []) {d : String} (hd : dist.get? d = none) :
    available (selection rng criteria rows).selected d = 0 := by
  rw [Dict.get?_eq_none_iff] at hd
  rw [selection, select, hdist]
  simp only [List.isEmpty_iff, hasked, if_false, selected_foldl, List.nil_append]
  rw [available, group_draws_of_notMem hd]
  rfl

theorem insufficientPool_selection (hdist : criteria.difficultyDistribution = some dist)
    (d : String) :
    (selection rng criteria rows).insufficientPool.get? d =
      if available (rows.take 1000) d < (dist.get? d).getD 0 then
        some ((dist.get? d).getD 0 - available (rows.take 1000) d) else none := by
  have hpos := available_nonneg (rows.take 1000) d
  rw [selection, select, hdist]
  simp only
  cases hd : dist.get? d with
  | none =>
    have hnot : ¬ available (rows.take 1000) d < 0 := by omega
    rw [Option.getD_none, if_neg hnot]
    split
    · rfl
    · rw [Dict.get?_eq_none_iff] at hd
      exact get?_insufficientPool_of_notMem hd _
  | some n =>
    rw [Dict.get?_eq_some_iff] at hd
    rw [if_neg (by rw [List.isEmpty_iff]; exact List.ne_nil_of_mem hd)]
    exact get?_insufficientPool dist.nodup hd _

/-- The counts are right exactly if the first thousand suffice. -/
theorem counts_iff (hdist : criteria.difficultyDistribution = some dist)
    (hnonneg : ∀ e ∈ dist.entries, 0 ≤ e.2) :
    (∀ d, available (selection rng criteria rows).selected d =
      min (available rows d) ((dist.get? d).getD 0)) ↔ Sufficient dist rows := by
  by_cases hasked : dist.entries = []
  · have hnone (d : String) : dist.get? d = none := by
      rw [Dict.get?_eq_none_iff, Dict.keys, hasked]
      exact List.not_mem_nil
    have hselected : (selection rng criteria rows).selected = rows.take 1000 := by
      rw [selection, select, hdist]
      simp [hasked]
    constructor
    · intro hcounts
      refine ⟨by simp [hasked], fun _ => ?_⟩
      cases rows with
      | nil => rfl
      | cons r rows =>
        have hcount := hcounts (difficultyKey r)
        have hpos := available_nonneg (r :: rows) (difficultyKey r)
        rw [hselected, hnone, Option.getD_none, min_eq_right hpos] at hcount
        simp [available, group] at hcount
        omega
    · intro hsuff d
      have hrows := hsuff.asked hasked
      rw [hselected, hnone, hrows]
      rfl
  · constructor
    · intro hcounts
      refine ⟨fun e he => ?_, fun h => absurd h hasked⟩
      have hget : dist.get? e.1 = some e.2 := Dict.get?_eq_some_iff.mpr he
      have hcount := hcounts e.1
      rw [available_selection hdist hasked hget (hnonneg e he), hget, Option.getD_some] at hcount
      exact hcount
    · intro hsuff d
      cases hget : dist.get? d with
      | none =>
        rw [available_selection_of_none hdist hasked hget, Option.getD_none,
          min_eq_right (available_nonneg rows d)]
      | some n =>
        have he := Dict.get?_eq_some_iff.mp hget
        rw [available_selection hdist hasked hget (hnonneg _ he), Option.getD_some]
        exact hsuff.reached _ he

theorem shortfall_of_sufficient (hdist : criteria.difficultyDistribution = some dist)
    (hsuff : Sufficient dist rows) (d : String) :
    (selection rng criteria rows).insufficientPool.get? d =
      if available rows d < (dist.get? d).getD 0 then
        some ((dist.get? d).getD 0 - available rows d) else none := by
  rw [insufficientPool_selection hdist]
  have hle : available (rows.take 1000) d ≤ available rows d := available_take_le 1000 d
  have hpos := available_nonneg (rows.take 1000) d
  have hmin : min (available (rows.take 1000) d) ((dist.get? d).getD 0) =
      min (available rows d) ((dist.get? d).getD 0) := by
    cases hget : dist.get? d with
    | none => simp only [Option.getD_none]; omega
    | some n => exact hsuff.reached _ (Dict.get?_eq_some_iff.mp hget)
  generalize (dist.get? d).getD 0 = n at hmin ⊢
  by_cases hshort : available rows d < n
  · have heq : available (rows.take 1000) d = available rows d := by omega
    rw [heq]
  · have hnot : ¬ available (rows.take 1000) d < n := by omega
    rw [if_neg hnot, if_neg hshort]

theorem sampled_iff_sufficient {listedAt touchedAt : Rat} {domainId : String}
    {repo : InMemoryAssessmentItemRepository}
    (hdist : criteria.difficultyDistribution = some dist)
    (hnonneg : ∀ e ∈ dist.entries, 0 ≤ e.2)
    (hrows : repo.candidates listedAt domainId criteria = .ok rows)
    {result : ExtractResult} {after : InMemoryAssessmentItemRepository}
    (h : Extracted rng touchedAt domainId criteria rows repo result after) :
    Sampled dist rows touchedAt domainId repo result after ↔ Sufficient dist rows := by
  have hcounts : (∀ d, available result.items d =
      min (available rows d) ((dist.get? d).getD 0)) ↔ Sufficient dist rows := by
    simp only [h.items, available_map_touch]
    exact counts_iff hdist hnonneg
  constructor
  · intro hsampled
    exact hcounts.mp hsampled.counts
  · intro hsuff
    obtain ⟨hsub, hnodup⟩ := selected_sub rng criteria (nodup_candidates hrows)
    refine ⟨?_, ?_, hcounts.mpr hsuff, ?_, h.used⟩
    · intro item hitem
      rw [h.items, List.mem_map] at hitem
      obtain ⟨r, hr, rfl⟩ := hitem
      exact ⟨r, hsub hr, rfl⟩
    · rw [h.items, List.map_map]
      exact hnodup
    · rw [h.insufficientPool]
      exact shortfall_of_sufficient hdist hsuff

section LargeBank

def firstOf : Sampler AssessmentItemRecord where
  sample _ pool k := pool.take k
  subperm _ _ k _ := (List.take_sublist k _).subperm
  length_sample _ _ _ h := by rw [List.length_take, Nat.min_eq_left h]

def approvedItem (difficulty itemId : String) : AssessmentItemRecord where
  itemId
  domainId := "math"
  difficulty := some difficulty
  qualityStatus := "approved"

def easyItems : List AssessmentItemRecord :=
  (List.range 1000).map fun i => approvedItem "easy" (String.ofList (List.replicate i 'e'))

def largeItems : List AssessmentItemRecord := easyItems ++ [approvedItem "hard" "h"]

theorem nodup_largeItems : (largeItems.map fun r => r.itemId).Nodup := by
  have hids : largeItems.map (fun r => r.itemId) =
      (List.range 1000).map (fun i => String.ofList (List.replicate i 'e')) ++ ["h"] := by
    simp [largeItems, easyItems, approvedItem]
  rw [hids, List.nodup_append]
  refine ⟨List.nodup_range.map ?_, List.nodup_singleton _, ?_⟩
  · intro i j h
    have hlen := congrArg (fun s => s.toList.length) h
    simpa using hlen
  · rintro _ hx _ hy rfl
    rw [List.mem_singleton] at hy
    rw [List.mem_map] at hx
    obtain ⟨i, -, rfl⟩ := hx
    have hlist := congrArg String.toList hy
    cases i with
    | zero => simp at hlist
    | succ i => simp [List.replicate_succ] at hlist

theorem domainId_largeItems : ∀ r ∈ largeItems, r.domainId = "math" := by
  intro r hr
  simp only [largeItems, easyItems, List.mem_append, List.mem_map, List.mem_singleton] at hr
  obtain ⟨i, -, rfl⟩ | rfl := hr <;> rfl

def bankOf (domainId : String) (items : List AssessmentItemRecord)
    (hnodup : (items.map fun r => r.itemId).Nodup) (hdomain : ∀ r ∈ items, r.domainId = domainId) :
    InMemoryAssessmentItemRepository where
  records :=
    { entries := items.map fun r => ((domainId, r.itemId), r)
      nodup := by
        rw [List.map_map]
        exact hnodup.of_map.map_on fun r hr r' hr' h =>
          List.inj_on_of_nodup_map hnodup hr hr' (congrArg Prod.snd h) }
  keyed := by
    simp only [List.mem_map]
    rintro _ ⟨r, hr, rfl⟩
    rw [hdomain r hr]

/-- If all items of a bank match, they are its candidates. -/
theorem candidates_bankOf {domainId : String} {items : List AssessmentItemRecord}
    {hnodup : (items.map fun r => r.itemId).Nodup} {hdomain : ∀ r ∈ items, r.domainId = domainId}
    {criteria : ExtractCriteria} {now : Rat} {t : Option Rat} (ht : criteria.threshold now = .ok t)
    (hall : ∀ r ∈ items, criteria.selects t r = true) (htags : criteria.tagsAny = []) :
    (bankOf domainId items hnodup hdomain).candidates now domainId criteria = .ok items := by
  have hkept : (items.map fun r => ((domainId, r.itemId), r)).filter (fun e =>
      e.1.1 = domainId ∧ criteria.selects t e.2) = items.map fun r => ((domainId, r.itemId), r) := by
    rw [List.filter_eq_self]
    simpa using hall
  rw [InMemoryAssessmentItemRepository.candidates, ht, htags]
  simp only [bankOf, bind, Except.bind, hkept, List.map_map, Function.comp_def, List.map_id',
    List.isEmpty_nil, if_true, pure, Except.pure]

/-- A thousand easy items, and a hard one after them. -/
def largeBank : InMemoryAssessmentItemRepository :=
  bankOf "math" largeItems nodup_largeItems domainId_largeItems

def oneHardDist : Dict String Int := ⟨[("hard", 1)], List.nodup_singleton _⟩

def oneHard : ExtractCriteria where
  difficultyDistribution := some oneHardDist

theorem candidates_largeBank : largeBank.candidates 0 "math" oneHard = .ok largeItems := by
  refine candidates_bankOf rfl (fun r hr => ?_) rfl
  simp only [largeItems, easyItems, List.mem_append, List.mem_map, List.mem_singleton] at hr
  obtain ⟨i, -, rfl⟩ | rfl := hr <;> rfl

theorem not_sufficient_largeItems : ¬ Sufficient oneHardDist largeItems := by
  intro h
  have hreached := h.reached ("hard", 1) List.mem_cons_self
  have htake : largeItems.take 1000 = easyItems := by
    apply List.take_left'
    simp [easyItems]
  have heasy : available easyItems "hard" = 0 := by
    have hnone : group difficultyKey easyItems "hard" = [] := by
      apply List.filter_eq_nil_iff.mpr
      intro r hr
      obtain ⟨i, -, rfl⟩ := List.mem_map.mp hr
      simp [approvedItem, difficultyKey]
    rw [available, hnone]
    rfl
  have hhard : available largeItems "hard" = 1 := by
    have hone : available [approvedItem "hard" "h"] "hard" = 1 := rfl
    rw [largeItems, available_append, heasy, hone]
    rfl
  rw [htake, heasy, hhard] at hreached
  cases hreached

/-- An extraction by difficulty takes what it was asked for exactly if the tags of the items that
match can be compared, where tags are asked for, and the first thousand of them suffice. -/
theorem extract_sampled_iff (rng : Sampler AssessmentItemRecord) (listedAt touchedAt : Rat)
    (repo : InMemoryAssessmentItemRepository) (domainId : String) (criteria : ExtractCriteria)
    (dist : Dict String Int) (hdist : criteria.difficultyDistribution = some dist)
    (hnonneg : ∀ e ∈ dist.entries, 0 ≤ e.2) :
    (∃ t result after, criteria.threshold listedAt = .ok t ∧
      extract rng listedAt touchedAt repo domainId criteria = .ok (result, after) ∧
      Sampled dist (repo.matching t domainId criteria) touchedAt domainId repo result after) ↔
    ∃ t, criteria.threshold listedAt = .ok t ∧ repo.Taggable t domainId criteria ∧
      Sufficient dist (repo.matching t domainId criteria) := by
  constructor
  · rintro ⟨t, result, after, ht, hextract, hsampled⟩
    obtain ⟨rows, hrows⟩ := candidates_of_extract hextract
    obtain ⟨t', ht', htaggable, rfl⟩ :=
      InMemoryAssessmentItemRepository.candidates_eq_ok_iff.mp hrows
    cases ht.symm.trans ht'
    obtain ⟨result', after', hextract', h⟩ := extract_of_candidates rng touchedAt hrows
    cases hextract.symm.trans hextract'
    exact ⟨t, ht, htaggable, (sampled_iff_sufficient hdist hnonneg hrows h).mp hsampled⟩
  · rintro ⟨t, ht, htaggable, hsuff⟩
    have hrows : repo.candidates listedAt domainId criteria =
        .ok (repo.matching t domainId criteria) :=
      InMemoryAssessmentItemRepository.candidates_eq_ok_iff.mpr ⟨t, ht, htaggable, rfl⟩
    obtain ⟨result, after, hextract, h⟩ := extract_of_candidates rng touchedAt hrows
    exact ⟨t, result, after, ht, hextract,
      (sampled_iff_sufficient hdist hnonneg hrows h).mpr hsuff⟩

theorem extract_sampled_iff_oneHard :
    (∃ t result after, oneHard.threshold 0 = .ok t ∧
      extract firstOf 0 0 largeBank "math" oneHard = .ok (result, after) ∧
      Sampled oneHardDist (largeBank.matching t "math" oneHard) 0 "math" largeBank result after) ↔
    ∃ t, oneHard.threshold 0 = .ok t ∧ largeBank.Taggable t "math" oneHard ∧
      Sufficient oneHardDist (largeBank.matching t "math" oneHard) :=
  extract_sampled_iff firstOf 0 0 largeBank "math" oneHard oneHardDist rfl (by decide)

theorem extract_misses_hard_item :
    ¬ ∃ t result after, oneHard.threshold 0 = .ok t ∧
      extract firstOf 0 0 largeBank "math" oneHard = .ok (result, after) ∧
      Sampled oneHardDist (largeBank.matching t "math" oneHard) 0 "math" largeBank result after := by
  rintro ⟨t, result, after, ht, hextract, hsampled⟩
  have hrows := candidates_largeBank
  obtain ⟨result', after', hextract', h⟩ := extract_of_candidates firstOf 0 hrows
  cases hextract.symm.trans hextract'
  obtain ⟨t', ht', -, hmatching⟩ := InMemoryAssessmentItemRepository.candidates_eq_ok_iff.mp hrows
  cases ht.symm.trans ht'
  rw [← hmatching] at hsampled
  exact not_sufficient_largeItems ((sampled_iff_sufficient rfl (by decide) hrows h).mp hsampled)

end LargeBank

end Distribution

end DomainRag.Assessment.Extract
