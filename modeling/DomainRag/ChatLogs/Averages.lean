import DomainRag.ChatLogs.Reverify
import DomainRag.Lib.Means

/-! # The averages of a re-verification

A re-verified list without a claim and excerpt to compare and without a number to average has no
average of its own. The service adds up the averages of the lists as if all of them had one and the
same number of similarities, after it has written the lists back.
-/

namespace DomainRag.ChatLogs

open Means (Sample mean mean? skew)
open Verifier (ReverifyResult)
open Verifier.CitationReverifier (Change Lacks avg batchTexts changeOf reverifyOne_ok similarities
  targetOf targets avgSimilarityAfter_eq_none_iff)

variable {V : Type}

theorem average_map_some (xs : List Rat) : ReverifyJob.average (xs.map some) = .ok (mean? xs) := by
  cases xs with
  | nil => rfl
  | cons x xs =>
    have hpresent : none ∉ (x :: xs).map some := by simp
    have hnums : ((x :: xs).map some).reduceOption = x :: xs := by
      rw [List.reduceOption, List.filterMap_map]
      exact List.filterMap_some
    rw [ReverifyJob.average, if_neg (by simp), ReverifyJob.sum, if_neg (by simp), if_neg hpresent,
      hnums, List.length_map]
    rfl

theorem average_of_none {sims : List (Option Rat)} (h : none ∈ sims) :
    ∃ e, ReverifyJob.average sims = .error e := by
  rw [ReverifyJob.average, if_neg (List.ne_nil_of_mem h), ReverifyJob.sum, if_pos h]
  split
  · exact ⟨_, rfl⟩
  · exact ⟨_, rfl⟩

section Results

variable (job : ReverifyJob V) {p : Progress} {record : ReadLog} {records : List StoredLog}

/-- The results of the records that were read and could be re-verified. -/
def results (read : List ReadLog) : List ReverifyResult :=
  read.filterMap fun record =>
    if record.log.citations = [] then none else (job.outcome record.log).toOption

/-- The loop has collected the averages of all results. -/
structure Collected (p : Progress) : Prop where
  before : p.beforeSims = (results job p.read).filterMap ReverifyResult.avgSimilarityBefore
  after : p.afterSims = (results job p.read).map ReverifyResult.avgSimilarityAfter

theorem results_append (read : List ReadLog) (record : ReadLog) :
    results job (read ++ [record]) = results job read ++ results job [record] :=
  List.filterMap_append

/-- A row of the tenant is reached by its own update. -/
theorem applied_pos (h : (job.domainId, record.log.requestId) ∈ keysOf p.records)
    (citations : List Value) (verifierMetrics : List (String × Value)) :
    0 < (InMemoryChatLogCitationUpdater.update p.records job.domainId record.log.requestId citations
      verifierMetrics).2 := by
  obtain ⟨rec, hrec, hkey⟩ := List.mem_map.mp h
  rw [Prod.mk.injEq] at hkey
  exact List.countP_pos_iff.mpr ⟨rec, hrec, decide_eq_true hkey⟩

/-- What a visit does with the averages and the log. -/
inductive Visited (p : Progress) (record : ReadLog) (p' : Progress) : Prop
  | passed : results job [record] = [] → p'.records = p.records → p'.beforeSims = p.beforeSims →
      p'.afterSims = p.afterSims → Visited p record p'
  | updated (out : ReverifyResult) (verifierMetrics : List (String × Value)) :
      record.log.citations ≠ [] → job.outcome record.log = .ok out →
      p'.records = (InMemoryChatLogCitationUpdater.update p.records job.domainId
        record.log.requestId out.citationsAfter verifierMetrics).1 →
      p'.beforeSims = p.beforeSims ++ out.avgSimilarityBefore.toList →
      p'.afterSims = p.afterSims ++ [out.avgSimilarityAfter] → Visited p record p'

theorem visited_visit (h : (job.domainId, record.log.requestId) ∈ keysOf p.records) :
    Visited job p record (job.visit p record) := by
  rw [ReverifyJob.visit]
  split
  · rename_i hnone
    exact .passed (by simp [results, hnone]) rfl rfl rfl
  · rename_i hsome
    split
    · rename_i e herror
      exact .passed (by simp [results, hsome, herror, Except.toOption]) rfl rfl rfl
    · rename_i out hout
      refine .updated out (job.metrics (p.summary.scanned + 1) record.log out) hsome hout ?_ ?_ ?_ <;>
        simp only [ReverifyJob.applyOutcome, applied_pos job h, if_true]

theorem collected_visit (h : (job.domainId, record.log.requestId) ∈ keysOf p.records)
    (hp : Collected job p) : Collected job (job.visit p record) := by
  have hread := (visit_visit job p record).read
  cases visited_visit job h with
  | passed hnone hrecords hbefore hafter =>
    constructor
    · rw [hbefore, hread, results_append, hnone, List.append_nil, hp.before]
    · rw [hafter, hread, results_append, hnone, List.append_nil, hp.after]
  | updated out metrics hsome hout hrecords hbefore hafter =>
    have hown : results job [record] = [out] := by
      simp [results, hsome, hout, Except.toOption]
    constructor
    · rw [hbefore, hread, results_append, hown, List.filterMap_append, hp.before,
        List.filterMap_cons]
      cases out.avgSimilarityBefore <;> rfl
    · rw [hafter, hread, results_append, hown, List.map_append, hp.after]
      rfl

end Results

section Tracking

variable (job : ReverifyJob V) (rows : List StoredLog)

/-- The record has citations, and re-verifying them does not fail. -/
def Rewritten (log : StoredLog) : Prop := log.citations ≠ [] ∧ Returns (job.outcome log)

/-- Among the rows at the given places is one with the request id that is written back. -/
def Touched (read : List Nat) (requestId : String) : Prop :=
  ∃ j ∈ read, ∃ log, rows[j]? = some log ∧ log.requestId = requestId ∧ Rewritten job log

/-- The rows after those at the given places have been visited. -/
structure Tracks (read : List Nat) (current : List StoredLog) : Prop where
  ids : current.map StoredLog.requestId = rows.map StoredLog.requestId
  touched : ∀ log ∈ current, Touched job rows read log.requestId → ¬ Lacks log.citations
  untouched : ∀ (i : Nat) (log : StoredLog), current[i]? = some log →
    ¬ Touched job rows read log.requestId →
      ∃ log₀ : StoredLog, rows[i]? = some log₀ ∧ log.citations = log₀.citations

variable {job rows} {read : List Nat} {current : List StoredLog} {i : Nat} {log log₀ : StoredLog}
  {p : Progress}

theorem touched_append {requestId : String} (h : rows[i]? = some log₀) :
    Touched job rows (read ++ [i]) requestId ↔ Touched job rows read requestId ∨
      log₀.requestId = requestId ∧ Rewritten job log₀ := by
  simp only [Touched, List.mem_append, List.mem_singleton, or_and_right, exists_or, exists_eq_left,
    h, Option.some.injEq, exists_eq_left']

theorem Touched.mono {requestId : String} (h : Touched job rows read requestId) (more : List Nat) :
    Touched job rows (read ++ more) requestId := by
  obtain ⟨j, hj, log, hlog⟩ := h
  exact ⟨j, List.mem_append_left _ hj, log, hlog⟩

theorem Tracks.pass (h : Tracks job rows read current) (hi : rows[i]? = some log₀)
    (hpass : Rewritten job log₀ → Touched job rows read log₀.requestId) :
    Tracks job rows (read ++ [i]) current := by
  have hsame : ∀ requestId, Touched job rows (read ++ [i]) requestId ↔
      Touched job rows read requestId := by
    intro requestId
    rw [touched_append hi]
    exact or_iff_left_of_imp fun ⟨hid, hrewritten⟩ => hid ▸ hpass hrewritten
  refine ⟨h.ids, fun log hlog htouched => ?_, fun j log hlog huntouched => ?_⟩
  · exact h.touched log hlog ((hsame _).mp htouched)
  · exact h.untouched j log hlog fun htouched => huntouched ((hsame _).mpr htouched)

/-- The rows of a tenant after an update of the rows with a request id. -/
def rewrite (requestId : String) (citations : List Value)
    (verifierMetrics : List (String × Value)) (log : StoredLog) : StoredLog :=
  if log.requestId = requestId then
    { log with citations := citations, verifierMetrics := verifierMetrics }
  else log

theorem tenantRows_update (records : List StoredLog) (domainId requestId : String)
    (citations : List Value) (verifierMetrics : List (String × Value)) :
    tenantRows domainId (InMemoryChatLogCitationUpdater.update records domainId requestId citations
      verifierMetrics).1 =
        (tenantRows domainId records).map (rewrite requestId citations verifierMetrics) := by
  rw [tenantRows, tenantRows, List.map_reverse, InMemoryChatLogCitationUpdater.update,
    List.filter_map]
  have hdomain : (fun rec : StoredLog => decide (rec.domainId = domainId)) ∘ (fun rec : StoredLog =>
      if rec.domainId = domainId ∧ rec.requestId = requestId then
        { rec with citations := citations, verifierMetrics := verifierMetrics }
      else rec) = fun rec => decide (rec.domainId = domainId) := by
    funext rec
    dsimp only [Function.comp]
    split <;> rfl
  rw [hdomain]
  refine congrArg List.reverse (List.map_congr_left fun rec hrec => ?_)
  have hown := of_decide_eq_true (List.mem_filter.mp hrec).2
  simp only [rewrite, hown, true_and]

theorem Tracks.update (h : Tracks job rows read current) (hi : rows[i]? = some log₀)
    (htouch : Touched job rows read log₀.requestId ∨ Rewritten job log₀) {citations : List Value}
    (hlacks : ¬ Lacks citations) (verifierMetrics : List (String × Value)) :
    Tracks job rows (read ++ [i])
      (current.map (rewrite log₀.requestId citations verifierMetrics)) := by
  have hid : ∀ log, (rewrite log₀.requestId citations verifierMetrics log).requestId =
      log.requestId := by
    intro log
    rw [rewrite]
    split <;> rfl
  have hown : Touched job rows (read ++ [i]) log₀.requestId :=
    (touched_append hi).mpr (htouch.imp_right fun hrewritten => ⟨rfl, hrewritten⟩)
  refine ⟨?_, fun log hlog htouched => ?_, fun j log hlog huntouched => ?_⟩
  · rw [List.map_map, ← h.ids]
    exact List.map_congr_left fun log _ => hid log
  · obtain ⟨log, hmem, rfl⟩ := List.mem_map.mp hlog
    rw [hid, touched_append hi] at htouched
    rw [rewrite]
    split
    · exact hlacks
    · rename_i hother
      exact h.touched log hmem (htouched.resolve_right fun hown => hother hown.1.symm)
  · rw [List.getElem?_map, Option.map_eq_some_iff] at hlog
    obtain ⟨log, hlog, rfl⟩ := hlog
    rw [hid] at huntouched
    have hother : log.requestId ≠ log₀.requestId := fun heq => huntouched (heq ▸ hown)
    rw [rewrite, if_neg hother]
    exact h.untouched j log hlog fun htouched => huntouched (htouched.mono [i])

theorem outcome_congr (hcitations : log.citations = log₀.citations)
    (hid : log.requestId = log₀.requestId) : job.outcome log = job.outcome log₀ := by
  rw [ReverifyJob.outcome, ReverifyJob.outcome, hcitations, hid]

/-- A row may be visited after the rows at the given places: it has an average of its own, or it has
been overwritten. -/
def Admits (job : ReverifyJob V) (rows : List StoredLog) (read : List Nat) (i : Nat) : Prop :=
  ∀ log, rows[i]? = some log → Lacks log.citations → Touched job rows read log.requestId

theorem Tracks.row (h : Tracks job rows read current) (hlog : current[i]? = some log) :
    ∃ log₀, rows[i]? = some log₀ ∧ log.requestId = log₀.requestId ∧
      (Touched job rows read log₀.requestId ∨ log.citations = log₀.citations) := by
  have hid := congrArg (·[i]?) h.ids
  simp only [List.getElem?_map, hlog, Option.map_some] at hid
  obtain ⟨log₀, hlog₀, hid⟩ := Option.map_eq_some_iff.mp hid.symm
  refine ⟨log₀, hlog₀, hid.symm, ?_⟩
  by_cases htouched : Touched job rows read log₀.requestId
  · exact .inl htouched
  · obtain ⟨log₁, hlog₁, hcitations⟩ := h.untouched i log hlog (hid ▸ htouched)
    obtain rfl := Option.some.inj (hlog₀.symm.trans hlog₁)
    exact .inr hcitations

/-- A row that is read when it may be visited does not lack an average. -/
theorem Tracks.not_lacks (h : Tracks job rows read current) (hlog : current[i]? = some log)
    (hadmits : Admits job rows read i) : ¬ Lacks log.citations := by
  obtain ⟨log₀, hlog₀, hid, hrow⟩ := h.row hlog
  intro hlacks
  have htouched : Touched job rows read log₀.requestId := by
    obtain htouched | hcitations := hrow
    · exact htouched
    · exact hadmits log₀ hlog₀ (hcitations ▸ hlacks)
  exact h.touched log (List.mem_of_getElem? hlog) (hid ▸ htouched) hlacks

/-- What one visit preserves. -/
theorem tracks_visit {part : List Nat} (index : Nat) (hstart : Tracks job rows read current)
    (hp : Tracks job rows (read ++ part) (tenantRows job.domainId p.records))
    (hlog : current[i]? = some log) (hadmits : Admits job rows read i)
    (hkey : (job.domainId, log.requestId) ∈ keysOf p.records) :
    Tracks job rows (read ++ part ++ [i])
        (tenantRows job.domainId (job.visit p ⟨index, log⟩).records) ∧
      (none ∈ (job.visit p ⟨index, log⟩).afterSims ↔ none ∈ p.afterSims) := by
  have hlacks := hstart.not_lacks hlog hadmits
  obtain ⟨log₀, hlog₀, hid, hrow⟩ := hstart.row hlog
  have hvisited : Visited job p ⟨index, log⟩ (job.visit p ⟨index, log⟩) := visited_visit job hkey
  cases hvisited with
  | passed hnone hrecords _ hafter =>
    rw [hrecords, hafter]
    refine ⟨hp.pass hlog₀ fun hrewritten => ?_, Iff.rfl⟩
    obtain htouched | hcitations := hrow
    · exact htouched.mono part
    · obtain ⟨out, hout⟩ := hrewritten.2
      rw [← outcome_congr hcitations hid] at hout
      have hsome : log.citations ≠ [] := hcitations ▸ hrewritten.1
      simp [results, hsome, hout, Except.toOption] at hnone
  | updated out verifierMetrics hsome hout hrecords _ hafter =>
    have htouch : Touched job rows (read ++ part) log₀.requestId ∨ Rewritten job log₀ := by
      refine hrow.imp (fun htouched => htouched.mono part) fun hcitations => ?_
      exact ⟨hcitations ▸ hsome, out, outcome_congr hcitations hid ▸ hout⟩
    have hafter' : ¬ Lacks out.citationsAfter := fun h => hlacks (h.of_after hout)
    have hmean : out.avgSimilarityAfter ≠ none := fun hnone =>
      hlacks ((avgSimilarityAfter_eq_none_iff hsome hout).mp hnone)
    constructor
    · rw [hrecords, tenantRows_update, hid]
      exact hp.update hlog₀ htouch hafter' verifierMetrics
    · rw [hafter, List.mem_append, List.mem_singleton]
      exact or_iff_left (Ne.symm hmean)

/-- A visit of a row that lacks an average and has not been overwritten collects none. -/
theorem none_mem_visit {index : Nat} (hstart : Tracks job rows read current)
    (hlog : current[i]? = some log) (hadmits : ¬ Admits job rows read i)
    (hkey : (job.domainId, log.requestId) ∈ keysOf p.records) :
    none ∈ (job.visit p ⟨index, log⟩).afterSims := by
  obtain ⟨log₀, hlog₀, hid, hrow⟩ := hstart.row hlog
  have hlacks : Lacks log.citations := by
    rw [Admits] at hadmits
    push Not at hadmits
    obtain ⟨log₁, hlog₁, hlacks, huntouched⟩ := hadmits
    obtain rfl := Option.some.inj (hlog₀.symm.trans hlog₁)
    rwa [hrow.resolve_left huntouched]
  obtain ⟨out', hout'⟩ : Returns (job.outcome log) := hlacks.returns
  have hvisited : Visited job p ⟨index, log⟩ (job.visit p ⟨index, log⟩) := visited_visit job hkey
  cases hvisited with
  | passed hnone _ _ _ => simp [results, hlacks.some, hout', Except.toOption] at hnone
  | updated out verifierMetrics hsome hout _ _ hafter =>
    have hmean := (avgSimilarityAfter_eq_none_iff hsome hout).mpr hlacks
    rw [hafter, hmean]
    exact List.mem_append_right _ List.mem_cons_self

theorem afterSims_visit (p : Progress) (record : ReadLog) :
    p.afterSims <+: (job.visit p record).afterSims := by
  rw [ReverifyJob.visit]
  split
  · exact List.prefix_refl _
  · split
    · exact List.prefix_refl _
    · simp only [ReverifyJob.applyOutcome]
      split
      · exact List.prefix_append _ _
      · exact List.prefix_refl _

theorem afterSims_foldl (items : List ReadLog) (p : Progress) :
    p.afterSims <+: (items.foldl job.visit p).afterSims := by
  induction items generalizing p with
  | nil => exact List.prefix_refl _
  | cons item items ih => exact (afterSims_visit p item).trans (ih _)

theorem key_of_row {records : List StoredLog} (h : log ∈ tenantRows job.domainId records) :
    (job.domainId, log.requestId) ∈ keysOf records := by
  rw [tenantRows, List.mem_reverse, List.mem_filter, decide_eq_true_eq] at h
  exact List.mem_map.mpr ⟨log, h.1, by rw [h.2]⟩

/-- What the visits of a page preserve, all of whose rows were read before the first of them. -/
theorem tracks_page {part page : List Nat} (hstart : Tracks job rows read current)
    (hp : Tracks job rows (read ++ part) (tenantRows job.domainId p.records))
    (hkeys : ∀ log ∈ current, (job.domainId, log.requestId) ∈ keysOf p.records)
    (hbound : ∀ i ∈ page, i < current.length) (hadmits : ∀ i ∈ page, Admits job rows read i) :
    Tracks job rows (read ++ part ++ page) (tenantRows job.domainId
        ((page.flatMap (rowAt current)).foldl job.visit p).records) ∧
      (none ∈ ((page.flatMap (rowAt current)).foldl job.visit p).afterSims ↔
        none ∈ p.afterSims) := by
  induction page generalizing part p with
  | nil =>
    rw [List.append_nil]
    exact ⟨hp, Iff.rfl⟩
  | cons i page ih =>
    obtain ⟨log, hlog⟩ : ∃ log, current[i]? = some log :=
      ⟨_, List.getElem?_eq_getElem (hbound i List.mem_cons_self)⟩
    obtain ⟨hvisit, hnone⟩ := tracks_visit (current.length - 1 - i) hstart hp hlog
      (hadmits i List.mem_cons_self) (hkeys log (List.mem_of_getElem? hlog))
    rw [List.append_assoc] at hvisit
    have hkeys' := (visit_visit job p ⟨current.length - 1 - i, log⟩).keys
    obtain ⟨hrest, hnone'⟩ := ih hvisit (by rwa [hkeys'])
      (fun j hj => hbound j (List.mem_cons_of_mem i hj))
      (fun j hj => hadmits j (List.mem_cons_of_mem i hj))
    rw [List.flatMap_cons, rowAt, hlog, List.foldl_append]
    refine ⟨?_, hnone'.trans hnone⟩
    rw [← List.append_assoc, List.append_assoc _ [i]] at hrest
    exact hrest

theorem none_mem_page {page : List Nat} (hstart : Tracks job rows read current)
    (hkeys : ∀ log ∈ current, (job.domainId, log.requestId) ∈ keysOf p.records)
    (hbound : ∀ i ∈ page, i < current.length) (hfails : ∃ i ∈ page, ¬ Admits job rows read i) :
    none ∈ ((page.flatMap (rowAt current)).foldl job.visit p).afterSims := by
  induction page generalizing p with
  | nil => exact absurd hfails (by simp)
  | cons i page ih =>
    obtain ⟨log, hlog⟩ : ∃ log, current[i]? = some log :=
      ⟨_, List.getElem?_eq_getElem (hbound i List.mem_cons_self)⟩
    rw [List.flatMap_cons, rowAt, hlog, List.foldl_append]
    by_cases hadmits : Admits job rows read i
    · have hkeys' := (visit_visit job p ⟨current.length - 1 - i, log⟩).keys
      refine ih (p := job.visit p ⟨current.length - 1 - i, log⟩) (by rwa [hkeys'])
        (fun j hj => hbound j (List.mem_cons_of_mem i hj)) ?_
      obtain ⟨j, hj, hfails⟩ := hfails
      obtain rfl | hj := List.mem_cons.mp hj
      · exact absurd hadmits hfails
      · exact ⟨j, hj, hfails⟩
    · exact (afterSims_foldl _ _).subset
        (none_mem_visit hstart hlog hadmits (hkeys log (List.mem_of_getElem? hlog)))

/-- All rows of the pages may be visited after those at the given places. A page is read as a whole,
so its rows are not overwritten by one another. -/
def Summarizable (job : ReverifyJob V) (rows : List StoredLog) : List Nat → List (List Nat) → Prop
  | _, [] => True
  | read, page :: pages =>
    (∀ i ∈ page, Admits job rows read i) ∧ Summarizable job rows (read ++ page) pages

theorem none_mem_pages_iff {pages : List (List Nat)}
    (hp : Tracks job rows read (tenantRows job.domainId p.records))
    (hbound : ∀ page ∈ pages, ∀ i ∈ page, i < rows.length) :
    none ∉ (pages.foldl (servePage job) p).afterSims ↔
      none ∉ p.afterSims ∧ Summarizable job rows read pages := by
  induction pages generalizing read p with
  | nil => simp [Summarizable]
  | cons page pages ih =>
    have hlength : (tenantRows job.domainId p.records).length = rows.length := by
      have h := congrArg List.length hp.ids
      rwa [List.length_map, List.length_map] at h
    have hpage : ∀ i ∈ page, i < (tenantRows job.domainId p.records).length := by
      rw [hlength]
      exact hbound page List.mem_cons_self
    have hrest := fun q hq => hbound q (List.mem_cons_of_mem page hq)
    rw [List.foldl_cons, Summarizable]
    by_cases hadmits : ∀ i ∈ page, Admits job rows read i
    · have hp' : Tracks job rows (read ++ []) (tenantRows job.domainId p.records) := by
        rwa [List.append_nil]
      obtain ⟨hserved, hnone⟩ := tracks_page hp hp' (fun log => key_of_row) hpage hadmits
      rw [List.append_nil] at hserved
      change none ∈ (servePage job p page).afterSims ↔ none ∈ p.afterSims at hnone
      rw [ih (p := servePage job p page) hserved hrest, hnone, and_iff_right hadmits]
    · have hfails : ∃ i ∈ page, ¬ Admits job rows read i := by
        push Not at hadmits
        exact hadmits
      have hnone : none ∈ (servePage job p page).afterSims :=
        none_mem_page hp (fun log => key_of_row) hpage hfails
      have hkept : ∀ q : Progress, none ∈ q.afterSims →
          none ∈ (pages.foldl (servePage job) q).afterSims := by
        clear ih hrest hbound
        induction pages with
        | nil => exact fun q hq => hq
        | cons next pages ih => exact fun q hq => ih _ ((afterSims_foldl _ _).subset hq)
      exact iff_of_false (fun h => h (hkept _ hnone)) fun h => hadmits h.2.1

end Tracking

section Summary

variable (job : ReverifyJob V) (records : List StoredLog)

theorem collected_foldl {items : List ReadLog} {p : Progress}
    (hkeys : ∀ item ∈ items, (job.domainId, item.log.requestId) ∈ keysOf p.records)
    (hp : Collected job p) : Collected job (items.foldl job.visit p) := by
  induction items generalizing p with
  | nil => exact hp
  | cons item items ih =>
    refine ih (fun next hnext => ?_) (collected_visit job (hkeys item List.mem_cons_self) hp)
    rw [(visit_visit job p item).keys]
    exact hkeys next (List.mem_cons_of_mem item hnext)

theorem collected_scan : Collected job (job.scan records) := by
  have hpages : ∀ (pages : List (List Nat)) (p : Progress), Collected job p →
      Collected job (pages.foldl (servePage job) p) := by
    intro pages
    induction pages with
    | nil => exact fun p hp => hp
    | cons page pages ih =>
      intro p hp
      refine ih _ (collected_foldl job (fun item hitem => ?_) hp)
      obtain ⟨i, -, hitem⟩ := List.mem_flatMap.mp hitem
      obtain ⟨log, hlog, rfl⟩ := Option.map_eq_some_iff.mp (Option.mem_toList.mp hitem)
      exact key_of_row (List.mem_of_getElem? hlog)
  rw [scan_eq]
  exact hpages _ _ ⟨rfl, rfl⟩

end Summary

section Similarities

variable (job : ReverifyJob V)

/-- The numbers among the similarities of some citations. -/
def numbers (citations : List Value) : List Rat :=
  (similarities citations).filterMap fun v => v.bind Value.num?

/-- The new similarities of the citations that have a claim and an excerpt to compare. -/
def remeasured (citations : List Value) : List Rat :=
  let changes : Except Exc (List Change) := do
    let ts ← targets citations
    let embeddings ← job.embedder.embedBatch (batchTexts ts)
    ts.zipIdx.mapM (changeOf job.cosine job.thresholds citations embeddings)
  (changes.toOption.getD []).map Change.similarity

/-- The similarities of the citations that have nothing to compare. -/
def retained (citations : List Value) : List Rat :=
  numbers (citations.filter fun c => (targetOf 0 c).toOption.join.isNone)

def sampleBefore (citations : List Value) : Sample Rat := ⟨numbers citations, []⟩

/-- The similarities after a re-verification. The average of a list is taken of the new ones, or of
the old ones if there are none; whether the others of a list with new ones count is left open. -/
def sampleAfter (all : Bool) (citations : List Value) : Sample Rat :=
  if remeasured job citations = [] then ⟨numbers citations, []⟩
  else ⟨remeasured job citations, if all then retained citations else []⟩

/-- The lists of citations that were read and could be re-verified. -/
def revised (read : List ReadLog) : List (List Value) :=
  read.filterMap fun record =>
    if record.log.citations = [] then none
    else (job.outcome record.log).toOption.map fun _ => record.log.citations

variable {job} {log : StoredLog} {out : ReverifyResult}

theorem avg_eq_mean? (values : List (Option Value)) :
    avg values = mean? (values.filterMap fun v => v.bind Value.num?) := rfl

/-- The averages of a list are those of its similarities. -/
theorem outcome_averages (all : Bool) (h : job.outcome log = .ok out) :
    out.avgSimilarityBefore = mean? (sampleBefore log.citations).averaged ∧
      out.avgSimilarityAfter = mean? (sampleAfter job all log.citations).averaged := by
  obtain ⟨ts, hts, hbefore, hafter⟩ := reverifyOne_ok h
  refine ⟨hbefore, ?_⟩
  obtain ⟨rfl, -, hafter⟩ | ⟨hne, embeddings, changes, hembeddings, hchanges, -, hafter⟩ := hafter
  · have hnew : remeasured job log.citations = [] := by
      rw [remeasured, hts]
      dsimp only [bind, Except.bind]
      cases job.embedder.embedBatch (batchTexts []) with
      | error e => rfl
      | ok embeddings => rfl
    rw [hafter, sampleAfter, if_pos hnew]
    rfl
  · have hnew : remeasured job log.citations = changes.map Change.similarity := by
      rw [remeasured, hts]
      simp only [bind, Except.bind, hembeddings, hchanges]
      rfl
    have hsome : changes ≠ [] := by
      intro hnil
      have hlength := (mapM_eq_ok_iff.mp hchanges).length_eq
      rw [hnil, List.length_zipIdx] at hlength
      exact hne (List.length_eq_zero_iff.mp hlength)
    have hnums : (changes.map fun ch => some (Value.float ch.similarity)).filterMap
        (fun v => v.bind Value.num?) = changes.map Change.similarity := by
      rw [List.filterMap_map]
      exact congrFun List.filterMap_eq_map changes
    rw [hafter, sampleAfter, hnew, if_neg (mt List.map_eq_nil_iff.mp hsome), avg_eq_mean?, hnums]

theorem results_averages (all : Bool) (read : List ReadLog) :
    (results job read).map ReverifyResult.avgSimilarityBefore =
        (revised job read).map (fun citations => mean? (sampleBefore citations).averaged) ∧
      (results job read).map ReverifyResult.avgSimilarityAfter =
        (revised job read).map fun citations => mean? (sampleAfter job all citations).averaged := by
  rw [results, revised, List.map_filterMap, List.map_filterMap, List.map_filterMap,
    List.map_filterMap]
  constructor
  · apply List.filterMap_congr
    intro record _
    split
    · rfl
    · cases hout : job.outcome record.log with
      | error e => rfl
      | ok out => exact congrArg some (outcome_averages all hout).1
  · apply List.filterMap_congr
    intro record _
    split
    · rfl
    · cases hout : job.outcome record.log with
      | error e => rfl
      | ok out => exact congrArg some (outcome_averages all hout).2

end Similarities

section Promise

variable (job : ReverifyJob V) (records : List StoredLog)

/-- The lists that the loop has re-verified. -/
def revisedLists : List (List Value) := revised job (job.scan records).read

/-- The lists that have similarities to begin with. -/
def samplesBefore : List (Sample Rat) :=
  ((revisedLists job records).map sampleBefore).filter fun g => g.averaged ≠ []

def samplesAfter (all : Bool) : List (Sample Rat) :=
  (revisedLists job records).map (sampleAfter job all)

/-- The call returns, and its averages are those of all similarities that there are, before and
after. -/
def Summarized (all : Bool) : Prop :=
  ∃ summary, (job.reverify records).2 = .ok summary ∧
    summary.avgSimilarityBefore = mean? ((revisedLists job records).flatMap numbers) ∧
    summary.avgSimilarityAfter = mean? ((samplesAfter job records all).flatMap Sample.members)

variable {job records}

theorem not_mem_of_returns {summary : ReverifyJobSummary}
    (h : (job.reverify records).2 = .ok summary) : none ∉ (job.scan records).afterSims := by
  intro hnone
  obtain ⟨before, -, h⟩ := Except.bind_eq_ok_iff.mp h
  obtain ⟨after, h, -⟩ := Except.bind_eq_ok_iff.mp h
  obtain ⟨e, he⟩ := average_of_none hnone
  cases he.symm.trans h

theorem beforeSims_eq : (job.scan records).beforeSims =
    (samplesBefore job records).map fun g => mean g.averaged := by
  have hnumbered (outs : List ReverifyResult) : outs.filterMap ReverifyResult.avgSimilarityBefore =
      (outs.map ReverifyResult.avgSimilarityBefore).reduceOption := by
    rw [List.reduceOption, List.filterMap_map]
    rfl
  rw [(collected_scan job records).before, hnumbered, (results_averages true _).1, samplesBefore,
    revisedLists]
  induction revised job (job.scan records).read with
  | nil => rfl
  | cons citations lists ih =>
    rw [List.map_cons, List.map_cons, List.filter_cons]
    by_cases hempty : (sampleBefore citations).averaged = []
    · simpa [hempty, mean?] using ih
    · simpa [hempty, Means.mean?_of_ne_nil] using ih

theorem flatMap_samplesBefore : (samplesBefore job records).flatMap Sample.members =
    (revisedLists job records).flatMap numbers := by
  rw [samplesBefore]
  induction revisedLists job records with
  | nil => rfl
  | cons citations lists ih =>
    have hmembers : (sampleBefore citations).members = numbers citations := List.append_nil _
    rw [List.map_cons, List.filter_cons, List.flatMap_cons, ← ih]
    by_cases hempty : (sampleBefore citations).averaged = []
    · have hnone : numbers citations = [] := hempty
      simp [hempty, hnone]
    · simp [hempty, hmembers]

theorem afterSims_eq (all : Bool) (hnone : none ∉ (job.scan records).afterSims) :
    (∀ g ∈ samplesAfter job records all, g.averaged ≠ []) ∧ (job.scan records).afterSims =
      ((samplesAfter job records all).map fun g => mean g.averaged).map some := by
  rw [(collected_scan job records).after, (results_averages all _).2] at hnone ⊢
  rw [samplesAfter, revisedLists]
  have hsome : ∀ citations ∈ revised job (job.scan records).read,
      (sampleAfter job all citations).averaged ≠ [] := by
    intro citations hcitations hempty
    refine hnone (List.mem_map.mpr ⟨citations, hcitations, ?_⟩)
    rw [hempty]
    rfl
  refine ⟨List.forall_mem_map.mpr hsome, ?_⟩
  rw [List.map_map, List.map_map]
  exact List.map_congr_left fun citations h => Means.mean?_of_ne_nil (hsome citations h)

/-- The averages of the summary are the means of the lists' means. -/
theorem reverify_eq (all : Bool) (hnone : none ∉ (job.scan records).afterSims) :
    (job.reverify records).2 = .ok { (job.scan records).summary with
      avgSimilarityBefore := mean? ((samplesBefore job records).map fun g => mean g.averaged)
      avgSimilarityAfter := mean? ((samplesAfter job records all).map fun g => mean g.averaged) } := by
  rw [ReverifyJob.reverify, (afterSims_eq all hnone).2, average_map_some, beforeSims_eq,
    average_map_some]
  rfl

variable (job records)

/-- A citation without an excerpt and without a similarity. -/
def bareCitation : Value :=
  .dict [("claim_text", .str "연차는 15일"), ("excerpt", .str ""), ("similarity", .null)]

end Promise

end DomainRag.ChatLogs
