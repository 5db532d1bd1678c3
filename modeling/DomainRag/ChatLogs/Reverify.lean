import Mathlib.Algebra.Order.Ring.Rat
import Mathlib.Data.List.Range
import DomainRag.Verifier.Reverifier

/-! # Re-verifying the chat log of a tenant

The service reads the log page by page, the latest records first, and writes every record back that
could be re-verified. The page size shrinks when fewer records than a page are left to be scanned,
while the number of the page goes on counting.
-/

namespace DomainRag.ChatLogs

open Verifier (Embedder ReverifyThresholds ReverifyResult)
open Verifier.CitationReverifier (reverifyOne)
open Value (setKey)

variable {V : Type}

/-- What re-verification reads and writes of a row of the chat log. -/
structure StoredLog where
  domainId : String
  requestId : String
  citations : List Value
  verifierMetrics : List (String × Value)

/-- A row as the reader hands it out, numbered from the oldest of its tenant. -/
structure ReadLog where
  index : Nat
  log : StoredLog

def tenantRows (domainId : String) (records : List StoredLog) : List StoredLog :=
  (records.filter (·.domainId = domainId)).reverse

/-- One page of the log of a tenant. Of the filters, re-verification sets the dates only, which rows
in memory do not have. -/
def InMemoryChatLogReader.listByTenant (records : List StoredLog) (domainId : String)
    (page pageSize : Nat) : List ReadLog :=
  let page := max 1 page
  let pageSize := max 1 (min pageSize 100)
  let rows := tenantRows domainId records
  let start := (page - 1) * pageSize
  ((rows.drop start).take pageSize).zipIdx start |>.map fun (log, i) => ⟨rows.length - 1 - i, log⟩

/-- The rows after an update, and how many it has reached. -/
def InMemoryChatLogCitationUpdater.update (records : List StoredLog)
    (domainId requestId : String) (citations : List Value)
    (verifierMetrics : List (String × Value)) : List StoredLog × Nat :=
  (records.map fun rec =>
      if rec.domainId = domainId ∧ rec.requestId = requestId then
        { rec with citations := citations, verifierMetrics := verifierMetrics }
      else rec,
    records.countP fun rec => rec.domainId = domainId ∧ rec.requestId = requestId)

structure ReverifyJobSummary where
  scanned : Nat := 0
  updated : Nat := 0
  skipped : Nat := 0
  upgraded : Nat := 0
  downgraded : Nat := 0
  avgSimilarityBefore : Option Rat := none
  avgSimilarityAfter : Option Rat := none
  failures : List (String × String) := []

/-- The arguments of `reverify`, with the parts that the service is built from; `now` is what the
clock shows after so many scanned records. -/
structure ReverifyJob (V : Type) where
  domainId : String
  actor : Value
  thresholds : ReverifyThresholds
  maxRecords : Nat
  embedder : Embedder V
  cosine : V → V → Rat
  round4 : Rat → Rat
  now : Nat → String

/-- The local variables of the loop and the log that it works on; `read` lists what the reader has
handed out so far. -/
structure Progress where
  records : List StoredLog
  summary : ReverifyJobSummary := {}
  beforeSims : List Rat := []
  afterSims : List (Option Rat) := []
  read : List ReadLog := []

namespace ReverifyJob

variable (job : ReverifyJob V)

def outcome (log : StoredLog) : Except Exc ReverifyResult :=
  reverifyOne job.embedder job.cosine job.round4 job.thresholds log.requestId log.citations

def metrics (scanned : Nat) (log : StoredLog) (out : ReverifyResult) : List (String × Value) :=
  setKey "reverified_by" job.actor (setKey "reverified_at" (.str (job.now scanned))
    (setKey "tier2_avg_similarity" ((out.avgSimilarityAfter.map Value.float).getD .null)
      log.verifierMetrics))

def applyOutcome (p : Progress) (log : StoredLog) (out : ReverifyResult) : Progress :=
  let (records, applied) := InMemoryChatLogCitationUpdater.update p.records job.domainId
    log.requestId out.citationsAfter (job.metrics p.summary.scanned log out)
  if 0 < applied then
    { p with
      records := records
      summary := { p.summary with
        updated := p.summary.updated + 1
        upgraded := p.summary.upgraded + out.upgraded
        downgraded := p.summary.downgraded + out.downgraded }
      beforeSims := p.beforeSims ++ out.avgSimilarityBefore.toList
      afterSims := p.afterSims ++ [out.avgSimilarityAfter] }
  else
    { p with
      records := records
      summary := { p.summary with skipped := p.summary.skipped + 1 } }

/-- The body of the loop over the records of a page. -/
def visit (p : Progress) (record : ReadLog) : Progress :=
  let p := { p with
    summary := { p.summary with scanned := p.summary.scanned + 1 }
    read := p.read ++ [record] }
  if record.log.citations = [] then
    { p with summary := { p.summary with skipped := p.summary.skipped + 1 } }
  else
    match job.outcome record.log with
    | .error e =>
      { p with summary := { p.summary with
          failures := p.summary.failures ++ [(record.log.requestId, e.message)] } }
    | .ok out => job.applyOutcome p record.log out

/-- The loop over the pages. Every round but the last scans a record, so that as many rounds as
there are records to be scanned are enough. -/
def loop : Nat → Nat → Progress → Progress
  | 0, _, p => p
  | fuel + 1, page, p =>
    if p.summary.scanned < job.maxRecords then
      let pageSize := min 20 (job.maxRecords - p.summary.scanned)
      let items := InMemoryChatLogReader.listByTenant p.records job.domainId page pageSize
      if items = [] then p
      else
        let p := items.foldl job.visit p
        if items.length < pageSize then p else loop fuel (page + 1) p
    else p

/-- The state of `reverify` after its loop. -/
def scan (records : List StoredLog) : Progress := job.loop job.maxRecords 1 { records := records }

def sum (sims : List (Option Rat)) : Except Exc Rat :=
  if sims.head? = some none then
    .error (.typeError "unsupported operand type(s) for +: 'int' and 'NoneType'")
  else if none ∈ sims then
    .error (.typeError "unsupported operand type(s) for +: 'float' and 'NoneType'")
  else .ok sims.reduceOption.sum

def average (sims : List (Option Rat)) : Except Exc (Option Rat) :=
  if sims = [] then .ok none
  else do return some ((← sum sims) / sims.length)

/-- The log after a call of `reverify`, and what the call returns. -/
def reverify (records : List StoredLog) : List StoredLog × Except Exc ReverifyJobSummary :=
  let p := job.scan records
  (p.records, do
    let before ← average (p.beforeSims.map some)
    let after ← average p.afterSims
    return { p.summary with avgSimilarityBefore := before, avgSimilarityAfter := after })

end ReverifyJob

section Paging

/-- The rows that a round of the loop reads, counted from the newest. -/
def fullPage (total page : Nat) : List Nat := List.range' (page * 20) (min 20 (total - page * 20))

/-- The round with fewer than twenty records to go, on a page of a smaller size. -/
def lastPage (total maxRecords : Nat) : List (List Nat) :=
  let full := maxRecords / 20
  let rest := maxRecords % 20
  if rest ≠ 0 ∧ full * 20 ≤ total then
    [List.range' (full * rest) (min rest (total - full * rest))]
  else []

def pagePositions (total maxRecords : Nat) : List (List Nat) :=
  (List.range (maxRecords / 20)).map (fullPage total) ++ lastPage total maxRecords

def rowAt (rows : List StoredLog) (i : Nat) : List ReadLog :=
  (rows[i]?.map fun log => ⟨rows.length - 1 - i, log⟩).toList

variable (job : ReverifyJob V) {p : Progress} {record : ReadLog} {records : List StoredLog}

/-- The rows at the given places are read at once and then visited one by one. -/
def servePage (p : Progress) (positions : List Nat) : Progress :=
  (positions.flatMap (rowAt (tenantRows job.domainId p.records))).foldl job.visit p

def keysOf (records : List StoredLog) : List (String × String) :=
  records.map fun rec => (rec.domainId, rec.requestId)

theorem keysOf_update (domainId requestId : String) (citations : List Value)
    (verifierMetrics : List (String × Value)) :
    keysOf (InMemoryChatLogCitationUpdater.update records domainId requestId citations
      verifierMetrics).1 = keysOf records := by
  rw [keysOf, keysOf, InMemoryChatLogCitationUpdater.update, List.map_map]
  apply List.map_congr_left
  intro rec _
  simp only [Function.comp_apply]
  split <;> rfl

theorem tenantRows_length (h : keysOf records = keysOf p.records) (domainId : String) :
    (tenantRows domainId records).length = (tenantRows domainId p.records).length := by
  have hcount : ∀ rs : List StoredLog, (tenantRows domainId rs).length =
      (keysOf rs).countP fun key => key.1 = domainId := by
    intro rs
    rw [tenantRows, List.length_reverse, ← List.countP_eq_length_filter, keysOf, List.countP_map]
    rfl
  rw [hcount, hcount, h]

/-- What every visit does, whatever comes of the record. -/
structure Visit (p : Progress) (record : ReadLog) (p' : Progress) : Prop where
  scanned : p'.summary.scanned = p.summary.scanned + 1
  read : p'.read = p.read ++ [record]
  keys : keysOf p'.records = keysOf p.records

theorem visit_visit (p : Progress) (record : ReadLog) : Visit p record (job.visit p record) := by
  rw [ReverifyJob.visit]
  split
  · exact ⟨rfl, rfl, rfl⟩
  · split
    · exact ⟨rfl, rfl, rfl⟩
    · simp only [ReverifyJob.applyOutcome]
      split
      · exact ⟨rfl, rfl, keysOf_update _ _ _ _⟩
      · exact ⟨rfl, rfl, keysOf_update _ _ _ _⟩

theorem foldl_visit (items : List ReadLog) (p : Progress) :
    (items.foldl job.visit p).summary.scanned = p.summary.scanned + items.length ∧
      (items.foldl job.visit p).read = p.read ++ items ∧
      keysOf (items.foldl job.visit p).records = keysOf p.records := by
  induction items generalizing p with
  | nil => simp
  | cons item items ih =>
    obtain ⟨hscanned, hread, hkeys⟩ := ih (job.visit p item)
    obtain ⟨hscanned', hread', hkeys'⟩ := visit_visit job p item
    rw [List.foldl_cons, hscanned, hread, hkeys, hscanned', hread', hkeys', List.length_cons,
      List.append_assoc]
    exact ⟨by omega, rfl, rfl⟩

theorem flatMap_rowAt (rows : List StoredLog) (start size : Nat) :
    (List.range' start (min size (rows.length - start))).flatMap (rowAt rows) =
      (((rows.drop start).take size).zipIdx start).map fun (log, i) =>
        ⟨rows.length - 1 - i, log⟩ := by
  have hlength : min size (rows.length - start) = ((rows.drop start).take size).length := by simp
  rw [hlength]
  have hat : ∀ i log, ((rows.drop start).take size)[i]? = some log → rows[start + i]? = some log := by
    intro i log h
    rw [List.getElem?_take] at h
    split at h
    · rwa [List.getElem?_drop] at h
    · cases h
  clear hlength
  generalize (rows.drop start).take size = page at hat
  induction page generalizing start with
  | nil => rfl
  | cons log page ih =>
    have hhead := hat 0 log rfl
    rw [Nat.add_zero] at hhead
    have htail := ih (start + 1) fun i log' h => by
      have hnext := hat (i + 1) log' h
      rwa [Nat.add_comm i 1, ← Nat.add_assoc] at hnext
    rw [List.length_cons, List.range'_succ, List.flatMap_cons, htail, rowAt, hhead]
    rfl

theorem length_flatMap_rowAt (rows : List StoredLog) (start size : Nat) :
    ((List.range' start (min size (rows.length - start))).flatMap (rowAt rows)).length =
      min size (rows.length - start) := by
  rw [flatMap_rowAt, List.length_map, List.length_zipIdx, List.length_take, List.length_drop]

theorem listByTenant_eq (total page size : Nat) (hsize : 0 < size) (hmax : size ≤ 100)
    (htotal : (tenantRows job.domainId records).length = total) :
    InMemoryChatLogReader.listByTenant records job.domainId (page + 1) size =
      (List.range' (page * size) (min size (total - page * size))).flatMap
        (rowAt (tenantRows job.domainId records)) := by
  have hpage : max 1 (page + 1) - 1 = page := by omega
  have hclamp : max 1 (min size 100) = size := by omega
  rw [← htotal, flatMap_rowAt, InMemoryChatLogReader.listByTenant, hpage, hclamp]

theorem drop_pagePositions {total maxRecords page : Nat} (h : page < maxRecords / 20) :
    (pagePositions total maxRecords).drop page =
      fullPage total page :: (pagePositions total maxRecords).drop (page + 1) := by
  have hlt : page < (pagePositions total maxRecords).length := by
    rw [pagePositions, List.length_append, List.length_map, List.length_range]
    omega
  rw [List.drop_eq_getElem_cons hlt]
  simp [pagePositions, List.getElem_append_left, h]

theorem drop_pagePositions_last (total maxRecords : Nat) :
    (pagePositions total maxRecords).drop (maxRecords / 20) = lastPage total maxRecords := by
  rw [pagePositions, List.drop_left' (by simp)]

theorem mem_drop_pagePositions {total maxRecords page : Nat} {positions : List Nat}
    (h : positions ∈ (pagePositions total maxRecords).drop page) (hpage : page ≤ maxRecords / 20) :
    (∃ n, page ≤ n ∧ n < maxRecords / 20 ∧ positions = fullPage total n) ∨
      positions ∈ lastPage total maxRecords := by
  rw [pagePositions, List.drop_append_of_le_length (by simpa using hpage), List.mem_append] at h
  obtain h | h := h
  · left
    rw [← List.map_drop] at h
    obtain ⟨n, hn, rfl⟩ := List.mem_map.mp h
    obtain ⟨i, hi⟩ := List.getElem?_of_mem hn
    rw [List.getElem?_drop] at hi
    obtain ⟨hlt, rfl⟩ := List.getElem?_eq_some_iff.mp hi
    rw [List.getElem_range]
    rw [List.length_range] at hlt
    exact ⟨page + i, by omega, hlt, rfl⟩
  · exact .inr h

/-- Beyond the end of the log nothing is read. -/
theorem foldl_beyond {total page : Nat} (hpage : page ≤ job.maxRecords / 20)
    (hbeyond : total < page * 20) (p : Progress) :
    ((pagePositions total job.maxRecords).drop page).foldl (servePage job) p = p := by
  have hempty : ∀ positions ∈ (pagePositions total job.maxRecords).drop page, positions = [] := by
    intro positions hmem
    obtain ⟨n, hn, hlt, rfl⟩ | hlast := mem_drop_pagePositions hmem hpage
    · have hnone : total - n * 20 = 0 := by omega
      rw [fullPage, hnone]
      rfl
    · rw [lastPage, if_neg fun h => by omega] at hlast
      cases hlast
  generalize (pagePositions total job.maxRecords).drop page = pages at hempty
  induction pages with
  | nil => rfl
  | cons positions pages ih =>
    rw [List.foldl_cons, hempty positions List.mem_cons_self]
    exact ih fun q hq => hempty q (List.mem_cons_of_mem _ hq)

/-- The loop serves its pages one after the other, whatever becomes of the records. -/
theorem loop_eq {total : Nat} (fuel page : Nat) (p : Progress)
    (htotal : (tenantRows job.domainId p.records).length = total)
    (hscanned : p.summary.scanned = page * 20) (hread : page * 20 ≤ total)
    (hpage : page ≤ job.maxRecords / 20) (hfuel : job.maxRecords ≤ fuel + page * 20) :
    job.loop fuel (page + 1) p =
      ((pagePositions total job.maxRecords).drop page).foldl (servePage job) p := by
  induction fuel generalizing page p with
  | zero =>
    have hlast : page = job.maxRecords / 20 := by omega
    have hrest : job.maxRecords % 20 = 0 := by omega
    rw [hlast, drop_pagePositions_last, lastPage, if_neg fun h => h.1 hrest]
    rfl
  | succ fuel ih =>
    rw [ReverifyJob.loop, hscanned]
    split
    · rename_i hmore
      dsimp only
      generalize hsize : min 20 (job.maxRecords - page * 20) = size
      have hlist := listByTenant_eq job total page size (by omega) (by omega) htotal
      have hlength := length_flatMap_rowAt (tenantRows job.domainId p.records) (page * size) size
      rw [htotal, ← hlist] at hlength
      generalize hitems :
        InMemoryChatLogReader.listByTenant p.records job.domainId (page + 1) size = items at *
      have hserve : items.foldl job.visit p = servePage job p
          (List.range' (page * size) (min size (total - page * size))) := by
        rw [servePage, ← hlist]
      obtain ⟨hscanned', -, hkeys⟩ := foldl_visit job items p
      rw [hlength] at hscanned' ⊢
      by_cases hfull : page < job.maxRecords / 20
      · -- a full page: size 20
        obtain rfl : size = 20 := by omega
        rw [drop_pagePositions hfull, List.foldl_cons, fullPage, ← hserve]
        split
        · rename_i hnone
          rw [hnone, List.length_nil] at hlength
          rw [foldl_beyond job hfull (by omega), hnone]
          rfl
        · split
          · rw [foldl_beyond job hfull (by omega)]
          · exact ih (page + 1) _ ((tenantRows_length hkeys _).trans htotal) (by omega) (by omega)
              hfull (by omega)
      · -- the last page, whose offset is counted in its own size
        obtain rfl : page = job.maxRecords / 20 := by omega
        have hrest : size = job.maxRecords % 20 := by omega
        have hlast : lastPage total job.maxRecords = [List.range' (job.maxRecords / 20 * size)
            (min size (total - job.maxRecords / 20 * size))] := by
          rw [hrest]
          exact if_pos ⟨by omega, hread⟩
        rw [drop_pagePositions_last, hlast, List.foldl_cons, List.foldl_nil, ← hserve]
        split
        · rename_i hnone
          rw [hnone]
          rfl
        · split
          · rfl
          · have hdone : (items.foldl job.visit p).summary.scanned = job.maxRecords := by omega
            cases fuel with
            | zero => rfl
            | succ fuel => rw [ReverifyJob.loop, hdone, if_neg (lt_irrefl _)]
    · have hlast : page = job.maxRecords / 20 := by omega
      have hrest : job.maxRecords % 20 = 0 := by omega
      rw [hlast, drop_pagePositions_last, lastPage, if_neg fun h => h.1 hrest]
      rfl

theorem scan_eq (records : List StoredLog) : job.scan records =
    (pagePositions (tenantRows job.domainId records).length job.maxRecords).foldl (servePage job)
      { records := records } := by
  rw [ReverifyJob.scan]
  exact loop_eq job _ 0 _ rfl rfl (Nat.zero_le _) (Nat.zero_le _) (by omega)

/-- Every round reads rows that exist. -/
theorem lt_of_mem_pagePositions {total maxRecords : Nat} {positions : List Nat}
    (h : positions ∈ pagePositions total maxRecords) {i : Nat} (hi : i ∈ positions) : i < total := by
  obtain ⟨n, -, -, rfl⟩ | hlast := @mem_drop_pagePositions _ _ 0 _ h (Nat.zero_le _)
  · have hi := List.mem_range'_1.mp hi
    omega
  · rw [lastPage] at hlast
    split at hlast
    · obtain rfl := List.mem_singleton.mp hlast
      have hi := List.mem_range'_1.mp hi
      omega
    · cases hlast

theorem indices_rowAt (rows : List StoredLog) (positions : List Nat)
    (h : ∀ i ∈ positions, i < rows.length) : (positions.flatMap (rowAt rows)).map ReadLog.index =
      positions.map fun i => rows.length - 1 - i := by
  induction positions with
  | nil => rfl
  | cons i positions ih =>
    rw [List.flatMap_cons, List.map_append, ih fun j hj => h j (List.mem_cons_of_mem i hj), rowAt,
      List.getElem?_eq_getElem (h i List.mem_cons_self)]
    rfl

/-- What serving pages reads and counts, whatever becomes of the records. -/
theorem foldl_servePage {total : Nat} (pages : List (List Nat))
    (hpages : ∀ positions ∈ pages, ∀ i ∈ positions, i < total) (p : Progress)
    (htotal : (tenantRows job.domainId p.records).length = total) :
    (pages.foldl (servePage job) p).read.map ReadLog.index =
        p.read.map ReadLog.index ++ pages.flatten.map (fun i => total - 1 - i) ∧
      (pages.foldl (servePage job) p).summary.scanned =
        p.summary.scanned + pages.flatten.length := by
  induction pages generalizing p with
  | nil => simp
  | cons positions pages ih =>
    have hbound := hpages positions List.mem_cons_self
    rw [← htotal] at hbound
    have hindices := indices_rowAt (tenantRows job.domainId p.records) positions hbound
    obtain ⟨hscanned, hread, hkeys⟩ := foldl_visit job
      (positions.flatMap (rowAt (tenantRows job.domainId p.records))) p
    have hlength := congrArg List.length hindices
    rw [List.length_map, List.length_map] at hlength
    obtain ⟨hread', hscanned'⟩ := ih (fun q hq => hpages q (List.mem_cons_of_mem _ hq))
      (servePage job p positions) ((tenantRows_length hkeys _).trans htotal)
    rw [List.foldl_cons, hread', hscanned', servePage, hread, hscanned, List.map_append, hindices,
      htotal, hlength]
    simp [List.append_assoc, Nat.add_assoc]

theorem flatten_fullPages (total pages : Nat) :
    ((List.range pages).map (fullPage total)).flatten = List.range (min total (pages * 20)) := by
  induction pages with
  | zero => simp
  | succ pages ih =>
    rw [List.range_succ, List.map_append, List.flatten_append, ih, List.map_singleton,
      List.flatten_singleton, fullPage, List.range_eq_range', List.range_eq_range']
    obtain hbeyond | hwithin := Nat.lt_or_ge total (pages * 20)
    · have hnone : total - pages * 20 = 0 := by omega
      have hsame : min total ((pages + 1) * 20) = min total (pages * 20) := by omega
      rw [hnone, hsame]
      simp
    · have hstart : min total (pages * 20) = pages * 20 := by omega
      have hsum : min total ((pages + 1) * 20) = pages * 20 + min 20 (total - pages * 20) := by omega
      rw [hstart, hsum]
      simpa using @List.range'_append_1 0 (pages * 20) (min 20 (total - pages * 20))

end Paging

section Coverage

variable (job : ReverifyJob V) (records : List StoredLog)

/-- A call of `reverify` has visited the newest records of the tenant, as many as it may, each
once. -/
structure CoversNewest (total : Nat) : Prop where
  once : ((job.scan records).read.map ReadLog.index).Nodup
  newest : ∀ i, i ∈ (job.scan records).read.map ReadLog.index ↔
    total - min total job.maxRecords ≤ i ∧ i < total
  scanned : (job.scan records).summary.scanned = min total job.maxRecords
  summary : ∀ summary, (job.reverify records).2 = .ok summary →
    summary.scanned = min total job.maxRecords

/-- The numbers of records for which the last page of a smaller size is not read, or is the first. -/
def Aligned (total maxRecords : Nat) : Prop :=
  maxRecords ≤ 20 ∨ maxRecords % 20 = 0 ∨ total < maxRecords / 20 * 20

theorem flatten_of_aligned {total maxRecords : Nat} (h : Aligned total maxRecords) :
    (pagePositions total maxRecords).flatten = List.range (min total maxRecords) := by
  rw [pagePositions, List.flatten_append, flatten_fullPages, lastPage]
  split
  · rename_i hlast
    have hsmall : maxRecords / 20 = 0 := by
      obtain h | h | h := h <;> omega
    have hrest : maxRecords % 20 = maxRecords := by omega
    rw [hsmall, hrest, Nat.min_comm maxRecords]
    simp [List.range_eq_range']
  · have hmin : min total (maxRecords / 20 * 20) = min total maxRecords := by omega
    rw [hmin, List.flatten_nil, List.append_nil]

/-- The smaller last page begins within the pages before it. -/
theorem not_nodup_of_not_aligned {total maxRecords : Nat} (h : ¬ Aligned total maxRecords) :
    ¬ (pagePositions total maxRecords).flatten.Nodup := by
  simp only [Aligned, not_or, not_le, not_lt] at h
  obtain ⟨hlarge, hrest, htotal⟩ := h
  intro hnodup
  rw [pagePositions, List.flatten_append, flatten_fullPages, lastPage, if_pos ⟨hrest, htotal⟩,
    List.flatten_singleton, List.nodup_append] at hnodup
  have hstart : maxRecords / 20 * (maxRecords % 20) < maxRecords / 20 * 20 :=
    Nat.mul_lt_mul_of_pos_left (by omega) (by omega)
  refine hnodup.2.2 (maxRecords / 20 * (maxRecords % 20)) (List.mem_range.mpr (by omega)) _ ?_ rfl
  rw [List.mem_range'_1]
  omega

/-- The newest records are visited once each exactly when the page size never shrinks after a full
page. -/
theorem reverify_coversNewest_iff :
    CoversNewest job records (tenantRows job.domainId records).length ↔
      Aligned (tenantRows job.domainId records).length job.maxRecords := by
  obtain ⟨hread, hscanned⟩ := foldl_servePage job
    (pagePositions (tenantRows job.domainId records).length job.maxRecords)
    (fun positions hmem i hi => lt_of_mem_pagePositions hmem hi) { records := records } rfl
  rw [← scan_eq] at hread hscanned
  generalize (tenantRows job.domainId records).length = total at hread hscanned ⊢
  rw [List.map_nil, List.nil_append] at hread
  constructor
  · intro h
    by_contra hunaligned
    have honce := h.once
    rw [hread] at honce
    exact not_nodup_of_not_aligned hunaligned honce.of_map
  · intro h
    rw [flatten_of_aligned h] at hread hscanned
    have hcount : (job.scan records).summary.scanned = min total job.maxRecords := by
      rw [hscanned, List.length_range]
      exact Nat.zero_add _
    refine ⟨?_, fun i => ?_, hcount, fun summary hsummary => ?_⟩
    · rw [hread]
      refine List.Nodup.map_on (fun i hi j hj hij => ?_) List.nodup_range
      rw [List.mem_range] at hi hj
      omega
    · rw [hread, List.mem_map]
      constructor
      · rintro ⟨j, hj, rfl⟩
        rw [List.mem_range] at hj
        omega
      · rintro ⟨hlow, hhigh⟩
        exact ⟨total - 1 - i, List.mem_range.mpr (by omega), by omega⟩
    · obtain ⟨before, -, hsummary⟩ := Except.bind_eq_ok_iff.mp hsummary
      obtain ⟨after, -, hsummary⟩ := Except.bind_eq_ok_iff.mp hsummary
      cases hsummary
      exact hcount

/-- A call that does nothing but read: no record has a citation. -/
def readingJob (maxRecords : Nat) : ReverifyJob Unit where
  domainId := "hr"
  actor := .str "admin"
  thresholds := ⟨3 / 4, 11 / 20⟩
  maxRecords := maxRecords
  embedder := .ofFn fun _ => ()
  cosine := fun _ _ => 1
  round4 := id
  now := fun _ => ""

def bareLogs (n : Nat) : List StoredLog := List.replicate n ⟨"hr", "r", [], []⟩

/-- Of twenty-one records the oldest is never visited, and another one is visited twice. -/
theorem shrunk_page_revisits : (tenantRows "hr" (bareLogs 21)).length = 21 ∧
    ¬ CoversNewest (readingJob 21) (bareLogs 21) 21 := by
  refine ⟨rfl, fun h => ?_⟩
  have hread : ((readingJob 21).scan (bareLogs 21)).read.map ReadLog.index =
      (List.range' 1 20).reverse ++ [19] := by
    decide +kernel
  have honce := h.once
  rw [hread] at honce
  revert honce
  decide

end Coverage

end DomainRag.ChatLogs
