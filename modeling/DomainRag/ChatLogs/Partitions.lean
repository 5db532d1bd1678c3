import Mathlib.Data.List.Induction
import DomainRag.Lib.IsoDate
import DomainRag.Lib.RangePartition
import DomainRag.Lib.Threads
import DomainRag.ChatLogs.Erasure

/-! # The months of the chat log

The chat log has one partition for each month, and a row of a month without one is refused. A job
creates the partition of the month to come, in sessions that other runs of it and the writers of the
log interleave with. The writer that the service uses swallows what the database refuses.
-/

namespace DomainRag.ChatLogs

open Program PostgresChatLogWriter

/-- A month of `datetime.date`. -/
structure CalendarMonth where
  year : Nat
  month : Nat
  year_pos : 1 ≤ year
  year_le : year ≤ 9999
  month_pos : 1 ≤ month
  month_le : month ≤ 12
  deriving DecidableEq

def CalendarMonth.index (m : CalendarMonth) : Nat := 12 * m.year + m.month

/-- `date(year, month, 1)` -/
def firstOfMonth (year month : Nat) : Except Exc CalendarMonth :=
  if hyear : 1 ≤ year ∧ year ≤ 9999 then
    if hmonth : 1 ≤ month ∧ month ≤ 12 then
      .ok ⟨year, month, hyear.1, hyear.2, hmonth.1, hmonth.2⟩
    else .error ⟨"ValueError", "month must be in 1..12"⟩
  else .error ⟨"ValueError", s!"year {year} is out of range"⟩

def nextMonth (today : CalendarMonth) : Nat × Nat :=
  if today.month = 12 then (today.year + 1, 1) else (today.year, today.month + 1)

def partitionRange (year month : Nat) : Except Exc (CalendarMonth × CalendarMonth) := do
  let start ← firstOfMonth year month
  let stop ← if month = 12 then firstOfMonth (year + 1) 1 else firstOfMonth year (month + 1)
  return (start, stop)

def partitionName (m : CalendarMonth) : String :=
  String.ofList
    ("chat_logs_y".toList ++ (Date.digits 4 m.year ++ 'm' :: Date.digits 2 m.month))

structure PartitionResult where
  targetYear : Nat
  targetMonth : Nat
  partitionName : String
  rangeStart : CalendarMonth
  rangeEnd : CalendarMonth
  created : Bool
  skippedReason : Option String := none
  deriving DecidableEq

/-- The time zone of the database, in which the literals of the bounds are read: the first instant
of every month. -/
structure Zone where
  midnight : Nat → Nat
  strictMono : StrictMono midnight

def Zone.partition (zone : Zone) : CalendarMonth → RangePartition String Nat :=
  RangePartitions.cell zone.midnight CalendarMonth.index partitionName

/-- The month of an instant. -/
def Zone.Within (zone : Zone) (m : CalendarMonth) (instant : Nat) : Prop :=
  zone.midnight m.index ≤ instant ∧ instant < zone.midnight (m.index + 1)

structure LostWrite where
  domainId : String
  requestId : String
  userId : Option String
  uiMode : Value
  excType : String
  excMsg : String

/-- The tables and the partitions of the chat log, with the counters of the writer's module. -/
structure LogStore where
  tables : ChatTables := .empty
  partitions : RangePartitions String Nat
  writeFailuresTotal : Nat := 0
  deadLetters : List LostWrite := []

/-- `deque(maxlen=100)` -/
def pushLetter (letters : List LostWrite) (letter : LostWrite) : List LostWrite :=
  (letters ++ [letter]).drop (letters.length + 1 - 100)

def noPartition : Exc :=
  ⟨"IntegrityError", "no partition of relation \"chat_logs\" found for row"⟩

namespace LogStore

variable (s : LogStore)

/-- What the transaction of a write leaves: all of its rows, or none. -/
def insert (w : Write) : Except Exc (String × ChatTables) :=
  match PostgresChatLogWriter.write w s.tables with
  | .error e _ => .error e
  | .ok id tables =>
    if (s.partitions.route? w.now).isSome then .ok (id, tables) else .error noPartition

def lost (w : Write) (e : Exc) : LostWrite where
  domainId := w.payload.domainId
  requestId := w.payload.requestId
  userId := w.payload.userId
  uiMode := w.payload.columns.uiMode
  excType := e.typeName
  excMsg := e.message

/-- The writer of the service. -/
def bestEffortWrite (w : Write) (hex : String) : LogStore × String :=
  match s.insert w with
  | .ok (id, tables) => ({ s with tables := tables }, id)
  | .error e =>
    ({ s with
        writeFailuresTotal := s.writeFailuresTotal + 1
        deadLetters := pushLetter s.deadLetters (lost w e) },
      if w.payload.conversationId.getD "" = "" then "unsaved-" ++ hex
      else w.payload.conversationId.getD "")

end LogStore

inductive LogCall where
  | ensure (year month : Nat)
  | ensureNext (today : CalendarMonth)
  | write (w : Write) (hex : String)

inductive LogStage where
  | ensuring (year month : Nat)
  | looking (start stop : CalendarMonth)
  | creating (start stop : CalendarMonth)
  | unlocking (result : PartitionResult)
  | ensured (result : PartitionResult)
  | raised (e : Exc)
  | writing (w : Write) (hex : String)
  | written (conversationId : String)

/-- What a session of a run meets: whether the advisory lock is free, and what it raises. -/
structure LogTurn where
  gotLock : Bool := true
  fault : Option Exc := none

def overlapping : Exc := ⟨"ProgrammingError", "partition would overlap another partition"⟩

section Calls

variable (start stop : CalendarMonth)

def PartitionResult.of (created : Bool) (skippedReason : Option String) : PartitionResult where
  targetYear := start.year
  targetMonth := start.month
  partitionName := DomainRag.ChatLogs.partitionName start
  rangeStart := start
  rangeEnd := stop
  created := created
  skippedReason := skippedReason

/-- `CREATE TABLE IF NOT EXISTS … PARTITION OF chat_logs FOR VALUES FROM … TO …` -/
def LogStore.createPartition (zone : Zone) (s : LogStore) : Except Exc LogStore :=
  match s.partitions.attach
    ⟨partitionName start, zone.midnight start.index, zone.midnight stop.index⟩ with
  | .ok partitions => .ok { s with partitions := partitions }
  | .error _ => .error overlapping

end Calls

def LogCall.enter : LogCall → LogStage
  | ensure year month => .ensuring year month
  | ensureNext today => .ensuring (nextMonth today).1 (nextMonth today).2
  | write w hex => .writing w hex

/-- The sessions of `ensure_partition` and of a write, one step each. -/
def logStep (zone : Zone) (turn : LogTurn) (s : LogStore) : LogStage → LogStore × LogStage
  | .ensuring year month =>
    match partitionRange year month, turn.fault with
    | .error e, _ => (s, .raised e)
    | .ok _, some e => (s, .raised e)
    | .ok (start, stop), none =>
      (s, if turn.gotLock then .looking start stop
        else .ensured (.of start stop false (some "advisory_lock_busy")))
  | .looking start stop =>
    match turn.fault with
    | some e => (s, .raised e)
    | none =>
      (s, if partitionName start ∈ s.partitions.parts.map RangePartition.name then
          .unlocking (.of start stop false (some "already_exists"))
        else .creating start stop)
  | .creating start stop =>
    match turn.fault, s.createPartition start stop zone with
    | some e, _ => (s, .raised e)
    | none, .error e => (s, .raised e)
    | none, .ok s' => (s', .unlocking (.of start stop true none))
  | .unlocking result =>
    match turn.fault with
    | some e => (s, .raised e)
    | none => (s, .ensured result)
  | .writing w hex =>
    let (s', id) := s.bestEffortWrite w hex
    (s', .written id)
  | .ensured result => (s, .ensured result)
  | .raised e => (s, .raised e)
  | .written id => (s, .written id)

def chatLogs (zone : Zone) : Threads LogStore LogStage LogCall LogTurn where
  enter := LogCall.enter
  step := logStep zone

def may2026 : CalendarMonth := ⟨2026, 5, by decide, by decide, by decide, by decide⟩

/-- The store of the first migration. -/
def Zone.migrated (zone : Zone) : LogStore where
  partitions := ⟨[zone.partition may2026], List.pairwise_singleton _ _, List.nodup_singleton _⟩

def LogCall.month? : LogCall → Option CalendarMonth
  | ensure year month => (partitionRange year month).toOption.map Prod.fst
  | ensureNext today => (partitionRange (nextMonth today).1 (nextMonth today).2).toOption.map Prod.fst
  | write .. => none

/-- Some run was asked for the partition of the month. -/
def Asked (moves : List (Move LogCall LogTurn)) (m : CalendarMonth) : Prop :=
  m = may2026 ∨ ∃ call, .start call ∈ moves ∧ call.month? = some m

/-- What holds of the store after any moves. -/
structure Served (zone : Zone) (moves : List (Move LogCall LogTurn)) (s : LogStore) : Prop where
  cells : ∀ p ∈ s.partitions.parts, ∃ m, p = zone.partition m ∧ Asked moves m
  first : zone.partition may2026 ∈ s.partitions.parts
  placed : ∀ row ∈ s.tables.logs, ∃ p ∈ s.partitions.parts, p.Covers row.createdAt
  letters : s.deadLetters.length = min s.writeFailuresTotal 100

/-- What a run that was cut short raised is the error of a date, or that of its session. -/
def Excused (moves : List (Move LogCall LogTurn)) (e : Exc) : Prop :=
  (∃ year month, partitionRange year month = .error e) ∨
    ∃ i turn, .advance i turn ∈ moves ∧ turn.fault = some e

/-- Some run has ended that did not leave the month to another one. -/
def Provided (p : Pool LogStore LogStage) (m : CalendarMonth) : Prop :=
  m = may2026 ∨ ∃ result, .ensured result ∈ p.threads ∧ result.rangeStart = m ∧
    result.skippedReason ≠ some "advisory_lock_busy"

/-- What a month needs for its rows: a run that provides it comes before them, and without a run
that was asked for it they are lost, while the question is answered all the same. -/
structure MonthsKept (zone : Zone) (moves : List (Move LogCall LogTurn))
    (p : Pool LogStore LogStage) : Prop where
  placed : ∀ row ∈ p.shared.tables.logs,
    ∃! part, part ∈ p.shared.partitions.parts ∧ part.Covers row.createdAt
  excused : ∀ e, .raised e ∈ p.threads → Excused moves e
  asked : ∀ part ∈ p.shared.partitions.parts, ∃ m, part = zone.partition m ∧ Asked moves m
  kept : ∀ i turn w hex m, p.threads[i]? = some (.writing w hex) → zone.Within m w.now →
    Provided p m →
      ((chatLogs zone).move p (.advance i turn)).shared.tables = after p.shared.tables w
  lost : ∀ i turn w hex, p.threads[i]? = some (.writing w hex) →
    (∀ m, zone.Within m w.now → ¬ Asked moves m) →
      ((chatLogs zone).move p (.advance i turn)).shared.tables = p.shared.tables ∧
      ((chatLogs zone).move p (.advance i turn)).shared.writeFailuresTotal =
        p.shared.writeFailuresTotal + 1
  answered : ∀ i turn w hex, p.threads[i]? = some (.writing w hex) →
    ∃ id, ((chatLogs zone).move p (.advance i turn)).threads[i]? = some (.written id)
  letters : p.shared.deadLetters.length = min p.shared.writeFailuresTotal 100

def LogStage.Fits (zone : Zone) (moves : List (Move LogCall LogTurn)) (s : LogStore) :
    LogStage → Prop
  | .ensuring year month =>
    ∀ start stop, partitionRange year month = .ok (start, stop) → Asked moves start
  | .looking start stop => Asked moves start ∧ stop.index = start.index + 1
  | .creating start stop => Asked moves start ∧ stop.index = start.index + 1
  | .unlocking result => result.skippedReason ≠ some "advisory_lock_busy" →
    zone.partition result.rangeStart ∈ s.partitions.parts
  | .ensured result => result.skippedReason ≠ some "advisory_lock_busy" →
    zone.partition result.rangeStart ∈ s.partitions.parts
  | .raised e => Excused moves e
  | .writing .. => True
  | .written _ => True

section Months

theorem CalendarMonth.index_injective : Function.Injective CalendarMonth.index := by
  intro m m' h
  have hm := m.month_pos
  have hm' := m'.month_pos
  have hle := m.month_le
  have hle' := m'.month_le
  simp only [index] at h
  have hyear : m.year = m'.year := by omega
  have hmonth : m.month = m'.month := by omega
  cases m
  cases m'
  simp only at hyear hmonth
  subst hyear hmonth
  rfl

theorem partitionName_injective : Function.Injective partitionName := by
  intro m m' h
  have hdigits := List.append_cancel_left (String.ofList_injective h)
  have hlength : (Date.digits 4 m.year).length = (Date.digits 4 m'.year).length := by
    rw [Date.length_digits, Date.length_digits]
  obtain ⟨hyear, hrest⟩ := List.append_inj hdigits hlength
  have hmonth := (List.cons.inj hrest).2
  rw [Date.digits_eq_iff] at hyear hmonth
  have hle := m.year_le
  have hle' := m'.year_le
  have hmle := m.month_le
  have hmle' := m'.month_le
  apply CalendarMonth.index_injective
  simp only [CalendarMonth.index]
  omega

theorem firstOfMonth_ok {year month : Nat} {m : CalendarMonth}
    (h : firstOfMonth year month = .ok m) : m.year = year ∧ m.month = month := by
  rw [firstOfMonth] at h
  split at h
  · split at h
    · cases h
      exact ⟨rfl, rfl⟩
    · cases h
  · cases h

/-- A range reaches to the next month. -/
theorem partitionRange_ok {year month : Nat} {start stop : CalendarMonth}
    (h : partitionRange year month = .ok (start, stop)) : stop.index = start.index + 1 := by
  rw [partitionRange] at h
  cases hstart : firstOfMonth year month with
  | error e =>
    rw [hstart] at h
    cases h
  | ok first =>
    obtain ⟨rfl, rfl⟩ := firstOfMonth_ok hstart
    rw [hstart] at h
    split at h
    · rename_i hlast
      cases hstop : firstOfMonth (first.year + 1) 1 with
      | error e =>
        simp only [hstop] at h
        cases h
      | ok last =>
        simp only [hstop] at h
        cases h
        obtain ⟨hyear, hmonth⟩ := firstOfMonth_ok hstop
        simp only [CalendarMonth.index]
        omega
    · cases hstop : firstOfMonth first.year (first.month + 1) with
      | error e =>
        simp only [hstop] at h
        cases h
      | ok last =>
        simp only [hstop] at h
        cases h
        obtain ⟨hyear, hmonth⟩ := firstOfMonth_ok hstop
        simp only [CalendarMonth.index]
        omega

variable {zone : Zone} {m : CalendarMonth} {start stop : CalendarMonth} {s : LogStore}

theorem Zone.covers_partition_iff {instant : Nat} :
    (zone.partition m).Covers instant ↔ zone.Within m instant := Iff.rfl

theorem createPartition_ok (zone : Zone) (s : LogStore)
    (hcells : ∀ p ∈ s.partitions.parts, ∃ m, p = zone.partition m)
    (hstop : stop.index = start.index + 1) :
    ∃ partitions, s.createPartition start stop zone = .ok { s with partitions := partitions } ∧
      ∀ p, p ∈ partitions.parts ↔ p = zone.partition start ∨ p ∈ s.partitions.parts := by
  obtain ⟨partitions, hattach, hparts⟩ := RangePartitions.attach_cell zone.strictMono
    CalendarMonth.index_injective partitionName_injective hcells start
  refine ⟨partitions, ?_, hparts⟩
  rw [LogStore.createPartition, hstop]
  change (match s.partitions.attach (RangePartitions.cell zone.midnight CalendarMonth.index
    partitionName start) with | .ok partitions => _ | .error _ => _) = _
  rw [hattach]

end Months

section Writes

variable {zone : Zone} {s : LogStore} {w : Write} {hex : String}

/-- A row that has a place is stored as in a table without partitions. -/
theorem insert_of_covered {p : RangePartition String Nat} (hp : p ∈ s.partitions.parts)
    (hcovers : p.Covers w.now) : (∃ id, s.insert w = .ok (id, after s.tables w)) ∨
      ∃ e, s.insert w = .error e ∧ after s.tables w = s.tables := by
  have hroute := RangePartitions.route?_eq_some_iff.mpr ⟨hp, hcovers⟩
  rw [LogStore.insert, hroute]
  have hafter := after_eq s.tables w
  rw [after, Program.final] at hafter ⊢
  cases hwrite : PostgresChatLogWriter.write w s.tables with
  | ok id tables => exact .inl ⟨id, rfl⟩
  | error e tables =>
    right
    refine ⟨e, rfl, ?_⟩
    rw [hwrite] at hafter
    simp only at hafter ⊢
    rw [hafter, stored]
    split
    · rename_i hfault hconversation
      rw [write, hfault, failing, get_bind_apply, hconversation] at hwrite
      cases hwrite
    · rfl

theorem insert_of_not_covered (h : ∀ p ∈ s.partitions.parts, ¬ p.Covers w.now) :
    ∃ e, s.insert w = .error e := by
  have hroute : s.partitions.route? w.now = none := by
    rw [Option.eq_none_iff_forall_not_mem]
    intro p hp
    obtain ⟨hmem, hcovers⟩ := RangePartitions.route?_eq_some_iff.mp hp
    exact h p hmem hcovers
  rw [LogStore.insert, hroute]
  split
  · exact ⟨_, rfl⟩
  · exact ⟨_, rfl⟩

theorem length_pushLetter {letters : List LostWrite} {n : Nat} (letter : LostWrite)
    (h : letters.length = min n 100) : (pushLetter letters letter).length = min (n + 1) 100 := by
  rw [pushLetter, List.length_drop, List.length_append, List.length_singleton, h]
  omega

/-- A row of the log is new with the time of its write, or was there before. -/
theorem mem_logs_insert {id : String} {tables : ChatTables} (h : s.insert w = .ok (id, tables)) :
    (∃ p ∈ s.partitions.parts, p.Covers w.now) ∧
      ∀ row ∈ tables.logs, row ∈ s.tables.logs ∨ row.createdAt = w.now := by
  rw [LogStore.insert] at h
  cases hwrite : PostgresChatLogWriter.write w s.tables with
  | error e tables' =>
    rw [hwrite] at h
    cases h
  | ok id' tables' =>
    rw [hwrite] at h
    simp only at h
    split at h
    · rename_i hroute
      cases h
      obtain ⟨p, hp⟩ := Option.isSome_iff_exists.mp hroute
      obtain ⟨hmem, hcovers⟩ := RangePartitions.route?_eq_some_iff.mp hp
      refine ⟨⟨p, hmem, hcovers⟩, fun row hrow => ?_⟩
      have htables : after s.tables w = tables := by rw [after, Program.final, hwrite]
      obtain heq | ⟨_, _, _, _, _, _, hlogs⟩ := after_cases s.tables w
      · rw [← htables, heq] at hrow
        exact .inl hrow
      · rw [← htables, hlogs] at hrow
        obtain hrow | hrow := List.mem_append.mp hrow
        · exact .inl hrow
        · rw [List.mem_singleton.mp hrow]
          exact .inr rfl
    · cases h

variable {moves moves' : List (Move LogCall LogTurn)}

theorem Served.bestEffortWrite (h : Served zone moves s) (w : Write) (hex : String) :
    Served zone moves (s.bestEffortWrite w hex).1 ∧
      (s.bestEffortWrite w hex).1.partitions = s.partitions := by
  rw [LogStore.bestEffortWrite]
  cases hinsert : s.insert w with
  | error e => exact ⟨⟨h.cells, h.first, h.placed, length_pushLetter _ h.letters⟩, rfl⟩
  | ok stored =>
    obtain ⟨hcovered, hrows⟩ := mem_logs_insert hinsert
    refine ⟨⟨h.cells, h.first, fun row hrow => ?_, h.letters⟩, rfl⟩
    obtain hold | hnow := hrows row hrow
    · exact h.placed row hold
    · rw [hnow]
      exact hcovered

theorem Asked.mono {m : CalendarMonth} (h : Asked moves m)
    (hmoves : ∀ move ∈ moves, move ∈ moves') : Asked moves' m := by
  obtain h | ⟨call, hcall, hmonth⟩ := h
  · exact .inl h
  · exact .inr ⟨call, hmoves _ hcall, hmonth⟩

theorem Served.mono (h : Served zone moves s) (hmoves : ∀ move ∈ moves, move ∈ moves') :
    Served zone moves' s := by
  refine ⟨fun p hp => ?_, h.first, h.placed, h.letters⟩
  obtain ⟨m, hm, hasked⟩ := h.cells p hp
  exact ⟨m, hm, hasked.mono hmoves⟩

theorem LogStage.Fits.mono {l : LogStage} {s' : LogStore} (h : l.Fits zone moves s)
    (hmoves : ∀ move ∈ moves, move ∈ moves')
    (hparts : ∀ p ∈ s.partitions.parts, p ∈ s'.partitions.parts) : l.Fits zone moves' s' := by
  cases l with
  | ensuring year month => exact fun start stop hrange => (h start stop hrange).mono hmoves
  | looking start stop => exact ⟨h.1.mono hmoves, h.2⟩
  | creating start stop => exact ⟨h.1.mono hmoves, h.2⟩
  | unlocking result => exact fun hreason => hparts _ (h hreason)
  | ensured result => exact fun hreason => hparts _ (h hreason)
  | raised e =>
    obtain h | ⟨i, turn, hturn, hfault⟩ := h
    · exact .inl h
    · exact .inr ⟨i, turn, hmoves _ hturn, hfault⟩
  | writing w hex => trivial
  | written id => trivial

end Writes

section Runs

variable {zone : Zone} {moves : List (Move LogCall LogTurn)} {s : LogStore} {l : LogStage}
  {turn : LogTurn}

/-- What one step keeps. -/
structure StepServed (zone : Zone) (moves : List (Move LogCall LogTurn)) (s : LogStore)
    (after : LogStore × LogStage) : Prop where
  served : Served zone moves after.1
  fits : after.2.Fits zone moves after.1
  grown : ∀ p ∈ s.partitions.parts, p ∈ after.1.partitions.parts

theorem StepServed.still (h : Served zone moves s) {l : LogStage} (hl : l.Fits zone moves s) :
    StepServed zone moves s (s, l) := ⟨h, hl, fun _ hp => hp⟩

theorem logStep_served (h : Served zone moves s) (hl : l.Fits zone moves s)
    (hturn : ∃ i, .advance i turn ∈ moves) : StepServed zone moves s (logStep zone turn s l) := by
  have hexcused : ∀ e, turn.fault = some e → Excused moves e := fun e he =>
    .inr ⟨hturn.choose, turn, hturn.choose_spec, he⟩
  cases l with
  | ensuring year month =>
    rw [logStep]
    cases hrange : partitionRange year month with
    | error e => exact .still h (.inl ⟨year, month, hrange⟩)
    | ok range =>
      cases hfault : turn.fault with
      | some e => exact .still h (hexcused e hfault)
      | none =>
        cases turn.gotLock with
        | true => exact .still h ⟨hl range.1 range.2 hrange, partitionRange_ok hrange⟩
        | false => exact .still h fun hreason => absurd rfl hreason
  | looking start stop =>
    rw [logStep]
    split
    · rename_i e hfault
      exact .still h (hexcused e hfault)
    · split
      · rename_i hnamed
        apply StepServed.still h
        intro _
        obtain ⟨p, hp, hname⟩ := List.mem_map.mp hnamed
        obtain ⟨m, rfl, -⟩ := h.cells p hp
        obtain rfl := partitionName_injective hname
        exact hp
      · exact .still h hl
  | creating start stop =>
    obtain ⟨partitions, hcreate, hparts⟩ := createPartition_ok zone s
      (fun p hp => (h.cells p hp).imp fun m hm => hm.1) hl.2
    rw [logStep, hcreate]
    cases hfault : turn.fault with
    | some e => exact .still h (hexcused e hfault)
    | none =>
      constructor
      · refine ⟨fun p hp => ?_, (hparts _).mpr (.inr h.first), fun row hrow => ?_, h.letters⟩
        · obtain rfl | hold := (hparts p).mp hp
          · exact ⟨start, rfl, hl.1⟩
          · exact h.cells p hold
        · obtain ⟨p, hp, hcovers⟩ := h.placed row hrow
          exact ⟨p, (hparts p).mpr (.inr hp), hcovers⟩
      · exact fun _ => (hparts _).mpr (.inl rfl)
      · exact fun p hp => (hparts p).mpr (.inr hp)
  | unlocking result =>
    rw [logStep]
    split
    · rename_i e hfault
      exact .still h (hexcused e hfault)
    · exact .still h hl
  | writing w hex =>
    obtain ⟨hserved, hsame⟩ := h.bestEffortWrite w hex
    refine ⟨hserved, trivial, fun p hp => ?_⟩
    rw [logStep, hsame]
    exact hp
  | ensured result => exact .still h hl
  | raised e => exact .still h hl
  | written id => exact .still h hl

theorem enter_fits (s : LogStore) {call : LogCall} (hcall : .start call ∈ moves) :
    call.enter.Fits zone moves s := by
  cases call with
  | ensure year month =>
    intro start stop hrange
    exact .inr ⟨_, hcall, by rw [LogCall.month?, hrange]; rfl⟩
  | ensureNext today =>
    intro start stop hrange
    exact .inr ⟨_, hcall, by rw [LogCall.month?, hrange]; rfl⟩
  | write w hex => trivial

theorem served_run (zone : Zone) (moves : List (Move LogCall LogTurn)) :
    Served zone moves ((chatLogs zone).run ⟨zone.migrated, []⟩ moves).shared ∧
      ((chatLogs zone).run ⟨zone.migrated, []⟩ moves).Asserts fun s l => l.Fits zone moves s := by
  induction moves using List.reverseRecOn with
  | nil =>
    refine ⟨⟨fun p hp => ?_, List.mem_singleton_self _, nofun, rfl⟩, nofun⟩
    exact ⟨may2026, List.mem_singleton.mp hp, .inl rfl⟩
  | append_singleton moves move ih =>
    have hmoves : ∀ m ∈ moves, m ∈ moves ++ [move] := fun m hm => List.mem_append_left _ hm
    have hmove : move ∈ moves ++ [move] := List.mem_append_right _ (List.mem_singleton_self _)
    rw [Threads.run_append]
    generalize (chatLogs zone).run ⟨zone.migrated, []⟩ moves = p at ih ⊢
    have hserved := ih.1.mono hmoves
    have hasserts : p.Asserts fun s l => l.Fits zone (moves ++ [move]) s :=
      fun l hl => (ih.2 l hl).mono hmoves fun _ hp => hp
    have hstep : ∀ i turn l, move = .advance i turn → l.Fits zone (moves ++ [move]) p.shared →
        StepServed zone (moves ++ [move]) p.shared ((chatLogs zone).step turn p.shared l) :=
      fun i turn l heq hl => logStep_served hserved hl ⟨i, heq ▸ hmove⟩
    constructor
    · apply Threads.shared_move hserved
      intro i turn l heq hl
      exact (hstep i turn l heq (hasserts l (List.mem_of_getElem? hl))).served
    · apply hasserts.move
      · intro call heq
        exact enter_fits p.shared (heq ▸ hmove)
      · intro i turn l heq _ hl
        exact (hstep i turn l heq hl).fits
      · intro i turn l heq _ hl l' _ hl'
        exact hl'.mono (fun _ hm => hm) (hstep i turn l heq hl).grown

theorem move_writing {p : Pool LogStore LogStage} {i : Nat} {w : Write} {hex : String}
    (hi : p.threads[i]? = some (.writing w hex)) (turn : LogTurn) :
    (chatLogs zone).move p (.advance i turn) = ⟨(p.shared.bestEffortWrite w hex).1,
      p.threads.set i (.written (p.shared.bestEffortWrite w hex).2)⟩ :=
  Threads.move_advance turn hi

theorem months_kept (zone : Zone) (moves : List (Move LogCall LogTurn)) :
    MonthsKept zone moves ((chatLogs zone).run ⟨zone.migrated, []⟩ moves) := by
  obtain ⟨hserved, hasserts⟩ := served_run zone moves
  generalize (chatLogs zone).run ⟨zone.migrated, []⟩ moves = p at hserved hasserts ⊢
  constructor
  case placed =>
    intro row hrow
    obtain ⟨part, hpart, hcovers⟩ := hserved.placed row hrow
    refine ⟨part, ⟨hpart, hcovers⟩, ?_⟩
    rintro other ⟨hother, hcovers'⟩
    exact p.shared.partitions.eq_of_covers hother hpart hcovers' hcovers
  case excused => exact fun e he => hasserts _ he
  case asked => exact hserved.cells
  case kept =>
    intro i turn w hex m hi hwithin hprovided
    have hpart : zone.partition m ∈ p.shared.partitions.parts := by
      obtain rfl | ⟨result, hresult, rfl, hreason⟩ := hprovided
      · exact hserved.first
      · exact hasserts _ hresult hreason
    rw [move_writing hi]
    obtain ⟨id, hinsert⟩ | ⟨e, hinsert, hsame⟩ :=
      insert_of_covered hpart (Zone.covers_partition_iff.mpr hwithin)
    · simp only [LogStore.bestEffortWrite, hinsert]
    · simp only [LogStore.bestEffortWrite, hinsert, hsame]
  case lost =>
    intro i turn w hex hi hnone
    obtain ⟨e, hinsert⟩ : ∃ e, p.shared.insert w = .error e := by
      apply insert_of_not_covered
      intro part hpart hcovers
      obtain ⟨m, rfl, hasked⟩ := hserved.cells part hpart
      exact hnone m hcovers hasked
    rw [move_writing hi]
    simp only [LogStore.bestEffortWrite, hinsert, and_self]
  case answered =>
    intro i turn w hex hi
    exact ⟨_, Threads.getElem?_move_advance turn hi⟩
  case letters => exact hserved.letters

end Runs

end DomainRag.ChatLogs
