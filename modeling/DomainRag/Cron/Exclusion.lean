import Mathlib.Data.List.Induction
import DomainRag.Lib.Program
import DomainRag.Cron.Locks

/-! # Exclusion and release of the cron locks

A lock that was given back through another connection than the one that took it stays, and a lock
that is tried again through the connection that holds it is taken twice. The partition job's own
session is open when it gives the lock back, so that it always does so through another connection.
-/

namespace DomainRag.Cron

/-- The connection through which a run holds the lock of a job, from the try that got it on until the
run gives it back. -/
def Stage.lockOf (job : CronJob) : Stage → Option Connection
  | .locking run connection true => if run.job = job then some connection else none
  | .working run connection => if run.job = job then some connection else none
  | .unlocking run connection _ => if run.job = job then some connection else none
  | _ => none

def holders (job : CronJob) (p : Pool Database Stage) : List Connection :=
  p.threads.filterMap (·.lockOf job)

/-- At most one run of the job works under the lock, and nothing holds it but for that run. -/
structure Exclusive (job : CronJob) (p : Pool Database Stage) : Prop where
  alone : (holders job p).length ≤ 1
  released : p.shared.locks job.lockKey = holders job p

/-- What holds along a run of the backends: the lock is exclusive in every state, and no run of the
job is turned away while no other one works. -/
structure Lawful (job : CronJob) (ms : List (Move CronRun Turn)) : Prop where
  exclusive : ∀ earlier, earlier <+: ms → Exclusive job (crons.run ⟨.idle, []⟩ earlier)
  admitted : ∀ pre i turn post run connection, ms = pre ++ .advance i turn :: post →
    run.job = job → (crons.run ⟨.idle, []⟩ pre).threads[i]? = some (.starting run) →
    holders job (crons.run ⟨.idle, []⟩ pre) = [] →
    (crons.run ⟨.idle, []⟩ (pre ++ [.advance i turn])).threads[i]? ≠
      some (.locking run connection false)

/-- No run of the job tries the lock through a connection through which another one holds it, and
each gives it back through the connection that took it. -/
def Paired (job : CronJob) (p : Pool Database Stage) : Move CronRun Turn → Prop
  | .start _ => True
  | .advance i turn =>
    match p.threads[i]? with
    | some (.starting run) =>
      run.job = job → run.given turn ∉ p.shared.busy → run.given turn ∉ holders job p
    | some (.unlocking run connection _) =>
      run.job = job → run.given turn ∉ p.shared.busy → run.given turn = connection
    | _ => True

section Steps

variable {job : CronJob} {turn : Turn} {db : Database} {l : Stage} {run : CronRun}

theorem lockKey_injective {job job' : CronJob} (h : job.lockKey = job'.lockKey) : job = job' := by
  cases job <;> cases job' <;> first | rfl | exact absurd h (by decide)

theorem locks_unlock_of_ne {connection : Connection} (h : run.job ≠ job) :
    (db.unlock run.job.lockKey connection).locks job.lockKey = db.locks job.lockKey := by
  rw [Database.unlock]
  exact Function.update_of_ne (fun heq => h (lockKey_injective heq.symm)) _ _

theorem locks_tryLock_of_ne {connection : Connection} (h : run.job ≠ job) :
    (db.tryLock run.job.lockKey connection).1.locks job.lockKey = db.locks job.lockKey := by
  rw [Database.tryLock]
  split
  · exact Function.update_of_ne (fun heq => h (lockKey_injective heq.symm)) _ _
  · rfl

theorem tryLock_cases (db : Database) (key : Nat) (connection : Connection) :
    (db.Free key connection ∧
        (db.tryLock key connection).1.locks key = connection :: db.locks key ∧
        (db.tryLock key connection).2 = true) ∨
      db.tryLock key connection = (db, false) := by
  rw [Database.tryLock]
  split
  · rename_i hfree
    exact .inl ⟨hfree, Function.update_self _ _ _, rfl⟩
  · exact .inr rfl

/-- A step of a run leaves the lock of a job to whom it belongs, or takes it, or gives it back. -/
theorem step_cases (job : CronJob) (turn : Turn) (db : Database) (l : Stage) :
    ((step turn db l).1.locks job.lockKey = db.locks job.lockKey ∧
        (step turn db l).2.lockOf job = l.lockOf job) ∨
      (∃ run, run.job = job ∧ l = .starting run ∧ run.given turn ∉ db.busy ∧
        db.Free job.lockKey (run.given turn) ∧
        (step turn db l).1.locks job.lockKey = run.given turn :: db.locks job.lockKey ∧
        (step turn db l).2 = .locking run (run.given turn) true) ∨
      ∃ run connection outcome, run.job = job ∧ l = .unlocking run connection outcome ∧
        run.given turn ∉ db.busy ∧
        (step turn db l).1.locks job.lockKey = (db.locks job.lockKey).erase (run.given turn) ∧
        (step turn db l).2 = .closing run connection (run.given turn) outcome := by
  cases l with
  | starting run =>
    rw [step]
    split
    · exact .inl ⟨rfl, rfl⟩
    · rename_i hfree
      obtain hjob | hjob := eq_or_ne run.job job
      · subst hjob
        obtain ⟨hlock, hlocks, htaken⟩ | htry :=
          tryLock_cases (db.checkout (run.given turn)) run.job.lockKey (run.given turn)
        · exact .inr (.inl ⟨run, rfl, rfl, hfree, hlock, hlocks,
            congrArg (Stage.locking run (run.given turn)) htaken⟩)
        · rw [htry]
          exact .inl ⟨rfl, rfl⟩
      · refine .inl ⟨locks_tryLock_of_ne hjob, ?_⟩
        change Stage.lockOf job (.locking run _ (Database.tryLock _ _ _).2) = none
        cases (Database.tryLock (db.checkout (run.given turn)) _ _).2 with
        | false => rfl
        | true => exact if_neg hjob
  | locking run connection gotLock =>
    cases gotLock with
    | false => exact .inl ⟨rfl, rfl⟩
    | true =>
      refine .inl ⟨?_, rfl⟩
      rw [step]
      split <;> rfl
  | working run connection => exact .inl ⟨rfl, rfl⟩
  | unlocking run connection outcome =>
    rw [step]
    split
    · exact .inl ⟨rfl, rfl⟩
    · rename_i hfree
      obtain hjob | hjob := eq_or_ne run.job job
      · subst hjob
        refine .inr (.inr ⟨run, connection, outcome, rfl, rfl, hfree, ?_, rfl⟩)
        rw [Database.unlock]
        exact Function.update_self _ _ _
      · exact .inl ⟨locks_unlock_of_ne hjob, (if_neg hjob).symm⟩
  | closing run connection unlockConnection outcome =>
    refine .inl ⟨rfl, ?_⟩
    rw [step]
    split <;> rfl
  | returning run connection outcome => exact .inl ⟨rfl, rfl⟩
  | ended run outcome => exact .inl ⟨rfl, rfl⟩

end Steps

section Runs

variable {job : CronJob} {p : Pool Database Stage} {m : Move CronRun Turn}

theorem holders_split (job : CronJob) (db : Database) (before after : List Stage) (l : Stage) :
    holders job ⟨db, before ++ l :: after⟩ = before.filterMap (·.lockOf job) ++
      ((l.lockOf job).toList ++ after.filterMap (·.lockOf job)) := by
  rw [holders, List.filterMap_append]
  cases hlock : l.lockOf job with
  | none => rw [List.filterMap_cons_none hlock, Option.toList_none, List.nil_append]
  | some connection =>
    rw [List.filterMap_cons_some hlock, Option.toList_some, List.singleton_append]

section Replace

variable {db db' : Database} {before after : List Stage} {l l' : Stage} {connection : Connection}

theorem Exclusive.quiet (h : Exclusive job ⟨db, before ++ l :: after⟩)
    (hlocks : db'.locks job.lockKey = db.locks job.lockKey) (hlock : l'.lockOf job = l.lockOf job) :
    Exclusive job ⟨db', before ++ l' :: after⟩ := by
  have hholders : holders job ⟨db', before ++ l' :: after⟩ = holders job ⟨db, before ++ l :: after⟩ := by
    rw [holders_split, holders_split, hlock]
  constructor
  · exact hholders ▸ h.alone
  · exact hlocks.trans (h.released.trans hholders.symm)

theorem Exclusive.taken (h : Exclusive job ⟨db, before ++ l :: after⟩)
    (hnone : db.locks job.lockKey = []) (hlocks : db'.locks job.lockKey = [connection])
    (hlock : l'.lockOf job = some connection) : Exclusive job ⟨db', before ++ l' :: after⟩ := by
  have hreleased : db.locks job.lockKey = holders job ⟨db, before ++ l :: after⟩ := h.released
  rw [holders_split, hnone] at hreleased
  obtain ⟨hbefore, hrest⟩ := List.append_eq_nil_iff.mp hreleased.symm
  obtain ⟨-, hafter⟩ := List.append_eq_nil_iff.mp hrest
  have hholders : holders job ⟨db', before ++ l' :: after⟩ = [connection] := by
    rw [holders_split, hbefore, hafter, hlock]
    rfl
  constructor
  · rw [hholders]
    exact Nat.le_refl 1
  · exact hlocks.trans hholders.symm

/-- The run that holds the lock is the only one. -/
theorem Exclusive.holder (h : Exclusive job ⟨db, before ++ l :: after⟩)
    (hlock : l.lockOf job = some connection) : db.locks job.lockKey = [connection] ∧
      before.filterMap (·.lockOf job) = [] ∧ after.filterMap (·.lockOf job) = [] := by
  have halone := h.alone
  have hreleased : db.locks job.lockKey = holders job ⟨db, before ++ l :: after⟩ := h.released
  rw [holders_split, hlock, Option.toList_some] at halone hreleased
  simp only [List.length_append, List.length_singleton] at halone
  have hbefore : before.filterMap (·.lockOf job) = [] := List.length_eq_zero_iff.mp (by omega)
  have hafter : after.filterMap (·.lockOf job) = [] := List.length_eq_zero_iff.mp (by omega)
  rw [hbefore, hafter] at hreleased
  exact ⟨hreleased, hbefore, hafter⟩

theorem Exclusive.returned (h : Exclusive job ⟨db, before ++ l :: after⟩)
    (hlock : l.lockOf job = some connection)
    (hlocks : db'.locks job.lockKey = (db.locks job.lockKey).erase connection)
    (hlock' : l'.lockOf job = none) : Exclusive job ⟨db', before ++ l' :: after⟩ := by
  obtain ⟨hheld, hbefore, hafter⟩ := h.holder hlock
  have hholders : holders job ⟨db', before ++ l' :: after⟩ = [] := by
    rw [holders_split, hbefore, hafter, hlock']
    rfl
  rw [hheld, List.erase_cons_head] at hlocks
  constructor
  · rw [hholders]
    exact Nat.zero_le 1
  · exact hlocks.trans hholders.symm

end Replace

/-- A paired step keeps the lock exclusive. -/
theorem Exclusive.move (h : Exclusive job p) (hm : Paired job p m) :
    Exclusive job (crons.move p m) := by
  obtain ⟨run, rfl, hmove⟩ | ⟨i, turn, rfl, -, hmove⟩ | ⟨i, turn, l, rfl, hl, -⟩ :=
    crons.move_cases p m
  · have hholders : holders job ⟨p.shared, p.threads ++ [.starting run]⟩ = holders job p := by
      rw [holders, List.filterMap_append]
      exact List.append_nil _
    rw [hmove]
    constructor
    · exact hholders ▸ h.alone
    · exact h.released.trans hholders.symm
  · rw [hmove]
    exact h
  · obtain ⟨before, after, hthreads, hmove⟩ := crons.move_split turn hl
    simp only [Paired, hl] at hm
    obtain ⟨db, threads⟩ := p
    cases hthreads
    rw [hmove]
    obtain ⟨hlocks, hlock⟩ | ⟨run, hjob, rfl, hfree, hcan, hlocks, hstage⟩ |
      ⟨run, connection, outcome, hjob, rfl, hfree, hlocks, hstage⟩ := step_cases job turn db l
    · exact h.quiet hlocks hlock
    · have hnotin := hm hjob hfree
      rw [← h.released] at hnotin
      have hnone : db.locks job.lockKey = [] := List.eq_nil_iff_forall_not_mem.mpr
        fun holder hholder => hnotin (hcan holder hholder ▸ hholder)
      rw [hnone] at hlocks
      exact h.taken hnone hlocks ((congrArg _ hstage).trans (if_pos hjob))
    · rw [hm hjob hfree] at hlocks
      exact h.returned (if_pos hjob) hlocks (congrArg _ hstage)

theorem exclusive_idle : Exclusive job ⟨.idle, []⟩ where
  alone := Nat.zero_le 1
  released := rfl

/-- A run that finds nothing held gets the lock. -/
theorem not_locking_false {i : Nat} {turn : Turn} {run run' : CronRun} {connection : Connection}
    (h : p.shared.locks run.job.lockKey = []) (hl : p.threads[i]? = some (.starting run)) :
    (crons.move p (.advance i turn)).threads[i]? ≠ some (.locking run' connection false) := by
  rw [Threads.getElem?_move_advance turn hl]
  change some (step turn p.shared (.starting run)).2 ≠ _
  rw [step]
  split
  · nofun
  · have hlock : (p.shared.checkout (run.given turn)).Free run.job.lockKey (run.given turn) := by
      rw [Database.Free, Database.checkout, h]
      exact List.forall_mem_nil _
    rw [Database.tryLock, if_pos hlock]
    nofun

/-- In every run whose steps are paired, the lock is exclusive and no run is turned away for
nothing. -/
theorem lawful_of_along {ms : List (Move CronRun Turn)}
    (h : Along crons.move (Paired job) ms ⟨.idle, []⟩) : Lawful job ms := by
  have hexclusive : ∀ earlier, earlier <+: ms → Exclusive job (crons.run ⟨.idle, []⟩ earlier) := by
    rintro earlier ⟨post, rfl⟩
    exact h.of_append.final exclusive_idle fun m _ p hp hm => hp.move hm
  refine ⟨hexclusive, ?_⟩
  rintro pre i turn post run connection rfl rfl hl hnone
  rw [Threads.run_append]
  have hreleased := (hexclusive pre (List.prefix_append _ _)).released
  exact not_locking_false (hreleased.trans hnone) hl

end Runs

section Sessions

variable {p : Pool Database Stage} {m : Move CronRun Turn} {turn : Turn} {db : Database} {l : Stage}

/-- The connections of the sessions that a run has open. -/
def Stage.opened : Stage → List Connection
  | .starting _ => []
  | .locking _ connection _ => [connection]
  | .working run connection => if run.job.keepsSession then [connection] else []
  | .unlocking run connection _ => if run.job.keepsSession then [connection] else []
  | .closing run connection unlockConnection _ =>
    unlockConnection :: if run.job.keepsSession then [connection] else []
  | .returning _ connection _ => [connection]
  | .ended _ _ => []

/-- The busy connections are those of the open sessions, each of one session only. -/
structure Accounted (p : Pool Database Stage) : Prop where
  busy : p.shared.busy.Perm (p.threads.flatMap Stage.opened)
  nodup : p.shared.busy.Nodup

theorem busy_tryLock (key : Nat) (connection : Connection) :
    (db.tryLock key connection).1.busy = db.busy := by
  rw [Database.tryLock]
  split <;> rfl

/-- A step opens a session on a free connection, closes one, or does neither. -/
theorem step_busy (turn : Turn) (db : Database) (l : Stage) :
    ((step turn db l).1.busy = db.busy ∧ (step turn db l).2.opened = l.opened) ∨
      (∃ connection, connection ∉ db.busy ∧ (step turn db l).1.busy = connection :: db.busy ∧
        (step turn db l).2.opened = connection :: l.opened) ∨
      ∃ connection, (step turn db l).1.busy = db.busy.erase connection ∧
        l.opened = connection :: (step turn db l).2.opened := by
  cases l with
  | starting run =>
    rw [step]
    split
    · exact .inl ⟨rfl, rfl⟩
    · rename_i hfree
      exact .inr (.inl ⟨run.given turn, hfree, busy_tryLock _ _, rfl⟩)
  | locking run connection gotLock =>
    cases gotLock with
    | false => exact .inr (.inr ⟨connection, rfl, rfl⟩)
    | true =>
      cases hkeeps : run.job.keepsSession with
      | false => exact .inr (.inr ⟨connection, by simp [step, hkeeps, Database.close],
          by simp [step, hkeeps, Stage.opened]⟩)
      | true => exact .inl ⟨by simp [step, hkeeps], by simp [step, hkeeps, Stage.opened]⟩
  | working run connection => exact .inl ⟨rfl, rfl⟩
  | unlocking run connection outcome =>
    rw [step]
    split
    · exact .inl ⟨rfl, rfl⟩
    · rename_i hfree
      exact .inr (.inl ⟨run.given turn, hfree, rfl, rfl⟩)
  | closing run connection unlockConnection outcome =>
    refine .inr (.inr ⟨unlockConnection, rfl, ?_⟩)
    cases hkeeps : run.job.keepsSession with
    | false => simp [step, hkeeps, Stage.opened]
    | true => simp [step, hkeeps, Stage.opened]
  | returning run connection outcome => exact .inr (.inr ⟨connection, rfl, rfl⟩)
  | ended run outcome => exact .inl ⟨rfl, rfl⟩

theorem opened_split (before after : List Stage) (l : Stage) :
    (before ++ l :: after).flatMap Stage.opened =
      before.flatMap Stage.opened ++ (l.opened ++ after.flatMap Stage.opened) := by
  rw [List.flatMap_append, List.flatMap_cons]

theorem Accounted.move (h : Accounted p) : Accounted (crons.move p m) := by
  obtain ⟨run, rfl, hmove⟩ | ⟨i, turn, rfl, -, hmove⟩ | ⟨i, turn, l, rfl, hl, -⟩ :=
    crons.move_cases p m
  · rw [hmove]
    refine ⟨?_, h.nodup⟩
    have hopened : (p.threads ++ [crons.enter run]).flatMap Stage.opened =
        p.threads.flatMap Stage.opened := by
      rw [List.flatMap_append]
      exact List.append_nil _
    exact hopened ▸ h.busy
  · rw [hmove]
    exact h
  · obtain ⟨before, after, hthreads, hmove⟩ := crons.move_split turn hl
    obtain ⟨db, threads⟩ := p
    cases hthreads
    rw [hmove]
    have hbusy : db.busy.Perm _ := opened_split before after l ▸ h.busy
    have hnodup : db.busy.Nodup := h.nodup
    obtain ⟨hsame, hopened⟩ | ⟨connection, hfree, hsame, hopened⟩ | ⟨connection, hsame, hopened⟩ :=
      step_busy turn db l
    · refine ⟨?_, hsame.symm ▸ hnodup⟩
      change (step turn db l).1.busy.Perm ((before ++ (step turn db l).2 :: after).flatMap Stage.opened)
      rw [hsame, opened_split, hopened]
      exact hbusy
    · refine ⟨?_, hsame.symm ▸ List.nodup_cons.mpr ⟨hfree, hnodup⟩⟩
      change (step turn db l).1.busy.Perm ((before ++ (step turn db l).2 :: after).flatMap Stage.opened)
      rw [hsame, opened_split, hopened, List.cons_append]
      exact (hbusy.cons connection).trans List.perm_middle.symm
    · refine ⟨?_, hsame.symm ▸ hnodup.erase connection⟩
      change (step turn db l).1.busy.Perm ((before ++ (step turn db l).2 :: after).flatMap Stage.opened)
      rw [hopened, List.cons_append] at hbusy
      rw [hsame, opened_split]
      have herase := (hbusy.trans List.perm_middle).erase connection
      rwa [List.erase_cons_head] at herase

theorem accounted_run (ms : List (Move CronRun Turn)) : Accounted (crons.run ⟨.idle, []⟩ ms) := by
  induction ms using List.reverseRecOn with
  | nil => exact ⟨.nil, List.nodup_nil⟩
  | append_singleton ms m ih =>
    rw [Threads.run_append]
    exact ih.move

end Sessions

section Partition

variable {turn : Turn} {db : Database} {l : Stage}

/-- A run of the job has got the lock and has given it back. -/
def Stage.GaveBack (job : CronJob) : Stage → Prop
  | .closing run _ _ _ => run.job = job
  | .returning run _ _ => run.job = job
  | .ended run outcome => run.job = job ∧ outcome ≠ .busy
  | _ => False

theorem gaveBack_step {job : CronJob} (h : (step turn db l).2.GaveBack job) : l.GaveBack job ∨
    ∃ run connection outcome, run.job = job ∧ l = .unlocking run connection outcome ∧
      run.given turn ∉ db.busy := by
  cases l with
  | starting run =>
    rw [step] at h
    split at h <;> exact h.elim
  | locking run connection gotLock =>
    cases gotLock with
    | false => exact absurd rfl h.2
    | true => exact h.elim
  | working run connection => exact h.elim
  | unlocking run connection outcome =>
    rw [step] at h
    split at h
    · exact h.elim
    · rename_i hfree
      exact .inr ⟨run, connection, outcome, h, rfl, hfree⟩
  | closing run connection unlockConnection outcome => 
    rw [step] at h
    split at h
    · exact .inl h
    · exact .inl h.1
  | returning run connection outcome => exact .inl h.1
  | ended run outcome => exact .inl h

/-- When a run of the partition job gives its lock back, the lock stays. -/
theorem not_exclusive_of_unlocking {p : Pool Database Stage} {i : Nat} {run : CronRun}
    {connection : Connection} {outcome : Outcome} (haccounted : Accounted p)
    (hl : p.threads[i]? = some (.unlocking run connection outcome)) (hjob : run.job = .partition)
    (hfree : run.given turn ∉ p.shared.busy) (h : Exclusive .partition p) :
    ¬ Exclusive .partition (crons.move p (.advance i turn)) := by
  intro h'
  have hopen : connection ∈ (Stage.unlocking run connection outcome).opened := by
    rw [Stage.opened, hjob]
    exact List.mem_singleton_self connection
  have hbusy : connection ∈ p.shared.busy := haccounted.busy.mem_iff.mpr
    (List.mem_flatMap_of_mem (List.mem_of_getElem? hl) hopen)
  obtain ⟨before, after, hthreads, hmove⟩ := crons.move_split turn hl
  obtain ⟨db, threads⟩ := p
  cases hthreads
  rw [hmove] at h'
  obtain ⟨hlocks, hlock⟩ | ⟨run', -, hstage, -⟩ | ⟨run', _, _, -, hstage, -, hlocks, hnext⟩ :=
    step_cases .partition turn db (.unlocking run connection outcome)
  · rw [step, if_neg hfree] at hlock
    exact absurd (hlock.trans (if_pos hjob)) nofun
  · cases hstage
  · cases hstage
    obtain ⟨hheld, hbefore, hafter⟩ := h.holder (if_pos hjob)
    have hne : run.given turn ≠ connection := fun heq => hfree (heq ▸ hbusy)
    have hreleased := h'.released
    change (step turn db _).1.locks _ = holders .partition ⟨_, before ++ (step turn db _).2 :: after⟩
      at hreleased
    rw [hlocks, hheld, holders_split, hbefore, hafter, hnext, List.erase_cons_tail (by simpa using hne.symm)]
      at hreleased
    cases hreleased

/-- While the partition job's lock is exclusive, no run of it has come past giving it back. -/
theorem not_gaveBack {ms : List (Move CronRun Turn)}
    (h : ∀ earlier, earlier <+: ms → Exclusive .partition (crons.run ⟨.idle, []⟩ earlier)) :
    ∀ l ∈ (crons.run ⟨.idle, []⟩ ms).threads, ¬ l.GaveBack .partition := by
  induction ms using List.reverseRecOn with
  | nil => exact List.forall_mem_nil _
  | append_singleton ms m ih =>
    have hbefore := ih fun earlier hearlier => h earlier (hearlier.trans (List.prefix_append _ _))
    have hexclusive := h ms (List.prefix_append _ _)
    have hexclusive' := h (ms ++ [m]) (List.prefix_refl _)
    rw [Threads.run_append] at hexclusive' ⊢
    change Exclusive .partition (crons.move _ m) at hexclusive'
    change ∀ l ∈ (crons.move _ m).threads, _
    intro l' hl' hgave
    obtain ⟨run, rfl, hmove⟩ | ⟨i, turn, rfl, -, hmove⟩ | ⟨i, turn, l, rfl, hl, hmove⟩ :=
      crons.move_cases (crons.run ⟨.idle, []⟩ ms) m
    · rw [hmove] at hl'
      obtain hl' | hl' := List.mem_append.mp hl'
      · exact hbefore l' hl' hgave
      · rw [List.mem_singleton.mp hl'] at hgave
        exact hgave
    · rw [hmove] at hl'
      exact hbefore l' hl' hgave
    · rw [hmove] at hl'
      obtain hl' | rfl := List.mem_or_eq_of_mem_set hl'
      · exact hbefore l' hl' hgave
      · obtain hgave | ⟨run, connection, outcome, hjob, rfl, hfree⟩ := gaveBack_step hgave
        · exact hbefore l (List.mem_of_getElem? hl) hgave
        · exact not_exclusive_of_unlocking (accounted_run ms) hl hjob hfree hexclusive hexclusive'

end Partition

/-- The locks of the jobs are exclusive and given back in every run whose steps are paired. A run of
the partition job that got the lock and has returned leaves it taken, whatever connections the
pool gave. -/
theorem lawful_of_paired (ms : List (Move CronRun Turn)) :
    (∀ job, Along crons.move (Paired job) ms ⟨.idle, []⟩ → Lawful job ms) ∧
      ∀ backend outcome, .ended ⟨.partition, backend⟩ outcome ∈ (crons.run ⟨.idle, []⟩ ms).threads →
        outcome ≠ .busy → ¬ Lawful .partition ms := by
  constructor
  · exact fun job h => lawful_of_along h
  · intro backend outcome hended hgot h
    exact not_gaveBack h.exclusive _ hended ⟨rfl, hgot⟩

/-- One run on one backend, whose unlock session is given some connection. -/
def oneRun (job : CronJob) (unlockConnection : Nat) : List (Move CronRun Turn) :=
  [.start ⟨job, 0⟩, .advance 0 {}, .advance 0 {}, .advance 0 {},
    .advance 0 { connection := unlockConnection }, .advance 0 {}, .advance 0 {}]

theorem one_run : Lawful .archival (oneRun .archival 0) ∧
    ¬ Lawful .partition (oneRun .partition 1) := by
  constructor
  · refine (lawful_of_paired (oneRun .archival 0)).1 .archival ?_
    exact ⟨trivial, fun _ _ => List.not_mem_nil, trivial, trivial, fun _ _ => rfl, trivial, trivial,
      trivial⟩
  · exact (lawful_of_paired (oneRun .partition 1)).2 0 .worked (List.mem_singleton_self _) (by decide)

/-- Two runs work at once when the second one's session is given the connection of the first. -/
def sameConnection : List (Move CronRun Turn) :=
  [.start ⟨.archival, 0⟩, .advance 0 {}, .advance 0 {}, .start ⟨.archival, 0⟩, .advance 1 {}]

theorem lock_is_kept : ¬ Lawful .archival (oneRun .archival 1) ∧
    ¬ Lawful .partition (oneRun .partition 1) ∧ ¬ Lawful .oldCollections (oneRun .oldCollections 1) ∧
    ¬ Lawful .archival sameConnection := by
  refine ⟨?_, ?_, ?_, ?_⟩
  · intro h
    exact absurd (h.exclusive _ (List.prefix_refl _)).released (by decide)
  · intro h
    exact absurd (h.exclusive _ (List.prefix_refl _)).released (by decide)
  · intro h
    exact absurd (h.exclusive _ (List.prefix_refl _)).released (by decide)
  · intro h
    exact absurd (h.exclusive _ (List.prefix_refl _)).alone (by decide)

end DomainRag.Cron
