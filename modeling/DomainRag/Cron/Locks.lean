import Mathlib.Logic.Function.Basic
import DomainRag.Lib.Threads

/-! # The locks of the cron jobs

A run of a job tries an advisory lock in one session, works, and gives the lock back in another
session. A session uses any connection of its backend's pool that no open session uses, while the
lock belongs to the connection that took it.
-/

namespace DomainRag.Cron

inductive CronJob where
  | archival
  | partition
  | oldCollections
  deriving DecidableEq, Repr

def CronJob.lockKey : CronJob → Nat
  | archival => 70190301
  | partition => 70190612
  | oldCollections => 70190401

/-- The partition job does all of its work inside the session that took the lock. -/
def CronJob.keepsSession : CronJob → Bool
  | partition => true
  | archival | oldCollections => false

structure Connection where
  backend : Nat
  number : Nat
  deriving DecidableEq, Repr

structure Database where
  /-- The connections of the open sessions. -/
  busy : List Connection
  /-- What holds the lock of a key, one entry for every time that it was taken. -/
  locks : Nat → List Connection

namespace Database

variable (db : Database)

def checkout (connection : Connection) : Database := { db with busy := connection :: db.busy }

def close (connection : Connection) : Database := { db with busy := db.busy.erase connection }

/-- A lock is free for the connection that holds it. -/
def Free (key : Nat) (connection : Connection) : Prop := ∀ holder ∈ db.locks key, holder = connection

instance (key : Nat) (connection : Connection) : Decidable (db.Free key connection) :=
  inferInstanceAs (Decidable (∀ holder ∈ db.locks key, holder = connection))

/-- `pg_try_advisory_lock` -/
def tryLock (key : Nat) (connection : Connection) : Database × Bool :=
  if db.Free key connection then
    ({ db with locks := Function.update db.locks key (connection :: db.locks key) }, true)
  else (db, false)

/-- `pg_advisory_unlock` -/
def unlock (key : Nat) (connection : Connection) : Database :=
  { db with locks := Function.update db.locks key ((db.locks key).erase connection) }

end Database

structure CronRun where
  job : CronJob
  backend : Nat

inductive Outcome where
  | busy
  | worked
  | raised
  deriving DecidableEq

inductive Stage where
  | starting (run : CronRun)
  | locking (run : CronRun) (connection : Connection) (gotLock : Bool)
  | working (run : CronRun) (connection : Connection)
  | unlocking (run : CronRun) (connection : Connection) (outcome : Outcome)
  | closing (run : CronRun) (connection unlockConnection : Connection) (outcome : Outcome)
  | returning (run : CronRun) (connection : Connection) (outcome : Outcome)
  | ended (run : CronRun) (outcome : Outcome)

/-- What a step meets: the connection that the pool gives to a new session, and whether the work
raises. -/
structure Turn where
  connection : Nat := 0
  raises : Bool := false

def CronRun.given (run : CronRun) (turn : Turn) : Connection := ⟨run.backend, turn.connection⟩

def step (turn : Turn) (db : Database) : Stage → Database × Stage
  | .starting run =>
    if run.given turn ∈ db.busy then (db, .starting run)
    else
      let (db', gotLock) := (db.checkout (run.given turn)).tryLock run.job.lockKey (run.given turn)
      (db', .locking run (run.given turn) gotLock)
  | .locking run connection false => (db.close connection, .ended run .busy)
  | .locking run connection true =>
    (if run.job.keepsSession then db else db.close connection, .working run connection)
  | .working run connection =>
    (db, .unlocking run connection (if turn.raises then .raised else .worked))
  | .unlocking run connection outcome =>
    if run.given turn ∈ db.busy then (db, .unlocking run connection outcome)
    else ((db.checkout (run.given turn)).unlock run.job.lockKey (run.given turn),
      .closing run connection (run.given turn) outcome)
  | .closing run connection unlockConnection outcome =>
    (db.close unlockConnection,
      if run.job.keepsSession then .returning run connection outcome else .ended run outcome)
  | .returning run connection outcome => (db.close connection, .ended run outcome)
  | .ended run outcome => (db, .ended run outcome)

def crons : Threads Database Stage CronRun Turn where
  enter := .starting
  step := step

/-- No session is open, and no lock is held. -/
def Database.idle : Database := ⟨[], fun _ => []⟩

end DomainRag.Cron
