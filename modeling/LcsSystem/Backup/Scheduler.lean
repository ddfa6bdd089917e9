import LcsSystem.Lib.Table
import LcsSystem.Lib.Transition

/-!
# The start of the backup runs

`maybe_run_due` of `src/backend/app/modules/backup/scheduler.py:46-68`, `start_backup`, `run_now` and `execute_run` of
`src/backend/app/modules/backup/service.py:266-310` and `advisory_lock` of `src/backend/app/core/locks.py:42-74`, in
several API processes over one database. A coroutine stops at its statements, so a task is the place where it stops, and
a run of the system takes the tasks of all replicas one step after the other in any order.

| here              | there                                                                     |
|-------------------|---------------------------------------------------------------------------|
| `Stage`           | the next statement of a tick or of a request                              |
| `active`          | `_active_run_id is not None`, the time in which `_run_lock` is held       |
| `Held`            | a session-level lock of PostgreSQL: of a connection, counted              |
| `connection`      | the connection that the pool hands out for the statement                  |
| `lastRunAt`       | `backup.lastRunAt` of the stored configuration                            |
| `starts`          | when each run began to execute, kept beside the tables                    |

The configuration is enabled and complete throughout; every statement succeeds, and an export that fails ends in the same
status write as one that succeeds. Times are seconds of one clock.
-/

namespace LcsSystem.Backup
open Relational

inductive Trigger
  | scheduled
  | manual
  deriving DecidableEq

inductive Stage
  /-- `_load_backup_config` of the tick. -/
  | read
  /-- `_is_due` with the value read. -/
  | decide (last : Option ℕ)
  | lock
  /-- `_active_run_id is not None`. -/
  | check
  | create
  /-- The status write of the start, with the time in it. -/
  | stamp (time : ℕ)
  /-- At `async with _run_lock`. -/
  | queued
  | executing
  /-- The status write of the end. -/
  | finish (time : ℕ)
  /-- The session of the run is closed, then `_active_run_id` and `_run_lock` are given back. -/
  | leave
  | unlock
  deriving DecidableEq

namespace Stage

/-- Behind the check of `_active_run_id`, up to the end of the run. -/
def isEngaged : Stage → Bool
  | .create | .stamp _ | .queued | .executing | .finish _ | .leave => true
  | _ => false

/-- Inside `async with _run_lock`. -/
def isRunning : Stage → Bool
  | .executing | .finish _ | .leave => true
  | _ => false

/-- Between the two statements of the advisory lock. -/
def isInside (stage : Stage) : Bool := stage.isEngaged || stage == .check || stage == .unlock

end Stage

structure Task where
  replica : ℕ
  trigger : Trigger
  stage : Stage
  deriving DecidableEq

structure Held where
  replica : ℕ
  connection : ℕ
  count : ℕ
  deriving DecidableEq

structure Start where
  trigger : Trigger
  time : ℕ
  deriving DecidableEq

structure Replicas where
  clock : ℕ := 0
  lastRunAt : Option ℕ := none
  tasks : Table Task := .empty
  held : Option Held := none
  starts : List Start := []

inductive Move
  /-- The scheduler of a replica calls `maybe_run_due`. -/
  | tick (replica : ℕ)
  /-- A request calls `start_backup`. -/
  | request (replica : ℕ)
  | advance (task connection : ℕ)
  /-- The pool of a replica closes a connection. -/
  | close (replica connection : ℕ)
  /-- Time passes. -/
  | pass (duration : ℕ)

/-- `max(1, interval_hours) * 3600`. -/
def interval (hours : ℕ) : ℕ := max 1 hours * 3600

/-- `_is_due`. -/
def isDue (hours : ℕ) (lastRunAt : Option ℕ) (now : ℕ) : Bool :=
  match lastRunAt with
  | none => true
  | some last => decide (last + interval hours ≤ now)

/-! ## The statements of the lock -/

/-- `pg_try_advisory_lock`: a connection that holds the lock takes it again. -/
def tryLock (held : Option Held) (replica connection : ℕ) : Option Held :=
  match held with
  | none => some ⟨replica, connection, 1⟩
  | some h => if h.replica = replica ∧ h.connection = connection then some { h with count := h.count + 1 } else none

/-- `pg_advisory_unlock`: another connection only gets a warning. -/
def release (held : Option Held) (replica connection : ℕ) : Option Held :=
  held.bind fun h =>
    if h.replica = replica ∧ h.connection = connection then
      if h.count ≤ 1 then none else some { h with count := h.count - 1 }
    else some h

/-- A closed connection gives back all it holds. -/
def closed (held : Option Held) (replica connection : ℕ) : Option Held :=
  held.filter fun h => !(h.replica == replica && h.connection == connection)

/-! ## The steps -/

namespace Replicas

def active (s : Replicas) (replica : ℕ) : Bool := s.tasks.values.any fun t => t.replica == replica && t.stage.isRunning

/-- The scheduler of a replica is one task: its next tick waits for the last one. -/
def ticking (s : Replicas) (replica : ℕ) : Bool :=
  s.tasks.values.any fun t => t.replica == replica && t.trigger == .scheduled

def goTo (s : Replicas) (id : ℕ) (stage : Stage) : Replicas :=
  { s with tasks := s.tasks.modify id fun t => { t with stage := stage } }

def drop (s : Replicas) (id : ℕ) : Replicas := { s with tasks := s.tasks.erase fun i _ => i == id }

/-- The call returns or raises: a tick still gives back the lock, and `maybe_run_due` swallows what was raised. -/
def back (s : Replicas) (id : ℕ) (trigger : Trigger) : Replicas :=
  match trigger with
  | .scheduled => s.goTo id .unlock
  | .manual => s.drop id

def advance (hours : ℕ) (s : Replicas) (id connection : ℕ) (t : Task) : Replicas :=
  match t.stage with
  | .read => s.goTo id (.decide s.lastRunAt)
  | .decide last => if isDue hours last s.clock = true then s.goTo id .lock else s.drop id
  | .lock =>
    match tryLock s.held t.replica connection with
    | some h => { s.goTo id .check with held := some h }
    | none => s.drop id
  | .check => if s.active t.replica = true then s.back id t.trigger else s.goTo id .create
  | .create => s.goTo id (.stamp s.clock)
  | .stamp time => { s.goTo id .queued with lastRunAt := some time }
  | .queued =>
    if s.active t.replica = true then s
    else { s.goTo id .executing with starts := s.starts ++ [⟨t.trigger, s.clock⟩] }
  | .executing => s.goTo id (.finish s.clock)
  | .finish time => { s.goTo id .leave with lastRunAt := some time }
  | .leave => s.back id t.trigger
  | .unlock => { s.drop id with held := release s.held t.replica connection }

def step (hours : ℕ) (s : Replicas) : Move → Replicas
  | .tick replica =>
    if s.active replica = true ∨ s.ticking replica = true then s
    else { s with tasks := s.tasks.insert ⟨replica, .scheduled, .read⟩ }
  | .request replica => { s with tasks := s.tasks.insert ⟨replica, .manual, .check⟩ }
  | .advance id connection =>
    match s.tasks.get? id with
    | some t => s.advance hours id connection t
    | none => s
  | .close replica connection => { s with held := closed s.held replica connection }
  | .pass duration => { s with clock := s.clock + duration }

/-! ## What is promised -/

/-- At most one run executes, over all replicas. -/
def AtMostOne (s : Replicas) : Prop :=
  ∀ i a j b, s.tasks.get? i = some a → s.tasks.get? j = some b → a.stage.isRunning = true → b.stage.isRunning = true → i = j

/-- When the scheduled runs began, in order. -/
def scheduledStarts (s : Replicas) : List ℕ := (s.starts.filter fun r => r.trigger == .scheduled).map Start.time

/-- No two scheduled runs start less than the interval apart. -/
def Spaced (hours : ℕ) (s : Replicas) : Prop := s.scheduledStarts.Pairwise fun a b => a + interval hours ≤ b

/-- Nobody of another replica is behind the check of `_active_run_id`. -/
def alone (s : Replicas) (replica : ℕ) : Bool := s.tasks.values.all fun t => !t.stage.isEngaged || t.replica == replica

/-- A write of the status does not set `lastRunAt` back. -/
def forward (s : Replicas) (time : ℕ) : Bool := s.lastRunAt.all fun last => decide (last ≤ time)

/-- The condition on one statement of a task. -/
def inOrder (hours : ℕ) (s : Replicas) (t : Task) : Bool :=
  match t.stage with
  | .lock => isDue hours s.lastRunAt s.clock
  | .check => s.alone t.replica
  | .stamp time | .finish time => s.forward time
  | _ => true

/-- The connection that holds the lock stays open while the tick of its replica is behind the lock. -/
def keepsOpen (s : Replicas) (replica connection : ℕ) : Bool :=
  s.held.all fun h => !(h.replica == replica && h.connection == connection) ||
    s.tasks.values.all fun t => !(t.replica == replica && t.trigger == .scheduled && t.stage.isInside)

def InOrder (hours : ℕ) (s : Replicas) : Move → Prop
  | .advance id _ => (s.tasks.get? id).all (s.inOrder hours) = true
  | .close replica connection => s.keepsOpen replica connection = true
  | _ => True

instance (hours : ℕ) (s : Replicas) : ∀ a, Decidable (s.InOrder hours a)
  | .advance _ _ | .close _ _ => inferInstanceAs (Decidable (_ = true))
  | .tick _ | .request _ | .pass _ => .isTrue trivial

end Replicas
end LcsSystem.Backup
