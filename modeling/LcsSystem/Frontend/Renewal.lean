import LcsSystem.Lib.Transition

/-!
# The session renewal coordinator

`createRenewalCoordinator` (`src/frontend/app/utils/auth/renewal.ts:30-100`) with the callbacks that its only user
passes (`app/stores/auth.ts:82-122`). The closure variables are the fields of a state, and so is what the event loop
holds for the coordinator: the armed timers and the operations of `refresh` that have not run to their end.

| here                          | there                                                        |
|-------------------------------|--------------------------------------------------------------|
| `Action.settle`               | the promise of `options.request()` settles                   |
| `Action.proceed`              | the rest of the `async` body, a microtask                    |
| `Action.clear`                | `operation.finally(…)`, a later microtask                    |
| `Action.fire`                 | a timer runs out; `active` is `options.isActive()`           |
| `Response.calls`              | what `options.apply` calls back (`acceptSession`: `schedule` or `invalidate`) |

`options.expired` and `options.unavailable` set flags of the store and call nothing of the coordinator. Times are
milliseconds, and `now` is read when a timer is set.
-/

namespace LcsSystem.Renewal
open History

/-- What a caller outside can do, and `options.apply` while it runs. -/
inductive Call
  | refresh
  | schedule (expiresAt now : ℚ)
  | invalidate
  | resume
  deriving DecidableEq

/-- A successful answer: the new expiry, what `options.apply` does with it, and the status of the error it throws. -/
structure Response where
  expiresAt : ℚ
  now : ℚ
  calls : List Call := []
  thrown : Option ℕ := none
  deriving DecidableEq

/-- How the request ends. An error counts by `authErrorStatus`, 0 where it has none. -/
inductive Settlement
  | answered (response : Response)
  | failed (status : ℕ)
  deriving DecidableEq

inductive RenewalResult
  | renewed | expired | unavailable | cancelled
  deriving DecidableEq

/-- How far the operation of one `refresh` has come. -/
inductive Stage
  | requested
  | settled (s : Settlement)
  | finished (r : RenewalResult)
  deriving DecidableEq

structure Operation where
  id : ℕ
  version : ℕ
  stage : Stage
  deriving DecidableEq

/-- The callback of a timer: that of `schedule` asks `isActive` first, that of a retry does not. -/
inductive TimerKind
  | renewal | retry
  deriving DecidableEq

structure Timer where
  id : ℕ
  kind : TimerKind
  delay : ℚ
  deriving DecidableEq

inductive Event
  | started (operation : ℕ)
  | applied (operation : ℕ)
  | expired (operation : ℕ)
  | unavailable (operation : ℕ)
  | armed (timer : ℕ)
  | invalidated
  | resumed
  deriving DecidableEq

structure Coordinator where
  generation : ℕ := 0
  pending : Option ℕ := none
  timer : Option ℕ := none
  retries : ℕ := 0
  stopped : Bool := false
  armed : List Timer := []
  operations : List Operation := []
  nextOperation : ℕ := 0
  nextTimer : ℕ := 0
  log : List Event := []
  deriving DecidableEq

/-- `Math.min(90_000, Math.max(1000, remaining / 10))`. -/
def renewalLeadMillis (remaining : ℚ) : ℚ := min 90000 (max 1000 (remaining / 10))

namespace Coordinator

def record (c : Coordinator) (e : Event) : Coordinator := { c with log := c.log ++ [e] }

/-- `clearTimeout(timer); timer = undefined`. -/
def stopTimer (c : Coordinator) : Coordinator :=
  { c with armed := c.armed.filter fun t => decide (c.timer ≠ some t.id), timer := none }

/-- `timer = setTimeout(…, delay)`. -/
def setTimer (c : Coordinator) (kind : TimerKind) (delay : ℚ) : Coordinator :=
  { c with
    armed := c.armed ++ [⟨c.nextTimer, kind, delay⟩]
    timer := some c.nextTimer
    nextTimer := c.nextTimer + 1
    log := c.log ++ [.armed c.nextTimer] }

def schedule (c : Coordinator) (expiresAt now : ℚ) : Coordinator :=
  let remaining := expiresAt * 1000 - now
  let lead := renewalLeadMillis remaining
  if c.stopped then c.stopTimer else c.stopTimer.setTimer .renewal (max 1000 (remaining - lead))

/-- The synchronous part of `refresh`: it starts a request unless one is pending. -/
def refresh (c : Coordinator) : Coordinator :=
  if c.stopped = true ∨ c.pending.isSome = true then c
  else
    { c with
      operations := c.operations ++ [⟨c.nextOperation, c.generation, .requested⟩]
      pending := some c.nextOperation
      nextOperation := c.nextOperation + 1
      log := c.log ++ [.started c.nextOperation] }

def invalidate (c : Coordinator) : Coordinator :=
  ({ c with generation := c.generation + 1, stopped := true }.record .invalidated).stopTimer

def resume (c : Coordinator) : Coordinator :=
  { c with generation := c.generation + 1, stopped := false, retries := 0 }.record .resumed

def call (c : Coordinator) : Call → Coordinator
  | .refresh => c.refresh
  | .schedule expiresAt now => c.schedule expiresAt now
  | .invalidate => c.invalidate
  | .resume => c.resume

/-- `[5000, 30000][retries]`. -/
def retryDelay : ℕ → ℚ
  | 0 => 5000
  | _ => 30000

/-- The `catch` block. -/
def handleError (c : Coordinator) (op : Operation) (status : ℕ) : Coordinator × RenewalResult :=
  if c.generation ≠ op.version then (c, .cancelled)
  else if status = 401 then (c.stopTimer.record (.expired op.id), .expired)
  else
    let c := c.record (.unavailable op.id)
    if (status = 0 ∨ 500 ≤ status) ∧ c.retries < 2 then
      ({ c.stopTimer.setTimer .retry (retryDelay c.retries) with retries := c.retries + 1 }, .unavailable)
    else (c, .unavailable)

/-- The `async` body after `await options.request()`. -/
def handle (c : Coordinator) (op : Operation) : Settlement → Coordinator × RenewalResult
  | .failed status => c.handleError op status
  | .answered response =>
    if c.generation ≠ op.version then (c, .cancelled)
    else
      let c := response.calls.foldl call ({ c with retries := 0 }.record (.applied op.id))
      match response.thrown with
      | some status => c.handleError op status
      | none => (c.schedule response.expiresAt response.now, .renewed)

def setStage (c : Coordinator) (id : ℕ) (stage : Stage) : Coordinator :=
  { c with operations := c.operations.map fun op => if op.id = id then { op with stage := stage } else op }

/-- The operation `id`, where it is at a stage that `f` accepts. -/
def operationAt {α : Type} (c : Coordinator) (id : ℕ) (f : Stage → Option α) : Option (Operation × α) :=
  (c.operations.find? fun op => op.id = id).bind fun op => (f op.stage).map fun a => (op, a)

end Coordinator

def Stage.requested? : Stage → Option Unit
  | .requested => some ()
  | _ => none

def Stage.settled? : Stage → Option Settlement
  | .settled s => some s
  | _ => none

def Stage.finished? : Stage → Option RenewalResult
  | .finished r => some r
  | _ => none

inductive Action
  | call (c : Call)
  | settle (operation : ℕ) (s : Settlement)
  | proceed (operation : ℕ)
  | clear (operation : ℕ)
  | fire (timer : ℕ) (active : Bool)
  deriving DecidableEq

namespace Coordinator

/-- One turn of the event loop; one that has nothing to run leaves the state alone. -/
def step (c : Coordinator) : Action → Coordinator
  | .call x => c.call x
  | .settle id s =>
    match c.operationAt id Stage.requested? with
    | some _ => c.setStage id (.settled s)
    | none => c
  | .proceed id =>
    match c.operationAt id Stage.settled? with
    | some (op, s) => (c.handle op s).1.setStage id (.finished (c.handle op s).2)
    | none => c
  | .clear id =>
    match c.operationAt id Stage.finished? with
    | some _ =>
      { c with
        operations := c.operations.filter fun op => op.id ≠ id
        pending := if c.pending = some id then none else c.pending }
    | none => c
  | .fire id active =>
    match c.armed.find? fun t => t.id = id with
    | some t =>
      let c := { c with armed := c.armed.filter fun t => t.id ≠ id }
      if t.kind = .renewal ∧ active = false then c else c.refresh
    | none => c

end Coordinator

/-! ## What is promised -/

/-- The operation whose result the event acts on. -/
def Event.actsOn : Event → Option ℕ
  | .applied op | .expired op | .unavailable op => some op
  | _ => none

/-- `invalidate` or `resume`. -/
def Event.interrupts : Event → Bool
  | .invalidated | .resumed => true
  | _ => false

def Event.starts : Event → Bool
  | .started _ | .armed _ => true
  | _ => false

/-- The request of `op` has been started, and nothing has interrupted it since. -/
def Uninterrupted (op : ℕ) (log : List Event) : Prop :=
  ∃ before since, log = before ++ .started op :: since ∧ ∀ e ∈ since, e.interrupts = false

/-- There has been an `invalidate` and no `resume` since. -/
def Halted (log : List Event) : Prop := ∃ before since, log = before ++ .invalidated :: since ∧ .resumed ∉ since

/-- A result is acted on only without an interruption; nothing starts between `invalidate` and `resume`. -/
def Allowed (log : List Event) (e : Event) : Prop :=
  (∀ op, e.actsOn = some op → Uninterrupted op log) ∧ (Halted log → e.starts = false)

structure Coordinator.Guarded (c : Coordinator) : Prop where
  oneRequest : (c.operations.filter fun op => op.stage = .requested).length ≤ 1
  oneTimer : c.armed.length ≤ 1
  allowed : Explained Allowed c.log
  unarmed : Halted c.log → c.armed = []

end LcsSystem.Renewal
