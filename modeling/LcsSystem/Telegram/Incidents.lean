import LcsSystem.Core.Validation
import LcsSystem.Telegram.Monitor
import LcsSystem.Telegram.Outbox

/-!
# Incident alerts

`incident` of `src/backend/app/modules/telegram/monitor.py:30-58`, fed with the samples of one key, and `enqueue_admin`
of `outbox.py:50-65`, which it calls.

| here             | there                                                                          |
|------------------|--------------------------------------------------------------------------------|
| `Watch`          | what every call for the key passes: category, duration, the rule of the category |
| `Sample`         | one call, with the configuration that it finds                                  |
| `IncidentRow`    | the row of the key in `notification_incidents`                                  |
| `QueuedAlert`    | a row of `notification_outbox`; `payload["text"]` is kept in its parts           |
| `Entry`          | what one sample found and did, kept beside the tables                            |

A sample reads the clock once; times are microseconds. What other producers queue arrives with the next sample.
-/

namespace LcsSystem.Telegram
open History Transition

inductive Severity
  | info | warning | critical
  deriving DecidableEq, Repr

/-- `SEVERITY`. -/
def Severity.rank : Severity → ℕ
  | .info => 0
  | .warning => 1
  | .critical => 2

/-- `policy(value, category)`. -/
structure AlertRule where
  enabled : Bool := true
  minimumSeverity : Severity := .warning
  cooldownMinutes : ℕ
  notifyOnRecovery : Bool := true
  maxAttempts : ℕ := 3
  cooldown_pos : 0 < cooldownMinutes

structure Watch where
  key : String
  category : String
  /-- Seconds. -/
  duration : ℕ
  rule : AlertRule

/-- The configuration beside the rule. -/
structure AlertTarget where
  enabled : Bool
  adminGroupId : Option ℤ
  botId : Option ℤ

structure QueuedAlert where
  eventType : String
  category : String
  severity : Severity
  destinationReference : ℤ
  summary : String
  reference : String
  botId : Option ℤ
  createdAt : ℕ
  expiresAt : ℕ
  maxAttempts : ℕ
  deduplicationKey : String

structure Sample where
  now : ℕ
  failing : Bool
  recovered : Bool := true
  summary : String := ""
  severity : Severity := .warning
  measured : ℕ := 0
  target : AlertTarget
  /-- What other producers have queued since the last sample. -/
  others : List QueuedAlert := []

inductive IncidentState
  | pending | active | resolved
  deriving DecidableEq, Repr

structure IncidentRow where
  firstSeenAt : ℕ
  lastSentAt : Option ℕ := none
  state : IncidentState := .pending
  measuredValue : ℕ

/-! ## Queueing -/

/-- The events that the second check of the security and backup categories leaves alone. -/
def backupResults : List String := ["BACKUP_SUCCEEDED", "BACKUP_FAILED"]

/-- A queued row of the event and category is younger than the cooldown. -/
def hasRecent (rule : AlertRule) (queue : List QueuedAlert) (now : ℕ) (event category : String) : Bool :=
  queue.any fun row => row.eventType == event && row.category == category &&
    decide (now < row.createdAt + minutes rule.cooldownMinutes)

/-- `enqueue_admin`: the row that it adds, if it does. -/
def enqueueAdmin (rule : AlertRule) (target : AlertTarget) (queue : List QueuedAlert) (now : ℕ)
    (event category : String) (severity : Severity) (reference summary dedup : String) : Option QueuedAlert :=
  match target.adminGroupId.filter (fun group => group ≠ 0) with
  | none => none
  | some group =>
    if target.enabled = false ∨ rule.enabled = false ∨ severity.rank < rule.minimumSeverity.rank then none
    else if queue.any (fun row => row.deduplicationKey == dedup) = true then none
    else if category ∈ ["security", "backup"] ∧ event ∉ backupResults ∧ hasRecent rule queue now event category = true
    then none
    else some
      { eventType := event
        category := category
        severity := severity
        destinationReference := group
        summary := String.ofList (summary.toList.take 600)
        reference := String.ofList (reference.toList.take 100)
        botId := target.botId
        createdAt := now
        expiresAt := now + minutes 1440
        maxAttempts := rule.maxAttempts
        deduplicationKey := dedup }

/-! ## One sample -/

namespace Watch

/-- `enqueue_admin` for the incident itself. -/
def alert (w : Watch) (queue : List QueuedAlert) (row : IncidentRow) (x : Sample) : Option QueuedAlert :=
  enqueueAdmin w.rule x.target queue x.now (upper w.key) w.category x.severity "Runtime monitor" x.summary
    s!"incident:{w.key}:{row.firstSeenAt / 1000000}:{x.now / 1000000 / (w.rule.cooldownMinutes * 60)}"

def recoveryDedup (w : Watch) (row : IncidentRow) : String := s!"recovery:{w.key}:{row.firstSeenAt}"

/-- `enqueue_admin` for its recovery. -/
def recovery (w : Watch) (queue : List QueuedAlert) (row : IncidentRow) (x : Sample) : Option QueuedAlert :=
  if row.state = .active ∧ w.rule.notifyOnRecovery = true then
    enqueueAdmin w.rule x.target queue x.now (upper w.key ++ "_RECOVERED") w.category x.severity "Runtime monitor"
      ("Recovered: " ++ w.key.map (fun c => if c = '_' then ' ' else c) ++
        ". Runtime checks meet the recovery criteria.") (w.recoveryDedup row)
  else none

end Watch

namespace IncidentRow

/-- A resolved incident that fails again is a new one. -/
def reopened (row : IncidentRow) (now : ℕ) : IncidentRow :=
  if row.state = .resolved then { row with state := .pending, firstSeenAt := now } else row

def Mature (row : IncidentRow) (w : Watch) (now : ℕ) : Prop := row.firstSeenAt + seconds w.duration ≤ now

def CooledDown (row : IncidentRow) (w : Watch) (now : ℕ) : Prop :=
  ∀ sent ∈ row.lastSentAt, sent + minutes w.rule.cooldownMinutes ≤ now

instance (row : IncidentRow) (w : Watch) (now : ℕ) : Decidable (row.Mature w now) := inferInstanceAs (Decidable (_ ≤ _))

instance (row : IncidentRow) (w : Watch) (now : ℕ) : Decidable (row.CooledDown w now) :=
  inferInstanceAs (Decidable (∀ _ ∈ _, _))

end IncidentRow

structure Outcome where
  row : Option IncidentRow := none
  alert : Option QueuedAlert := none
  recovery : Option QueuedAlert := none

/-- `incident` behind the lookup of its row. -/
def outcome (w : Watch) (queue : List QueuedAlert) (row : IncidentRow) (x : Sample) : Outcome :=
  let row := { row with measuredValue := x.measured }
  if x.failing = true then
    let row := row.reopened x.now
    if row.Mature w x.now ∧ row.CooledDown w x.now then
      match w.alert queue row x with
      | some alert => { row := some { row with lastSentAt := some x.now, state := .active }, alert := some alert }
      | none => { row := some row }
    else { row := some row }
  else if row.state = .pending then { row := some { row with state := .resolved, lastSentAt := none } }
  else if x.recovered = true then
    { row := some { row with state := .resolved, lastSentAt := none }, recovery := w.recovery queue row x }
  else { row := some row }

/-- `session.get`, and the new row of a first failure. -/
def found (row : Option IncidentRow) (x : Sample) : Option IncidentRow :=
  row.or (if x.failing = true then some { firstSeenAt := x.now, measuredValue := x.measured } else none)

/-- `incident`. -/
def incident (w : Watch) (queue : List QueuedAlert) (row : Option IncidentRow) (x : Sample) : Outcome :=
  match found row x with
  | some row => outcome w queue row x
  | none => {}

/-! ## Feeding the samples -/

structure Entry where
  sample : Sample
  /-- The state that the sample found. -/
  before : Option IncidentState
  outcome : Outcome

structure IncidentTables where
  row : Option IncidentRow := none
  queue : List QueuedAlert := []
  log : List Entry := []

def feed (w : Watch) (s : IncidentTables) (x : Sample) : IncidentTables :=
  let queue := s.queue ++ x.others
  let result := incident w queue s.row x
  { row := result.row
    queue := queue ++ result.alert.toList ++ result.recovery.toList
    log := s.log ++ [⟨x, s.row.map IncidentRow.state, result⟩] }

namespace Entry

def alerts (e : Entry) : Prop := e.outcome.alert.isSome = true

def recovers (e : Entry) : Prop := e.outcome.recovery.isSome = true

def stateAfter (e : Entry) : Option IncidentState := e.outcome.row.map IncidentRow.state

/-- A sample that does not fail, while the incident is pending. -/
def interrupts (e : Entry) : Prop := e.sample.failing = false ∧ e.before = some .pending

instance (e : Entry) : Decidable e.alerts := inferInstanceAs (Decidable (_ = _))
instance (e : Entry) : Decidable e.recovers := inferInstanceAs (Decidable (_ = _))
instance (e : Entry) : Decidable e.interrupts := inferInstanceAs (Decidable (_ ∧ _))

end Entry

/-! ## What an entry is to be worth -/

/-- The incident was resolved after this entry. -/
def Entry.resolves (e : Entry) : Prop := e.stateAfter = some .resolved

/-- What allows an alert: the incident has lasted, without an interruption since it was first seen. -/
structure Sustained (w : Watch) (before : List Entry) (e : Entry) (row : IncidentRow) : Prop where
  failing : e.sample.failing = true
  mature : row.firstSeenAt + seconds w.duration ≤ e.sample.now
  uninterrupted : ∀ x ∈ before, row.firstSeenAt ≤ x.sample.now → ¬x.interrupts

/-- What allows a recovery message: an alert, since which the incident has been active and nothing has recovered. -/
structure Recovered (before : List Entry) (e : Entry) : Prop where
  sample : e.sample.failing = false ∧ e.sample.recovered = true
  episode : ∃ first x since, before = first ++ x :: since ∧ x.alerts ∧
    ∀ y ∈ since, y.stateAfter = some .active ∧ ¬y.recovers

/-- An alert and the alerts before it are at least the cooldown apart. -/
def Apart (w : Watch) (before : List Entry) (e : Entry) : Prop :=
  ∀ x ∈ before, x.alerts → x.sample.now + minutes w.rule.cooldownMinutes ≤ e.sample.now

/-- They are so unless the incident was resolved between them. -/
def ApartInEpisode (w : Watch) (before : List Entry) (e : Entry) : Prop :=
  ∀ first x since, before = first ++ x :: since → x.alerts → (∀ y ∈ since, ¬y.resolves) →
    x.sample.now + minutes w.rule.cooldownMinutes ≤ e.sample.now

/-- Categories in which `enqueue_admin` looks for a recent row of the event. -/
def Watch.guarded (w : Watch) : Prop := w.category ∈ ["security", "backup"] ∧ upper w.key ∉ backupResults

/-- What is promised of one entry, with every alert at least the cooldown after the others. -/
structure Warranted (w : Watch) (before : List Entry) (e : Entry) : Prop where
  sustained : e.alerts → ∃ row, e.outcome.row = some row ∧ Sustained w before e row
  apart : e.alerts → Apart w before e
  recovered : e.recovers → Recovered before e

/-- The same with what the code leaves of the second part. -/
structure WarrantedInEpisode (w : Watch) (before : List Entry) (e : Entry) : Prop where
  sustained : e.alerts → ∃ row, e.outcome.row = some row ∧ Sustained w before e row
  apart : e.alerts → ApartInEpisode w before e
  guarded : e.alerts → w.guarded → Apart w before e
  recovered : e.recovers → Recovered before e

/-! ## The invariant -/

structure Tracked (w : Watch) (s : IncidentTables) : Prop where
  /-- The last alert that was not resolved is in the row. -/
  lastSent : ∀ first x since, s.log = first ++ x :: since → x.alerts → (∀ y ∈ since, ¬y.resolves) →
    ∃ row sent, s.row = some row ∧ row.lastSentAt = some sent ∧ x.sample.now ≤ sent
  active : ∀ row, s.row = some row → row.state = .active → ∃ first x since, s.log = first ++ x :: since ∧ x.alerts ∧
    ∀ y ∈ since, y.stateAfter = some .active ∧ ¬y.recovers
  uninterrupted : ∀ row, s.row = some row → row.state ≠ .resolved →
    ∀ x ∈ s.log, row.firstSeenAt ≤ x.sample.now → ¬x.interrupts
  queued : ∀ x ∈ s.log, x.alerts → ∃ a ∈ s.queue, a.eventType = upper w.key ∧ a.category = w.category ∧
    a.createdAt = x.sample.now
  explained : Explained (WarrantedInEpisode w) s.log

theorem tracked_empty (w : Watch) (queue : List QueuedAlert) : Tracked w { queue := queue } where
  lastSent first x since h := by simp at h
  active row h := by cases h
  uninterrupted row h := by cases h
  queued x h := by cases h
  explained := explained_nil

/-! ## What `enqueue_admin` adds -/

theorem enqueueAdmin_eq_some {rule : AlertRule} {target : AlertTarget} {queue : List QueuedAlert} {now : ℕ}
    {event category : String} {severity : Severity} {reference summary dedup : String} {row : QueuedAlert}
    (h : enqueueAdmin rule target queue now event category severity reference summary dedup = some row) :
    row.eventType = event ∧ row.category = category ∧ row.createdAt = now ∧
      (category ∈ ["security", "backup"] → event ∉ backupResults → hasRecent rule queue now event category = false) := by
  unfold enqueueAdmin at h
  split at h
  · cases h
  · split at h
    · cases h
    · split at h
      · cases h
      · split at h
        · cases h
        · next hrecent =>
          cases h
          refine ⟨rfl, rfl, rfl, fun hcategory hevent => ?_⟩
          by_contra hfound
          exact hrecent ⟨hcategory, hevent, by simpa using hfound⟩

/-- A guarded alert is at least the cooldown behind every queued one of its event. -/
theorem createdAt_of_alert {w : Watch} (hguarded : w.guarded) {queue : List QueuedAlert} {row : IncidentRow} {x : Sample}
    {alert : QueuedAlert} (h : w.alert queue row x = some alert) {a : QueuedAlert} (ha : a ∈ queue)
    (hevent : a.eventType = upper w.key) (hcategory : a.category = w.category) :
    a.createdAt + minutes w.rule.cooldownMinutes ≤ x.now := by
  obtain ⟨-, -, -, hrecent⟩ := enqueueAdmin_eq_some h
  have hnone := hrecent hguarded.1 hguarded.2
  unfold hasRecent at hnone
  rw [List.any_eq_false] at hnone
  have hold := hnone a ha
  simp only [hevent, hcategory, beq_self_eq_true, Bool.and_self, Bool.true_and, decide_eq_true_eq] at hold
  omega

/-! ## What a sample does -/

def entryOf (w : Watch) (s : IncidentTables) (x : Sample) : Entry :=
  ⟨x, s.row.map IncidentRow.state, incident w (s.queue ++ x.others) s.row x⟩

/-- The rows of the old state and of the new one, side by side. -/
structure RunEntry (w : Watch) (s : IncidentTables) (e : Entry) : Prop where
  sent : e.alerts → ∃ row, e.outcome.row = some row ∧ row.lastSentAt = some e.sample.now
  keepsSent : ¬e.alerts → ¬e.resolves → ∀ old sent, s.row = some old → old.lastSentAt = some sent →
    ∃ row, e.outcome.row = some row ∧ row.lastSentAt = some sent
  keepsActive : ¬e.alerts → ∀ row, e.outcome.row = some row → row.state = .active →
    ¬e.recovers ∧ ∃ old, s.row = some old ∧ old.state = .active
  seen : ∀ row, e.outcome.row = some row → row.state ≠ .resolved → ¬e.interrupts ∧
    (row.firstSeenAt = e.sample.now ∨ ∃ old, s.row = some old ∧ old.state ≠ .resolved ∧ old.firstSeenAt = row.firstSeenAt)
  alerting : e.alerts → ∃ row, e.outcome.row = some row ∧ row.state ≠ .resolved ∧ e.sample.failing = true ∧
    row.firstSeenAt + seconds w.duration ≤ e.sample.now ∧
    ∀ old sent, s.row = some old → old.lastSentAt = some sent → sent + minutes w.rule.cooldownMinutes ≤ e.sample.now
  queueing : ∀ a, e.outcome.alert = some a → a.eventType = upper w.key ∧ a.category = w.category ∧
    a.createdAt = e.sample.now ∧ (w.guarded → ∀ b ∈ s.queue, b.eventType = upper w.key → b.category = w.category →
      b.createdAt + minutes w.rule.cooldownMinutes ≤ e.sample.now)
  recovering : e.recovers → e.sample.failing = false ∧ e.sample.recovered = true ∧
    ∃ old, s.row = some old ∧ old.state = .active

/-- A sample that does not fail, before a first failure. -/
theorem follows_of_idle {w : Watch} {s : IncidentTables} {e : Entry} (hrow : s.row = none) (h : e.outcome = {}) :
    RunEntry w s e where
  sent halert := by simp [Entry.alerts, h] at halert
  keepsSent _ _ old sent hold := by rw [hrow] at hold; cases hold
  keepsActive _ row hnew := by rw [h] at hnew; cases hnew
  seen row hnew := by rw [h] at hnew; cases hnew
  alerting halert := by simp [Entry.alerts, h] at halert
  queueing a ha := by rw [h] at ha; cases ha
  recovering hrec := by simp [Entry.recovers, h] at hrec

namespace IncidentRow

@[simp] theorem lastSentAt_reopened (row : IncidentRow) (now : ℕ) : (row.reopened now).lastSentAt = row.lastSentAt := by
  unfold reopened
  split <;> rfl

theorem reopened_of_ne {row : IncidentRow} (h : row.state ≠ .resolved) (now : ℕ) : row.reopened now = row := if_neg h

theorem state_reopened_ne (row : IncidentRow) (now : ℕ) : (row.reopened now).state ≠ .resolved := by
  by_cases h : row.state = .resolved
  · simp [reopened, h]
  · rwa [reopened_of_ne h]

theorem firstSeenAt_reopened (row : IncidentRow) (now : ℕ) :
    (row.reopened now).firstSeenAt = now ∨ row.state ≠ .resolved ∧ row.firstSeenAt = (row.reopened now).firstSeenAt := by
  by_cases h : row.state = .resolved
  · exact .inl (by simp [reopened, h])
  · exact .inr ⟨h, by rw [reopened_of_ne h]⟩

theorem state_of_reopened_active (row : IncidentRow) {now : ℕ} (h : (row.reopened now).state = .active) :
    row.state = .active := by
  by_cases hresolved : row.state = .resolved
  · simp [reopened, hresolved] at h
  · rwa [reopened_of_ne hresolved] at h

end IncidentRow

/-- The row that a failing sample works on: the stored one, or a new one. -/
def Starts (s : IncidentTables) (x : Sample) (row : IncidentRow) : Prop :=
  s.row = some row ∨ s.row = none ∧ row.state = .pending ∧ row.lastSentAt = none ∧ row.firstSeenAt = x.now

theorem outcome_of_failing (w : Watch) (queue : List QueuedAlert) (row : IncidentRow) {x : Sample}
    (hfailing : x.failing = true) :
    ∃ opened, opened = ({ row with measuredValue := x.measured } : IncidentRow).reopened x.now ∧
      (outcome w queue row x = { row := some opened } ∨
        ∃ alert, w.alert queue opened x = some alert ∧ opened.Mature w x.now ∧ opened.CooledDown w x.now ∧
          outcome w queue row x =
            { row := some { opened with lastSentAt := some x.now, state := .active }, alert := some alert }) := by
  refine ⟨_, rfl, ?_⟩
  unfold outcome
  simp only [hfailing, if_true]
  split
  · next hready =>
    split
    · next alert halert => exact .inr ⟨alert, halert, hready.1, hready.2, rfl⟩
    · exact .inl rfl
  · exact .inl rfl

theorem follows_of_failing {w : Watch} {s : IncidentTables} {e : Entry} {row : IncidentRow}
    (hfailing : e.sample.failing = true) (hstarts : Starts s e.sample row)
    (h : e.outcome = outcome w (s.queue ++ e.sample.others) row e.sample) : RunEntry w s e := by
  obtain ⟨opened, hopened, hcases⟩ := outcome_of_failing w (s.queue ++ e.sample.others) row hfailing
  have hresolved : opened.state ≠ .resolved := hopened ▸ IncidentRow.state_reopened_ne _ _
  have hsent : opened.lastSentAt = row.lastSentAt := by rw [hopened, IncidentRow.lastSentAt_reopened]
  have hkept : ∀ old sent, s.row = some old → old.lastSentAt = some sent → opened.lastSentAt = some sent := by
    intro old sent hold hsome
    rcases hstarts with hrow | ⟨hnone, -⟩
    · rw [hrow, Option.some.injEq] at hold
      rw [hsent, hold, hsome]
    · rw [hnone] at hold
      cases hold
  have hinterrupts : ¬e.interrupts := by
    rintro ⟨hpassing, -⟩
    rw [hfailing] at hpassing
    cases hpassing
  have hseen : opened.firstSeenAt = e.sample.now ∨
      ∃ old, s.row = some old ∧ old.state ≠ .resolved ∧ old.firstSeenAt = opened.firstSeenAt := by
    rw [hopened]
    rcases IncidentRow.firstSeenAt_reopened { row with measuredValue := e.sample.measured } e.sample.now with hnew | ⟨hstate, hsame⟩
    · exact .inl hnew
    · rcases hstarts with hrow | ⟨-, -, -, hnew⟩
      · exact .inr ⟨row, hrow, hstate, hsame⟩
      · exact .inl (hsame ▸ hnew)
  rcases hcases with hout | ⟨alert, halert, hmature, hcooled, hout⟩
  · -- Nothing is queued.
    rw [hout] at h
    have hquiet : ¬e.alerts := by simp [Entry.alerts, h]
    refine ⟨fun ha => absurd ha hquiet, fun _ _ old sent hold hsome => ⟨opened, by rw [h], hkept old sent hold hsome⟩, ?_, ?_,
      fun ha => absurd ha hquiet, fun a ha => ?_, fun hrec => ?_⟩
    · intro _ row' hrow' hactive
      rw [h, Option.some.injEq] at hrow'
      subst hrow'
      refine ⟨by simp [Entry.recovers, h], ?_⟩
      rw [hopened] at hactive
      have hstate : row.state = .active :=
        IncidentRow.state_of_reopened_active { row with measuredValue := e.sample.measured } hactive
      rcases hstarts with hrow | ⟨-, hpending, -⟩
      · exact ⟨row, hrow, hstate⟩
      · rw [hpending] at hstate
        cases hstate
    · intro row' hrow' _
      rw [h, Option.some.injEq] at hrow'
      subst hrow'
      exact ⟨hinterrupts, hseen⟩
    · rw [h] at ha
      cases ha
    · simp [Entry.recovers, h] at hrec
  · -- The alert is queued.
    rw [hout] at h
    have hloud : e.alerts := by simp [Entry.alerts, h]
    obtain ⟨hevent, hcategory, hcreated, -⟩ := enqueueAdmin_eq_some halert
    refine ⟨fun _ => ⟨_, by rw [h], rfl⟩, fun hquiet => absurd hloud hquiet, fun hquiet => absurd hloud hquiet, ?_, ?_, ?_,
      fun hrec => ?_⟩
    · intro row' hrow' _
      rw [h, Option.some.injEq] at hrow'
      subst hrow'
      exact ⟨hinterrupts, hseen⟩
    · intro _
      refine ⟨_, by rw [h], by simp, hfailing, ?_, fun old sent hold hsome => ?_⟩
      · exact hmature
      · exact hcooled sent (hkept old sent hold hsome)
    · intro a ha
      rw [h, Option.some.injEq] at ha
      subst ha
      refine ⟨hevent, hcategory, hcreated, fun hguarded b hb hbevent hbcategory => ?_⟩
      exact createdAt_of_alert hguarded halert (List.mem_append_left _ hb) hbevent hbcategory
    · simp [Entry.recovers, h] at hrec

theorem follows_of_passing {w : Watch} {s : IncidentTables} {e : Entry} {row : IncidentRow}
    (hpassing : e.sample.failing = false) (hrow : s.row = some row) (hbefore : e.before = some row.state)
    (h : e.outcome = outcome w (s.queue ++ e.sample.others) row e.sample) : RunEntry w s e := by
  have hquiet : ¬e.alerts := by
    unfold Entry.alerts
    rw [h]
    unfold outcome
    simp only [hpassing, Bool.false_eq_true, if_false]
    split
    · simp
    · split <;> simp
  have hnone : ∀ a, e.outcome.alert ≠ some a := by
    intro a ha
    exact hquiet (by simp [Entry.alerts, ha])
  by_cases hpending : row.state = .pending
  · -- The timer restarts.
    have hout : e.outcome = { row := some { row with measuredValue := e.sample.measured, state := .resolved, lastSentAt := none } } := by
      rw [h]
      simp [outcome, hpassing, hpending]
    have hresolves : e.resolves := by simp [Entry.resolves, Entry.stateAfter, hout]
    refine ⟨fun ha => absurd ha hquiet, fun _ hno => absurd hresolves hno, ?_, ?_, fun ha => absurd ha hquiet,
      fun a ha => absurd ha (hnone a), fun hrec => by simp [Entry.recovers, hout] at hrec⟩
    · intro _ row' hrow' hactive
      rw [hout, Option.some.injEq] at hrow'
      subst hrow'
      cases hactive
    · intro row' hrow' hne
      rw [hout, Option.some.injEq] at hrow'
      subst hrow'
      exact absurd rfl hne
  · have hinterrupts : ¬e.interrupts := by
      intro hi
      rw [Entry.interrupts, hbefore, Option.some.injEq] at hi
      exact hpending hi.2
    by_cases hrecovered : e.sample.recovered = true
    · have hout : e.outcome =
          { row := some { row with measuredValue := e.sample.measured, state := .resolved, lastSentAt := none }
            recovery := w.recovery (s.queue ++ e.sample.others) { row with measuredValue := e.sample.measured } e.sample } := by
        rw [h]
        simp [outcome, hpassing, hpending, hrecovered]
      have hresolves : e.resolves := by simp [Entry.resolves, Entry.stateAfter, hout]
      refine ⟨fun ha => absurd ha hquiet, fun _ hno => absurd hresolves hno, ?_, ?_, fun ha => absurd ha hquiet,
        fun a ha => absurd ha (hnone a), fun hrec => ⟨hpassing, hrecovered, row, hrow, ?_⟩⟩
      · intro _ row' hrow' hactive
        rw [hout, Option.some.injEq] at hrow'
        subst hrow'
        cases hactive
      · intro row' hrow' hne
        rw [hout, Option.some.injEq] at hrow'
        subst hrow'
        exact absurd rfl hne
      · by_contra hactive
        simp [Entry.recovers, hout, Watch.recovery, hactive] at hrec
    · have hout : e.outcome = { row := some { row with measuredValue := e.sample.measured } } := by
        rw [h]
        simp [outcome, hpassing, hpending, hrecovered]
      refine ⟨fun ha => absurd ha hquiet, fun _ _ old sent hold hsome => ?_, ?_, ?_, fun ha => absurd ha hquiet,
        fun a ha => absurd ha (hnone a), fun hrec => by simp [Entry.recovers, hout] at hrec⟩
      · rw [hrow, Option.some.injEq] at hold
        exact ⟨_, by rw [hout], by rw [hold]; exact hsome⟩
      · intro _ row' hrow' hactive
        rw [hout, Option.some.injEq] at hrow'
        subst hrow'
        exact ⟨by simp [Entry.recovers, hout], row, hrow, hactive⟩
      · intro row' hrow' hne
        rw [hout, Option.some.injEq] at hrow'
        subst hrow'
        exact ⟨hinterrupts, .inr ⟨row, hrow, hne, rfl⟩⟩

theorem runEntry_entryOf (w : Watch) (s : IncidentTables) (x : Sample) : RunEntry w s (entryOf w s x) := by
  cases hrow : s.row with
  | none =>
    by_cases hfailing : x.failing = true
    · have hout : (entryOf w s x).outcome =
          outcome w (s.queue ++ x.others) { firstSeenAt := x.now, measuredValue := x.measured } x := by
        simp [entryOf, incident, found, hrow, hfailing]
      exact follows_of_failing hfailing (.inr ⟨hrow, rfl, rfl, rfl⟩) hout
    · exact follows_of_idle hrow (by simp [entryOf, incident, found, hrow, hfailing])
  | some row =>
    by_cases hfailing : x.failing = true
    · exact follows_of_failing hfailing (.inl hrow) (by simp [entryOf, incident, found, hrow])
    · exact follows_of_passing (Bool.not_eq_true _ ▸ hfailing) hrow (by simp [entryOf, hrow])
        (by simp [entryOf, incident, found, hrow])

/-! ## Runs -/

theorem RunEntry.warranted {w : Watch} {s : IncidentTables} {e : Entry} (h : Tracked w s) (hf : RunEntry w s e)
    (hnow : ∀ x ∈ s.log, x.sample.now < e.sample.now) : WarrantedInEpisode w s.log e where
  sustained halert := by
    obtain ⟨row, hrow, hstate, hfailing, hmature, -⟩ := hf.alerting halert
    refine ⟨row, hrow, hfailing, hmature, fun x hx hfirst => ?_⟩
    rcases (hf.seen row hrow hstate).2 with hnew | ⟨old, hold, hne, hsame⟩
    · exact absurd (hnew ▸ hfirst) (not_le.2 (hnow x hx))
    · exact h.uninterrupted old hold hne x hx (hsame ▸ hfirst)
  apart halert := by
    intro first x since hlog hx hopen
    obtain ⟨old, sent, hold, hsent, hle⟩ := h.lastSent first x since hlog hx hopen
    obtain ⟨-, -, -, -, -, hcooled⟩ := hf.alerting halert
    have := hcooled old sent hold hsent
    omega
  guarded halert hguarded := by
    intro x hx hxalert
    obtain ⟨a, ha⟩ := Option.isSome_iff_exists.1 halert
    obtain ⟨b, hb, hevent, hcategory, hcreated⟩ := h.queued x hx hxalert
    obtain ⟨-, -, -, hcooled⟩ := hf.queueing a ha
    rw [← hcreated]
    exact hcooled hguarded b hb hevent hcategory
  recovered hrec := by
    obtain ⟨hfailing, hrecovered, old, hold, hactive⟩ := hf.recovering hrec
    exact ⟨⟨hfailing, hrecovered⟩, h.active old hold hactive⟩

theorem tracked_concat {w : Watch} {s s' : IncidentTables} {e : Entry} (h : Tracked w s) (hf : RunEntry w s e)
    (hnow : ∀ x ∈ s.log, x.sample.now < e.sample.now) (hrow : s'.row = e.outcome.row) (hlog : s'.log = s.log ++ [e])
    (hqueue : ∀ a, a ∈ s.queue ∨ e.outcome.alert = some a → a ∈ s'.queue) : Tracked w s' where
  lastSent first x since hsplit hx hopen := by
    rw [hlog] at hsplit
    rw [hrow]
    by_cases halert : e.alerts
    · obtain ⟨row, hnew, hsent⟩ := hf.sent halert
      refine ⟨row, _, hnew, hsent, ?_⟩
      rcases concat_eq_append_cons hsplit with ⟨rfl, -⟩ | ⟨rest, -, hold⟩
      · exact le_rfl
      · exact (hnow x (by rw [hold]; simp)).le
    · rcases concat_eq_append_cons hsplit with ⟨rfl, -⟩ | ⟨rest, rfl, hold⟩
      · exact absurd hx halert
      · have hlast : ¬e.resolves := hopen e (by simp)
        obtain ⟨old, sent, hstored, hsent, hle⟩ :=
          h.lastSent first x rest hold hx fun y hy => hopen y (List.mem_append_left _ hy)
        obtain ⟨row, hnew, hkept⟩ := hf.keepsSent halert hlast old sent hstored hsent
        exact ⟨row, sent, hnew, hkept, hle⟩
  active row hnew hactive := by
    rw [hrow] at hnew
    rw [hlog]
    by_cases halert : e.alerts
    · exact ⟨s.log, e, [], rfl, halert, by simp⟩
    · obtain ⟨hquiet, old, hold, hwas⟩ := hf.keepsActive halert row hnew hactive
      obtain ⟨first, x, since, hsplit, hx, hsince⟩ := h.active old hold hwas
      refine ⟨first, x, since ++ [e], by rw [hsplit]; simp, hx, fun y hy => ?_⟩
      rcases List.mem_append.1 hy with hy | hy
      · exact hsince y hy
      · rw [List.mem_singleton.1 hy]
        exact ⟨by rw [Entry.stateAfter, hnew, Option.map_some, hactive], hquiet⟩
  uninterrupted row hnew hstate x hx hfirst := by
    rw [hrow] at hnew
    rw [hlog] at hx
    obtain ⟨hquiet, hseen⟩ := hf.seen row hnew hstate
    rcases List.mem_append.1 hx with hx | hx
    · rcases hseen with hfresh | ⟨old, hold, hne, hsame⟩
      · exact absurd (hfresh ▸ hfirst) (not_le.2 (hnow x hx))
      · exact h.uninterrupted old hold hne x hx (hsame ▸ hfirst)
    · rw [List.mem_singleton.1 hx]
      exact hquiet
  queued x hx halert := by
    rw [hlog] at hx
    rcases List.mem_append.1 hx with hx | hx
    · obtain ⟨a, ha, hfacts⟩ := h.queued x hx halert
      exact ⟨a, hqueue a (.inl ha), hfacts⟩
    · rw [List.mem_singleton.1 hx] at halert ⊢
      obtain ⟨a, ha⟩ := Option.isSome_iff_exists.1 halert
      obtain ⟨hevent, hcategory, hcreated, -⟩ := hf.queueing a ha
      exact ⟨a, hqueue a (.inr ha), hevent, hcategory, hcreated⟩
  explained := by
    rw [hlog]
    exact explained_concat.2 ⟨h.explained, hf.warranted h hnow⟩

theorem tracked_feed {w : Watch} {s : IncidentTables} {x : Sample} (h : Tracked w s)
    (hnow : ∀ e ∈ s.log, e.sample.now < x.now) : Tracked w (feed w s x) := by
  refine tracked_concat h (runEntry_entryOf w s x) hnow rfl rfl fun a ha => ?_
  have halert : (entryOf w s x).outcome.alert = (incident w (s.queue ++ x.others) s.row x).alert := rfl
  simp only [feed, List.mem_append, Option.mem_toList]
  rcases ha with ha | ha
  · exact .inl (.inl (.inl ha))
  · exact .inl (.inr (halert ▸ ha))

theorem tracked_run {w : Watch} {samples : List Sample} {s : IncidentTables} (h : Tracked w s)
    (hnow : ∀ e ∈ s.log, ∀ x ∈ samples, e.sample.now < x.now) (htimes : samples.Pairwise fun x y => x.now < y.now) :
    Tracked w (run (feed w) s samples) := by
  induction samples generalizing s with
  | nil => exact h
  | cons x samples ih =>
    obtain ⟨hfirst, hrest⟩ := List.pairwise_cons.1 htimes
    refine ih (tracked_feed h fun e he => hnow e he x List.mem_cons_self) (fun e he y hy => ?_) hrest
    rcases List.mem_append.1 he with he | he
    · exact hnow e he y (List.mem_cons_of_mem _ hy)
    · rw [List.mem_singleton.1 he]
      exact hfirst y hy

/-- **Alerts are warranted.** Fed with samples at increasing times, `incident` queues an alert only for a failure that
has lasted without an interruption, one cooldown after the last alert of the episode, and a recovery message only on a
recovered sample, once after an alert. In the security and backup categories every two alerts are a cooldown apart. -/
theorem incident_alerts_warranted (w : Watch) (queue : List QueuedAlert) (samples : List Sample)
    (htimes : samples.Pairwise fun x y => x.now < y.now) :
    Explained (WarrantedInEpisode w) (run (feed w) { queue := queue } samples).log :=
  (tracked_run (tracked_empty w queue) (by simp) htimes).explained

/-- `server_errors`, with the default rule switched on. -/
def serverErrors : Watch := ⟨"server_errors", "system", 0, { cooldownMinutes := 15, cooldown_pos := Nat.succ_pos 14 }⟩

def sampled (now : ℕ) (failing : Bool) : Sample :=
  { now := minutes now, failing := failing, target := ⟨true, some (-100), none⟩ }

theorem flapping_warranted :
    Explained (WarrantedInEpisode serverErrors)
      (run (feed serverErrors) {} [sampled 1 true, sampled 2 false, sampled 3 true]).log :=
  incident_alerts_warranted serverErrors [] [sampled 1 true, sampled 2 false, sampled 3 true] (by decide +kernel)

/-- Failing, recovered and failing again within three minutes: two alerts. -/
theorem flapping_not_apart :
    ¬Explained (Warranted serverErrors)
      (run (feed serverErrors) {} [sampled 1 true, sampled 2 false, sampled 3 true]).log := by
  intro h
  have hlast := h (run (feed serverErrors) {} [sampled 1 true, sampled 2 false]).log
    (entryOf serverErrors (run (feed serverErrors) {} [sampled 1 true, sampled 2 false]) (sampled 3 true)) [] rfl
  have hapart := hlast.apart (by decide +kernel) (entryOf serverErrors {} (sampled 1 true)) List.mem_cons_self
    (by decide +kernel)
  revert hapart
  decide +kernel

end LcsSystem.Telegram
