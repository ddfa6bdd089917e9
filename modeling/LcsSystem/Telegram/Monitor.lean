import LcsSystem.Lib.Transition

/-!
# The scan of the audit events

`security_events` of `src/backend/app/modules/telegram/monitor.py:61-107` over the table `audit_events`, beside the
transactions that write it. An event takes its id from the sequence when it is inserted and becomes visible when its
transaction commits. A tick holds the advisory lock of `monitor_tick` from before its scan until after its commit, and
what it makes of the events is decided by the one `SELECT` of the scan, so a tick is one action; what the counting
statements of the tick answer is given with it.

| here                | there                                                                       |
|---------------------|-----------------------------------------------------------------------------|
| `AuditLog.cursor`   | `measured_value` of the row `audit_cursor`, an `Integer`; 0 before the first tick |
| `Alert`             | the arguments of `enqueue_admin`                                            |
| `Scan`              | what one tick saw, examined and queued, kept beside the tables              |

Times are microseconds of one clock. A tick whose cursor does not fit its column fails and is rolled back.
-/

namespace LcsSystem.Telegram
open History

structure AuditEvent where
  id : ℕ
  eventType : String
  actorUserId : Option ℕ
  entityId : ℕ
  action : String
  result : String
  /-- `after_json` has one of the keys `roles`, `role`, `role_code`. -/
  changesRole : Bool
  /-- `metadata_json["groups"]`. -/
  groups : List String
  occurredAt : ℕ
  deriving DecidableEq

structure Alert where
  eventId : ℕ
  category : String
  severity : String
  reference : String
  summary : String
  dedup : String
  deriving DecidableEq

def minutes (n : ℕ) : ℕ := n * 60000000

/-! ## One event -/

/-- `part in text`. -/
def hasPart (text part : String) : Bool := decide (part.toList <:+: text.toList)

def postingActions : List String :=
  ["financial_document.post", "financial_document.submit", "journal_entry.post", "journal_entry.submit"]

def roleEvents : List String := ["ROLE_ASSIGNED", "ROLE_CREATED", "ROLE_UPDATED", "ROLE_DELETED", "ROLE_DUPLICATED"]

namespace AuditEvent

/-- Category, severity and summary of what the event is reported as; `count` is what the counting statement answers. -/
def report (e : AuditEvent) (count : ℕ) : Option (String × String × String) :=
  if e.eventType = "LOGIN_FAILED" then
    if 8 ≤ count then
      some ("security", "WARNING",
        s!"Repeated failed login events: {count} in 5 minutes. Review authorized Audit Logs.")
    else none
  else if e.eventType = "AUTHORIZATION_DENIED" then
    if postingActions.any (hasPart e.action) = true then
      some ("security", "WARNING", "Unauthorized financial posting was refused. Review authorized Audit Logs.")
    else if 5 ≤ count then
      some ("security", "WARNING",
        s!"Repeated authorization denial events: {count} in 5 minutes. Review authorized Audit Logs.")
    else none
  else if e.eventType = "ACCOUNT_LOCKED" then
    some ("security", "CRITICAL", "Account temporarily locked after failed logins.")
  else if e.eventType = "REFRESH_REPLAY" then
    some ("security", "CRITICAL", "A consumed refresh credential was reused; its session was revoked.")
  else if e.result = "SUCCESS" ∧ (e.eventType ∈ roleEvents ∨ "POSTING_RULE_".toList <+: e.eventType.toList) then
    some ("security", "WARNING", "Privileged role or posting-rule configuration changed. Review authorized Audit Logs.")
  else if e.eventType = "USER_UPDATED" ∧ e.changesRole = true then
    some ("security", "WARNING", "User role configuration changed. Review authorized Audit Logs.")
  else if e.eventType = "SETTINGS_UPDATED" then
    if "security" ∈ e.groups ∨ "telegram" ∈ e.groups then
      some ("security", "WARNING", "Security or Telegram settings changed. Review authorized Audit Logs.")
    else if "backup" ∈ e.groups then
      some ("backup", "WARNING", "Backup configuration changed. Review authorized Audit Logs.")
    else none
  else if e.eventType = "BACKUP_RESTORE_FAILED" then
    some ("backup", "CRITICAL",
      "Backup restore failed. Review authorized backup logs; no restore success is claimed.")
  else none

/-- `event.actor_user_id or event.entity_id`. -/
def subject (e : AuditEvent) : ℕ :=
  match e.actorUserId with
  | some (n + 1) => n + 1
  | _ => e.entityId

/-- The call of `enqueue_admin`. -/
def alert (e : AuditEvent) (count now cooldownMinutes : ℕ) : Option Alert :=
  (e.report count).map fun r =>
    { eventId := e.id
      category := r.1
      severity := r.2.1
      reference := s!"Audit event #{e.id}"
      summary := r.2.2
      dedup := s!"audit:{e.eventType}:{e.subject}:{now / 1000000 / (cooldownMinutes * 60)}" }

/-- ACCOUNT_LOCKED and REFRESH_REPLAY. -/
def isCritical (e : AuditEvent) : Bool := e.eventType == "ACCOUNT_LOCKED" || e.eventType == "REFRESH_REPLAY"

end AuditEvent

/-! ## The tables and the ticks -/

/-- What one tick saw, in what order it examined, and what it queued. -/
structure Scan where
  visible : List AuditEvent
  examined : List AuditEvent
  alerts : List Alert
  deriving DecidableEq

structure AuditLog where
  clock : ℕ := 0
  nextId : ℕ := 1
  /-- The events of open transactions, with the transaction. -/
  pending : List (ℕ × AuditEvent) := []
  visible : List AuditEvent := []
  cursor : ℕ := 0
  /-- When the last tick ran, and how many events have become visible since. -/
  lastTick : ℕ := 0
  sinceTick : ℕ := 0
  log : List Scan := []
  deriving DecidableEq

inductive AuditAction
  /-- A transaction inserts an event; its id and time are those of the insertion. -/
  | write (txn : ℕ) (event : AuditEvent)
  | commit (txn : ℕ)
  | rollback (txn : ℕ)
  /-- Time passes. -/
  | pass (duration : ℕ)
  | tick (counts : AuditEvent → ℕ) (cooldownMinutes : ℕ)

/-- The largest value of the column of the cursor. -/
def maxCursor : ℕ := 2147483647

namespace AuditLog

/-- `WHERE id > cursor AND occurred_at >= now - 15 minutes ORDER BY id LIMIT 200`. -/
def scanned (s : AuditLog) : List AuditEvent :=
  ((s.visible.filter fun e => decide (s.cursor < e.id) && decide (s.clock ≤ e.occurredAt + minutes 15)).insertionSort
    fun a b => a.id ≤ b.id).take 200

/-- `cursor.measured_value = event.id` for one event after the other. -/
def advanced (cursor : ℕ) (events : List AuditEvent) : ℕ := events.foldl (fun _ e => e.id) cursor

def tick (s : AuditLog) (counts : AuditEvent → ℕ) (cooldownMinutes : ℕ) : AuditLog :=
  if advanced s.cursor s.scanned ≤ maxCursor then
    { s with
      cursor := advanced s.cursor s.scanned
      lastTick := s.clock
      sinceTick := 0
      log := s.log ++ [⟨s.visible, s.scanned, s.scanned.filterMap fun e => e.alert (counts e) s.clock cooldownMinutes⟩] }
  else { s with lastTick := s.clock, sinceTick := 0 }

def eventsOf (s : AuditLog) (txn : ℕ) : List AuditEvent := (s.pending.filter fun p => p.1 == txn).map Prod.snd

def endTxn (s : AuditLog) (txn : ℕ) : List (ℕ × AuditEvent) := s.pending.filter fun p => p.1 != txn

def step (s : AuditLog) : AuditAction → AuditLog
  | .write txn event =>
    { s with
      nextId := s.nextId + 1
      pending := s.pending ++ [(txn, { event with id := s.nextId, occurredAt := s.clock })] }
  | .commit txn =>
    { s with
      pending := s.endTxn txn
      visible := s.visible ++ s.eventsOf txn
      sinceTick := s.sinceTick + (s.eventsOf txn).length }
  | .rollback txn => { s with pending := s.endTxn txn }
  | .pass duration => { s with clock := s.clock + duration }
  | .tick counts cooldownMinutes => s.tick counts cooldownMinutes

/-! ## What is promised -/

/-- A tick at least every minute, and at most 200 events that become visible between two. -/
def Regular (s : AuditLog) : AuditAction → Prop
  | .pass duration => s.clock + duration ≤ s.lastTick + minutes 1
  | .commit txn => s.sinceTick + (s.eventsOf txn).length ≤ 200
  | _ => True

/-- Every event that a tick sees has been examined by exactly one tick so far, and the critical ones have been passed
to `enqueue_admin`. -/
def Seen (before : List Scan) (scan : Scan) : Prop :=
  ∀ e ∈ scan.visible, ((before ++ [scan]).flatMap Scan.examined).count e = 1 ∧
    (e.isCritical = true → ∃ s ∈ before ++ [scan], ∃ a ∈ s.alerts, a.eventId = e.id)

/-- No security event is missed. -/
def Complete (s : AuditLog) : Prop := Explained Seen s.log

/-- A transaction commits its events before a tick has passed them, and within 14 minutes; ids fit the cursor. -/
def InOrder (s : AuditLog) : AuditAction → Prop
  | .write _ _ => s.nextId ≤ maxCursor
  | .commit txn => ∀ e ∈ s.eventsOf txn, s.cursor < e.id ∧ s.clock ≤ e.occurredAt + minutes 14
  | _ => True

instance (s : AuditLog) : ∀ a, Decidable (s.Regular a)
  | .pass _ => inferInstanceAs (Decidable (_ ≤ _))
  | .commit _ => inferInstanceAs (Decidable (_ ≤ _))
  | .write _ _ | .rollback _ | .tick _ _ => .isTrue trivial

instance (s : AuditLog) : ∀ a, Decidable (s.InOrder a)
  | .write _ _ => inferInstanceAs (Decidable (_ ≤ _))
  | .commit _ => inferInstanceAs (Decidable (∀ _ ∈ _, _))
  | .pass _ | .rollback _ | .tick _ _ => .isTrue trivial

end AuditLog
end LcsSystem.Telegram
