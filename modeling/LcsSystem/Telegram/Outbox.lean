import LcsSystem.Lib.Table
import LcsSystem.Lib.Transition

/-!
# The notification outbox

`claim` and `deliver` of `src/backend/app/modules/telegram/outbox.py:68-134` over the table `notification_outbox`
(`models.py:44-71`), run by any number of workers (`worker.py`).

A claim is a transaction of three statements: the `UPDATE` that purges expired ciphertext, the
`SELECT … FOR UPDATE SKIP LOCKED`, and the flush with its commit. What it has locked stays locked until it ends. Every
claim that commits starts one `deliver` for each row it returns; a `deliver` reads the row, checks the destination,
sends, and writes with a guarded `UPDATE` that waits for a locked row. `secrets.token_hex` is the next number of a
counter, and times are microseconds that every step is given, so no clock is promised to agree with another.

| here                | there                                                                        |
|---------------------|------------------------------------------------------------------------------|
| `Surroundings`      | the configuration, the link, the user and the reset token as `deliver` reads them |
| `Delivery`          | how `send_message` ends, and whether the request had left                     |
| `ClaimTxn`          | an open `claim` by its next statement                                         |
| `Sender`            | a `deliver` by its next step                                                  |
-/

namespace LcsSystem.Telegram
open Relational

/-- Microseconds. -/
def seconds (n : ℕ) : ℕ := n * 1000000

inductive OutboxStatus
  | pending | processing | sent | failed | cancelled
  deriving DecidableEq, Repr

/-- PRIVATE or ADMIN. -/
inductive DestinationType
  | privateChat | adminGroup
  deriving DecidableEq, Repr

/-- The columns of `notification_outbox` that the two functions read or write. -/
structure Notification where
  eventType : String
  category : String
  destinationType : DestinationType
  destinationReference : ℤ
  /-- `payload`: its `user_id`, `bot_id` and `reset_id`. -/
  userId : Option ℕ := none
  botId : Option ℤ := none
  resetId : Option ℕ := none
  sensitivePayload : Option String := none
  status : OutboxStatus := .pending
  attempts : ℕ := 0
  maxAttempts : ℕ := 3
  nextAttemptAt : ℕ := 0
  expiresAt : ℕ
  claimToken : Option ℕ := none
  lockedUntil : Option ℕ := none
  sentAt : Option ℕ := none
  lastError : Option String := none
  deriving DecidableEq

namespace OutboxStatus

/-- SENT, FAILED or CANCELLED. -/
def isTerminal : OutboxStatus → Bool
  | .sent | .failed | .cancelled => true
  | .pending | .processing => false

end OutboxStatus

/-! ## Claiming -/

namespace Notification

/-- What the `WHERE` of the claim selects. -/
def due (row : Notification) (now : ℕ) : Bool :=
  match row.status with
  | .pending => row.nextAttemptAt ≤ now
  | .processing => row.lockedUntil.any (· ≤ now)
  | _ => false

def purge (row : Notification) : Notification := { row with sensitivePayload := none }

/-- `row.expires_at <= now or row.attempts >= row.max_attempts`: the claim ends the row instead of handing it out. -/
def exhausted (row : Notification) (now : ℕ) : Bool := row.expiresAt ≤ now || row.maxAttempts ≤ row.attempts

def giveUp (row : Notification) (now : ℕ) : Notification :=
  if row.expiresAt ≤ now then
    { row with status := .cancelled, sensitivePayload := none, lastError := some "expired" }
  else { row with status := .failed, sensitivePayload := none, lastError := some "attempt_limit" }

def handOut (row : Notification) (now token : ℕ) : Notification :=
  { row with
    status := .processing
    attempts := row.attempts + 1
    claimToken := some token
    lockedUntil := some (now + seconds 120) }

end Notification

/-- An open claim. `rows` are the rows as the `SELECT` loaded them. -/
inductive ClaimTxn
  | purge (now batchSize : ℕ)
  | select (now batchSize : ℕ) (purged : List ℕ)
  | commit (now : ℕ) (purged : List ℕ) (rows : List (ℕ × Notification))

/-- The rows it has locked. -/
def ClaimTxn.locks : ClaimTxn → List ℕ
  | .purge _ _ => []
  | .select _ _ purged => purged
  | .commit _ purged rows => purged ++ rows.map Prod.fst

/-! ## Delivering -/

/-- What a `deliver` reads beside its row. -/
structure Surroundings where
  now : ℕ
  enabled : Bool
  configuredBot : Option ℤ
  adminGroupId : Option ℤ
  /-- `policy(value, category)["enabled"]`. -/
  ruleEnabled : String → Bool
  /-- `chat_id` of the link of the user and whether it is blocked. -/
  link : Option (ℤ × Bool)
  /-- Whether the user exists and is ACTIVE. -/
  userActive : Bool
  /-- Whether the reset token has been used, and its expiry. -/
  reset : Option (Bool × ℕ)

def defaultRules : List String := ["security", "backup", "system", "recovery"]

namespace Notification

/-- `eligible` of an ADMIN row. -/
def adminEligible (row : Notification) (around : Surroundings) : Bool :=
  around.adminGroupId == some row.destinationReference && defaultRules.contains row.category &&
    row.category != "recovery" && row.sensitivePayload.isNone && around.ruleEnabled row.category

/-- `eligible` of a PRIVATE row. -/
def privateEligible (row : Notification) (around : Surroundings) : Bool :=
  around.userActive &&
    (row.eventType == "TELEGRAM_UNLINKED" || around.link.any fun l => !l.2 && l.1 == row.destinationReference) &&
    (row.category != "recovery" ||
      (around.ruleEnabled "recovery" && around.reset.any fun r => !r.1 && decide (around.now < r.2)))

def eligible (row : Notification) (around : Surroundings) : Bool :=
  around.enabled && around.configuredBot == row.botId && decide (around.now < row.expiresAt) &&
    match row.destinationType with
    | .adminGroup => row.adminEligible around
    | .privateChat => row.privateEligible around

end Notification

/-- How the attempt ends: sent, a `TelegramError`, or any other exception. -/
inductive DeliveryResult
  | sent
  | refused (code : String) (retryable : Bool) (retryAfter : ℕ)
  | fault
  deriving DecidableEq

/-- An error can come before the request leaves (decryption, a malformed token) or after it. -/
structure Delivery where
  result : DeliveryResult
  reached : Bool
  deriving DecidableEq

namespace Notification

/-- `max(retry_after, min(30 * 2 ** (attempts - 1), 3600))`; the client keeps `retry_after` within a day. -/
def retryDelay (row : Notification) (retryAfter : ℕ) : ℕ :=
  seconds (max (min retryAfter 86400) (min (30 * 2 ^ (row.attempts - 1)) 3600))

/-- The detached copy after the attempt. -/
def settled (row : Notification) (now : ℕ) : DeliveryResult → Notification
  | .sent => { row with status := .sent, sentAt := some now, lastError := none, sensitivePayload := none }
  | .refused code retryable retryAfter =>
    let nextAttempt := now + row.retryDelay retryAfter
    if retryable = true ∧ row.attempts < row.maxAttempts ∧ nextAttempt < row.expiresAt then
      { row with status := .pending, lastError := some code, nextAttemptAt := nextAttempt }
    else
      { row with status := .failed, lastError := some code, nextAttemptAt := nextAttempt, sensitivePayload := none }
  | .fault =>
    { row with status := .failed, lastError := some "delivery_configuration_error", sensitivePayload := none }

/-- The copy of a row whose destination is not eligible. -/
def ineligible (row : Notification) : Notification :=
  { row with status := .cancelled, lastError := some "destination_ineligible", sensitivePayload := none }

/-- `WHERE claim_token = … AND status = 'PROCESSING'`. -/
def heldBy (row : Notification) (token : ℕ) : Bool := row.status == .processing && row.claimToken == some token

/-- The `SET` of the last statement of `deliver`, from the copy. -/
def withResult (row copy : Notification) : Notification :=
  { row with
    status := copy.status
    sentAt := copy.sentAt
    lastError := copy.lastError
    sensitivePayload := copy.sensitivePayload
    nextAttemptAt := copy.nextAttemptAt
    claimToken := none
    lockedUntil := none }

end Notification

inductive SenderStage
  | start
  | check (copy : Notification)
  | send (copy : Notification)
  | write (copy : Notification)
  deriving DecidableEq

structure Sender where
  rowId : ℕ
  token : ℕ
  stage : SenderStage
  deriving DecidableEq

/-! ## The system -/

inductive OutboxEvent
  | claimed (rowId token : ℕ)
  | sent (rowId token : ℕ)
  deriving DecidableEq

structure Outbox where
  rows : Table Notification
  claims : Table ClaimTxn
  senders : Table Sender
  nextToken : ℕ
  log : List OutboxEvent

inductive OutboxAction
  /-- `enqueue_private` or `enqueue_admin` commits. -/
  | enqueue (row : Notification)
  /-- A worker begins a claim. -/
  | claim (now batchSize : ℕ)
  /-- The next statement of a claim. -/
  | advance (claim : ℕ)
  /-- A claim is rolled back. -/
  | abandon (claim : ℕ)
  /-- The next step of a sender. -/
  | deliver (sender : ℕ) (around : Surroundings) (delivery : Delivery)
  /-- A sender stops for good. -/
  | stop (sender : ℕ)

namespace Outbox

def empty : Outbox := ⟨.empty, .empty, .empty, 0, []⟩

/-- No claim but `claim` has locked the row. -/
def freeFor (s : Outbox) (claim rowId : ℕ) : Bool :=
  s.claims.rows.all fun r => r.1 == claim || !decide (rowId ∈ r.2.locks)

def unlocked (s : Outbox) (rowId : ℕ) : Bool := s.claims.rows.all fun r => !decide (rowId ∈ r.2.locks)

/-- The rows the purge matches. -/
def expired (s : Outbox) (now : ℕ) : List ℕ := (s.rows.rows.filter fun r => decide (r.2.expiresAt ≤ now)).map Prod.fst

/-- `ORDER BY next_attempt_at, id LIMIT … FOR UPDATE SKIP LOCKED`; rows stand in the order of their ids. -/
def selected (s : Outbox) (claim now batchSize : ℕ) : List (ℕ × Notification) :=
  ((s.rows.rows.filter fun r => r.2.due now && s.freeFor claim r.1).insertionSort
    fun a b => a.2.nextAttemptAt ≤ b.2.nextAttemptAt).take (min batchSize 10)

/-- One row of the claim: ended, or handed out to a new `deliver`. -/
def claimRow (now : ℕ) (s : Outbox) (r : ℕ × Notification) : Outbox :=
  if r.2.exhausted now = true then { s with rows := s.rows.modify r.1 fun _ => r.2.giveUp now }
  else
    { s with
      rows := s.rows.modify r.1 fun _ => r.2.handOut now s.nextToken
      senders := s.senders.insert ⟨r.1, s.nextToken, .start⟩
      nextToken := s.nextToken + 1
      log := s.log ++ [.claimed r.1 s.nextToken] }

def purgeRows (rows : Table Notification) (purged : List ℕ) : Table Notification :=
  purged.foldl (fun t id => t.modify id Notification.purge) rows

def endClaim (s : Outbox) (claim : ℕ) : Outbox := { s with claims := s.claims.erase fun i _ => i == claim }

/-- The flush and the commit. A loaded row carries the purge of its own transaction. -/
def commitClaim (s : Outbox) (claim now : ℕ) (purged : List ℕ) (rows : List (ℕ × Notification)) : Outbox :=
  rows.foldl (claimRow now) { s.endClaim claim with rows := purgeRows s.rows purged }

def advanceClaim (s : Outbox) (claim : ℕ) : ClaimTxn → Outbox
  | .purge now batchSize =>
    if (s.expired now).all (s.freeFor claim) = true then
      { s with claims := s.claims.modify claim fun _ => .select now batchSize (s.expired now) }
    else s
  | .select now batchSize purged =>
    let rows := (s.selected claim now batchSize).map fun r => (r.1, if r.1 ∈ purged then r.2.purge else r.2)
    { s with claims := s.claims.modify claim fun _ => .commit now purged rows }
  | .commit now purged rows => s.commitClaim claim now purged rows

def endSender (s : Outbox) (sender : ℕ) : Outbox := { s with senders := s.senders.erase fun i _ => i == sender }

def setStage (s : Outbox) (sender : ℕ) (stage : SenderStage) : Outbox :=
  { s with senders := s.senders.modify sender fun t => { t with stage := stage } }

/-- The guarded `UPDATE` and the commit; it waits while a claim holds the row. -/
def writeResult (s : Outbox) (sender : ℕ) (t : Sender) (copy : Notification) : Outbox :=
  if s.unlocked t.rowId = true then
    { s.endSender sender with
      rows := s.rows.modify t.rowId fun row => if row.heldBy t.token = true then row.withResult copy else row }
  else s

def advanceSender (s : Outbox) (sender : ℕ) (t : Sender) (around : Surroundings) (delivery : Delivery) : Outbox :=
  match t.stage with
  | .start =>
    match s.rows.get? t.rowId with
    | some row => if row.heldBy t.token = true then s.setStage sender (.check row) else s.endSender sender
    | none => s.endSender sender
  | .check copy =>
    if copy.eligible around = true then s.setStage sender (.send copy) else s.setStage sender (.write copy.ineligible)
  | .send copy =>
    let s := if delivery.reached = true then { s with log := s.log ++ [.sent t.rowId t.token] } else s
    s.setStage sender (.write (copy.settled around.now delivery.result))
  | .write copy => s.writeResult sender t copy

def step (s : Outbox) : OutboxAction → Outbox
  | .enqueue row =>
    { s with
      rows := s.rows.insert
        { row with
          status := .pending
          attempts := 0
          claimToken := none
          lockedUntil := none
          sentAt := none
          lastError := none } }
  | .claim now batchSize => { s with claims := s.claims.insert (.purge now batchSize) }
  | .advance claim =>
    match s.claims.get? claim with
    | some t => s.advanceClaim claim t
    | none => s
  | .abandon claim => s.endClaim claim
  | .deliver sender around delivery =>
    match s.senders.get? sender with
    | some t => s.advanceSender sender t around delivery
    | none => s
  | .stop sender => s.endSender sender

/-! ## What is promised -/

/-- The claims of the history as pairs of row and token. -/
def claimsOf (log : List OutboxEvent) : List (ℕ × ℕ) :=
  log.filterMap fun e => match e with
    | .claimed rowId token => some (rowId, token)
    | .sent _ _ => none

def sendsOf (log : List OutboxEvent) : List (ℕ × ℕ) :=
  log.filterMap fun e => match e with
    | .sent rowId token => some (rowId, token)
    | .claimed _ _ => none

/-- The claim `token` of the row is its latest one. -/
def Latest (log : List OutboxEvent) (rowId token : ℕ) : Prop :=
  ((claimsOf log).filter fun c => c.1 = rowId).getLast? = some (rowId, token)

structure Delivers (s : Outbox) : Prop where
  attempts : ∀ id row, s.rows.get? id = some row → row.attempts ≤ row.maxAttempts
  /-- One send for a claim token. -/
  sentOnce : ((sendsOf s.log).map Prod.snd).Nodup
  sends : ∀ id row, s.rows.get? id = some row → ((sendsOf s.log).filter fun c => c.1 = id).length ≤ row.maxAttempts
  redacted : ∀ id row, s.rows.get? id = some row → row.status.isTerminal = true → row.sensitivePayload = none

/-- From `s` to `s'` a terminal row keeps its status, is not claimed, and is sent only for claims made before `s`. -/
def Final (s s' : Outbox) : Prop :=
  ∃ more, s'.log = s.log ++ more ∧
    ∀ id row, s.rows.get? id = some row → row.status.isTerminal = true →
      (∃ row', s'.rows.get? id = some row' ∧ row'.status = row.status) ∧
      (∀ token, (id, token) ∉ claimsOf more) ∧ ∀ token, (id, token) ∈ sendsOf more → (id, token) ∈ claimsOf s.log

end Outbox
end LcsSystem.Telegram
