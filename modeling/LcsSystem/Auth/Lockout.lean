import LcsSystem.Lib.Table
import LcsSystem.Lib.Transition
import LcsSystem.Operations.ComponentValues

/-!
# Account lockout

`authenticate` and `lockout_policy` of `src/backend/app/modules/auth/service.py:52-192` on one account, among the calls
that reset it (`reset_password`, `set_user_password`), the security settings and the clock.

| here             | there                                                            |
|------------------|------------------------------------------------------------------|
| `Attempt`        | an open call, at the statement that it runs next                 |
| `writeChanged`   | the flush of the session: only columns that changed are written  |
| `LockoutEvent`   | what happened, a check of a wrong password among it              |

`verify` is `verify_password`. Times are microseconds. A call reads the user, then the credential and the clock, then
checks the password; the policy and the commit are further statements.
-/

namespace LcsSystem
open Relational Transition

structure Credential where
  passwordHash : String
  failedAttemptCount : ℕ
  lockedUntil : Option ℕ
  deriving DecidableEq

/-! ## lockout_policy -/

/-- `int(value)` of a JSON value. -/
def intOfJson : Json → Option ℤ
  | .bool b => some (if b then 1 else 0)
  | .num q => some (q.num.tdiv q.den)
  | .str s => integerText (stripChars s.toList)
  | _ => none

/-- `_clamped_int`. -/
def clampedInt (value : Option Json) (default low high : ℕ) : ℕ :=
  match value.bind intOfJson with
  | none => default
  | some parsed => max low (min high parsed.toNat)

/-- The `security` section of the settings, or nothing where it cannot be read. -/
abbrev SecuritySettings := Option (List (String × Json))

def maxFailedAttempts : ℕ := 5

def lockoutMinutes : ℕ := 15

/-- The first number of `lockout_policy`. -/
def maxAttempts (security : SecuritySettings) : ℕ :=
  clampedInt (security.bind fun section' => section'.lookup "maxLoginAttempts") maxFailedAttempts 3 100

/-- The second number, in microseconds. -/
def lockoutTime (security : SecuritySettings) : ℕ :=
  clampedInt (security.bind fun section' => section'.lookup "accountLockMinutes") lockoutMinutes 1 1440 * (60 * 10 ^ 6)

theorem maxAttempts_pos (security : SecuritySettings) : 0 < maxAttempts security := by
  unfold maxAttempts clampedInt
  split
  · decide
  · exact lt_of_lt_of_le (by decide : 0 < 3) (le_max_left _ _)

/-! ## authenticate -/

/-- `locked_until is not None and locked_until > now`. -/
def LockedAt (lockedUntil : Option ℕ) (now : ℕ) : Prop := ∃ until' ∈ lockedUntil, now < until'

instance (lockedUntil : Option ℕ) (now : ℕ) : Decidable (LockedAt lockedUntil now) :=
  inferInstanceAs (Decidable (∃ until' ∈ _, _))

/-- The credential after a wrong password, and whether that locks the account. -/
def Credential.fail (c : Credential) (security : SecuritySettings) (now : ℕ) : Credential × Bool :=
  if maxAttempts security ≤ c.failedAttemptCount + 1 then
    ({ c with failedAttemptCount := 0, lockedUntil := some (now + lockoutTime security) }, true)
  else ({ c with failedAttemptCount := c.failedAttemptCount + 1 }, false)

/-- The credential after a login. -/
def Credential.clear (c : Credential) : Credential := { c with failedAttemptCount := 0, lockedUntil := none }

/-- The stored row after a session that loaded `old` flushes `new`. -/
def writeChanged (old new stored : Credential) : Credential where
  passwordHash := if new.passwordHash = old.passwordHash then stored.passwordHash else new.passwordHash
  failedAttemptCount :=
    if new.failedAttemptCount = old.failedAttemptCount then stored.failedAttemptCount else new.failedAttemptCount
  lockedUntil := if new.lockedUntil = old.lockedUntil then stored.lockedUntil else new.lockedUntil

/-- A row that nobody else has written takes the new values. -/
theorem writeChanged_self (old new : Credential) : writeChanged old new old = new := by
  cases old
  cases new
  simp only [writeChanged, Credential.mk.injEq]
  refine ⟨?_, ?_, ?_⟩ <;> split <;> simp_all

/-- An open call. -/
inductive Attempt
  | opened (password : String)
  | identified (password : String) (active : Bool)
  | loaded (password : String) (active : Bool) (credential : Credential) (now : ℕ)
  | rejected (credential : Credential) (now : ℕ)
  | counted (credential new : Credential) (locks : Bool)
  | accepted (credential : Credential)
  | resetting (passwordHash : String)
  | resetLoaded (passwordHash : String) (credential : Credential)

inductive LockoutEvent
  /-- A wrong password was checked, under this `max_attempts`. -/
  | wrong (limit : ℕ)
  | settings (limit : ℕ)
  | failed
  | locked
  /-- A login, at this time and with this `locked_until` in the row. -/
  | succeeded (clock : ℕ) (lockedUntil : Option ℕ)
  | reset
  | expired
  deriving DecidableEq

structure LockoutState where
  clock : ℕ
  active : Bool
  security : SecuritySettings
  credential : Credential
  attempts : Table Attempt
  log : List LockoutEvent

inductive LockoutAction
  | login (password : String)
  | resetPassword (passwordHash : String)
  | advance (id : ℕ)
  | abandon (id : ℕ)
  | saveSecurity (security : SecuritySettings)
  | setActive (active : Bool)
  | wait (time : ℕ)

namespace LockoutState

def continues (s : LockoutState) (id : ℕ) (t : Attempt) : LockoutState :=
  { s with attempts := s.attempts.modify id fun _ => t }

def ends (s : LockoutState) (id : ℕ) : LockoutState := { s with attempts := s.attempts.erase fun i _ => i == id }

def records (s : LockoutState) (events : List LockoutEvent) : LockoutState := { s with log := s.log ++ events }

/-- A commit of the credential. -/
def commits (s : LockoutState) (id : ℕ) (old new : Credential) (events : List LockoutEvent) : LockoutState :=
  { (s.ends id).records events with credential := writeChanged old new s.credential }

/-- The next statement of a call. -/
def next (verify : String → String → Bool) (s : LockoutState) (id : ℕ) : Attempt → LockoutState
  | .opened password => s.continues id (.identified password s.active)
  | .identified password active => s.continues id (.loaded password active s.credential s.clock)
  | .loaded password active credential now =>
    if LockedAt credential.lockedUntil now then s.ends id
    else if verify password credential.passwordHash = false then
      (s.continues id (.rejected credential now)).records [.wrong (maxAttempts s.security)]
    else if active = false then s.ends id
    else s.continues id (.accepted credential)
  | .rejected credential now =>
    let failed := credential.fail s.security now
    s.continues id (.counted credential failed.1 failed.2)
  | .counted credential new locks => s.commits id credential new (if locks then [.locked, .failed] else [.failed])
  | .accepted credential =>
    s.commits id credential credential.clear [.succeeded s.clock s.credential.lockedUntil]
  | .resetting passwordHash => s.continues id (.resetLoaded passwordHash s.credential)
  | .resetLoaded passwordHash credential =>
    s.commits id credential { credential.clear with passwordHash := passwordHash } [.reset]

end LockoutState

def lockoutStep (verify : String → String → Bool) (s : LockoutState) : LockoutAction → LockoutState
  | .login password => { s with attempts := s.attempts.insert (.opened password) }
  | .resetPassword passwordHash => { s with attempts := s.attempts.insert (.resetting passwordHash) }
  | .advance id =>
    match s.attempts.get? id with
    | some t => s.next verify id t
    | none => s
  | .abandon id => s.ends id
  | .saveSecurity security => { s with security := security, log := s.log ++ [.settings (maxAttempts security)] }
  | .setActive active => { s with active := active }
  | .wait time =>
    { s with
      clock := s.clock + time
      log := s.log ++
        if LockedAt s.credential.lockedUntil s.clock ∧ ¬LockedAt s.credential.lockedUntil (s.clock + time) then [.expired] else [] }

/-! ## What is promised -/

/-- The wrong passwords since the last login, lock, expiry or reset, and the largest `max_attempts` since. -/
def tally (t : ℕ × ℕ) : LockoutEvent → ℕ × ℕ
  | .wrong limit => (t.1 + 1, max t.2 limit)
  | .settings limit => (t.1, max t.2 limit)
  | .failed => t
  | .locked | .succeeded .. | .reset | .expired => (0, 0)

def tallied (log : List LockoutEvent) : ℕ × ℕ := log.foldl tally (0, 0)

structure LockoutEnforced (log : List LockoutEvent) : Prop where
  bounded : (tallied log).1 ≤ (tallied log).2
  closed : ∀ clock lockedUntil, .succeeded clock lockedUntil ∈ log → ¬LockedAt lockedUntil clock

/-! ## Calls that do not overlap -/

/-- Between the check of a wrong password and its commit. -/
def Attempt.underway : Attempt → Bool
  | .rejected .. | .counted .. => true
  | _ => false

/-- A wrong password is checked against the stored credential, and no other one is under way; what is committed was
loaded from the row as it is. -/
def LockoutState.Undisturbed (verify : String → String → Bool) (s : LockoutState) : Attempt → Prop
  | .loaded password _ credential now => ¬LockedAt credential.lockedUntil now → verify password credential.passwordHash = false →
      credential = s.credential ∧ ∀ r ∈ s.attempts.rows, r.2.underway = false
  | .counted credential .. | .accepted credential => credential = s.credential
  | _ => True

/-- The call that moves on is undisturbed, and none gives up between a check and its commit. -/
def Serialized (verify : String → String → Bool) (s : LockoutState) : LockoutAction → Prop
  | .advance id => ∀ t ∈ s.attempts.get? id, s.Undisturbed verify t
  | .abandon id => ∀ t ∈ s.attempts.get? id, t.underway = false
  | _ => True

instance LockoutState.decidableUndisturbed (verify : String → String → Bool) (s : LockoutState) : ∀ t, Decidable (s.Undisturbed verify t)
  | .loaded .. => inferInstanceAs (Decidable (_ → _ → _ ∧ _))
  | .counted .. | .accepted .. => inferInstanceAs (Decidable (_ = _))
  | .opened .. | .identified .. | .rejected .. | .resetting .. | .resetLoaded .. => .isTrue trivial

instance (verify : String → String → Bool) (s : LockoutState) : ∀ a, Decidable (Serialized verify s a)
  | .advance _ | .abandon _ => inferInstanceAs (Decidable (∀ t ∈ _, _))
  | .login .. | .resetPassword .. | .saveSecurity .. | .setActive .. | .wait .. => .isTrue trivial

end LcsSystem
