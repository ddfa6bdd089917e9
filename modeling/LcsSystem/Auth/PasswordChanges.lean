import LcsSystem.Auth.Sessions

/-!
# Password changes

`authenticate` and `create_session`, `rotate_refresh_token`, `change_password`, `set_user_password`, `reset_password` and
`request_password_reset` of `src/backend/app/modules/auth/service.py` side by side, on one account. A rotation is that of
`Sessions`.

| here                      | there                                                                           |
|---------------------------|---------------------------------------------------------------------------------|
| a password                | its hash; `verify_password` accepts the one that was hashed                     |
| `AccountDb.passwords`     | how many passwords the account has had before this one                          |
| a reset token             | the key of its row                                                              |
| `AccountTxn.identified`   | `authenticate` has loaded the user, with its `token_version`                    |
| `PasswordWrite`           | what a change is going to write; its lists are those it has read               |
| `AccountTxn.flushes`      | the rows it still has to lock before it commits                                 |

Lockout, the strength of passwords, the Telegram link and the cooldown are left out: a call they refuse gives up. So are the
locks of rows that only make a login or a marking of reset tokens wait.
-/

namespace LcsSystem
open Relational Checks Transactions

structure ResetToken where
  expiresAt : ℕ
  used : Bool
  deriving DecidableEq

structure AccountDb where
  userId : ℕ
  sessions : SessionDb
  password : String
  passwords : ℕ
  tokenVersion : ℕ
  resets : Table ResetToken

inductive AccountLock
  | user
  | session (id : ℕ)
  deriving DecidableEq

/-! ## What a change writes -/

structure PasswordWrite where
  password : String
  /-- As it was loaded. -/
  tokenVersion : ℕ
  consumes : Option ℕ
  sessions : List ℕ
  resets : List ℕ
  locked : List AccountLock

namespace AccountDb

def unusedResets (db : AccountDb) : List ℕ := (db.resets.rows.filter fun row => !row.2.used).map Prod.fst

def activeSessions (db : AccountDb) : List ℕ := db.sessions.activeSessions db.userId

def markUsed (resets : Table ResetToken) (ids : List ℕ) : Table ResetToken :=
  ids.foldl (fun t id => t.modify id fun token => { token with used := true }) resets

/-- The commit of a change: `_revoke_all_sessions`, the password and the reset tokens. -/
def write (db : AccountDb) (w : PasswordWrite) (now : ℕ) : AccountDb :=
  { db with
    sessions := w.sessions.foldl (fun db id => db.revoke now id) db.sessions
    password := w.password
    passwords := db.passwords + 1
    tokenVersion := w.tokenVersion + 1
    resets := markUsed db.resets (w.resets ++ w.consumes.toList) }

/-- The commit of `request_password_reset`. -/
def issueReset (db : AccountDb) (now : ℕ) : AccountDb :=
  { db with resets := (markUsed db.resets db.unusedResets).insert ⟨now + timeOfMinutes 15, false⟩ }

end AccountDb

/-! ## The calls -/

inductive PasswordCall
  | login (password : String) (rememberMe : Bool)
  | rotate (token : ℕ)
  | changePassword (current new : String)
  | setPassword (new : String)
  | resetPassword (reset : ℕ) (new : String)
  | requestReset
  | administer (users : Table User) (policy : AccessPolicy)
  | wait (time : ℕ)

inductive AccountTxn
  | arrives (call : PasswordCall)
  /-- A rotation, with the `token_version` of the user once it is loaded. -/
  | rotates (t : SessionTxn) (tokenVersion : ℕ)
  | identified (password : String) (rememberMe : Bool) (tokenVersion : ℕ)
  /-- `authenticate` has committed; it has verified the password of that number. -/
  | verified (rememberMe : Bool) (tokenVersion passwords : ℕ)
  | creates (rememberMe : Bool) (tokenVersion passwords now : ℕ) (policy : AccessPolicy)
  | changes (current new : String) (tokenVersion : ℕ)
  | lists (w : PasswordWrite) (marksNext : Bool)
  | marks (w : PasswordWrite) (listsNext : Bool)
  | flushes (w : PasswordWrite) (rest : List AccountLock)
  | locksUser (reset : ℕ) (new : String)
  | consumes (reset : ℕ) (new : String) (tokenVersion : ℕ)
  | issues

/-- A commit, with the number of the password at that time. -/
inductive AccountEvent
  /-- A login and its access token; the number is that of the password it has verified. -/
  | opened (sessionId verified tokenVersion passwords : ℕ)
  | renewed (sessionId tokenVersion passwords : ℕ)
  | changed (consumed : Option ℕ) (passwords : ℕ)
  | issued (reset passwords : ℕ)
  deriving DecidableEq

abbrev AccountOutcome := Outcome AccountDb AccountTxn AccountEvent

namespace AccountTxn

def locks : AccountTxn → List AccountLock
  | .rotates t _ => t.locks.map .session
  | .lists w _ | .marks w _ | .flushes w _ => w.locked
  | .consumes .. | .issues => [.user]
  | .arrives _ | .identified .. | .verified .. | .creates .. | .changes .. | .locksUser .. => []

/-- The next statement of a rotation. -/
def rotation (db : AccountDb) (free : AccountLock → Bool) (t : SessionTxn) (tokenVersion : ℕ) : AccountOutcome :=
  match t.next db.sessions fun id => free (.session id) with
  | .waits => .waits
  | .ends => .ends
  | .continues t' =>
    match t with
    | .authorizes .. => .continues (.rotates t' db.tokenVersion)
    | _ => .continues (.rotates t' tokenVersion)
  | .commits sessions event =>
    match event with
    | some (.renewed id _ _ _) => .commits { db with sessions := sessions } (some (.renewed id tokenVersion db.passwords))
    | _ => .commits { db with sessions := sessions } none

/-- `credential.password_hash` and the rest of a change begin with the loaded `token_version`. -/
def begins (password : String) (tokenVersion : ℕ) : PasswordWrite := ⟨password, tokenVersion, none, [], [], []⟩

/-- All is read: the rows that the flush updates. -/
def flush (w : PasswordWrite) : AccountTxn := .flushes w (.user :: w.sessions.map .session)

def next (db : AccountDb) (free : AccountLock → Bool) : AccountTxn → AccountOutcome
  | .arrives (.login password rememberMe) => .continues (.identified password rememberMe db.tokenVersion)
  | .arrives (.rotate token) => .continues (.rotates (.arrives (.rotate token)) 0)
  | .arrives (.changePassword current new) => .continues (.changes current new db.tokenVersion)
  | .arrives (.setPassword new) => .continues (.lists (begins new db.tokenVersion) true)
  | .arrives (.resetPassword reset new) => if (db.resets.get? reset).isSome then .continues (.locksUser reset new) else .ends
  | .arrives .requestReset => Outcome.whenFree free .user (.continues .issues)
  | .arrives (.administer users policy) =>
    .commits { db with sessions := { db.sessions with users := users, policy := policy } } none
  | .arrives (.wait time) => .commits { db with sessions := { db.sessions with clock := db.sessions.clock + time } } none
  | .rotates t tokenVersion => rotation db free t tokenVersion
  | .identified password rememberMe tokenVersion =>
    if password = db.password then .continues (.verified rememberMe tokenVersion db.passwords) else .ends
  | .verified rememberMe tokenVersion passwords =>
    .continues (.creates rememberMe tokenVersion passwords db.sessions.clock db.sessions.policy)
  | .creates rememberMe tokenVersion passwords now policy =>
    .commits { db with sessions := db.sessions.createSession db.userId rememberMe now policy }
      (some (.opened db.sessions.sessions.nextId passwords tokenVersion db.passwords))
  | .changes current new tokenVersion =>
    if current = db.password then .continues (.lists (begins new tokenVersion) true) else .ends
  | .lists w marksNext =>
    let w := { w with sessions := db.activeSessions }
    .continues (if marksNext then .marks w false else flush w)
  | .marks w listsNext =>
    let w := { w with resets := db.unusedResets }
    .continues (if listsNext then .lists w false else flush w)
  | .flushes w (lock :: rest) =>
    if lock ∈ w.locked then .continues (.flushes w rest)
    else Outcome.whenFree free lock (.continues (.flushes { w with locked := lock :: w.locked } rest))
  | .flushes w [] => .commits (db.write w db.sessions.clock) (some (.changed w.consumes db.passwords))
  | .locksUser reset new => Outcome.whenFree free .user (.continues (.consumes reset new db.tokenVersion))
  | .consumes reset new tokenVersion =>
    if (db.resets.get? reset).any fun token => !token.used && decide (db.sessions.clock < token.expiresAt) then
      .continues (.marks { begins new tokenVersion with consumes := some reset, locked := [.user] } true)
    else .ends
  | .issues => .commits (db.issueReset db.sessions.clock) (some (.issued db.resets.nextId db.passwords))

end AccountTxn

def accountProtocol : Protocol AccountDb PasswordCall AccountTxn AccountLock AccountEvent where
  start := .arrives
  locks := AccountTxn.locks
  next := AccountTxn.next

/-- An account without sessions and without reset tokens. -/
def AccountDb.fresh (userId : ℕ) (users : Table User) (policy : AccessPolicy) (clock : ℕ) (password : String)
    (tokenVersion : ℕ) : AccountDb := ⟨userId, .fresh users policy clock, password, 0, tokenVersion, .empty⟩

/-! ## What is promised -/

/-- The version in an access token, and the number of the password when it was handed out. -/
def AccountEvent.minted : AccountEvent → Option (ℕ × ℕ)
  | .opened _ _ tokenVersion passwords | .renewed _ tokenVersion passwords => some (tokenVersion, passwords)
  | .changed .. | .issued .. => none

def AccountEvent.consumed : AccountEvent → Option ℕ
  | .changed consumed _ => consumed
  | .opened .. | .renewed .. | .issued .. => none

/-- What a change cuts off. -/
structure CutOff (db : AccountDb) (log : List AccountEvent) : Prop where
  sessions : ∀ id verified tokenVersion passwords, .opened id verified tokenVersion passwords ∈ log →
    verified < db.passwords → RevokedIn db.sessions id
  rotations : ∀ id verified tokenVersion passwords, .opened id verified tokenVersion passwords ∈ log →
    ∀ version renewedAt, .renewed id version renewedAt ∈ log → verified = renewedAt
  access : ∀ event ∈ log, ∀ minted ∈ event.minted, minted.2 < db.passwords → minted.1 ≠ db.tokenVersion
  resets : ∀ reset issuedAt consumedAt, .issued reset issuedAt ∈ log → .changed (some reset) consumedAt ∈ log →
    issuedAt = consumedAt
  unused : ∀ reset issuedAt, .issued reset issuedAt ∈ log → issuedAt < db.passwords →
    (db.resets.get? reset).all ResetToken.used = true
  once : (log.filterMap AccountEvent.consumed).Nodup

/-- What goes well: a login commits while the password it has verified is the current one, and a change has read the
current version, and all the sessions and reset tokens there are when it commits. -/
def UpToDate (db : AccountDb) : AccountTxn → Prop
  | .creates _ _ passwords _ _ => passwords = db.passwords
  | .flushes w [] => w.tokenVersion = db.tokenVersion ∧ (∀ id ∈ db.activeSessions, id ∈ w.sessions) ∧
      ∀ reset ∈ db.unusedResets, reset ∈ w.resets ++ w.consumes.toList
  | _ => True

instance (db : AccountDb) : (t : AccountTxn) → Decidable (UpToDate db t)
  | .creates .. => inferInstanceAs (Decidable (_ = _))
  | .flushes _ [] => inferInstanceAs (Decidable (_ ∧ _ ∧ _))
  | .arrives _ | .rotates .. | .identified .. | .verified .. | .changes .. | .lists .. | .marks .. | .flushes _ (_ :: _)
  | .locksUser .. | .consumes .. | .issues => .isTrue trivial

end LcsSystem
