import LcsSystem.Auth.Models
import LcsSystem.Lib.Transactions

/-!
# Refresh tokens

`rotate_refresh_token` and `revoke_session` of `src/backend/app/modules/auth/service.py:305-408`, statement by statement,
among the calls that open sessions, extend them, and change users and the access policy.

| here                                 | there                                                                |
|--------------------------------------|----------------------------------------------------------------------|
| a token                              | its hash; `create_refresh_token` draws none twice                    |
| `SessionTxn`                         | an open call, at the statement that it runs next                     |
| `looksUp`, `searchesUsed`, `relocks` | the three queries of `_refresh_record`                               |
| `touch`                              | the update of `last_activity_at` in `src/backend/app/core/deps.py`   |
| `administer`                         | a commit of users or settings                                        |

Times are microseconds, on one clock. A row stays locked from the query that selects it until the commit.
-/

namespace LcsSystem
open Relational Checks Transactions Transactions.Outcome

structure UserSession where
  userId : ℕ
  refreshToken : ℕ
  createdAt : ℕ
  expiresAt : ℕ
  lastActivityAt : Option ℕ
  lastUsedAt : Option ℕ
  revokedAt : Option ℕ
  rememberMe : Bool
  deriving DecidableEq

structure UsedRefreshToken where
  token : ℕ
  sessionId : ℕ
  usedAt : ℕ
  deriving DecidableEq

structure AccessPolicy where
  sessionAbsoluteMinutes : ℕ
  sessionTimeoutMinutes : ℕ

structure SessionDb where
  users : Table User
  policy : AccessPolicy
  sessions : Table UserSession
  usedTokens : List UsedRefreshToken
  /-- The next token to be drawn. -/
  issued : ℕ
  clock : ℕ

def timeOfMinutes (minutes : ℕ) : ℕ := minutes * (60 * 10 ^ 6)

/-- `timedelta(seconds=5)`. -/
def overlapTime : ℕ := 5 * 10 ^ 6

def sessionRevoked (message : String) : AuthError := .authRequired message "SESSION_REVOKED"

def validateSession (policy : AccessPolicy) (record : UserSession) (userId now : ℕ) : AuthResult Unit :=
  if record.userId ≠ userId ∨ record.revokedAt ≠ none then
    .error (sessionRevoked "Session has been revoked. Please sign in again.")
  else
    let absolute := min record.expiresAt (record.createdAt + timeOfMinutes policy.sessionAbsoluteMinutes)
    let activity := record.lastActivityAt.getD record.createdAt
    if absolute ≤ now ∨ activity + timeOfMinutes policy.sessionTimeoutMinutes ≤ now then
      .error (.authRequired "Session has expired. Please sign in again." "SESSION_EXPIRED")
    else .ok ()

namespace SessionDb

/-- No sessions yet. -/
def fresh (users : Table User) (policy : AccessPolicy) (clock : ℕ) : SessionDb := ⟨users, policy, .empty, [], 0, clock⟩

def sessionByToken (db : SessionDb) (token : ℕ) : Option (ℕ × UserSession) :=
  db.sessions.rows.find? fun row => row.2.refreshToken == token

def activeSessions (db : SessionDb) (userId : ℕ) : List ℕ :=
  (db.sessions.rows.filter fun row => row.2.userId == userId && row.2.revokedAt.isNone).map Prod.fst

/-- `create_session`, after it has read the clock and the policy. -/
def createSession (db : SessionDb) (userId : ℕ) (rememberMe : Bool) (now : ℕ) (policy : AccessPolicy) : SessionDb :=
  { db with
    sessions := db.sessions.insert
      { userId
        refreshToken := db.issued
        createdAt := now
        expiresAt := now + timeOfMinutes policy.sessionAbsoluteMinutes
        lastActivityAt := some now
        lastUsedAt := none
        revokedAt := none
        rememberMe }
    issued := db.issued + 1 }

def touch (db : SessionDb) (id : ℕ) : SessionDb :=
  { db with
    sessions := db.sessions.modify id fun record =>
      if record.revokedAt = none then { record with lastActivityAt := some db.clock } else record }

/-- `record.revoked_at = now`. -/
def revoke (db : SessionDb) (now id : ℕ) : SessionDb :=
  { db with sessions := db.sessions.modify id fun record => { record with revokedAt := some now } }

/-- The writes of a rotation of the session, loaded as `record`. -/
def rotate (db : SessionDb) (id : ℕ) (record : UserSession) (now : ℕ) : SessionDb :=
  { db with
    sessions := db.sessions.modify id fun stored => { stored with refreshToken := db.issued, lastUsedAt := some now }
    usedTokens := db.usedTokens ++ [⟨record.refreshToken, id, now⟩]
    issued := db.issued + 1 }

end SessionDb

/-! ## The calls -/

inductive SessionCall
  | login (userId : ℕ) (rememberMe : Bool)
  | rotate (token : ℕ)
  | revoke (userId token sessionId : Option ℕ)
  | touch (sessionId : ℕ)
  | administer (users : Table User) (policy : AccessPolicy)
  | wait (time : ℕ)

/-- Which call `_refresh_record` is part of. -/
inductive Purpose
  | rotate
  | revoke

/-- `holds` has what `_refresh_record` returned; `now` is the time a call has read. -/
inductive SessionTxn
  | arrives (call : SessionCall)
  | opens (userId : ℕ) (rememberMe : Bool) (now : ℕ) (policy : AccessPolicy)
  | looksUp (purpose : Purpose) (token presentedAt : ℕ)
  | searchesUsed (purpose : Purpose) (token presentedAt : ℕ)
  | relocks (purpose : Purpose) (used : UsedRefreshToken) (presentedAt : ℕ)
  | holds (purpose : Purpose) (id : ℕ) (record : UserSession) (used : Option UsedRefreshToken) (presentedAt : ℕ)
  | authorizes (id : ℕ) (record : UserSession) (presentedAt now : ℕ)
  | validates (id : ℕ) (record : UserSession) (presentedAt now : ℕ)
  | picks (userId sessionId now : ℕ)
  | lists (userId now : ℕ)
  | revokes (locked rest : List ℕ) (now : ℕ)

/-- How a call of `rotate_refresh_token` ended. -/
inductive SessionEvent
  | renewed (id token newToken usedAt : ℕ)
  | rejected (error : AuthError) (token presentedAt : ℕ)

abbrev SessionOutcome := Outcome SessionDb SessionTxn SessionEvent

namespace SessionTxn

def reject (db : SessionDb) (error : AuthError) (token presentedAt : ℕ) : SessionOutcome :=
  .commits db (some (.rejected error token presentedAt))

/-- `record is None`. -/
def notFound (db : SessionDb) (token presentedAt : ℕ) : Purpose → SessionOutcome
  | .rotate => reject db (.authRequired "Invalid refresh token." "SESSION_INVALID") token presentedAt
  | .revoke => .ends

/-- A consumed token is presented. -/
def answerUsed (db : SessionDb) (id : ℕ) (record : UserSession) (used : UsedRefreshToken) (presentedAt : ℕ) : SessionOutcome :=
  let reuse := sessionRevoked "Session revoked after refresh-token reuse."
  if record.revokedAt = none then
    if db.clock ≤ used.usedAt + overlapTime then
      reject db (.conflict "REFRESH_CONFLICT" "Another request renewed this session. Retry using the current cookie." [])
        used.token presentedAt
    else .commits (db.revoke db.clock id) (some (.rejected reuse used.token presentedAt))
  else reject db reuse used.token presentedAt

def locks : SessionTxn → List ℕ
  | .holds _ id .. | .authorizes id .. | .validates id .. => [id]
  | .revokes locked .. => locked
  | .arrives _ | .opens .. | .looksUp .. | .searchesUsed .. | .relocks .. | .picks .. | .lists .. => []

def next (db : SessionDb) (free : ℕ → Bool) : SessionTxn → SessionOutcome
  | .arrives (.login userId rememberMe) => .continues (.opens userId rememberMe db.clock db.policy)
  | .arrives (.rotate token) => .continues (.looksUp .rotate token db.clock)
  | .arrives (.revoke _ (some token) _) => .continues (.looksUp .revoke token db.clock)
  | .arrives (.revoke none none _) => .ends
  | .arrives (.revoke (some userId) none (some sessionId)) => .continues (.picks userId sessionId db.clock)
  | .arrives (.revoke (some userId) none none) => .continues (.lists userId db.clock)
  | .arrives (.touch sessionId) => whenFree free sessionId (.commits (db.touch sessionId) none)
  | .arrives (.administer users policy) => .commits { db with users := users, policy := policy } none
  | .arrives (.wait time) => .commits { db with clock := db.clock + time } none
  | .opens userId rememberMe now policy => .commits (db.createSession userId rememberMe now policy) none
  | .looksUp purpose token presentedAt =>
    match db.sessionByToken token with
    | some (id, record) => whenFree free id (.continues (.holds purpose id record none presentedAt))
    | none => .continues (.searchesUsed purpose token presentedAt)
  | .searchesUsed purpose token presentedAt =>
    match db.usedTokens.find? fun used => used.token == token with
    | some used => .continues (.relocks purpose used presentedAt)
    | none => notFound db token presentedAt purpose
  | .relocks purpose used presentedAt =>
    match db.sessions.get? used.sessionId with
    | some record =>
      whenFree free used.sessionId (.continues (.holds purpose used.sessionId record (some used) presentedAt))
    | none => notFound db used.token presentedAt purpose
  | .holds .revoke id _ _ presentedAt => .commits (db.revoke presentedAt id) none
  | .holds .rotate id record (some used) presentedAt => answerUsed db id record used presentedAt
  | .holds .rotate id record none presentedAt => .continues (.authorizes id record presentedAt db.clock)
  | .authorizes id record presentedAt now =>
    if (db.users.get? record.userId).any fun user => isActive user.status then
      .continues (.validates id record presentedAt now)
    else reject db (sessionRevoked "This account is not active.") record.refreshToken presentedAt
  | .validates id record presentedAt now =>
    match validateSession db.policy record record.userId db.clock with
    | .ok () => .commits (db.rotate id record now) (some (.renewed id record.refreshToken db.issued now))
    | .error error => reject db error record.refreshToken presentedAt
  | .picks userId sessionId now =>
    match db.sessions.get? sessionId with
    | some record =>
      if record.userId = userId then whenFree free sessionId (.continues (.revokes [sessionId] [] now)) else .ends
    | none => .ends
  | .lists userId now => .continues (.revokes [] (db.activeSessions userId) now)
  | .revokes locked (id :: rest) now => whenFree free id (.continues (.revokes (id :: locked) rest now))
  | .revokes locked [] now => .commits (locked.foldl (fun db id => db.revoke now id) db) none

end SessionTxn

def refreshing : Protocol SessionDb SessionCall SessionTxn ℕ SessionEvent where
  start := .arrives
  locks := SessionTxn.locks
  next := SessionTxn.next

abbrev SessionSystem := System SessionDb SessionTxn SessionEvent

/-! ## What is promised -/

/-- The token that a rotation has consumed. -/
def SessionEvent.consumed : SessionEvent → Option UsedRefreshToken
  | .renewed id token _ usedAt => some ⟨token, id, usedAt⟩
  | .rejected .. => none

def RevokedIn (db : SessionDb) (id : ℕ) : Prop := ∃ record, db.sessions.get? id = some record ∧ record.revokedAt ≠ none

/-- A rotation with the token renews the session, if no other call interrupts it. -/
def Accepts (db : SessionDb) (id token : ℕ) : Prop :=
  ∃ n newToken usedAt, refreshing.answer n db (.arrives (.rotate token)) = some (.renewed id token newToken usedAt)

/-- A rotation that ends after `db` and `log`: it renews no session revoked in `db`, with no token consumed in `log`, and
where it is rejected with one consumed more than 5 seconds ago, the session of that token is revoked. -/
def AnsweredSafely (db : SessionDb) (log : List SessionEvent) (after : SessionDb) : SessionEvent → Prop
  | .renewed id token _ _ => ¬RevokedIn db id ∧ ∀ used ∈ log.filterMap SessionEvent.consumed, used.token ≠ token
  | .rejected _ token presentedAt =>
    ∀ used ∈ log.filterMap SessionEvent.consumed, used.token = token → used.usedAt + overlapTime < presentedAt →
      RevokedIn after used.sessionId

/-- `s'` follows `s`. -/
structure RotationSafe (s s' : SessionSystem) : Prop where
  one_token : ∀ id token token', Accepts s.db id token → Accepts s.db id token' → token = token'
  consumed_once : ((s.log.filterMap SessionEvent.consumed).map UsedRefreshToken.token).Nodup
  stays_revoked : ∀ id, RevokedIn s.db id → RevokedIn s'.db id
  answers : ∃ later, s'.log = s.log ++ later ∧ ∀ event ∈ later, AnsweredSafely s.db s.log s'.db event

end LcsSystem
