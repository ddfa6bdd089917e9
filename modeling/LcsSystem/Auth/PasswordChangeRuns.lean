import LcsSystem.Auth.PasswordChanges
import LcsSystem.Auth.SessionRuns

/-!
# What a password change cuts off, in every interleaving

`AccountOk` holds of every run: the tables are sound, and a reset token is consumed once, because a consumption and the
issue of a token both hold the lock of the user. `CutOff` holds of the runs in which logins and changes do not overlap.
`Committed` lists what a call can commit.
-/

namespace LcsSystem
open Relational Checks Transactions Transition

section
variable {db db' : AccountDb} {log : List AccountEvent} {event : Option AccountEvent} {id reset : ℕ} {ids : List ℕ}

/-! ## Reset tokens and sessions -/

namespace AccountDb

theorem get?_markUsed (t : Table ResetToken) (ids : List ℕ) (i : ℕ) : (markUsed t ids).get? i =
    (t.get? i).map fun token => if i ∈ ids then { token with used := true } else token := by
  induction ids generalizing t with
  | nil => simp [markUsed]
  | cons id ids ih =>
    change (markUsed (t.modify id _) ids).get? i = _
    rw [ih, Table.get?_modify]
    by_cases hi : i = id
    · subst hi
      rw [if_pos rfl, Option.map_map]
      congr 1
      funext token
      simp
    · rw [if_neg hi]
      simp [hi]

theorem nextId_markUsed (t : Table ResetToken) (ids : List ℕ) : (markUsed t ids).nextId = t.nextId := by
  induction ids generalizing t with
  | nil => rfl
  | cons id ids ih => exact ih _

theorem mem_unusedResets {token : ResetToken} (hget : db.resets.get? id = some token) (h : token.used = false) :
    id ∈ db.unusedResets :=
  List.mem_map.2 ⟨(id, token), List.mem_filter.2 ⟨Table.get?_eq_some.1 hget, by simp [h]⟩, rfl⟩

theorem mem_activeSessions {record : UserSession} (hget : db.sessions.sessions.get? id = some record)
    (huser : record.userId = db.userId) (h : record.revokedAt = none) : id ∈ db.activeSessions :=
  List.mem_map.2 ⟨(id, record), List.mem_filter.2 ⟨Table.get?_eq_some.1 hget, by simp [huser, h]⟩, rfl⟩

end AccountDb

/-- A session of the list is revoked, whatever else is. -/
theorem revokedIn_revokeAll {db : SessionDb} {record : UserSession} (now : ℕ) (hget : db.sessions.get? id = some record)
    (hid : id ∈ ids) : RevokedIn (ids.foldl (fun db id => db.revoke now id) db) id := by
  induction ids generalizing db record with
  | nil => cases hid
  | cons i ids ih =>
    rw [List.foldl_cons]
    by_cases hi : id = i
    · subst hi
      have hrevoked : RevokedIn (db.revoke now id) id :=
        ⟨{ record with revokedAt := some now }, by rw [SessionDb.revoke, Table.get?_modify_self, hget]; rfl,
          Option.some_ne_none now⟩
      have hkept : SessionsKept (fun _ => True) (db.revoke now id) (ids.foldl (fun db id => db.revoke now id) (db.revoke now id)) :=
        .revokeAll now fun _ _ => trivial
      exact hkept.revokedIn hrevoked
    · have hrest : (db.revoke now i).sessions.get? id = some record := by
        rw [SessionDb.revoke, Table.get?_modify_of_ne _ hi, hget]
      exact ih hrest ((List.mem_cons.1 hid).resolve_left hi)

/-- The row of a session keeps its user. -/
def UsersKept (db db' : SessionDb) : Prop := ∀ id record, db.sessions.get? id = some record →
  ∃ record', db'.sessions.get? id = some record' ∧ record'.userId = record.userId

theorem UsersKept.modify {db db' : SessionDb} {f : UserSession → UserSession} (h : db'.sessions = db.sessions.modify id f)
    (hf : ∀ r, (f r).userId = r.userId) : UsersKept db db' := by
  intro i record hget
  rw [h, Table.get?_modify]
  split
  · exact ⟨f record, by rw [hget, Option.map_some], hf record⟩
  · exact ⟨record, hget, rfl⟩

theorem UsersKept.revokeAll (now : ℕ) (ids : List ℕ) (db : SessionDb) :
    UsersKept db (ids.foldl (fun db id => db.revoke now id) db) := by
  induction ids generalizing db with
  | nil => exact fun id record hget => ⟨record, hget, rfl⟩
  | cons i ids ih =>
    intro id record hget
    have hone : UsersKept db (db.revoke now i) := .modify rfl fun _ => rfl
    obtain ⟨record', hget', huser⟩ := hone id record hget
    obtain ⟨record'', hget'', huser'⟩ := ih (db.revoke now i) id record' hget'
    exact ⟨record'', hget'', huser'.trans huser⟩

theorem SessionTxn.Committed.mono {db db' : SessionDb} {touched touched' : ℕ → Prop} {event : Option SessionEvent}
    (h : SessionTxn.Committed db touched db' event) (hmono : ∀ id, touched id → touched' id) :
    SessionTxn.Committed db touched' db' event := by
  cases h with
  | administers users policy => exact .administers users policy
  | waits time => exact .waits time
  | creates userId rememberMe now policy => exact .creates userId rememberMe now policy
  | touches htouched => exact .touches (hmono _ htouched)
  | revokes ids now htouched => exact .revokes ids now fun id hid => hmono id (htouched id hid)
  | renews htouched hget hactive => exact .renews (hmono _ htouched) hget hactive
  | replays htouched hget hused hid => exact .replays (hmono _ htouched) hget hused hid
  | rejects h => exact .rejects h

theorem SessionTxn.Committed.usersKept {db db' : SessionDb} {touched : ℕ → Prop} {event : Option SessionEvent}
    (h : SessionTxn.Committed db touched db' event) : UsersKept db db' := by
  cases h with
  | administers | waits | rejects => exact fun id record hget => ⟨record, hget, rfl⟩
  | creates => exact fun id record hget => ⟨record, Table.get?_insert_of_some hget, rfl⟩
  | touches =>
    refine .modify rfl fun r => ?_
    split <;> rfl
  | revokes ids now => exact .revokeAll now ids db
  | renews => exact .modify rfl fun _ => rfl
  | replays => exact .modify rfl fun _ => rfl

theorem SessionTxn.Committed.nextId_le {db db' : SessionDb} {touched : ℕ → Prop} {event : Option SessionEvent}
    (h : SessionTxn.Committed db touched db' event) : db.sessions.nextId ≤ db'.sessions.nextId := by
  have hrevokes (now : ℕ) (ids : List ℕ) (db : SessionDb) :
      (ids.foldl (fun db id => db.revoke now id) db).sessions.nextId = db.sessions.nextId := by
    induction ids generalizing db with
    | nil => rfl
    | cons id ids ih => exact ih _
  cases h with
  | creates => exact Nat.le_succ _
  | revokes ids now => exact (hrevokes now ids db).ge
  | administers | waits | touches | renews | replays | rejects => exact le_rfl

/-! ## What holds of every run -/

theorem filterMap_toList {α β : Type*} (f : α → Option β) (a : Option α) :
    a.toList.filterMap f = (a.bind f).toList := by
  cases a with
  | none => rfl
  | some a => cases hf : f a <;> simp [hf]

structure AccountOk (db : AccountDb) (log : List AccountEvent) : Prop where
  sessions : ∃ answers, SessionsOk db.sessions answers
  opened : ∀ id verified version passwords, .opened id verified version passwords ∈ log →
    ∃ record, db.sessions.sessions.get? id = some record ∧ record.userId = db.userId
  renewed : ∀ id version passwords, .renewed id version passwords ∈ log → id < db.sessions.sessions.nextId
  issued : ∀ reset passwords, .issued reset passwords ∈ log → reset < db.resets.nextId
  consumed : ∀ reset ∈ log.filterMap AccountEvent.consumed, (db.resets.get? reset).any ResetToken.used = true
  once : (log.filterMap AccountEvent.consumed).Nodup

namespace AccountTxn

/-- A change that consumes a reset token holds the lock of the user, and the token is not used yet. -/
def Holds (db : AccountDb) (w : PasswordWrite) : Prop :=
  ∀ reset ∈ w.consumes, .user ∈ w.locked ∧ (db.resets.get? reset).any (fun token => !token.used) = true

def Relies (db : AccountDb) : AccountTxn → Prop
  | .rotates t _ => t.Relies db.sessions
  | .lists w _ | .marks w _ => Holds db w
  | .flushes w rest => Holds db w ∧ ∀ lock, lock = .user ∨ lock ∈ w.sessions.map AccountLock.session →
      lock ∈ w.locked ∨ lock ∈ rest
  | .arrives _ | .identified .. | .verified .. | .creates .. | .changes .. | .locksUser .. | .consumes .. | .issues => True

/-- What a call commits. -/
inductive Committed (db : AccountDb) : AccountTxn → AccountDb → Option AccountEvent → Prop
  | rests {t : AccountTxn} {sessions : SessionDb} : Committed db t { db with sessions := sessions } none
  | renews {t : SessionTxn} {sessions : SessionDb} {id version : ℕ} (hactive : ¬RevokedIn db.sessions id)
    (hid : id < sessions.sessions.nextId) :
    Committed db (.rotates t version) { db with sessions := sessions } (some (.renewed id version db.passwords))
  | opens (rememberMe : Bool) (version verified now : ℕ) (policy : AccessPolicy) :
    Committed db (.creates rememberMe version verified now policy)
      { db with sessions := db.sessions.createSession db.userId rememberMe now policy }
      (some (.opened db.sessions.sessions.nextId verified version db.passwords))
  | changes (w : PasswordWrite) (now : ℕ) :
    Committed db (.flushes w []) (db.write w now) (some (.changed w.consumes db.passwords))
  | issues (now : ℕ) : Committed db .issues (db.issueReset now) (some (.issued db.resets.nextId db.passwords))

variable {t t' u : AccountTxn} {free : AccountLock → Bool}

/-- What a commit leaves to the other calls: it touches only sessions and reset tokens that it has locked, or sessions
that nobody has. -/
structure Kept (db : AccountDb) (t : AccountTxn) (free : AccountLock → Bool) (db' : AccountDb) : Prop where
  userId : db'.userId = db.userId
  sessions : ∃ answer, SessionTxn.Committed db.sessions (fun id => .session id ∈ t.locks ∨ free (.session id) = true)
    db'.sessions answer
  resets : db'.resets = db.resets ∨ .user ∈ t.locks

theorem rotation_commits (hI : AccountOk db log) {t : SessionTxn} {version : ℕ} (ht : t.Relies db.sessions)
    (h : rotation db free t version = .commits db' event) :
    Committed db (.rotates t version) db' event ∧ Kept db (.rotates t version) free db' := by
  obtain ⟨answers, hI⟩ := hI.sessions
  unfold rotation at h
  split at h
  · cases h
  · cases h
  · split at h <;> cases h
  · next sessions answer hnext =>
    have hcommitted := SessionTxn.next_commits hI ht hnext
    have hkept : Kept db (.rotates t version) free { db with sessions := sessions } := by
      refine ⟨rfl, ⟨answer, hcommitted.mono fun id hid => hid.imp_left fun hlocked => ?_⟩, .inl rfl⟩
      exact List.mem_map_of_mem hlocked
    split at h
    · cases h
      refine ⟨?_, hkept⟩
      cases hcommitted with
      | renews htouched hget hactive =>
        have hid := Table.lt_nextId hget
        refine .renews ?_ hid
        rintro ⟨stored, hstored, hrevoked⟩
        rw [hget, Option.some.injEq] at hstored
        exact hrevoked (hstored ▸ hactive)
    · cases h
      exact ⟨.rests, hkept⟩

/-- **What a statement commits**, and what that leaves to the others. -/
theorem next_commits (hI : AccountOk db log) (ht : t.Relies db) (h : t.next db free = .commits db' event) :
    Committed db t db' event ∧ Kept db t free db' := by
  cases t with
  | arrives call =>
    cases call with
    | login | rotate | changePassword | setPassword => cases h
    | resetPassword reset new =>
      simp only [AccountTxn.next] at h
      split at h <;> cases h
    | requestReset => simp [AccountTxn.next] at h
    | administer users policy =>
      cases h
      exact ⟨.rests, rfl, ⟨none, .administers users policy⟩, .inl rfl⟩
    | wait time =>
      cases h
      exact ⟨.rests, rfl, ⟨none, .waits time⟩, .inl rfl⟩
  | rotates t version => exact rotation_commits hI ht h
  | identified password rememberMe version =>
    simp only [AccountTxn.next] at h
    split at h <;> cases h
  | verified => cases h
  | creates rememberMe version passwords now policy =>
    cases h
    exact ⟨.opens rememberMe version passwords now policy, rfl,
      ⟨none, .creates db.userId rememberMe now policy⟩, .inl rfl⟩
  | changes current new version =>
    simp only [AccountTxn.next] at h
    split at h <;> cases h
  | lists w marksNext => cases h
  | marks w listsNext => cases h
  | flushes w rest =>
    cases rest with
    | cons lock rest =>
      simp only [AccountTxn.next] at h
      split at h
      · cases h
      · simp at h
    | nil =>
      cases h
      obtain ⟨-, hlocked⟩ := ht
      have hlock (lock : AccountLock) (hl : lock = .user ∨ lock ∈ w.sessions.map AccountLock.session) : lock ∈ w.locked :=
        (hlocked lock hl).resolve_right List.not_mem_nil
      refine ⟨.changes w _, rfl, ⟨none, .revokes w.sessions _ fun id hid => .inl ?_⟩, .inr (hlock .user (.inl rfl))⟩
      exact hlock (.session id) (.inr (List.mem_map_of_mem hid))
  | locksUser reset new => simp [AccountTxn.next] at h
  | consumes reset new version =>
    simp only [AccountTxn.next] at h
    split at h <;> cases h
  | issues =>
    cases h
    exact ⟨.issues _, rfl, ⟨none, .waits 0⟩, .inr (List.mem_singleton_self _)⟩

theorem next_continues (h : t.next db free = .continues t') :
    (t.Relies db → t'.Relies db) ∧ ∀ lock ∈ t'.locks, lock ∈ t.locks ∨ free lock = true := by
  have hnone : ∀ lock ∈ ([] : List AccountLock), lock ∈ t.locks ∨ free lock = true := fun lock hlock => by cases hlock
  cases t with
  | arrives call =>
    cases call with
    | login | rotate | changePassword =>
      cases h
      exact ⟨fun _ => trivial, hnone⟩
    | setPassword new =>
      cases h
      exact ⟨fun _ reset hreset => (Option.not_mem_none reset hreset).elim, hnone⟩
    | resetPassword reset new =>
      simp only [AccountTxn.next] at h
      split at h
      · cases h
        exact ⟨fun _ => trivial, hnone⟩
      · cases h
    | requestReset =>
      simp only [AccountTxn.next, Outcome.whenFree_eq_continues] at h
      obtain ⟨hfree, h⟩ := h
      cases h
      exact ⟨fun _ => trivial, fun lock hlock => .inr (List.mem_singleton.1 hlock ▸ hfree)⟩
    | administer | wait => cases h
  | rotates t version =>
    simp only [AccountTxn.next, rotation] at h
    split at h
    · cases h
    · cases h
    · next t'' hnext =>
      obtain ⟨hrelies, hlocks⟩ := SessionTxn.next_continues hnext
      have hlocked (version' : ℕ) : ∀ lock ∈ (rotates t'' version').locks,
          lock ∈ (rotates t version).locks ∨ free lock = true := by
        intro lock hlock
        obtain ⟨id, hid, rfl⟩ := List.mem_map.1 hlock
        exact (hlocks id hid).imp_left List.mem_map_of_mem
      split at h <;> cases h <;> exact ⟨hrelies, hlocked _⟩
    · split at h <;> cases h
  | identified password rememberMe version =>
    simp only [AccountTxn.next] at h
    split at h
    · cases h
      exact ⟨fun _ => trivial, hnone⟩
    · cases h
  | verified =>
    cases h
    exact ⟨fun _ => trivial, hnone⟩
  | creates => cases h
  | changes current new version =>
    simp only [AccountTxn.next] at h
    split at h
    · cases h
      exact ⟨fun _ reset hreset => (Option.not_mem_none reset hreset).elim, hnone⟩
    · cases h
  | lists w marksNext =>
    cases marksNext <;> cases h
    · exact ⟨fun hholds => ⟨hholds, fun lock hlock => .inr (List.mem_cons.2 hlock)⟩, fun lock hlock => .inl hlock⟩
    · exact ⟨fun hholds => hholds, fun lock hlock => .inl hlock⟩
  | marks w listsNext =>
    cases listsNext <;> cases h
    · exact ⟨fun hholds => ⟨hholds, fun lock hlock => .inr (List.mem_cons.2 hlock)⟩, fun lock hlock => .inl hlock⟩
    · exact ⟨fun hholds => hholds, fun lock hlock => .inl hlock⟩
  | flushes w rest =>
    cases rest with
    | nil => cases h
    | cons first rest =>
      simp only [AccountTxn.next] at h
      split at h
      · next hfirst =>
        cases h
        refine ⟨fun hboth => ⟨hboth.1, fun lock hlock => ?_⟩, fun lock hlock => .inl hlock⟩
        rcases hboth.2 lock hlock with hlocked | hrest
        · exact .inl hlocked
        · rcases List.mem_cons.1 hrest with rfl | hrest
          · exact .inl hfirst
          · exact .inr hrest
      · rw [Outcome.whenFree_eq_continues] at h
        obtain ⟨hfree, h⟩ := h
        cases h
        refine ⟨fun hboth => ⟨fun reset hreset => ?_, fun lock hlock => ?_⟩, fun lock hlock => ?_⟩
        · exact ⟨List.mem_cons_of_mem _ (hboth.1 reset hreset).1, (hboth.1 reset hreset).2⟩
        · rcases hboth.2 lock hlock with hlocked | hrest
          · exact .inl (List.mem_cons_of_mem _ hlocked)
          · rcases List.mem_cons.1 hrest with rfl | hrest
            · exact .inl List.mem_cons_self
            · exact .inr hrest
        · rcases List.mem_cons.1 hlock with rfl | hlock
          · exact .inr hfree
          · exact .inl hlock
  | locksUser reset new =>
    simp only [AccountTxn.next, Outcome.whenFree_eq_continues] at h
    obtain ⟨hfree, h⟩ := h
    cases h
    exact ⟨fun _ => trivial, fun lock hlock => .inr (List.mem_singleton.1 hlock ▸ hfree)⟩
  | consumes reset new version =>
    simp only [AccountTxn.next] at h
    split at h
    · next hvalid =>
      cases h
      refine ⟨fun _ consumed hconsumed => ?_, fun lock hlock => .inl hlock⟩
      cases hconsumed
      refine ⟨List.mem_singleton_self _, ?_⟩
      cases hget : db.resets.get? reset with
      | none =>
        rw [hget] at hvalid
        cases hvalid
      | some token =>
        rw [hget, Option.any_some, Bool.and_eq_true] at hvalid
        exact hvalid.1
    · cases h
  | issues => cases h

/-- A call relies only on what it has locked. -/
theorem Relies.frame (hu : u.Relies db) (hkept : Kept db t free db')
    (hfree : ∀ lock ∈ u.locks, lock ∉ t.locks ∧ free lock = false) : u.Relies db' := by
  have hholds {w : PasswordWrite} (hlocks : u.locks = w.locked) (h : Holds db w) : Holds db' w := by
    intro reset hreset
    obtain ⟨huser, hunused⟩ := h reset hreset
    refine ⟨huser, ?_⟩
    have hmem : AccountLock.user ∈ u.locks := hlocks ▸ huser
    rwa [hkept.resets.resolve_right (hfree .user hmem).1]
  cases u with
  | rotates su version =>
    obtain ⟨answer, hcommitted⟩ := hkept.sessions
    refine SessionTxn.Relies.frame hu hcommitted.kept fun id hid htouched => ?_
    obtain ⟨hother, hnot⟩ := hfree (.session id) (List.mem_map_of_mem hid)
    rcases htouched with hlocked | htaken
    · exact hother hlocked
    · rw [hnot] at htaken
      cases htaken
  | lists w marksNext | marks w listsNext => exact hholds rfl hu
  | flushes w rest => exact ⟨hholds rfl hu.1, hu.2⟩
  | arrives | identified | verified | creates | changes | locksUser | consumes | issues => trivial

end AccountTxn

/-! ## A reset token is consumed once -/

namespace AccountDb

theorem used_markUsed {t : Table ResetToken} (h : (t.get? reset).any ResetToken.used = true) :
    ((markUsed t ids).get? reset).any ResetToken.used = true := by
  rw [get?_markUsed]
  cases hget : t.get? reset with
  | none =>
    rw [hget] at h
    cases h
  | some token =>
    rw [hget] at h
    rw [Option.map_some, Option.any_some]
    split
    · rfl
    · exact h

theorem used_insert {t : Table ResetToken} {new : ResetToken} (h : (t.get? reset).any ResetToken.used = true) :
    ((t.insert new).get? reset).any ResetToken.used = true := by
  cases hget : t.get? reset with
  | none =>
    rw [hget] at h
    cases h
  | some token =>
    rw [hget] at h
    rwa [Table.get?_insert_of_some hget]

end AccountDb

namespace AccountTxn.Committed
variable {t : AccountTxn}

theorem changed_passwords {consumed : Option ℕ} {passwords : ℕ}
    (h : Committed db t db' (some (.changed consumed passwords))) : passwords = db.passwords := by
  cases h
  rfl

theorem resets_nextId_le (h : Committed db t db' event) : db.resets.nextId ≤ db'.resets.nextId := by
  cases h with
  | rests | renews | opens => exact le_rfl
  | changes w now => exact (AccountDb.nextId_markUsed _ _).ge
  | issues now => exact (AccountDb.nextId_markUsed _ _).ge.trans (Nat.le_succ _)

/-- A consumed token is never usable again. -/
theorem used (h : Committed db t db' event) (hused : (db.resets.get? reset).any ResetToken.used = true) :
    (db'.resets.get? reset).any ResetToken.used = true := by
  cases h with
  | rests | renews | opens => exact hused
  | changes w now => exact AccountDb.used_markUsed hused
  | issues now => exact AccountDb.used_insert (AccountDb.used_markUsed hused)

/-- A token that a commit consumes was not used before it, and is used after it. -/
theorem consumes (h : Committed db t db' event) (ht : t.Relies db) (hreset : reset ∈ event.bind AccountEvent.consumed) :
    (db.resets.get? reset).any (fun token => !token.used) = true ∧ (db'.resets.get? reset).any ResetToken.used = true := by
  cases h with
  | rests | renews | opens | issues => cases hreset
  | changes w now =>
    have hunused := (ht.1 reset hreset).2
    refine ⟨hunused, ?_⟩
    change ((AccountDb.markUsed db.resets _).get? reset).any _ = true
    cases hget : db.resets.get? reset with
    | none =>
      rw [hget] at hunused
      cases hunused
    | some token =>
      have hmem : reset ∈ w.resets ++ w.consumes.toList := List.mem_append_right _ (Option.mem_toList.2 hreset)
      rw [AccountDb.get?_markUsed, hget, Option.map_some, Option.any_some, if_pos hmem]

end AccountTxn.Committed

namespace AccountOk
open AccountTxn
variable {t : AccountTxn} {free : AccountLock → Bool}

theorem fresh (userId : ℕ) (users : Table User) (policy : AccessPolicy) (clock : ℕ) (password : String) (tokenVersion : ℕ) :
    AccountOk (.fresh userId users policy clock password tokenVersion) [] where
  sessions := ⟨[], .fresh users policy clock⟩
  opened _ _ _ _ h := by cases h
  renewed _ _ _ h := by cases h
  issued _ _ h := by cases h
  consumed _ h := by cases h
  once := .nil

theorem sessions_commits (hI : AccountOk db log) (hkept : Kept db t free db') :
    ∃ answers, SessionsOk db'.sessions answers := by
  obtain ⟨answers, hI⟩ := hI.sessions
  obtain ⟨answer, hcommitted⟩ := hkept.sessions
  exact ⟨_, hcommitted.sessionsOk hI⟩

/-- The rows of the sessions stay. -/
theorem opened_commits (hI : AccountOk db log) (hkept : Kept db t free db') {verified version passwords : ℕ}
    (h : .opened id verified version passwords ∈ log) :
    ∃ record, db'.sessions.sessions.get? id = some record ∧ record.userId = db'.userId := by
  obtain ⟨record, hget, huser⟩ := hI.opened id verified version passwords h
  obtain ⟨answer, hcommitted⟩ := hkept.sessions
  obtain ⟨record', hget', huser'⟩ := hcommitted.usersKept id record hget
  exact ⟨record', hget', by rw [huser', huser, hkept.userId]⟩

theorem commits (hI : AccountOk db log) (ht : t.Relies db) (hcommitted : AccountTxn.Committed db t db' event)
    (hkept : Kept db t free db') : AccountOk db' (log ++ event.toList) where
  sessions := hI.sessions_commits hkept
  opened id verified version passwords h := by
    rcases List.mem_append.1 h with h | h
    · exact hI.opened_commits hkept h
    · rw [Option.mem_toList] at h
      cases hcommitted <;> cases h
      exact ⟨_, Table.get?_insert_self _ _, rfl⟩
  renewed id version passwords h := by
    rcases List.mem_append.1 h with h | h
    · obtain ⟨answer, hsessions⟩ := hkept.sessions
      exact (hI.renewed id version passwords h).trans_le hsessions.nextId_le
    · rw [Option.mem_toList] at h
      cases hcommitted <;> cases h
      assumption
  issued reset passwords h := by
    rcases List.mem_append.1 h with h | h
    · exact (hI.issued reset passwords h).trans_le hcommitted.resets_nextId_le
    · rw [Option.mem_toList] at h
      cases hcommitted <;> cases h
      exact Nat.lt_succ_of_le (AccountDb.nextId_markUsed _ _).ge
  consumed reset h := by
    rw [List.filterMap_append, filterMap_toList, List.mem_append, Option.mem_toList] at h
    rcases h with h | h
    · exact hcommitted.used (hI.consumed reset h)
    · exact (hcommitted.consumes ht h).2
  once := by
    rw [List.filterMap_append, filterMap_toList, List.nodup_append]
    refine ⟨hI.once, by cases event.bind AccountEvent.consumed <;> simp, ?_⟩
    rintro reset hold _ hnew rfl
    have hused := hI.consumed reset hold
    have hunused := (hcommitted.consumes ht (Option.mem_toList.1 hnew)).1
    cases hget : db.resets.get? reset with
    | none =>
      rw [hget] at hused
      cases hused
    | some token =>
      rw [hget, Option.any_some] at hused hunused
      rw [hused] at hunused
      cases hunused

end AccountOk

theorem account_rules : Rules accountProtocol AccountOk (fun db t => t.Relies db) fun _ _ _ => True where
  start_locks _ := rfl
  start _ _ := trivial
  acquires h := (AccountTxn.next_continues h).2
  continues _ ht _ h := (AccountTxn.next_continues h).1 ht
  commits hI ht _ h := by
    obtain ⟨hcommitted, hkept⟩ := AccountTxn.next_commits hI ht h
    exact hI.commits ht hcommitted hkept
  frame hI ht hu _ hfree h := hu.frame (AccountTxn.next_commits hI ht h).2 hfree

/-- **A reset token changes the password at most once**, in every interleaving. -/
theorem reset_consumed_once (userId : ℕ) (users : Table User) (policy : AccessPolicy) (clock : ℕ) (password : String)
    (tokenVersion : ℕ) (as : List (Action PasswordCall)) :
    ((run accountProtocol.step (.idle (.fresh userId users policy clock password tokenVersion)) as).log.filterMap
      AccountEvent.consumed).Nodup := by
  have hmeets := meets_of_always accountProtocol (C := fun _ _ _ => True) fun _ _ _ => trivial
  have hidle := sound_idle accountProtocol (fun db t => AccountTxn.Relies db t)
    (AccountOk.fresh userId users policy clock password tokenVersion)
  exact (account_rules.run hidle (hmeets _ as)).db.once

/-! ## What a change cuts off -/

/-- Versions and passwords count up together: a later change makes a version too old. -/
structure CutsOff (db : AccountDb) (log : List AccountEvent) : Prop where
  ok : AccountOk db log
  opened : ∀ id verified version passwords, .opened id verified version passwords ∈ log →
    verified ≤ db.passwords ∧ (verified < db.passwords → RevokedIn db.sessions id)
  rotations : ∀ id verified version passwords, .opened id verified version passwords ∈ log →
    ∀ version renewedAt, .renewed id version renewedAt ∈ log → verified = renewedAt
  minted : ∀ event ∈ log, ∀ minted ∈ event.minted,
    minted.2 ≤ db.passwords ∧ minted.1 + db.passwords ≤ db.tokenVersion + minted.2
  issued : ∀ reset passwords, .issued reset passwords ∈ log →
    passwords ≤ db.passwords ∧ (passwords < db.passwords → (db.resets.get? reset).all ResetToken.used = true)
  resets : ∀ reset issuedAt consumedAt, .issued reset issuedAt ∈ log → .changed (some reset) consumedAt ∈ log →
    issuedAt = consumedAt

theorem CutsOff.cutOff (h : CutsOff db log) : CutOff db log where
  sessions id verified version passwords hopened := (h.opened id verified version passwords hopened).2
  rotations := h.rotations
  access event hevent minted hminted hold := by
    obtain ⟨-, hversion⟩ := h.minted event hevent minted hminted
    omega
  resets := h.resets
  unused reset issuedAt hissued := (h.issued reset issuedAt hissued).2
  once := h.ok.once

theorem CutsOff.fresh (userId : ℕ) (users : Table User) (policy : AccessPolicy) (clock : ℕ) (password : String)
    (tokenVersion : ℕ) : CutsOff (.fresh userId users policy clock password tokenVersion) [] where
  ok := .fresh userId users policy clock password tokenVersion
  opened _ _ _ _ h := by cases h
  rotations _ _ _ _ h := by cases h
  minted _ h := by cases h
  issued _ _ h := by cases h
  resets _ _ _ h := by cases h

/-- The loaded version is not a later one. -/
def AccountTxn.Loaded (db : AccountDb) : AccountTxn → Prop
  | .rotates _ version | .identified _ _ version | .verified _ version _ | .creates _ version _ _ _ =>
    version ≤ db.tokenVersion
  | .arrives _ | .changes .. | .lists .. | .marks .. | .flushes .. | .locksUser .. | .consumes .. | .issues => True

namespace AccountTxn
variable {t t' u : AccountTxn} {free : AccountLock → Bool}

theorem Loaded.continues (ht : t.Loaded db) (h : t.next db free = .continues t') : t'.Loaded db := by
  cases t with
  | arrives call =>
    cases call with
    | login =>
      cases h
      exact le_refl db.tokenVersion
    | rotate =>
      cases h
      exact Nat.zero_le _
    | changePassword | setPassword =>
      cases h
      trivial
    | resetPassword reset new =>
      simp only [AccountTxn.next] at h
      split at h <;> cases h
      trivial
    | requestReset =>
      simp only [AccountTxn.next, Outcome.whenFree_eq_continues] at h
      cases h.2
      trivial
    | administer | wait => cases h
  | rotates t version =>
    simp only [AccountTxn.next, rotation] at h
    split at h
    · cases h
    · cases h
    · split at h <;> cases h
      · exact le_refl db.tokenVersion
      · exact ht
    · split at h <;> cases h
  | identified password rememberMe version =>
    simp only [AccountTxn.next] at h
    split at h <;> cases h
    exact ht
  | verified =>
    cases h
    exact ht
  | creates => cases h
  | changes current new version =>
    simp only [AccountTxn.next] at h
    split at h <;> cases h
    trivial
  | lists w marksNext => cases marksNext <;> cases h <;> trivial
  | marks w listsNext => cases listsNext <;> cases h <;> trivial
  | flushes w rest =>
    cases rest with
    | nil => cases h
    | cons first rest =>
      simp only [AccountTxn.next] at h
      split at h
      · cases h
        trivial
      · cases (Outcome.whenFree_eq_continues.1 h).2
        trivial
  | locksUser reset new =>
    simp only [AccountTxn.next, Outcome.whenFree_eq_continues] at h
    cases h.2
    trivial
  | consumes reset new version =>
    simp only [AccountTxn.next] at h
    split at h <;> cases h
    trivial
  | issues => cases h

theorem Loaded.frame (hu : u.Loaded db) (hversion : db.tokenVersion ≤ db'.tokenVersion) : u.Loaded db' := by
  cases u with
  | rotates | identified | verified | creates => exact hu.trans hversion
  | arrives | changes | lists | marks | flushes | locksUser | consumes | issues => trivial

theorem Committed.version_le (h : Committed db t db' event) (hupToDate : UpToDate db t) :
    db.tokenVersion ≤ db'.tokenVersion := by
  cases h with
  | rests | renews | opens | issues => exact le_rfl
  | changes w now =>
    have hversion : w.tokenVersion = db.tokenVersion := hupToDate.1
    exact hversion.ge.trans (Nat.le_succ _)

end AccountTxn

namespace AccountDb

theorem all_used_markUsed {t : Table ResetToken} (h : (t.get? reset).all ResetToken.used = true) :
    ((markUsed t ids).get? reset).all ResetToken.used = true := by
  rw [get?_markUsed]
  cases hget : t.get? reset with
  | none => rfl
  | some token =>
    rw [hget] at h
    rw [Option.map_some, Option.all_some]
    split
    · rfl
    · exact h

/-- A change that has read all the unused reset tokens leaves none. -/
theorem all_used_write {w : PasswordWrite} (now : ℕ) (h : ∀ reset ∈ db.unusedResets, reset ∈ w.resets ++ w.consumes.toList)
    (reset : ℕ) : ((db.write w now).resets.get? reset).all ResetToken.used = true := by
  change ((markUsed db.resets _).get? reset).all _ = true
  rw [get?_markUsed]
  cases hget : db.resets.get? reset with
  | none => rfl
  | some token =>
    rw [Option.map_some, Option.all_some]
    split
    · rfl
    · next hnot => exact by_contra fun hunused => hnot (h reset (mem_unusedResets hget (Bool.eq_false_iff.2 hunused)))

/-- A change that has read all the active sessions revokes them. -/
theorem revokedIn_write {w : PasswordWrite} (now : ℕ) {record : UserSession} (h : ∀ id ∈ db.activeSessions, id ∈ w.sessions)
    (hget : db.sessions.sessions.get? id = some record) (huser : record.userId = db.userId) :
    RevokedIn (db.write w now).sessions id := by
  by_cases hrevoked : record.revokedAt = none
  · exact revokedIn_revokeAll now hget (h id (mem_activeSessions hget huser hrevoked))
  · have hkept : SessionsKept (fun _ => True) db.sessions (w.sessions.foldl (fun db id => db.revoke now id) db.sessions) :=
      .revokeAll now fun _ _ => trivial
    exact hkept.revokedIn ⟨record, hget, hrevoked⟩

end AccountDb

namespace CutsOff
open AccountTxn
variable {t : AccountTxn} {free : AccountLock → Bool}

theorem kept_revoked (hkept : Kept db t free db') (hrevoked : RevokedIn db.sessions id) : RevokedIn db'.sessions id := by
  obtain ⟨answer, hsessions⟩ := hkept.sessions
  exact hsessions.kept.revokedIn hrevoked

theorem opened_commits (h : CutsOff db log) (hupToDate : UpToDate db t)
    (hcommitted : AccountTxn.Committed db t db' event) (hkept : Kept db t free db') {verified version passwords : ℕ}
    (hmem : .opened id verified version passwords ∈ log) :
    verified ≤ db'.passwords ∧ (verified < db'.passwords → RevokedIn db'.sessions id) := by
  obtain ⟨hle, hrevoked⟩ := h.opened id verified version passwords hmem
  cases hcommitted with
  | rests | renews | opens | issues => exact ⟨hle, fun hlt => kept_revoked hkept (hrevoked hlt)⟩
  | changes w now =>
    obtain ⟨record, hget, huser⟩ := h.ok.opened id verified version passwords hmem
    exact ⟨hle.trans (Nat.le_succ _), fun _ => AccountDb.revokedIn_write now hupToDate.2.1 hget huser⟩

theorem minted_commits (h : CutsOff db log) (hupToDate : UpToDate db t)
    (hcommitted : AccountTxn.Committed db t db' event) {e : AccountEvent} (he : e ∈ log) {minted : ℕ × ℕ}
    (hminted : minted ∈ e.minted) :
    minted.2 ≤ db'.passwords ∧ minted.1 + db'.passwords ≤ db'.tokenVersion + minted.2 := by
  obtain ⟨hle, hold⟩ := h.minted e he minted hminted
  cases hcommitted with
  | rests | renews | opens | issues => exact ⟨hle, hold⟩
  | changes w now =>
    have hversion : w.tokenVersion = db.tokenVersion := hupToDate.1
    refine ⟨hle.trans (Nat.le_succ _), ?_⟩
    change minted.1 + (db.passwords + 1) ≤ w.tokenVersion + 1 + minted.2
    omega

theorem issued_commits (h : CutsOff db log) (hupToDate : UpToDate db t)
    (hcommitted : AccountTxn.Committed db t db' event) {passwords : ℕ} (hmem : .issued reset passwords ∈ log) :
    passwords ≤ db'.passwords ∧
      (passwords < db'.passwords → (db'.resets.get? reset).all ResetToken.used = true) := by
  obtain ⟨hle, hused⟩ := h.issued reset passwords hmem
  cases hcommitted with
  | rests | renews | opens => exact ⟨hle, hused⟩
  | changes w now =>
    exact ⟨hle.trans (Nat.le_succ _), fun _ => AccountDb.all_used_write now hupToDate.2.2 reset⟩
  | issues now =>
    refine ⟨hle, fun hlt => ?_⟩
    change ((Table.insert _ _).get? reset).all _ = true
    rw [Table.get?_insert, if_neg]
    · exact AccountDb.all_used_markUsed (hused hlt)
    · rw [AccountDb.nextId_markUsed]
      exact (h.ok.issued reset passwords hmem).ne

/-- A token that can still be consumed was issued under the current password. -/
theorem issued_of_unused (h : CutsOff db log) {issuedAt : ℕ} (hissued : .issued reset issuedAt ∈ log)
    (hunused : (db.resets.get? reset).any (fun token => !token.used) = true) : issuedAt = db.passwords := by
  obtain ⟨hle, hused⟩ := h.issued reset issuedAt hissued
  refine hle.antisymm (not_lt.1 fun hlt => ?_)
  specialize hused hlt
  cases hget : db.resets.get? reset with
  | none =>
    rw [hget] at hunused
    cases hunused
  | some token =>
    rw [hget] at hused hunused
    rw [Option.all_some] at hused
    rw [Option.any_some, hused] at hunused
    cases hunused

theorem commits (h : CutsOff db log) (ht : t.Relies db) (hloaded : t.Loaded db) (hupToDate : UpToDate db t)
    (hcommitted : AccountTxn.Committed db t db' event) (hkept : Kept db t free db') :
    CutsOff db' (log ++ event.toList) where
  ok := h.ok.commits ht hcommitted hkept
  opened id verified version passwords hmem := by
    rcases List.mem_append.1 hmem with hmem | hnew
    · exact h.opened_commits hupToDate hcommitted hkept hmem
    · rw [Option.mem_toList] at hnew
      cases hcommitted <;> cases hnew
      have hverified : verified = db.passwords := hupToDate
      exact ⟨hverified.le, fun hlt => absurd hverified hlt.ne⟩
  rotations id verified version passwords hmem version' renewedAt hrenewed := by
    rcases List.mem_append.1 hmem with hmem | hnew
    · rcases List.mem_append.1 hrenewed with hrenewed | hnew
      · exact h.rotations id verified version passwords hmem version' renewedAt hrenewed
      · -- a session that is renewed is not revoked: its login has verified the current password
        rw [Option.mem_toList] at hnew
        obtain ⟨hle, hrevoked⟩ := h.opened id verified version passwords hmem
        cases hcommitted <;> cases hnew
        next hactive _ => exact hle.antisymm (not_lt.1 fun hlt => hactive (hrevoked hlt))
    · -- nothing has renewed a new session yet
      rw [Option.mem_toList] at hnew
      rcases List.mem_append.1 hrenewed with hrenewed | hnew'
      · have hbound := h.ok.renewed id version' renewedAt hrenewed
        cases hcommitted <;> cases hnew
        exact absurd hbound (lt_irrefl _)
      · rw [Option.mem_toList] at hnew'
        cases hcommitted <;> cases hnew
        cases hnew'
  minted e he minted hminted := by
    rcases List.mem_append.1 he with he | hnew
    · exact h.minted_commits hupToDate hcommitted he hminted
    · rw [Option.mem_toList] at hnew
      cases hcommitted <;> cases hnew
      all_goals cases hminted
      all_goals exact ⟨le_refl db.passwords, Nat.add_le_add_right hloaded db.passwords⟩
  issued reset passwords hmem := by
    rcases List.mem_append.1 hmem with hmem | hnew
    · exact h.issued_commits hupToDate hcommitted hmem
    · rw [Option.mem_toList] at hnew
      cases hcommitted <;> cases hnew
      exact ⟨le_refl db.passwords, fun hlt => absurd hlt (lt_irrefl db.passwords)⟩
  resets reset issuedAt consumedAt hissued hconsumed := by
    rcases List.mem_append.1 hconsumed with hconsumed | hnew
    · rcases List.mem_append.1 hissued with hissued | hnew
      · exact h.resets reset issuedAt consumedAt hissued hconsumed
      · -- nothing has consumed a new token yet
        have hused := h.ok.consumed reset (List.mem_filterMap.2 ⟨_, hconsumed, rfl⟩)
        rw [Option.mem_toList] at hnew
        cases hcommitted <;> cases hnew
        rw [Table.get?_nextId] at hused
        cases hused
    · rw [Option.mem_toList] at hnew
      subst hnew
      rcases List.mem_append.1 hissued with hissued | hnew
      · rw [hcommitted.changed_passwords]
        exact h.issued_of_unused hissued (hcommitted.consumes ht rfl).1
      · rw [Option.mem_toList] at hnew
        cases hnew

end CutsOff

theorem cutting_rules : Rules accountProtocol CutsOff (fun db t => t.Relies db ∧ t.Loaded db) fun db _ t => UpToDate db t where
  start_locks _ := rfl
  start _ _ := ⟨trivial, trivial⟩
  acquires h := (AccountTxn.next_continues h).2
  continues _ ht _ h := ⟨(AccountTxn.next_continues h).1 ht.1, ht.2.continues h⟩
  commits hI ht hupToDate h := by
    obtain ⟨hcommitted, hkept⟩ := AccountTxn.next_commits hI.ok ht.1 h
    exact hI.commits ht.1 ht.2 hupToDate hcommitted hkept
  frame hI ht hu hupToDate hfree h := by
    obtain ⟨hcommitted, hkept⟩ := AccountTxn.next_commits hI.ok ht.1 h
    exact ⟨hu.1.frame hkept hfree, hu.2.frame (hcommitted.version_le hupToDate)⟩

/-- **A password change cuts off** the sessions, the access tokens and the reset tokens from before it, in every
interleaving in which a login commits under the password it has verified, and a change has read what there is to revoke. -/
theorem password_change_cuts_off (userId : ℕ) (users : Table User) (policy : AccessPolicy) (clock : ℕ) (password : String)
    (tokenVersion : ℕ) {as : List (Action PasswordCall)}
    (hmeets : Meets accountProtocol.step (Protocol.Admits fun db _ t => UpToDate db t)
      (.idle (.fresh userId users policy clock password tokenVersion)) as) :
    CutOff (run accountProtocol.step (.idle (.fresh userId users policy clock password tokenVersion)) as).db
      (run accountProtocol.step (.idle (.fresh userId users policy clock password tokenVersion)) as).log := by
  have hidle := sound_idle accountProtocol (fun db t => AccountTxn.Relies db t ∧ AccountTxn.Loaded db t)
    (CutsOff.fresh userId users policy clock password tokenVersion)
  exact (cutting_rules.run hidle hmeets).db.cutOff

end

/-! ## One account -/

def clerkAccount : AccountDb :=
  .fresh 1 (Table.empty.insert ⟨"U-1", "clerk", "clerk@example.com", "Clerk", "ACTIVE", false⟩) ⟨480, 30⟩ 0 "first" 0

/-- A call and its statements, alone. -/
def aloneCall (id : ℕ) (call : PasswordCall) : List (Action PasswordCall) := .start call :: List.replicate 9 (.advance id)

/-- A login that is renewed; then the password is changed, and reset. -/
def changedAndReset : List (Action PasswordCall) :=
  aloneCall 1 (.login "first" false) ++ aloneCall 2 (.rotate 0) ++ aloneCall 3 (.changePassword "first" "second") ++
    aloneCall 4 (.login "second" true) ++ aloneCall 5 .requestReset ++ aloneCall 6 (.resetPassword 1 "third")

theorem changedAndReset_cuts_off : CutOff (run accountProtocol.step (.idle clerkAccount) changedAndReset).db
    (run accountProtocol.step (.idle clerkAccount) changedAndReset).log :=
  password_change_cuts_off 1 (Table.empty.insert ⟨"U-1", "clerk", "clerk@example.com", "Clerk", "ACTIVE", false⟩) ⟨480, 30⟩ 0
    "first" 0 (by decide +kernel)

example : (run accountProtocol.step (.idle clerkAccount) changedAndReset).log =
    [.opened 1 0 0 0, .renewed 1 0 0, .changed none 0, .opened 2 1 1 1, .issued 1 1, .changed (some 1) 1] := by decide +kernel

/-- A login that has verified the first password commits after the change: its session is not revoked. -/
example : ((run accountProtocol.step (.idle clerkAccount)
    (.start (.login "first" false) :: List.replicate 2 (.advance 1) ++ aloneCall 2 (.changePassword "first" "second") ++
      List.replicate 2 (.advance 1))).db.sessions.sessions.get? 1).any (fun record => record.revokedAt.isNone) = true := by
  decide +kernel

end LcsSystem
