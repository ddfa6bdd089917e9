import LcsSystem.Auth.Sessions

/-!
# Refresh tokens in every interleaving

`SessionsOk` is the invariant of the committed tables: the tokens in use and the consumed ones are apart, and the consumed
ones are those of the log. `Relies` is what an open call has read and may count on, because it holds the lock of its
session. `Committed` lists what a call can commit; everything else follows from it.
-/

namespace LcsSystem
open Relational Checks Transactions Transition

namespace SessionDb

def tokenOf (db : SessionDb) (id : ℕ) : Option ℕ := (db.sessions.get? id).map UserSession.refreshToken

variable {db : SessionDb} {id i token now : ℕ} {record : UserSession}

theorem tokenOf_of_get? (h : db.sessions.get? id = some record) : db.tokenOf id = some record.refreshToken := by
  rw [tokenOf, h, Option.map_some]

theorem sessionByToken_eq_some (h : db.sessionByToken token = some (id, record)) :
    db.sessions.get? id = some record ∧ record.refreshToken = token := by
  have hmem := List.mem_of_find?_eq_some h
  have htoken := List.find?_some h
  exact ⟨Table.get?_eq_some.2 hmem, eq_of_beq htoken⟩

theorem tokenOf_modify {f : UserSession → UserSession} (hf : ∀ r, (f r).refreshToken = r.refreshToken) :
    ((db.sessions.modify id f).get? i).map UserSession.refreshToken = db.tokenOf i := by
  rw [Table.get?_modify, tokenOf]
  split
  · rw [Option.map_map]
    congr 1
    funext r
    exact hf r
  · rfl

theorem tokenOf_touch : (db.touch id).tokenOf i = db.tokenOf i :=
  tokenOf_modify fun r => by
    split <;> rfl

theorem tokenOf_revoke : (db.revoke now id).tokenOf i = db.tokenOf i := tokenOf_modify fun _ => rfl

theorem tokenOf_createSession (userId : ℕ) (rememberMe : Bool) (policy : AccessPolicy) :
    (db.createSession userId rememberMe now policy).tokenOf i =
      if i = db.sessions.nextId then some db.issued else db.tokenOf i := by
  rw [tokenOf, createSession, Table.get?_insert]
  split <;> rfl

theorem tokenOf_rotate (h : db.sessions.get? id = some record) :
    (db.rotate id record now).tokenOf i = if i = id then some db.issued else db.tokenOf i := by
  rw [tokenOf, rotate, Table.get?_modify]
  split
  · next hi =>
    subst hi
    rw [h]
    rfl
  · rfl

end SessionDb

/-! ## The committed tables -/

structure SessionsOk (db : SessionDb) (log : List SessionEvent) : Prop where
  issued : ∀ id token, db.tokenOf id = some token → token < db.issued
  distinct : ∀ i j token, db.tokenOf i = some token → db.tokenOf j = some token → i = j
  apart : ∀ used ∈ db.usedTokens, used.token < db.issued ∧ ∀ id, db.tokenOf id ≠ some used.token
  known : ∀ used ∈ db.usedTokens, db.tokenOf used.sessionId ≠ none
  nodup : (db.usedTokens.map UsedRefreshToken.token).Nodup
  history : db.usedTokens = log.filterMap SessionEvent.consumed

namespace SessionsOk
variable {db db' : SessionDb} {log : List SessionEvent} {event : Option SessionEvent}

theorem fresh (users : Table User) (policy : AccessPolicy) (clock : ℕ) : SessionsOk (.fresh users policy clock) [] where
  issued _ _ h := by cases h
  distinct _ _ _ h := by cases h
  apart _ h := by cases h
  known _ h := by cases h
  nodup := .nil
  history := rfl

/-- A consumed token has one entry. -/
theorem eq_of_token (h : SessionsOk db log) {u v : UsedRefreshToken} (hu : u ∈ db.usedTokens) (hv : v ∈ db.usedTokens)
    (htoken : u.token = v.token) : u = v := List.inj_on_of_nodup_map h.nodup hu hv htoken

/-- A commit that leaves the tokens alone. -/
theorem keep (h : SessionsOk db log) (htokens : ∀ id, db'.tokenOf id = db.tokenOf id) (hissued : db'.issued = db.issued)
    (hused : db'.usedTokens = db.usedTokens) (hevent : event.toList.filterMap SessionEvent.consumed = []) :
    SessionsOk db' (log ++ event.toList) where
  issued id token hid := by
    rw [htokens] at hid
    rw [hissued]
    exact h.issued id token hid
  distinct i j token hi hj := by
    rw [htokens] at hi hj
    exact h.distinct i j token hi hj
  apart used hmem := by
    rw [hused] at hmem
    rw [hissued]
    exact ⟨(h.apart used hmem).1, fun id => htokens id ▸ (h.apart used hmem).2 id⟩
  known used hmem := by
    rw [hused] at hmem
    rw [htokens]
    exact h.known used hmem
  nodup := hused ▸ h.nodup
  history := by rw [hused, List.filterMap_append, hevent, List.append_nil, h.history]

/-- A commit that gives a session the token drawn last, in the place of the consumed one if there is one. -/
theorem draw (h : SessionsOk db log) {id : ℕ} (consumed : Option UsedRefreshToken)
    (htokens : ∀ i, db'.tokenOf i = if i = id then some db.issued else db.tokenOf i) (hissued : db'.issued = db.issued + 1)
    (hused : db'.usedTokens = db.usedTokens ++ consumed.toList)
    (hconsumed : ∀ used ∈ consumed, used.sessionId = id ∧ db.tokenOf id = some used.token)
    (hevent : event.toList.filterMap SessionEvent.consumed = consumed.toList) :
    SessionsOk db' (log ++ event.toList) where
  issued i token hi := by
    rw [htokens] at hi
    rw [hissued]
    split at hi
    · cases hi
      exact Nat.lt_succ_self _
    · exact Nat.lt_succ_of_lt (h.issued i token hi)
  distinct i j token hi hj := by
    have hnew {k : ℕ} (hk : db.tokenOf k = some token) : db.issued ≠ token := (h.issued k token hk).ne'
    rw [htokens] at hi hj
    split at hi
    · next hi' =>
      split at hj
      · next hj' => rw [hi', hj']
      · exact absurd (Option.some.inj hi) (hnew hj)
    · split at hj
      · exact absurd (Option.some.inj hj) (hnew hi)
      · exact h.distinct i j token hi hj
  apart used hmem := by
    rw [hused, List.mem_append, Option.mem_toList] at hmem
    -- a consumed token was drawn before, and its session has another one now
    have hlt : used.token < db.issued := by
      rcases hmem with hold | hnew
      · exact (h.apart used hold).1
      · exact h.issued id _ (hconsumed used hnew).2
    refine ⟨hissued ▸ Nat.lt_succ_of_lt hlt, fun i hi => ?_⟩
    rw [htokens] at hi
    split at hi
    · exact hlt.ne' (Option.some.inj hi)
    · next hne =>
      rcases hmem with hold | hnew
      · exact (h.apart used hold).2 i hi
      · exact hne (h.distinct i id _ hi (hconsumed used hnew).2)
  known used hmem := by
    rw [hused, List.mem_append, Option.mem_toList] at hmem
    rw [htokens]
    split
    · simp
    · next hne =>
      rcases hmem with hold | hnew
      · exact h.known used hold
      · exact absurd (hconsumed used hnew).1 hne
  nodup := by
    rw [hused, List.map_append, List.nodup_append]
    refine ⟨h.nodup, ?_, ?_⟩
    · cases consumed <;> simp
    · intro token hold token' hnew heq
      obtain ⟨used, hmem, rfl⟩ := List.mem_map.1 hold
      obtain ⟨used', hmem', rfl⟩ := List.mem_map.1 hnew
      rw [Option.mem_toList] at hmem'
      exact (h.apart used hmem).2 id (heq ▸ (hconsumed used' hmem').2)
  history := by rw [hused, List.filterMap_append, hevent, h.history]

end SessionsOk

/-! ## Rows of other calls -/

/-- What a commit leaves of the rows: every session stays, a revoked one stays revoked, and one that is not `touched` is
as it was. -/
structure SessionsKept (touched : ℕ → Prop) (db db' : SessionDb) : Prop where
  row : ∀ id record, db.sessions.get? id = some record → ∃ record', db'.sessions.get? id = some record' ∧
    (record.revokedAt ≠ none → record'.revokedAt ≠ none) ∧ (¬touched id → record' = record)
  used : ∀ used ∈ db.usedTokens, used ∈ db'.usedTokens
  clock : db.clock ≤ db'.clock

namespace SessionsKept
variable {touched : ℕ → Prop} {db db' db'' : SessionDb} {id : ℕ}

/-- The tables of sessions and consumed tokens are the same. -/
theorem of_eq (hsessions : db'.sessions = db.sessions) (hused : db'.usedTokens = db.usedTokens)
    (hclock : db.clock ≤ db'.clock) : SessionsKept touched db db' where
  row _ record h := ⟨record, hsessions ▸ h, fun hr => hr, fun _ => rfl⟩
  used _ hu := hused ▸ hu
  clock := hclock

theorem trans (h : SessionsKept touched db db') (h' : SessionsKept touched db' db'') : SessionsKept touched db db'' where
  row id record hget := by
    obtain ⟨record', hget', hrevoked, hsame⟩ := h.row id record hget
    obtain ⟨record'', hget'', hrevoked', hsame'⟩ := h'.row id record' hget'
    exact ⟨record'', hget'', fun hr => hrevoked' (hrevoked hr), fun ht => (hsame' ht).trans (hsame ht)⟩
  used u hu := h'.used u (h.used u hu)
  clock := h.clock.trans h'.clock

/-- An update of one session. -/
theorem modify {f : UserSession → UserSession} (hid : touched id)
    (hf : ∀ record : UserSession, record.revokedAt ≠ none → (f record).revokedAt ≠ none)
    (hsessions : db'.sessions = db.sessions.modify id f) (hused : ∀ used ∈ db.usedTokens, used ∈ db'.usedTokens)
    (hclock : db'.clock = db.clock) : SessionsKept touched db db' where
  row i record hget := by
    rw [hsessions]
    by_cases hi : i = id
    · subst hi
      exact ⟨f record, by rw [Table.get?_modify_self, hget, Option.map_some], hf record, fun hnot => absurd hid hnot⟩
    · exact ⟨record, by rw [Table.get?_modify_of_ne f hi, hget], fun hr => hr, fun _ => rfl⟩
  used := hused
  clock := hclock.ge

theorem revoke (hid : touched id) (now : ℕ) : SessionsKept touched db (db.revoke now id) :=
  modify hid (fun _ _ => Option.some_ne_none now) rfl (fun _ hu => hu) rfl

theorem revokeAll (now : ℕ) {ids : List ℕ} (hids : ∀ id ∈ ids, touched id) :
    SessionsKept touched db (ids.foldl (fun db id => db.revoke now id) db) := by
  induction ids generalizing db with
  | nil => exact of_eq rfl rfl le_rfl
  | cons id ids ih =>
    exact (revoke (hids id List.mem_cons_self) now).trans (ih fun i hi => hids i (List.mem_cons_of_mem _ hi))

theorem revokedIn (h : SessionsKept touched db db') (hrevoked : RevokedIn db id) : RevokedIn db' id := by
  obtain ⟨record, hget, hr⟩ := hrevoked
  obtain ⟨record', hget', hkept, -⟩ := h.row id record hget
  exact ⟨record', hget', hkept hr⟩

theorem get? (h : SessionsKept touched db db') (hid : ¬touched id) {record : UserSession}
    (hget : db.sessions.get? id = some record) : db'.sessions.get? id = some record := by
  obtain ⟨record', hget', -, hsame⟩ := h.row id record hget
  rw [hget', hsame hid]

end SessionsKept

/-! ## Open calls -/

namespace SessionTxn

def Relies (db : SessionDb) : SessionTxn → Prop
  | .looksUp _ _ presentedAt | .searchesUsed _ _ presentedAt => presentedAt ≤ db.clock
  | .relocks _ used presentedAt => presentedAt ≤ db.clock ∧ used ∈ db.usedTokens
  | .holds _ id record used presentedAt =>
    presentedAt ≤ db.clock ∧ db.sessions.get? id = some record ∧ ∀ u ∈ used, u ∈ db.usedTokens ∧ u.sessionId = id
  | .authorizes id record _ _ | .validates id record _ _ => db.sessions.get? id = some record
  | .arrives _ | .opens .. | .picks .. | .lists .. | .revokes .. => True

variable {db db' : SessionDb} {free : ℕ → Bool} {log : List SessionEvent} {event : Option SessionEvent}

/-- What a call commits. -/
inductive Committed (db : SessionDb) (touched : ℕ → Prop) : SessionDb → Option SessionEvent → Prop
  | administers (users : Table User) (policy : AccessPolicy) :
    Committed db touched { db with users := users, policy := policy } none
  | waits (time : ℕ) : Committed db touched { db with clock := db.clock + time } none
  | creates (userId : ℕ) (rememberMe : Bool) (now : ℕ) (policy : AccessPolicy) :
    Committed db touched (db.createSession userId rememberMe now policy) none
  | touches {id : ℕ} (htouched : touched id) : Committed db touched (db.touch id) none
  | revokes (ids : List ℕ) (now : ℕ) (htouched : ∀ id ∈ ids, touched id) :
    Committed db touched (ids.foldl (fun db id => db.revoke now id) db) none
  | renews {id now : ℕ} {record : UserSession} (htouched : touched id) (hget : db.sessions.get? id = some record)
    (hactive : record.revokedAt = none) :
    Committed db touched (db.rotate id record now) (some (.renewed id record.refreshToken db.issued now))
  | replays {id presentedAt : ℕ} {error : AuthError} {record : UserSession} {used : UsedRefreshToken} (htouched : touched id)
    (hget : db.sessions.get? id = some record) (hused : used ∈ db.usedTokens) (hid : used.sessionId = id) :
    Committed db touched (db.revoke db.clock id) (some (.rejected error used.token presentedAt))
  | rejects {error : AuthError} {token presentedAt : ℕ}
    (h : ∀ used ∈ db.usedTokens, used.token = token → presentedAt ≤ used.usedAt + overlapTime ∨ RevokedIn db used.sessionId) :
    Committed db touched db (some (.rejected error token presentedAt))

/-- A token in use is not a consumed one. -/
theorem rejects_current (hI : SessionsOk db log) {id presentedAt : ℕ} {error : AuthError} {record : UserSession}
    {touched : ℕ → Prop} (hget : db.sessions.get? id = some record) :
    Committed db touched db (some (.rejected error record.refreshToken presentedAt)) := by
  refine .rejects fun used hused htoken => ?_
  exact absurd (htoken ▸ SessionDb.tokenOf_of_get? hget) ((hI.apart used hused).2 id)

theorem answerUsed_commits (hI : SessionsOk db log) {touched : ℕ → Prop} {id presentedAt : ℕ} {record : UserSession}
    {used : UsedRefreshToken} (htouched : touched id) (hpresented : presentedAt ≤ db.clock)
    (hget : db.sessions.get? id = some record) (hused : used ∈ db.usedTokens) (hid : used.sessionId = id)
    (h : answerUsed db id record used presentedAt = .commits db' event) : Committed db touched db' event := by
  simp only [answerUsed] at h
  split at h
  · split at h
    · next hoverlap =>
      cases h
      refine .rejects fun u hu htoken => .inl ?_
      rw [hI.eq_of_token hu hused htoken]
      exact hpresented.trans hoverlap
    · cases h
      exact .replays htouched hget hused hid
  · next hrevoked =>
    cases h
    refine .rejects fun u hu htoken => .inr ?_
    rw [hI.eq_of_token hu hused htoken, hid]
    exact ⟨record, hget, hrevoked⟩

theorem validateSession_active {policy : AccessPolicy} {record : UserSession} {userId now : ℕ}
    (h : validateSession policy record userId now = .ok ()) : record.revokedAt = none := by
  unfold validateSession at h
  split at h
  · cases h
  · next hvalid => exact not_not.1 fun hrevoked => hvalid (.inr hrevoked)

/-- **What a statement commits.** -/
theorem next_commits (hI : SessionsOk db log) {t : SessionTxn} (ht : t.Relies db) (h : t.next db free = .commits db' event) :
    Committed db (fun id => id ∈ t.locks ∨ free id = true) db' event := by
  cases t with
  | arrives call =>
    cases call with
    | login userId rememberMe => cases h
    | rotate token => cases h
    | revoke userId token sessionId =>
      cases token with
      | some token => cases h
      | none => cases userId <;> cases sessionId <;> cases h
    | touch sessionId =>
      simp only [SessionTxn.next, Outcome.whenFree_eq_commits] at h
      obtain ⟨hfree, h⟩ := h
      cases h
      exact .touches (.inr hfree)
    | administer users policy =>
      cases h
      exact .administers users policy
    | wait time =>
      cases h
      exact .waits time
  | opens userId rememberMe now policy =>
    cases h
    exact .creates userId rememberMe now policy
  | looksUp purpose token presentedAt =>
    simp only [SessionTxn.next] at h
    split at h
    · simp at h
    · cases h
  | searchesUsed purpose token presentedAt =>
    simp only [SessionTxn.next] at h
    split at h
    · cases h
    · next hnone =>
      cases purpose with
      | revoke => cases h
      | rotate =>
        cases h
        refine .rejects fun used hused htoken => ?_
        exact absurd (beq_iff_eq.2 htoken) (List.find?_eq_none.1 hnone used hused)
  | relocks purpose used presentedAt =>
    simp only [SessionTxn.next] at h
    split at h
    · simp at h
    · next hnone =>
      refine absurd ?_ (hI.known used ht.2)
      rw [SessionDb.tokenOf, hnone, Option.map_none]
  | holds purpose id record used presentedAt =>
    obtain ⟨hpresented, hget, hused⟩ := ht
    cases purpose with
    | revoke =>
      cases h
      exact .revokes [id] presentedAt fun i hi => .inl hi
    | rotate =>
      cases used with
      | none => cases h
      | some used =>
        obtain ⟨hmem, hid⟩ := hused used rfl
        exact answerUsed_commits hI (.inl List.mem_cons_self) hpresented hget hmem hid h
  | authorizes id record presentedAt now =>
    simp only [SessionTxn.next] at h
    split at h
    · cases h
    · cases h
      exact rejects_current hI ht
  | validates id record presentedAt now =>
    simp only [SessionTxn.next] at h
    split at h
    · next hvalid =>
      cases h
      exact .renews (.inl List.mem_cons_self) ht (validateSession_active hvalid)
    · cases h
      exact rejects_current hI ht
  | picks userId sessionId now =>
    simp only [SessionTxn.next] at h
    split at h
    · split at h
      · simp at h
      · cases h
    · cases h
  | lists userId now => cases h
  | revokes locked rest now =>
    cases rest with
    | nil =>
      cases h
      exact .revokes locked now fun id hid => .inl hid
    | cons id rest => simp [SessionTxn.next] at h

/-- **What a statement reads** is there, and what it locks was free. -/
theorem next_continues {t t' : SessionTxn} (h : t.next db free = .continues t') :
    (t.Relies db → t'.Relies db) ∧ ∀ id ∈ t'.locks, id ∈ t.locks ∨ free id = true := by
  have hnone : ∀ id ∈ ([] : List ℕ), id ∈ t.locks ∨ free id = true := fun id hid => by cases hid
  cases t with
  | arrives call =>
    cases call with
    | login userId rememberMe =>
      cases h
      exact ⟨fun _ => trivial, hnone⟩
    | rotate token =>
      cases h
      exact ⟨fun _ => le_refl db.clock, hnone⟩
    | revoke userId token sessionId =>
      cases token with
      | some token =>
        cases h
        exact ⟨fun _ => le_refl db.clock, hnone⟩
      | none => cases userId <;> cases sessionId <;> cases h <;> exact ⟨fun _ => trivial, hnone⟩
    | touch sessionId => simp [SessionTxn.next] at h
    | administer users policy => cases h
    | wait time => cases h
  | opens userId rememberMe now policy => cases h
  | looksUp purpose token presentedAt =>
    simp only [SessionTxn.next] at h
    split at h
    · next id record hfound =>
      rw [Outcome.whenFree_eq_continues] at h
      obtain ⟨hfree, h⟩ := h
      cases h
      refine ⟨fun ht => ⟨ht, (SessionDb.sessionByToken_eq_some hfound).1, fun u hu => by cases hu⟩, fun i hi => ?_⟩
      rw [List.mem_singleton.1 hi]
      exact .inr hfree
    · cases h
      exact ⟨fun ht => ht, hnone⟩
  | searchesUsed purpose token presentedAt =>
    simp only [SessionTxn.next] at h
    split at h
    · next used hfound =>
      cases h
      exact ⟨fun ht => ⟨ht, List.mem_of_find?_eq_some hfound⟩, hnone⟩
    · cases purpose <;> cases h
  | relocks purpose used presentedAt =>
    simp only [SessionTxn.next] at h
    split at h
    · next record hget =>
      rw [Outcome.whenFree_eq_continues] at h
      obtain ⟨hfree, h⟩ := h
      cases h
      refine ⟨fun ht => ⟨ht.1, hget, fun u hu => ?_⟩, fun i hi => ?_⟩
      · cases hu
        exact ⟨ht.2, rfl⟩
      · rw [List.mem_singleton.1 hi]
        exact .inr hfree
    · cases purpose <;> cases h
  | holds purpose id record used presentedAt =>
    cases purpose with
    | revoke => cases h
    | rotate =>
      cases used with
      | none =>
        cases h
        exact ⟨fun ht => ht.2.1, fun i hi => .inl hi⟩
      | some used =>
        simp only [SessionTxn.next, answerUsed] at h
        split at h
        · split at h <;> cases h
        · cases h
  | authorizes id record presentedAt now =>
    simp only [SessionTxn.next] at h
    split at h
    · cases h
      exact ⟨fun ht => ht, fun i hi => .inl hi⟩
    · cases h
  | validates id record presentedAt now =>
    simp only [SessionTxn.next] at h
    split at h <;> cases h
  | picks userId sessionId now =>
    simp only [SessionTxn.next] at h
    split at h
    · split at h
      · rw [Outcome.whenFree_eq_continues] at h
        obtain ⟨hfree, h⟩ := h
        cases h
        refine ⟨fun _ => trivial, fun i hi => ?_⟩
        rw [List.mem_singleton.1 hi]
        exact .inr hfree
      · cases h
    · cases h
  | lists userId now =>
    cases h
    exact ⟨fun _ => trivial, hnone⟩
  | revokes locked rest now =>
    cases rest with
    | nil => cases h
    | cons id rest =>
      simp only [SessionTxn.next, Outcome.whenFree_eq_continues] at h
      obtain ⟨hfree, h⟩ := h
      cases h
      refine ⟨fun _ => trivial, fun i hi => ?_⟩
      rcases List.mem_cons.1 hi with rfl | hi
      · exact .inr hfree
      · exact .inl hi

/-! ## What a commit means for the tables and the other calls -/

namespace Committed
variable {touched : ℕ → Prop}

theorem kept (h : Committed db touched db' event) : SessionsKept touched db db' := by
  cases h with
  | administers users policy => exact .of_eq rfl rfl le_rfl
  | waits time => exact .of_eq rfl rfl (Nat.le_add_right _ _)
  | creates userId rememberMe now policy =>
    exact ⟨fun id record hget => ⟨record, Table.get?_insert_of_some hget, fun hr => hr, fun _ => rfl⟩, fun _ hu => hu, le_rfl⟩
  | touches htouched =>
    refine .modify htouched (fun record hrevoked => ?_) rfl (fun _ hu => hu) rfl
    rwa [if_neg hrevoked]
  | revokes ids now htouched => exact .revokeAll now htouched
  | renews htouched hget hactive =>
    refine .modify htouched ?_ rfl (fun _ hu => List.mem_append_left _ hu) rfl
    exact fun _ hrevoked => hrevoked
  | replays htouched hget hused hid => exact .revoke htouched _
  | rejects h => exact .of_eq rfl rfl le_rfl

theorem sessionsOk_revokeAll (hI : SessionsOk db log) (now : ℕ) (ids : List ℕ) :
    SessionsOk (ids.foldl (fun db id => db.revoke now id) db) log := by
  induction ids generalizing db with
  | nil => exact hI
  | cons id ids ih =>
    have hrevoke : SessionsOk (db.revoke now id) (log ++ Option.toList none) :=
      hI.keep (fun _ => SessionDb.tokenOf_revoke) rfl rfl rfl
    rw [Option.toList_none, List.append_nil] at hrevoke
    exact ih hrevoke

theorem sessionsOk (hI : SessionsOk db log) (h : Committed db touched db' event) : SessionsOk db' (log ++ event.toList) := by
  cases h with
  | administers users policy => exact hI.keep (fun _ => rfl) rfl rfl rfl
  | waits time => exact hI.keep (fun _ => rfl) rfl rfl rfl
  | creates userId rememberMe now policy =>
    refine hI.draw none (fun _ => SessionDb.tokenOf_createSession _ _ _) rfl ?_ (fun _ hu => by cases hu) rfl
    exact (List.append_nil _).symm
  | touches htouched => exact hI.keep (fun _ => SessionDb.tokenOf_touch) rfl rfl rfl
  | revokes ids now htouched =>
    rw [Option.toList_none, List.append_nil]
    exact sessionsOk_revokeAll hI now ids
  | renews htouched hget hactive =>
    refine hI.draw (some _) (fun _ => SessionDb.tokenOf_rotate hget) rfl rfl (fun used hu => ?_) rfl
    cases hu
    exact ⟨rfl, SessionDb.tokenOf_of_get? hget⟩
  | replays htouched hget hused hid => exact hI.keep (fun _ => SessionDb.tokenOf_revoke) rfl rfl rfl
  | rejects h => exact hI.keep (fun _ => rfl) rfl rfl rfl

/-- The call is answered as promised. -/
theorem answeredSafely (hI : SessionsOk db log) (h : Committed db touched db' event) :
    ∀ e ∈ event, AnsweredSafely db log db' e := by
  intro e he
  cases h with
  | administers | waits | creates | touches | revokes => cases he
  | renews htouched hget hactive =>
    cases he
    refine ⟨?_, fun used hused htoken => ?_⟩
    · rintro ⟨record, hget', hrevoked⟩
      rw [hget, Option.some.injEq] at hget'
      exact hrevoked (hget' ▸ hactive)
    · rw [← hI.history] at hused
      exact (hI.apart used hused).2 _ (htoken ▸ SessionDb.tokenOf_of_get? hget)
  | @replays id presentedAt error record used htouched hget hused hid =>
    cases he
    intro u hu htoken _
    rw [← hI.history] at hu
    have hget' : (db.revoke db.clock id).sessions.get? id = some { record with revokedAt := some db.clock } := by
      rw [SessionDb.revoke, Table.get?_modify_self, hget, Option.map_some]
    rw [hI.eq_of_token hu hused htoken, hid]
    exact ⟨_, hget', Option.some_ne_none _⟩
  | rejects h =>
    cases he
    intro u hu htoken hlate
    rw [← hI.history] at hu
    exact (h u hu htoken).resolve_left (not_le.2 hlate)

end Committed

theorem Relies.frame {t : SessionTxn} {touched : ℕ → Prop} (ht : t.Relies db) (hkept : SessionsKept touched db db')
    (hlocks : ∀ id ∈ t.locks, ¬touched id) : t.Relies db' := by
  cases t with
  | looksUp | searchesUsed => exact ht.trans hkept.clock
  | relocks => exact ⟨ht.1.trans hkept.clock, hkept.used _ ht.2⟩
  | holds purpose id record used presentedAt =>
    obtain ⟨hpresented, hget, hused⟩ := ht
    exact ⟨hpresented.trans hkept.clock, hkept.get? (hlocks id List.mem_cons_self) hget,
      fun u hu => ⟨hkept.used u (hused u hu).1, (hused u hu).2⟩⟩
  | authorizes id | validates id => exact hkept.get? (hlocks id List.mem_cons_self) ht
  | arrives | opens | picks | lists | revokes => trivial

end SessionTxn

/-! ## Runs -/

theorem refreshing_rules : Rules refreshing SessionsOk (fun db t => t.Relies db) fun _ _ _ => True where
  start_locks _ := rfl
  start _ _ := trivial
  acquires h := (SessionTxn.next_continues h).2
  continues _ ht _ h := (SessionTxn.next_continues h).1 ht
  commits hI ht _ h := (SessionTxn.next_commits hI ht h).sessionsOk hI
  frame hI ht hu _ hfree h := by
    refine hu.frame (SessionTxn.next_commits hI ht h).kept fun id hid htouched => ?_
    obtain ⟨hother, hnot⟩ := hfree id hid
    rcases htouched with hlocked | htaken
    · exact hother hlocked
    · rw [hnot] at htaken
      cases htaken

/-- What lies between two committed databases, with their logs. -/
structure SessionsSince (a b : SessionDb × List SessionEvent) : Prop where
  revoked : ∀ id, RevokedIn a.1 id → RevokedIn b.1 id
  answers : ∃ later, b.2 = a.2 ++ later ∧ ∀ event ∈ later, AnsweredSafely a.1 a.2 b.1 event

/-- What is answered safely after the later database, or before it, is so after the earlier one. -/
theorem AnsweredSafely.mono {db db' after after' : SessionDb} {log log' : List SessionEvent} {event : SessionEvent}
    (h : AnsweredSafely db' log' after event) (hrevoked : ∀ id, RevokedIn db id → RevokedIn db' id)
    (hlog : ∀ e ∈ log, e ∈ log') (hafter : ∀ id, RevokedIn after id → RevokedIn after' id) :
    AnsweredSafely db log after' event := by
  have hconsumed : ∀ used ∈ log.filterMap SessionEvent.consumed, used ∈ log'.filterMap SessionEvent.consumed := by
    intro used hused
    obtain ⟨e, he, hue⟩ := List.mem_filterMap.1 hused
    exact List.mem_filterMap.2 ⟨e, hlog e he, hue⟩
  cases event with
  | renewed id token newToken usedAt =>
    exact ⟨fun hid => h.1 (hrevoked id hid), fun used hused => h.2 used (hconsumed used hused)⟩
  | rejected error token presentedAt =>
    exact fun used hused htoken hlate => hafter _ (h used (hconsumed used hused) htoken hlate)

theorem SessionsSince.refl (a : SessionDb × List SessionEvent) : SessionsSince a a :=
  ⟨fun _ h => h, [], (List.append_nil _).symm, fun _ h => by cases h⟩

theorem SessionsSince.trans {a b c : SessionDb × List SessionEvent} (h : SessionsSince a b) (h' : SessionsSince b c) :
    SessionsSince a c := by
  refine ⟨fun id hid => h'.revoked id (h.revoked id hid), ?_⟩
  obtain ⟨later, hlog, hlater⟩ := h.answers
  obtain ⟨later', hlog', hlater'⟩ := h'.answers
  refine ⟨later ++ later', by rw [hlog', hlog, List.append_assoc], fun event hevent => ?_⟩
  rcases List.mem_append.1 hevent with hevent | hevent
  · exact (hlater event hevent).mono (fun _ hid => hid) (fun _ he => he) h'.revoked
  · exact (hlater' event hevent).mono h.revoked (fun e he => hlog ▸ List.mem_append_left _ he) fun _ hid => hid

/-- A token that is accepted is the one in use. -/
theorem tokenOf_of_accepts {db : SessionDb} {log : List SessionEvent} {id token : ℕ} (hI : SessionsOk db log)
    (h : Accepts db id token) : db.tokenOf id = some token := by
  obtain ⟨n, newToken, usedAt, h⟩ := h
  obtain ⟨t, db', ht, hnext⟩ := refreshing_rules.answer (fun _ _ _ => trivial) hI (t := .arrives (.rotate token)) trivial h
  cases SessionTxn.next_commits hI ht hnext with
  | renews htouched hget hactive => exact SessionDb.tokenOf_of_get? hget

/-- **Rotation of refresh tokens is safe** in every interleaving: after any run, and after any that continues it. -/
theorem rotation_safe (users : Table User) (policy : AccessPolicy) (clock : ℕ) (as bs : List (Action SessionCall)) :
    RotationSafe (run refreshing.step (.idle (.fresh users policy clock)) as)
      (run refreshing.step (run refreshing.step (.idle (.fresh users policy clock)) as) bs) := by
  have hmeets := meets_of_always refreshing (C := fun _ _ _ => True) fun _ _ _ => trivial
  have hs := refreshing_rules.run (sound_idle _ _ (.fresh users policy clock)) (hmeets _ as)
  generalize run refreshing.step (.idle (.fresh users policy clock)) as = s at hs ⊢
  have hsince := refreshing_rules.run_relation SessionsSince .refl .trans (fun {db log free t db' event} hI ht _ h => by
    have hcommitted := SessionTxn.next_commits hI ht h
    exact ⟨fun id hid => hcommitted.kept.revokedIn hid, _, rfl, fun e he =>
      hcommitted.answeredSafely hI e (Option.mem_toList.1 he)⟩) hs (hmeets s bs)
  constructor
  · intro id token token' h h'
    have htoken := tokenOf_of_accepts hs.db h
    rw [tokenOf_of_accepts hs.db h', Option.some.injEq] at htoken
    exact htoken.symm
  · rw [← hs.db.history]
    exact hs.db.nodup
  · exact hsince.revoked
  · exact hsince.answers

/-- Calls that run one after the other. -/
def oneByOneCalls (calls : List SessionCall) : List (Action SessionCall) :=
  (calls.zipIdx 1).flatMap fun call => .start call.1 :: List.replicate 5 (.advance call.2)

/-- The first token of a session comes again six seconds after it was renewed. -/
example : ((run refreshing.step
    (.idle (.fresh (Table.empty.insert ⟨"U-1", "clerk", "clerk@example.com", "Clerk", "ACTIVE", false⟩) ⟨480, 30⟩ 0))
    (oneByOneCalls [.login 1 false, .rotate 0, .wait (6 * 10 ^ 6), .rotate 0])).db.sessions.get? 1).bind
      UserSession.revokedAt = some (6 * 10 ^ 6) := by decide +kernel

end LcsSystem
