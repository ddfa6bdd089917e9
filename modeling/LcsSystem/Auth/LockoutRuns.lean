import LcsSystem.Auth.Lockout

/-!
# Runs of logins

The stored count is at least the number of wrong passwords since the last login, lock, expiry or reset, a check that is
under way apart. `LockoutTracked` is that with what the open calls hold, and the runs whose calls do not overlap keep it.
-/

namespace LcsSystem
open Relational Transition

variable {verify : String → String → Bool} {s : LockoutState} {id : ℕ} {t : Attempt}

/-! ## Tallies -/

theorem tallied_concat (log : List LockoutEvent) (e : LockoutEvent) : tallied (log ++ [e]) = tally (tallied log) e := by
  simp [tallied, List.foldl_append]

/-- What an open call holds against a clock and a tally. -/
def AttemptTracked (clock : ℕ) (n : ℕ × ℕ) : Attempt → Prop
  | .loaded _ _ _ now => now ≤ clock
  | .accepted credential => ¬LockedAt credential.lockedUntil clock
  | .rejected credential _ => n.1 ≤ credential.failedAttemptCount + 1
  | .counted _ new locks => locks = false → n.1 ≤ new.failedAttemptCount ∧ (n.1 = 0 ∨ new.failedAttemptCount < n.2)
  | _ => True

/-- No call is between a check and its commit. -/
def LockoutState.Idle (s : LockoutState) : Prop := ∀ i t, s.attempts.get? i = some t → t.underway = false

structure LockoutTracked (s : LockoutState) : Prop where
  enforced : LockoutEnforced s.log
  limit : (tallied s.log).1 = 0 ∨ maxAttempts s.security ≤ (tallied s.log).2
  attempts : ∀ i t, s.attempts.get? i = some t → AttemptTracked s.clock (tallied s.log) t
  single : ∀ i j t u, s.attempts.get? i = some t → s.attempts.get? j = some u → t.underway = true → u.underway = true → i = j
  idle : s.Idle → (tallied s.log).1 ≤ s.credential.failedAttemptCount ∧
    ((tallied s.log).1 = 0 ∨ (tallied s.log).1 < (tallied s.log).2)

theorem LockedAt.of_later {lockedUntil : Option ℕ} {now clock : ℕ} (hle : now ≤ clock) (h : LockedAt lockedUntil clock) :
    LockedAt lockedUntil now := by
  obtain ⟨until', hmem, hlt⟩ := h
  exact ⟨until', hmem, lt_of_le_of_lt hle hlt⟩

/-- Time and settings only help a call. -/
theorem AttemptTracked.mono {clock clock' : ℕ} {n n' : ℕ × ℕ} (hclock : clock ≤ clock') (hcount : n'.1 ≤ n.1)
    (hlimit : n'.1 = 0 ∨ n.2 ≤ n'.2) (h : AttemptTracked clock n t) : AttemptTracked clock' n' t := by
  cases t with
  | loaded password active credential now => exact le_trans h hclock
  | accepted credential => exact fun hlocked => h (hlocked.of_later hclock)
  | rejected credential now => exact le_trans hcount h
  | counted credential new locks =>
    intro hlocks
    obtain ⟨hle, hbound⟩ := h hlocks
    refine ⟨le_trans hcount hle, ?_⟩
    rcases hlimit with hzero | hmore
    · exact .inl hzero
    · rcases hbound with hzero | hlt
      · exact .inl (by omega)
      · exact .inr (lt_of_lt_of_le hlt hmore)
  | _ => trivial

/-- Nothing is left to count after a login, a lock, an expiry or a reset. -/
theorem tracked_of_zero {s' : LockoutState} (h : LockoutTracked s) (hzero : tallied s'.log = (0, 0))
    (hclosed : ∀ clock lockedUntil, .succeeded clock lockedUntil ∈ s'.log → ¬LockedAt lockedUntil clock)
    (hclock : s.clock ≤ s'.clock) (hattempts : ∀ i t, s'.attempts.get? i = some t → s.attempts.get? i = some t) :
    LockoutTracked s' where
  enforced := ⟨by rw [hzero], hclosed⟩
  limit := .inl (by rw [hzero])
  attempts i t hi := (h.attempts i t (hattempts i t hi)).mono hclock (by rw [hzero]; exact Nat.zero_le _) (.inl (by rw [hzero]))
  single i j t u hi hj := h.single i j t u (hattempts i t hi) (hattempts j u hj)
  idle _ := by
    rw [hzero]
    exact ⟨Nat.zero_le _, .inl rfl⟩

/-! ## One statement -/

theorem get?_ends {i : ℕ} (hi : (s.ends id).attempts.get? i = some t) : i ≠ id ∧ s.attempts.get? i = some t := by
  rw [LockoutState.ends, Table.get?_erase, Option.filter_eq_some_iff] at hi
  exact ⟨by simpa using hi.2, hi.1⟩

theorem tracked_insert (h : LockoutTracked s) (ht : AttemptTracked s.clock (tallied s.log) t) (hu : t.underway = false) :
    LockoutTracked { s with attempts := s.attempts.insert t } where
  enforced := h.enforced
  limit := h.limit
  attempts := Table.forall_insert h.attempts ht
  single i j ti tj hi hj hti htj := by
    rw [Table.get?_insert] at hi hj
    split at hi
    · cases hi
      rw [hu] at hti
      cases hti
    · split at hj
      · cases hj
        rw [hu] at htj
        cases htj
      · exact h.single i j ti tj hi hj hti htj
  idle hidle := h.idle fun i ti hi => hidle i ti (Table.get?_insert_of_some hi)

/-- A statement that reads. -/
theorem tracked_continues (h : LockoutTracked s) (hid : s.attempts.get? id = some t) {t' : Attempt}
    (ht : AttemptTracked s.clock (tallied s.log) t') (hu : t'.underway = t.underway) :
    LockoutTracked (s.continues id t') := by
  have hold {i : ℕ} {ti : Attempt} (hi : (s.continues id t').attempts.get? i = some ti) :
      ∃ ti', s.attempts.get? i = some ti' ∧ ti'.underway = ti.underway := by
    rw [LockoutState.continues, Table.get?_modify] at hi
    split at hi
    · next heq =>
      obtain ⟨_, -, rfl⟩ := Option.map_eq_some_iff.1 hi
      exact ⟨t, heq ▸ hid, hu.symm⟩
    · exact ⟨ti, hi, rfl⟩
  refine ⟨h.enforced, h.limit, Table.forall_modify hid h.attempts ht, ?_, fun hidle => h.idle fun i ti hi => ?_⟩
  · intro i j ti tj hi hj hti htj
    obtain ⟨ti', hi', hui⟩ := hold hi
    obtain ⟨tj', hj', huj⟩ := hold hj
    exact h.single i j ti' tj' hi' hj' (hui.trans hti) (huj.trans htj)
  · by_cases heq : i = id
    · subst heq
      rw [hid, Option.some.injEq] at hi
      rw [← hi, ← hu]
      exact hidle i t' (by rw [LockoutState.continues, Table.get?_modify_self, hid]; rfl)
    · exact hidle i ti (by rw [LockoutState.continues, Table.get?_modify_of_ne _ heq, hi])

theorem tracked_ends (h : LockoutTracked s) (hid : ∀ t, s.attempts.get? id = some t → t.underway = false) :
    LockoutTracked (s.ends id) := by
  refine ⟨h.enforced, h.limit, fun i t hi => h.attempts i t (get?_ends hi).2, fun i j t u hi hj =>
    h.single i j t u (get?_ends hi).2 (get?_ends hj).2, fun hidle => h.idle fun i t hi => ?_⟩
  by_cases heq : i = id
  · subst heq
    exact hid t hi
  · refine hidle i t ?_
    rw [LockoutState.ends, Table.get?_erase, hi]
    simp [Option.filter, heq]

/-- A wrong password is checked, under the credential as it is stored. -/
theorem tracked_wrong (h : LockoutTracked s) (hid : s.attempts.get? id = some t) (hidle : s.Idle) {now : ℕ} :
    LockoutTracked ((s.continues id (.rejected s.credential now)).records [.wrong (maxAttempts s.security)]) := by
  obtain ⟨hcount, hbound⟩ := h.idle hidle
  have htally : tallied (s.log ++ [.wrong (maxAttempts s.security)]) =
      ((tallied s.log).1 + 1, max (tallied s.log).2 (maxAttempts s.security)) := tallied_concat _ _
  have hothers {i : ℕ} {ti : Attempt} (hne : i ≠ id)
      (hi : (s.attempts.modify id fun _ => .rejected s.credential now).get? i = some ti) : ti.underway = false := by
    rw [Table.get?_modify_of_ne _ hne] at hi
    exact hidle i ti hi
  have hself : (s.attempts.modify id fun _ => .rejected s.credential now).get? id = some (.rejected s.credential now) := by
    rw [Table.get?_modify_self, hid]
    rfl
  refine ⟨⟨?_, fun clock lockedUntil hmem => ?_⟩, .inr ?_, fun i ti hi => ?_, fun i j ti tj hi hj hti htj => ?_, fun hnone => ?_⟩
  · show (tallied (s.log ++ _)).1 ≤ (tallied (s.log ++ _)).2
    rw [htally]
    have hpos := maxAttempts_pos s.security
    rcases hbound with hzero | hlt
    · rw [hzero]
      exact le_trans hpos (le_max_right _ _)
    · exact le_trans hlt (le_max_left _ _)
  · rcases List.mem_append.1 hmem with hmem | hmem
    · exact h.enforced.closed clock lockedUntil hmem
    · cases List.mem_singleton.1 hmem
  · show maxAttempts s.security ≤ (tallied (s.log ++ _)).2
    rw [htally]
    exact le_max_right _ _
  · show AttemptTracked s.clock (tallied (s.log ++ _)) ti
    rw [htally]
    by_cases hne : i = id
    · subst hne
      obtain rfl : Attempt.rejected s.credential now = ti := Option.some.inj (hself.symm.trans hi)
      exact Nat.add_le_add_right hcount 1
    · have hquiet := hothers hne hi
      have hold : s.attempts.get? i = some ti := (Table.get?_modify_of_ne _ hne).symm.trans hi
      have htracked := h.attempts i ti hold
      cases ti with
      | rejected => cases hquiet
      | counted => cases hquiet
      | loaded => exact htracked
      | accepted => exact htracked
      | _ => trivial
  · have hii : i = id := by
      by_contra hne
      rw [hothers hne hi] at hti
      cases hti
    have hjj : j = id := by
      by_contra hne
      rw [hothers hne hj] at htj
      cases htj
    exact hii.trans hjj.symm
  · cases hnone id _ hself

/-- The committed count includes the wrong password that was under way. -/
theorem tracked_counted (h : LockoutTracked s) {new : Credential}
    (hid : s.attempts.get? id = some (.counted s.credential new false)) :
    LockoutTracked (s.commits id s.credential new [.failed]) := by
  obtain ⟨hcount, hbound⟩ := h.attempts id _ hid rfl
  have htally : tallied (s.log ++ [.failed]) = tallied s.log := tallied_concat _ _
  refine ⟨⟨?_, fun clock lockedUntil hmem => ?_⟩, ?_, fun i ti hi => ?_, fun i j ti tj hi hj =>
    h.single i j ti tj (get?_ends hi).2 (get?_ends hj).2, fun _ => ?_⟩
  · show (tallied (s.log ++ _)).1 ≤ (tallied (s.log ++ _)).2
    rw [htally]
    exact h.enforced.bounded
  · rcases List.mem_append.1 hmem with hmem | hmem
    · exact h.enforced.closed clock lockedUntil hmem
    · cases List.mem_singleton.1 hmem
  · show (tallied (s.log ++ _)).1 = 0 ∨ maxAttempts s.security ≤ (tallied (s.log ++ _)).2
    rw [htally]
    exact h.limit
  · show AttemptTracked s.clock (tallied (s.log ++ _)) ti
    rw [htally]
    exact h.attempts i ti (get?_ends hi).2
  · show (tallied (s.log ++ _)).1 ≤ (writeChanged s.credential new s.credential).failedAttemptCount ∧
      ((tallied (s.log ++ _)).1 = 0 ∨ (tallied (s.log ++ _)).1 < (tallied (s.log ++ _)).2)
    rw [htally, writeChanged_self]
    exact ⟨hcount, hbound.imp_right fun hlt => lt_of_le_of_lt hcount hlt⟩

/-- A commit that ends a count. -/
theorem tracked_commits (h : LockoutTracked s) (old new : Credential) {events : List LockoutEvent}
    (hzero : tallied (s.log ++ events) = (0, 0))
    (hclosed : ∀ clock lockedUntil, .succeeded clock lockedUntil ∈ events → ¬LockedAt lockedUntil clock) :
    LockoutTracked (s.commits id old new events) := by
  refine tracked_of_zero h hzero (fun clock lockedUntil hmem => ?_) (le_refl _) fun i t hi => (get?_ends hi).2
  rcases List.mem_append.1 hmem with hmem | hmem
  · exact h.enforced.closed clock lockedUntil hmem
  · exact hclosed clock lockedUntil hmem

theorem tracked_next (h : LockoutTracked s) (hid : s.attempts.get? id = some t) (hundisturbed : s.Undisturbed verify t) :
    LockoutTracked (s.next verify id t) := by
  cases t with
  | opened password => exact tracked_continues h hid trivial rfl
  | identified password active => exact tracked_continues h hid (Nat.le_refl s.clock) rfl
  | loaded password active credential now =>
    have hends : LockoutTracked (s.ends id) := by
      refine tracked_ends h fun u hu => ?_
      obtain rfl := Option.some.inj (hid.symm.trans hu)
      rfl
    simp only [LockoutState.next]
    split_ifs with hlocked hwrong hactive
    · exact hends
    · obtain ⟨rfl, hidle⟩ := hundisturbed hlocked hwrong
      exact tracked_wrong h hid fun i u hu => hidle (i, u) (Table.get?_eq_some.1 hu)
    · exact hends
    · have hnow : now ≤ s.clock := h.attempts id _ hid
      exact tracked_continues h hid (fun hlater => hlocked (hlater.of_later hnow)) rfl
  | rejected credential now =>
    refine tracked_continues h hid (fun hlocks => ?_) rfl
    have hcount : (tallied s.log).1 ≤ credential.failedAttemptCount + 1 := h.attempts id _ hid
    unfold Credential.fail at hlocks ⊢
    split at hlocks
    · cases hlocks
    · next hfew =>
      rw [if_neg hfew]
      refine ⟨hcount, h.limit.imp_right fun hlimit => ?_⟩
      exact lt_of_lt_of_le (Nat.lt_of_not_le hfew) hlimit
  | counted credential new locks =>
    cases locks with
    | false =>
      obtain rfl : credential = s.credential := hundisturbed
      exact tracked_counted h hid
    | true =>
      refine tracked_commits h credential new ?_ (by simp)
      simp [tallied, List.foldl_append, tally]
  | accepted credential =>
    obtain rfl : credential = s.credential := hundisturbed
    refine tracked_commits h _ _ (tallied_concat _ _) fun clock lockedUntil hmem => ?_
    cases List.mem_singleton.1 hmem
    exact h.attempts id _ hid
  | resetting passwordHash => exact tracked_continues h hid trivial rfl
  | resetLoaded passwordHash credential => exact tracked_commits h _ _ (tallied_concat _ _) (by simp)

/-! ## Settings and time -/

theorem tracked_saveSecurity (h : LockoutTracked s) (security : SecuritySettings) :
    LockoutTracked { s with security := security, log := s.log ++ [.settings (maxAttempts security)] } := by
  have htally : tallied (s.log ++ [.settings (maxAttempts security)]) =
      ((tallied s.log).1, max (tallied s.log).2 (maxAttempts security)) := tallied_concat _ _
  refine ⟨⟨?_, fun clock lockedUntil hmem => ?_⟩, .inr ?_, fun i ti hi => ?_, h.single, fun hidle => ?_⟩
  · show (tallied (s.log ++ _)).1 ≤ (tallied (s.log ++ _)).2
    rw [htally]
    exact le_trans h.enforced.bounded (le_max_left _ _)
  · rcases List.mem_append.1 hmem with hmem | hmem
    · exact h.enforced.closed clock lockedUntil hmem
    · cases List.mem_singleton.1 hmem
  · show maxAttempts security ≤ (tallied (s.log ++ _)).2
    rw [htally]
    exact le_max_right _ _
  · show AttemptTracked s.clock (tallied (s.log ++ _)) ti
    rw [htally]
    refine AttemptTracked.mono (le_refl _) ?_ ?_ (h.attempts i ti hi)
    · exact le_refl _
    · exact .inr (le_max_left _ _)
  · show (tallied (s.log ++ _)).1 ≤ _ ∧ ((tallied (s.log ++ _)).1 = 0 ∨ (tallied (s.log ++ _)).1 < (tallied (s.log ++ _)).2)
    rw [htally]
    obtain ⟨hcount, hbound⟩ := h.idle hidle
    exact ⟨hcount, hbound.imp_right fun hlt => lt_of_lt_of_le hlt (le_max_left _ _)⟩

theorem tracked_wait (h : LockoutTracked s) (time : ℕ) :
    LockoutTracked (lockoutStep verify s (.wait time)) := by
  simp only [lockoutStep]
  split
  · refine tracked_of_zero h (tallied_concat _ _) (fun clock lockedUntil hmem => ?_) (Nat.le_add_right _ _) fun _ _ hi => hi
    rcases List.mem_append.1 hmem with hmem | hmem
    · exact h.enforced.closed clock lockedUntil hmem
    · cases List.mem_singleton.1 hmem
  · rw [List.append_nil]
    exact ⟨h.enforced, h.limit, fun i t hi => (h.attempts i t hi).mono (Nat.le_add_right _ _) (le_refl _) (.inr (le_refl _)),
      h.single, h.idle⟩

/-! ## Runs -/

theorem tracked_step (s : LockoutState) (a : LockoutAction) (h : LockoutTracked s) (ha : Serialized verify s a) :
    LockoutTracked (lockoutStep verify s a) := by
  cases a with
  | login password => exact tracked_insert h trivial rfl
  | resetPassword passwordHash => exact tracked_insert h trivial rfl
  | advance id =>
    cases hid : s.attempts.get? id with
    | some t =>
      simp only [lockoutStep, hid]
      exact tracked_next h hid (ha t hid)
    | none =>
      simp only [lockoutStep, hid]
      exact h
  | abandon id => exact tracked_ends h ha
  | saveSecurity security => exact tracked_saveSecurity h security
  | setActive active => exact ⟨h.enforced, h.limit, h.attempts, h.single, h.idle⟩
  | wait time => exact tracked_wait h time

/-- An account without open calls. -/
def LockoutState.quiet (clock : ℕ) (active : Bool) (security : SecuritySettings) (credential : Credential) : LockoutState :=
  ⟨clock, active, security, credential, .empty, []⟩

theorem tracked_quiet (clock : ℕ) (active : Bool) (security : SecuritySettings) (credential : Credential) :
    LockoutTracked (.quiet clock active security credential) where
  enforced := ⟨Nat.le_refl _, fun _ _ hmem => by cases hmem⟩
  limit := .inl rfl
  attempts _ _ hi := by cases hi
  single _ _ _ _ hi := by cases hi
  idle _ := ⟨Nat.zero_le _, .inl rfl⟩

/-- **The lockout holds in the runs whose calls do not overlap.** -/
theorem lockout_enforced (verify : String → String → Bool) (clock : ℕ) (active : Bool) (security : SecuritySettings)
    (credential : Credential) (as : List LockoutAction)
    (hmeets : Meets (lockoutStep verify) (Serialized verify) (.quiet clock active security credential) as) :
    LockoutEnforced (run (lockoutStep verify) (.quiet clock active security credential) as).log :=
  (run_invariant_of_meets LockoutTracked tracked_step (tracked_quiet clock active security credential) hmeets).enforced

/-! ## Runs of a new account -/

/-- An account of one password with the default policy. -/
def unlockedAccount : LockoutState := .quiet 0 true none ⟨"secret", 0, none⟩

/-- A call that nobody interrupts. -/
def loginAlone (id : ℕ) (password : String) : List LockoutAction := .login password :: List.replicate 5 (.advance id)

/-- Five wrong passwords, one after the other, and the right one when the lock has expired. -/
def lockedOut : List LockoutAction :=
  (List.range 5).flatMap (fun i => loginAlone (i + 1) "guess") ++ .wait (16 * (60 * 10 ^ 6)) :: loginAlone 6 "secret"

/-- Six calls that all read the credential before one of them has written it. -/
def sixAtOnce : List LockoutAction :=
  List.replicate 6 (.login "guess") ++ (List.range 6).flatMap (fun i => List.replicate 3 (.advance (i + 1)))

/-- The right password is checked before the account is locked, and committed after. -/
def lateLogin : List LockoutAction :=
  .login "secret" :: List.replicate 3 (.advance 1) ++ (List.range 5).flatMap (fun i => loginAlone (i + 2) "guess") ++
    [.advance 1]

theorem lockout_enforced_lockedOut :
    LockoutEnforced (run (lockoutStep fun password hash => password == hash) unlockedAccount lockedOut).log :=
  lockout_enforced _ _ _ _ _ _ (by decide +kernel)

/-- Six wrong passwords under a limit of five; and a login while the account is locked. -/
theorem lockout_not_enforced :
    ¬LockoutEnforced (run (lockoutStep fun password hash => password == hash) unlockedAccount sixAtOnce).log ∧
      ¬LockoutEnforced (run (lockoutStep fun password hash => password == hash) unlockedAccount lateLogin).log := by
  constructor
  · intro h
    have hsix : tallied (run (lockoutStep fun password hash => password == hash) unlockedAccount sixAtOnce).log = (6, 5) := by
      decide +kernel
    have hbounded := h.bounded
    rw [hsix] at hbounded
    exact absurd hbounded (by decide)
  · intro h
    have hlogin : .succeeded 0 (some (15 * (60 * 10 ^ 6))) ∈
        (run (lockoutStep fun password hash => password == hash) unlockedAccount lateLogin).log := by decide +kernel
    exact h.closed _ _ hlogin ⟨_, rfl, by decide⟩

end LcsSystem
