import LcsSystem.Telegram.Monitor

/-!
# Which audit events the scan misses

The cursor passes an event that is not visible yet: its transaction has taken the id and commits later. Where every
transaction commits before a tick has passed its ids, and soon enough for the window of fifteen minutes, a tick examines
exactly what has become visible since the last one.
-/

namespace LcsSystem.Telegram
open History Transition

/-! ## One tick -/

namespace AuditEvent

theorem alert_of_isCritical {e : AuditEvent} (h : e.isCritical = true) (count now cooldownMinutes : ℕ) :
    ∃ a, e.alert count now cooldownMinutes = some a ∧ a.eventId = e.id := by
  have hreport : ∃ r, e.report count = some r := by
    simp only [isCritical, Bool.or_eq_true, beq_iff_eq] at h
    rcases h with h | h <;> simp [report, h]
  obtain ⟨r, hr⟩ := hreport
  exact ⟨_, by rw [alert, hr, Option.map_some], rfl⟩

end AuditEvent

namespace AuditLog

theorem advanced_concat (cursor : ℕ) (events : List AuditEvent) (e : AuditEvent) : advanced cursor (events ++ [e]) = e.id := by
  rw [advanced, List.foldl_append]
  rfl

/-- In the order of their ids the cursor ends at the largest. -/
theorem id_le_advanced {cursor : ℕ} {events : List AuditEvent} (hsorted : events.Pairwise fun a b => a.id ≤ b.id)
    {e : AuditEvent} (he : e ∈ events) : e.id ≤ advanced cursor events := by
  induction events using List.reverseRecOn with
  | nil => cases he
  | append_singleton init last ih =>
    rw [advanced_concat]
    rcases List.mem_append.1 he with he | he
    · exact (List.pairwise_append.1 hsorted).2.2 e he last (List.mem_singleton.2 rfl)
    · rw [List.mem_singleton.1 he]

theorem advanced_eq (cursor : ℕ) (events : List AuditEvent) :
    advanced cursor events = cursor ∨ ∃ e ∈ events, advanced cursor events = e.id := by
  induction events using List.reverseRecOn with
  | nil => exact .inl rfl
  | append_singleton init last _ => exact .inr ⟨last, by simp, advanced_concat cursor init last⟩

/-! ## The invariant -/

/-- What the scan has not reached. -/
def fresh (s : AuditLog) : List AuditEvent := s.visible.filter fun e => decide (s.cursor < e.id)

def examined (s : AuditLog) : List AuditEvent := s.log.flatMap Scan.examined

structure Scanning (s : AuditLog) : Prop where
  complete : s.Complete
  ids : (s.visible.map AuditEvent.id ++ s.pending.map fun p => p.2.id).Nodup
  issued : ∀ i ∈ s.visible.map AuditEvent.id ++ s.pending.map fun p => p.2.id, i < s.nextId
  bounded : s.nextId ≤ maxCursor + 1
  cursor : s.cursor < s.nextId
  passed : ∀ e ∈ s.visible, e.id ≤ s.cursor → s.examined.count e = 1 ∧
    (e.isCritical = true → ∃ scan ∈ s.log, ∃ a ∈ scan.alerts, a.eventId = e.id)
  below : ∀ e ∈ s.examined, e.id ≤ s.cursor
  few : s.fresh.length ≤ s.sinceTick
  limit : s.sinceTick ≤ 200
  recent : ∀ e ∈ s.fresh, s.lastTick ≤ e.occurredAt + minutes 14
  regular : s.clock ≤ s.lastTick + minutes 1
  past : s.lastTick ≤ s.clock

theorem scanning_initial : Scanning {} := by
  constructor <;> simp [fresh, examined, Complete, explained_nil, maxCursor]

namespace Scanning
variable {s : AuditLog}

theorem nodup_visible (h : s.Scanning) : s.visible.Nodup := List.Nodup.of_map _ (List.nodup_append.1 h.ids).1

/-- The window and the limit of the scan leave nothing out. -/
theorem scanned_perm (h : s.Scanning) : s.scanned.Perm s.fresh := by
  have hwindow : (s.visible.filter fun e => decide (s.cursor < e.id) && decide (s.clock ≤ e.occurredAt + minutes 15)) =
      s.fresh := by
    refine List.filter_congr fun e he => ?_
    by_cases hfresh : s.cursor < e.id
    · have hwindow : s.clock ≤ e.occurredAt + minutes 15 := by
        have hrecent := h.recent e (List.mem_filter.2 ⟨he, by simpa using hfresh⟩)
        have hregular := h.regular
        simp only [minutes] at hrecent hregular ⊢
        omega
      simp [hfresh, hwindow]
    · simp [hfresh]
  have hsorted := List.perm_insertionSort (fun a b : AuditEvent => a.id ≤ b.id) s.fresh
  have hlimit : (s.fresh.insertionSort fun a b => a.id ≤ b.id).length ≤ 200 := by
    rw [hsorted.length_eq]
    exact h.few.trans h.limit
  rw [scanned, hwindow, List.take_of_length_le hlimit]
  exact hsorted

theorem mem_scanned (h : s.Scanning) {e : AuditEvent} : e ∈ s.scanned ↔ e ∈ s.visible ∧ s.cursor < e.id := by
  rw [h.scanned_perm.mem_iff, fresh, List.mem_filter, decide_eq_true_eq]

theorem id_lt_nextId (h : s.Scanning) {e : AuditEvent} (he : e ∈ s.visible) : e.id < s.nextId :=
  h.issued e.id (List.mem_append_left _ (List.mem_map_of_mem he))

theorem visible_le_advanced (h : s.Scanning) {e : AuditEvent} (he : e ∈ s.visible) (hfresh : s.cursor < e.id) :
    e.id ≤ advanced s.cursor s.scanned := by
  have hsorted : s.scanned.Pairwise fun a b => a.id ≤ b.id :=
    ((List.pairwise_insertionSort (fun a b : AuditEvent => a.id ≤ b.id) _).sublist (List.take_sublist _ _))
  exact id_le_advanced hsorted (h.mem_scanned.2 ⟨he, hfresh⟩)

theorem cursor_le_advanced (h : s.Scanning) : s.cursor ≤ advanced s.cursor s.scanned := by
  rcases advanced_eq s.cursor s.scanned with heq | ⟨e, he, heq⟩
  · exact heq.ge
  · rw [heq]
    exact (h.mem_scanned.1 he).2.le

theorem advanced_lt (h : s.Scanning) : advanced s.cursor s.scanned < s.nextId := by
  rcases advanced_eq s.cursor s.scanned with heq | ⟨e, he, heq⟩
  · rw [heq]
    exact h.cursor
  · rw [heq]
    exact h.id_lt_nextId (h.mem_scanned.1 he).1

/-- The tick has examined everything visible, each event once. -/
theorem seen_tick (h : s.Scanning) (counts : AuditEvent → ℕ) (cooldownMinutes : ℕ) :
    Seen s.log ⟨s.visible, s.scanned, s.scanned.filterMap fun e => e.alert (counts e) s.clock cooldownMinutes⟩ := by
  intro e he
  simp only [List.flatMap_append, List.count_append, List.flatMap_cons, List.flatMap_nil, List.append_nil]
  by_cases hfresh : s.cursor < e.id
  · have hscanned := h.mem_scanned.2 ⟨he, hfresh⟩
    have hold : e ∉ s.examined := fun hmem => absurd (h.below e hmem) (not_le.2 hfresh)
    have hnodup : s.scanned.Nodup := h.scanned_perm.nodup_iff.2 (h.nodup_visible.filter _)
    refine ⟨?_, fun hcritical => ?_⟩
    · rw [List.count_eq_one_of_mem hnodup hscanned]
      exact congrArg (· + 1) (List.count_eq_zero_of_not_mem hold)
    · obtain ⟨a, ha, hid⟩ := AuditEvent.alert_of_isCritical hcritical (counts e) s.clock cooldownMinutes
      exact ⟨_, List.mem_append_right _ (List.mem_singleton.2 rfl), a, List.mem_filterMap.2 ⟨e, hscanned, ha⟩, hid⟩
  · obtain ⟨hcount, halert⟩ := h.passed e he (not_lt.1 hfresh)
    have hnew : e ∉ s.scanned := fun hmem => hfresh (h.mem_scanned.1 hmem).2
    refine ⟨?_, fun hcritical => ?_⟩
    · rw [List.count_eq_zero_of_not_mem hnew]
      exact hcount
    · obtain ⟨scan, hscan, a, ha, hid⟩ := halert hcritical
      exact ⟨scan, List.mem_append_left _ hscan, a, ha, hid⟩

theorem tick (h : s.Scanning) (counts : AuditEvent → ℕ) (cooldownMinutes : ℕ) : (s.tick counts cooldownMinutes).Scanning := by
  have hseen := h.seen_tick counts cooldownMinutes
  have hfits : advanced s.cursor s.scanned ≤ maxCursor := Nat.lt_succ_iff.1 (h.advanced_lt.trans_le h.bounded)
  have hreached : ∀ e ∈ s.visible, e.id ≤ advanced s.cursor s.scanned := by
    intro e he
    by_cases hfresh : s.cursor < e.id
    · exact h.visible_le_advanced he hfresh
    · exact (not_lt.1 hfresh).trans h.cursor_le_advanced
  have hnone : (s.visible.filter fun e => decide (advanced s.cursor s.scanned < e.id)) = [] :=
    List.filter_eq_nil_iff.2 fun e he => by simpa using hreached e he
  rw [AuditLog.tick, if_pos hfits]
  refine { h with complete := ?_, cursor := h.advanced_lt, passed := ?_, below := ?_, few := ?_, limit := ?_, recent := ?_,
                  regular := ?_, past := le_rfl }
  · exact explained_concat.2 ⟨h.complete, hseen⟩
  · exact fun e he _ => hseen e he
  · intro e he
    simp only [examined, List.flatMap_append, List.mem_append, List.flatMap_cons, List.flatMap_nil, List.append_nil] at he
    rcases he with he | he
    · exact (h.below e he).trans h.cursor_le_advanced
    · exact hreached e (h.mem_scanned.1 he).1
  · exact (congrArg List.length hnone).le
  · exact Nat.zero_le _
  · intro e he
    change e ∈ s.visible.filter fun e => decide (advanced s.cursor s.scanned < e.id) at he
    rw [hnone] at he
    cases he
  · exact Nat.le_add_right _ _

theorem write (h : s.Scanning) (txn : ℕ) (event : AuditEvent) (hnext : s.nextId ≤ maxCursor) :
    (s.step (.write txn event)).Scanning := by
  have hids : (s.pending ++ [(txn, { event with id := s.nextId, occurredAt := s.clock })]).map (fun p : ℕ × AuditEvent => p.2.id) =
      (s.pending.map fun p => p.2.id) ++ [s.nextId] := by simp
  refine { h with ids := ?_, issued := ?_, bounded := Nat.succ_le_succ hnext, cursor := h.cursor.trans (Nat.lt_succ_self _) }
  · rw [AuditLog.step, hids, ← List.append_assoc]
    refine List.nodup_append.2 ⟨h.ids, List.nodup_singleton _, fun a ha b hb => ?_⟩
    rw [List.mem_singleton.1 hb]
    exact (h.issued a ha).ne
  · intro i hi
    rw [AuditLog.step, hids, ← List.append_assoc, List.mem_append] at hi
    rcases hi with hi | hi
    · exact (h.issued i hi).trans (Nat.lt_succ_self _)
    · rw [List.mem_singleton.1 hi]
      exact Nat.lt_succ_self _

/-- The events of a transaction and those of the others. -/
theorem pending_perm (s : AuditLog) (txn : ℕ) :
    (s.eventsOf txn ++ (s.endTxn txn).map Prod.snd).Perm (s.pending.map Prod.snd) := by
  have := List.filter_append_perm (fun p : ℕ × AuditEvent => p.1 == txn) s.pending
  rw [eventsOf, endTxn, ← List.map_append]
  exact this.map _

theorem commit (h : s.Scanning) (txn : ℕ) (hfew : s.sinceTick + (s.eventsOf txn).length ≤ 200)
    (horder : ∀ e ∈ s.eventsOf txn, s.cursor < e.id ∧ s.clock ≤ e.occurredAt + minutes 14) :
    (s.step (.commit txn)).Scanning := by
  have hperm : ((s.visible ++ s.eventsOf txn).map AuditEvent.id ++ (s.endTxn txn).map fun p => p.2.id).Perm
      (s.visible.map AuditEvent.id ++ s.pending.map fun p => p.2.id) := by
    have := ((pending_perm s txn).map AuditEvent.id).append_left (s.visible.map AuditEvent.id)
    simpa [Function.comp_def] using this
  have hfresh : ((s.visible ++ s.eventsOf txn).filter fun e => decide (s.cursor < e.id)) = s.fresh ++ s.eventsOf txn := by
    rw [List.filter_append]
    congr 1
    exact List.filter_eq_self.2 fun e he => by simpa using (horder e he).1
  refine { h with ids := hperm.nodup_iff.2 h.ids, issued := ?_, passed := ?_, few := ?_, limit := hfew, recent := ?_ }
  · exact fun i hi => h.issued i (hperm.mem_iff.1 hi)
  · intro e he hle
    rcases List.mem_append.1 he with he | he
    · exact h.passed e he hle
    · exact absurd hle (not_le.2 (horder e he).1)
  · change ((s.visible ++ s.eventsOf txn).filter fun e => decide (s.cursor < e.id)).length ≤ _
    rw [hfresh, List.length_append]
    exact Nat.add_le_add_right h.few _
  · intro e he
    change e ∈ (s.visible ++ s.eventsOf txn).filter fun e => decide (s.cursor < e.id) at he
    rw [hfresh, List.mem_append] at he
    rcases he with he | he
    · exact h.recent e he
    · exact h.past.trans (horder e he).2

theorem rollback (h : s.Scanning) (txn : ℕ) : (s.step (.rollback txn)).Scanning := by
  have hsub : (s.visible.map AuditEvent.id ++ (s.endTxn txn).map fun p => p.2.id).Sublist
      (s.visible.map AuditEvent.id ++ s.pending.map fun p => p.2.id) :=
    (List.filter_sublist.map _).append_left _
  exact { h with ids := h.ids.sublist hsub, issued := fun i hi => h.issued i (hsub.mem hi) }

/-- **Step lemma.** -/
theorem step (h : s.Scanning) (a : AuditAction) (hregular : s.Regular a) (horder : s.InOrder a) : (s.step a).Scanning := by
  cases a with
  | write txn event => exact h.write txn event horder
  | commit txn => exact h.commit txn hregular horder
  | rollback txn => exact h.rollback txn
  | pass duration => exact { h with regular := hregular, past := h.past.trans (Nat.le_add_right _ _) }
  | tick counts cooldownMinutes => exact h.tick counts cooldownMinutes

end Scanning

/-- **No security event is missed**, where no tick passes an event before its transaction has committed. -/
theorem security_events_complete {as : List AuditAction}
    (hmeets : Meets AuditLog.step (fun s a => s.Regular a ∧ s.InOrder a) {} as) : (run AuditLog.step {} as).Complete :=
  (run_invariant_of_meets Scanning (fun _ a h hmeets => h.step a hmeets.1 hmeets.2) scanning_initial hmeets).complete

end AuditLog

/-! ## A lockout that commits late -/

def accountLocked : AuditEvent := ⟨1, "ACCOUNT_LOCKED", none, 7, "lock", "REJECTED", false, [], 0⟩
def userUpdated : AuditEvent := ⟨2, "USER_UPDATED", some 1, 7, "update", "SUCCESS", false, [], 0⟩

namespace AuditLog

/-- Both transactions commit before the tick. -/
theorem security_events_complete_early :
    (run AuditLog.step {} [.write 1 accountLocked, .write 2 userUpdated, .commit 2, .commit 1,
      .tick (fun _ => 0) 15]).Complete :=
  security_events_complete (by decide +kernel)

/-- The tick falls between the two commits: the lockout has the smaller id and is never examined. -/
theorem late_commit_missed :
    ¬∀ as : List AuditAction, Meets AuditLog.step Regular {} as → (run AuditLog.step {} as).Complete := by
  intro h
  have hcomplete := h [.write 1 accountLocked, .write 2 userUpdated, .commit 2, .tick (fun _ => 0) 15, .commit 1,
    .tick (fun _ => 0) 15] (by decide +kernel)
  have hseen := hcomplete [⟨[userUpdated], [userUpdated], []⟩] ⟨[userUpdated, accountLocked], [], []⟩ [] (by decide +kernel)
  exact absurd (hseen accountLocked (by simp)).1 (by decide +kernel)

end AuditLog
end LcsSystem.Telegram
