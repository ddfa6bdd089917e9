import LcsSystem.Frontend.Renewal

/-!
# What the renewal coordinator promises

`Sound` ties the closure variables to the event loop and to the history: the only armed timer is the one `timer`
names, the only operation is the one `pending` names, and an operation whose version is still the generation has not
been interrupted. Every turn of the event loop keeps it.
-/

namespace LcsSystem.Renewal
open History Transition

/-! ## Histories -/

section
variable {log : List Event} {e : Event} {op : ℕ}

theorem uninterrupted_started : Uninterrupted op (log ++ [.started op]) := ⟨log, [], rfl, by simp⟩

theorem Uninterrupted.concat (h : Uninterrupted op log) (he : e.interrupts = false) : Uninterrupted op (log ++ [e]) := by
  obtain ⟨before, since, rfl, hsince⟩ := h
  refine ⟨before, since ++ [e], by simp, fun x hx => ?_⟩
  rcases List.mem_append.1 hx with hx | hx
  · exact hsince x hx
  · rwa [List.mem_singleton.1 hx]

theorem not_halted_nil : ¬Halted [] := by
  rintro ⟨before, since, h, -⟩
  simp at h

theorem halted_concat : Halted (log ++ [e]) ↔ e = .invalidated ∨ (Halted log ∧ e ≠ .resumed) := by
  constructor
  · rintro ⟨before, since, h, hsince⟩
    rcases List.eq_nil_or_concat since with rfl | ⟨init, last, rfl⟩
    · exact .inl (List.singleton_inj.1 (List.append_inj' h rfl).2)
    · have hlog : log ++ [e] = (before ++ .invalidated :: init) ++ [last] := by rw [h]; simp
      obtain ⟨rfl, hlast⟩ := List.append_inj' hlog rfl
      rw [List.singleton_inj.1 hlast]
      simp only [List.concat_eq_append, List.mem_append, List.mem_singleton, not_or] at hsince
      exact .inr ⟨⟨before, init, rfl, hsince.1⟩, fun hresumed => hsince.2 hresumed.symm⟩
  · rintro (rfl | ⟨⟨before, since, rfl, hsince⟩, he⟩)
    · exact ⟨log, [], rfl, by simp⟩
    · exact ⟨before, since ++ [e], by simp, by simp [hsince, he.symm]⟩

theorem halted_append_of_uninterrupted {since : List Event} (h : ∀ x ∈ since, x.interrupts = false) :
    Halted (log ++ since) ↔ Halted log := by
  induction since using List.reverseRecOn with
  | nil => rw [List.append_nil]
  | append_singleton init last ih =>
    simp only [List.mem_append, List.mem_singleton] at h
    have hlast := h last (.inr rfl)
    rw [← List.append_assoc, halted_concat, ih fun x hx => h x (.inl hx)]
    constructor
    · rintro (rfl | ⟨hh, -⟩)
      · cases hlast
      · exact hh
    · refine fun hh => .inr ⟨hh, ?_⟩
      rintro rfl
      cases hlast

/-- A request that nothing interrupted was started by a coordinator that still runs. -/
theorem Uninterrupted.not_halted (h : Uninterrupted op log) (hallowed : Explained Allowed log) : ¬Halted log := by
  obtain ⟨before, since, rfl, hsince⟩ := h
  have hstarted : ∀ x ∈ Event.started op :: since, x.interrupts = false := by
    rintro x (_ | ⟨_, hx⟩)
    · rfl
    · exact hsince x hx
  rw [halted_append_of_uninterrupted hstarted]
  exact fun hh => absurd ((hallowed before _ since rfl).2 hh) nofun

end

/-! ## The invariant -/

namespace Coordinator

structure Sound (c : Coordinator) : Prop where
  timer : ∀ t ∈ c.armed, c.timer = some t.id
  oneTimer : c.armed.length ≤ 1
  pending : ∀ op ∈ c.operations, c.pending = some op.id
  oneOperation : c.operations.length ≤ 1
  version : ∀ op ∈ c.operations, op.version ≤ c.generation
  current : ∀ op ∈ c.operations, op.version = c.generation → Uninterrupted op.id c.log
  stopped : Halted c.log ↔ c.stopped = true
  unarmed : c.stopped = true → c.armed = []
  allowed : Explained Allowed c.log

theorem sound_initial : Sound {} where
  timer := by simp
  oneTimer := by simp
  pending := by simp
  oneOperation := by simp
  version := by simp
  current := by simp
  stopped := by simp [not_halted_nil]
  unarmed := by simp
  allowed := explained_nil

namespace Sound
variable {c : Coordinator} {op : Operation}

theorem guarded (h : c.Sound) : c.Guarded where
  oneRequest := (List.length_filter_le _ _).trans h.oneOperation
  oneTimer := h.oneTimer
  allowed := h.allowed
  unarmed hhalted := h.unarmed (h.stopped.1 hhalted)

/-- An entry that acts on a current operation. -/
theorem record (h : c.Sound) (hop : op ∈ c.operations) (hcurrent : c.generation = op.version) {e : Event}
    (hacts : e.actsOn = some op.id) : (c.record e).Sound := by
  have hinterrupts : e.interrupts = false := by cases e <;> simp_all [Event.actsOn, Event.interrupts]
  have hstarts : e.starts = false := by cases e <;> simp_all [Event.actsOn, Event.starts]
  have hne : e ≠ .invalidated ∧ e ≠ .resumed := by constructor <;> rintro rfl <;> cases hacts
  refine { h with current := fun o ho hv => (h.current o ho hv).concat hinterrupts, stopped := ?_, allowed := ?_ }
  · refine Iff.trans ?_ h.stopped
    exact halted_concat.trans ⟨fun hc => (hc.resolve_left hne.1).1, fun hc => .inr ⟨hc, hne.2⟩⟩
  · refine explained_concat.2 ⟨h.allowed, fun id hid => ?_, fun _ => hstarts⟩
    obtain rfl : op.id = id := Option.some.inj (hacts.symm.trans hid)
    exact h.current op hop hcurrent.symm

/-! ## Timers -/

theorem armed_stopTimer (h : c.Sound) : c.stopTimer.armed = [] := by
  refine List.filter_eq_nil_iff.2 fun t ht => ?_
  simp [h.timer t ht]

theorem stopTimer (h : c.Sound) : c.stopTimer.Sound :=
  { h with
    timer := fun t ht => absurd ht (by rw [h.armed_stopTimer]; exact List.not_mem_nil)
    oneTimer := by rw [h.armed_stopTimer]; exact Nat.zero_le 1
    unarmed := fun _ => h.armed_stopTimer }

theorem setTimer (h : c.Sound) (hnone : c.armed = []) (hrunning : c.stopped = false) (kind : TimerKind) (delay : ℚ) :
    (c.setTimer kind delay).Sound := by
  have harmed : (c.setTimer kind delay).armed = [⟨c.nextTimer, kind, delay⟩] := by simp [Coordinator.setTimer, hnone]
  have hhalted : ¬Halted c.log := fun hh => by simp [h.stopped.1 hh] at hrunning
  refine { h with timer := ?_, oneTimer := ?_, current := ?_, stopped := ?_, unarmed := ?_, allowed := ?_ }
  · intro t ht
    rw [harmed, List.mem_singleton] at ht
    rw [ht]
    rfl
  · rw [harmed]
    exact le_rfl
  · exact fun o ho hv => (h.current o ho hv).concat rfl
  · refine halted_concat.trans ⟨fun hc => absurd (hc.resolve_left nofun).1 hhalted, fun hs => ?_⟩
    exact absurd (hs.symm.trans hrunning) nofun
  · exact fun hs => absurd (hs.symm.trans hrunning) nofun
  · exact explained_concat.2 ⟨h.allowed, nofun, fun hh => absurd hh hhalted⟩

theorem schedule (h : c.Sound) (expiresAt now : ℚ) : (c.schedule expiresAt now).Sound := by
  unfold Coordinator.schedule
  by_cases hs : c.stopped = true
  · simp only [hs, if_true]
    exact h.stopTimer
  · simp only [hs]
    exact h.stopTimer.setTimer h.armed_stopTimer (Bool.eq_false_iff.2 hs) _ _

/-! ## Calls -/

theorem operations_eq_nil (h : c.Sound) (hpending : c.pending = none) : c.operations = [] := by
  refine List.eq_nil_iff_forall_not_mem.2 fun op hop => ?_
  exact absurd (hpending.symm.trans (h.pending op hop)) nofun

theorem refresh (h : c.Sound) : c.refresh.Sound := by
  unfold Coordinator.refresh
  by_cases hidle : c.stopped = true ∨ c.pending.isSome = true
  · rwa [if_pos hidle]
  rw [if_neg hidle]
  simp only [not_or, Bool.not_eq_true, Option.isSome_eq_false_iff, Option.isNone_iff_eq_none] at hidle
  have hhalted : ¬Halted c.log := fun hh => by simp [h.stopped.1 hh] at hidle
  have hnil := h.operations_eq_nil hidle.2
  refine { h with pending := ?_, oneOperation := ?_, version := ?_, current := ?_, stopped := ?_, allowed := ?_ }
  · simp [hnil]
  · simp [hnil]
  · simp [hnil]
  · simp only [hnil, List.nil_append, List.mem_singleton, forall_eq]
    exact fun _ => uninterrupted_started
  · refine halted_concat.trans ⟨?_, fun hs => absurd (hidle.1.symm.trans hs) Bool.false_ne_true⟩
    rintro (hstarted | hc)
    · cases hstarted
    · exact absurd hc.1 hhalted
  · refine explained_concat.2 ⟨h.allowed, ?_, fun hh => absurd hh hhalted⟩
    rintro _ ⟨⟩

/-- After `invalidate` no operation is current. -/
theorem invalidate (h : c.Sound) : c.invalidate.Sound := by
  have hsilent : c.invalidate.armed = [] := h.armed_stopTimer
  refine { h with timer := ?_, oneTimer := ?_, version := ?_, current := ?_, stopped := ?_, unarmed := ?_, allowed := ?_ }
  · intro t ht
    exact absurd (hsilent ▸ ht) List.not_mem_nil
  · exact (congrArg List.length hsilent).trans_le (Nat.zero_le 1)
  · exact fun o ho => (h.version o ho).trans (Nat.le_succ _)
  · exact fun o ho hv => absurd (h.version o ho) (by rw [hv]; exact Nat.not_succ_le_self _)
  · exact ⟨fun _ => rfl, fun _ => halted_concat.2 (.inl rfl)⟩
  · exact fun _ => hsilent
  · exact explained_concat.2 ⟨h.allowed, nofun, fun _ => rfl⟩

theorem resume (h : c.Sound) : c.resume.Sound := by
  refine { h with version := ?_, current := ?_, stopped := ?_, unarmed := ?_, allowed := ?_ }
  · exact fun o ho => (h.version o ho).trans (Nat.le_succ _)
  · exact fun o ho hv => absurd (h.version o ho) (by rw [hv]; exact Nat.not_succ_le_self _)
  · exact halted_concat.trans ⟨fun hc => (hc.resolve_left nofun).2.elim rfl, nofun⟩
  · exact nofun
  · exact explained_concat.2 ⟨h.allowed, nofun, fun _ => rfl⟩

theorem call (h : c.Sound) : ∀ x : Call, (c.call x).Sound
  | .refresh => h.refresh
  | .schedule expiresAt now => h.schedule expiresAt now
  | .invalidate => h.invalidate
  | .resume => h.resume

theorem foldl_call (h : c.Sound) (xs : List Call) : (xs.foldl Coordinator.call c).Sound := by
  induction xs generalizing c with
  | nil => exact h
  | cons x xs ih => exact ih (h.call x)

end Sound

/-! ## Settlements -/

section
variable {c : Coordinator} {op : Operation}

/-- No call removes an operation. -/
theorem mem_operations_call (hop : op ∈ c.operations) (x : Call) : op ∈ (c.call x).operations := by
  cases x with
  | refresh =>
    simp only [call, refresh]
    split
    · exact hop
    · exact List.mem_append_left _ hop
  | schedule expiresAt now =>
    simp only [call, schedule]
    split <;> exact hop
  | invalidate => exact hop
  | resume => exact hop

theorem mem_operations_foldl (hop : op ∈ c.operations) (xs : List Call) : op ∈ (xs.foldl call c).operations := by
  induction xs generalizing c with
  | nil => exact hop
  | cons x xs ih => exact ih (mem_operations_call hop x)

namespace Sound

theorem handleError (h : c.Sound) (hop : op ∈ c.operations) (status : ℕ) : (c.handleError op status).1.Sound := by
  unfold Coordinator.handleError
  by_cases hcurrent : c.generation ≠ op.version
  · rwa [if_pos hcurrent]
  rw [if_neg hcurrent]
  rw [ne_eq, not_not] at hcurrent
  split
  · exact h.stopTimer.record hop hcurrent rfl
  · have hrecord : (c.record (.unavailable op.id)).Sound := h.record hop hcurrent rfl
    -- a current operation has not been interrupted, so the coordinator is not stopped
    have hrunning : c.stopped = false := by
      have hu := (h.current op hop hcurrent.symm).not_halted h.allowed
      rwa [h.stopped, Bool.not_eq_true] at hu
    simp only
    split
    · exact { hrecord.stopTimer.setTimer hrecord.armed_stopTimer hrunning _ _ with }
    · exact hrecord

theorem handle (h : c.Sound) (hop : op ∈ c.operations) (x : Settlement) : (c.handle op x).1.Sound := by
  cases x with
  | failed status => exact h.handleError hop status
  | answered response =>
    simp only [Coordinator.handle]
    split
    · exact h
    · next hcurrent =>
      rw [ne_eq, not_not] at hcurrent
      have hreset : ({ c with retries := 0 } : Coordinator).Sound := { h with }
      have happlied : (({ c with retries := 0 } : Coordinator).record (.applied op.id)).Sound :=
        hreset.record hop hcurrent rfl
      have hmem : op ∈ (({ c with retries := 0 } : Coordinator).record (.applied op.id)).operations := hop
      have hcalled := happlied.foldl_call response.calls
      split
      · exact hcalled.handleError (mem_operations_foldl hmem response.calls) _
      · exact hcalled.schedule _ _

/-! ## Turns of the event loop -/

theorem setStage (h : c.Sound) (id : ℕ) (stage : Stage) : (c.setStage id stage).Sound := by
  have hsame : ∀ o ∈ (c.setStage id stage).operations, ∃ p ∈ c.operations, o.id = p.id ∧ o.version = p.version := by
    intro o ho
    obtain ⟨p, hp, rfl⟩ := List.mem_map.1 ho
    refine ⟨p, hp, ?_⟩
    split <;> exact ⟨rfl, rfl⟩
  refine { h with pending := ?_, oneOperation := ?_, version := ?_, current := ?_ }
  · intro o ho
    obtain ⟨p, hp, hid, -⟩ := hsame o ho
    exact hid ▸ h.pending p hp
  · exact (List.length_map _).trans_le h.oneOperation
  · intro o ho
    obtain ⟨p, hp, -, hv⟩ := hsame o ho
    exact hv ▸ h.version p hp
  · intro o ho hcurrent
    obtain ⟨p, hp, hid, hv⟩ := hsame o ho
    exact hid ▸ h.current p hp (hv ▸ hcurrent)

/-- The operation that `pending` names is the only one, so clearing it leaves none. -/
theorem clear (h : c.Sound) (id : ℕ) (hop : ∃ op ∈ c.operations, op.id = id) :
    ({ c with
      operations := c.operations.filter fun op => op.id ≠ id
      pending := if c.pending = some id then none else c.pending } : Coordinator).Sound := by
  obtain ⟨op, hop, rfl⟩ := hop
  have hnone : ∀ o ∈ c.operations.filter (fun o => decide (o.id ≠ op.id)), False := by
    intro o ho
    simp only [List.mem_filter, decide_eq_true_eq] at ho
    exact ho.2 (Option.some.inj ((h.pending o ho.1).symm.trans (h.pending op hop)))
  exact { h with
    pending := fun o ho => (hnone o ho).elim
    oneOperation := (List.length_filter_le _ _).trans h.oneOperation
    version := fun o ho => (hnone o ho).elim
    current := fun o ho => (hnone o ho).elim }

theorem fired (h : c.Sound) (id : ℕ) : ({ c with armed := c.armed.filter fun t => t.id ≠ id } : Coordinator).Sound :=
  { h with
    timer := fun t ht => h.timer t (List.mem_of_mem_filter ht)
    oneTimer := (List.length_filter_le _ _).trans h.oneTimer
    unarmed := fun hs => by simp [h.unarmed hs] }

end Sound

theorem operationAt_eq_some {α : Type} {f : Stage → Option α} {id : ℕ} {a : α} (h : c.operationAt id f = some (op, a)) :
    op ∈ c.operations ∧ op.id = id ∧ f op.stage = some a := by
  obtain ⟨o, ho, hmap⟩ := Option.bind_eq_some_iff.1 h
  obtain ⟨b, hb, heq⟩ := Option.map_eq_some_iff.1 hmap
  obtain ⟨rfl, rfl⟩ := Prod.mk.inj heq
  have hid := List.find?_some ho
  exact ⟨List.mem_of_find?_eq_some ho, of_decide_eq_true hid, hb⟩

/-- **Step lemma.** -/
theorem Sound.step (h : c.Sound) (a : Action) : (c.step a).Sound := by
  cases a with
  | call x => exact h.call x
  | settle id s =>
    simp only [Coordinator.step]
    split
    · exact h.setStage _ _
    · exact h
  | proceed id =>
    simp only [Coordinator.step]
    split
    · next op s hat => exact (h.handle (operationAt_eq_some hat).1 s).setStage _ _
    · exact h
  | clear id =>
    simp only [Coordinator.step]
    split
    · next p hat =>
      obtain ⟨hop, hid, -⟩ := operationAt_eq_some hat
      exact h.clear id ⟨_, hop, hid⟩
    · exact h
  | fire id active =>
    simp only [Coordinator.step]
    split
    · split
      · exact h.fired id
      · exact (h.fired id).refresh
    · exact h

/-- **The renewal coordinator.** However calls, settlements, continuations and timers follow each other: one request
and one timer at most, nothing is acted on after an interruption, and nothing starts between `invalidate` and
`resume`. -/
theorem run_guarded (as : List Action) : (run Coordinator.step {} as).Guarded :=
  (run_invariant Coordinator.Sound (fun _ a h => h.step a) as sound_initial).guarded

/-- A logout while the answer of a refresh is on its way: the answer is not applied. -/
example : (run Coordinator.step {} [.call .refresh, .call .invalidate, .settle 0 (.answered { expiresAt := 900, now := 0 }),
    .proceed 0, .clear 0, .call .refresh]).log = [.started 0, .invalidated] := by decide +kernel

end
end Coordinator
end LcsSystem.Renewal
