import LcsSystem.Backup.Scheduler

/-!
# One backup run at a time

`_active_run_id` and `_run_lock` belong to one process and the advisory lock is taken by the ticks alone, so nothing keeps
the runs that two replicas start on request apart. Where every run passes its check while no other replica is busy, where
a tick that has taken the lock is still due, and where `lastRunAt` only grows, one run executes at a time and the
scheduled runs keep their distance.
-/

namespace LcsSystem.Backup
open Relational Transition

namespace Stage

/-- Behind the lock and not begun. -/
def isWaiting : Stage → Bool
  | .check | .create | .stamp _ | .queued => true
  | _ => false

/-- Begun, and the time of its end is not written. -/
def isUnsaved : Stage → Bool
  | .executing | .finish _ => true
  | _ => false

theorem isEngaged_of_isRunning {stage : Stage} (h : stage.isRunning = true) : stage.isEngaged = true := by
  cases stage <;> simp [isRunning, isEngaged] at h ⊢

theorem isInside_of_isWaiting {stage : Stage} (h : stage.isWaiting = true) : stage.isInside = true := by
  cases stage <;> simp [isWaiting, isInside, isEngaged] at h ⊢

theorem isInside_of_isUnsaved {stage : Stage} (h : stage.isUnsaved = true) : stage.isInside = true := by
  cases stage <;> simp [isUnsaved, isInside, isEngaged] at h ⊢

end Stage

/-! ## The table of the tasks -/

def placed (tasks : Table Task) (id : ℕ) (stage : Stage) : Table Task := tasks.modify id fun t => { t with stage := stage }

def without (tasks : Table Task) (id : ℕ) : Table Task := tasks.erase fun i _ => i == id

section
variable {tasks : Table Task} {id i : ℕ} {t a : Task} {stage : Stage}

/-- A task after one of them has moved on is that one or an old one. -/
theorem of_get?_placed (ht : tasks.get? id = some t) (h : (placed tasks id stage).get? i = some a) :
    (i = id ∧ a = { t with stage := stage }) ∨ (i ≠ id ∧ tasks.get? i = some a) := by
  rw [placed, Table.get?_modify] at h
  split at h
  · next hi =>
    rw [hi, ht, Option.map_some, Option.some.injEq] at h
    exact .inl ⟨hi, h.symm⟩
  · next hi => exact .inr ⟨hi, h⟩

theorem get?_placed_self (ht : tasks.get? id = some t) : (placed tasks id stage).get? id = some { t with stage := stage } := by
  rw [placed, Table.get?_modify_self, ht, Option.map_some]

theorem get?_placed_of_ne (hi : i ≠ id) : (placed tasks id stage).get? i = tasks.get? i := Table.get?_modify_of_ne _ hi

theorem get?_without : (without tasks id).get? i = some a ↔ i ≠ id ∧ tasks.get? i = some a := by
  rw [without, Table.get?_erase, Option.filter_eq_some_iff]
  by_cases hi : i = id
  · simp [hi]
  · simp [hi]

end

/-! ## The lock belongs to one tick -/

/-- Every replica has at most one tick, and one that is behind the lock holds it. -/
structure Guarded (tasks : Table Task) (held : Option Held) : Prop where
  one_tick : ∀ {i a j b}, tasks.get? i = some a → tasks.get? j = some b → a.trigger = .scheduled → b.trigger = .scheduled →
    a.replica = b.replica → i = j
  owned : ∀ {i a}, tasks.get? i = some a → a.trigger = .scheduled → a.stage.isInside = true →
    ∃ h, held = some h ∧ h.replica = a.replica

namespace Guarded
variable {tasks : Table Task} {held : Option Held} {id : ℕ} {t : Task}

/-- At most one tick is behind the lock. -/
theorem inside_unique (h : Guarded tasks held) {i j : ℕ} {a b : Task} (ha : tasks.get? i = some a) (hb : tasks.get? j = some b)
    (hta : a.trigger = .scheduled) (htb : b.trigger = .scheduled) (hia : a.stage.isInside = true)
    (hib : b.stage.isInside = true) : i = j := by
  obtain ⟨g, hg, hga⟩ := h.owned ha hta hia
  obtain ⟨g', hg', hgb⟩ := h.owned hb htb hib
  have hsame : g = g' := Option.some.inj (hg.symm.trans hg')
  subst hsame
  exact h.one_tick ha hb hta htb (hga.symm.trans hgb)

theorem placed (h : Guarded tasks held) (ht : tasks.get? id = some t) {stage : Stage}
    (hnew : t.trigger = .scheduled → stage.isInside = true → ∃ g, held = some g ∧ g.replica = t.replica) :
    Guarded (placed tasks id stage) held where
  one_tick := by
    intro i a j b ha hb hta htb hrep
    rcases of_get?_placed ht ha with ⟨hi, rfl⟩ | ⟨_, ha'⟩ <;> rcases of_get?_placed ht hb with ⟨hj, rfl⟩ | ⟨_, hb'⟩
    · exact hi.trans hj.symm
    · exact hi.trans (h.one_tick ht hb' hta htb hrep)
    · exact (h.one_tick ha' ht hta htb hrep).trans hj.symm
    · exact h.one_tick ha' hb' hta htb hrep
  owned := by
    intro i a ha hta hia
    rcases of_get?_placed ht ha with ⟨rfl, rfl⟩ | ⟨_, ha⟩
    · exact hnew hta hia
    · exact h.owned ha hta hia

theorem without (h : Guarded tasks held) : Guarded (without tasks id) held where
  one_tick ha hb := h.one_tick (get?_without.1 ha).2 (get?_without.1 hb).2
  owned ha := h.owned (get?_without.1 ha).2

/-- Who takes the lock takes it from nobody. -/
theorem tryLock (h : Guarded tasks held) {replica connection : ℕ} {g : Held}
    (hg : tryLock held replica connection = some g) : g.replica = replica ∧ Guarded tasks (some g) := by
  cases hheld : held with
  | none =>
    rw [hheld, Backup.tryLock, Option.some.injEq] at hg
    refine ⟨by rw [← hg], h.one_tick, fun ha hta hia => ?_⟩
    obtain ⟨g', hg', _⟩ := h.owned ha hta hia
    rw [hheld] at hg'
    cases hg'
  | some g₀ =>
    simp only [hheld, Backup.tryLock, Option.ite_none_right_eq_some, Option.some.injEq] at hg
    obtain ⟨⟨hrep, _⟩, rfl⟩ := hg
    refine ⟨hrep, h.one_tick, fun ha hta hia => ?_⟩
    obtain ⟨g', hg', hrep'⟩ := h.owned ha hta hia
    rw [hheld, Option.some.injEq] at hg'
    exact ⟨_, rfl, by rw [← hrep', ← hg']⟩

/-- The tick that gives the lock back was the only one behind it. -/
theorem unlock (h : Guarded tasks held) (ht : tasks.get? id = some t) (htrigger : t.trigger = .scheduled)
    (hinside : t.stage.isInside = true) (held' : Option Held) : Guarded (Backup.without tasks id) held' where
  one_tick := h.without.one_tick
  owned := by
    intro i a ha hta hia
    obtain ⟨hi, ha⟩ := get?_without.1 ha
    exact absurd (h.inside_unique ha ht hta htrigger hia hinside) hi

theorem insert (h : Guarded tasks held) {new : Task}
    (hnew : new.trigger = .scheduled → new.stage.isInside = false ∧
      ∀ i a, tasks.get? i = some a → a.replica = new.replica → a.trigger ≠ .scheduled) :
    Guarded (tasks.insert new) held where
  one_tick := by
    intro i a j b ha hb hta htb hrep
    rw [Table.get?_insert] at ha hb
    split at ha <;> split at hb
    · next hi hj => rw [hi, hj]
    · cases ha
      exact absurd htb ((hnew hta).2 j b hb hrep.symm)
    · cases hb
      exact absurd hta ((hnew htb).2 i a ha hrep)
    · exact h.one_tick ha hb hta htb hrep
  owned := by
    intro i a ha hta hia
    rw [Table.get?_insert] at ha
    split at ha
    · cases ha
      rw [(hnew hta).1] at hia
      cases hia
    · exact h.owned ha hta hia

end Guarded

/-! ## The runs of one replica at a time -/

structure Exclusive (tasks : Table Task) : Prop where
  /-- Whoever is behind the check is of one replica. -/
  together : ∀ {i a j b}, tasks.get? i = some a → tasks.get? j = some b → a.stage.isEngaged = true →
    b.stage.isEngaged = true → a.replica = b.replica
  /-- `_run_lock`. -/
  run_lock : ∀ {i a j b}, tasks.get? i = some a → tasks.get? j = some b → a.stage.isRunning = true →
    b.stage.isRunning = true → a.replica = b.replica → i = j

namespace Exclusive
variable {tasks : Table Task} {id : ℕ} {t : Task}

theorem placed (h : Exclusive tasks) (ht : tasks.get? id = some t) {stage : Stage}
    (hengaged : stage.isEngaged = true →
      t.stage.isEngaged = true ∨ ∀ i a, tasks.get? i = some a → a.stage.isEngaged = true → a.replica = t.replica)
    (hrunning : stage.isRunning = true →
      t.stage.isRunning = true ∨ ∀ i a, tasks.get? i = some a → a.stage.isRunning = true → a.replica ≠ t.replica) :
    Exclusive (placed tasks id stage) where
  together := by
    have hother : ∀ j b, tasks.get? j = some b → b.stage.isEngaged = true → stage.isEngaged = true → b.replica = t.replica := by
      intro j b hb hib hstage
      rcases hengaged hstage with hold | hnew
      · exact h.together hb ht hib hold
      · exact hnew j b hb hib
    intro i a j b ha hb hia hib
    rcases of_get?_placed ht ha with ⟨_, rfl⟩ | ⟨_, ha'⟩ <;> rcases of_get?_placed ht hb with ⟨_, rfl⟩ | ⟨_, hb'⟩
    · rfl
    · exact (hother j b hb' hib hia).symm
    · exact hother i a ha' hia hib
    · exact h.together ha' hb' hia hib
  run_lock := by
    have hother : ∀ j b, tasks.get? j = some b → b.stage.isRunning = true → stage.isRunning = true →
        b.replica = t.replica → j = id := by
      intro j b hb hib hstage hrep
      rcases hrunning hstage with hold | hnew
      · exact h.run_lock hb ht hib hold hrep
      · exact absurd hrep (hnew j b hb hib)
    intro i a j b ha hb hia hib hrep
    rcases of_get?_placed ht ha with ⟨hi, rfl⟩ | ⟨_, ha'⟩ <;> rcases of_get?_placed ht hb with ⟨hj, rfl⟩ | ⟨_, hb'⟩
    · exact hi.trans hj.symm
    · exact hi.trans (hother j b hb' hib hia hrep.symm).symm
    · exact (hother i a ha' hia hib hrep).trans hj.symm
    · exact h.run_lock ha' hb' hia hib hrep

theorem without (h : Exclusive tasks) : Exclusive (without tasks id) where
  together ha hb := h.together (get?_without.1 ha).2 (get?_without.1 hb).2
  run_lock ha hb := h.run_lock (get?_without.1 ha).2 (get?_without.1 hb).2

theorem insert (h : Exclusive tasks) {new : Task} (hnew : new.stage.isEngaged = false) : Exclusive (tasks.insert new) := by
  have hold : ∀ {i a}, (tasks.insert new).get? i = some a → a.stage.isEngaged = true → tasks.get? i = some a := by
    intro i a ha hia
    rw [Table.get?_insert] at ha
    split at ha
    · cases ha
      rw [hnew] at hia
      cases hia
    · exact ha
  exact ⟨fun ha hb hia hib => h.together (hold ha hia) (hold hb hib) hia hib,
    fun ha hb hia hib => h.run_lock (hold ha (Stage.isEngaged_of_isRunning hia)) (hold hb (Stage.isEngaged_of_isRunning hib))
      hia hib⟩

end Exclusive

/-! ## The times of the scheduled runs -/

/-- What the scheduled runs that have begun leave behind. -/
structure Timed (hours : ℕ) (tasks : Table Task) (lastRunAt : Option ℕ) (clock : ℕ) (begun : List ℕ) : Prop where
  spaced : begun.Pairwise fun a b => a + interval hours ≤ b
  past : ∀ x ∈ begun, x ≤ clock
  /-- A beginning is followed by its status write. -/
  stored : ∀ x ∈ begun, (∃ i a, tasks.get? i = some a ∧ a.trigger = .scheduled ∧ a.stage.isUnsaved = true) ∨
    ∃ last, lastRunAt = some last ∧ x ≤ last
  waiting : ∀ {i a}, tasks.get? i = some a → a.trigger = .scheduled → a.stage.isWaiting = true →
    ∀ x ∈ begun, x + interval hours ≤ clock
  finishing : ∀ {i a time}, tasks.get? i = some a → a.trigger = .scheduled → a.stage = .finish time → ∀ x ∈ begun, x ≤ time

namespace Timed
variable {hours : ℕ} {tasks : Table Task} {lastRunAt : Option ℕ} {clock : ℕ} {begun : List ℕ} {id : ℕ} {t : Task}

theorem placed (h : Timed hours tasks lastRunAt clock begun) (ht : tasks.get? id = some t) {stage : Stage}
    (hunsaved : t.trigger = .scheduled → t.stage.isUnsaved = true → stage.isUnsaved = true)
    (hwaiting : t.trigger = .scheduled → stage.isWaiting = true →
      t.stage.isWaiting = true ∨ ∀ x ∈ begun, x + interval hours ≤ clock)
    (hfinish : ∀ time, t.trigger = .scheduled → stage = .finish time → ∀ x ∈ begun, x ≤ time) :
    Timed hours (placed tasks id stage) lastRunAt clock begun where
  spaced := h.spaced
  past := h.past
  stored := by
    intro x hx
    rcases h.stored x hx with ⟨i, a, ha, hta, hia⟩ | hlast
    · by_cases hi : i = id
      · subst hi
        have hat : a = t := Option.some.inj (ha.symm.trans ht)
        subst hat
        exact .inl ⟨i, _, get?_placed_self ht, hta, hunsaved hta hia⟩
      · exact .inl ⟨i, a, (get?_placed_of_ne hi).trans ha, hta, hia⟩
    · exact .inr hlast
  waiting := by
    intro i a ha hta hia
    rcases of_get?_placed ht ha with ⟨rfl, rfl⟩ | ⟨_, ha⟩
    · rcases hwaiting hta hia with hold | hnew
      · exact h.waiting ht hta hold
      · exact hnew
    · exact h.waiting ha hta hia
  finishing := by
    intro i a time ha hta hia
    rcases of_get?_placed ht ha with ⟨rfl, rfl⟩ | ⟨_, ha⟩
    · exact hfinish time hta hia
    · exact h.finishing ha hta hia

theorem without (h : Timed hours tasks lastRunAt clock begun) (ht : tasks.get? id = some t)
    (hunsaved : t.trigger = .scheduled → t.stage.isUnsaved = false) : Timed hours (without tasks id) lastRunAt clock begun where
  spaced := h.spaced
  past := h.past
  stored := by
    intro x hx
    rcases h.stored x hx with ⟨i, a, ha, hta, hia⟩ | hlast
    · refine .inl ⟨i, a, get?_without.2 ⟨fun hi => ?_, ha⟩, hta, hia⟩
      have hat : a = t := Option.some.inj (ha.symm.trans (hi ▸ ht))
      rw [hat, hunsaved (hat ▸ hta)] at hia
      cases hia
    · exact .inr hlast
  waiting ha := h.waiting (get?_without.1 ha).2
  finishing ha := h.finishing (get?_without.1 ha).2

theorem insert (h : Timed hours tasks lastRunAt clock begun) {new : Task} (hnew : new.trigger = .scheduled → new.stage = .read) :
    Timed hours (tasks.insert new) lastRunAt clock begun where
  spaced := h.spaced
  past := h.past
  stored := by
    intro x hx
    rcases h.stored x hx with ⟨i, a, ha, hta, hia⟩ | hlast
    · exact .inl ⟨i, a, Table.get?_insert_of_some ha, hta, hia⟩
    · exact .inr hlast
  waiting := by
    intro i a ha hta hia
    rw [Table.get?_insert] at ha
    split at ha
    · cases ha
      rw [hnew hta] at hia
      cases hia
    · exact h.waiting ha hta hia
  finishing := by
    intro i a time ha hta hia
    rw [Table.get?_insert] at ha
    split at ha
    · cases ha
      rw [hnew hta] at hia
      cases hia
    · exact h.finishing ha hta hia

theorem pass (h : Timed hours tasks lastRunAt clock begun) (duration : ℕ) :
    Timed hours tasks lastRunAt (clock + duration) begun :=
  { h with
    past := fun x hx => (h.past x hx).trans (Nat.le_add_right _ _)
    waiting := fun ha hta hia x hx => (h.waiting ha hta hia x hx).trans (Nat.le_add_right _ _) }

theorem forward (h : Timed hours tasks lastRunAt clock begun) {time : ℕ} (htime : ∀ last, lastRunAt = some last → last ≤ time) :
    Timed hours tasks (some time) clock begun :=
  { h with
    stored := by
      intro x hx
      rcases h.stored x hx with hopen | ⟨last, hlast, hle⟩
      · exact .inl hopen
      · exact .inr ⟨time, rfl, hle.trans (htime last hlast)⟩ }

end Timed

/-! ## The invariant -/

structure Ordered (hours : ℕ) (s : Replicas) : Prop where
  guarded : Guarded s.tasks s.held
  exclusive : Exclusive s.tasks
  timed : Timed hours s.tasks s.lastRunAt s.clock s.scheduledStarts
  /-- Only ticks give the lock back. -/
  ticks : ∀ {i a}, s.tasks.get? i = some a → a.stage = .unlock → a.trigger = .scheduled

namespace Replicas

theorem active_eq_false {s : Replicas} {replica : ℕ} :
    s.active replica = false ↔ ∀ i a, s.tasks.get? i = some a → a.stage.isRunning = true → a.replica ≠ replica := by
  simp only [active, List.any_eq_false, Bool.and_eq_true, beq_iff_eq, not_and, Bool.not_eq_true, Table.mem_values]
  constructor
  · intro h i a ha hrunning hrep
    rw [h a ⟨i, ha⟩ hrep] at hrunning
    cases hrunning
  · rintro h a ⟨i, ha⟩ hrep
    by_contra hrunning
    exact h i a ha (by simpa using hrunning) hrep

theorem ticking_eq_false {s : Replicas} {replica : ℕ} :
    s.ticking replica = false ↔ ∀ i a, s.tasks.get? i = some a → a.replica = replica → a.trigger ≠ .scheduled := by
  simp only [ticking, List.any_eq_false, Bool.and_eq_true, beq_iff_eq, not_and, Table.mem_values]
  constructor
  · exact fun h i a ha => h a ⟨i, ha⟩
  · rintro h a ⟨i, ha⟩
    exact h i a ha

theorem of_alone {s : Replicas} {replica : ℕ} (h : s.alone replica = true) :
    ∀ i a, s.tasks.get? i = some a → a.stage.isEngaged = true → a.replica = replica := by
  intro i a ha hengaged
  have := List.all_eq_true.1 h a (Table.mem_values.2 ⟨i, ha⟩)
  simpa [hengaged] using this

theorem of_forward {s : Replicas} {time : ℕ} (h : s.forward time = true) : ∀ last, s.lastRunAt = some last → last ≤ time := by
  intro last hlast
  simpa [forward, hlast] using h

theorem ordered_initial (hours : ℕ) : Ordered hours {} := by
  refine ⟨⟨?_, ?_⟩, ⟨?_, ?_⟩, ⟨List.Pairwise.nil, ?_, ?_, ?_, ?_⟩, ?_⟩ <;> simp [Table.get?, Table.empty, Table.find, scheduledStarts]

end Replicas

namespace Ordered
open Replicas
variable {hours : ℕ} {s : Replicas} {id : ℕ} {t : Task}

theorem ticks_placed (h : Ordered hours s) (ht : s.tasks.get? id = some t) {stage : Stage}
    (hunlock : stage = .unlock → t.trigger = .scheduled) {i : ℕ} {a : Task} (ha : (placed s.tasks id stage).get? i = some a)
    (hstage : a.stage = .unlock) : a.trigger = .scheduled := by
  rcases of_get?_placed ht ha with ⟨_, rfl⟩ | ⟨_, ha'⟩
  · exact hunlock hstage
  · exact h.ticks ha' hstage

/-- A step of a task that neither begins nor ends a run and touches no other table. -/
theorem goTo (h : Ordered hours s) (ht : s.tasks.get? id = some t) {stage : Stage}
    (hinside : stage.isInside = true → t.stage.isInside = true)
    (hengaged : stage.isEngaged = true →
      t.stage.isEngaged = true ∨ ∀ i a, s.tasks.get? i = some a → a.stage.isEngaged = true → a.replica = t.replica)
    (hrunning : stage.isRunning = true → t.stage.isRunning = true)
    (hunsaved : t.stage.isUnsaved = true → stage.isUnsaved = true)
    (hwaiting : stage.isWaiting = true → t.stage.isWaiting = true)
    (hfinish : ∀ time, stage = .finish time → ∀ x ∈ s.scheduledStarts, x ≤ time)
    (hunlock : stage = .unlock → t.trigger = .scheduled) : Ordered hours (s.goTo id stage) where
  guarded := h.guarded.placed ht fun htrigger hin => h.guarded.owned ht htrigger (hinside hin)
  exclusive := h.exclusive.placed ht hengaged fun hrun => .inl (hrunning hrun)
  timed := h.timed.placed ht (fun _ => hunsaved) (fun _ hwait => .inl (hwaiting hwait)) fun time _ => hfinish time
  ticks := h.ticks_placed ht hunlock

theorem drop (h : Ordered hours s) (ht : s.tasks.get? id = some t) (hunsaved : t.stage.isUnsaved = false) :
    Ordered hours (s.drop id) where
  guarded := h.guarded.without
  exclusive := h.exclusive.without
  timed := h.timed.without ht fun _ => hunsaved
  ticks ha := h.ticks (get?_without.1 ha).2

theorem back (h : Ordered hours s) (ht : s.tasks.get? id = some t) (hinside : t.stage.isInside = true)
    (hunsaved : t.stage.isUnsaved = false) : Ordered hours (s.back id t.trigger) := by
  cases htrigger : t.trigger with
  | scheduled =>
    refine h.goTo ht (fun _ => hinside) ?_ ?_ ?_ ?_ ?_ (fun _ => htrigger) <;>
      simp [Stage.isEngaged, Stage.isRunning, Stage.isWaiting, hunsaved]
  | manual => exact h.drop ht hunsaved

/-- A tick that takes the lock finds every scheduled run so far written, and is due after all of them. -/
theorem lock (h : Ordered hours s) (ht : s.tasks.get? id = some t) (hstage : t.stage = .lock) {connection : ℕ} {g : Held}
    (hg : tryLock s.held t.replica connection = some g) (hdue : isDue hours s.lastRunAt s.clock = true) :
    Ordered hours { s.goTo id .check with held := some g } := by
  obtain ⟨hrep, hguarded⟩ := h.guarded.tryLock hg
  refine ⟨hguarded.placed ht fun _ _ => ⟨g, rfl, hrep⟩, h.exclusive.placed ht ?_ ?_, h.timed.placed ht ?_ ?_ ?_,
    h.ticks_placed ht (by simp)⟩
  · simp [Stage.isEngaged]
  · simp [Stage.isRunning]
  · simp [hstage, Stage.isUnsaved]
  · refine fun htrigger _ => .inr fun x hx => ?_
    rcases h.timed.stored x hx with ⟨i, a, ha, hta, hia⟩ | ⟨last, hlast, hle⟩
    · -- a run that has not written its end is behind the lock, so it is this tick
      obtain ⟨g', hg', hrep'⟩ := hguarded.owned ha hta (Stage.isInside_of_isUnsaved hia)
      have hsame : a.replica = t.replica := by rw [← hrep', ← Option.some.inj hg', hrep]
      have hi : i = id := h.guarded.one_tick ha ht hta htrigger hsame
      have hat : a = t := Option.some.inj (ha.symm.trans (hi ▸ ht))
      rw [hat, hstage] at hia
      cases hia
    · have hlate : last + interval hours ≤ s.clock := by simpa [isDue, hlast] using hdue
      omega
  · simp

/-- A run begins while no other of its replica runs, a scheduled one the interval after the last. -/
theorem begin (h : Ordered hours s) (ht : s.tasks.get? id = some t) (hstage : t.stage = .queued)
    (hactive : s.active t.replica = false) :
    Ordered hours { s.goTo id .executing with starts := s.starts ++ [⟨t.trigger, s.clock⟩] } := by
  refine ⟨h.guarded.placed ht fun htrigger _ => h.guarded.owned ht htrigger ?_, h.exclusive.placed ht ?_ ?_, ?_,
    h.ticks_placed ht (by simp)⟩
  · simp [hstage, Stage.isInside, Stage.isEngaged]
  · simp [hstage, Stage.isEngaged]
  · exact fun _ => .inr (active_eq_false.1 hactive)
  · cases htrigger : t.trigger with
    | manual =>
      have hstarts : ({ s.goTo id .executing with starts := s.starts ++ [⟨.manual, s.clock⟩] } : Replicas).scheduledStarts =
          s.scheduledStarts := by simp [scheduledStarts]
      rw [hstarts]
      refine h.timed.placed ht ?_ ?_ ?_ <;> simp [htrigger]
    | scheduled =>
      have hstarts : ({ s.goTo id .executing with starts := s.starts ++ [⟨.scheduled, s.clock⟩] } : Replicas).scheduledStarts =
          s.scheduledStarts ++ [s.clock] := by simp [scheduledStarts]
      have hwait := h.timed.waiting ht htrigger (by simp [hstage, Stage.isWaiting])
      have hself : (placed s.tasks id .executing).get? id = some { t with stage := .executing } := get?_placed_self ht
      have halone : ∀ {i a}, (placed s.tasks id .executing).get? i = some a → a.trigger = .scheduled →
          a.stage.isInside = true → a.stage = .executing := by
        intro i a ha hta hia
        rcases of_get?_placed ht ha with ⟨rfl, rfl⟩ | ⟨hi, ha⟩
        · rfl
        · exact absurd (h.guarded.inside_unique ha ht hta htrigger hia (by simp [hstage, Stage.isInside, Stage.isEngaged])) hi
      rw [hstarts]
      refine ⟨?_, ?_, ?_, ?_, ?_⟩
      · refine List.pairwise_append.2 ⟨h.timed.spaced, List.pairwise_singleton _ _, fun x hx y hy => ?_⟩
        rw [List.mem_singleton.1 hy]
        exact hwait x hx
      · intro x hx
        rcases List.mem_append.1 hx with hx | hx
        · exact h.timed.past x hx
        · exact (List.mem_singleton.1 hx).le
      · exact fun x _ => .inl ⟨id, _, hself, htrigger, rfl⟩
      · intro i a ha hta hia
        rw [halone ha hta (Stage.isInside_of_isWaiting hia)] at hia
        cases hia
      · intro i a time ha hta hia
        have hexecuting := halone ha hta (by simp [hia, Stage.isInside, Stage.isEngaged])
        rw [hexecuting] at hia
        cases hia

/-- The status write of the end covers the run that ends. -/
theorem finish (h : Ordered hours s) (ht : s.tasks.get? id = some t) {time : ℕ} (hstage : t.stage = .finish time)
    (hforward : s.forward time = true) : Ordered hours { s.goTo id .leave with lastRunAt := some time } := by
  refine ⟨h.guarded.placed ht fun htrigger _ => h.guarded.owned ht htrigger ?_, h.exclusive.placed ht ?_ ?_, ?_,
    h.ticks_placed ht (by simp)⟩
  · simp [hstage, Stage.isInside, Stage.isEngaged]
  · simp [hstage, Stage.isEngaged]
  · simp [hstage, Stage.isRunning]
  · have htimed := h.timed.forward (of_forward hforward)
    cases htrigger : t.trigger with
    | manual => refine htimed.placed ht ?_ ?_ ?_ <;> simp [htrigger]
    | scheduled =>
      have hall : ∀ x ∈ s.scheduledStarts, x ≤ time := h.timed.finishing ht htrigger hstage
      refine ⟨h.timed.spaced, h.timed.past, fun x hx => .inr ⟨time, rfl, hall x hx⟩, ?_, ?_⟩
      · intro i a ha hta hia
        rcases of_get?_placed ht ha with ⟨rfl, rfl⟩ | ⟨_, ha⟩
        · cases hia
        · exact h.timed.waiting ha hta hia
      · intro i a time' ha hta hia
        rcases of_get?_placed ht ha with ⟨rfl, rfl⟩ | ⟨_, ha⟩
        · cases hia
        · exact h.timed.finishing ha hta hia

theorem advance (h : Ordered hours s) (ht : s.tasks.get? id = some t) (connection : ℕ)
    (horder : s.inOrder hours t = true) : Ordered hours (s.advance hours id connection t) := by
  cases hstage : t.stage with
  | read =>
    simp only [Replicas.advance, hstage]
    refine h.goTo ht ?_ ?_ ?_ ?_ ?_ ?_ ?_ <;>
      simp [hstage, Stage.isInside, Stage.isEngaged, Stage.isRunning, Stage.isWaiting, Stage.isUnsaved]
  | decide last =>
    simp only [Replicas.advance, hstage]
    split
    · refine h.goTo ht ?_ ?_ ?_ ?_ ?_ ?_ ?_ <;>
        simp [hstage, Stage.isInside, Stage.isEngaged, Stage.isRunning, Stage.isWaiting, Stage.isUnsaved]
    · exact h.drop ht (by simp [hstage, Stage.isUnsaved])
  | lock =>
    simp only [Replicas.advance, hstage]
    split
    · next g hg => exact h.lock ht hstage hg (by simpa [inOrder, hstage] using horder)
    · exact h.drop ht (by simp [hstage, Stage.isUnsaved])
  | check =>
    simp only [Replicas.advance, hstage]
    split
    · exact h.back ht (by simp [hstage, Stage.isInside]) (by simp [hstage, Stage.isUnsaved])
    · have halone : ∀ i a, s.tasks.get? i = some a → a.stage.isEngaged = true → a.replica = t.replica :=
        of_alone (by simpa [inOrder, hstage] using horder)
      refine h.goTo ht ?_ (fun _ => .inr halone) ?_ ?_ ?_ ?_ ?_ <;>
        simp [hstage, Stage.isInside, Stage.isRunning, Stage.isWaiting, Stage.isUnsaved]
  | create =>
    simp only [Replicas.advance, hstage]
    refine h.goTo ht ?_ ?_ ?_ ?_ ?_ ?_ ?_ <;>
      simp [hstage, Stage.isInside, Stage.isEngaged, Stage.isRunning, Stage.isWaiting, Stage.isUnsaved]
  | stamp time =>
    simp only [Replicas.advance, hstage]
    have hmoved : Ordered hours (s.goTo id .queued) := by
      refine h.goTo ht ?_ ?_ ?_ ?_ ?_ ?_ ?_ <;>
        simp [hstage, Stage.isInside, Stage.isEngaged, Stage.isRunning, Stage.isWaiting, Stage.isUnsaved]
    have hforward : s.forward time = true := by simpa [inOrder, hstage] using horder
    exact { hmoved with timed := hmoved.timed.forward (of_forward hforward) }
  | queued =>
    simp only [Replicas.advance, hstage]
    split
    · exact h
    · next hactive => exact h.begin ht hstage (by simpa using hactive)
  | executing =>
    simp only [Replicas.advance, hstage]
    refine h.goTo ht ?_ ?_ ?_ ?_ ?_ ?_ ?_ <;>
      simp [hstage, Stage.isInside, Stage.isEngaged, Stage.isRunning, Stage.isWaiting, Stage.isUnsaved]
    exact h.timed.past
  | finish time =>
    simp only [Replicas.advance, hstage]
    exact h.finish ht hstage (by simpa [inOrder, hstage] using horder)
  | leave =>
    simp only [Replicas.advance, hstage]
    exact h.back ht (by simp [hstage, Stage.isInside, Stage.isEngaged]) (by simp [hstage, Stage.isUnsaved])
  | unlock =>
    simp only [Replicas.advance, hstage]
    have hdropped : Ordered hours (s.drop id) := h.drop ht (by simp [hstage, Stage.isUnsaved])
    exact { hdropped with
      guarded := h.guarded.unlock ht (h.ticks ht hstage) (by simp [hstage, Stage.isInside]) _ }

theorem close (h : Ordered hours s) {replica connection : ℕ} (hopen : s.keepsOpen replica connection = true) :
    Ordered hours { s with held := closed s.held replica connection } := by
  refine { h with guarded := ⟨h.guarded.one_tick, fun ha hta hia => ?_⟩ }
  obtain ⟨g, hg, hrep⟩ := h.guarded.owned ha hta hia
  refine ⟨g, ?_, hrep⟩
  have hother : (g.replica == replica && g.connection == connection) = false := by
    rw [keepsOpen, hg, Option.all_some, Bool.or_eq_true, Bool.not_eq_true'] at hopen
    rcases hopen with hother | hnone
    · exact hother
    · have hnot := List.all_eq_true.1 hnone _ (Table.mem_values.2 ⟨_, ha⟩)
      by_contra hsame
      simp only [Bool.not_eq_false, Bool.and_eq_true, beq_iff_eq] at hsame
      simp [hta, hia, ← hrep, hsame.1] at hnot
  rw [closed, hg, Option.filter_some, if_pos (by rw [hother]; rfl)]

/-- **Step lemma.** -/
theorem step (h : Ordered hours s) (a : Move) (horder : s.InOrder hours a) : Ordered hours (s.step hours a) := by
  cases a with
  | tick replica =>
    simp only [Replicas.step]
    split
    · exact h
    · next hidle =>
      simp only [not_or, Bool.not_eq_true] at hidle
      exact ⟨h.guarded.insert fun _ => ⟨rfl, ticking_eq_false.1 hidle.2⟩, h.exclusive.insert rfl, h.timed.insert fun _ => rfl,
        fun ha => Table.forall_insert (P := fun _ a => a.stage = .unlock → a.trigger = .scheduled) (fun _ _ => h.ticks)
          (fun _ => rfl) _ _ ha⟩
  | request replica =>
    exact ⟨h.guarded.insert (by simp), h.exclusive.insert rfl, h.timed.insert (by simp),
      fun ha => Table.forall_insert (P := fun _ a => a.stage = .unlock → a.trigger = .scheduled) (fun _ _ => h.ticks)
        (by simp) _ _ ha⟩
  | advance id connection =>
    simp only [Replicas.step]
    split
    · next t ht =>
      rw [InOrder, ht, Option.all_some] at horder
      exact h.advance ht connection horder
    · exact h
  | close replica connection => exact h.close horder
  | pass duration => exact { h with timed := h.timed.pass duration }

theorem atMostOne (h : Ordered hours s) : s.AtMostOne := by
  intro i a j b ha hb hia hib
  exact h.exclusive.run_lock ha hb hia hib
    (h.exclusive.together ha hb (Stage.isEngaged_of_isRunning hia) (Stage.isEngaged_of_isRunning hib))

end Ordered

namespace Replicas

/-- **One run at a time**, and the scheduled ones the interval apart, in every run whose steps are in order. -/
theorem backup_runs_exclusive {hours : ℕ} {as : List Move} (hmeets : Meets (step hours) (InOrder hours) {} as) :
    (run (step hours) {} as).AtMostOne ∧ (run (step hours) {} as).Spaced hours := by
  have hordered : Ordered hours (run (step hours) {} as) :=
    run_invariant_of_meets (Ordered hours) (fun _ a h horder => h.step a horder) (ordered_initial hours) hmeets
  exact ⟨hordered.atMostOne, hordered.timed.spaced⟩

/-! ## Two replicas -/

/-- A scheduled run on replica 0, then one on request on replica 1. -/
def scheduledThenManual : List Move :=
  [.tick 0, .advance 1 5, .advance 1 5, .advance 1 5, .advance 1 5, .advance 1 5, .advance 1 5, .advance 1 5, .pass 60,
    .advance 1 5, .advance 1 5, .advance 1 5, .advance 1 5, .request 1, .advance 2 7, .advance 2 7, .advance 2 7, .advance 2 7]

theorem backup_runs_exclusive_apart :
    (run (step 24) {} scheduledThenManual).AtMostOne ∧ (run (step 24) {} scheduledThenManual).Spaced 24 :=
  backup_runs_exclusive (by decide +kernel)

/-- Requests on two replicas: neither sees the other, and both runs execute. -/
theorem two_requests_overlap :
    ¬∀ (hours : ℕ) (as : List Move), (run (step hours) {} as).AtMostOne ∧ (run (step hours) {} as).Spaced hours := by
  intro h
  have hone := (h 24 [.request 0, .request 1, .advance 1 5, .advance 2 7, .advance 1 5, .advance 2 7, .advance 1 5, .advance 2 7,
    .advance 1 5, .advance 2 7]).1
  have hsame : 1 = 2 := hone 1 ⟨0, .manual, .executing⟩ 2 ⟨1, .manual, .executing⟩ (by decide +kernel) (by decide +kernel) rfl rfl
  exact absurd hsame (by decide)

end Replicas
end LcsSystem.Backup
