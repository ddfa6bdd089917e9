import LcsSystem.Auth.PolicyTable
import LcsSystem.Lib.Table

/-!
# Policy copies of the workers

`src/backend/app/core/authorization/service.py:146-262`: every worker decides on its own copy of the policy. A mutation
commits the rows, bumps the version in Redis and reloads; a request checks the version first. A reload reads the
version, the role statuses and the rules one after the other, under a lock of its worker, and any of them may fail.

What a task awaits is one step. Redis answers every read and keeps its counter. Positions in the history, the bumps and
the loads of a worker are records beside the state: no step depends on them.
-/

namespace LcsSystem
open Relational Transition

/-- The committed tables that a load reads. -/
structure PolicyDb where
  table : PolicyTable
  statuses : String → Option String

/-- What was read: the statuses and the rules, each as they were after so many commits. -/
structure PolicyCopy where
  statusesAt : ℕ
  rulesAt : ℕ
  deriving DecidableEq

/-- The copy has what the commit with that number wrote. -/
def PolicyCopy.Contains (copy : PolicyCopy) (m : ℕ) : Prop := m ≤ copy.statusesAt ∧ m ≤ copy.rulesAt

/-- No older in any of its parts. -/
def PolicyCopy.NoNewer (c d : PolicyCopy) : Prop := c.statusesAt ≤ d.statusesAt ∧ c.rulesAt ≤ d.rulesAt

/-- The globals of one process: `_state`, `_loaded_version` and the holder of `_lock`. -/
structure Worker where
  copy : Option PolicyCopy
  loadedVersion : Option ℕ
  lock : Option ℕ
  /-- The copies that were loaded, oldest first. -/
  loads : List PolicyCopy

inductive Stage
  /-- A mutation, before its commit. -/
  | commits (write : PolicyDb → PolicyDb)
  /-- It is the commit with this number, and bumps the version. -/
  | bumps (m : ℕ)
  /-- `ensure_current` with a copy: the version is read. -/
  | readsVersion
  | compares (version : ℕ)
  /-- `reload`: before the lock, and its reads under the lock. -/
  | waits
  | loadsVersion
  | loadsStatuses (version : ℕ)
  | loadsRules (version statusesAt : ℕ)
  | installs (version statusesAt rulesAt : ℕ)
  /-- `ensure_current` has returned. -/
  | decides

/-- Inside the `try` of `reload`. -/
def Stage.isLoad : Stage → Bool
  | .loadsVersion | .loadsStatuses _ | .loadsRules _ _ | .installs _ _ _ => true
  | _ => false

structure Task where
  worker : ℕ
  /-- A request that goes on to decide, not the reload of a mutation. -/
  isRequest : Bool
  /-- The mutations that were bumped when the request began. -/
  since : List ℕ
  stage : Stage

structure Decision where
  worker : ℕ
  since : List ℕ
  copy : Option PolicyCopy
  answer : Bool

structure PolicyWorld where
  /-- Every committed state, the newest last. -/
  history : List PolicyDb
  /-- The mutation of each bump; their number is the version. -/
  bumps : List ℕ
  workers : ℕ → Worker
  tasks : Table Task
  decisions : List Decision

namespace PolicyWorld

/-- Processes that have loaded nothing yet. -/
def initial (db : PolicyDb) : PolicyWorld := ⟨[db], [], fun _ => ⟨none, none, none, []⟩, .empty, []⟩

def version (s : PolicyWorld) : ℕ := s.bumps.length

/-- The number of the newest commit. -/
def newest (s : PolicyWorld) : ℕ := s.history.length - 1

/-- The enforcer that was built of a copy. -/
def enforcer (s : PolicyWorld) (copy : PolicyCopy) : Option Enforcer := do
  let statuses ← s.history[copy.statusesAt]?
  let rules ← s.history[copy.rulesAt]?
  return loadEnforcer rules.table statuses.statuses

/-- `can`. -/
def can (s : PolicyWorld) (copy : Option PolicyCopy) (userId : ℕ) (code : String) : Bool :=
  (copy.bind s.enforcer).any fun e => e.can userId code

def toStage (s : PolicyWorld) (id : ℕ) (stage : Stage) : PolicyWorld :=
  { s with tasks := s.tasks.modify id fun t => { t with stage := stage } }

def endTask (s : PolicyWorld) (id : ℕ) : PolicyWorld := { s with tasks := s.tasks.erase fun i _ => i == id }

def setWorker (s : PolicyWorld) (w : ℕ) (worker : Worker) : PolicyWorld :=
  { s with workers := Function.update s.workers w worker }

inductive Action
  | startMutation (worker : ℕ) (write : PolicyDb → PolicyDb)
  | startRequest (worker : ℕ)
  /-- The next step of a task; `expired` says whether the copy is too old when it asks. -/
  | advance (id : ℕ) (expired : Bool)
  /-- A read of a load fails, or the copy cannot be built. -/
  | fail (id : ℕ)
  /-- The task is cancelled, or fails outside of a load. -/
  | cancel (id : ℕ)
  | decide (id : ℕ) (userId : ℕ) (code : String)

def advance (s : PolicyWorld) (id : ℕ) (t : Task) (expired : Bool) : PolicyWorld :=
  let worker := s.workers t.worker
  match t.stage with
  | .commits write =>
    { s with history := s.history ++ [write (s.history.getLastD ⟨[], fun _ => none⟩)] }.toStage id
      (.bumps s.history.length)
  | .bumps m => { s with bumps := s.bumps ++ [m] }.toStage id .waits
  | .readsVersion => s.toStage id (.compares s.version)
  | .compares version =>
    s.toStage id (if expired = true ∨ some version ≠ worker.loadedVersion then .waits else .decides)
  | .waits =>
    if worker.lock = none then (s.setWorker t.worker { worker with lock := some id }).toStage id .loadsVersion else s
  | .loadsVersion => s.toStage id (.loadsStatuses s.version)
  | .loadsStatuses version => s.toStage id (.loadsRules version s.newest)
  | .loadsRules version statusesAt => s.toStage id (.installs version statusesAt s.newest)
  | .installs version statusesAt rulesAt =>
    let copy := ⟨statusesAt, rulesAt⟩
    let s := s.setWorker t.worker ⟨some copy, some version, none, worker.loads ++ [copy]⟩
    if t.isRequest then s.toStage id .decides else s.endTask id
  | .decides => s

def step (s : PolicyWorld) : Action → PolicyWorld
  | .startMutation worker write => { s with tasks := s.tasks.insert ⟨worker, false, [], .commits write⟩ }
  | .startRequest worker =>
    let stage := if (s.workers worker).copy = none then Stage.waits else .readsVersion
    { s with tasks := s.tasks.insert ⟨worker, true, s.bumps, stage⟩ }
  | .advance id expired =>
    match s.tasks.get? id with
    | some t => s.advance id t expired
    | none => s
  | .fail id =>
    match s.tasks.get? id with
    | some t =>
      if t.stage.isLoad then
        (s.setWorker t.worker { s.workers t.worker with copy := none, lock := none }).endTask id
      else s
    | none => s
  | .cancel id =>
    match s.tasks.get? id with
    | some t =>
      let worker := s.workers t.worker
      (s.setWorker t.worker { worker with lock := if worker.lock = some id then none else worker.lock }).endTask id
    | none => s
  | .decide id userId code =>
    match s.tasks.get? id with
    | some ⟨worker, true, since, .decides⟩ =>
      let copy := (s.workers worker).copy
      { s with decisions := s.decisions ++ [⟨worker, since, copy, s.can copy userId code⟩] }
    | _ => s

/-! ## Invariant -/

/-- What a task relies on, at each of its stages. -/
def TaskOk (s : PolicyWorld) (id : ℕ) (t : Task) : Prop :=
  (∀ m ∈ t.since, m ∈ s.bumps) ∧
  match t.stage with
  | .commits _ | .readsVersion | .waits => True
  | .bumps m => m < s.history.length
  | .compares version => version ≤ s.version ∧ ∀ m ∈ t.since, m ∈ s.bumps.take version
  | .loadsVersion => (s.workers t.worker).lock = some id
  | .loadsStatuses version => (s.workers t.worker).lock = some id ∧ version ≤ s.version
  | .loadsRules version i => (s.workers t.worker).lock = some id ∧ version ≤ s.version ∧ i < s.history.length ∧
      (∀ m ∈ s.bumps.take version, m ≤ i) ∧ (∀ m ∈ t.since, m ≤ i) ∧ ∀ c ∈ (s.workers t.worker).loads, c.statusesAt ≤ i
  | .installs version i j => (s.workers t.worker).lock = some id ∧ version ≤ s.version ∧
      (i < s.history.length ∧ j < s.history.length) ∧ (∀ m ∈ s.bumps.take version, m ≤ i ∧ m ≤ j) ∧
      (∀ m ∈ t.since, m ≤ i ∧ m ≤ j) ∧ ∀ c ∈ (s.workers t.worker).loads, c.NoNewer ⟨i, j⟩
  | .decides => ∀ m ∈ t.since, ∃ c ∈ (s.workers t.worker).loads, c.Contains m

/-- What a worker keeps: its copies grow, the last one is what it holds, and contains all that was bumped at the version
it was loaded with. -/
structure WorkerOk (s : PolicyWorld) (worker : Worker) : Prop where
  sorted : worker.loads.Pairwise PolicyCopy.NoNewer
  bounded : ∀ c ∈ worker.loads, c.statusesAt < s.history.length ∧ c.rulesAt < s.history.length
  held : ∀ c, worker.copy = some c → worker.loads.getLast? = some c
  version : ∀ v, worker.loadedVersion = some v → v ≤ s.version ∧
    ∃ c, worker.loads.getLast? = some c ∧ ∀ m ∈ s.bumps.take v, c.Contains m

structure Fresh (s : PolicyWorld) : Prop where
  started : 0 < s.history.length
  committed : ∀ m ∈ s.bumps, m < s.history.length
  workers : ∀ w, WorkerOk s (s.workers w)
  tasks : ∀ id t, s.tasks.get? id = some t → TaskOk s id t
  decisions : ∀ d ∈ s.decisions, (∀ c, d.copy = some c → ∀ m ∈ d.since, c.Contains m) ∧
    (d.copy = none → d.answer = false)

section
variable {s s' : PolicyWorld} {id : ℕ} {t : Task}

theorem fresh_initial (db : PolicyDb) : Fresh (initial db) where
  started := Nat.one_pos
  committed _ hm := by cases hm
  workers _ := {
    sorted := List.Pairwise.nil
    bounded := fun _ hc => by cases hc
    held := fun _ hc => by cases hc
    version := fun _ hv => by cases hv }
  tasks _ _ hid := by cases hid
  decisions _ hd := by cases hd

theorem take_of_grown {bumps bumps' : List ℕ} {v : ℕ} (h : bumps <+: bumps') (hv : v ≤ bumps.length) :
    bumps'.take v = bumps.take v := by
  obtain ⟨rest, rfl⟩ := h
  exact List.take_append_of_le_length hv

/-- More commits, bumps and loads leave a task what it relies on; under its lock, its worker is left alone. -/
theorem TaskOk.frame (h : TaskOk s id t) (hhistory : s.history.length ≤ s'.history.length) (hbumps : s.bumps <+: s'.bumps)
    (hloads : ∀ c ∈ (s.workers t.worker).loads, c ∈ (s'.workers t.worker).loads)
    (hlock : t.stage.isLoad = true →
      (s'.workers t.worker).lock = some id ∧ (s'.workers t.worker).loads = (s.workers t.worker).loads) :
    TaskOk s' id t := by
  have hversion : s.version ≤ s'.version := hbumps.length_le
  refine ⟨fun m hm => hbumps.subset (h.1 m hm), ?_⟩
  have hstage := h.2
  have hheld (hload : t.stage.isLoad = true) := (hlock hload).1
  cases hs : t.stage with
  | commits write => trivial
  | readsVersion => trivial
  | waits => trivial
  | bumps m =>
    rw [hs] at hstage
    exact hstage.trans_le hhistory
  | compares v =>
    rw [hs] at hstage
    refine ⟨hstage.1.trans hversion, ?_⟩
    rw [take_of_grown hbumps hstage.1]
    exact hstage.2
  | loadsVersion =>
    exact hheld (by rw [hs]; rfl)
  | loadsStatuses v =>
    rw [hs] at hstage
    exact ⟨hheld (by rw [hs]; rfl), hstage.2.trans hversion⟩
  | loadsRules v i =>
    rw [hs] at hstage
    obtain ⟨-, hv, hi, htake, hsince, hc⟩ := hstage
    refine ⟨hheld (by rw [hs]; rfl), hv.trans hversion, hi.trans_le hhistory, ?_, hsince, ?_⟩
    · rw [take_of_grown hbumps hv]
      exact htake
    · rw [(hlock (by rw [hs]; rfl)).2]
      exact hc
  | installs v i j =>
    rw [hs] at hstage
    obtain ⟨-, hv, hij, htake, hsince, hc⟩ := hstage
    refine ⟨hheld (by rw [hs]; rfl), hv.trans hversion, ⟨hij.1.trans_le hhistory, hij.2.trans_le hhistory⟩, ?_, hsince, ?_⟩
    · rw [take_of_grown hbumps hv]
      exact htake
    · rw [(hlock (by rw [hs]; rfl)).2]
      exact hc
  | decides =>
    rw [hs] at hstage
    intro m hm
    obtain ⟨c, hc, hcontains⟩ := hstage m hm
    exact ⟨c, hloads c hc, hcontains⟩

theorem WorkerOk.frame {worker : Worker} (h : WorkerOk s worker) (hhistory : s.history.length ≤ s'.history.length)
    (hbumps : s.bumps <+: s'.bumps) : WorkerOk s' worker where
  sorted := h.sorted
  bounded c hc := ⟨(h.bounded c hc).1.trans_le hhistory, (h.bounded c hc).2.trans_le hhistory⟩
  held := h.held
  version v hv := by
    obtain ⟨hle, c, hc, hcontains⟩ := h.version v hv
    refine ⟨hle.trans hbumps.length_le, c, hc, ?_⟩
    rw [take_of_grown hbumps hle]
    exact hcontains

theorem WorkerOk.last_newest {worker : Worker} (h : WorkerOk s worker) {c : PolicyCopy}
    (hc : worker.loads.getLast? = some c) : ∀ d ∈ worker.loads, d.NoNewer c := by
  obtain ⟨loads, hloads⟩ := List.getLast?_eq_some_iff.1 hc
  intro d hd
  have hsorted := h.sorted
  rw [hloads] at hd hsorted
  rcases List.mem_append.1 hd with hd | hd
  · exact (List.pairwise_append.1 hsorted).2.2 d hd c List.mem_cons_self
  · rw [List.mem_singleton.1 hd]
    exact ⟨le_rfl, le_rfl⟩

theorem get?_toStage {i : ℕ} {u : Task} {stage : Stage} (h : (s.toStage id stage).tasks.get? i = some u) :
    (∃ t, s.tasks.get? id = some t ∧ i = id ∧ u = { t with stage := stage }) ∨ i ≠ id ∧ s.tasks.get? i = some u := by
  rw [PolicyWorld.toStage, Table.get?_modify] at h
  split at h
  · next hi =>
    obtain ⟨t, ht, rfl⟩ := Option.map_eq_some_iff.1 h
    exact .inl ⟨t, hi ▸ ht, hi, rfl⟩
  · next hi => exact .inr ⟨hi, h⟩

theorem get?_endTask {i : ℕ} {u : Task} (h : (s.endTask id).tasks.get? i = some u) :
    i ≠ id ∧ s.tasks.get? i = some u := by
  rw [PolicyWorld.endTask, Table.get?_erase, Option.filter_eq_some_iff] at h
  exact ⟨by simpa using h.2, h.1⟩

theorem Fresh.toStage (h : Fresh s) (hid : s.tasks.get? id = some t) {stage : Stage}
    (hok : TaskOk s id { t with stage := stage }) : Fresh (s.toStage id stage) where
  started := h.started
  committed := h.committed
  workers w := (h.workers w).frame le_rfl (List.prefix_refl _)
  tasks := Table.forall_modify hid h.tasks hok
  decisions := h.decisions

theorem Fresh.endTask (h : Fresh s) (id : ℕ) : Fresh (s.endTask id) where
  started := h.started
  committed := h.committed
  workers w := (h.workers w).frame le_rfl (List.prefix_refl _)
  tasks i t hi := h.tasks i t (get?_endTask hi).2
  decisions := h.decisions

/-- A load is under the lock of its worker. -/
theorem Fresh.holds (h : Fresh s) (hid : s.tasks.get? id = some t) (hload : t.stage.isLoad = true) :
    (s.workers t.worker).lock = some id := by
  have hok := (h.tasks id t hid).2
  cases hs : t.stage with
  | loadsVersion =>
    rw [hs] at hok
    exact hok
  | loadsStatuses _ =>
    rw [hs] at hok
    exact hok.1
  | loadsRules _ _ =>
    rw [hs] at hok
    exact hok.1
  | installs _ _ _ =>
    rw [hs] at hok
    exact hok.1
  | commits _ => simp [hs, Stage.isLoad] at hload
  | bumps _ => simp [hs, Stage.isLoad] at hload
  | readsVersion => simp [hs, Stage.isLoad] at hload
  | compares _ => simp [hs, Stage.isLoad] at hload
  | waits => simp [hs, Stage.isLoad] at hload
  | decides => simp [hs, Stage.isLoad] at hload

/-- A change of a worker. Its tasks that are loading are left, under the lock and with the loads they rely on. -/
theorem Fresh.setWorker (h : Fresh s) (w : ℕ) {worker : Worker} {tasks : Table Task} (hworker : WorkerOk s worker)
    (hloads : ∀ c ∈ (s.workers w).loads, c ∈ worker.loads)
    (htasks : ∀ i t, tasks.get? i = some t → TaskOk (s.setWorker w worker) i t ∨ s.tasks.get? i = some t ∧
      (t.worker = w → t.stage.isLoad = true → worker.lock = some i ∧ worker.loads = (s.workers w).loads)) :
    Fresh { s.setWorker w worker with tasks := tasks } where
  started := h.started
  committed := h.committed
  workers v := by
    by_cases hv : v = w
    · subst hv
      have hset : WorkerOk { s.setWorker v worker with tasks := tasks } worker :=
        hworker.frame le_rfl (List.prefix_refl _)
      simpa [PolicyWorld.setWorker] using hset
    · have hkept : WorkerOk { s.setWorker w worker with tasks := tasks } (s.workers v) :=
        (h.workers v).frame le_rfl (List.prefix_refl _)
      simpa [PolicyWorld.setWorker, hv] using hkept
  tasks i t hi := by
    rcases htasks i t hi with hok | ⟨hold, hkeeps⟩
    · exact hok
    · refine (h.tasks i t hold).frame le_rfl (List.prefix_refl _) ?_ ?_
      · intro c hc
        by_cases hv : t.worker = w
        · simpa [PolicyWorld.setWorker, hv] using hloads c (hv ▸ hc)
        · simpa [PolicyWorld.setWorker, hv] using hc
      · intro hload
        by_cases hv : t.worker = w
        · simpa [PolicyWorld.setWorker, hv] using hkeeps hv hload
        · simpa [PolicyWorld.setWorker, hv] using h.holds hold hload
  decisions := h.decisions

/-- Commits and bumps only add. -/
theorem Fresh.grow (h : Fresh s) {history : List PolicyDb} {bumps : List ℕ}
    (hhistory : s.history.length ≤ history.length) (hbumps : s.bumps <+: bumps)
    (hcommitted : ∀ m ∈ bumps, m < history.length) : Fresh { s with history := history, bumps := bumps } where
  started := h.started.trans_le hhistory
  committed := hcommitted
  workers w := (h.workers w).frame hhistory hbumps
  tasks i t hi := (h.tasks i t hi).frame hhistory hbumps (fun _ hc => hc) fun hl => ⟨h.holds hi hl, rfl⟩
  decisions := h.decisions

theorem Fresh.insert (h : Fresh s) (t : Task) (hok : ∀ i, TaskOk s i t) :
    Fresh { s with tasks := s.tasks.insert t } where
  started := h.started
  committed := h.committed
  workers w := (h.workers w).frame le_rfl (List.prefix_refl _)
  tasks i u hi := by
    rw [Table.get?_insert] at hi
    split at hi
    · cases hi
      exact hok i
    · exact h.tasks i u hi
  decisions := h.decisions

theorem Fresh.commits (h : Fresh s) (hid : s.tasks.get? id = some t) (db : PolicyDb) :
    Fresh ({ s with history := s.history ++ [db] }.toStage id (.bumps s.history.length)) := by
  have hlength : s.history.length ≤ (s.history ++ [db]).length := by simp
  have hgrown := h.grow hlength (List.prefix_refl s.bumps) fun m hm => (h.committed m hm).trans_le hlength
  refine hgrown.toStage (t := t) hid ⟨(h.tasks id t hid).1, ?_⟩
  simp

theorem Fresh.bump (h : Fresh s) (hid : s.tasks.get? id = some t) {m : ℕ} (hstage : t.stage = .bumps m) :
    Fresh ({ s with bumps := s.bumps ++ [m] }.toStage id .waits) := by
  have hok := h.tasks id t hid
  have hm : m < s.history.length := by
    have := hok.2
    rwa [hstage] at this
  have hgrown := h.grow le_rfl (List.prefix_append s.bumps [m]) (by
    intro k hk
    rcases List.mem_append.1 hk with hk | hk
    · exact h.committed k hk
    · rw [List.mem_singleton.1 hk]
      exact hm)
  exact hgrown.toStage (t := t) hid ⟨fun k hk => List.mem_append_left _ (hok.1 k hk), trivial⟩

/-- What was bumped at the version of a worker is in a copy that it loaded. -/
theorem Fresh.loaded (h : Fresh s) {w version m : ℕ} (hversion : (s.workers w).loadedVersion = some version)
    (hm : m ∈ s.bumps.take version) : ∃ c ∈ (s.workers w).loads, c.Contains m := by
  obtain ⟨-, c, hc, hcontains⟩ := (h.workers w).version version hversion
  exact ⟨c, List.mem_of_getLast? hc, hcontains m hm⟩

theorem Fresh.compares (h : Fresh s) (hid : s.tasks.get? id = some t) {version : ℕ}
    (hstage : t.stage = .compares version) (expired : Bool) :
    Fresh (s.toStage id
      (if expired = true ∨ some version ≠ (s.workers t.worker).loadedVersion then .waits else .decides)) := by
  have hok := h.tasks id t hid
  have hsince := hok.2
  rw [hstage] at hsince
  refine h.toStage hid ⟨hok.1, ?_⟩
  split_ifs with hcase
  · trivial
  · push Not at hcase
    exact fun m hm => h.loaded hcase.2.symm (hsince.2 m hm)

/-- No task but `id` is loading on a worker whose lock is free or held by `id`. -/
theorem Fresh.alone (h : Fresh s) {w i : ℕ} (hlock : (s.workers w).lock = none ∨ (s.workers w).lock = some id)
    (hi : s.tasks.get? i = some t) (hne : i ≠ id) (hw : t.worker = w) : t.stage.isLoad ≠ true := by
  intro hload
  have hheld := h.holds hi hload
  rw [hw] at hheld
  rcases hlock with hlock | hlock <;> simp_all

theorem Fresh.locks (h : Fresh s) (hid : s.tasks.get? id = some t) (hlock : (s.workers t.worker).lock = none) :
    Fresh ((s.setWorker t.worker { s.workers t.worker with lock := some id }).toStage id .loadsVersion) := by
  have hworker := h.workers t.worker
  refine h.setWorker t.worker ⟨hworker.sorted, hworker.bounded, hworker.held, hworker.version⟩ (fun _ hc => hc) ?_
  intro i u hi
  rcases get?_toStage hi with ⟨t', ht, rfl, rfl⟩ | ⟨hne, hi⟩
  · left
    have ht : s.tasks.get? i = some t' := ht
    rw [hid] at ht
    cases ht
    refine ⟨(h.tasks i t hid).1, ?_⟩
    simp [PolicyWorld.setWorker]
  · exact .inr ⟨hi, fun hw hload => absurd hload (h.alone (.inl hlock) hi hne hw)⟩

/-- What a load reads of the history is no older than any copy of its worker. -/
theorem Fresh.noNewer (h : Fresh s) {w : ℕ} {c : PolicyCopy} (hc : c ∈ (s.workers w).loads) :
    c.statusesAt ≤ s.newest ∧ c.rulesAt ≤ s.newest := by
  have hbounded := (h.workers w).bounded c hc
  unfold newest
  omega

theorem Fresh.newest_lt (h : Fresh s) : s.newest < s.history.length := Nat.sub_lt h.started Nat.one_pos

theorem Fresh.le_newest (h : Fresh s) {m : ℕ} (hm : m ∈ s.bumps) : m ≤ s.newest := Nat.le_sub_one_of_lt (h.committed m hm)

theorem Fresh.loadsStatuses (h : Fresh s) (hid : s.tasks.get? id = some t) {version : ℕ}
    (hstage : t.stage = .loadsStatuses version) : Fresh (s.toStage id (.loadsRules version s.newest)) := by
  have hok := h.tasks id t hid
  have hread := hok.2
  rw [hstage] at hread
  refine h.toStage hid ⟨hok.1, hread.1, hread.2, h.newest_lt, ?_, ?_, ?_⟩
  · exact fun m hm => h.le_newest (List.mem_of_mem_take hm)
  · exact fun m hm => h.le_newest (hok.1 m hm)
  · exact fun c hc => (h.noNewer hc).1

theorem Fresh.loadsRules (h : Fresh s) (hid : s.tasks.get? id = some t) {version i : ℕ}
    (hstage : t.stage = .loadsRules version i) : Fresh (s.toStage id (.installs version i s.newest)) := by
  have hok := h.tasks id t hid
  have hread := hok.2
  rw [hstage] at hread
  obtain ⟨hlock, hversion, hi, htake, hsince, hloads⟩ := hread
  refine h.toStage hid ⟨hok.1, hlock, hversion, ⟨hi, h.newest_lt⟩, ?_, ?_, ?_⟩
  · exact fun m hm => ⟨htake m hm, h.le_newest (List.mem_of_mem_take hm)⟩
  · exact fun m hm => ⟨hsince m hm, h.le_newest (hok.1 m hm)⟩
  · exact fun c hc => ⟨hloads c hc, (h.noNewer hc).2⟩

/-- The copy that is installed is no older than the ones before it. -/
theorem Fresh.installs_worker (h : Fresh s) (hid : s.tasks.get? id = some t) {version i j : ℕ}
    (hstage : t.stage = .installs version i j) :
    WorkerOk s ⟨some ⟨i, j⟩, some version, none, (s.workers t.worker).loads ++ [⟨i, j⟩]⟩ := by
  have hread := (h.tasks id t hid).2
  rw [hstage] at hread
  obtain ⟨-, hversion, hij, htake, -, hloads⟩ := hread
  have hworker := h.workers t.worker
  constructor
  · refine List.pairwise_append.2 ⟨hworker.sorted, List.pairwise_singleton _ _, ?_⟩
    intro c hc d hd
    rw [List.mem_singleton.1 hd]
    exact hloads c hc
  · intro c hc
    rcases List.mem_append.1 hc with hc | hc
    · exact hworker.bounded c hc
    · rw [List.mem_singleton.1 hc]
      exact hij
  · intro c hc
    cases hc
    simp
  · intro v hv
    cases hv
    exact ⟨hversion, ⟨i, j⟩, by simp, htake⟩

theorem Fresh.installs (h : Fresh s) (hid : s.tasks.get? id = some t) {version i j : ℕ}
    (hstage : t.stage = .installs version i j) {worker : Worker}
    (hworker : worker = ⟨some ⟨i, j⟩, some version, none, (s.workers t.worker).loads ++ [⟨i, j⟩]⟩) :
    Fresh ((s.setWorker t.worker worker).toStage id .decides) ∧ Fresh ((s.setWorker t.worker worker).endTask id) := by
  have hok := h.tasks id t hid
  have hheld := h.holds hid (by rw [hstage]; rfl)
  have hsince : ∀ m ∈ t.since, m ≤ i ∧ m ≤ j := by
    have hread := hok.2
    rw [hstage] at hread
    exact hread.2.2.2.2.1
  have hworkerOk : WorkerOk s worker := hworker ▸ h.installs_worker hid hstage
  have hloads : ∀ c ∈ (s.workers t.worker).loads, c ∈ worker.loads := by
    intro c hc
    rw [hworker]
    exact List.mem_append_left _ hc
  constructor
  · refine h.setWorker t.worker hworkerOk hloads ?_
    intro k u hk
    rcases get?_toStage hk with ⟨t', ht, rfl, rfl⟩ | ⟨hne, hk⟩
    · left
      have ht : s.tasks.get? k = some t' := ht
      rw [hid] at ht
      cases ht
      refine ⟨hok.1, fun m hm => ⟨⟨i, j⟩, ?_, hsince m hm⟩⟩
      simp [PolicyWorld.setWorker, hworker]
    · exact .inr ⟨hk, fun hw hload => absurd hload (h.alone (.inr hheld) hk hne hw)⟩
  · refine h.setWorker t.worker hworkerOk hloads ?_
    intro k u hk
    obtain ⟨hne, hk⟩ := get?_endTask hk
    exact .inr ⟨hk, fun hw hload => absurd hload (h.alone (.inr hheld) hk hne hw)⟩

/-- A load that fails drops the copy. -/
theorem Fresh.fail (h : Fresh s) (hid : s.tasks.get? id = some t) (hload : t.stage.isLoad = true) :
    Fresh ((s.setWorker t.worker { s.workers t.worker with copy := none, lock := none }).endTask id) := by
  have hworker := h.workers t.worker
  have hheld := h.holds hid hload
  have hdropped : WorkerOk s { s.workers t.worker with copy := none, lock := none } :=
    ⟨hworker.sorted, hworker.bounded, fun _ hc => (by cases hc), hworker.version⟩
  refine h.setWorker t.worker hdropped (fun _ hc => hc) ?_
  intro k u hk
  obtain ⟨hne, hk⟩ := get?_endTask hk
  exact .inr ⟨hk, fun hw hload => absurd hload (h.alone (.inr hheld) hk hne hw)⟩

theorem Fresh.cancel (h : Fresh s) (id : ℕ) (w : ℕ) :
    Fresh ((s.setWorker w { s.workers w with
      lock := if (s.workers w).lock = some id then none else (s.workers w).lock }).endTask id) := by
  have hworker := h.workers w
  refine h.setWorker w ⟨hworker.sorted, hworker.bounded, hworker.held, hworker.version⟩ (fun _ hc => hc) ?_
  intro k u hk
  obtain ⟨hne, hk⟩ := get?_endTask hk
  refine .inr ⟨hk, fun hw hload => ⟨?_, rfl⟩⟩
  have hheld := h.holds hk hload
  rw [hw] at hheld
  simpa [hheld] using hne

/-- A request decides on a copy that is no older than one that contains what it waited for. -/
theorem Fresh.decide (h : Fresh s) (hid : s.tasks.get? id = some t) (hstage : t.stage = .decides) (userId : ℕ)
    (code : String) : Fresh { s with
      decisions := s.decisions ++ [⟨t.worker, t.since, (s.workers t.worker).copy, s.can (s.workers t.worker).copy userId code⟩] } where
  started := h.started
  committed := h.committed
  workers w := (h.workers w).frame le_rfl (List.prefix_refl _)
  tasks := h.tasks
  decisions := by
    intro d hd
    rcases List.mem_append.1 hd with hd | hd
    · exact h.decisions d hd
    · rw [List.mem_singleton.1 hd]
      refine ⟨fun c hc m hm => ?_, fun hc => ?_⟩
      · have hread := (h.tasks id t hid).2
        rw [hstage] at hread
        obtain ⟨d, hd, hcontains⟩ := hread m hm
        have hlast := (h.workers t.worker).last_newest ((h.workers t.worker).held c hc) d hd
        exact ⟨hcontains.1.trans hlast.1, hcontains.2.trans hlast.2⟩
      · have hnone : (s.workers t.worker).copy = none := hc
        simp [PolicyWorld.can, hnone]

/-! ## Steps and runs -/

theorem Fresh.advance (h : Fresh s) (hid : s.tasks.get? id = some t) (expired : Bool) :
    Fresh (s.advance id t expired) := by
  have hok := h.tasks id t hid
  unfold PolicyWorld.advance
  cases hs : t.stage with
  | commits write => exact h.commits hid _
  | bumps m => exact h.bump hid hs
  | readsVersion =>
    refine h.toStage hid ⟨hok.1, le_rfl, fun m hm => ?_⟩
    rw [version, List.take_length]
    exact hok.1 m hm
  | compares version => exact h.compares hid hs expired
  | waits =>
    dsimp only
    split
    · next hlock => exact h.locks hid hlock
    · exact h
  | loadsVersion =>
    have hlock := h.holds hid (by rw [hs]; rfl)
    exact h.toStage hid ⟨hok.1, hlock, le_rfl⟩
  | loadsStatuses version => exact h.loadsStatuses hid hs
  | loadsRules version i => exact h.loadsRules hid hs
  | installs version i j =>
    dsimp only
    split
    · exact (h.installs hid hs rfl).1
    · exact (h.installs hid hs rfl).2
  | decides => exact h

/-- **Step lemma.** -/
theorem Fresh.step (h : Fresh s) (a : Action) : Fresh (s.step a) := by
  cases a with
  | startMutation worker write => exact h.insert _ fun _ => ⟨fun _ hm => (by cases hm), trivial⟩
  | startRequest worker =>
    refine h.insert _ fun _ => ⟨fun _ hm => hm, ?_⟩
    by_cases hcopy : (s.workers worker).copy = none <;> simp [hcopy]
  | advance id expired =>
    simp only [PolicyWorld.step]
    split
    · next t hid => exact h.advance hid expired
    · exact h
  | fail id =>
    simp only [PolicyWorld.step]
    split
    · next t hid =>
      split
      · next hload => exact h.fail hid hload
      · exact h
    · exact h
  | cancel id =>
    simp only [PolicyWorld.step]
    split
    · next t hid => exact h.cancel id t.worker
    · exact h
  | decide id userId code =>
    simp only [PolicyWorld.step]
    split
    · next hid => exact h.decide hid rfl userId code
    · exact h

/-- **Run lemma.** -/
theorem fresh_run (db : PolicyDb) (as : List Action) : Fresh (run step (initial db) as) :=
  run_invariant Fresh (fun _ a h => h.step a) as (fresh_initial db)

/-- The copy of a worker between two states: loads only come on top, and without one a missing copy stays missing. -/
def Loads (w : ℕ) (s s' : PolicyWorld) : Prop :=
  (s.workers w).loads <+: (s'.workers w).loads ∧
    ((s'.workers w).loads = (s.workers w).loads → (s.workers w).copy = none → (s'.workers w).copy = none)

theorem Loads.rfl (w : ℕ) (s : PolicyWorld) : Loads w s s := ⟨List.prefix_refl _, fun _ h => h⟩

theorem Loads.trans {w : ℕ} {s s' s'' : PolicyWorld} (h : Loads w s s') (h' : Loads w s' s'') : Loads w s s'' := by
  refine ⟨h.1.trans h'.1, fun hloads hcopy => ?_⟩
  have hmiddle : (s'.workers w).loads = (s.workers w).loads := by
    refine (h.1.eq_of_length_le ?_).symm
    rw [← hloads]
    exact h'.1.length_le
  exact h'.2 (hloads.trans hmiddle.symm) (h.2 hmiddle hcopy)

theorem loads_of_workers {w : ℕ} (h : s'.workers = s.workers) : Loads w s s' := by
  unfold Loads
  rw [h]
  exact ⟨List.prefix_refl _, fun _ h => h⟩

theorem loads_setWorker {w v : ℕ} {worker : Worker} (h : s'.workers = (s.setWorker v worker).workers)
    (hloads : (s.workers v).loads <+: worker.loads)
    (hcopy : worker.loads = (s.workers v).loads → (s.workers v).copy = none → worker.copy = none) : Loads w s s' := by
  unfold Loads
  rw [h]
  by_cases hw : w = v
  · subst hw
    simpa [PolicyWorld.setWorker] using ⟨hloads, hcopy⟩
  · simp [PolicyWorld.setWorker, hw]

theorem loads_advance (w : ℕ) (expired : Bool) : Loads w s (s.advance id t expired) := by
  unfold PolicyWorld.advance
  cases t.stage with
  | waits =>
    dsimp only
    split
    · exact loads_setWorker rfl (List.prefix_refl _) fun _ h => h
    · exact Loads.rfl w s
  | installs version i j =>
    dsimp only
    split <;> exact loads_setWorker rfl (List.prefix_append _ _) fun h => by simp at h
  | commits write => exact loads_of_workers rfl
  | bumps m => exact loads_of_workers rfl
  | readsVersion => exact loads_of_workers rfl
  | compares version => exact loads_of_workers rfl
  | loadsVersion => exact loads_of_workers rfl
  | loadsStatuses version => exact loads_of_workers rfl
  | loadsRules version i => exact loads_of_workers rfl
  | decides => exact Loads.rfl w s

theorem loads_step (w : ℕ) (s : PolicyWorld) (a : Action) : Loads w s (s.step a) := by
  cases a with
  | startMutation worker write => exact loads_of_workers rfl
  | startRequest worker => exact loads_of_workers rfl
  | advance id expired =>
    simp only [PolicyWorld.step]
    split
    · exact loads_advance w expired
    · exact Loads.rfl w s
  | fail id =>
    simp only [PolicyWorld.step]
    split
    · next t hid =>
      split
      · exact loads_setWorker rfl (List.prefix_refl _) fun _ _ => rfl
      · exact Loads.rfl w s
    · exact Loads.rfl w s
  | cancel id =>
    simp only [PolicyWorld.step]
    split
    · next t hid => exact loads_setWorker rfl (List.prefix_refl _) fun _ h => h
    · exact Loads.rfl w s
  | decide id userId code =>
    simp only [PolicyWorld.step]
    split
    · exact loads_of_workers rfl
    · exact Loads.rfl w s

theorem loads_run (w : ℕ) (s : PolicyWorld) (as : List Action) : Loads w s (run step s as) :=
  run_relation (Loads w) (Loads.rfl w) Loads.trans (loads_step w) s as

/-- A held copy is built of states that were committed. -/
theorem Fresh.enforcer_isSome (h : Fresh s) {w : ℕ} {c : PolicyCopy} (hc : (s.workers w).copy = some c) :
    (s.enforcer c).isSome = true := by
  have hworker := h.workers w
  obtain ⟨hi, hj⟩ := hworker.bounded c (List.mem_of_getLast? (hworker.held c hc))
  simp [enforcer, List.getElem?_eq_getElem hi, List.getElem?_eq_getElem hj]

theorem Fresh.held_noNewer (h : Fresh s) (h' : Fresh s') {w : ℕ} {c d : PolicyCopy} (hloads : Loads w s s')
    (hc : (s.workers w).copy = some c) (hd : (s'.workers w).copy = some d) : c.NoNewer d :=
  (h'.workers w).last_newest ((h'.workers w).held d hd) c
    (hloads.1.subset (List.mem_of_getLast? ((h.workers w).held c hc)))

theorem fail_copy (hid : s.tasks.get? id = some t) (hload : t.stage.isLoad = true) :
    ((s.step (.fail id)).workers t.worker).copy = none ∧
      ((s.step (.fail id)).workers t.worker).loads = (s.workers t.worker).loads := by
  simp [PolicyWorld.step, hid, hload, PolicyWorld.setWorker, PolicyWorld.endTask]

/-- **Freshness.** After every run: a decision is made on a copy that has all that was bumped before its
`ensure_current` began, and on no copy it is a refusal; a worker holds a copy of committed states, and never one that is
older than a copy it held before; and after a load fails, its worker holds no copy and refuses until it loads one. -/
theorem authorization_fresh (db : PolicyDb) (as : List Action) :
    (∀ d ∈ (run step (initial db) as).decisions, (∀ c, d.copy = some c → ∀ m ∈ d.since, c.Contains m) ∧
      (d.copy = none → d.answer = false)) ∧
    (∀ w c, ((run step (initial db) as).workers w).copy = some c →
      ((run step (initial db) as).enforcer c).isSome = true ∧
      ∀ bs d, ((run step (run step (initial db) as) bs).workers w).copy = some d → c.NoNewer d) ∧
    (∀ id t, (run step (initial db) as).tasks.get? id = some t → t.stage.isLoad = true → ∀ bs s',
      s' = run step ((run step (initial db) as).step (.fail id)) bs →
      (s'.workers t.worker).loads = ((run step (initial db) as).workers t.worker).loads →
      (s'.workers t.worker).copy = none ∧ ∀ userId code, s'.can (s'.workers t.worker).copy userId code = false) := by
  have h := fresh_run db as
  refine ⟨h.decisions, fun w c hc => ⟨h.enforcer_isSome hc, fun bs d hd => ?_⟩, ?_⟩
  · have h' : Fresh (run step (run step (initial db) as) bs) := run_invariant Fresh (fun _ a h => h.step a) bs h
    exact h.held_noNewer h' (loads_run w _ bs) hc hd
  · rintro id t hid hload bs s' rfl hloads
    obtain ⟨hcopy, hsame⟩ := fail_copy hid hload
    have hnone := (loads_run t.worker ((run step (initial db) as).step (.fail id)) bs).2 (hloads.trans hsame.symm) hcopy
    exact ⟨hnone, fun userId code => by simp [PolicyWorld.can, hnone]⟩

end
end PolicyWorld
end LcsSystem
