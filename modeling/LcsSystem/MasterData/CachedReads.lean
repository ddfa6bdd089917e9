import LcsSystem.Core.Cache
import LcsSystem.Lib.Table
import LcsSystem.Lib.Transition

/-!
# Cached reads of master data

`src/backend/app/modules/master_data/service.py:1272-1435` over `core/cache.py:49-90`: a read looks its entry up under
the version of the namespace, loads from the database when there is none, reads the version again and stores what it
loaded. A write commits and then bumps the version.

What a task awaits is one step. Redis answers and nothing expires. Positions in the history and the bumps are records
beside the state: no step depends on them.
-/

namespace LcsSystem
open Relational Transition

/-- What a request does after the statements it has run so far, given what they saw. -/
inductive Reply (Value : Type)
  | more
  | found (value : Value)
  | notFound

/-- `list_reference` and `get_reference` of every collection: the load of a request with these key parts. -/
structure ReferenceReads (Db Value δ : Type) where
  digest : String → δ
  load : List String → List Db → Reply Value

/-- A loaded value, with the parts it was loaded for and the commits its statements saw. -/
structure LoadedValue (Value : Type) where
  parts : List String
  value : Value
  readAt : List ℕ

/-- Every statement of the load saw the commit with that number. -/
def LoadedValue.Contains {Value : Type} (c : LoadedValue Value) (m : ℕ) : Prop := ∀ i ∈ c.readAt, m ≤ i

instance {Value : Type} (c : LoadedValue Value) (m : ℕ) : Decidable (c.Contains m) :=
  inferInstanceAs (Decidable (∀ i ∈ c.readAt, m ≤ i))

inductive CacheStage (Db Value : Type)
  /-- `create_reference` or `update_reference`: the commit, and the bump after it. -/
  | commits (write : Db → Db)
  | bumps (m : ℕ)
  /-- `get_json`. -/
  | readsVersion
  | gets (version : ℕ)
  /-- The statements so far, the newest last. -/
  | loads (read : List (ℕ × Db))
  /-- `set_json`. -/
  | rereadsVersion (result : LoadedValue Value)
  | sets (version : ℕ) (result : LoadedValue Value)

structure CacheTask (Db Value : Type) where
  /-- The first part is the kind of the request. -/
  kind : String
  rest : List String
  /-- The writes that were bumped when the request began. -/
  since : List ℕ
  stage : CacheStage Db Value

def CacheTask.parts {Db Value : Type} (t : CacheTask Db Value) : List String := t.kind :: t.rest

structure Returned (Value : Type) where
  since : List ℕ
  result : LoadedValue Value

structure CacheWorld (Db Value δ : Type) where
  /-- Every committed state, the newest last. -/
  history : List Db
  /-- The write of each bump; their number is the version. -/
  bumps : List ℕ
  store : String × δ → Option (LoadedValue Value)
  tasks : Table (CacheTask Db Value)
  returned : List (Returned Value)

inductive CacheAction (Db : Type)
  | startWrite (write : Db → Db)
  | startRead (kind : String) (rest : List String)
  | advance (id : ℕ)
  | cancel (id : ℕ)

namespace CacheWorld
variable {Db Value δ : Type}

def initial (db : Db) : CacheWorld Db Value δ := ⟨[db], [], fun _ => none, .empty, []⟩

def version (s : CacheWorld Db Value δ) : ℕ := s.bumps.length

def newest (s : CacheWorld Db Value δ) : ℕ := s.history.length - 1

def toStage (s : CacheWorld Db Value δ) (id : ℕ) (stage : CacheStage Db Value) : CacheWorld Db Value δ :=
  { s with tasks := s.tasks.modify id fun t => { t with stage := stage } }

def endTask (s : CacheWorld Db Value δ) (id : ℕ) : CacheWorld Db Value δ :=
  { s with tasks := s.tasks.erase fun i _ => i == id }

def answer (s : CacheWorld Db Value δ) (id : ℕ) (t : CacheTask Db Value) (result : LoadedValue Value) :
    CacheWorld Db Value δ :=
  { s.endTask id with returned := s.returned ++ [⟨t.since, result⟩] }

/-- One statement of a load, or what follows its last one. -/
def loadStep (reads : ReferenceReads Db Value δ) (s : CacheWorld Db Value δ) (id : ℕ) (t : CacheTask Db Value)
    (read : List (ℕ × Db)) : CacheWorld Db Value δ :=
  match reads.load t.parts (read.map Prod.snd) with
  | .more =>
    match s.history.getLast? with
    | some db => s.toStage id (.loads (read ++ [(s.newest, db)]))
    | none => s
  | .found value => s.toStage id (.rereadsVersion ⟨t.parts, value, read.map Prod.fst⟩)
  | .notFound => s.endTask id

def advance [DecidableEq δ] (reads : ReferenceReads Db Value δ) (s : CacheWorld Db Value δ) (id : ℕ)
    (t : CacheTask Db Value) : CacheWorld Db Value δ :=
  match t.stage with
  | .commits write =>
    match s.history.getLast? with
    | some db => { s with history := s.history ++ [write db] }.toStage id (.bumps s.history.length)
    | none => s
  | .bumps m => { s with bumps := s.bumps ++ [m] }.endTask id
  | .readsVersion => s.toStage id (.gets s.version)
  | .gets version =>
    match s.store (versionedKey reads.digest "master_data" version t.parts) with
    | some result => s.answer id t result
    | none => s.toStage id (.loads [])
  | .loads read => s.loadStep reads id t read
  | .rereadsVersion result => s.toStage id (.sets s.version result)
  | .sets version result =>
    { s with
      store := Function.update s.store (versionedKey reads.digest "master_data" version t.parts) (some result)
      }.answer id t result

def step [DecidableEq δ] (reads : ReferenceReads Db Value δ) (s : CacheWorld Db Value δ) :
    CacheAction Db → CacheWorld Db Value δ
  | .startWrite write => { s with tasks := s.tasks.insert ⟨"", [], [], .commits write⟩ }
  | .startRead kind rest => { s with tasks := s.tasks.insert ⟨kind, rest, s.bumps, .readsVersion⟩ }
  | .advance id =>
    match s.tasks.get? id with
    | some t => s.advance reads id t
    | none => s
  | .cancel id => s.endTask id

def StoresAt (s : CacheWorld Db Value δ) : CacheStage Db Value → Prop
  | .rereadsVersion result => ∀ m ∈ s.bumps, result.Contains m
  | _ => True

/-- When `set_json` reads the version, every write that was bumped is in what was loaded. -/
def StoresCurrent (s : CacheWorld Db Value δ) : CacheAction Db → Prop
  | .advance id => ∀ t ∈ s.tasks.get? id, StoresAt s t.stage
  | _ => True

instance (s : CacheWorld Db Value δ) : DecidablePred (StoresAt s)
  | .rereadsVersion _ => inferInstanceAs (Decidable (∀ m ∈ s.bumps, _))
  | .commits _ | .bumps _ | .readsVersion | .gets _ | .loads _ | .sets _ _ => .isTrue trivial

instance (s : CacheWorld Db Value δ) : DecidablePred (StoresCurrent s)
  | .advance id => inferInstanceAs (Decidable (∀ t ∈ s.tasks.get? id, StoresAt s t.stage))
  | .startWrite _ | .startRead _ _ | .cancel _ => .isTrue trivial

/-! ## Invariant -/

section
variable (reads : ReferenceReads Db Value δ)

/-- The value is what its load yields from the states that its statements saw. -/
def Loads (s : CacheWorld Db Value δ) (c : LoadedValue Value) : Prop :=
  ∃ states, List.Forall₂ (fun i db => s.history[i]? = some db) c.readAt states ∧ reads.load c.parts states = .found c.value

def TaskSound (s : CacheWorld Db Value δ) (t : CacheTask Db Value) : Prop :=
  (∀ m ∈ t.since, m ∈ s.bumps) ∧
  match t.stage with
  | .commits _ | .readsVersion => True
  | .bumps m => m < s.history.length
  | .gets version => ∀ m ∈ t.since, m ∈ s.bumps.take version
  | .loads read => ∀ r ∈ read, s.history[r.1]? = some r.2 ∧ ∀ m ∈ t.since, m ≤ r.1
  | .rereadsVersion result => Loads reads s result ∧ ∀ m ∈ t.since, result.Contains m
  | .sets version result => Loads reads s result ∧ (∀ m ∈ t.since, result.Contains m) ∧ version ≤ s.version ∧
      ∀ m ∈ s.bumps.take version, result.Contains m

/-- An entry has every write that was bumped at its version. -/
structure Current (s : CacheWorld Db Value δ) : Prop where
  started : 0 < s.history.length
  committed : ∀ m ∈ s.bumps, m < s.history.length
  entries : ∀ version kind rest c, s.store (versionedKey reads.digest "master_data" version (kind :: rest)) = some c →
    version ≤ s.version ∧ Loads reads s c ∧ ∀ m ∈ s.bumps.take version, c.Contains m
  tasks : ∀ id t, s.tasks.get? id = some t → TaskSound reads s t
  returned : ∀ r ∈ s.returned, Loads reads s r.result ∧ ∀ m ∈ r.since, r.result.Contains m

variable {reads} {s s' : CacheWorld Db Value δ} {id : ℕ} {t : CacheTask Db Value}

theorem current_initial (db : Db) : Current reads (initial db) where
  started := Nat.one_pos
  committed _ hm := by cases hm
  entries _ _ _ _ hc := by cases hc
  tasks _ _ hid := by cases hid
  returned _ hr := by cases hr

/-! ### What a step leaves alone -/

theorem Loads.grow {c : LoadedValue Value} (h : Loads reads s c) (hhistory : s.history <+: s'.history) :
    Loads reads s' c := by
  obtain ⟨states, hstates, hload⟩ := h
  refine ⟨states, hstates.imp fun i db hdb => ?_, hload⟩
  obtain ⟨later, hlater⟩ := hhistory
  rw [← hlater, List.getElem?_append_left (List.getElem?_eq_some_iff.1 hdb).1]
  exact hdb

theorem take_bumps {α : Type} {bumps bumps' : List α} (hbumps : bumps <+: bumps') {version : ℕ}
    (hversion : version ≤ bumps.length) : bumps'.take version = bumps.take version := by
  obtain ⟨later, hlater⟩ := hbumps
  rw [← hlater]
  exact List.take_append_of_le_length hversion

theorem TaskSound.grow (h : TaskSound reads s t) (hhistory : s.history <+: s'.history)
    (hbumps : s.bumps <+: s'.bumps) : TaskSound reads s' t := by
  refine ⟨fun m hm => hbumps.subset (h.1 m hm), ?_⟩
  have hstage := h.2
  cases hs : t.stage with
  | commits write => trivial
  | readsVersion => trivial
  | bumps m =>
    rw [hs] at hstage
    exact hstage.trans_le hhistory.length_le
  | gets version =>
    rw [hs] at hstage
    exact fun m hm => (hbumps.take version).subset (hstage m hm)
  | loads read =>
    rw [hs] at hstage
    intro r hr
    obtain ⟨hdb, hsince⟩ := hstage r hr
    obtain ⟨later, hlater⟩ := hhistory
    refine ⟨?_, hsince⟩
    rw [← hlater, List.getElem?_append_left (List.getElem?_eq_some_iff.1 hdb).1]
    exact hdb
  | rereadsVersion result =>
    rw [hs] at hstage
    exact ⟨hstage.1.grow hhistory, hstage.2⟩
  | sets version result =>
    rw [hs] at hstage
    obtain ⟨hloads, hsince, hversion, htake⟩ := hstage
    refine ⟨hloads.grow hhistory, hsince, hversion.trans hbumps.length_le, ?_⟩
    rw [take_bumps hbumps hversion]
    exact htake

theorem Current.toStage (h : Current reads s) (hid : s.tasks.get? id = some t) {stage : CacheStage Db Value}
    (hok : TaskSound reads s { t with stage := stage }) : Current reads (s.toStage id stage) where
  started := h.started
  committed := h.committed
  entries := h.entries
  tasks := Table.forall_modify hid h.tasks hok
  returned := h.returned

theorem Current.endTask (h : Current reads s) (id : ℕ) : Current reads (s.endTask id) where
  started := h.started
  committed := h.committed
  entries := h.entries
  tasks i t hi := by
    have hget : (s.tasks.erase fun i _ => i == id).get? i = some t := hi
    rw [Table.get?_erase, Option.filter_eq_some_iff] at hget
    exact h.tasks i t hget.1
  returned := h.returned

theorem Current.answer (h : Current reads s) {result : LoadedValue Value} (hloads : Loads reads s result)
    (hsince : ∀ m ∈ t.since, result.Contains m) : Current reads (s.answer id t result) where
  started := h.started
  committed := h.committed
  entries := h.entries
  tasks := (h.endTask id).tasks
  returned r hr := by
    rcases List.mem_append.1 hr with hr | hr
    · exact h.returned r hr
    · rw [List.mem_singleton.1 hr]
      exact ⟨hloads, hsince⟩

theorem Current.insert (h : Current reads s) (hok : TaskSound reads s t) :
    Current reads { s with tasks := s.tasks.insert t } where
  started := h.started
  committed := h.committed
  entries := h.entries
  tasks := Table.forall_insert h.tasks hok
  returned := h.returned

/-- Commits and bumps only add. -/
theorem Current.grow (h : Current reads s) {history : List Db} {bumps : List ℕ} (hhistory : s.history <+: history)
    (hbumps : s.bumps <+: bumps) (hcommitted : ∀ m ∈ bumps, m < history.length) :
    Current reads { s with history := history, bumps := bumps } where
  started := h.started.trans_le hhistory.length_le
  committed := hcommitted
  entries version kind rest c hc := by
    obtain ⟨hversion, hloads, htake⟩ := h.entries version kind rest c hc
    refine ⟨hversion.trans hbumps.length_le, hloads.grow hhistory, ?_⟩
    have hsame : bumps.take version = s.bumps.take version := take_bumps hbumps hversion
    change ∀ m ∈ bumps.take version, c.Contains m
    rw [hsame]
    exact htake
  tasks i t hi := (h.tasks i t hi).grow hhistory hbumps
  returned r hr := ⟨(h.returned r hr).1.grow hhistory, (h.returned r hr).2⟩

/-! ### Steps and runs -/

theorem Current.commits (h : Current reads s) (hid : s.tasks.get? id = some t) (db : Db) :
    Current reads ({ s with history := s.history ++ [db] }.toStage id (.bumps s.history.length)) := by
  have hlonger : s.history <+: s.history ++ [db] := List.prefix_append _ _
  have hgrown := h.grow hlonger (List.prefix_refl s.bumps) fun m hm => (h.committed m hm).trans_le hlonger.length_le
  refine hgrown.toStage (t := t) hid ⟨(h.tasks id t hid).1, ?_⟩
  simp

theorem Current.bump (h : Current reads s) {m : ℕ} (hm : m < s.history.length) :
    Current reads ({ s with bumps := s.bumps ++ [m] }.endTask id) := by
  have hgrown := h.grow (List.prefix_refl s.history) (List.prefix_append s.bumps [m]) (by
    intro k hk
    rcases List.mem_append.1 hk with hk | hk
    · exact h.committed k hk
    · rw [List.mem_singleton.1 hk]
      exact hm)
  exact hgrown.endTask id

/-- The newest state has every write that was bumped. -/
theorem Current.read (h : Current reads s) (hid : s.tasks.get? id = some t) {read : List (ℕ × Db)}
    (hstage : t.stage = .loads read) {db : Db} (hdb : s.history.getLast? = some db) :
    Current reads (s.toStage id (.loads (read ++ [(s.newest, db)]))) := by
  have hok := h.tasks id t hid
  have hread := hok.2
  rw [hstage] at hread
  refine h.toStage hid ⟨hok.1, ?_⟩
  intro r hr
  rcases List.mem_append.1 hr with hr | hr
  · exact hread r hr
  · rw [List.mem_singleton.1 hr]
    refine ⟨?_, fun m hm => Nat.le_sub_one_of_lt (h.committed m (hok.1 m hm))⟩
    rw [← hdb, List.getLast?_eq_getElem?]
    rfl

theorem Current.found (h : Current reads s) (hid : s.tasks.get? id = some t) {read : List (ℕ × Db)}
    (hstage : t.stage = .loads read) {value : Value} (hload : reads.load t.parts (read.map Prod.snd) = .found value) :
    Current reads (s.toStage id (.rereadsVersion ⟨t.parts, value, read.map Prod.fst⟩)) := by
  have hok := h.tasks id t hid
  have hread := hok.2
  rw [hstage] at hread
  refine h.toStage hid ⟨hok.1, ⟨read.map Prod.snd, ?_, hload⟩, ?_⟩
  · rw [List.forall₂_map_left_iff, List.forall₂_map_right_iff, List.forall₂_same]
    exact fun r hr => (hread r hr).1
  · intro m hm i hi
    obtain ⟨r, hr, rfl⟩ := List.mem_map.1 hi
    exact (hread r hr).2 m hm

theorem Current.loadStep (h : Current reads s) (hid : s.tasks.get? id = some t) {read : List (ℕ × Db)}
    (hstage : t.stage = .loads read) : Current reads (s.loadStep reads id t read) := by
  unfold CacheWorld.loadStep
  split
  · split
    · next hdb => exact h.read hid hstage hdb
    · exact h
  · next hload => exact h.found hid hstage hload
  · exact h.endTask id

variable [DecidableEq δ]

/-- An entry that is written under a version has what was bumped at it. -/
theorem Current.store (hdigest : Function.Injective reads.digest) (h : Current reads s) {version : ℕ}
    {result : LoadedValue Value} {kind : String} {rest : List String} (hloads : Loads reads s result)
    (hversion : version ≤ s.version) (htake : ∀ m ∈ s.bumps.take version, result.Contains m) :
    Current reads { s with
      store := Function.update s.store (versionedKey reads.digest "master_data" version (kind :: rest)) (some result)
      } where
  started := h.started
  committed := h.committed
  entries v k r c hc := by
    by_cases hkey : versionedKey reads.digest "master_data" v (k :: r) =
        versionedKey reads.digest "master_data" version (kind :: rest)
    · obtain ⟨rfl, -⟩ := versionedKey_injective hdigest hkey
      simp only [hkey, Function.update_self, Option.some.injEq] at hc
      subst hc
      exact ⟨hversion, hloads, htake⟩
    · simp only [ne_eq, hkey, not_false_eq_true, Function.update_of_ne] at hc
      exact h.entries v k r c hc
  tasks := h.tasks
  returned := h.returned

theorem Current.advance (hdigest : Function.Injective reads.digest) (h : Current reads s)
    (hid : s.tasks.get? id = some t) (hcurrent : StoresCurrent s (.advance id)) :
    Current reads (s.advance reads id t) := by
  have hok := h.tasks id t hid
  have hread := hok.2
  unfold CacheWorld.advance
  cases hs : t.stage with
  | commits write =>
    dsimp only
    split
    · exact h.commits hid _
    · exact h
  | bumps m =>
    rw [hs] at hread
    exact h.bump hread
  | readsVersion =>
    refine h.toStage hid ⟨hok.1, fun m hm => ?_⟩
    rw [version, List.take_length]
    exact hok.1 m hm
  | gets version =>
    rw [hs] at hread
    dsimp only
    split
    · next hstored =>
      obtain ⟨-, hloads, htake⟩ := h.entries version t.kind t.rest _ hstored
      exact h.answer hloads fun m hm => htake m (hread m hm)
    · exact h.toStage hid ⟨hok.1, fun _ hr => by cases hr⟩
  | loads read => exact h.loadStep hid hs
  | rereadsVersion result =>
    rw [hs] at hread
    have hall : ∀ m ∈ s.bumps, result.Contains m := by
      have := hcurrent t hid
      rwa [hs] at this
    exact h.toStage hid ⟨hok.1, hread.1, hread.2, le_rfl, fun m hm => hall m (List.mem_of_mem_take hm)⟩
  | sets version result =>
    rw [hs] at hread
    obtain ⟨hloads, hsince, hversion, htake⟩ := hread
    exact (h.store hdigest hloads hversion htake).answer hloads hsince

/-- **Step lemma.** -/
theorem Current.step (hdigest : Function.Injective reads.digest) (h : Current reads s) (a : CacheAction Db)
    (hcurrent : StoresCurrent s a) : Current reads (s.step reads a) := by
  cases a with
  | startWrite write => exact h.insert ⟨fun _ hm => (by cases hm), trivial⟩
  | startRead kind rest => exact h.insert ⟨fun _ hm => hm, trivial⟩
  | advance id =>
    simp only [CacheWorld.step]
    split
    · next t hid => exact h.advance hdigest hid hcurrent
    · exact h
  | cancel id => exact h.endTask id

/-- **Reads after a bump.** In a run in which every load that is stored has all that was bumped when `set_json` reads the
version, what a read returns is loaded from states that have every write that was bumped before the read began. -/
theorem cached_reads_current (hdigest : Function.Injective reads.digest) (db : Db) (as : List (CacheAction Db))
    (hmeets : Meets (step reads) StoresCurrent (initial db) as) :
    ∀ r ∈ (run (step reads) (initial db) as).returned,
      Loads reads (run (step reads) (initial db) as) r.result ∧ ∀ m ∈ r.since, r.result.Contains m :=
  (run_invariant_of_meets (Current reads) (fun _ a h hC => h.step hdigest a hC) (current_initial db) hmeets).returned

end

/-! ### A slow reader -/

/-- One number in the database, which every request reads. -/
def numberReads : ReferenceReads ℕ ℕ String where
  digest text := text
  load _ states := match states with
    | [] => .more
    | n :: _ => .found n

def readAlone (id : ℕ) : List (CacheAction ℕ) :=
  [.startRead "detail" ["currencies", "7"], .advance id, .advance id]

def writeOne (id : ℕ) : List (CacheAction ℕ) := [.startWrite fun _ => 1, .advance id, .advance id]

/-- A reader stores what it loaded after the write, and the next reader finds it. -/
theorem cached_reads_current_one :
    Meets (step numberReads) StoresCurrent (initial 0)
      (writeOne 1 ++ readAlone 2 ++ [.advance 2, .advance 2, .advance 2, .advance 2] ++ readAlone 3) ∧
    ∀ r ∈ (run (step numberReads) (initial 0)
      (writeOne 1 ++ readAlone 2 ++ [.advance 2, .advance 2, .advance 2, .advance 2] ++ readAlone 3)).returned,
      Loads numberReads (run (step numberReads) (initial 0)
        (writeOne 1 ++ readAlone 2 ++ [.advance 2, .advance 2, .advance 2, .advance 2] ++ readAlone 3)) r.result ∧
      ∀ m ∈ r.since, r.result.Contains m := by
  have hmeets : Meets (step numberReads) StoresCurrent (initial 0)
      (writeOne 1 ++ readAlone 2 ++ [.advance 2, .advance 2, .advance 2, .advance 2] ++ readAlone 3) := by
    decide +kernel
  exact ⟨hmeets, cached_reads_current (fun _ _ h => h) 0 _ hmeets⟩

/-- A reader loads before the write and stores after its bump: the next reader finds the old value. -/
theorem slow_reader_stale : Function.Injective numberReads.digest ∧
    ∃ r ∈ (run (step numberReads) (initial 0)
      (readAlone 1 ++ [.advance 1] ++ writeOne 2 ++ [.advance 1, .advance 1, .advance 1] ++ readAlone 3)).returned,
      r.result.value = 0 ∧ ∃ m ∈ r.since, ¬r.result.Contains m := by
  exact ⟨fun _ _ h => h, by decide +kernel⟩

end CacheWorld
end LcsSystem
