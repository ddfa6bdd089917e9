import LcsSystem.Lib.Table
import LcsSystem.Lib.Transition

/-!
# Transactions that run statement by statement

Several clients on one database. An open transaction is the statement it runs next, with what its
earlier statements have read. A statement sees the committed database of its moment (READ COMMITTED);
the writes of a transaction and its commit are one step. What a transaction has locked stays locked
until it ends, and a statement that needs a locked key waits.

`Rules` are the obligations of an invariant of the committed database and one of each open transaction.
`Rules.run` is what they give: both hold after every interleaving.
-/

namespace Transactions
open Relational Transition

/-- What the next statement of a transaction comes to. -/
inductive Outcome (σ τ ε : Type*)
  | waits
  | continues (t : τ)
  | ends
  | commits (db : σ) (event : Option ε)

/-- A kind of request: how it begins, what it holds, and its next statement, given which keys no other
transaction holds. -/
structure Protocol (σ ρ τ κ ε : Type*) where
  start : ρ → τ
  locks : τ → List κ
  next : σ → (κ → Bool) → τ → Outcome σ τ ε

structure System (σ τ ε : Type*) where
  db : σ
  txns : Table τ
  log : List ε

/-- A new request, the next statement of a transaction, or the end of one that gives up (a lost
connection, a timeout, the victim of a deadlock). -/
inductive Action (ρ : Type*)
  | start (r : ρ)
  | advance (id : ℕ)
  | abandon (id : ℕ)

variable {σ ρ τ κ ε : Type*}

/-- A committed database without open transactions. -/
def System.idle (db : σ) : System σ τ ε := ⟨db, .empty, []⟩

def System.finish (s : System σ τ ε) (id : ℕ) : System σ τ ε := { s with txns := s.txns.erase fun i _ => i == id }

def System.apply (s : System σ τ ε) (id : ℕ) : Outcome σ τ ε → System σ τ ε
  | .waits => s
  | .continues t => { s with txns := s.txns.modify id fun _ => t }
  | .ends => s.finish id
  | .commits db event => ⟨db, (s.finish id).txns, s.log ++ event.toList⟩

namespace Protocol

/-- No transaction but `id` holds the key. -/
def free [DecidableEq κ] (P : Protocol σ ρ τ κ ε) (s : System σ τ ε) (id : ℕ) (k : κ) : Bool :=
  s.txns.rows.all fun r => r.1 == id || !decide (k ∈ P.locks r.2)

def step [DecidableEq κ] (P : Protocol σ ρ τ κ ε) (s : System σ τ ε) : Action ρ → System σ τ ε
  | .start r => { s with txns := s.txns.insert (P.start r) }
  | .advance id =>
    match s.txns.get? id with
    | some t => s.apply id (P.next s.db (P.free s id) t)
    | none => s
  | .abandon id => s.finish id

/-- A transaction that no other one interrupts: the database it leaves, after at most `n` statements. -/
def alone (P : Protocol σ ρ τ κ ε) : ℕ → σ → τ → σ
  | 0, db, _ => db
  | n + 1, db, t =>
    match P.next db (fun _ => true) t with
    | .continues t' => alone P n db t'
    | .commits db' _ => db'
    | .waits | .ends => db

/-- The event that such a transaction commits. -/
def answer (P : Protocol σ ρ τ κ ε) : ℕ → σ → τ → Option ε
  | 0, _, _ => none
  | n + 1, db, t =>
    match P.next db (fun _ => true) t with
    | .continues t' => answer P n db t'
    | .commits _ event => event
    | .waits | .ends => none

/-- The condition `C` holds of every transaction at the statement it runs. -/
def Admits (C : σ → List ε → τ → Prop) (s : System σ τ ε) : Action ρ → Prop
  | .advance id => ∀ t ∈ s.txns.get? id, C s.db s.log t
  | _ => True

instance (C : σ → List ε → τ → Prop) [∀ db log t, Decidable (C db log t)] (s : System σ τ ε) :
    ∀ a : Action ρ, Decidable (Admits C s a)
  | .advance _ => inferInstanceAs (Decidable (∀ t ∈ _, _))
  | .start _ | .abandon _ => .isTrue trivial

end Protocol

/-! ## Statements -/

namespace Outcome

/-- The transaction ends at an error, otherwise `f` follows. -/
def orEnd {δ α : Type*} (f : α → Outcome σ τ ε) : Except δ α → Outcome σ τ ε
  | .ok a => f a
  | .error _ => .ends

/-- `SELECT … FOR UPDATE` of the key `k`, and what follows it. -/
def whenFree (free : κ → Bool) (k : κ) (o : Outcome σ τ ε) : Outcome σ τ ε := if free k then o else .waits

@[simp] theorem orEnd_eq_continues {δ α : Type*} {f : α → Outcome σ τ ε} {r : Except δ α} {t : τ} :
    orEnd f r = .continues t ↔ ∃ a, r = .ok a ∧ f a = .continues t := by
  cases r <;> simp [orEnd]

@[simp] theorem orEnd_eq_commits {δ α : Type*} {f : α → Outcome σ τ ε} {r : Except δ α} {db : σ} {event : Option ε} :
    orEnd f r = .commits db event ↔ ∃ a, r = .ok a ∧ f a = .commits db event := by
  cases r <;> simp [orEnd]

@[simp] theorem whenFree_eq_continues {free : κ → Bool} {k : κ} {o : Outcome σ τ ε} {t : τ} :
    whenFree free k o = .continues t ↔ free k = true ∧ o = .continues t := by
  unfold whenFree
  split <;> simp_all

@[simp] theorem whenFree_eq_commits {free : κ → Bool} {k : κ} {o : Outcome σ τ ε} {db : σ} {event : Option ε} :
    whenFree free k o = .commits db event ↔ free k = true ∧ o = .commits db event := by
  unfold whenFree
  split <;> simp_all

end Outcome

/-! ## Rules -/

/-- What makes `I` an invariant of the database and the log, and `T` one of each open transaction, as long
as every statement meets `C`. -/
structure Rules (P : Protocol σ ρ τ κ ε) (I : σ → List ε → Prop) (T : σ → τ → Prop) (C : σ → List ε → τ → Prop) :
    Prop where
  start_locks : ∀ r, P.locks (P.start r) = []
  start : ∀ db r, T db (P.start r)
  /-- A lock is only taken when it is free. -/
  acquires : ∀ {db free t t'}, P.next db free t = .continues t' → ∀ k ∈ P.locks t', k ∈ P.locks t ∨ free k = true
  continues : ∀ {db log free t t'}, I db log → T db t → C db log t → P.next db free t = .continues t' → T db t'
  commits : ∀ {db log free t db' event}, I db log → T db t → C db log t →
    P.next db free t = .commits db' event → I db' (log ++ event.toList)
  /-- A commit leaves alone what another transaction relies on: it has none of the locks of the other. -/
  frame : ∀ {db log free t u db' event}, I db log → T db t → T db u → C db log t →
    (∀ k ∈ P.locks u, k ∉ P.locks t ∧ free k = false) → P.next db free t = .commits db' event → T db' u

/-- The two invariants, and that no key is locked twice. -/
structure Sound (P : Protocol σ ρ τ κ ε) (I : σ → List ε → Prop) (T : σ → τ → Prop) (s : System σ τ ε) : Prop where
  db : I s.db s.log
  txns : ∀ i t, s.txns.get? i = some t → T s.db t
  exclusive : ∀ i j t u, s.txns.get? i = some t → s.txns.get? j = some u → i ≠ j → ∀ k ∈ P.locks t, k ∉ P.locks u

theorem sound_idle (P : Protocol σ ρ τ κ ε) {I : σ → List ε → Prop} (T : σ → τ → Prop) {db : σ} (h : I db []) :
    Sound P I T (.idle db) where
  db := h
  txns _ _ hi := by cases hi
  exclusive _ _ _ _ hi := by cases hi

theorem get?_finish {s : System σ τ ε} {id j : ℕ} {t : τ} (h : (s.finish id).txns.get? j = some t) :
    j ≠ id ∧ s.txns.get? j = some t := by
  rw [System.finish, Table.get?_erase, Option.filter_eq_some_iff] at h
  exact ⟨by simpa using h.2, h.1⟩

section
variable {P : Protocol σ ρ τ κ ε} {I : σ → List ε → Prop} {T : σ → τ → Prop} {C : σ → List ε → τ → Prop}
  {s : System σ τ ε}

theorem Sound.insert (hs : Sound P I T s) {t : τ} (ht : T s.db t) (hlocks : P.locks t = []) :
    Sound P I T { s with txns := s.txns.insert t } where
  db := hs.db
  txns := Table.forall_insert hs.txns ht
  exclusive i j ti tj hi hj hne k hki hkj := by
    rw [Table.get?_insert] at hi hj
    split at hi
    · cases hi
      rw [hlocks] at hki
      cases hki
    · split at hj
      · cases hj
        rw [hlocks] at hkj
        cases hkj
      · exact hs.exclusive i j ti tj hi hj hne k hki hkj

theorem Sound.finish (hs : Sound P I T s) (id : ℕ) : Sound P I T (s.finish id) where
  db := hs.db
  txns i t hi := hs.txns i t (get?_finish hi).2
  exclusive i j t u hi hj := hs.exclusive i j t u (get?_finish hi).2 (get?_finish hj).2

theorem alone_continues {n : ℕ} {db : σ} {t : τ} (t' : τ) (h : P.next db (fun _ => true) t = .continues t') :
    P.alone (n + 1) db t = P.alone n db t' := by
  simp only [Protocol.alone, h]

theorem alone_commits {n : ℕ} {db : σ} {t : τ} (db' : σ) (event : Option ε)
    (h : P.next db (fun _ => true) t = .commits db' event) : P.alone (n + 1) db t = db' := by
  simp only [Protocol.alone, h]

theorem alone_ends {n : ℕ} {db : σ} {t : τ} (h : P.next db (fun _ => true) t = .ends) :
    P.alone (n + 1) db t = db := by
  simp only [Protocol.alone, h]

/-- A condition that always holds. -/
theorem meets_of_always [DecidableEq κ] (P : Protocol σ ρ τ κ ε) (hC : ∀ db log t, C db log t) (s : System σ τ ε)
    (as : List (Action ρ)) : Meets P.step (Protocol.Admits C) s as := by
  refine meets_of_forall_mem fun s a _ => ?_
  cases a with
  | start r => trivial
  | advance id => exact fun t _ => hC s.db s.log t
  | abandon id => trivial

/-- An answer comes from a commit, of a transaction that has read what is there. -/
theorem Rules.answer (rules : Rules P I T C) (hC : ∀ db log t, C db log t) {db : σ} {log : List ε} (hI : I db log)
    {n : ℕ} {t : τ} {event : ε} (ht : T db t) (h : P.answer n db t = some event) :
    ∃ t' db', T db t' ∧ P.next db (fun _ => true) t' = .commits db' (some event) := by
  induction n generalizing t with
  | zero => cases h
  | succ n ih =>
    rw [Protocol.answer] at h
    split at h
    · next t' hnext => exact ih (rules.continues hI ht (hC db log t) hnext) h
    · next db' event' hnext =>
      subst h
      exact ⟨t, db', ht, hnext⟩
    · cases h
    · cases h

variable [DecidableEq κ]

theorem notMem_locks_of_free {id j : ℕ} {u : τ} {k : κ} (hfree : P.free s id k = true)
    (hj : s.txns.get? j = some u) (hne : j ≠ id) : k ∉ P.locks u := by
  have hall := List.all_eq_true.1 hfree _ (Table.get?_eq_some.1 hj)
  simpa [hne] using hall

theorem free_eq_false_of_locks {id j : ℕ} {u : τ} {k : κ} (hj : s.txns.get? j = some u) (hne : j ≠ id)
    (hk : k ∈ P.locks u) : P.free s id k = false := by
  cases hfree : P.free s id k with
  | false => rfl
  | true => exact absurd hk (notMem_locks_of_free hfree hj hne)

theorem Sound.modify (hs : Sound P I T s) {id : ℕ} {t t' : τ} (hid : s.txns.get? id = some t) (ht : T s.db t')
    (hlocks : ∀ k ∈ P.locks t', k ∈ P.locks t ∨ P.free s id k = true) :
    Sound P I T { s with txns := s.txns.modify id fun _ => t' } where
  db := hs.db
  txns := Table.forall_modify hid hs.txns ht
  exclusive := by
    have hother {j : ℕ} {u : τ} {k : κ} (hj : s.txns.get? j = some u) (hne : j ≠ id) (hk : k ∈ P.locks t') :
        k ∉ P.locks u := by
      rcases hlocks k hk with hold | hfree
      · exact hs.exclusive id j t u hid hj (Ne.symm hne) k hold
      · exact notMem_locks_of_free hfree hj hne
    intro i j ti tj hi hj hne k hki hkj
    rw [Table.get?_modify] at hi hj
    split at hi
    · next hi' =>
      rw [if_neg (fun hj' => hne (hi'.trans hj'.symm))] at hj
      obtain ⟨_, -, rfl⟩ := Option.map_eq_some_iff.1 hi
      exact hother hj (fun hj' => hne (hi'.trans hj'.symm)) hki hkj
    · next hi' =>
      split at hj
      · obtain ⟨_, -, rfl⟩ := Option.map_eq_some_iff.1 hj
        exact hother hi hi' hkj hki
      · exact hs.exclusive i j ti tj hi hj hne k hki hkj

/-- A commit: what the other transactions rely on is kept, because their locks are apart. -/
theorem Sound.commit (rules : Rules P I T C) (hs : Sound P I T s) {id : ℕ} {t : τ} {db' : σ} {event : Option ε}
    (hid : s.txns.get? id = some t) (hC : C s.db s.log t) (h : P.next s.db (P.free s id) t = .commits db' event) :
    Sound P I T ⟨db', (s.finish id).txns, s.log ++ event.toList⟩ where
  db := rules.commits hs.db (hs.txns id t hid) hC h
  txns j u hj := by
    obtain ⟨hne, hj⟩ := get?_finish hj
    refine rules.frame hs.db (hs.txns id t hid) (hs.txns j u hj) hC (fun k hk => ⟨?_, ?_⟩) h
    · exact hs.exclusive j id u t hj hid hne k hk
    · exact free_eq_false_of_locks hj hne hk
  exclusive := (hs.finish id).exclusive

theorem step_advance {id : ℕ} {t : τ} (hid : s.txns.get? id = some t) :
    P.step s (.advance id) = s.apply id (P.next s.db (P.free s id) t) := by
  simp only [Protocol.step, hid]

theorem step_advance_none {id : ℕ} (hid : s.txns.get? id = none) : P.step s (.advance id) = s := by
  simp only [Protocol.step, hid]

/-- **Step lemma.** -/
theorem Rules.step (rules : Rules P I T C) (s : System σ τ ε) (a : Action ρ) (hs : Sound P I T s)
    (ha : Protocol.Admits C s a) : Sound P I T (P.step s a) := by
  cases a with
  | start r => exact hs.insert (rules.start s.db r) (rules.start_locks r)
  | abandon id => exact hs.finish id
  | advance id =>
    cases hid : s.txns.get? id with
    | none =>
      rw [step_advance_none hid]
      exact hs
    | some t =>
      rw [step_advance hid]
      cases h : P.next s.db (P.free s id) t with
      | waits => exact hs
      | continues t' => exact hs.modify hid (rules.continues hs.db (hs.txns id t hid) (ha t hid) h) (rules.acquires h)
      | ends => exact hs.finish id
      | commits db' event => exact hs.commit rules hid (ha t hid) h

/-- **Run lemma.** -/
theorem Rules.run (rules : Rules P I T C) {s : System σ τ ε} {as : List (Action ρ)} (hs : Sound P I T s)
    (hmeets : Meets P.step (Protocol.Admits C) s as) : Sound P I T (Transition.run P.step s as) :=
  run_invariant_of_meets (Sound P I T) rules.step hs hmeets

/-- What every commit relates, every run relates: a preorder of databases with their logs. -/
theorem Rules.run_relation (rules : Rules P I T C) (R : σ × List ε → σ × List ε → Prop) (refl : ∀ a, R a a)
    (trans : ∀ {a b c}, R a b → R b c → R a c)
    (commits : ∀ {db log free t db' event}, I db log → T db t → C db log t → P.next db free t = .commits db' event →
      R (db, log) (db', log ++ event.toList))
    {as : List (Action ρ)} (hs : Sound P I T s) (hmeets : Meets P.step (Protocol.Admits C) s as) :
    R (s.db, s.log) ((Transition.run P.step s as).db, (Transition.run P.step s as).log) := by
  refine run_relation_of_meets (Sound P I T) (fun s s' => R (s.db, s.log) (s'.db, s'.log)) (fun s => refl _) trans
    rules.step (fun s a hs ha => ?_) hs hmeets
  cases a with
  | start r => exact refl _
  | abandon id => exact refl _
  | advance id =>
    cases hid : s.txns.get? id with
    | none =>
      rw [step_advance_none hid]
      exact refl _
    | some t =>
      rw [step_advance hid]
      cases h : P.next s.db (P.free s id) t with
      | waits => exact refl _
      | continues t' => exact refl _
      | ends => exact refl _
      | commits db' event => exact commits hs.db (hs.txns id t hid) (ha t hid) h

end
end Transactions
