import LcsSystem.Finance.Settlement

/-!
# What a transaction may rely on

`Continues` and `Finishes` say once what a statement can do. Two facts then hold in every run of the
settlement system: no row is held twice (`Exclusive`), and the rows a transaction has locked are still
committed as it read them (`Txn.Holds`). The counterparties that a reversal read are not locked, and
nothing is said about them here.
-/

namespace LcsSystem
open Relational DecimalArith Checks Transition

/-! ## Outcomes -/

@[simp] theorem ofResult_eq_continues {α : Type} {f : α → Outcome} {r : Result α} {t : Txn} :
    Outcome.ofResult f r = .continues t ↔ ∃ a, r = .ok a ∧ f a = .continues t := by
  cases r <;> simp [Outcome.ofResult]

@[simp] theorem ofResult_eq_finishes {α : Type} {f : α → Outcome} {r : Result α} {db : Db} {event : Option Event} :
    Outcome.ofResult f r = .finishes db event ↔ ∃ a, r = .ok a ∧ f a = .finishes db event := by
  cases r <;> simp [Outcome.ofResult]

/-- The payload passed `ALLOCATION_WRITE_SCHEMA`. -/
def AllocationRequest.Accepted (r : AllocationRequest) : Prop := allocationWriteSchema r.payload = []

section
variable (db : Db) (free : LockedRow → Bool)

/-- From one statement to the next. -/
inductive Continues : Txn → Txn → Prop
  | replay {r : AllocationRequest} {existing : FinancialDocumentAllocation}
      (found : allocationOfKey db r.key = some existing) : Continues (.findKey r) (.replay r existing)
  | lockPayment {r : AllocationRequest} (accepted : r.Accepted) : Continues (.findKey r) (.lockPayment r)
  | lockTarget {r : AllocationRequest} {payment : Document} (lock : free (.document r.paymentId) = true)
      (found : db.documents.get? r.paymentId = some payment) : Continues (.lockPayment r) (.lockTarget r payment)
  | sumAllocations {r : AllocationRequest} {payment : Document} {targetId : ℕ} {target : Document}
      (asked : r.payload.targetDocumentId.get? = some targetId) (lock : free (.document targetId) = true)
      (found : db.documents.get? targetId = some target) (allocatable : Allocatable payment target r.amount) :
      Continues (.lockTarget r payment) (.sumAllocations r payment targetId target)
  | storeAllocation (r : AllocationRequest) (payment : Document) (targetId : ℕ) (target : Document) :
      Continues (.sumAllocations r payment targetId target)
        (.storeAllocation r payment targetId target (paidOut db.allocations.values r.paymentId))
  | lockSequence {r : ReversalRequest} {d : Document} (lock : free (.document r.documentId) = true)
      (found : db.documents.get? r.documentId = some d) (posted : d.status = .posted) :
      Continues (.lockReversed r) (.lockSequence r)
  | readAllocations {r : ReversalRequest} (lock : free (.journalSequence r.env.utcYear) = true) :
      Continues (.lockSequence r) (.readAllocations r)
  | unwind (r : ReversalRequest) :
      Continues (.readAllocations r)
        (.unwind r (allocationsOf db r.documentId) (counterparties r.documentId (allocationsOf db r.documentId)) [])
  | readNext (r : ReversalRequest) (allocations : List (ℕ × FinancialDocumentAllocation)) (other : ℕ)
      (pending : List ℕ) (readSoFar : List (ℕ × Money)) :
      Continues (.unwind r allocations (other :: pending) readSoFar)
        (.unwind r allocations pending (readSoFar ++ (readPaid db other).toList))

/-- The last statement of a request that is not refused. -/
inductive Finishes : Txn → Db → Option Event → Prop
  | replay (r : AllocationRequest) (existing : FinancialDocumentAllocation) :
      Finishes (.replay r existing) db (some (.replayed r (replayResult db existing)))
  | allocation {r : AllocationRequest} {payment : Document} {targetId : ℕ} {target : Document} (allocatedSoFar : ℚ)
      (w : AllocationWrite r.env db r.paymentId targetId payment target r.amount r.key) :
      Finishes (.storeAllocation r payment targetId target allocatedSoFar) w.after (some (.moved r))
  | reversal {r : ReversalRequest} {allocations : List (ℕ × FinancialDocumentAllocation)}
      {readSoFar writes : List (ℕ × Money)} (unwound : unwindWrites r.documentId allocations readSoFar = .ok writes)
      (lock : ∀ w ∈ changedPaid readSoFar writes, free (.document w.1) = true)
      (w : ReversalWrite r.env db r.documentId r.reason) :
      Finishes (.unwind r allocations [] readSoFar)
        (writeUnwinding w.after r.documentId allocations (changedPaid readSoFar writes)) none

end

variable {db : Db} {free : LockedRow → Bool} {t : Txn}

theorem next_continues {t' : Txn} (h : t.next db free = .continues t') : Continues db free t t' := by
  cases t with
  | findKey r =>
    simp only [Txn.next, ofResult_eq_continues, RecordSchema.validate, check_eq_ok] at h
    obtain ⟨_, haccepted, h⟩ := h
    split at h
    · next existing hfound =>
      cases h
      exact .replay hfound
    · cases h
      exact .lockPayment haccepted
  | replay r existing => cases h
  | lockPayment r =>
    simp only [Txn.next] at h
    split at h
    · next hfree =>
      simp only [ofResult_eq_continues, require_eq_ok] at h
      obtain ⟨payment, hpayment, h⟩ := h
      cases h
      exact .lockTarget hfree hpayment
    · cases h
  | lockTarget r payment =>
    simp only [Txn.next, ofResult_eq_continues, require_eq_ok] at h
    obtain ⟨targetId, hasked, h⟩ := h
    split at h
    · next hfree =>
      simp only [ofResult_eq_continues, bind_eq_ok, require_eq_ok, pure_eq_ok] at h
      obtain ⟨_, ⟨target, htarget, _, hcheck, rfl⟩, h⟩ := h
      cases h
      exact .sumAllocations hasked hfree htarget (checkAllocation_spec hcheck)
    · cases h
  | sumAllocations r payment targetId target =>
    cases h
    exact .storeAllocation r payment targetId target
  | storeAllocation r payment targetId target allocatedSoFar =>
    simp [Txn.next] at h
  | lockReversed r =>
    simp only [Txn.next] at h
    split at h
    · next hfree =>
      simp only [ofResult_eq_continues, bind_eq_ok, require_eq_ok] at h
      obtain ⟨_, ⟨d, hd, hcheck⟩, h⟩ := h
      cases h
      exact .lockSequence hfree hd (checkReversible_eq_ok.1 hcheck)
    · cases h
  | lockSequence r =>
    simp only [Txn.next] at h
    split at h
    · next hfree =>
      cases h
      exact .readAllocations hfree
    · cases h
  | readAllocations r =>
    cases h
    exact .unwind r
  | unwind r allocations pending readSoFar =>
    cases pending with
    | nil =>
      simp only [Txn.next, ofResult_eq_continues] at h
      obtain ⟨writes, -, h⟩ := h
      split at h
      · simp at h
      · cases h
    | cons other pending =>
      cases h
      exact .readNext r allocations other pending readSoFar

theorem next_finishes {db' : Db} {event : Option Event} (h : t.next db free = .finishes db' event) :
    Finishes db free t db' event := by
  cases t with
  | findKey r =>
    simp only [Txn.next, ofResult_eq_finishes] at h
    obtain ⟨_, -, h⟩ := h
    split at h <;> cases h
  | replay r existing =>
    cases h
    exact .replay r existing
  | lockPayment r =>
    simp only [Txn.next] at h
    split at h
    · simp at h
    · cases h
  | lockTarget r payment =>
    simp only [Txn.next, ofResult_eq_finishes] at h
    obtain ⟨targetId, -, h⟩ := h
    split at h
    · simp at h
    · cases h
  | sumAllocations r payment targetId target => cases h
  | storeAllocation r payment targetId target allocatedSoFar =>
    simp only [Txn.next, AllocationRequest.store, ofResult_eq_finishes, bind_eq_ok] at h
    obtain ⟨db₁, ⟨_, -, hwrite⟩, h⟩ := h
    obtain ⟨w, rfl⟩ := writeAllocation_spec hwrite
    cases h
    exact .allocation allocatedSoFar w
  | lockReversed r =>
    simp only [Txn.next] at h
    split at h
    · simp at h
    · cases h
  | lockSequence r =>
    simp only [Txn.next] at h
    split at h <;> cases h
  | readAllocations r => cases h
  | unwind r allocations pending readSoFar =>
    cases pending with
    | nil =>
      simp only [Txn.next, ofResult_eq_finishes] at h
      obtain ⟨writes, hwrites, h⟩ := h
      split at h
      · next hfree =>
        simp only [ofResult_eq_finishes, ReversalRequest.store, bind_eq_ok] at h
        obtain ⟨_, ⟨db₁, hreversal, hcommit⟩, h⟩ := h
        obtain ⟨w, rfl⟩ := writeReversal_spec hreversal
        obtain ⟨rfl, -⟩ := commit_spec hcommit
        cases h
        exact .reversal hwrites (List.all_eq_true.1 hfree) w
      · cases h
    | cons other pending => cases h

/-- A statement locks what it needs when nobody else holds it. -/
theorem Continues.locks {t' : Txn} (h : Continues db free t t') :
    ∀ row ∈ t'.locks, row ∈ t.locks ∨ free row = true := by
  cases h with
  | replay | lockPayment => simp [Txn.locks]
  | storeAllocation | unwind | readNext => exact fun row hrow => .inl hrow
  | lockTarget lock | sumAllocations _ lock | lockSequence lock | readAllocations lock => simp [Txn.locks, lock]

/-! ## Locked rows -/

/-- The rows that were locked are as they were read. -/
def Txn.Holds (db : Db) : Txn → Prop
  | .findKey _ | .replay _ _ | .lockReversed _ => True
  | .lockPayment r => r.Accepted
  | .lockTarget r payment => r.Accepted ∧ db.documents.get? r.paymentId = some payment
  | .sumAllocations r payment targetId target | .storeAllocation r payment targetId target _ =>
    r.Accepted ∧ r.payload.targetDocumentId.get? = some targetId ∧ Allocatable payment target r.amount ∧
      db.documents.get? r.paymentId = some payment ∧ db.documents.get? targetId = some target
  | .lockSequence r | .readAllocations r => ∃ d, db.documents.get? r.documentId = some d ∧ d.status = .posted
  | .unwind r allocations _ _ => (∃ d, db.documents.get? r.documentId = some d ∧ d.status = .posted) ∧
      ∀ row ∈ allocations, row.2.touches r.documentId = true ∧ row.1 < db.allocations.nextId ∧
        ∀ a, db.allocations.get? row.1 = some a → a = row.2

theorem Continues.holds {t' : Txn} (h : Continues db free t t') (ht : t.Holds db) : t'.Holds db := by
  cases h with
  | replay => trivial
  | lockPayment accepted => exact accepted
  | lockTarget _ found => exact ⟨ht, found⟩
  | sumAllocations asked _ found allocatable => exact ⟨ht.1, asked, allocatable, ht.2, found⟩
  | storeAllocation | readAllocations | readNext => exact ht
  | lockSequence _ found posted => exact ⟨_, found, posted⟩
  | unwind r =>
    refine ⟨ht, fun row hrow => ?_⟩
    obtain ⟨hmem, htouches⟩ := List.mem_filter.1 hrow
    have hget := Table.get?_eq_some.2 hmem
    exact ⟨htouches, Table.lt_nextId hget, fun a ha => Option.some.inj (ha.symm.trans hget)⟩

/-! ## Commits -/

/-- A commit writes documents that it holds or that nobody else holds. -/
theorem Finishes.documents {db' : Db} {event : Option Event} (h : Finishes db free t db' event) {id : ℕ}
    (hheld : .document id ∉ t.locks) (hfree : free (.document id) = false) :
    db'.documents.get? id = db.documents.get? id := by
  cases h with
  | replay => rfl
  | allocation allocatedSoFar w =>
    simp only [Txn.locks, List.mem_cons, LockedRow.document.injEq, List.not_mem_nil, or_false, not_or] at hheld
    rw [AllocationWrite.after, Table.get?_modify_of_ne _ hheld.2, Table.get?_modify_of_ne _ hheld.1]
  | @reversal r allocations readSoFar writes unwound lock w =>
    simp only [Txn.locks, List.mem_cons, LockedRow.document.injEq, reduceCtorEq, List.not_mem_nil, or_false] at hheld
    rw [writeUnwinding, Table.get?_modify_of_ne _ hheld]
    refine get?_writePaid_of_notMem (fun hmem => ?_) _
    obtain ⟨write, hwrite, rfl⟩ := List.mem_map.1 hmem
    rw [lock write hwrite] at hfree
    cases hfree

/-- Allocations are never changed, and their ids are never used again. -/
structure AllocationsKept (db db' : Db) : Prop where
  nextId_le : db.allocations.nextId ≤ db'.allocations.nextId
  old : ∀ i a, db'.allocations.get? i = some a → db.allocations.nextId ≤ i ∨ db.allocations.get? i = some a

theorem AllocationsKept.refl (db : Db) : AllocationsKept db db := ⟨le_rfl, fun _ _ h => .inr h⟩

theorem Finishes.allocations {db' : Db} {event : Option Event} (h : Finishes db free t db' event) :
    AllocationsKept db db' := by
  cases h with
  | replay => exact .refl db
  | allocation allocatedSoFar w =>
    refine ⟨Nat.le_succ _, fun i a ha => ?_⟩
    rw [AllocationWrite.after, Table.get?_insert] at ha
    split at ha
    · next hi => exact .inl hi.ge
    · exact .inr ha
  | reversal _ _ w =>
    refine ⟨le_rfl, fun i a ha => ?_⟩
    rw [writeUnwinding, Table.get?_erase, Option.filter_eq_some_iff] at ha
    exact .inr ha.1

/-- A transaction keeps what it holds over a commit that leaves its rows alone. -/
theorem Txn.Holds.of_commit {db' : Db} (ht : t.Holds db) (hallocations : AllocationsKept db db')
    (hrows : ∀ id, .document id ∈ t.locks → db'.documents.get? id = db.documents.get? id) : t.Holds db' := by
  cases t with
  | findKey | replay | lockReversed => trivial
  | lockPayment => exact ht
  | lockTarget r payment => exact ⟨ht.1, by rw [hrows _ (by simp [Txn.locks]), ht.2]⟩
  | sumAllocations r payment targetId target | storeAllocation r payment targetId target allocatedSoFar =>
    obtain ⟨haccepted, hasked, hallocatable, hpayment, htarget⟩ := ht
    exact ⟨haccepted, hasked, hallocatable, by rw [hrows _ (by simp [Txn.locks]), hpayment],
      by rw [hrows _ (by simp [Txn.locks]), htarget]⟩
  | lockSequence r | readAllocations r =>
    obtain ⟨d, hd, hposted⟩ := ht
    exact ⟨d, by rw [hrows _ (by simp [Txn.locks]), hd], hposted⟩
  | unwind r allocations pending readSoFar =>
    obtain ⟨⟨d, hd, hposted⟩, hread⟩ := ht
    refine ⟨⟨d, by rw [hrows _ (by simp [Txn.locks]), hd], hposted⟩, fun row hrow => ?_⟩
    obtain ⟨htouches, hlt, hsame⟩ := hread row hrow
    refine ⟨htouches, hlt.trans_le hallocations.nextId_le, fun a ha => ?_⟩
    rcases hallocations.old _ a ha with hnew | hold
    · exact absurd hnew (not_le.2 hlt)
    · exact hsame a hold

/-! ## Steps -/

/-- What one action does to the system. -/
inductive Moves (s : System) : SystemAction → System → Prop
  | stays (a : SystemAction) : Moves s a s
  | allocate (r : AllocationRequest) : Moves s (.allocate r) { s with txns := s.txns.insert (.findKey r) }
  | reverse (r : ReversalRequest) : Moves s (.reverse r) { s with txns := s.txns.insert (.lockReversed r) }
  | continues {id : ℕ} {t t' : Txn} (open_ : s.txns.get? id = some t) (h : Continues s.db (s.free id) t t') :
      Moves s (.advance id) { s with txns := s.txns.modify id fun _ => t' }
  | ends (a : SystemAction) (id : ℕ) : Moves s a (s.finish id)
  | finishes {id : ℕ} {t : Txn} {db' : Db} {event : Option Event} (open_ : s.txns.get? id = some t)
      (h : Finishes s.db (s.free id) t db' event) :
      Moves s (.advance id) { s.finish id with db := db', log := s.log ++ event.toList }

theorem systemStep_moves (s : System) (a : SystemAction) : Moves s a (systemStep s a) := by
  cases a with
  | allocate r => exact .allocate r
  | reverse r => exact .reverse r
  | abandon id => exact .ends _ id
  | advance id =>
    simp only [systemStep]
    split
    · next t ht =>
      cases hnext : t.next s.db (s.free id) with
      | waits => exact .stays _
      | continues t' => exact .continues ht (next_continues hnext)
      | refused e => exact .ends _ id
      | finishes db' event => exact .finishes ht (next_finishes hnext)
    · exact .stays _

/-- No row is held twice. -/
def Exclusive (s : System) : Prop :=
  ∀ i j ti tj row, s.txns.get? i = some ti → s.txns.get? j = some tj → row ∈ ti.locks → row ∈ tj.locks → i = j

/-- Rows are held once, and as they were read. -/
structure Held (s : System) : Prop where
  exclusive : Exclusive s
  holds : ∀ i t, s.txns.get? i = some t → t.Holds s.db

theorem held_idle (db : Db) : Held (.idle db) where
  exclusive := fun _ _ _ _ _ hi => by cases hi
  holds := fun _ _ hi => by cases hi

/-- A row that is free for `id` is held by no other transaction. -/
theorem notMem_locks_of_free {s : System} {id j : ℕ} {tj : Txn} {row : LockedRow} (hfree : s.free id row = true)
    (hj : s.txns.get? j = some tj) (hne : j ≠ id) : row ∉ tj.locks := by
  have hall := List.all_eq_true.1 hfree _ (Table.get?_eq_some.1 hj)
  simpa [hne] using hall

/-- A row that another transaction holds is not free. -/
theorem free_eq_false_of_locks {s : System} {id j : ℕ} {tj : Txn} {row : LockedRow} (hj : s.txns.get? j = some tj)
    (hne : j ≠ id) (hrow : row ∈ tj.locks) : s.free id row = false := by
  cases hfree : s.free id row with
  | false => rfl
  | true => exact absurd hrow (notMem_locks_of_free hfree hj hne)

theorem get?_finish {s : System} {id j : ℕ} {t : Txn} (h : (s.finish id).txns.get? j = some t) :
    j ≠ id ∧ s.txns.get? j = some t := by
  rw [System.finish, Table.get?_erase, Option.filter_eq_some_iff] at h
  exact ⟨by simpa using h.2, h.1⟩

theorem exclusive_insert {s : System} (hs : Exclusive s) {t : Txn} (ht : t.locks = []) :
    Exclusive { s with txns := s.txns.insert t } := by
  intro i j ti tj row hi hj hrowi hrowj
  rw [Table.get?_insert] at hi hj
  split at hi
  · cases hi
    simp [ht] at hrowi
  · split at hj
    · cases hj
      simp [ht] at hrowj
    · exact hs i j ti tj row hi hj hrowi hrowj

theorem exclusive_modify {s : System} (hs : Exclusive s) {id : ℕ} {t t' : Txn} (ht : s.txns.get? id = some t)
    (hlocks : ∀ row ∈ t'.locks, row ∈ t.locks ∨ s.free id row = true) :
    Exclusive { s with txns := s.txns.modify id fun _ => t' } := by
  have hother {j : ℕ} {tj : Txn} {row : LockedRow} (hj : s.txns.get? j = some tj) (hne : j ≠ id)
      (hrow : row ∈ t'.locks) : row ∉ tj.locks := by
    rcases hlocks row hrow with hheld | hfree
    · exact fun hrowj => hne (hs j id tj t row hj ht hrowj hheld)
    · exact notMem_locks_of_free hfree hj hne
  intro i j ti tj row hi hj hrowi hrowj
  rw [Table.get?_modify] at hi hj
  by_cases hi' : i = id <;> by_cases hj' : j = id
  · rw [hi', hj']
  · subst hi'
    simp only [if_pos, ht, Option.map_some, Option.some.injEq] at hi
    subst hi
    exact absurd hrowj (hother (by simpa [hj'] using hj) hj' hrowi)
  · subst hj'
    simp only [if_pos, ht, Option.map_some, Option.some.injEq] at hj
    subst hj
    exact absurd hrowi (hother (by simpa [hi'] using hi) hi' hrowj)
  · exact hs i j ti tj row (by simpa [hi'] using hi) (by simpa [hj'] using hj) hrowi hrowj

theorem exclusive_finish {s : System} (hs : Exclusive s) (id : ℕ) : Exclusive (s.finish id) :=
  fun i j ti tj row hi hj => hs i j ti tj row (get?_finish hi).2 (get?_finish hj).2

/-- **Step lemma.** -/
theorem systemStep_held (s : System) (a : SystemAction) (hs : Held s) : Held (systemStep s a) := by
  generalize hs' : systemStep s a = s'
  cases hs' ▸ systemStep_moves s a with
  | stays => exact hs
  | allocate r => exact ⟨exclusive_insert hs.exclusive rfl, Table.forall_insert hs.holds trivial⟩
  | reverse r => exact ⟨exclusive_insert hs.exclusive rfl, Table.forall_insert hs.holds trivial⟩
  | @continues id t t' ht h =>
    exact ⟨exclusive_modify hs.exclusive ht h.locks, Table.forall_modify ht hs.holds (h.holds (hs.holds id t ht))⟩
  | ends _ id => exact ⟨exclusive_finish hs.exclusive id, fun i t hi => hs.holds i t (get?_finish hi).2⟩
  | @finishes id t db' event ht h =>
    refine ⟨exclusive_finish hs.exclusive id, fun i ti hi => ?_⟩
    obtain ⟨hne, hti⟩ := get?_finish hi
    refine (hs.holds i ti hti).of_commit h.allocations fun d hd => ?_
    exact h.documents (fun hmine => hne (hs.exclusive i id ti t _ hti ht hd hmine)) (free_eq_false_of_locks hti hne hd)

end LcsSystem
