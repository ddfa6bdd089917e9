import LcsSystem.Finance.Allocations

/-!
# What allocating and unwinding write

`AllocationWrite` holds what a successful `writeAllocation` computed. Of the documents, an allocation
and an unwinding write the paid amount only; the reversed document also gets its status.
-/

namespace LcsSystem
open Relational DecimalArith Checks

/-! ## One allocation -/

/-- What a successful `writeAllocation` computed from the rows that were read. -/
structure AllocationWrite (env : Env) (db : Db) (paymentId targetId : ℕ) (payment target : Document) (amount : ℚ)
    (key : Option String) where
  stored : Money
  paymentPaid : Money
  targetPaid : Money
  stored_val : stored.val = roundHalfUp 4 amount
  paymentPaid_val : paymentPaid.val = roundHalfUp 4 (payment.paidAmount.val + amount)
  targetPaid_val : targetPaid.val = roundHalfUp 4 (target.paidAmount.val + amount)
  payment_fits : ∀ d, db.documents.get? paymentId = some d →
    paidOut db.allocations.values paymentId + stored.val ≤ d.amounts.total.val
  target_fits : ∀ d, db.documents.get? targetId = some d →
    received db.allocations.values targetId + stored.val ≤ d.amounts.total.val
  key_fresh : ∀ old ∈ db.allocations.values, key.isSome → old.idempotencyKey ≠ key

namespace AllocationWrite
variable {env : Env} {db : Db} {paymentId targetId : ℕ} {payment target : Document} {amount : ℚ} {key : Option String}

/-- The row that was inserted. -/
def row (w : AllocationWrite env db paymentId targetId payment target amount key) : FinancialDocumentAllocation :=
  newAllocation env paymentId targetId payment w.stored key

/-- The state after the allocation. -/
def after (w : AllocationWrite env db paymentId targetId payment target amount key) : Db :=
  { db with
    allocations := db.allocations.insert w.row
    documents := (db.documents.modify paymentId (setPaid w.paymentPaid)).modify targetId (setPaid w.targetPaid) }

end AllocationWrite

theorem writeAllocation_spec {env : Env} {db db' : Db} {paymentId targetId : ℕ} {payment target : Document}
    {amount : ℚ} {key : Option String}
    (h : writeAllocation env db paymentId targetId payment target amount key = .ok db') :
    ∃ w : AllocationWrite env db paymentId targetId payment target amount key, db' = w.after := by
  simp only [writeAllocation, insertAllocation, guardAllocation, bind_eq_ok, check_eq_ok, require_eq_ok,
    pure_eq_ok] at h
  obtain ⟨stored, hstored, paymentPaid, hpayment, targetPaid, htarget, db₁,
    ⟨_, ⟨dp, hdp, dt, hdt, _, hpaymentFits, htargetFits⟩, _, hfresh, rfl⟩, rfl⟩ := h
  refine ⟨⟨stored, paymentPaid, targetPaid, val_of_store hstored, val_of_store hpayment, val_of_store htarget,
    fun d hd => ?_, fun d hd => ?_, hfresh⟩, rfl⟩
  · obtain rfl : dp = d := Option.some.inj (hdp.symm.trans hd)
    exact hpaymentFits
  · obtain rfl : dt = d := Option.some.inj (hdt.symm.trans hd)
    exact htargetFits

/-- What the checks on the two rows establish. -/
structure Allocatable (payment target : Document) (amount : ℚ) : Prop where
  payment_type : payment.documentType.isPayment = true
  target_type : target.documentType.isAllocatable = true
  payment_posted : payment.status = .posted
  target_posted : target.status = .posted
  amount_pos : 0 < amount

theorem checkAllocation_spec {payment target : Document} {amount : ℚ}
    (h : checkAllocation payment target amount = .ok ⟨⟩) : Allocatable payment target amount := by
  simp only [checkAllocation, bind_eq_ok, check_eq_ok] at h
  obtain ⟨_, hpayment, _, htarget, _, ⟨hp, ht⟩, _, -, hpos⟩ := h
  exact ⟨hpayment, htarget, hp, ht, hpos⟩

/-- **Allocating.** A known key answers from the stored row without a write; otherwise the request is
one `AllocationWrite` between two POSTED documents. -/
theorem allocatePayment_spec {env : Env} {db db' : Db} {paymentId : ℕ} {p : AllocationPayload} {key : Option String}
    {r : AllocationResult} (h : allocatePayment env db paymentId p key = .ok (db', r)) :
    db' = db ∨ ∃ targetId payment target amount,
      db.documents.get? paymentId = some payment ∧ db.documents.get? targetId = some target ∧
        Allocatable payment target amount ∧
        ∃ w : AllocationWrite env db paymentId targetId payment target amount key, db' = w.after := by
  simp only [allocatePayment, bind_eq_ok] at h
  obtain ⟨_, -, h⟩ := h
  split at h
  · cases h
    exact .inl rfl
  · simp only [bind_eq_ok, require_eq_ok, pure_eq_ok] at h
    obtain ⟨payment, hpayment, targetId, -, target, htarget, _, hcheck, _, -, db₁, hwrite, h⟩ := h
    cases h
    exact .inr ⟨targetId, payment, target, _, hpayment, htarget, checkAllocation_spec hcheck,
      writeAllocation_spec hwrite⟩

/-! ## Documents that differ in their paid amount -/

/-- The rows of `documents'` are those of `documents`, paid amounts aside. -/
def SameButPaid (documents documents' : Table Document) : Prop :=
  ∀ id, (documents'.get? id).map (setPaid 0) = (documents.get? id).map (setPaid 0)

namespace SameButPaid

theorem refl (documents : Table Document) : SameButPaid documents documents := fun _ => rfl

theorem trans {a b c : Table Document} (hab : SameButPaid a b) (hbc : SameButPaid b c) : SameButPaid a c :=
  fun id => (hbc id).trans (hab id)

theorem modify (documents : Table Document) (id : ℕ) (paid : Money) :
    SameButPaid documents (documents.modify id (setPaid paid)) := by
  intro i
  rw [Table.get?_modify]
  split
  · cases documents.get? i <;> rfl
  · rfl

theorem writePaid (documents : Table Document) (writes : List (ℕ × Money)) :
    SameButPaid documents (writePaid documents writes) := by
  induction writes generalizing documents with
  | nil => exact refl documents
  | cons w ws ih => exact (modify documents w.1 w.2).trans (ih _)

/-- A row of the new table has an old row with the same status, type and amounts. -/
theorem get?_some {a b : Table Document} (h : SameButPaid a b) {id : ℕ} {d' : Document} (hd' : b.get? id = some d') :
    ∃ d, a.get? id = some d ∧ setPaid 0 d' = setPaid 0 d := by
  have hid := h id
  rw [hd'] at hid
  cases hd : a.get? id with
  | none => simp [hd] at hid
  | some d => exact ⟨d, rfl, by simpa [hd] using hid⟩

end SameButPaid

theorem status_eq_of_setPaid {d d' : Document} (h : setPaid 0 d' = setPaid 0 d) : d'.status = d.status :=
  show (setPaid 0 d').status = (setPaid 0 d).status from congrArg Document.status h

theorem AllocationWrite.sameButPaid {env : Env} {db : Db} {paymentId targetId : ℕ} {payment target : Document}
    {amount : ℚ} {key : Option String} (w : AllocationWrite env db paymentId targetId payment target amount key) :
    SameButPaid db.documents w.after.documents :=
  (SameButPaid.modify db.documents paymentId w.paymentPaid).trans (.modify _ targetId w.targetPaid)

/-! ## Unwinding -/

theorem get?_writePaid_of_notMem {writes : List (ℕ × Money)} {id : ℕ} (h : id ∉ writes.map Prod.fst)
    (documents : Table Document) : (writePaid documents writes).get? id = documents.get? id := by
  induction writes generalizing documents with
  | nil => rfl
  | cons w ws ih =>
    rw [List.map_cons, List.mem_cons, not_or] at h
    exact (ih h.2 _).trans (Table.get?_modify_of_ne _ h.1)

theorem get?_writePaid_of_mem {writes : List (ℕ × Money)} (hnodup : (writes.map Prod.fst).Nodup) {w : ℕ × Money}
    (h : w ∈ writes) (documents : Table Document) :
    (writePaid documents writes).get? w.1 = (documents.get? w.1).map (setPaid w.2) := by
  induction writes generalizing documents with
  | nil => cases h
  | cons v vs ih =>
    rw [List.map_cons, List.nodup_cons] at hnodup
    rcases List.mem_cons.1 h with rfl | htail
    · exact (get?_writePaid_of_notMem hnodup.1 _).trans (Table.get?_modify_self documents w.1 _)
    · have hne : w.1 ≠ v.1 := fun heq => hnodup.1 (heq ▸ List.mem_map_of_mem htail)
      exact (ih hnodup.2 htail _).trans (congrArg _ (Table.get?_modify_of_ne _ hne))

/-- After the unwinding no allocation of the document is left, and no other one is gone. -/
theorem rows_writeUnwinding (db : Db) (documentId : ℕ) (writes : List (ℕ × Money)) :
    (writeUnwinding db documentId (allocationsOf db documentId) writes).allocations.rows =
      db.allocations.rows.filter fun r => !r.2.touches documentId := by
  refine List.filter_congr fun r hr => ?_
  congr 1
  rw [Bool.eq_iff_iff, List.any_eq_true]
  constructor
  · rintro ⟨q, hq, hid⟩
    obtain ⟨hmem, htouches⟩ := List.mem_filter.1 hq
    have hsame : q.2 = r.2 := by
      have hq' := Table.get?_eq_some.2 hmem
      have hr' := Table.get?_eq_some.2 hr
      rw [beq_iff_eq.1 hid] at hq'
      exact Option.some.inj (hq'.symm.trans hr')
    exact hsame ▸ htouches
  · intro h
    exact ⟨r, List.mem_filter.2 ⟨hr, h⟩, beq_self_eq_true _⟩

/-- The unwinding reverses its document and keeps the status of every other. -/
theorem get?_writeUnwinding {db : Db} {documentId : ℕ} {allocations : List (ℕ × FinancialDocumentAllocation)}
    {writes : List (ℕ × Money)} {id : ℕ} {d' : Document}
    (h : (writeUnwinding db documentId allocations writes).documents.get? id = some d') :
    (id = documentId ∧ d'.status = .reversed) ∨
      (id ≠ documentId ∧ ∃ d, db.documents.get? id = some d ∧ setPaid 0 d' = setPaid 0 d) := by
  by_cases hid : id = documentId
  · subst hid
    simp only [writeUnwinding, Table.get?_modify_self, Option.map_eq_some_iff] at h
    obtain ⟨d, -, rfl⟩ := h
    exact .inl ⟨rfl, rfl⟩
  · rw [writeUnwinding, Table.get?_modify_of_ne _ hid] at h
    exact .inr ⟨hid, (SameButPaid.writePaid db.documents writes).get?_some h⟩

end LcsSystem
