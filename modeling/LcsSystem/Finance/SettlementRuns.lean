import LcsSystem.Finance.Reversals
import LcsSystem.Finance.SettledAmounts
import LcsSystem.Finance.SettlementLocks

/-!
# Paid amounts under interleaving

The sums of `Settled` as an invariant of the settlement system. An allocation keeps them because both of
its rows are locked. A reversal does not lock the documents it shares allocations with: it keeps the sums
when their paid amounts are still the ones it read (`Undisturbed`), and `reversal_overwrites_allocation`
is a run in which one of them was not.
-/

namespace LcsSystem
open Relational DecimalArith Checks Transition

/-! ## The system -/

/-- What an unwinding has read of the allocations is complete and current. -/
def Txn.Unwinding (db : Db) : Txn → Prop
  | .unwind r allocations pending readSoFar => allocations = allocationsOf db r.documentId ∧
      readSoFar.map Prod.fst ++ pending = counterparties r.documentId allocations
  | _ => True

/-- The paid amounts that a reversal is about to overwrite are those it read. -/
def Txn.readsStillHold (db : Db) : Txn → Bool
  | .unwind _ _ [] readSoFar => readSoFar.all fun r => decide (readPaid db r.1 = some r)
  | _ => true

def Outcome.isCommit : Outcome → Bool
  | .finishes _ _ => true
  | _ => false

/-- A reversal only commits while the paid amounts it read are the committed ones. -/
def Undisturbed (s : System) : SystemAction → Prop
  | .advance id => ∀ t ∈ s.txns.get? id, (t.next s.db (s.free id)).isCommit = true → t.readsStillHold s.db = true
  | _ => True

instance (s : System) : ∀ a, Decidable (Undisturbed s a)
  | .advance _ => inferInstanceAs (Decidable (∀ t ∈ _, _))
  | .allocate _ | .reverse _ | .abandon _ => .isTrue trivial

/-- An accepted positive amount is at least one unit of the column. -/
theorem AllocationRequest.Accepted.le_amount {r : AllocationRequest} (h : r.Accepted) (hpos : 0 < r.amount) :
    1 / 10000 ≤ r.amount := by
  unfold AllocationRequest.Accepted allocationWriteSchema at h
  have hamount := (List.append_eq_nil_iff.1 h).2
  unfold AllocationRequest.amount at hpos ⊢
  cases hfield : r.payload.amount with
  | value q =>
    rw [hfield] at hamount
    exact DecimalSpec.minimum_le rfl hamount
  | absent => simp [hfield, Field.get?] at hpos
  | blank => simp [hfield, Field.get?] at hpos
  | malformed => simp [hfield, Field.get?] at hpos

section
variable {db : Db} {free : LockedRow → Bool} {t : Txn}

theorem Continues.unwinding {t' : Txn} (h : Continues db free t t') (hs : Settled db) (ht : t.Unwinding db) :
    t'.Unwinding db := by
  cases h with
  | unwind r => exact ⟨rfl, rfl⟩
  | readNext r allocations other pending readSoFar =>
    obtain ⟨rfl, hkeys⟩ := ht
    refine ⟨rfl, ?_⟩
    have hmem : other ∈ counterparties r.documentId (allocationsOf db r.documentId) := by
      rw [← hkeys]
      exact List.mem_append_right _ List.mem_cons_self
    obtain ⟨-, ⟨d, hd, -⟩, -⟩ := hs.counterparty hmem
    rw [← hkeys]
    simp [readPaid, hd]
  | replay | lockPayment | lockTarget | sumAllocations | storeAllocation | lockSequence | readAllocations => trivial

theorem Txn.Unwinding.of_commit {db' : Db} (ht : t.Unwinding db)
    (hrows : ∀ id, .document id ∈ t.locks → allocationsOf db' id = allocationsOf db id) : t.Unwinding db' := by
  cases t with
  | unwind r allocations pending readSoFar => exact ⟨by rw [hrows _ (by simp [Txn.locks]), ht.1], ht.2⟩
  | _ => trivial

/-- **A commit of the system.** The sums are kept, and so are the allocations of a document that another
transaction holds: to delete one of them, its paid amount would have to be updated. -/
theorem Finishes.settled {db' : Db} {event : Option Event} (h : Finishes db free t db' event) (hs : Settled db)
    (hholds : t.Holds db) (hunwinding : t.Unwinding db) (hreads : t.readsStillHold db = true) :
    Settled db' ∧ ∀ id, .document id ∉ t.locks → free (.document id) = false →
      allocationsOf db' id = allocationsOf db id := by
  cases h with
  | replay => exact ⟨hs, fun _ _ _ => rfl⟩
  | allocation allocatedSoFar w =>
    obtain ⟨haccepted, -, hallocatable, hpayment, htarget⟩ := hholds
    refine ⟨w.settled hs (haccepted.le_amount hallocatable.amount_pos) hallocatable hpayment htarget,
      fun id hheld _ => ?_⟩
    simp only [Txn.locks, List.mem_cons, LockedRow.document.injEq, List.not_mem_nil, or_false, not_or] at hheld
    have htouches : ¬w.row.touches id = true := by
      simp [FinancialDocumentAllocation.touches, AllocationWrite.row, newAllocation, Ne.symm hheld.1, Ne.symm hheld.2]
    simp [allocationsOf, AllocationWrite.after, Table.insert, htouches]
  | @reversal r allocations readSoFar writes unwound lock w =>
    obtain ⟨rfl, hkeys⟩ := hunwinding
    rw [List.append_nil] at hkeys
    have hnow : ReadsNow db r.documentId readSoFar :=
      ⟨hkeys, fun q hq => of_decide_eq_true (List.all_eq_true.1 hreads q hq)⟩
    rw [hs.changedPaid_eq hnow unwound] at lock ⊢
    refine ⟨hs.unwinding hnow unwound w, fun id hheld hfree => ?_⟩
    simp only [Txn.locks, List.mem_cons, LockedRow.document.injEq, reduceCtorEq, List.not_mem_nil, or_false] at hheld
    have hrows := rows_writeUnwinding w.after r.documentId writes
    rw [allocationsOf, show allocationsOf db r.documentId = allocationsOf w.after r.documentId from rfl, hrows,
      List.filter_filter]
    refine List.filter_congr fun q hq => ?_
    by_cases htouches : q.2.touches id = true
    · have hapart : q.2.touches r.documentId = false := by
        by_contra hboth
        simp only [Bool.not_eq_false] at hboth
        have hother := (touches_iff_otherSide hboth hheld).1 htouches
        have hmem : id ∈ writes.map Prod.fst := by
          rw [(hs.unwound hnow unwound).1, hkeys]
          exact mem_counterparties.2 ⟨q, List.mem_filter.2 ⟨hq, hboth⟩, hother⟩
        obtain ⟨write, hwrite, rfl⟩ := List.mem_map.1 hmem
        rw [lock write hwrite] at hfree
        cases hfree
      simp [htouches, hapart]
    · simp [htouches]

end

/-- The invariant of the system: sums that agree, locks that hold, and current reads of allocations. -/
structure SettledSystem (s : System) : Prop extends Held s where
  settled : Settled s.db
  unwinding : ∀ i t, s.txns.get? i = some t → t.Unwinding s.db

/-- **Step lemma.** -/
theorem systemStep_settled (s : System) (a : SystemAction) (hs : SettledSystem s) (ha : Undisturbed s a) :
    SettledSystem (systemStep s a) := by
  suffices hrest : Settled (systemStep s a).db ∧
      ∀ i t, (systemStep s a).txns.get? i = some t → t.Unwinding (systemStep s a).db from
    ⟨systemStep_held s a hs.toHeld, hrest.1, hrest.2⟩
  cases a with
  | allocate r => exact ⟨hs.settled, Table.forall_insert hs.unwinding trivial⟩
  | reverse r => exact ⟨hs.settled, Table.forall_insert hs.unwinding trivial⟩
  | abandon id => exact ⟨hs.settled, fun i t hi => hs.unwinding i t (get?_finish hi).2⟩
  | advance id =>
    simp only [systemStep]
    split
    · next t ht =>
      have hreads := ha t ht
      cases hnext : t.next s.db (s.free id) with
      | waits => exact ⟨hs.settled, hs.unwinding⟩
      | continues t' =>
        have hunwinding := (next_continues hnext).unwinding hs.settled (hs.unwinding id t ht)
        exact ⟨hs.settled, Table.forall_modify ht hs.unwinding hunwinding⟩
      | refused e => exact ⟨hs.settled, fun i t hi => hs.unwinding i t (get?_finish hi).2⟩
      | finishes db' event =>
        rw [hnext] at hreads
        obtain ⟨hsettled, hkept⟩ := (next_finishes hnext).settled hs.settled (hs.holds id t ht) (hs.unwinding id t ht)
          (hreads rfl)
        refine ⟨hsettled, fun i ti hi => ?_⟩
        obtain ⟨hne, hti⟩ := get?_finish hi
        refine (hs.unwinding i ti hti).of_commit fun d hd => ?_
        exact hkept d (fun hmine => hne (hs.exclusive i id ti t _ hti ht hd hmine))
          (free_eq_false_of_locks hti hne hd)
    · exact ⟨hs.settled, hs.unwinding⟩

/-- **Paid amounts under interleaving.** In every state of a run whose reversals are undisturbed, a POSTED
payment is paid what it pays out, a POSTED target what it received, and nothing is overpaid. -/
theorem run_settled {db : Db} (h : Settled db) {as : List SystemAction}
    (hm : Meets systemStep Undisturbed (.idle db) as) :
    let s := run systemStep (.idle db) as
    ∀ id d, s.db.documents.get? id = some d → d.status = .posted →
      (d.documentType.isPayment = true → d.paidAmount.val = paidOut s.db.allocations.values id) ∧
      (d.documentType.isAllocatable = true → d.paidAmount.val = received s.db.allocations.values id) ∧
      0 ≤ d.paidAmount.val ∧ d.paidAmount.val ≤ d.amounts.total.val := by
  intro s id d hd hposted
  have hidle : SettledSystem (.idle db) := ⟨held_idle db, h, fun _ _ hi => by cases hi⟩
  have hs : Settled s.db := (run_invariant_of_meets SettledSystem systemStep_settled hidle hm).settled
  have hpaid := hs.paid id d hd hposted
  exact ⟨fun htype => hpaid.trans (hs.allocated_eq_paidOut hd htype),
    fun htype => hpaid.trans (hs.allocated_eq_received hd htype), hs.paid_nonneg hd hposted, hs.bounded id d hd hposted⟩

/-- The drafts of `receiptAndInvoices`, posted. -/
def postedReceipt : Result Db := do
  let db ← saveAll january receiptAndInvoices (Db.fresh usd)
  return run documentStep db [.post january 1, .post january 2, .post january 3]

/-- The requests of the runs below: the receipt pays an invoice, the first invoice is reversed. -/
def payInvoice (targetId : ℕ) (amount : ℚ) (key : Option String) : SystemAction :=
  .allocate ⟨january, 1, ⟨.value targetId, .value amount⟩, key⟩

def reverseInvoice : SystemAction := .reverse ⟨january, 2, "wrong party"⟩

/-- All statements of transaction `id`. -/
def toTheEnd (id : ℕ) : List SystemAction := List.replicate 5 (.advance id)

/-- The first invoice is paid, then reversed with no one in between. -/
def payThenReverse : List SystemAction :=
  payInvoice 2 50 none :: toTheEnd 1 ++ reverseInvoice :: toTheEnd 2

theorem run_settled_payThenReverse :
    ∃ db, postedReceipt = .ok db ∧
      ∃ d, (run systemStep (.idle db) payThenReverse).db.documents.get? 1 = some d ∧
        d.paidAmount.val = paidOut (run systemStep (.idle db) payThenReverse).db.allocations.values 1 := by
  obtain ⟨db, hposted, hallocations, hunpaid, hmeets, d, hd, hstatus, htype⟩ := okAnd_eq_true.1
    (show okAnd postedReceipt (fun db => db.allocations.rows = [] ∧
      (∀ r ∈ db.documents.rows, r.2.status = .posted → r.2.paidAmount.val = 0 ∧ 0 ≤ r.2.amounts.total.val) ∧
      Meets systemStep Undisturbed (.idle db) payThenReverse ∧
      ∃ d ∈ (run systemStep (.idle db) payThenReverse).db.documents.get? 1,
        d.status = .posted ∧ d.documentType.isPayment = true) = true by decide +kernel)
  have hsettled : Settled db :=
    .of_noAllocations hallocations fun id d hd => hunpaid (id, d) (Table.get?_eq_some.1 hd)
  exact ⟨db, hposted, d, hd, (run_settled hsettled hmeets 1 d hd hstatus).1 htype⟩

/-- The reversal of the first invoice reads what the receipt has paid, the receipt pays the second
invoice, and the reversal writes back what it read less the first. -/
def payDuringReversal : List SystemAction :=
  payInvoice 2 50 none :: toTheEnd 1 ++ reverseInvoice :: List.replicate 4 (.advance 2) ++
    payInvoice 3 50 none :: toTheEnd 3 ++ [.advance 2]

/-- The receipt has paid out 50 and its paid amount is 0. -/
theorem reversal_overwrites_allocation :
    ∃ db, postedReceipt = .ok db ∧
      ∃ d, (run systemStep (.idle db) payDuringReversal).db.documents.get? 1 = some d ∧ d.status = .posted ∧
        d.documentType.isPayment = true ∧ d.paidAmount.val = 0 ∧
        paidOut (run systemStep (.idle db) payDuringReversal).db.allocations.values 1 = 50 :=
  okAnd_eq_true.1
    (show okAnd postedReceipt (fun db =>
      ∃ d ∈ (run systemStep (.idle db) payDuringReversal).db.documents.get? 1, d.status = .posted ∧
        d.documentType.isPayment = true ∧ d.paidAmount.val = 0 ∧
        paidOut (run systemStep (.idle db) payDuringReversal).db.allocations.values 1 = 50) = true by decide +kernel)

end LcsSystem
