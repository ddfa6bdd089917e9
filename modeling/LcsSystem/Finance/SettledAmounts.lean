import LcsSystem.Finance.Settlement

/-!
# Paid amounts and allocations

`Settled` ties the paid amount of every POSTED document to the allocations that touch it. An allocation
of current rows keeps it, with the trigger bounding the sums; an unwinding keeps it when the allocations
and the paid amounts it read are current (`ReadsNow`).
-/

namespace LcsSystem
open Relational DecimalArith Checks

/-! ## Sums -/

/-- The allocations a document takes part in, on either side. -/
def allocated (allocations : List FinancialDocumentAllocation) (documentId : ℕ) : ℚ :=
  ((allocations.filter fun a => a.touches documentId).map fun a => a.allocatedAmount.val).sum

/-- An allocation between two POSTED documents of the right types. -/
structure SoundAllocation (db : Db) (a : FinancialDocumentAllocation) : Prop where
  pos : 0 < a.allocatedAmount.val
  payment : ∃ d, db.documents.get? a.paymentDocumentId = some d ∧ d.status = .posted ∧ d.documentType.isPayment = true
  target : ∃ d, db.documents.get? a.targetDocumentId = some d ∧ d.status = .posted ∧
    d.documentType.isAllocatable = true

structure Settled (db : Db) : Prop where
  sound : ∀ a ∈ db.allocations.values, SoundAllocation db a
  paid : ∀ id d, db.documents.get? id = some d → d.status = .posted →
    d.paidAmount.val = allocated db.allocations.values id
  bounded : ∀ id d, db.documents.get? id = some d → d.status = .posted → d.paidAmount.val ≤ d.amounts.total.val

theorem allocated_append (as bs : List FinancialDocumentAllocation) (id : ℕ) :
    allocated (as ++ bs) id = allocated as id + allocated bs id := by
  simp [allocated]

theorem allocated_nonneg {allocations : List FinancialDocumentAllocation}
    (h : ∀ a ∈ allocations, 0 < a.allocatedAmount.val) (id : ℕ) : 0 ≤ allocated allocations id := by
  refine List.sum_nonneg fun x hx => ?_
  obtain ⟨a, ha, rfl⟩ := List.mem_map.1 hx
  exact (h a (List.mem_filter.1 ha).1).le

namespace SoundAllocation
variable {db : Db} {a : FinancialDocumentAllocation}

/-- No document is on both sides. -/
theorem payment_ne_target (h : SoundAllocation db a) : a.paymentDocumentId ≠ a.targetDocumentId := by
  intro heq
  obtain ⟨d, hd, -, hpayment⟩ := h.payment
  obtain ⟨d', hd', -, htarget⟩ := h.target
  rw [heq, hd', Option.some.injEq] at hd
  subst hd
  exact Bool.false_ne_true ((DocType.not_isAllocatable_of_isPayment hpayment).symm.trans htarget)

/-- Of the documents it only reads the status and the type. -/
theorem of_documents {db' : Db} (h : SoundAllocation db a)
    (hkept : ∀ id, a.touches id = true → ∀ d, db.documents.get? id = some d → d.status = .posted →
      ∃ d', db'.documents.get? id = some d' ∧ setPaid 0 d' = setPaid 0 d) : SoundAllocation db' a := by
  obtain ⟨pos, ⟨p, hp, hpposted, hptype⟩, ⟨t, ht, htposted, httype⟩⟩ := h
  obtain ⟨p', hp', hsamep⟩ := hkept _ (by simp [FinancialDocumentAllocation.touches]) p hp hpposted
  obtain ⟨t', ht', hsamet⟩ := hkept _ (by simp [FinancialDocumentAllocation.touches]) t ht htposted
  have htypep : p'.documentType = p.documentType :=
    show (setPaid 0 p').documentType = (setPaid 0 p).documentType from congrArg Document.documentType hsamep
  have htypet : t'.documentType = t.documentType :=
    show (setPaid 0 t').documentType = (setPaid 0 t).documentType from congrArg Document.documentType hsamet
  exact ⟨pos, ⟨p', hp', (status_eq_of_setPaid hsamep).trans hpposted, htypep ▸ hptype⟩,
    t', ht', (status_eq_of_setPaid hsamet).trans htposted, htypet ▸ httype⟩

end SoundAllocation

namespace Settled
variable {db : Db} {id : ℕ} {d : Document}

/-- A payment only pays out, a target only receives. -/
theorem allocated_eq_paidOut (h : Settled db) (hd : db.documents.get? id = some d)
    (htype : d.documentType.isPayment = true) :
    allocated db.allocations.values id = paidOut db.allocations.values id := by
  have hfilter : db.allocations.values.filter (fun a => a.touches id) =
      db.allocations.values.filter fun a => a.paymentDocumentId == id := by
    refine List.filter_congr fun a ha => ?_
    obtain ⟨t, ht, -, htarget⟩ := (h.sound a ha).target
    have hne : a.targetDocumentId ≠ id := by
      rintro rfl
      rw [hd, Option.some.injEq] at ht
      subst ht
      exact Bool.false_ne_true ((DocType.not_isAllocatable_of_isPayment htype).symm.trans htarget)
    simp [FinancialDocumentAllocation.touches, hne]
  rw [allocated, hfilter, paidOut]

theorem allocated_eq_received (h : Settled db) (hd : db.documents.get? id = some d)
    (htype : d.documentType.isAllocatable = true) :
    allocated db.allocations.values id = received db.allocations.values id := by
  have hfilter : db.allocations.values.filter (fun a => a.touches id) =
      db.allocations.values.filter fun a => a.targetDocumentId == id := by
    refine List.filter_congr fun a ha => ?_
    obtain ⟨p, hp, -, hpayment⟩ := (h.sound a ha).payment
    have hne : a.paymentDocumentId ≠ id := by
      rintro rfl
      rw [hd, Option.some.injEq] at hp
      subst hp
      exact Bool.false_ne_true ((DocType.not_isAllocatable_of_isPayment hpayment).symm.trans htype)
    simp [FinancialDocumentAllocation.touches, hne]
  rw [allocated, hfilter, received]

theorem paid_nonneg (h : Settled db) (hd : db.documents.get? id = some d) (hposted : d.status = .posted) :
    0 ≤ d.paidAmount.val := by
  rw [h.paid id d hd hposted]
  exact allocated_nonneg (fun a ha => (h.sound a ha).pos) id

/-- Before the first allocation. -/
theorem of_noAllocations (hallocations : db.allocations.rows = [])
    (hunpaid : ∀ id d, db.documents.get? id = some d → d.status = .posted →
      d.paidAmount.val = 0 ∧ 0 ≤ d.amounts.total.val) : Settled db where
  sound := fun a ha => by simp [Table.values, hallocations] at ha
  paid := fun id d hd hposted => by simp [(hunpaid id d hd hposted).1, allocated, Table.values, hallocations]
  bounded := fun id d hd hposted => by
    rw [(hunpaid id d hd hposted).1]
    exact (hunpaid id d hd hposted).2

end Settled

/-! ## Allocating -/

section
variable {env : Env} {db : Db} {paymentId targetId : ℕ} {payment target : Document} {amount : ℚ} {key : Option String}

theorem AllocationWrite.stored_pos (w : AllocationWrite env db paymentId targetId payment target amount key)
    (hamount : 1 / 10000 ≤ amount) : 0 < w.stored.val := by
  have hunit : Scaled 4 (1 / 10000) := by decide +kernel
  have hle : roundHalfUp 4 (1 / 10000) ≤ roundHalfUp 4 amount := roundHalfUp_mono (by norm_num) hamount
  rw [roundHalfUp_of_scaled hunit] at hle
  rw [w.stored_val]
  linarith

theorem allocated_singleton (a : FinancialDocumentAllocation) (id : ℕ) :
    allocated [a] id = if a.touches id then a.allocatedAmount.val else 0 := by
  by_cases h : a.touches id = true <;> simp [allocated, h]

theorem AllocationWrite.touches_iff (w : AllocationWrite env db paymentId targetId payment target amount key) (id : ℕ) :
    w.row.touches id = true ↔ paymentId = id ∨ targetId = id := by
  simp [FinancialDocumentAllocation.touches, AllocationWrite.row, newAllocation]

theorem AllocationWrite.allocated_after (w : AllocationWrite env db paymentId targetId payment target amount key)
    (id : ℕ) : allocated w.after.allocations.values id =
      allocated db.allocations.values id + if w.row.touches id then w.stored.val else 0 := by
  rw [AllocationWrite.after, Table.values_insert, allocated_append, allocated_singleton]
  rfl

/-- The rounded sum that is written to a side is what was paid and what the row stores. -/
theorem AllocationWrite.stored_add (w : AllocationWrite env db paymentId targetId payment target amount key)
    (hamount : 1 / 10000 ≤ amount) {d : Document} (hd : 0 ≤ d.paidAmount.val) :
    roundHalfUp 4 (d.paidAmount.val + amount) = d.paidAmount.val + w.stored.val := by
  have hnonneg : (0 : ℚ) ≤ amount := by linarith
  rw [roundHalfUp_add d.paidAmount.scaled hd hnonneg, w.stored_val]

/-- The two sides are paid the stored amount more, within their totals; no other document changes. -/
theorem AllocationWrite.paid_after (w : AllocationWrite env db paymentId targetId payment target amount key)
    (hs : Settled db) (hamount : 1 / 10000 ≤ amount) (hallocatable : Allocatable payment target amount)
    (hpayment : db.documents.get? paymentId = some payment) (htarget : db.documents.get? targetId = some target)
    (hne : paymentId ≠ targetId) {id : ℕ} {d' : Document} (hd' : w.after.documents.get? id = some d')
    (hposted : d'.status = .posted) :
    d'.paidAmount.val = allocated w.after.allocations.values id ∧ d'.paidAmount.val ≤ d'.amounts.total.val := by
  rw [w.allocated_after]
  rw [AllocationWrite.after, Table.get?_modify, Table.get?_modify] at hd'
  by_cases ht : id = targetId
  · subst ht
    have hpaid := hs.paid id target htarget hallocatable.target_posted
    simp only [if_neg hne.symm, if_true, htarget, Option.map_some, Option.some.injEq] at hd'
    have hvalue := w.targetPaid_val.trans (w.stored_add hamount (hs.paid_nonneg htarget hallocatable.target_posted))
    have hbound := w.target_fits target htarget
    rw [← hs.allocated_eq_received htarget hallocatable.target_type, ← hpaid] at hbound
    rw [if_pos ((w.touches_iff id).2 (.inr rfl)), ← hpaid, ← hd']
    exact ⟨hvalue, hvalue.trans_le hbound⟩
  · by_cases hp : id = paymentId
    · subst hp
      have hpaid := hs.paid id payment hpayment hallocatable.payment_posted
      simp only [if_neg ht, if_true, hpayment, Option.map_some, Option.some.injEq] at hd'
      have hvalue := w.paymentPaid_val.trans (w.stored_add hamount (hs.paid_nonneg hpayment hallocatable.payment_posted))
      have hbound := w.payment_fits payment hpayment
      rw [← hs.allocated_eq_paidOut hpayment hallocatable.payment_type, ← hpaid] at hbound
      rw [if_pos ((w.touches_iff id).2 (.inl rfl)), ← hpaid, ← hd']
      exact ⟨hvalue, hvalue.trans_le hbound⟩
    · simp only [if_neg ht, if_neg hp] at hd'
      have hother : ¬w.row.touches id = true := by
        rw [w.touches_iff]
        rintro (h | h)
        · exact hp h.symm
        · exact ht h.symm
      rw [if_neg hother, add_zero]
      exact ⟨hs.paid id d' hd' hposted, hs.bounded id d' hd' hposted⟩

/-- **An allocation keeps the sums.** -/
theorem AllocationWrite.settled (w : AllocationWrite env db paymentId targetId payment target amount key)
    (hs : Settled db) (hamount : 1 / 10000 ≤ amount) (hallocatable : Allocatable payment target amount)
    (hpayment : db.documents.get? paymentId = some payment) (htarget : db.documents.get? targetId = some target) :
    Settled w.after := by
  have hrow : SoundAllocation db w.row :=
    ⟨w.stored_pos hamount, ⟨payment, hpayment, hallocatable.payment_posted, hallocatable.payment_type⟩,
      target, htarget, hallocatable.target_posted, hallocatable.target_type⟩
  have hpaid {id : ℕ} {d' : Document} (hd' : w.after.documents.get? id = some d') (hposted : d'.status = .posted) :=
    w.paid_after hs hamount hallocatable hpayment htarget hrow.payment_ne_target hd' hposted
  refine ⟨fun a ha => ?_, fun id d' hd' hposted => (hpaid hd' hposted).1,
    fun id d' hd' hposted => (hpaid hd' hposted).2⟩
  have hsound : SoundAllocation db a := by
    rw [AllocationWrite.after, Table.values_insert] at ha
    rcases List.mem_append.1 ha with hold | hnew
    · exact hs.sound a hold
    · exact List.mem_singleton.1 hnew ▸ hrow
  refine hsound.of_documents fun id _ d hd _ => ?_
  have hsame := w.sameButPaid id
  rw [hd] at hsame
  simpa using hsame

end

/-! ## Unwinding -/

/-- What a document shares with a counterparty. -/
def shared (documentId : ℕ) (allocations : List (ℕ × FinancialDocumentAllocation)) (other : ℕ) : ℚ :=
  ((allocations.filter fun r => r.2.otherSide documentId == other).map fun r => r.2.allocatedAmount.val).sum

theorem shared_cons (documentId : ℕ) (r : ℕ × FinancialDocumentAllocation)
    (rs : List (ℕ × FinancialDocumentAllocation)) (other : ℕ) :
    shared documentId (r :: rs) other =
      (if r.2.otherSide documentId = other then r.2.allocatedAmount.val else 0) + shared documentId rs other := by
  by_cases h : r.2.otherSide documentId = other <;> simp [shared, h]

theorem shared_nonneg {documentId : ℕ} {allocations : List (ℕ × FinancialDocumentAllocation)}
    (h : ∀ r ∈ allocations, 0 < r.2.allocatedAmount.val) (other : ℕ) : 0 ≤ shared documentId allocations other := by
  refine List.sum_nonneg fun x hx => ?_
  obtain ⟨r, hr, rfl⟩ := List.mem_map.1 hx
  exact (h r (List.mem_filter.1 hr).1).le

theorem mem_counterparties {documentId other : ℕ} {allocations : List (ℕ × FinancialDocumentAllocation)} :
    other ∈ counterparties documentId allocations ↔ ∃ r ∈ allocations, r.2.otherSide documentId = other := by
  simp [counterparties, List.mem_eraseDups]

theorem shared_pos {documentId other : ℕ} {allocations : List (ℕ × FinancialDocumentAllocation)}
    (h : ∀ r ∈ allocations, 0 < r.2.allocatedAmount.val) (hmem : other ∈ counterparties documentId allocations) :
    0 < shared documentId allocations other := by
  obtain ⟨r, hr, hother⟩ := mem_counterparties.1 hmem
  have hterm : r.2.allocatedAmount.val ∈
      (allocations.filter fun r => r.2.otherSide documentId == other).map fun r => r.2.allocatedAmount.val :=
    List.mem_map_of_mem (List.mem_filter.2 ⟨hr, beq_iff_eq.2 hother⟩)
  refine (h r hr).trans_le (List.single_le_sum (fun x hx => ?_) _ hterm)
  obtain ⟨q, hq, rfl⟩ := List.mem_map.1 hx
  exact (h q (List.mem_filter.1 hq).1).le

theorem shared_eq_zero {documentId other : ℕ} {allocations : List (ℕ × FinancialDocumentAllocation)}
    (hmem : other ∉ counterparties documentId allocations) : shared documentId allocations other = 0 := by
  have hnil : allocations.filter (fun r => r.2.otherSide documentId == other) = [] :=
    List.filter_eq_nil_iff.2 fun r hr hother => hmem (mem_counterparties.2 ⟨r, hr, beq_iff_eq.1 hother⟩)
  simp [shared, hnil]

/-- The other side of an allocation of the document is the other document it touches. -/
theorem touches_iff_otherSide {a : FinancialDocumentAllocation} {documentId other : ℕ}
    (htouches : a.touches documentId = true) (hne : other ≠ documentId) :
    a.touches other = true ↔ a.otherSide documentId = other := by
  simp only [FinancialDocumentAllocation.touches, FinancialDocumentAllocation.otherSide, Bool.or_eq_true,
    beq_iff_eq] at htouches ⊢
  split <;> omega

/-- The allocations of another document: those that stay, and those shared with the document. -/
theorem allocated_split {documentId other : ℕ} (hne : other ≠ documentId)
    (rows : List (ℕ × FinancialDocumentAllocation)) :
    allocated ((rows.filter fun r => !r.2.touches documentId).map Prod.snd) other +
        shared documentId (rows.filter fun r => r.2.touches documentId) other =
      allocated (rows.map Prod.snd) other := by
  induction rows with
  | nil => simp [allocated, shared]
  | cons r rs ih =>
    have hcons (l : List FinancialDocumentAllocation) : allocated (r.2 :: l) other =
        (if r.2.touches other then r.2.allocatedAmount.val else 0) + allocated l other := by
      rw [← allocated_singleton, ← allocated_append, List.singleton_append]
    rw [List.map_cons, hcons, ← ih]
    by_cases htouches : r.2.touches documentId = true
    · simp only [htouches, List.filter_cons, Bool.not_true, Bool.false_eq_true, if_false, if_true, shared_cons,
        touches_iff_otherSide htouches hne]
      ring
    · simp only [Bool.not_eq_true] at htouches
      simp only [htouches, List.filter_cons, Bool.not_false, Bool.false_eq_true, if_false, if_true, List.map_cons, hcons]
      ring

/-- The loop over the allocations subtracts what is shared, when that much was paid. -/
theorem unwoundPaid_eq {documentId other : ℕ} {allocations : List (ℕ × FinancialDocumentAllocation)}
    (h : ∀ r ∈ allocations, 0 < r.2.allocatedAmount.val) {paid : ℚ} (hpaid : shared documentId allocations other ≤ paid) :
    unwoundPaid documentId allocations other paid = paid - shared documentId allocations other := by
  unfold unwoundPaid
  induction allocations generalizing paid with
  | nil => simp [shared]
  | cons r rs ih =>
    obtain ⟨hr, hrs⟩ := List.forall_mem_cons.1 h
    rw [shared_cons] at hpaid ⊢
    rw [List.foldl_cons]
    have hnonneg : 0 ≤ shared documentId rs other := shared_nonneg hrs other
    split at hpaid
    · next hother =>
      rw [if_pos hother, if_pos hother, max_eq_right (by linarith), ih hrs (by linarith)]
      ring
    · next hother =>
      rw [if_neg hother, if_neg hother, ih hrs (by linarith)]
      ring

theorem unwindWrites_spec {documentId : ℕ} {allocations : List (ℕ × FinancialDocumentAllocation)}
    {readSoFar writes : List (ℕ × Money)} (h : unwindWrites documentId allocations readSoFar = .ok writes) :
    List.Forall₂ (fun r w : ℕ × Money =>
      w.1 = r.1 ∧ w.2.val = roundHalfUp 4 (unwoundPaid documentId allocations r.1 r.2.val)) readSoFar writes := by
  induction readSoFar generalizing writes with
  | nil => cases h; exact .nil
  | cons r rs ih =>
    simp only [unwindWrites, bind_eq_ok, pure_eq_ok] at h
    obtain ⟨paid, hpaid, rest, hrest, rfl⟩ := h
    exact .cons ⟨rfl, val_of_store hpaid⟩ (ih hrest)

theorem nodup_eraseDups : ∀ l : List ℕ, l.eraseDups.Nodup
  | [] => by simp
  | a :: as => by
    rw [List.eraseDups_cons, List.nodup_cons]
    refine ⟨fun hmem => ?_, nodup_eraseDups _⟩
    simpa using (List.mem_filter.1 (List.mem_eraseDups.1 hmem)).2
termination_by l => l.length
decreasing_by exact Nat.lt_succ_of_le (List.length_filter_le _ _)

/-- The reads of a reversal, complete and still committed. -/
structure ReadsNow (db : Db) (documentId : ℕ) (readSoFar : List (ℕ × Money)) : Prop where
  complete : readSoFar.map Prod.fst = counterparties documentId (allocationsOf db documentId)
  fresh : ∀ r ∈ readSoFar, readPaid db r.1 = some r

section
variable {db : Db} {documentId : ℕ} {readSoFar writes : List (ℕ × Money)}

/-- A counterparty of a document is another POSTED document, paid at least what the two share. -/
theorem Settled.counterparty (hs : Settled db) {other : ℕ}
    (hother : other ∈ counterparties documentId (allocationsOf db documentId)) :
    other ≠ documentId ∧ (∃ d, db.documents.get? other = some d ∧ d.status = .posted) ∧
      0 < shared documentId (allocationsOf db documentId) other ∧
      shared documentId (allocationsOf db documentId) other ≤ allocated db.allocations.values other := by
  have hpos : ∀ r ∈ db.allocations.rows, 0 < r.2.allocatedAmount.val := fun r hr =>
    (hs.sound r.2 (List.mem_map_of_mem hr)).pos
  obtain ⟨r, hr, rfl⟩ := mem_counterparties.1 hother
  obtain ⟨hrow, htouches⟩ := List.mem_filter.1 hr
  have hsound := hs.sound r.2 (List.mem_map_of_mem hrow)
  have hdifferent := hsound.payment_ne_target
  have hne : r.2.otherSide documentId ≠ documentId := by
    simp only [FinancialDocumentAllocation.touches, FinancialDocumentAllocation.otherSide, Bool.or_eq_true,
      beq_iff_eq] at htouches ⊢
    split <;> omega
  refine ⟨hne, ?_, shared_pos (fun q hq => hpos q (List.mem_filter.1 hq).1) hother, ?_⟩
  · obtain ⟨p, hp, hpposted, -⟩ := hsound.payment
    obtain ⟨t, ht, htposted, -⟩ := hsound.target
    unfold FinancialDocumentAllocation.otherSide
    split
    · exact ⟨t, ht, htposted⟩
    · exact ⟨p, hp, hpposted⟩
  · have hsplit := allocated_split hne db.allocations.rows
    have hrest : 0 ≤ allocated ((db.allocations.rows.filter fun r => !r.2.touches documentId).map Prod.snd)
        (r.2.otherSide documentId) := by
      refine allocated_nonneg (fun a ha => ?_) _
      obtain ⟨q, hq, rfl⟩ := List.mem_map.1 ha
      exact hpos q (List.mem_filter.1 hq).1
    rw [Table.values, ← hsplit, allocationsOf]
    exact le_add_of_nonneg_left hrest

/-- Each value written is the committed one less what the two documents share. -/
theorem Settled.unwound (hs : Settled db) (hreads : ReadsNow db documentId readSoFar)
    (hwrites : unwindWrites documentId (allocationsOf db documentId) readSoFar = .ok writes) :
    writes.map Prod.fst = readSoFar.map Prod.fst ∧ ∀ w ∈ writes, ∃ d, db.documents.get? w.1 = some d ∧
      d.status = .posted ∧ w.2.val = d.paidAmount.val - shared documentId (allocationsOf db documentId) w.1 := by
  have hpos : ∀ r ∈ allocationsOf db documentId, 0 < r.2.allocatedAmount.val := fun r hr =>
    (hs.sound r.2 (List.mem_map_of_mem (List.mem_filter.1 hr).1)).pos
  have hvalue : ∀ r ∈ readSoFar, ∀ w : ℕ × Money, w.1 = r.1 →
      w.2.val = roundHalfUp 4 (unwoundPaid documentId (allocationsOf db documentId) r.1 r.2.val) →
      ∃ d, db.documents.get? w.1 = some d ∧ d.status = .posted ∧
        w.2.val = d.paidAmount.val - shared documentId (allocationsOf db documentId) w.1 := by
    intro r hr w hkey hval
    obtain ⟨-, ⟨d, hd, hposted⟩, -, hle⟩ :=
      hs.counterparty (hreads.complete ▸ List.mem_map_of_mem (f := Prod.fst) hr)
    have hfresh := hreads.fresh r hr
    simp only [readPaid, hd, Option.map_some, Option.some.injEq] at hfresh
    have hpaid : r.2 = d.paidAmount := by rw [← hfresh]
    rw [← hs.paid r.1 d hd hposted] at hle
    rw [hpaid, unwoundPaid_eq hpos hle] at hval
    refine ⟨d, hkey ▸ hd, hposted, ?_⟩
    rw [hkey, hval]
    refine roundHalfUp_of_scaled (d.paidAmount.scaled.sub ?_)
    refine Scaled.sum fun x hx => ?_
    obtain ⟨q, -, rfl⟩ := List.mem_map.1 hx
    exact q.2.allocatedAmount.scaled
  have hspec := unwindWrites_spec hwrites
  clear hwrites
  constructor
  · clear hvalue
    clear hreads
    induction hspec with
    | nil => rfl
    | cons h _ ih => rw [List.map_cons, List.map_cons, h.1, ih]
  · clear hreads
    induction hspec with
    | nil => simp
    | cons h _ ih =>
      obtain ⟨hhead, htail⟩ := List.forall_mem_cons.1 hvalue
      exact List.forall_mem_cons.2 ⟨hhead _ h.1 h.2, ih htail⟩

/-- Every counterparty changes, so every one is updated and waits for its row. -/
theorem Settled.changedPaid_eq (hs : Settled db) (hreads : ReadsNow db documentId readSoFar)
    (hwrites : unwindWrites documentId (allocationsOf db documentId) readSoFar = .ok writes) :
    changedPaid readSoFar writes = writes := by
  refine List.filter_eq_self.2 fun w hw => ?_
  obtain ⟨hkeys, hvalues⟩ := hs.unwound hreads hwrites
  obtain ⟨d, hd, -, hval⟩ := hvalues w hw
  have hmem : w.1 ∈ counterparties documentId (allocationsOf db documentId) :=
    hreads.complete ▸ hkeys ▸ List.mem_map_of_mem hw
  obtain ⟨-, -, hpos, -⟩ := hs.counterparty hmem
  have hunread : w ∉ readSoFar := by
    intro hread
    have hfresh := hreads.fresh w hread
    simp only [readPaid, hd, Option.map_some, Option.some.injEq] at hfresh
    have hsame : d.paidAmount = w.2 := congrArg Prod.snd hfresh
    rw [hsame] at hval
    linarith
  simp [hunread]

/-- The sum of every other document loses what it shared with the reversed one. -/
theorem allocated_writeUnwinding {env : Env} {reason : String} (w : ReversalWrite env db documentId reason)
    (writes : List (ℕ × Money)) {id : ℕ} (hne : id ≠ documentId) :
    allocated (writeUnwinding w.after documentId (allocationsOf db documentId) writes).allocations.values id =
      allocated db.allocations.values id - shared documentId (allocationsOf db documentId) id := by
  have hrows := rows_writeUnwinding w.after documentId writes
  have hsplit := allocated_split hne db.allocations.rows
  rw [Table.values, show allocationsOf db documentId = allocationsOf w.after documentId from rfl, hrows, eq_sub_iff_add_eq]
  exact hsplit

/-- A POSTED document after an unwinding is an old one, with its share taken off. -/
theorem Settled.paid_writeUnwinding {env : Env} {reason : String} (hs : Settled db)
    (hreads : ReadsNow db documentId readSoFar)
    (hwrites : unwindWrites documentId (allocationsOf db documentId) readSoFar = .ok writes)
    (w : ReversalWrite env db documentId reason) {id : ℕ} {d' : Document}
    (hd' : (writeUnwinding w.after documentId (allocationsOf db documentId) writes).documents.get? id = some d')
    (hposted : d'.status = .posted) :
    id ≠ documentId ∧ ∃ d, db.documents.get? id = some d ∧ d.status = .posted ∧ setPaid 0 d' = setPaid 0 d ∧
      d'.paidAmount.val = d.paidAmount.val - shared documentId (allocationsOf db documentId) id := by
  obtain ⟨hkeys, hvalues⟩ := hs.unwound hreads hwrites
  have hnodup : (writes.map Prod.fst).Nodup := by
    rw [hkeys, hreads.complete]
    exact nodup_eraseDups _
  rcases get?_writeUnwinding hd' with ⟨-, hreversed⟩ | ⟨hne, d, hd, hsame⟩
  · rw [hposted] at hreversed
    cases hreversed
  · have hd : db.documents.get? id = some d := hd
    refine ⟨hne, d, hd, (status_eq_of_setPaid hsame).symm.trans hposted, hsame, ?_⟩
    rw [writeUnwinding, Table.get?_modify_of_ne _ hne] at hd'
    by_cases hmem : id ∈ writes.map Prod.fst
    · obtain ⟨write, hwrite, rfl⟩ := List.mem_map.1 hmem
      rw [get?_writePaid_of_mem hnodup hwrite] at hd'
      obtain ⟨d₀, hd₀, -, hval⟩ := hvalues write hwrite
      obtain rfl : d₀ = d := Option.some.inj (hd₀.symm.trans hd)
      have hset : setPaid write.2 d₀ = d' := by
        have hget : w.after.documents.get? write.1 = some d₀ := hd
        simpa [hget] using hd'
      rw [← hset]
      exact hval
    · rw [get?_writePaid_of_notMem hmem] at hd'
      obtain rfl : d = d' := Option.some.inj (hd.symm.trans hd')
      rw [shared_eq_zero (fun hc => hmem (hkeys ▸ hreads.complete ▸ hc)), sub_zero]

/-- The allocations that are left are old ones, and none of the reversed document's. -/
theorem mem_allocations_writeUnwinding {env : Env} {reason : String} (w : ReversalWrite env db documentId reason)
    {a : FinancialDocumentAllocation}
    (ha : a ∈ (writeUnwinding w.after documentId (allocationsOf db documentId) writes).allocations.values) :
    a ∈ db.allocations.values ∧ a.touches documentId = false := by
  have hrows := rows_writeUnwinding w.after documentId writes
  rw [Table.values, show allocationsOf db documentId = allocationsOf w.after documentId from rfl, hrows] at ha
  obtain ⟨r, hr, rfl⟩ := List.mem_map.1 ha
  obtain ⟨hr, htouches⟩ := List.mem_filter.1 hr
  exact ⟨List.mem_map_of_mem hr, by simpa using htouches⟩

/-- **An undisturbed reversal keeps the sums.** -/
theorem Settled.unwinding {env : Env} {reason : String} (hs : Settled db) (hreads : ReadsNow db documentId readSoFar)
    (hwrites : unwindWrites documentId (allocationsOf db documentId) readSoFar = .ok writes)
    (w : ReversalWrite env db documentId reason) :
    Settled (writeUnwinding w.after documentId (allocationsOf db documentId) writes) := by
  refine ⟨fun a ha => ?_, fun id d' hd' hposted => ?_, fun id d' hd' hposted => ?_⟩
  · obtain ⟨hmem, huntouched⟩ := mem_allocations_writeUnwinding w ha
    refine (hs.sound a hmem).of_documents fun id htouches d hd _ => ?_
    have hne : id ≠ documentId := by
      rintro rfl
      rw [huntouched] at htouches
      cases htouches
    have hsame := SameButPaid.writePaid db.documents writes id
    rw [hd] at hsame
    rw [writeUnwinding, Table.get?_modify_of_ne _ hne]
    exact Option.map_eq_some_iff.1 hsame
  · obtain ⟨hne, d, hd, hold, -, hpaid⟩ := hs.paid_writeUnwinding hreads hwrites w hd' hposted
    rw [allocated_writeUnwinding w writes hne, hpaid, hs.paid id d hd hold]
  · obtain ⟨hne, d, hd, hold, hsame, hpaid⟩ := hs.paid_writeUnwinding hreads hwrites w hd' hposted
    have hamounts : d'.amounts = d.amounts :=
      show (setPaid 0 d').amounts = (setPaid 0 d).amounts from congrArg Document.amounts hsame
    have hshared : 0 ≤ shared documentId (allocationsOf db documentId) id :=
      shared_nonneg (fun r hr => (hs.sound r.2 (List.mem_map_of_mem (List.mem_filter.1 hr).1)).pos) id
    have hbound := hs.bounded id d hd hold
    rw [hpaid, hamounts]
    linarith

end

end LcsSystem
