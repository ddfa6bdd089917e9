import LcsSystem.Finance.InvoiceWrites

/-!
# An invoice and its charges

The charges of an invoice are the ones its source rows name. `Agrees` compares the two: every charge
is issued, the invoice is in the currency of each, its lines are theirs, and its total is their sum.
A created invoice has the lines and the sum by construction (`InvoiceWrite.agrees_iff`); what is left
to the callers are the statuses, the currencies and the units of the lines.
-/

namespace LcsSystem
open Relational DecimalArith Checks

/-- The charges a document records as its sources, in the order of the source rows. -/
def sourceCharges (db : Db) (documentId : ℕ) : List (ℕ × ServiceOrderCharge) :=
  (db.sources.values.filter fun s =>
    s.sourceType == .serviceOrderCharge && s.financialDocumentId == documentId).filterMap fun s =>
      (db.charges.get? s.sourceId).map fun c => (s.sourceId, c)

/-- The foreign key of the source rows. -/
def SourcesLinked (db : Db) : Prop :=
  ∀ s ∈ db.sources.values, ∃ d, db.documents.get? s.financialDocumentId = some d

structure Agrees (db : Db) (id : ℕ) (d : Document) : Prop where
  issued : ∀ c ∈ sourceCharges db id, c.2.issued = true
  currency : ∀ c ∈ sourceCharges db id, c.2.currencyCode = d.currencyCode
  lines : d.lines.map DocumentLine.toLineValues =
    ((sourceCharges db id).flatMap fun c => c.2.lines).map ChargeLine.toLineValues
  total : d.amounts.total.val =
    (((sourceCharges db id).filter fun c => c.2.currencyCode == d.currencyCode).map
      fun c => c.2.amounts.total.val).sum

/-! ## The sources of a created invoice -/

theorem LineValues.copied_eq_self {l : LineValues} : l.copied = l ↔ l.unitCode = none := by
  cases l
  simp [LineValues.copied, eq_comm]

theorem map_copied_eq_iff {ls : List ChargeLine} :
    (ls.map fun l => l.toLineValues.copied) = ls.map ChargeLine.toLineValues ↔ ∀ l ∈ ls, l.unitCode = none := by
  rw [List.map_inj_left]
  exact forall₂_congr fun l _ => LineValues.copied_eq_self

theorem filterMap_stored {db : Db} {id : ℕ} {charges : List (ℕ × ServiceOrderCharge)}
    (h : ∀ c ∈ charges, db.charges.get? c.1 = some c.2) :
    (charges.map fun c => (⟨id, .serviceOrderCharge, c.1⟩ : FinancialDocumentSource)).filterMap
      (fun s => (db.charges.get? s.sourceId).map fun c => (s.sourceId, c)) = charges := by
  induction charges with
  | nil => rfl
  | cons c cs ih =>
    have hc := h c List.mem_cons_self
    have hcs := ih fun c' hc' => h c' (List.mem_cons_of_mem _ hc')
    simp [hc, hcs]

namespace InvoiceWrite
variable {db db' : Db} {d : Document} {charges : List (ℕ × ServiceOrderCharge)} {own : List FinancialDocumentSource}

/-- The source rows of the new document name exactly the charges it was written for. -/
theorem sourceCharges_eq (w : InvoiceWrite db db' d charges own) (hlinked : SourcesLinked db)
    (hstored : ∀ c ∈ charges, db.charges.get? c.1 = some c.2) (hown : ∀ s ∈ own, s.sourceType ≠ .serviceOrderCharge) :
    sourceCharges db' db.documents.nextId = charges := by
  have hold : db.sources.values.filter (fun s =>
      s.sourceType == .serviceOrderCharge && s.financialDocumentId == db.documents.nextId) = [] := by
    rw [List.filter_eq_nil_iff]
    intro s hs hnew
    obtain ⟨d₀, hd₀⟩ := hlinked s hs
    have hid := beq_iff_eq.1 (Bool.and_eq_true_iff.1 hnew).2
    rw [hid, Table.get?_nextId] at hd₀
    cases hd₀
  have hnone : own.filter (fun s =>
      s.sourceType == .serviceOrderCharge && s.financialDocumentId == db.documents.nextId) = [] := by
    rw [List.filter_eq_nil_iff]
    intro s hs hcharge
    exact hown s hs (beq_iff_eq.1 (Bool.and_eq_true_iff.1 hcharge).1)
  have hall : (charges.map fun c => (⟨db.documents.nextId, .serviceOrderCharge, c.1⟩ : FinancialDocumentSource)).filter
      (fun s => s.sourceType == .serviceOrderCharge && s.financialDocumentId == db.documents.nextId) =
        charges.map fun c => ⟨db.documents.nextId, .serviceOrderCharge, c.1⟩ := by
    rw [List.filter_eq_self]
    intro s hs
    obtain ⟨c, -, rfl⟩ := List.mem_map.1 hs
    simp
  rw [sourceCharges, w.sources, List.filter_append, List.filter_append, hold, hnone, hall, List.nil_append,
    List.append_nil, w.charges_eq]
  exact filterMap_stored hstored

/-- A new invoice over the whole sum agrees with its charges exactly when they are issued, are in its
currency and have no units. -/
theorem agrees_iff (w : InvoiceWrite db db' d charges own) (hlinked : SourcesLinked db)
    (hstored : ∀ c ∈ charges, db.charges.get? c.1 = some c.2) (hown : ∀ s ∈ own, s.sourceType ≠ .serviceOrderCharge)
    (htotal : d.amounts.total.val = (charges.map fun c => c.2.amounts.total.val).sum) :
    Agrees db' db.documents.nextId d ↔
      ∀ c ∈ charges, c.2.issued = true ∧ c.2.currencyCode = d.currencyCode ∧ ∀ l ∈ c.2.lines, l.unitCode = none := by
  have hsources := w.sourceCharges_eq hlinked hstored hown
  have hlines : (d.lines.map DocumentLine.toLineValues = (charges.flatMap fun c => c.2.lines).map ChargeLine.toLineValues) ↔
      ∀ c ∈ charges, ∀ l ∈ c.2.lines, l.unitCode = none := by
    rw [w.lines, map_copied_eq_iff]
    simp only [List.mem_flatMap]
    exact ⟨fun h c hc l hl => h l ⟨c, hc, hl⟩, fun h l ⟨c, hc, hl⟩ => h c hc l hl⟩
  constructor
  · rintro ⟨hissued, hcurrency, hsame, -⟩
    rw [hsources] at hissued hcurrency hsame
    intro c hc
    exact ⟨hissued c hc, hcurrency c hc, hlines.1 hsame c hc⟩
  · intro h
    have hfilter : charges.filter (fun c => c.2.currencyCode == d.currencyCode) = charges := by
      rw [List.filter_eq_self]
      intro c hc
      exact beq_iff_eq.2 (h c hc).2.1
    refine ⟨?_, ?_, ?_, ?_⟩ <;> rw [hsources]
    · exact fun c hc => (h c hc).1
    · exact fun c hc => (h c hc).2.1
    · exact hlines.2 fun c hc => (h c hc).2.2
    · rw [hfilter, htotal]

end InvoiceWrite

/-! ## The two creators -/

/-- An invoice that is answered again is stored. -/
theorem get?_of_invoiceOfCharge {db : Db} (hlinked : SourcesLinked db) {chargeId id : ℕ}
    (h : invoiceOfCharge db chargeId = some id) : ∃ d, db.documents.get? id = some d := by
  simp only [invoiceOfCharge, Option.bind_eq_some_iff, Option.map_eq_some_iff] at h
  obtain ⟨s, hs, _, hd, rfl⟩ := h
  exact hlinked s (List.mem_of_find?_eq_some hs)

theorem get?_of_serviceOrderInvoices {db : Db} {orderId id : ℕ} (h : id ∈ serviceOrderInvoices db orderId) :
    ∃ d, db.documents.get? id = some d ∧ d.status ≠ .reversed := by
  have hlive {p : FinancialDocumentSource → Bool}
      (h : id ∈ (((db.sources.values.filter p).map FinancialDocumentSource.financialDocumentId).filter
        (notReversed db)).insertionSort (· ≤ ·)) : ∃ d, db.documents.get? id = some d ∧ d.status ≠ .reversed := by
    rw [List.mem_insertionSort, List.mem_filter, notReversed, Option.any_eq_true] at h
    obtain ⟨-, d, hd, hstatus⟩ := h
    exact ⟨d, hd, by simpa using hstatus⟩
  unfold serviceOrderInvoices at h
  dsimp only at h
  split at h
  · exact hlive h
  · exact hlive h

/-- **An invoice agrees with its charges** when every charge it was created from is issued, is in the
currency of the invoice and has no unit on its lines, and only then. An invoice of one charge is only
created from an issued charge and takes its currency. -/
theorem invoice_agrees_iff {env : Env} {db db' : Db} {id : ℕ} (hlinked : SourcesLinked db)
    (hnew : db.documents.get? id = none) :
    (∀ chargeId, createInvoiceFromCharge env db chargeId = .ok (db', id) →
      ∃ charge d, db.charges.get? chargeId = some charge ∧ db'.documents.get? id = some d ∧
        (Agrees db' id d ↔ ∀ l ∈ charge.lines, l.unitCode = none)) ∧
    (∀ orderId, createInvoiceFromServiceOrder env db orderId = .ok (db', id) →
      ∃ order d, db.serviceOrders.get? orderId = some order ∧ db'.documents.get? id = some d ∧
        (Agrees db' id d ↔ ∀ c ∈ pendingCharges db orderId,
          c.2.issued = true ∧ c.2.currencyCode = order.currencyCode ∧ ∀ l ∈ c.2.lines, l.unitCode = none)) := by
  constructor
  · intro chargeId h
    obtain ⟨charge, hcharge, hissued, ⟨hexisting, -⟩ | ⟨-, hwrite⟩⟩ := createInvoiceFromCharge_eq_ok.1 h
    · obtain ⟨d, hd⟩ := get?_of_invoiceOfCharge hlinked hexisting
      rw [hd] at hnew
      cases hnew
    obtain ⟨rfl, d, w, hcurrency, hamounts⟩ := writeChargeInvoice_spec hwrite
    refine ⟨charge, d, hcharge, w.get?_new, ?_⟩
    rw [w.agrees_iff hlinked (by simpa using hcharge) (by simp) (by simp [hamounts])]
    simp [hissued, hcurrency]
  · intro orderId h
    obtain ⟨order, horder, ⟨hexisting, -⟩ | ⟨-, -, hwrite⟩⟩ := createInvoiceFromServiceOrder_eq_ok.1 h
    · obtain ⟨d, hd, -⟩ := get?_of_serviceOrderInvoices (List.mem_of_mem_head? hexisting)
      rw [hd] at hnew
      cases hnew
    obtain ⟨rfl, d, w, hcurrency, htotal⟩ := writeOrderInvoice_spec hwrite
    refine ⟨order, d, horder, w.get?_new, ?_⟩
    rw [w.agrees_iff hlinked (fun c hc => (mem_pendingCharges.1 hc).1) (by simp) htotal, hcurrency]

/-- Two issued dollar charges of a dollar order. -/
theorem invoice_agrees_issued :
    ∃ db' d, createInvoiceFromServiceOrder january
        (orderWith [chargeOfHundred "SC-1" usd true, chargeOfHundred "SC-2" usd true]) 1 = .ok (db', 1) ∧
      db'.documents.get? 1 = some d ∧ Agrees db' 1 d := by
  have hcreated : okAnd (createInvoiceFromServiceOrder january
      (orderWith [chargeOfHundred "SC-1" usd true, chargeOfHundred "SC-2" usd true]) 1) (fun r => r.2 = 1) = true := by
    decide +kernel
  obtain ⟨r, hr, hid⟩ := okAnd_eq_true.1 hcreated
  have hr' : r = (r.1, 1) := by rw [← hid]
  rw [hr'] at hr
  obtain ⟨order, d, horder, hd, hagrees⟩ :=
    (invoice_agrees_iff (show SourcesLinked (orderWith _) from fun s hs => by cases hs) (by decide +kernel)).2 1 hr
  refine ⟨r.1, d, hr, hd, hagrees.2 ?_⟩
  have horder' : order.currencyCode = usd := by
    rw [← Option.some.inj horder]
  rw [horder']
  decide +kernel

/-- A draft charge and a charge in riel, both on a dollar invoice of 200. -/
theorem invoice_disagrees :
    ∃ r, createInvoiceFromServiceOrder january
        (orderWith [chargeOfHundred "SC-1" usd false, chargeOfHundred "SC-2" khr true]) 1 = .ok r ∧
      ∃ d ∈ r.1.documents.get? r.2, d.currencyCode = usd ∧ d.amounts.total.val = 200 ∧
        (∃ c ∈ sourceCharges r.1 r.2, c.2.issued = false) ∧
        (∃ c ∈ sourceCharges r.1 r.2, c.2.currencyCode = khr) ∧ ¬Agrees r.1 r.2 d := by
  have hcreated : okAnd (createInvoiceFromServiceOrder january
      (orderWith [chargeOfHundred "SC-1" usd false, chargeOfHundred "SC-2" khr true]) 1) (fun r =>
        ∃ d ∈ r.1.documents.get? r.2, d.currencyCode = usd ∧ d.amounts.total.val = 200 ∧
          (∃ c ∈ sourceCharges r.1 r.2, c.2.issued = false) ∧
          (∃ c ∈ sourceCharges r.1 r.2, c.2.currencyCode = khr)) = true := by
    decide +kernel
  obtain ⟨r, hr, d, hd, hcurrency, htotal, ⟨c, hc, hdraft⟩, hriel⟩ := okAnd_eq_true.1 hcreated
  refine ⟨r, hr, d, hd, hcurrency, htotal, ⟨c, hc, hdraft⟩, hriel, fun h => ?_⟩
  rw [h.issued c hc] at hdraft
  cases hdraft

end LcsSystem
