import LcsSystem.Finance.Invoices

/-!
# What the invoice creators write

`createInvoiceFromCharge` and `createInvoiceFromServiceOrder` taken apart once: either an invoice
that was there already is answered, or one `InvoiceWrite` is done for the charges that were found
without one.
-/

namespace LcsSystem
open Calendar Relational DecimalArith Checks

theorem values_foldl_insert {α β : Type} (f : β → α) (bs : List β) (t : Table α) :
    (bs.foldl (fun t b => t.insert (f b)) t).values = t.values ++ bs.map f := by
  induction bs generalizing t with
  | nil => simp
  | cons b bs ih => simp [ih]

/-- The values of a charge line that its copy in an invoice keeps. -/
def LineValues.copied (l : LineValues) : LineValues := { l with unitCode := none }

/-- One draft customer invoice for `charges`, and a source row for each of them; `own` are the rows
that say nothing of a charge. -/
structure InvoiceWrite (db db' : Db) (d : Document) (charges : List (ℕ × ServiceOrderCharge))
    (own : List FinancialDocumentSource) : Prop where
  after : db' = { db with
    sequences := db'.sequences, documents := db.documents.insert d, sources := db'.sources }
  sources : db'.sources.values =
    db.sources.values ++ charges.map (fun c => ⟨db.documents.nextId, .serviceOrderCharge, c.1⟩) ++ own
  draft : d.status = .draft
  customerInvoice : d.documentType = .customerInvoice
  lines : d.lines.map DocumentLine.toLineValues =
    (charges.flatMap fun c => c.2.lines).map fun l => l.toLineValues.copied

namespace InvoiceWrite
variable {db db' : Db} {d : Document} {charges : List (ℕ × ServiceOrderCharge)} {own : List FinancialDocumentSource}

theorem documents (w : InvoiceWrite db db' d charges own) : db'.documents = db.documents.insert d := by
  rw [w.after]

theorem charges_eq (w : InvoiceWrite db db' d charges own) : db'.charges = db.charges := by rw [w.after]

theorem get?_new (w : InvoiceWrite db db' d charges own) : db'.documents.get? db.documents.nextId = some d := by
  rw [w.documents, Table.get?_insert_self]

end InvoiceWrite

/-! ## From a charge -/

theorem writeChargeInvoice_spec {env : Env} {db db' : Db} {chargeId id : ℕ} {charge : ServiceOrderCharge}
    (h : writeChargeInvoice env db chargeId charge = .ok (db', id)) :
    id = db.documents.nextId ∧ ∃ d, InvoiceWrite db db' d [(chargeId, charge)] [] ∧
      d.currencyCode = charge.currencyCode ∧ d.amounts = charge.amounts := by
  simp only [writeChargeInvoice, bind_eq_ok, pure_eq_ok] at h
  obtain ⟨⟨currency, rate, base, precision⟩, hinputs, storedRate, -, baseAmounts, -, _, -, h⟩ := h
  cases h
  obtain ⟨hcurrency, -⟩ := documentCurrencyInputs_spec hinputs
  rw [CurrencyCode.ofText?_code, Option.some.injEq] at hcurrency
  refine ⟨rfl, _, ⟨rfl, by simp, rfl, rfl, ?_⟩, hcurrency.symm, rfl⟩
  rw [List.flatMap_singleton]
  exact List.map_map

/-- **`createInvoiceFromCharge`** answers with the recorded invoice, or writes one for an issued charge. -/
theorem createInvoiceFromCharge_eq_ok {env : Env} {db db' : Db} {chargeId id : ℕ} :
    createInvoiceFromCharge env db chargeId = .ok (db', id) ↔
      ∃ charge, db.charges.get? chargeId = some charge ∧ charge.issued = true ∧
        (invoiceOfCharge db chargeId = some id ∧ db' = db ∨
          invoiceOfCharge db chargeId = none ∧ writeChargeInvoice env db chargeId charge = .ok (db', id)) := by
  simp only [createInvoiceFromCharge, bind_eq_ok, require_eq_ok, check_eq_ok]
  constructor
  · rintro ⟨charge, hcharge, _, hissued, h⟩
    refine ⟨charge, hcharge, hissued, ?_⟩
    cases hexisting : invoiceOfCharge db chargeId with
    | none => exact .inr ⟨rfl, by simpa [hexisting] using h⟩
    | some existing =>
      simp only [hexisting, pure_eq_ok, Prod.mk.injEq] at h
      exact .inl ⟨by rw [h.2], h.1.symm⟩
  · rintro ⟨charge, hcharge, hissued, ⟨hexisting, rfl⟩ | ⟨hexisting, h⟩⟩
    · exact ⟨charge, hcharge, ⟨⟩, hissued, by simp [hexisting]⟩
    · exact ⟨charge, hcharge, ⟨⟩, hissued, by simpa [hexisting] using h⟩

/-! ## From a service order -/

/-- Column amounts add up without rounding. -/
theorem sumColumn_val {charges : List (ℕ × ServiceOrderCharge)} {column : Amounts → Money} {sum : Money}
    (h : sumColumn charges column = .ok sum) : sum.val = (charges.map fun c => (column c.2.amounts).val).sum := by
  rw [val_of_store h]
  apply roundHalfUp_of_scaled
  apply Scaled.sum
  intro x hx
  obtain ⟨c, -, rfl⟩ := List.mem_map.1 hx
  exact (column c.2.amounts).scaled

theorem writeOrderInvoice_spec {env : Env} {db db' : Db} {orderId id : ℕ} {order : ServiceOrder}
    {pending : List (ℕ × ServiceOrderCharge)} (h : writeOrderInvoice env db orderId order pending = .ok (db', id)) :
    id = db.documents.nextId ∧
      ∃ d, InvoiceWrite db db' d pending [⟨db.documents.nextId, .serviceOrder, orderId⟩] ∧
        d.currencyCode = order.currencyCode ∧
        d.amounts.total.val = (pending.map fun c => c.2.amounts.total.val).sum := by
  simp only [writeOrderInvoice, bind_eq_ok, pure_eq_ok] at h
  obtain ⟨subtotal, -, discount, -, tax, -, total, htotal, _, -, h⟩ := h
  cases h
  refine ⟨rfl, _, ⟨rfl, ?_, rfl, rfl, ?_⟩, rfl, sumColumn_val htotal⟩
  · simp [orderSources, values_foldl_insert]
  · have hcopied (l : List ChargeLine) (n : ℕ) :
        ((l.zipIdx n).map fun r => r.1.toDocumentLine (r.2 + 1) orderId).map DocumentLine.toLineValues =
          l.map fun l => l.toLineValues.copied := by
      induction l generalizing n with
      | nil => rfl
      | cons a as ih => simp only [List.zipIdx_cons, List.map_cons, ih]; rfl
    exact hcopied _ 0

/-- **`createInvoiceFromServiceOrder`** answers with the order's first invoice, or writes one for its
charges without an invoice. -/
theorem createInvoiceFromServiceOrder_eq_ok {env : Env} {db db' : Db} {orderId id : ℕ} :
    createInvoiceFromServiceOrder env db orderId = .ok (db', id) ↔
      ∃ order, db.serviceOrders.get? orderId = some order ∧
        ((serviceOrderInvoices db orderId).head? = some id ∧ db' = db ∨
          serviceOrderInvoices db orderId = [] ∧ pendingCharges db orderId ≠ [] ∧
            writeOrderInvoice env db orderId order (pendingCharges db orderId) = .ok (db', id)) := by
  have hany (hpending : pendingCharges db orderId ≠ []) :
      db.charges.values.any (fun c => c.serviceOrderId == orderId) = true := by
    obtain ⟨r, hr⟩ := List.exists_mem_of_ne_nil _ hpending
    have hr' := List.mem_filter.1 (List.mem_filter.1 hr).1
    exact List.any_eq_true.2 ⟨r.2, List.mem_map.2 ⟨r, hr'.1, rfl⟩, hr'.2⟩
  simp only [createInvoiceFromServiceOrder, bind_eq_ok, require_eq_ok]
  constructor
  · rintro ⟨order, horder, h⟩
    refine ⟨order, horder, ?_⟩
    cases hexisting : serviceOrderInvoices db orderId with
    | nil =>
      simp only [hexisting, bind_eq_ok, check_eq_ok] at h
      obtain ⟨_, -, _, hpending, h⟩ := h
      exact .inr ⟨rfl, hpending, h⟩
    | cons existing rest =>
      simp only [hexisting, pure_eq_ok, Prod.mk.injEq] at h
      exact .inl ⟨by rw [List.head?_cons, h.2], h.1.symm⟩
  · rintro ⟨order, horder, ⟨hexisting, rfl⟩ | ⟨hexisting, hpending, h⟩⟩
    · obtain ⟨rest, hrest⟩ := List.head?_eq_some_iff.1 hexisting
      exact ⟨order, horder, by simp [hrest]⟩
    · refine ⟨order, horder, ?_⟩
      simp only [hexisting, bind_eq_ok, check_eq_ok]
      exact ⟨⟨⟩, hany hpending, ⟨⟩, hpending, h⟩

/-- A pending charge is a stored charge of the order that no source row records. -/
theorem mem_pendingCharges {db : Db} {orderId : ℕ} {c : ℕ × ServiceOrderCharge} :
    c ∈ pendingCharges db orderId ↔ db.charges.get? c.1 = some c.2 ∧ c.2.serviceOrderId = orderId ∧
      ∀ s ∈ db.sources.values, ¬(s.sourceType = .serviceOrderCharge ∧ s.sourceId = c.1) := by
  rw [Table.get?_eq_some, pendingCharges, List.mem_filter, List.mem_filter, and_assoc]
  simp only [beq_iff_eq, List.all_eq_true, Bool.not_eq_true', Bool.and_eq_false_imp, beq_eq_false_iff_ne, not_and]

/-! ## Sample charges -/

def hundred : Money := ⟨100, by decide +kernel, by norm_num⟩

/-- One unit at 100, without tax. -/
def hundredLine : ChargeLine where
  description := "Service"
  feeTypeId := none
  quantity := ⟨1, by decide +kernel, by norm_num⟩
  unitCode := none
  unitPrice := hundred
  discountAmount := 0
  taxRate := 0
  taxAmount := 0
  lineAmount := hundred
  serviceOrderContainerId := none
  lineNo := 1

/-- A charge of 100 on the first service order. -/
def chargeOfHundred (chargeNo : String) (currency : CurrencyCode) (issued : Bool) : ServiceOrderCharge where
  serviceOrderId := 1
  chargeNo := chargeNo
  documentType := "SERVICE_NOTE"
  documentDate := january31
  currencyCode := currency
  issued := issued
  amounts := ⟨hundred, 0, 0, hundred⟩
  remark := none
  lines := [hundredLine]

/-- A fresh installation in dollars with one dollar service order and its charges. -/
def orderWith (charges : List ServiceOrderCharge) : Db :=
  { Db.fresh usd with
    serviceOrders := .insert .empty ⟨"SO-1", 1, usd, false⟩
    charges := charges.foldl Table.insert .empty }

end LcsSystem
