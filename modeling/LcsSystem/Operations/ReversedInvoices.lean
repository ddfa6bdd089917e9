import LcsSystem.Operations.ChargeRuns

/-!
# Charges whose invoices were reversed

`serviceOrderInvoices` leaves REVERSED invoices out. `invoiceOfCharge` and `pendingCharges` do not: once
a charge has a source row, the first creator answers with the recorded document and the second one
passes the charge over, whatever became of the document.
-/

namespace LcsSystem
open Relational Checks Transition

/-- The documents that record a charge. -/
def invoicesOf (db : Db) (chargeId : ℕ) : List ℕ :=
  (db.sources.values.filter fun s => s.sourceType == .serviceOrderCharge && s.sourceId == chargeId).map
    FinancialDocumentSource.financialDocumentId

theorem mem_invoicesOf {db : Db} {chargeId documentId : ℕ} :
    documentId ∈ invoicesOf db chargeId ↔ Records db documentId chargeId := by
  simp only [invoicesOf, List.mem_map, List.mem_filter, Bool.and_eq_true, beq_iff_eq, Records]
  constructor
  · rintro ⟨⟨_, _, _⟩, ⟨hs, rfl, rfl⟩, rfl⟩
    exact hs
  · intro hs
    exact ⟨_, ⟨hs, rfl, rfl⟩, rfl⟩

/-- An invoice was generated from the charge, and every such invoice is REVERSED. -/
def AllReversed (db : Db) (chargeId : ℕ) : Prop :=
  invoicesOf db chargeId ≠ [] ∧ ∀ id ∈ invoicesOf db chargeId, ∃ d ∈ db.documents.get? id, d.status = .reversed

instance (db : Db) (chargeId : ℕ) : Decidable (AllReversed db chargeId) :=
  inferInstanceAs (Decidable (_ ∧ ∀ id ∈ invoicesOf db chargeId, _))

/-- The answer is a new draft customer invoice that records the charge and contains its lines. -/
def Reinvoices (db : Db) (chargeId : ℕ) (answer : Result (Db × ℕ)) : Prop :=
  ∃ db' id charge d, answer = .ok (db', id) ∧ db.documents.get? id = none ∧ db'.documents.get? id = some d ∧
    d.status = .draft ∧ d.documentType = .customerInvoice ∧ Records db' id chargeId ∧
    db.charges.get? chargeId = some charge ∧
    (charge.lines.map fun l => l.toLineValues.copied).Sublist (d.lines.map DocumentLine.toLineValues)

/-! ## The two answers -/

theorem invoiceOfCharge_eq (db : Db) (chargeId : ℕ) :
    invoiceOfCharge db chargeId =
      (invoicesOf db chargeId).head?.bind fun id => (db.documents.get? id).map fun _ => id := by
  rw [invoiceOfCharge, invoicesOf, List.head?_map, List.head?_filter, Option.bind_map]
  simp only [Bool.decide_and, beq_eq_decide]
  rfl

/-- The first creator answers with the reversed invoice, and writes nothing. -/
theorem createInvoiceFromCharge_of_allReversed {env : Env} {db db' : Db} {chargeId id : ℕ}
    (hreversed : AllReversed db chargeId) (h : createInvoiceFromCharge env db chargeId = .ok (db', id)) :
    db' = db ∧ ∃ d ∈ db.documents.get? id, d.status = .reversed := by
  obtain ⟨hne, hall⟩ := hreversed
  obtain ⟨first, rest, hfirst⟩ := List.exists_cons_of_ne_nil hne
  obtain ⟨d, hd, hstatus⟩ := hall first (by rw [hfirst]; exact List.mem_cons_self)
  have hexisting : invoiceOfCharge db chargeId = some first := by
    rw [invoiceOfCharge_eq, hfirst, List.head?_cons, Option.bind_some, Option.mem_def.1 hd, Option.map_some]
  obtain ⟨charge, -, -, ⟨hid, rfl⟩ | ⟨hnone, -⟩⟩ := createInvoiceFromCharge_eq_ok.1 h
  · rw [hexisting, Option.some.injEq] at hid
    subst hid
    exact ⟨rfl, d, hd, hstatus⟩
  · rw [hexisting] at hnone
    cases hnone

/-- The second creator answers with a document that does not record the charge. -/
theorem createInvoiceFromServiceOrder_of_allReversed {env : Env} {db db' : Db} {orderId chargeId id : ℕ}
    (hlinked : SourcesLinked db) (hreversed : AllReversed db chargeId)
    (h : createInvoiceFromServiceOrder env db orderId = .ok (db', id)) : ¬Records db' id chargeId := by
  intro hrecords
  obtain ⟨order, -, ⟨hexisting, rfl⟩ | ⟨-, -, hwrite⟩⟩ := createInvoiceFromServiceOrder_eq_ok.1 h
  · obtain ⟨d, hd, hlive⟩ := get?_of_serviceOrderInvoices (List.mem_of_mem_head? hexisting)
    obtain ⟨d', hd', hstatus⟩ := hreversed.2 id (mem_invoicesOf.2 hrecords)
    rw [hd, Option.mem_some_iff] at hd'
    subst hd'
    exact hlive hstatus
  · obtain ⟨rfl, d, w, -⟩ := writeOrderInvoice_spec hwrite
    rw [Records, w.sources, List.mem_append, List.mem_append] at hrecords
    rcases hrecords with (hold | hpending) | hown
    · obtain ⟨d', hd'⟩ := hlinked _ hold
      rw [Table.get?_nextId] at hd'
      cases hd'
    · obtain ⟨c, hc, hsource⟩ := List.mem_map.1 hpending
      obtain ⟨documentId, hrecorded⟩ := List.exists_mem_of_ne_nil _ hreversed.1
      cases hsource
      exact (mem_pendingCharges.1 hc).2.2 _ (mem_invoicesOf.1 hrecorded) ⟨rfl, rfl⟩
    · simp at hown

/-- **A charge whose invoices are all reversed is stuck**: after every run, neither creator answers with
a new invoice of it. -/
theorem reversed_charge_stuck {db : Db} (hlinked : SourcesLinked db) (as : List ChargeAction) {chargeId : ℕ}
    (hreversed : AllReversed (run chargeStep db as) chargeId) (env : Env) :
    ¬Reinvoices (run chargeStep db as) chargeId (createInvoiceFromCharge env (run chargeStep db as) chargeId) ∧
    ∀ orderId, ¬Reinvoices (run chargeStep db as) chargeId
      (createInvoiceFromServiceOrder env (run chargeStep db as) orderId) := by
  constructor
  · rintro ⟨db', id, charge, d, h, hnew, -⟩
    obtain ⟨-, d', hd', -⟩ := createInvoiceFromCharge_of_allReversed hreversed h
    rw [hd'] at hnew
    cases hnew
  · rintro orderId ⟨db', id, charge, d, h, -, -, -, -, hrecords, -⟩
    have hlinked' := (run_chargeStep db as).sourcesLinked hlinked
    exact createInvoiceFromServiceOrder_of_allReversed hlinked' hreversed h hrecords

/-- A charge is issued, and its invoice posted and reversed. -/
def invoiceReversed : List ChargeAction :=
  [.issue january 1, .post january 1, .reverse january 1 "entered twice"]

/-- The state after it. -/
def afterReversal : Db := run chargeStep (orderWith [chargeOfHundred "SC-1" usd false]) invoiceReversed

theorem reversed_charge_stuck_once :
    ¬Reinvoices afterReversal 1 (createInvoiceFromCharge february afterReversal 1) ∧
      ∀ orderId, ¬Reinvoices afterReversal 1 (createInvoiceFromServiceOrder february afterReversal orderId) :=
  reversed_charge_stuck (fun s hs => by cases hs) invoiceReversed (by decide +kernel) february

/-- The first creator answers with the reversed invoice, the second refuses. -/
theorem reversed_charge_refused :
    AllReversed afterReversal 1 ∧
      (∃ d ∈ afterReversal.documents.get? 1, d.status = .reversed) ∧
      Prod.snd <$> createInvoiceFromCharge february afterReversal 1 = .ok 1 ∧
      Prod.snd <$> createInvoiceFromServiceOrder february afterReversal 1 =
        .error (.invalid "All service charges for this order are already invoiced." []) := by
  decide +kernel

end LcsSystem
