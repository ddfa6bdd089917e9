import LcsSystem.Operations.ChargeRuns

/-!
# Invoiced charges

A charge is editable while it is a draft, whatever invoices record it. What keeps an invoiced charge
frozen is therefore that it was issued when it was recorded: `createInvoiceFromCharge` checks that,
`createInvoiceFromServiceOrder` does not.
-/

namespace LcsSystem
open Relational Checks Transition

/-- Every source row is of a stored document, and a charge recorded by a live one is issued. -/
structure ChargesSound (db : Db) : Prop where
  linked : SourcesLinked db
  issued : ∀ documentId chargeId, Records db documentId chargeId → Live db documentId →
    ∃ c, db.charges.get? chargeId = some c ∧ c.issued = true

/-- The charges an order invoice is written for are issued. -/
def TakesIssued (db : Db) : ChargeAction → Prop
  | .invoiceOrder _ orderId =>
    serviceOrderInvoices db orderId = [] → ∀ c ∈ pendingCharges db orderId, c.2.issued = true
  | _ => True

instance (db : Db) : ∀ a, Decidable (TakesIssued db a)
  | .invoiceOrder _ orderId =>
    inferInstanceAs (Decidable (serviceOrderInvoices db orderId = [] → ∀ c ∈ pendingCharges db orderId, _))
  | .save .. | .delete .. | .issue .. | .toInvoice .. | .post .. | .reverse .. => .isTrue trivial

/-! ## New source rows -/

/-- A source row that is new names an issued charge, if it names one. -/
def NewSourcesIssued (db db' : Db) : Prop :=
  ∀ s ∈ db'.sources.values, s ∈ db.sources.values ∨
    (s.sourceType = .serviceOrderCharge → ∃ c, db'.charges.get? s.sourceId = some c ∧ c.issued = true)

theorem NewSourcesIssued.of_eq {db db' : Db} (h : db'.sources = db.sources) : NewSourcesIssued db db' := by
  intro s hs
  rw [h] at hs
  exact .inl hs

theorem InvoiceWrite.newSourcesIssued {db db' : Db} {d : Document} {charges : List (ℕ × ServiceOrderCharge)}
    {own : List FinancialDocumentSource} (w : InvoiceWrite db db' d charges own)
    (hown : ∀ s ∈ own, s.sourceType ≠ .serviceOrderCharge)
    (hcharges : ∀ c ∈ charges, db.charges.get? c.1 = some c.2 ∧ c.2.issued = true) : NewSourcesIssued db db' := by
  intro s hs
  rw [w.sources, List.mem_append, List.mem_append] at hs
  rcases hs with (hs | hs) | hs
  · exact .inl hs
  · obtain ⟨c, hc, rfl⟩ := List.mem_map.1 hs
    exact .inr fun _ => ⟨c.2, by rw [w.charges_eq]; exact (hcharges c hc).1, (hcharges c hc).2⟩
  · exact .inr fun h => absurd h (hown s hs)

theorem createInvoiceFromCharge_newSourcesIssued {env : Env} {db db' : Db} {chargeId id : ℕ}
    (h : createInvoiceFromCharge env db chargeId = .ok (db', id)) : NewSourcesIssued db db' := by
  obtain ⟨charge, hcharge, hissued, ⟨-, rfl⟩ | ⟨-, hwrite⟩⟩ := createInvoiceFromCharge_eq_ok.1 h
  · exact .of_eq rfl
  · obtain ⟨-, d, w, -⟩ := writeChargeInvoice_spec hwrite
    exact w.newSourcesIssued (by simp) (by simpa using ⟨hcharge, hissued⟩)

theorem chargeStep_newSourcesIssued {db : Db} {a : ChargeAction} (hmeets : TakesIssued db a) :
    NewSourcesIssued db (chargeStep db a) := by
  unfold chargeStep
  cases h : a.request db with
  | error e => exact .of_eq rfl
  | ok db' =>
    simp only [orKeep]
    cases a with
    | save env p orderIdentifier =>
      simp only [ChargeAction.request, map_eq_ok] at h
      obtain ⟨⟨db₁, id⟩, hsave, rfl⟩ := h
      rcases saveCharge_spec hsave with ⟨sequences, c, -, -, rfl⟩ | ⟨c, c', -, -, -, rfl⟩
      · exact .of_eq rfl
      · exact .of_eq rfl
    | delete ids =>
      cases h
      exact .of_eq rfl
    | issue env chargeId =>
      simp only [ChargeAction.request, map_eq_ok] at h
      obtain ⟨⟨db₁, id⟩, hissue, rfl⟩ := h
      obtain ⟨charge, -, -, hcreate⟩ := issueCharge_eq_ok.1 hissue
      have hnew := createInvoiceFromCharge_newSourcesIssued hcreate
      exact hnew
    | toInvoice env chargeId =>
      simp only [ChargeAction.request, chargeToInvoice, map_eq_ok] at h
      obtain ⟨⟨db₁, id⟩, hcreate, rfl⟩ := h
      exact createInvoiceFromCharge_newSourcesIssued hcreate
    | invoiceOrder env orderId =>
      simp only [ChargeAction.request, map_eq_ok] at h
      obtain ⟨⟨db₁, id⟩, hcreate, rfl⟩ := h
      obtain ⟨order, -, ⟨-, rfl⟩ | ⟨hnone, -, hwrite⟩⟩ := createInvoiceFromServiceOrder_eq_ok.1 hcreate
      · exact .of_eq rfl
      · obtain ⟨-, d, w, -⟩ := writeOrderInvoice_spec hwrite
        exact w.newSourcesIssued (by simp) fun c hc => ⟨(mem_pendingCharges.1 hc).1, hmeets hnone c hc⟩
    | post env documentId =>
      obtain ⟨d, -, ⟨-, rfl⟩ | ⟨-, w, rfl, -⟩⟩ := postDocument_spec h
      · exact .of_eq rfl
      · exact .of_eq rfl
    | reverse env documentId reason =>
      obtain ⟨d, -, -, w, writes, -, rfl, -⟩ := reverseDocument_spec h
      exact .of_eq rfl

/-! ## Runs -/

/-- As long as nothing was invoiced. -/
theorem ChargesSound.of_no_sources {db : Db} (h : db.sources.values = []) : ChargesSound db where
  linked s hs := by
    rw [h] at hs
    cases hs
  issued documentId chargeId hrecords _ := by
    rw [Records, h] at hrecords
    cases hrecords

theorem ChargesSound.chargeStep {db : Db} {a : ChargeAction} (hsound : ChargesSound db)
    (hmeets : TakesIssued db a) : ChargesSound (chargeStep db a) where
  linked := (chargeStep_spec db a).sourcesLinked hsound.linked
  issued documentId chargeId hrecords hlive := by
    have hstep := chargeStep_spec db a
    rcases chargeStep_newSourcesIssued hmeets _ hrecords with hold | hnew
    · obtain ⟨d, hd⟩ := hsound.linked _ hold
      obtain ⟨c, hc, hissued⟩ := hsound.issued documentId chargeId hold (hstep.live_of_live hd hlive)
      obtain ⟨c', hc', hissued', -⟩ := hstep.charges chargeId c hc hissued
      exact ⟨c', hc', hissued'⟩
    · exact hnew rfl

/-- **An invoiced charge is frozen** in every run in which order invoices take issued charges only: a
charge that a live invoice records is still stored as long as the invoice is live, with the same lines,
amounts and currency. -/
theorem invoiced_charge_frozen {db : Db} (hsound : ChargesSound db) {before after : List ChargeAction}
    (hmeets : Meets chargeStep TakesIssued db (before ++ after)) {documentId chargeId : ℕ}
    (hrecords : Records (run chargeStep db before) documentId chargeId)
    (hlive : Live (run chargeStep db (before ++ after)) documentId) :
    ∃ c c', (run chargeStep db before).charges.get? chargeId = some c ∧
      (run chargeStep db (before ++ after)).charges.get? chargeId = some c' ∧
      c'.lines = c.lines ∧ c'.amounts = c.amounts ∧ c'.currencyCode = c.currencyCode := by
  rw [run_append] at hlive ⊢
  have hmid : ChargesSound (run chargeStep db before) :=
    run_invariant_of_meets ChargesSound (fun _ _ hs hm => hs.chargeStep hm) hsound (meets_append.1 hmeets).1
  have hstep := run_chargeStep (run chargeStep db before) after
  obtain ⟨d, hd⟩ := hmid.linked _ hrecords
  obtain ⟨c, hc, hissued⟩ := hmid.issued documentId chargeId hrecords (hstep.live_of_live hd hlive)
  obtain ⟨c', hc', -, hsame⟩ := hstep.charges chargeId c hc hissued
  exact ⟨c, c', hc, hc', hsame⟩

/-- A body with one line of 100. -/
def bodyOfHundred : ChargePayload :=
  { ChargePayload.empty with
    lines := .value [{ ChargeLinePayload.empty with unitPrice := .value 100 }] }

/-- A charge is saved, issued and then edited and deleted in vain. -/
theorem invoiced_charge_frozen_issued :
    ∃ c c', (run chargeStep (orderWith []) [.save january bodyOfHundred (some "1"), .issue january 1]).charges.get? 1 =
        some c ∧
      (run chargeStep (orderWith []) ([.save january bodyOfHundred (some "1"), .issue january 1] ++
        [.save january { bodyOfHundred with id := .value 1, lines := .value [] } none, .delete [1]])).charges.get? 1 =
        some c' ∧
      c'.lines = c.lines ∧ c'.amounts = c.amounts ∧ c'.currencyCode = c.currencyCode :=
  invoiced_charge_frozen (.of_no_sources rfl) (by decide +kernel)
    (show Records _ 1 1 by decide +kernel) (by decide +kernel)

/-- A draft is saved, invoiced with its order, and deleted from under the live invoice. -/
theorem invoiced_charge_deleted :
    Records (run chargeStep (orderWith []) [.save january bodyOfHundred (some "1"), .invoiceOrder january 1]) 1 1 ∧
      Live (run chargeStep (orderWith []) ([.save january bodyOfHundred (some "1"), .invoiceOrder january 1] ++
        [.delete [1]])) 1 ∧
      (run chargeStep (orderWith []) ([.save january bodyOfHundred (some "1"), .invoiceOrder january 1] ++
        [.delete [1]])).charges.get? 1 = none := by
  decide +kernel

/-- The condition leaves out nothing that keeps the property: a draft that an order invoice took can
be deleted from under it. -/
theorem taken_draft_deletable {env : Env} {db db' : Db} {orderId id : ℕ}
    (h : createInvoiceFromServiceOrder env db orderId = .ok (db', id))
    (htakes : ¬TakesIssued db (.invoiceOrder env orderId)) :
    ∃ chargeId, Records db' id chargeId ∧ Live db' id ∧
      Live (chargeStep db' (.delete [chargeId])) id ∧
      (chargeStep db' (.delete [chargeId])).charges.get? chargeId = none := by
  simp only [TakesIssued, not_forall] at htakes
  obtain ⟨hnone, c, hc, hdraft⟩ := htakes
  obtain ⟨order, -, ⟨hexisting, -⟩ | ⟨-, -, hwrite⟩⟩ := createInvoiceFromServiceOrder_eq_ok.1 h
  · rw [hnone] at hexisting
    cases hexisting
  obtain ⟨rfl, d, w, -⟩ := writeOrderInvoice_spec hwrite
  have hlive : Live db' db.documents.nextId := ⟨d, w.get?_new, by rw [w.draft]; decide⟩
  have hstored : db'.charges.get? c.1 = some c.2 := by rw [w.charges_eq]; exact (mem_pendingCharges.1 hc).1
  refine ⟨c.1, ?_, hlive, hlive, ?_⟩
  · rw [Records, w.sources, List.append_assoc]
    exact List.mem_append_right _ (List.mem_append_left _ (List.mem_map.2 ⟨c, hc, rfl⟩))
  · simp [chargeStep, orKeep, ChargeAction.request, deleteCharges, Table.get?_erase, hstored, hdraft]

end LcsSystem
