import LcsSystem.Finance.InvoiceAgreement
import LcsSystem.Finance.Reversals
import LcsSystem.Operations.Charges

/-!
# Runs of charges and their invoices

The requests that write service charges, the invoices generated from them, and the two requests that
change the status of an invoice. `ChargeStep` says what every one of them does to the charges, the
source rows and the documents; the results about runs only use it.
-/

namespace LcsSystem
open Relational Checks Transition

/-- A request, with the clock and caller it runs under. -/
inductive ChargeAction
  | save (env : Env) (p : ChargePayload) (orderIdentifier : Option String)
  | delete (ids : List ℕ)
  | issue (env : Env) (chargeId : ℕ)
  | toInvoice (env : Env) (chargeId : ℕ)
  | invoiceOrder (env : Env) (orderId : ℕ)
  | post (env : Env) (documentId : ℕ)
  | reverse (env : Env) (documentId : ℕ) (reason : String)

def ChargeAction.request (db : Db) : ChargeAction → Result Db
  | .save env p orderIdentifier => Prod.fst <$> saveCharge env db p orderIdentifier
  | .delete ids => .ok (deleteCharges db ids)
  | .issue env chargeId => Prod.fst <$> issueCharge env db chargeId
  | .toInvoice env chargeId => Prod.fst <$> chargeToInvoice env db chargeId
  | .invoiceOrder env orderId => Prod.fst <$> createInvoiceFromServiceOrder env db orderId
  | .post env documentId => postDocument env db documentId
  | .reverse env documentId reason => reverseDocument env db documentId reason

def chargeStep (db : Db) (a : ChargeAction) : Db := orKeep db (a.request db)

/-! ## Recorded charges -/

/-- The document has the charge as its SERVICE_ORDER_CHARGE source. -/
def Records (db : Db) (documentId chargeId : ℕ) : Prop :=
  ⟨documentId, .serviceOrderCharge, chargeId⟩ ∈ db.sources.values

/-- The document is stored and not REVERSED. -/
def Live (db : Db) (documentId : ℕ) : Prop := ∃ d, db.documents.get? documentId = some d ∧ d.status ≠ .reversed

instance (db : Db) (documentId chargeId : ℕ) : Decidable (Records db documentId chargeId) :=
  inferInstanceAs (Decidable (_ ∈ _))

instance (db : Db) (documentId : ℕ) : Decidable (Live db documentId) :=
  decidable_of_iff ((db.documents.get? documentId).any (fun d => d.status != .reversed) = true)
    (by simp [Live, Option.any_eq_true])

/-- No document disappears, and none comes back from REVERSED. -/
def DocumentsKept (old new : Table Document) : Prop :=
  ∀ id d, old.get? id = some d → ∃ d', new.get? id = some d' ∧ (d.status = .reversed → d'.status = .reversed)

namespace DocumentsKept

theorem refl (t : Table Document) : DocumentsKept t t := fun _ d hd => ⟨d, hd, id⟩

theorem trans {a b c : Table Document} (hab : DocumentsKept a b) (hbc : DocumentsKept b c) : DocumentsKept a c := by
  intro id d hd
  obtain ⟨d', hd', hreversed⟩ := hab id d hd
  obtain ⟨d'', hd'', hreversed'⟩ := hbc id d' hd'
  exact ⟨d'', hd'', hreversed' ∘ hreversed⟩

theorem insert (t : Table Document) (d : Document) : DocumentsKept t (t.insert d) :=
  fun _ d' hd' => ⟨d', Table.get?_insert_of_some hd', id⟩

theorem modify (t : Table Document) (i : ℕ) {f : Document → Document} (hf : ∀ d, d.status = .reversed →
    (f d).status = .reversed) : DocumentsKept t (t.modify i f) := by
  intro id d hd
  rw [Table.get?_modify, hd]
  split
  · exact ⟨f d, rfl, hf d⟩
  · exact ⟨d, rfl, fun h => h⟩

theorem of_sameButPaid {a b : Table Document} (h : SameButPaid a b) : DocumentsKept a b := by
  intro id d hd
  have hid := h id
  rw [hd, Option.map_some] at hid
  obtain ⟨d', hd', hsame⟩ := Option.map_eq_some_iff.1 hid
  exact ⟨d', hd', fun hs => (status_eq_of_setPaid hsame).trans hs⟩

end DocumentsKept

/-! ## What a request writes -/

/-- An ISSUED charge keeps its lines, amounts and currency, and stays ISSUED. -/
def IssuedKept (old new : Table ServiceOrderCharge) : Prop :=
  ∀ id c, old.get? id = some c → c.issued = true → ∃ c', new.get? id = some c' ∧ c'.issued = true ∧
    c'.lines = c.lines ∧ c'.amounts = c.amounts ∧ c'.currencyCode = c.currencyCode

namespace IssuedKept

theorem refl (t : Table ServiceOrderCharge) : IssuedKept t t := fun _ c hc hissued => ⟨c, hc, hissued, rfl, rfl, rfl⟩

theorem trans {a b c : Table ServiceOrderCharge} (hab : IssuedKept a b) (hbc : IssuedKept b c) : IssuedKept a c := by
  intro id x hx hissued
  obtain ⟨y, hy, hissued', hlines, hamounts, hcurrency⟩ := hab id x hx hissued
  obtain ⟨z, hz, hissued'', hlines', hamounts', hcurrency'⟩ := hbc id y hy hissued'
  exact ⟨z, hz, hissued'', hlines'.trans hlines, hamounts'.trans hamounts, hcurrency'.trans hcurrency⟩

theorem insert (t : Table ServiceOrderCharge) (c : ServiceOrderCharge) : IssuedKept t (t.insert c) :=
  fun _ x hx hissued => ⟨x, Table.get?_insert_of_some hx, hissued, rfl, rfl, rfl⟩

theorem modify_draft {t : Table ServiceOrderCharge} {i : ℕ} {c : ServiceOrderCharge} (hc : t.get? i = some c)
    (hdraft : c.issued = false) (f : ServiceOrderCharge → ServiceOrderCharge) : IssuedKept t (t.modify i f) := by
  intro id x hx hissued
  have hne : id ≠ i := by
    rintro rfl
    rw [hc, Option.some.injEq] at hx
    subst hx
    rw [hissued] at hdraft
    cases hdraft
  exact ⟨x, (Table.get?_modify_of_ne f hne).trans hx, hissued, rfl, rfl, rfl⟩

theorem issue (t : Table ServiceOrderCharge) (i : ℕ) : IssuedKept t (t.modify i .issue) := by
  intro id x hx hissued
  rw [Table.get?_modify, hx]
  split
  · exact ⟨x.issue, rfl, rfl, rfl, rfl, rfl⟩
  · exact ⟨x, rfl, hissued, rfl, rfl, rfl⟩

theorem erase_drafts (t : Table ServiceOrderCharge) (ids : List ℕ) :
    IssuedKept t (t.erase fun id c => decide (id ∈ ids) && !c.issued) := by
  intro id x hx hissued
  refine ⟨x, ?_, hissued, rfl, rfl, rfl⟩
  rw [Table.get?_erase, hx]
  simp [Option.filter, hissued]

end IssuedKept

/-- **What a request does**: issued charges are kept, no source row and no document disappears, and a
new source row is of a stored document. -/
structure ChargeStep (db db' : Db) : Prop where
  charges : IssuedKept db.charges db'.charges
  sources : ∀ s ∈ db.sources.values, s ∈ db'.sources.values
  documents : DocumentsKept db.documents db'.documents
  linked : ∀ s ∈ db'.sources.values, s ∈ db.sources.values ∨ ∃ d, db'.documents.get? s.financialDocumentId = some d

namespace ChargeStep

theorem refl (db : Db) : ChargeStep db db := ⟨.refl _, fun _ hs => hs, .refl _, fun _ hs => .inl hs⟩

theorem of_charges {db db' : Db} (hcharges : IssuedKept db.charges db'.charges) (hsources : db'.sources = db.sources)
    (hdocuments : db'.documents = db.documents) : ChargeStep db db' where
  charges := hcharges
  sources := by rw [hsources]; exact fun _ hs => hs
  documents := by rw [hdocuments]; exact .refl _
  linked := by rw [hsources]; exact fun _ hs => .inl hs

theorem of_documents {db db' : Db} (hcharges : db'.charges = db.charges) (hsources : db'.sources = db.sources)
    (hdocuments : DocumentsKept db.documents db'.documents) : ChargeStep db db' where
  charges := by rw [hcharges]; exact .refl _
  sources := by rw [hsources]; exact fun _ hs => hs
  documents := hdocuments
  linked := by rw [hsources]; exact fun _ hs => .inl hs

theorem trans {a b c : Db} (hab : ChargeStep a b) (hbc : ChargeStep b c) : ChargeStep a c where
  charges := hab.charges.trans hbc.charges
  sources s hs := hbc.sources s (hab.sources s hs)
  documents := hab.documents.trans hbc.documents
  linked s hs := by
    rcases hbc.linked s hs with hs | hs
    · rcases hab.linked s hs with hs | ⟨d, hd⟩
      · exact .inl hs
      · obtain ⟨d', hd', -⟩ := hbc.documents _ d hd
        exact .inr ⟨d', hd'⟩
    · exact .inr hs

theorem sourcesLinked {db db' : Db} (h : ChargeStep db db') (hlinked : SourcesLinked db) : SourcesLinked db' := by
  intro s hs
  rcases h.linked s hs with hs | hs
  · obtain ⟨d, hd⟩ := hlinked s hs
    obtain ⟨d', hd', -⟩ := h.documents _ d hd
    exact ⟨d', hd'⟩
  · exact hs

/-- What is live afterwards was live before, if it was stored. -/
theorem live_of_live {db db' : Db} (h : ChargeStep db db') {documentId : ℕ} {d : Document}
    (hd : db.documents.get? documentId = some d) (hlive : Live db' documentId) : Live db documentId := by
  obtain ⟨d', hd', hstatus⟩ := hlive
  obtain ⟨d'', hd'', hreversed⟩ := h.documents documentId d hd
  rw [hd'] at hd''
  cases hd''
  exact ⟨d, hd, fun hs => hstatus (hreversed hs)⟩

end ChargeStep

/-! ## The requests -/

/-- **`saveCharge`** adds a draft or replaces a stored one. -/
theorem saveCharge_spec {env : Env} {db db' : Db} {p : ChargePayload} {orderIdentifier : Option String} {id : ℕ}
    (h : saveCharge env db p orderIdentifier = .ok (db', id)) :
    (∃ sequences c, c.issued = false ∧ id = db.charges.nextId ∧
      db' = { db with sequences := sequences, charges := db.charges.insert c }) ∨
    (∃ c c', db.charges.get? id = some c ∧ c.issued = false ∧ c'.issued = false ∧
      db' = { db with charges := db.charges.modify id fun _ => c' }) := by
  have happly {orderId : ℕ} {c c' : ServiceOrderCharge} (h : applyChargeBody db p orderId c = .ok c') :
      c'.issued = c.issued := by
    simp only [applyChargeBody, bind_eq_ok, pure_eq_ok] at h
    obtain ⟨_, -, rfl⟩ := h
    rfl
  simp only [saveCharge, bind_eq_ok, require_eq_ok, check_eq_ok] at h
  obtain ⟨_, -, currency, -, identifier, -, ⟨orderId, order⟩, -, _, -, _, hdraft, h⟩ := h
  cases hstored : storedCharge db p with
  | none =>
    simp only [hstored, bind_eq_ok, pure_eq_ok, Prod.mk.injEq] at h
    obtain ⟨⟨sequences, draft⟩, hnew, c, hbody, rfl, rfl⟩ := h
    simp only [newCharge, bind_eq_ok, pure_eq_ok, Prod.mk.injEq] at hnew
    obtain ⟨_, -, rfl, rfl⟩ := hnew
    exact .inl ⟨_, c, happly hbody, rfl, rfl⟩
  | some stored =>
    simp only [hstored, bind_eq_ok, pure_eq_ok, Prod.mk.injEq] at h
    obtain ⟨c', hbody, rfl, rfl⟩ := h
    have hissued : stored.2.issued = false := hdraft stored hstored
    have hget := (Table.bind_get?_eq_some.1 hstored).2
    exact .inr ⟨stored.2, c', hget, hissued, (happly hbody).trans hissued, rfl⟩

theorem InvoiceWrite.chargeStep {db db' : Db} {d : Document} {charges : List (ℕ × ServiceOrderCharge)}
    {own : List FinancialDocumentSource} (w : InvoiceWrite db db' d charges own)
    (hown : ∀ s ∈ own, s.financialDocumentId = db.documents.nextId) : ChargeStep db db' where
  charges := by rw [w.charges_eq]; exact .refl _
  sources s hs := by
    rw [w.sources, List.append_assoc]
    exact List.mem_append_left _ hs
  documents := by rw [w.documents]; exact .insert _ _
  linked s hs := by
    rw [w.sources, List.append_assoc, List.mem_append] at hs
    rcases hs with hs | hs
    · exact .inl hs
    · have hid : s.financialDocumentId = db.documents.nextId := by
        rcases List.mem_append.1 hs with hs | hs
        · obtain ⟨c, -, rfl⟩ := List.mem_map.1 hs
          rfl
        · exact hown s hs
      exact .inr ⟨d, by rw [hid, w.get?_new]⟩

theorem createInvoiceFromCharge_step {env : Env} {db db' : Db} {chargeId id : ℕ}
    (h : createInvoiceFromCharge env db chargeId = .ok (db', id)) : ChargeStep db db' := by
  obtain ⟨charge, -, -, ⟨-, rfl⟩ | ⟨-, hwrite⟩⟩ := createInvoiceFromCharge_eq_ok.1 h
  · exact .refl _
  · obtain ⟨-, d, w, -⟩ := writeChargeInvoice_spec hwrite
    exact w.chargeStep (by simp)

theorem createInvoiceFromServiceOrder_step {env : Env} {db db' : Db} {orderId id : ℕ}
    (h : createInvoiceFromServiceOrder env db orderId = .ok (db', id)) : ChargeStep db db' := by
  obtain ⟨order, -, ⟨-, rfl⟩ | ⟨-, -, hwrite⟩⟩ := createInvoiceFromServiceOrder_eq_ok.1 h
  · exact .refl _
  · obtain ⟨-, d, w, -⟩ := writeOrderInvoice_spec hwrite
    exact w.chargeStep (by simp)

theorem issueCharge_eq_ok {env : Env} {db db' : Db} {chargeId id : ℕ} :
    issueCharge env db chargeId = .ok (db', id) ↔
      ∃ charge, db.charges.get? chargeId = some charge ∧ (charge.lines ≠ [] ∧ 0 < charge.amounts.total.val) ∧
        createInvoiceFromCharge env { db with charges := db.charges.modify chargeId .issue } chargeId =
          .ok (db', id) := by
  simp only [issueCharge, bind_eq_ok, require_eq_ok, check_eq_ok]
  constructor
  · rintro ⟨charge, hcharge, _, hpositive, h⟩
    exact ⟨charge, hcharge, hpositive, h⟩
  · rintro ⟨charge, hcharge, hpositive, h⟩
    exact ⟨charge, hcharge, ⟨⟩, hpositive, h⟩

theorem issueCharge_step {env : Env} {db db' : Db} {chargeId id : ℕ}
    (h : issueCharge env db chargeId = .ok (db', id)) : ChargeStep db db' := by
  obtain ⟨charge, -, -, hcreate⟩ := issueCharge_eq_ok.1 h
  have hissue : ChargeStep db { db with charges := db.charges.modify chargeId .issue } :=
    .of_charges (.issue _ _) rfl rfl
  exact hissue.trans (createInvoiceFromCharge_step hcreate)

theorem postDocument_chargeStep {env : Env} {db db' : Db} {documentId : ℕ}
    (h : postDocument env db documentId = .ok db') : ChargeStep db db' := by
  obtain ⟨d, hd, ⟨-, rfl⟩ | ⟨hdraft, w, rfl, -⟩⟩ := postDocument_spec h
  · exact .refl _
  refine .of_documents rfl rfl ?_
  intro id x hx
  by_cases hid : id = documentId
  · subst hid
    rw [hd, Option.some.injEq] at hx
    subst hx
    exact ⟨w.document d, by simp [PostingWrite.after, hd], fun hs => by rw [hdraft] at hs; cases hs⟩
  · exact ⟨x, (Table.get?_modify_of_ne _ hid).trans hx, fun hs => hs⟩

theorem reverseDocument_chargeStep {env : Env} {db db' : Db} {documentId : ℕ} {reason : String}
    (h : reverseDocument env db documentId reason = .ok db') : ChargeStep db db' := by
  obtain ⟨d, -, -, w, writes, -, rfl, -⟩ := reverseDocument_spec h
  refine .of_documents rfl rfl ?_
  have hpaid : DocumentsKept db.documents (writePaid db.documents writes) :=
    .of_sameButPaid (.writePaid db.documents writes)
  exact hpaid.trans (.modify _ documentId fun _ _ => rfl)

/-- **Step lemma.** -/
theorem chargeStep_spec (db : Db) (a : ChargeAction) : ChargeStep db (chargeStep db a) := by
  unfold chargeStep
  cases h : a.request db with
  | error e => exact .refl db
  | ok db' =>
    simp only [orKeep]
    cases a with
    | save env p orderIdentifier =>
      simp only [ChargeAction.request, map_eq_ok] at h
      obtain ⟨⟨db₁, id⟩, hsave, rfl⟩ := h
      rcases saveCharge_spec hsave with ⟨sequences, c, -, -, rfl⟩ | ⟨c, c', hc, hdraft, -, rfl⟩
      · exact .of_charges (.insert _ _) rfl rfl
      · exact .of_charges (.modify_draft hc hdraft _) rfl rfl
    | delete ids =>
      cases h
      exact .of_charges (.erase_drafts _ _) rfl rfl
    | issue env chargeId =>
      simp only [ChargeAction.request, map_eq_ok] at h
      obtain ⟨⟨db₁, id⟩, hissue, rfl⟩ := h
      exact issueCharge_step hissue
    | toInvoice env chargeId =>
      simp only [ChargeAction.request, chargeToInvoice, map_eq_ok] at h
      obtain ⟨⟨db₁, id⟩, hcreate, rfl⟩ := h
      exact createInvoiceFromCharge_step hcreate
    | invoiceOrder env orderId =>
      simp only [ChargeAction.request, map_eq_ok] at h
      obtain ⟨⟨db₁, id⟩, hcreate, rfl⟩ := h
      exact createInvoiceFromServiceOrder_step hcreate
    | post env documentId => exact postDocument_chargeStep h
    | reverse env documentId reason => exact reverseDocument_chargeStep h

/-- **Run lemma.** -/
theorem run_chargeStep (db : Db) (as : List ChargeAction) : ChargeStep db (run chargeStep db as) :=
  run_relation ChargeStep .refl (fun hab hbc => hab.trans hbc) chargeStep_spec db as

end LcsSystem
