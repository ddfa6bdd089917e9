import LcsSystem.Lib.Transactions
import LcsSystem.Operations.ReversedInvoices

/-!
# Invoicing side by side

`charge_to_invoice`, `issue_charge` and `create_invoice_from_service_order` as transactions. Each looks
for an invoice first and only then waits for the number of the new one, so what it looked for can be
written by another request in between. `issue_charge` locks its charge; no request locks the source rows
or the order.

An invoice is written as one step with its commit, after the number: its lines and rates are read there.
Postings and reversals of invoices are single steps between the others.
-/

namespace LcsSystem
open Relational Checks Transition Transactions Transactions.Outcome

/-! ## The transactions -/

inductive InvoiceRequest
  | toInvoice (env : Env) (chargeId : ℕ)
  | issue (env : Env) (chargeId : ℕ)
  | invoiceOrder (env : Env) (orderId : ℕ)
  | post (env : Env) (documentId : ℕ)
  | reverse (env : Env) (documentId : ℕ) (reason : String)

/-- The invoice that a request is about to write, from what it has read. -/
inductive PendingInvoice
  | ofCharge (chargeId : ℕ) (charge : ServiceOrderCharge)
  | ofIssued (chargeId : ℕ) (charge : ServiceOrderCharge)
  | ofOrder (orderId : ℕ) (order : ServiceOrder) (pending : List (ℕ × ServiceOrderCharge))

/-- The next statement of a request. -/
inductive InvoiceTxn
  | readCharge (env : Env) (chargeId : ℕ)
  | lockCharge (env : Env) (chargeId : ℕ)
  | readSources (env : Env) (chargeId : ℕ) (charge : ServiceOrderCharge)
  | readSourcesOfIssued (env : Env) (chargeId : ℕ) (charge : ServiceOrderCharge)
  | readOrderInvoices (env : Env) (orderId : ℕ)
  | readChargeInvoices (env : Env) (orderId : ℕ) (order : ServiceOrder)
  | readCharges (env : Env) (orderId : ℕ) (order : ServiceOrder)
  | readInvoiced (env : Env) (orderId : ℕ) (order : ServiceOrder) (charges : List (ℕ × ServiceOrderCharge))
  | lockSequence (env : Env) (invoice : PendingInvoice)
  | write (env : Env) (invoice : PendingInvoice)
  | post (env : Env) (documentId : ℕ)
  | reverse (env : Env) (documentId : ℕ) (reason : String)

inductive InvoiceLock
  | charge (id : ℕ)
  | invoiceSequence (year : ℕ)
  deriving DecidableEq

def PendingInvoice.locks : PendingInvoice → List InvoiceLock
  | .ofIssued chargeId _ => [.charge chargeId]
  | .ofCharge _ _ | .ofOrder _ _ _ => []

def InvoiceTxn.locks : InvoiceTxn → List InvoiceLock
  | .readSourcesOfIssued _ chargeId _ => [.charge chargeId]
  | .lockSequence _ invoice => invoice.locks
  | .write env invoice => .invoiceSequence env.utcYear :: invoice.locks
  | _ => []

/-- The charges the invoice will record. -/
def PendingInvoice.charges : PendingInvoice → List ℕ
  | .ofCharge chargeId _ | .ofIssued chargeId _ => [chargeId]
  | .ofOrder _ _ pending => pending.map Prod.fst

/-- The writes of a request, with the status of an issued charge. -/
def PendingInvoice.write (env : Env) (db : Db) : PendingInvoice → Result (Db × ℕ)
  | .ofCharge chargeId charge => writeChargeInvoice env db chargeId charge
  | .ofIssued chargeId charge =>
    writeChargeInvoice env { db with charges := db.charges.modify chargeId .issue } chargeId charge
  | .ofOrder orderId order pending => writeOrderInvoice env db orderId order pending

/-- The live documents among the sources that `p` selects, oldest first. -/
def liveDocuments (db : Db) (p : FinancialDocumentSource → Bool) : List ℕ :=
  (((db.sources.values.filter p).map FinancialDocumentSource.financialDocumentId).filter
    (notReversed db)).insertionSort (· ≤ ·)

def isOrderSource (orderId : ℕ) (s : FinancialDocumentSource) : Bool :=
  s.sourceType == .serviceOrder && s.sourceId == orderId

def isChargeSource (db : Db) (orderId : ℕ) (s : FinancialDocumentSource) : Bool :=
  s.sourceType == .serviceOrderCharge && (db.charges.get? s.sourceId).any fun c => c.serviceOrderId == orderId

/-- The two queries of `serviceOrderInvoices`. -/
theorem serviceOrderInvoices_eq (db : Db) (orderId : ℕ) :
    serviceOrderInvoices db orderId = match liveDocuments db (isOrderSource orderId) with
      | [] => liveDocuments db (isChargeSource db orderId)
      | ids => ids := rfl

def InvoiceTxn.next (db : Db) (free : InvoiceLock → Bool) : InvoiceTxn → Transactions.Outcome Db InvoiceTxn ℕ
  | .readCharge env chargeId => orEnd (fun charge => .continues (.readSources env chargeId charge)) (do
      let charge ← require (db.charges.get? chargeId) chargeNotFound
      check (charge.issued = true) (.invalidState "Only an issued service charge can create a finance invoice.")
      return charge)
  | .lockCharge env chargeId => whenFree free (.charge chargeId) <|
      orEnd (fun charge => .continues (.readSourcesOfIssued env chargeId charge.issue)) (do
        let charge ← require (db.charges.get? chargeId) chargeNotFound
        check (charge.lines ≠ [] ∧ 0 < charge.amounts.total.val)
          (.invalid "A service charge must have at least one positive line before it can be issued." [])
        return charge)
  | .readSources env chargeId charge =>
    match invoiceOfCharge db chargeId with
    | some _ => .ends
    | none => .continues (.lockSequence env (.ofCharge chargeId charge))
  | .readSourcesOfIssued env chargeId charge =>
    match invoiceOfCharge db chargeId with
    | some id => .commits { db with charges := db.charges.modify chargeId .issue } (some id)
    | none => .continues (.lockSequence env (.ofIssued chargeId charge))
  | .readOrderInvoices env orderId => orEnd (fun order =>
      match liveDocuments db (isOrderSource orderId) with
      | [] => .continues (.readChargeInvoices env orderId order)
      | _ => .ends) (require (db.serviceOrders.get? orderId) orderNotFound)
  | .readChargeInvoices env orderId order =>
    match liveDocuments db (isChargeSource db orderId) with
    | [] => .continues (.readCharges env orderId order)
    | _ => .ends
  | .readCharges env orderId order =>
    match db.charges.rows.filter fun r => r.2.serviceOrderId == orderId with
    | [] => .ends
    | charges => .continues (.readInvoiced env orderId order charges)
  | .readInvoiced env orderId order charges =>
    match charges.filter fun r => (invoicesOf db r.1).isEmpty with
    | [] => .ends
    | pending => .continues (.lockSequence env (.ofOrder orderId order pending))
  | .lockSequence env invoice => whenFree free (.invoiceSequence env.utcYear) (.continues (.write env invoice))
  | .write env invoice => orEnd (fun r => .commits r.1 (some r.2)) (invoice.write env db)
  | .post env documentId => orEnd (fun db' => .commits db' none) (postDocument env db documentId)
  | .reverse env documentId reason => orEnd (fun db' => .commits db' none) (reverseDocument env db documentId reason)

/-- The log is the documents that were answered. -/
def invoicing : Protocol Db InvoiceRequest InvoiceTxn InvoiceLock ℕ where
  start
    | .toInvoice env chargeId => .readCharge env chargeId
    | .issue env chargeId => .lockCharge env chargeId
    | .invoiceOrder env orderId => .readOrderInvoices env orderId
    | .post env documentId => .post env documentId
    | .reverse env documentId reason => .reverse env documentId reason
  locks := InvoiceTxn.locks
  next := InvoiceTxn.next

/-! ## Requests that nothing interrupts -/

theorem alone_write {env : Env} {db : Db} {invoice : PendingInvoice} {n : ℕ} :
    invoicing.alone (n + 1) db (.write env invoice) = orKeep db (Prod.fst <$> invoice.write env db) := by
  cases h : invoice.write env db with
  | error e => exact alone_ends (by simp [invoicing, InvoiceTxn.next, orEnd, h])
  | ok r => exact alone_commits r.1 (some r.2) (by simp [invoicing, InvoiceTxn.next, h])

theorem alone_lockSequence {env : Env} {db : Db} {invoice : PendingInvoice} {n : ℕ} :
    invoicing.alone (n + 2) db (.lockSequence env invoice) = orKeep db (Prod.fst <$> invoice.write env db) := by
  rw [alone_continues (.write env invoice) (by simp [invoicing, InvoiceTxn.next])]
  exact alone_write

/-- `charge_to_invoice` alone is `chargeToInvoice`. -/
theorem alone_toInvoice (env : Env) (db : Db) (chargeId : ℕ) :
    invoicing.alone 4 db (.readCharge env chargeId) = orKeep db (Prod.fst <$> chargeToInvoice env db chargeId) := by
  unfold chargeToInvoice createInvoiceFromCharge
  cases hcharge : db.charges.get? chargeId with
  | none => exact alone_ends (by simp [invoicing, InvoiceTxn.next, hcharge, require, orEnd, bind, Except.bind])
  | some charge =>
    by_cases hissued : charge.issued = true
    · rw [alone_continues (.readSources env chargeId charge) (by
        simp [invoicing, InvoiceTxn.next, hcharge, hissued])]
      cases hexisting : invoiceOfCharge db chargeId with
      | some id =>
        rw [alone_ends (by simp [invoicing, InvoiceTxn.next, hexisting])]
        simp [require, check_pos hissued, orKeep, pure, Except.pure, Functor.map, Except.map]
      | none =>
        rw [alone_continues (.lockSequence env (.ofCharge chargeId charge)) (by
          simp [invoicing, InvoiceTxn.next, hexisting]), alone_lockSequence]
        simp [require, check_pos hissued, PendingInvoice.write]
    · rw [alone_ends (by simp [invoicing, InvoiceTxn.next, hcharge, require, check_neg hissued, orEnd, bind, Except.bind])]
      simp [require, check_neg hissued, orKeep, bind, Except.bind, Functor.map, Except.map]

/-- `issue_charge` alone is `issueCharge`. -/
theorem alone_issue (env : Env) (db : Db) (chargeId : ℕ) :
    invoicing.alone 4 db (.lockCharge env chargeId) = orKeep db (Prod.fst <$> issueCharge env db chargeId) := by
  unfold issueCharge createInvoiceFromCharge
  cases hcharge : db.charges.get? chargeId with
  | none =>
    exact alone_ends (by simp [invoicing, InvoiceTxn.next, hcharge, require, orEnd, whenFree, bind, Except.bind])
  | some charge =>
    by_cases hpositive : charge.lines ≠ [] ∧ 0 < charge.amounts.total.val
    · rw [alone_continues (.readSourcesOfIssued env chargeId charge.issue) (by
        simp [invoicing, InvoiceTxn.next, hcharge, hpositive])]
      have hexisting_eq : invoiceOfCharge { db with charges := db.charges.modify chargeId .issue } chargeId =
        invoiceOfCharge db chargeId := rfl
      have hissued : charge.issue.issued = true := rfl
      cases hexisting : invoiceOfCharge db chargeId with
      | some id =>
        rw [alone_commits _ _ (by simp only [invoicing, InvoiceTxn.next, hexisting]; rfl)]
        simp [require, check_pos hpositive, hcharge, check_pos hissued, hexisting_eq, hexisting, orKeep, pure, Except.pure,
          Functor.map, Except.map]
      | none =>
        rw [alone_continues (.lockSequence env (.ofIssued chargeId charge.issue)) (by
          simp [invoicing, InvoiceTxn.next, hexisting]), alone_lockSequence]
        simp [require, check_pos hpositive, hcharge, check_pos hissued, hexisting_eq, hexisting, PendingInvoice.write]
    · rw [alone_ends (by
        simp [invoicing, InvoiceTxn.next, hcharge, require, check_neg hpositive, orEnd, whenFree, bind, Except.bind])]
      simp [require, check_neg hpositive, orKeep, bind, Except.bind, Functor.map, Except.map]

/-- The two reads of `pendingCharges`. -/
theorem pendingCharges_eq (db : Db) (orderId : ℕ) :
    pendingCharges db orderId = (db.charges.rows.filter fun r => r.2.serviceOrderId == orderId).filter fun r =>
      (invoicesOf db r.1).isEmpty := by
  refine List.filter_congr fun r _ => ?_
  rw [Bool.eq_iff_iff]
  simp [invoicesOf, imp_iff_not_or]

/-- `create_invoice_from_service_order` alone is `createInvoiceFromServiceOrder`. -/
theorem alone_invoiceOrder (env : Env) (db : Db) (orderId : ℕ) :
    invoicing.alone 6 db (.readOrderInvoices env orderId) =
      orKeep db (Prod.fst <$> createInvoiceFromServiceOrder env db orderId) := by
  unfold createInvoiceFromServiceOrder
  cases horder : db.serviceOrders.get? orderId with
  | none => exact alone_ends (by simp [invoicing, InvoiceTxn.next, horder, require, orEnd])
  | some order =>
    have hany : db.charges.values.any (fun c => c.serviceOrderId == orderId) =
        !(db.charges.rows.filter fun r => r.2.serviceOrderId == orderId).isEmpty := by
      rw [Bool.eq_iff_iff]
      simp [Table.values]
    simp only [require, ok_bind, serviceOrderInvoices_eq, pendingCharges_eq, hany]
    cases hown : liveDocuments db (isOrderSource orderId) with
    | cons id rest => exact alone_ends (by simp [invoicing, InvoiceTxn.next, horder, hown, require, orEnd])
    | nil =>
      rw [alone_continues (.readChargeInvoices env orderId order) (by
        simp [invoicing, InvoiceTxn.next, horder, hown])]
      cases hcharge : liveDocuments db (isChargeSource db orderId) with
      | cons id rest => exact alone_ends (by simp [invoicing, InvoiceTxn.next, hcharge])
      | nil =>
        rw [alone_continues (.readCharges env orderId order) (by simp [invoicing, InvoiceTxn.next, hcharge])]
        cases hcharges : db.charges.rows.filter fun r => r.2.serviceOrderId == orderId with
        | nil => exact alone_ends (by simp [invoicing, InvoiceTxn.next, hcharges])
        | cons c cs =>
          rw [alone_continues (.readInvoiced env orderId order (c :: cs)) (by
            simp [invoicing, InvoiceTxn.next, hcharges])]
          cases hpending : (c :: cs).filter fun r => (invoicesOf db r.1).isEmpty with
          | nil => exact alone_ends (by simp [invoicing, InvoiceTxn.next, hpending])
          | cons p ps =>
            rw [alone_continues (.lockSequence env (.ofOrder orderId order (p :: ps))) (by
              simp [invoicing, InvoiceTxn.next, hpending]), alone_lockSequence]
            rfl

/-! ## At most one live invoice -/

/-- The property: no charge is recorded by two live documents. -/
structure OneLiveInvoice (db : Db) : Prop where
  linked : SourcesLinked db
  unique : ∀ chargeId id id', Records db id chargeId → Records db id' chargeId → Live db id → Live db id' → id = id'

/-- What a request looked for before it waited for the number is still missing: no live document records
a charge that it is about to record. -/
def CheckHolds (db : Db) (_log : List ℕ) : InvoiceTxn → Prop
  | .write _ invoice => ∀ chargeId ∈ invoice.charges, ∀ id ∈ invoicesOf db chargeId, ¬Live db id
  | _ => True

instance (db : Db) (log : List ℕ) : ∀ t, Decidable (CheckHolds db log t)
  | .write _ invoice => inferInstanceAs (Decidable (∀ chargeId ∈ invoice.charges, ∀ id ∈ invoicesOf db chargeId, _))
  | .readCharge .. | .lockCharge .. | .readSources .. | .readSourcesOfIssued .. | .readOrderInvoices ..
  | .readChargeInvoices .. | .readCharges .. | .readInvoiced .. | .lockSequence .. | .post .. | .reverse .. =>
    .isTrue trivial

/-- A recorded document is stored, so it is not the next one. -/
theorem SourcesLinked.ne_nextId {db : Db} (hlinked : SourcesLinked db) {documentId chargeId : ℕ}
    (h : Records db documentId chargeId) : documentId ≠ db.documents.nextId := by
  rintro rfl
  obtain ⟨d, hd⟩ := hlinked _ h
  rw [Table.get?_nextId] at hd
  cases hd

/-- As long as nothing was invoiced. -/
theorem OneLiveInvoice.of_no_sources {db : Db} (h : db.sources.values = []) : OneLiveInvoice db where
  linked s hs := by
    rw [h] at hs
    cases hs
  unique chargeId id id' hid := by
    rw [Records, h] at hid
    cases hid

/-- Nothing but the status of documents changed, and none came back. -/
theorem OneLiveInvoice.of_kept {db db' : Db} (h : OneLiveInvoice db) (hsources : db'.sources = db.sources)
    (hdocuments : DocumentsKept db.documents db'.documents) : OneLiveInvoice db' := by
  have hstep : ChargeStep { db with charges := db'.charges } db' := .of_documents rfl hsources hdocuments
  refine ⟨hstep.sourcesLinked h.linked, fun chargeId id id' hid hid' hlive hlive' => ?_⟩
  rw [Records, hsources] at hid hid'
  obtain ⟨d, hd⟩ := h.linked _ hid
  obtain ⟨d', hd'⟩ := h.linked _ hid'
  exact h.unique chargeId id id' hid hid' (hstep.live_of_live hd hlive) (hstep.live_of_live hd' hlive')

/-! ## What a write records -/

/-- A new draft document, with a source row for each of the charges. -/
structure RecordsNew (db db' : Db) (charges : List ℕ) : Prop where
  documents : ∃ d, db'.documents = db.documents.insert d ∧ d.status = .draft
  sources : ∃ own, db'.sources.values =
      db.sources.values ++ charges.map (fun c => ⟨db.documents.nextId, .serviceOrderCharge, c⟩) ++ own ∧
    ∀ s ∈ own, s.financialDocumentId = db.documents.nextId ∧ s.sourceType ≠ .serviceOrderCharge

theorem InvoiceWrite.recordsNew {db db' : Db} {d : Document} {charges : List (ℕ × ServiceOrderCharge)}
    {own : List FinancialDocumentSource} (w : InvoiceWrite db db' d charges own)
    (hown : ∀ s ∈ own, s.financialDocumentId = db.documents.nextId ∧ s.sourceType ≠ .serviceOrderCharge) :
    RecordsNew db db' (charges.map Prod.fst) where
  documents := ⟨d, w.documents, w.draft⟩
  sources := ⟨own, by rw [w.sources, List.map_map]; rfl, hown⟩

theorem PendingInvoice.write_spec {env : Env} {db db' : Db} {invoice : PendingInvoice} {id : ℕ}
    (h : invoice.write env db = .ok (db', id)) : RecordsNew db db' invoice.charges := by
  cases invoice with
  | ofCharge chargeId charge =>
    obtain ⟨-, d, w, -⟩ := writeChargeInvoice_spec h
    exact w.recordsNew (by simp)
  | ofIssued chargeId charge =>
    obtain ⟨-, d, w, -⟩ := writeChargeInvoice_spec h
    obtain ⟨hdocuments, hsources⟩ := w.recordsNew (by simp)
    exact ⟨hdocuments, hsources⟩
  | ofOrder orderId order pending =>
    obtain ⟨-, d, w, -⟩ := writeOrderInvoice_spec h
    exact w.recordsNew (by simp)

namespace RecordsNew
variable {db db' : Db} {charges : List ℕ}

theorem records_iff (w : RecordsNew db db' charges) {documentId chargeId : ℕ} :
    Records db' documentId chargeId ↔
      Records db documentId chargeId ∨ documentId = db.documents.nextId ∧ chargeId ∈ charges := by
  obtain ⟨own, hsources, hown⟩ := w.sources
  rw [Records, hsources, List.mem_append, List.mem_append, Records]
  constructor
  · rintro ((hs | hs) | hs)
    · exact .inl hs
    · obtain ⟨c, hc, hsource⟩ := List.mem_map.1 hs
      cases hsource
      exact .inr ⟨rfl, hc⟩
    · exact absurd rfl (hown _ hs).2
  · rintro (hs | ⟨rfl, hc⟩)
    · exact .inl (.inl hs)
    · exact .inl (.inr (List.mem_map.2 ⟨chargeId, hc, rfl⟩))

theorem live_new (w : RecordsNew db db' charges) : Live db' db.documents.nextId := by
  obtain ⟨d, hd, hdraft⟩ := w.documents
  exact ⟨d, by rw [hd, Table.get?_insert_self], by rw [hdraft]; decide⟩

theorem live_old (w : RecordsNew db db' charges) {id : ℕ} (hid : id ≠ db.documents.nextId) :
    Live db' id ↔ Live db id := by
  obtain ⟨d, hd, -⟩ := w.documents
  rw [Live, hd, Table.get?_insert, if_neg hid, Live]

theorem sourcesLinked (w : RecordsNew db db' charges) (hlinked : SourcesLinked db) : SourcesLinked db' := by
  obtain ⟨d, hd, -⟩ := w.documents
  obtain ⟨own, hsources, hown⟩ := w.sources
  intro s hs
  rw [hsources, List.append_assoc, List.mem_append] at hs
  rcases hs with hs | hs
  · obtain ⟨d', hd'⟩ := hlinked s hs
    exact ⟨d', by rw [hd, Table.get?_insert_of_some hd']⟩
  · have hid : s.financialDocumentId = db.documents.nextId := by
      rcases List.mem_append.1 hs with hs | hs
      · obtain ⟨c, -, rfl⟩ := List.mem_map.1 hs
        rfl
      · exact (hown s hs).1
    exact ⟨d, by rw [hid, hd, Table.get?_insert_self]⟩

/-- A write whose check still holds keeps the property. -/
theorem oneLiveInvoice (w : RecordsNew db db' charges) (h : OneLiveInvoice db)
    (hcheck : ∀ chargeId ∈ charges, ∀ id ∈ invoicesOf db chargeId, ¬Live db id) : OneLiveInvoice db' where
  linked := w.sourcesLinked h.linked
  unique chargeId id id' hid hid' hlive hlive' := by
    have hstale {i : ℕ} (hi : Records db i chargeId) (hlive : Live db' i) (hc : chargeId ∈ charges) : False :=
      hcheck chargeId hc i (mem_invoicesOf.2 hi) ((w.live_old (h.linked.ne_nextId hi)).1 hlive)
    rcases w.records_iff.1 hid with hold | ⟨rfl, hc⟩
    · rcases w.records_iff.1 hid' with hold' | ⟨rfl, hc⟩
      · exact h.unique chargeId id id' hold hold' ((w.live_old (h.linked.ne_nextId hold)).1 hlive)
          ((w.live_old (h.linked.ne_nextId hold')).1 hlive')
      · exact (hstale hold hlive hc).elim
    · rcases w.records_iff.1 hid' with hold' | ⟨rfl, -⟩
      · exact (hstale hold' hlive' hc).elim
      · rfl

end RecordsNew

/-! ## Runs -/

/-- What a commit does: it keeps every row apart from the status of charges and documents, or it writes
a pending invoice. -/
theorem InvoiceTxn.next_commits {db db' : Db} {free : InvoiceLock → Bool} {t : InvoiceTxn} {event : Option ℕ}
    (h : t.next db free = .commits db' event) :
    (db'.sources = db.sources ∧ DocumentsKept db.documents db'.documents) ∨
      ∃ env invoice, t = .write env invoice ∧ RecordsNew db db' invoice.charges := by
  cases t with
  | readCharge env chargeId => simp [InvoiceTxn.next] at h
  | lockCharge env chargeId => simp [InvoiceTxn.next] at h
  | readSources env chargeId charge =>
    simp only [InvoiceTxn.next] at h
    split at h <;> cases h
  | readSourcesOfIssued env chargeId charge =>
    simp only [InvoiceTxn.next] at h
    split at h
    · cases h
      exact .inl ⟨rfl, .refl _⟩
    · cases h
  | readOrderInvoices env orderId =>
    simp only [InvoiceTxn.next, orEnd_eq_commits] at h
    obtain ⟨order, -, h⟩ := h
    split at h <;> cases h
  | readChargeInvoices env orderId order =>
    simp only [InvoiceTxn.next] at h
    split at h <;> cases h
  | readCharges env orderId order =>
    simp only [InvoiceTxn.next] at h
    split at h <;> cases h
  | readInvoiced env orderId order charges =>
    simp only [InvoiceTxn.next] at h
    split at h <;> cases h
  | lockSequence env invoice => simp [InvoiceTxn.next] at h
  | write env invoice =>
    simp only [InvoiceTxn.next, orEnd_eq_commits, Transactions.Outcome.commits.injEq] at h
    obtain ⟨⟨db₁, id⟩, hwrite, rfl, -⟩ := h
    exact .inr ⟨env, invoice, rfl, PendingInvoice.write_spec hwrite⟩
  | post env documentId =>
    simp only [InvoiceTxn.next, orEnd_eq_commits, Transactions.Outcome.commits.injEq] at h
    obtain ⟨db₁, hpost, rfl, -⟩ := h
    refine .inl ⟨?_, (postDocument_chargeStep hpost).documents⟩
    obtain ⟨d, -, ⟨-, rfl⟩ | ⟨-, w, rfl, -⟩⟩ := postDocument_spec hpost
    · rfl
    · rfl
  | reverse env documentId reason =>
    simp only [InvoiceTxn.next, orEnd_eq_commits, Transactions.Outcome.commits.injEq] at h
    obtain ⟨db₁, hreverse, rfl, -⟩ := h
    refine .inl ⟨?_, (reverseDocument_chargeStep hreverse).documents⟩
    obtain ⟨d, -, -, w, writes, -, rfl, -⟩ := reverseDocument_spec hreverse
    rfl

theorem InvoiceTxn.next_locks {db : Db} {free : InvoiceLock → Bool} {t t' : InvoiceTxn}
    (h : t.next db free = .continues t') : ∀ k ∈ t'.locks, k ∈ t.locks ∨ free k = true := by
  cases t with
  | readCharge env chargeId =>
    simp only [InvoiceTxn.next, orEnd_eq_continues] at h
    obtain ⟨charge, -, h⟩ := h
    cases h
    simp [InvoiceTxn.locks]
  | lockCharge env chargeId =>
    simp only [InvoiceTxn.next, whenFree_eq_continues, orEnd_eq_continues] at h
    obtain ⟨hfree, charge, -, h⟩ := h
    cases h
    simpa [InvoiceTxn.locks] using hfree
  | readSources env chargeId charge =>
    simp only [InvoiceTxn.next] at h
    split at h <;> cases h
    simp [InvoiceTxn.locks, PendingInvoice.locks]
  | readSourcesOfIssued env chargeId charge =>
    simp only [InvoiceTxn.next] at h
    split at h <;> cases h
    simp [InvoiceTxn.locks, PendingInvoice.locks]
  | readOrderInvoices env orderId =>
    simp only [InvoiceTxn.next, orEnd_eq_continues] at h
    obtain ⟨order, -, h⟩ := h
    split at h <;> cases h
    simp [InvoiceTxn.locks]
  | readChargeInvoices env orderId order =>
    simp only [InvoiceTxn.next] at h
    split at h <;> cases h
    simp [InvoiceTxn.locks]
  | readCharges env orderId order =>
    simp only [InvoiceTxn.next] at h
    split at h <;> cases h
    simp [InvoiceTxn.locks]
  | readInvoiced env orderId order charges =>
    simp only [InvoiceTxn.next] at h
    split at h <;> cases h
    simp [InvoiceTxn.locks, PendingInvoice.locks]
  | lockSequence env invoice =>
    simp only [InvoiceTxn.next, whenFree_eq_continues] at h
    obtain ⟨hfree, h⟩ := h
    cases h
    intro k hk
    rcases List.mem_cons.1 hk with rfl | hk
    · exact .inr hfree
    · exact .inl hk
  | write env invoice => simp [InvoiceTxn.next] at h
  | post env documentId => simp [InvoiceTxn.next] at h
  | reverse env documentId reason => simp [InvoiceTxn.next] at h

theorem invoicing_rules : Rules invoicing (fun db _ => OneLiveInvoice db) (fun _ _ => True) CheckHolds where
  start_locks r := by cases r <;> rfl
  start _ _ := trivial
  acquires h := InvoiceTxn.next_locks h
  continues _ _ _ _ := trivial
  commits hI _ hC h := by
    rcases InvoiceTxn.next_commits h with ⟨hsources, hdocuments⟩ | ⟨env, invoice, rfl, w⟩
    · exact hI.of_kept hsources hdocuments
    · exact w.oneLiveInvoice hI hC
  frame _ _ _ _ _ _ := trivial

/-- **Exactly-once invoicing**, in every interleaving in which what a request looked for is still missing
when it writes: no charge is recorded by two live invoices. -/
theorem invoiced_once {db : Db} (hdb : OneLiveInvoice db) {as : List (Action InvoiceRequest)}
    (hmeets : Meets invoicing.step (Protocol.Admits CheckHolds) (.idle db) as) :
    OneLiveInvoice (run invoicing.step (.idle db) as).db :=
  (invoicing_rules.run (sound_idle _ _ hdb) hmeets).db

/-- A charge is issued and sent to invoicing at once, and its order is invoiced after that. -/
def issuedOnce : List (Action InvoiceRequest) :=
  [.start (.issue january 1), .start (.toInvoice january 1), .advance 1, .advance 1, .advance 1, .advance 1,
    .advance 2, .advance 2, .start (.invoiceOrder january 1), .advance 3, .advance 3]

theorem invoiced_once_issued :
    OneLiveInvoice (run invoicing.step (.idle (orderWith [chargeOfHundred "SC-1" usd false])) issuedOnce).db :=
  invoiced_once (.of_no_sources rfl) (by decide +kernel)

/-- Two requests for one order, both of which look for an invoice before the other writes one. -/
def crossedRequests : List (Action InvoiceRequest) :=
  [.start (.invoiceOrder january 1), .start (.invoiceOrder january 1)] ++
    (List.replicate 4 [.advance 1, .advance 2]).flatten ++ [.advance 1, .advance 1, .advance 2, .advance 2]

theorem crossed_requests_invoice_twice :
    let db := (run invoicing.step (.idle (orderWith [chargeOfHundred "SC-1" usd true])) crossedRequests).db
    Records db 1 1 ∧ Records db 2 1 ∧ Live db 1 ∧ Live db 2 ∧ ¬Meets invoicing.step (Protocol.Admits CheckHolds)
      (.idle (orderWith [chargeOfHundred "SC-1" usd true])) crossedRequests := by
  decide +kernel

/-- The condition leaves out nothing that keeps the property: a write whose check no longer holds breaks it. -/
theorem stale_check_invoices_twice {db db' : Db} {log : List ℕ} {free : InvoiceLock → Bool} {env : Env}
    {invoice : PendingInvoice} {event : Option ℕ} (hlinked : SourcesLinked db)
    (h : InvoiceTxn.next db free (.write env invoice) = .commits db' event)
    (hstale : ¬CheckHolds db log (.write env invoice)) : ¬OneLiveInvoice db' := by
  simp only [CheckHolds, not_forall, not_not] at hstale
  obtain ⟨chargeId, hcharge, id, hid, hlive⟩ := hstale
  simp only [InvoiceTxn.next, orEnd_eq_commits, Transactions.Outcome.commits.injEq] at h
  obtain ⟨⟨db₁, answered⟩, hwrite, rfl, -⟩ := h
  have w := PendingInvoice.write_spec hwrite
  have hne := hlinked.ne_nextId (mem_invoicesOf.1 hid)
  intro honce
  exact hne (honce.unique chargeId id _ (w.records_iff.2 (.inl (mem_invoicesOf.1 hid)))
    (w.records_iff.2 (.inr ⟨rfl, hcharge⟩)) ((w.live_old hne).2 hlive) w.live_new)

end LcsSystem
