import LcsSystem.Finance.AllocationWrites
import LcsSystem.Finance.PostedDocuments
import LcsSystem.Lib.Transition

/-!
# The ledger of a document

What the journals and the allocations hold of one document is its `Book`. `Booked` says what a book
looks like in each status; posting, allocating and reversing keep it for every document
(`documentStep_reconciled`), so after any run a reversed document has a posting and its mirror, no
allocation, and nothing left on any account.
-/

namespace LcsSystem
open Relational DecimalArith Checks Transition

/-! ## Books -/

/-- The POSTED lines that name the document. -/
def postedLines (db : Db) (documentId : ℕ) : List JournalEntryLine :=
  (db.entries.values.filter fun e => e.status == .posted).flatMap fun e =>
    e.lines.filter fun l => l.financialDocumentId == some documentId

/-- The entries booked for the document, with their ids. -/
def entriesOf (db : Db) (documentId : ℕ) : List (ℕ × JournalEntry) :=
  db.entries.rows.filter fun r => r.2.sourceDocumentId == some documentId

def postingsOf (db : Db) (documentId : ℕ) : List FinancialDocumentPosting :=
  db.postings.values.filter fun p => p.financialDocumentId == documentId

def JournalEntryLine.isOn (accountId : ℕ) (partyId serviceOrderId : Option ℕ) (l : JournalEntryLine) : Bool :=
  l.accountId == accountId && l.partyId == partyId && l.serviceOrderId == serviceOrderId

/-- The sum of a signed amount over the lines of one account, party and service order. -/
def netOf (amount : JournalEntryLine → ℚ) (lines : List JournalEntryLine) (accountId : ℕ)
    (partyId serviceOrderId : Option ℕ) : ℚ :=
  ((lines.filter (JournalEntryLine.isOn accountId partyId serviceOrderId)).map amount).sum

def netAmount (l : JournalEntryLine) : ℚ := l.debitAmount.val - l.creditAmount.val

def netBaseAmount (l : JournalEntryLine) : ℚ := l.baseDebitAmount.val - l.baseCreditAmount.val

structure Book where
  postings : List FinancialDocumentPosting
  entries : List (ℕ × JournalEntry)
  lines : List JournalEntryLine
  allocations : List (ℕ × FinancialDocumentAllocation)

def bookOf (db : Db) (documentId : ℕ) : Book where
  postings := postingsOf db documentId
  entries := entriesOf db documentId
  lines := postedLines db documentId
  allocations := allocationsOf db documentId

/-- The book of a document in each status. -/
inductive Booked (documentId : ℕ) : DocStatus → Book → Prop
  | draft : Booked documentId .draft ⟨[], [], [], []⟩
  | posted {i : ℕ} {e : JournalEntry} (allocations : List (ℕ × FinancialDocumentAllocation))
      (automatic : e.entryType = "AUTOMATIC") :
      Booked documentId .posted ⟨[⟨documentId, i⟩], [(i, e)], e.lines, allocations⟩
  | reversed {i j : ℕ} {e r : JournalEntry} (automatic : e.entryType = "AUTOMATIC")
      (reversal : r.entryType = "REVERSAL") (mirrors : r.reversalOfJournalEntryId = some i) :
      Booked documentId .reversed
        ⟨[⟨documentId, i⟩], [(i, e), (j, r)], e.lines ++ mirrorLines documentId e.lines, []⟩

/-- Every document is booked as its status says. -/
def Reconciled (db : Db) : Prop := ∀ id d, db.documents.get? id = some d → Booked id d.status (bookOf db id)

/-! ## The mirror -/

theorem netOf_cons (amount : JournalEntryLine → ℚ) (l : JournalEntryLine) (ls : List JournalEntryLine) (accountId : ℕ)
    (partyId serviceOrderId : Option ℕ) :
    netOf amount (l :: ls) accountId partyId serviceOrderId =
      (if l.isOn accountId partyId serviceOrderId then amount l else 0) +
        netOf amount ls accountId partyId serviceOrderId := by
  unfold netOf
  rw [List.filter_cons]
  split <;> simp

/-- A line and its mirror cancel on the account, party and order they share. -/
theorem netOf_mirrorLines {amount : JournalEntryLine → ℚ} {documentId : ℕ}
    (swapped : ∀ l lineNo, amount (l.mirror documentId lineNo) = -amount l) (lines : List JournalEntryLine)
    (accountId : ℕ) (partyId serviceOrderId : Option ℕ) :
    netOf amount (mirrorLines documentId lines) accountId partyId serviceOrderId =
      -netOf amount lines accountId partyId serviceOrderId := by
  have hindexed (n : ℕ) : netOf amount ((lines.zipIdx n).map fun r => r.1.mirror documentId (r.2 + 1))
      accountId partyId serviceOrderId = -netOf amount lines accountId partyId serviceOrderId := by
    induction lines generalizing n with
    | nil => simp [netOf]
    | cons l ls ih =>
      have hkey : (l.mirror documentId (n + 1)).isOn accountId partyId serviceOrderId =
          l.isOn accountId partyId serviceOrderId := rfl
      rw [List.zipIdx_cons, List.map_cons, netOf_cons, netOf_cons, ih, swapped, hkey, neg_add]
      split <;> simp
  exact hindexed 0

theorem netOf_append (amount : JournalEntryLine → ℚ) (as bs : List JournalEntryLine) (accountId : ℕ)
    (partyId serviceOrderId : Option ℕ) :
    netOf amount (as ++ bs) accountId partyId serviceOrderId =
      netOf amount as accountId partyId serviceOrderId + netOf amount bs accountId partyId serviceOrderId := by
  simp [netOf]

/-- **The reversal is an exact inverse**, in both currencies. -/
theorem net_reversed (documentId : ℕ) (lines : List JournalEntryLine) (accountId : ℕ)
    (partyId serviceOrderId : Option ℕ) :
    netOf netAmount (lines ++ mirrorLines documentId lines) accountId partyId serviceOrderId = 0 ∧
      netOf netBaseAmount (lines ++ mirrorLines documentId lines) accountId partyId serviceOrderId = 0 := by
  constructor
  · rw [netOf_append, netOf_mirrorLines fun l _ => (neg_sub l.debitAmount.val l.creditAmount.val).symm, add_neg_cancel]
  · rw [netOf_append, netOf_mirrorLines fun l _ => (neg_sub l.baseDebitAmount.val l.baseCreditAmount.val).symm,
      add_neg_cancel]

theorem mirrorLines_document (documentId : ℕ) (lines : List JournalEntryLine) :
    ∀ l ∈ mirrorLines documentId lines, l.financialDocumentId = some documentId := by
  intro l hl
  obtain ⟨⟨l₀, index⟩, -, rfl⟩ := List.mem_map.1 hl
  rfl

theorem journalLines_document {documentId : ℕ} {d : Document} {ls : List DraftLine} {rows : List JournalEntryLine}
    (h : List.Forall₂ (JournalLineOf documentId d) ls rows) :
    ∀ l ∈ rows, l.financialDocumentId = some documentId := by
  induction h with
  | nil => simp
  | cons hrow _ ih => exact List.forall_mem_cons.2 ⟨hrow.document, ih⟩

/-! ## One entry more -/

section
variable {db : Db} {e : JournalEntry} {documentId : ℕ}

/-- A POSTED entry of another document is not in the book. -/
theorem entriesOf_insert (db : Db) (e : JournalEntry) (documentId : ℕ) :
    entriesOf { db with entries := db.entries.insert e } documentId =
      entriesOf db documentId ++ if e.sourceDocumentId = some documentId then [(db.entries.nextId, e)] else [] := by
  simp only [entriesOf, Table.insert, List.filter_append, List.filter_cons, List.filter_nil, beq_iff_eq]

/-- The lines an entry brings to the book of a document: all of them or none. -/
theorem postedLines_insert (hposted : e.status = .posted) {owner : ℕ}
    (howner : ∀ l ∈ e.lines, l.financialDocumentId = some owner) :
    postedLines { db with entries := db.entries.insert e } documentId =
      postedLines db documentId ++ if owner = documentId then e.lines else [] := by
  have hlines : e.lines.filter (fun l => l.financialDocumentId == some documentId) =
      if owner = documentId then e.lines else [] := by
    split
    · next h =>
      subst h
      exact List.filter_eq_self.2 fun l hl => by simp [howner l hl]
    · next h => exact List.filter_eq_nil_iff.2 fun l hl => by simp [howner l hl, h]
  simp [postedLines, hposted, hlines]

end

/-! ## Steps -/

namespace Booked
variable {documentId : ℕ} {b : Book}

theorem of_draft (h : Booked documentId .draft b) : b = ⟨[], [], [], []⟩ := by
  cases h
  rfl

/-- Only a POSTED document has allocations, any of them. -/
theorem replace_allocations (h : Booked documentId .posted b) (allocations : List (ℕ × FinancialDocumentAllocation)) :
    Booked documentId .posted { b with allocations := allocations } := by
  cases h with
  | posted _ automatic => exact .posted allocations automatic

theorem of_posted (h : Booked documentId .posted b) :
    ∃ i e, b.postings = [⟨documentId, i⟩] ∧ b.entries = [(i, e)] ∧ b.lines = e.lines ∧ e.entryType = "AUTOMATIC" := by
  cases h with
  | posted _ automatic => exact ⟨_, _, rfl, rfl, rfl, automatic⟩

theorem filter_allocations {status : DocStatus} (h : Booked documentId status b)
    (p : ℕ × FinancialDocumentAllocation → Bool) :
    Booked documentId status { b with allocations := b.allocations.filter p } := by
  cases h with
  | draft => exact .draft
  | posted allocations automatic => exact .posted _ automatic
  | reversed automatic reversal mirrors => exact .reversed automatic reversal mirrors

end Booked

/-- The book of every document after a posting. -/
theorem bookOf_posting {env : Env} {db : Db} {documentId : ℕ} {d : Document} (w : PostingWrite env db documentId d)
    (id : ℕ) :
    bookOf w.after id = if documentId = id then
      { postings := postingsOf db id ++ [⟨documentId, db.entries.nextId⟩]
        entries := entriesOf db id ++ [(db.entries.nextId, w.entry)]
        lines := postedLines db id ++ w.entry.lines
        allocations := allocationsOf db id }
      else bookOf db id := by
  have hentries : entriesOf w.after id =
      entriesOf db id ++ if w.entry.sourceDocumentId = some id then [(db.entries.nextId, w.entry)] else [] :=
    entriesOf_insert db w.entry id
  have hlines : postedLines w.after id = postedLines db id ++ if documentId = id then w.entry.lines else [] :=
    postedLines_insert rfl (journalLines_document (journalLines_spec w.lines_ok))
  have hsource : w.entry.sourceDocumentId = some documentId := rfl
  have hallocations : allocationsOf w.after id = allocationsOf db id := rfl
  rw [bookOf, hentries, hlines, hsource, hallocations]
  by_cases hid : documentId = id
  · simp [hid, postingsOf, PostingWrite.after]
  · simp [hid, postingsOf, PostingWrite.after, bookOf]

theorem postDocument_reconciled {env : Env} {db db' : Db} {documentId : ℕ} (hdb : Reconciled db)
    (h : postDocument env db documentId = .ok db') : Reconciled db' := by
  obtain ⟨d, hd, ⟨-, rfl⟩ | ⟨hdraft, w, rfl, -⟩⟩ := postDocument_spec h
  · exact hdb
  intro id d' hd'
  rw [bookOf_posting]
  by_cases hid : documentId = id
  · subst hid
    have hbook := (hdraft ▸ hdb documentId d hd).of_draft
    simp only [bookOf, Book.mk.injEq] at hbook
    obtain ⟨hpostings, hentries, hlines, hallocations⟩ := hbook
    obtain rfl : w.document d = d' := by simpa [PostingWrite.after, hd] using hd'
    rw [if_pos rfl, hpostings, hentries, hlines, hallocations]
    exact .posted [] rfl
  · rw [if_neg hid]
    rw [PostingWrite.after, Table.get?_modify_of_ne _ (Ne.symm hid)] at hd'
    exact hdb id d' hd'

/-- The book of every document after an allocation. -/
theorem bookOf_allocation {env : Env} {db : Db} {paymentId targetId : ℕ} {payment target : Document} {amount : ℚ}
    {key : Option String} (w : AllocationWrite env db paymentId targetId payment target amount key) (id : ℕ) :
    bookOf w.after id = { bookOf db id with
      allocations := allocationsOf db id ++ if w.row.touches id then [(db.allocations.nextId, w.row)] else [] } := by
  simp only [bookOf, postingsOf, entriesOf, postedLines, allocationsOf, AllocationWrite.after, Table.insert,
    List.filter_append, List.filter_cons, List.filter_nil]

theorem allocatePayment_reconciled {env : Env} {db db' : Db} {paymentId : ℕ} {p : AllocationPayload}
    {key : Option String} {r : AllocationResult} (hdb : Reconciled db)
    (h : allocatePayment env db paymentId p key = .ok (db', r)) : Reconciled db' := by
  obtain rfl | ⟨targetId, payment, target, amount, hpayment, htarget, hallocatable, w, rfl⟩ := allocatePayment_spec h
  · exact hdb
  intro id d' hd'
  obtain ⟨d, hd, hsame⟩ := w.sameButPaid.get?_some hd'
  rw [status_eq_of_setPaid hsame, bookOf_allocation]
  have hbook := hdb id d hd
  by_cases htouches : w.row.touches id = true
  · have hposted : d.status = .posted := by
      rcases Bool.or_eq_true_iff.1 htouches with hp | ht
      · obtain rfl : paymentId = id := beq_iff_eq.1 hp
        rw [← Option.some.inj (hpayment.symm.trans hd)]
        exact hallocatable.payment_posted
      · obtain rfl : targetId = id := beq_iff_eq.1 ht
        rw [← Option.some.inj (htarget.symm.trans hd)]
        exact hallocatable.target_posted
    rw [hposted] at hbook ⊢
    exact hbook.replace_allocations _
  · rw [if_neg htouches, List.append_nil]
    exact hbook

/-- The book of every document after a reversal. -/
theorem bookOf_reversal {env : Env} {db : Db} {documentId : ℕ} {reason : String}
    (w : ReversalWrite env db documentId reason) (writes : List (ℕ × Money)) (id : ℕ) :
    bookOf (writeUnwinding w.after documentId (allocationsOf db documentId) writes) id =
      { postings := postingsOf db id
        entries := entriesOf db id ++ if documentId = id then [(db.entries.nextId, w.entry)] else []
        lines := postedLines db id ++ if documentId = id then w.entry.lines else []
        allocations := (allocationsOf db id).filter fun r => !r.2.touches documentId } := by
  have hentries := entriesOf_insert db w.entry id
  have hlines : postedLines { db with entries := db.entries.insert w.entry } id = _ :=
    postedLines_insert rfl (mirrorLines_document documentId w.original.lines)
  have hsource : w.entry.sourceDocumentId = some documentId := rfl
  have hrows := rows_writeUnwinding w.after documentId writes
  rw [hsource] at hentries
  simp only [Option.some.injEq] at hentries
  have hallocations : allocationsOf (writeUnwinding w.after documentId (allocationsOf db documentId) writes) id =
      (allocationsOf db id).filter fun r => !r.2.touches documentId := by
    rw [allocationsOf, show allocationsOf db documentId = allocationsOf w.after documentId from rfl, hrows,
      allocationsOf, List.filter_filter, List.filter_filter]
    simp only [Bool.and_comm]
    rfl
  rw [bookOf, hallocations]
  exact congrArg₂ (fun entries lines => Book.mk (postingsOf db id) entries lines _) hentries hlines

/-- The reversal reads the one entry the document was posted with. -/
theorem ReversalWrite.original_eq {env : Env} {db : Db} {documentId i : ℕ} {e : JournalEntry} {reason : String}
    (w : ReversalWrite env db documentId reason) (hpostings : postingsOf db documentId = [⟨documentId, i⟩])
    (hentries : entriesOf db documentId = [(i, e)]) : w.posting = ⟨documentId, i⟩ ∧ w.original = e := by
  have hposting : w.posting = ⟨documentId, i⟩ := by
    have hhead := List.head?_filter (p := fun p : FinancialDocumentPosting => p.financialDocumentId == documentId)
      (l := db.postings.values)
    have hcons : db.postings.values.filter (fun p => p.financialDocumentId == documentId) = [⟨documentId, i⟩] :=
      hpostings
    rw [w.posting_ok, hcons] at hhead
    exact (Option.some.inj hhead).symm
  have hmem : (i, e) ∈ entriesOf db documentId := by rw [hentries]; exact List.mem_singleton_self _
  have hget := Table.get?_eq_some.2 (List.mem_filter.1 hmem).1
  have hstored := w.original_ok
  rw [hposting] at hstored
  exact ⟨hposting, Option.some.inj (hstored.symm.trans hget)⟩

theorem reverseDocument_reconciled {env : Env} {db db' : Db} {documentId : ℕ} {reason : String} (hdb : Reconciled db)
    (h : reverseDocument env db documentId reason = .ok db') : Reconciled db' := by
  obtain ⟨d, hd, hposted, w, writes, -, rfl, -⟩ := reverseDocument_spec h
  intro id d' hd'
  rw [bookOf_reversal]
  rcases get?_writeUnwinding hd' with ⟨rfl, hreversed⟩ | ⟨hid, d₀, hd₀, hsame⟩
  · obtain ⟨i, e, hpostings, hentries, hlines, hautomatic⟩ := (hposted ▸ hdb id d hd).of_posted
    simp only [bookOf] at hpostings hentries hlines
    obtain ⟨hposting, horiginal⟩ := w.original_eq hpostings hentries
    have hmirror : w.entry.lines = mirrorLines id e.lines := by rw [← horiginal]; rfl
    have hreversal : w.entry.reversalOfJournalEntryId = some i :=
      congrArg (fun p : FinancialDocumentPosting => some p.journalEntryId) hposting
    have hallocations : (allocationsOf db id).filter (fun r => !r.2.touches id) = [] :=
      List.filter_eq_nil_iff.2 fun r hr => by simp [(List.mem_filter.1 hr).2]
    rw [hreversed, hpostings, hentries, hlines, hallocations, if_pos rfl, if_pos rfl, hmirror]
    exact .reversed hautomatic rfl hreversal
  · rw [status_eq_of_setPaid hsame, if_neg (Ne.symm hid), if_neg (Ne.symm hid), List.append_nil, List.append_nil]
    exact (hdb id d₀ hd₀).filter_allocations _

/-! ## Runs -/

/-- A request about a document, with the clock and caller it runs under. -/
inductive DocumentAction
  | post (env : Env) (documentId : ℕ)
  | allocate (env : Env) (paymentId : ℕ) (p : AllocationPayload) (key : Option String)
  | reverse (env : Env) (documentId : ℕ) (reason : String)

def DocumentAction.request (db : Db) : DocumentAction → Result Db
  | .post env documentId => postDocument env db documentId
  | .allocate env paymentId p key => Prod.fst <$> allocatePayment env db paymentId p key
  | .reverse env documentId reason => reverseDocument env db documentId reason

def documentStep (db : Db) (a : DocumentAction) : Db := orKeep db (a.request db)

/-- **Step lemma.** -/
theorem documentStep_reconciled (db : Db) (a : DocumentAction) (hdb : Reconciled db) :
    Reconciled (documentStep db a) := by
  unfold documentStep
  cases h : a.request db with
  | error e => exact hdb
  | ok db' =>
    simp only [orKeep]
    cases a with
    | post env documentId => exact postDocument_reconciled hdb h
    | allocate env paymentId p key =>
      simp only [DocumentAction.request, map_eq_ok] at h
      obtain ⟨⟨db₁, r⟩, hallocate, rfl⟩ := h
      exact allocatePayment_reconciled hdb hallocate
    | reverse env documentId reason => exact reverseDocument_reconciled hdb h

/-- Drafts only: nothing is posted or allocated, and the journals name no document. -/
structure NothingBooked (db : Db) : Prop where
  drafts : ∀ id d, db.documents.get? id = some d → d.status = .draft
  postings : db.postings.rows = []
  allocations : db.allocations.rows = []
  entries : ∀ e ∈ db.entries.values, e.sourceDocumentId = none ∧ ∀ l ∈ e.lines, l.financialDocumentId = none

theorem NothingBooked.reconciled {db : Db} (h : NothingBooked db) : Reconciled db := by
  intro id d hd
  have hpostings : postingsOf db id = [] := by simp [postingsOf, Table.values, h.postings]
  have hallocations : allocationsOf db id = [] := by simp [allocationsOf, h.allocations]
  have hentries : entriesOf db id = [] :=
    List.filter_eq_nil_iff.2 fun r hr => by simp [(h.entries r.2 (List.mem_map_of_mem hr)).1]
  have hlines : postedLines db id = [] := by
    refine List.flatMap_eq_nil_iff.2 fun e he => List.filter_eq_nil_iff.2 fun l hl => ?_
    simp [(h.entries e (List.mem_filter.1 he).1).2 l hl]
  rw [h.drafts id d hd, bookOf, hpostings, hentries, hlines, hallocations]
  exact .draft

theorem reverseDocument_reversed (env : Env) {db : Db} {documentId : ℕ} {d : Document} (reason : String)
    (hd : db.documents.get? documentId = some d) (hreversed : d.status = .reversed) :
    reverseDocument env db documentId reason =
      .error (.conflict "DOCUMENT_ALREADY_REVERSED" "This document is already reversed." []) := by
  simp only [reverseDocument, hd, require, ok_bind, checkReversible]
  rw [check_neg fun h => h hreversed]
  rfl

/-- **A reversed document.** After any run, whatever was posted, allocated and reversed in between, the
POSTED lines of a reversed document net to zero on every account, party and order in both
currencies; it has one posting entry and one reversal entry and no allocations, and reversing it again is
refused. -/
theorem run_reversed {db : Db} (h : NothingBooked db) (as : List DocumentAction) {id : ℕ} {d : Document} :
    let s := run documentStep db as
    s.documents.get? id = some d → d.status = .reversed →
      (∀ accountId partyId serviceOrderId,
        netOf netAmount (postedLines s id) accountId partyId serviceOrderId = 0 ∧
          netOf netBaseAmount (postedLines s id) accountId partyId serviceOrderId = 0) ∧
      (∃ i e j r, postingsOf s id = [⟨id, i⟩] ∧ entriesOf s id = [(i, e), (j, r)] ∧ e.entryType = "AUTOMATIC" ∧
        r.entryType = "REVERSAL" ∧ r.reversalOfJournalEntryId = some i) ∧
      (∀ a ∈ s.allocations.values, a.paymentDocumentId ≠ id ∧ a.targetDocumentId ≠ id) ∧
      ∀ env reason, reverseDocument env s id reason =
          .error (.conflict "DOCUMENT_ALREADY_REVERSED" "This document is already reversed." []) ∧
        documentStep s (.reverse env id reason) = s := by
  intro s hd hreversed
  have hbook := (run_invariant Reconciled documentStep_reconciled as h.reconciled) id d hd
  rw [hreversed] at hbook
  generalize hb : bookOf s id = b at hbook
  cases hbook with
  | @reversed i j e r automatic reversal mirrors =>
    simp only [bookOf, Book.mk.injEq] at hb
    obtain ⟨hpostings, hentries, hlines, hallocations⟩ := hb
    refine ⟨?_, ⟨i, e, j, r, hpostings, hentries, automatic, reversal, mirrors⟩, ?_, ?_⟩
    · rw [hlines]
      exact net_reversed id e.lines
    · intro a ha
      obtain ⟨row, hrow, rfl⟩ := List.mem_map.1 ha
      have huntouched : row.2.touches id = false := by
        simpa using (List.filter_eq_nil_iff.1 hallocations) row hrow
      simpa [FinancialDocumentAllocation.touches] using huntouched
    · intro env reason
      have hrefused := reverseDocument_reversed env reason hd hreversed
      exact ⟨hrefused, by rw [documentStep, DocumentAction.request, hrefused]; rfl⟩

/-- Save drafts one after the other. -/
def saveAll (env : Env) : List DocumentPayload → Db → Result Db
  | [], db => .ok db
  | p :: ps, db => do
    let (db, _) ← saveDocument env db p
    saveAll env ps db

/-- A receipt of 100 (document 1) and two invoices of 50 (documents 2 and 3). -/
def receiptAndInvoices : List DocumentPayload :=
  [.ofLines .customerReceipt [.priced 1 100], .ofLines .customerInvoice [.priced 1 50],
    .ofLines .customerInvoice [.priced 2 25]]

/-- The receipt pays the first invoice, which is then reversed. -/
def payAndReverse : List DocumentAction :=
  [.post january 1, .post january 2, .allocate january 1 ⟨.value 2, .value 50⟩ none, .reverse january 2 "wrong party"]

theorem run_reversed_invoice :
    ∃ db, saveAll january receiptAndInvoices (Db.fresh usd) = .ok db ∧
      (run documentStep db payAndReverse).allocations.values = [] ∧
      netOf netAmount (postedLines (run documentStep db payAndReverse) 2) 2 none none = 0 := by
  obtain ⟨db, hsave, hdrafts, hpostings, hallocations, hentries, ⟨d, hd, hreversed⟩, hempty⟩ := okAnd_eq_true.1
    (show okAnd (saveAll january receiptAndInvoices (Db.fresh usd)) (fun db =>
      (∀ r ∈ db.documents.rows, r.2.status = .draft) ∧ db.postings.rows = [] ∧ db.allocations.rows = [] ∧
      (∀ e ∈ db.entries.values, e.sourceDocumentId = none ∧ ∀ l ∈ e.lines, l.financialDocumentId = none) ∧
      (∃ d ∈ (run documentStep db payAndReverse).documents.get? 2, d.status = .reversed) ∧
      (run documentStep db payAndReverse).allocations.values = []) = true by decide +kernel)
  have hnothing : NothingBooked db :=
    ⟨fun id d hd => hdrafts (id, d) (Table.get?_eq_some.1 hd), hpostings, hallocations, hentries⟩
  exact ⟨db, hsave, hempty, ((run_reversed hnothing payAndReverse hd hreversed).1 2 none none).1⟩

end LcsSystem
