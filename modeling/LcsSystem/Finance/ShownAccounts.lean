import LcsSystem.Finance.PostedAccounts
import LcsSystem.Finance.PostingBalance

/-!
# The account that a document line shows

`detail_account_code` (`src/backend/app/modules/finance/posting.py:274-290`), which `_line_account_codes`
(`modules/finance/service.py:555`) asks for each stored line, and the journal that `post_document` writes. A detailed
strategy resolves the same accounts line by line. The other document types are posted to the two accounts of their rule,
whatever their lines show.

| here         | there                                                                                  |
|--------------|----------------------------------------------------------------------------------------|
| `postedRows` | the journal row of each line: the last of its rows, or the detail side of a simple entry |
| `detailSide` | the account of a rule that the detail goes to                                            |

`_line_account_codes` leaves out an empty code, which no account has.
-/

namespace LcsSystem
open Relational DecimalArith Checks

/-- `detail_account_code`: a refusal shows no account. -/
def shownAccountCode (db : Db) (documentType : DocType) (line : DocumentLineInput) : Option String :=
  match detailAccount db documentType line with
  | .ok account => some account.row.accountCode
  | .error _ => none

/-- The account of the side that the detail is on. -/
def detailSide (documentType : DocType) (accounts : PostingRuleAccounts) : Account :=
  if lineDetailIsCredit documentType then accounts.credit else accounts.debit

/-- Consecutive blocks of these lengths. -/
def blocks {α : Type} : List ℕ → List α → List (List α)
  | [], _ => []
  | n :: ns, xs => xs.take n :: blocks ns (xs.drop n)

/-- The row of each line in the journal of the document: behind the control row, the lines have their rows in order. -/
def postedRows (documentType : DocType) (splits : Bool) (lines : List DocumentLineInput) (rows : List JournalEntryLine) :
    List (Option JournalEntryLine) :=
  if (strategyFor documentType).detailed then
    (blocks (lines.map fun line => (line.parts splits).length) (rows.drop 1)).map List.getLast?
  else lines.map fun _ => rows[if lineDetailIsCredit documentType then 1 else 0]?

/-- The row has the account that the line shows. -/
def ShowsAccount (db : Db) (documentType : DocType) (line : DocumentLineInput) (row : Option JournalEntryLine) : Prop :=
  ∃ r ∈ row, ∃ account ∈ accountById db r.accountId,
    shownAccountCode db documentType line = some account.row.accountCode

instance (db : Db) (documentType : DocType) (line : DocumentLineInput) (row : Option JournalEntryLine) :
    Decidable (ShowsAccount db documentType line row) := inferInstanceAs (Decidable (∃ r ∈ row, _))

/-- Each line with a positive amount besides its tax shows the account of its row. -/
def ShowsPosted (db : Db) (d : Document) (e : JournalEntry) : Prop :=
  ∀ control, resolve db d.documentType none "debit" "credit" = .ok control →
    List.Forall₂ (fun line row => 0 < line.restPart (splitsTax d.documentType control) →
      ShowsAccount db d.documentType line row)
      (postingLines d) (postedRows d.documentType (splitsTax d.documentType control) (postingLines d) e.lines)

instance (db : Db) (d : Document) (e : JournalEntry) : Decidable (ShowsPosted db d e) :=
  match h : resolve db d.documentType none "debit" "credit" with
  | .ok control =>
    decidable_of_iff (List.Forall₂ (fun line row => 0 < line.restPart (splitsTax d.documentType control) →
      ShowsAccount db d.documentType line row)
      (postingLines d) (postedRows d.documentType (splitsTax d.documentType control) (postingLines d) e.lines))
      (by simp only [ShowsPosted, h, Except.ok.injEq, forall_eq'])
  | .error _ => isTrue (by simp [ShowsPosted, h])

/-- The line names an account with this code, or its fee type resolves to one. -/
def ResolvesTo (db : Db) (documentType : DocType) (code : String) (line : DocumentLineInput) : Prop :=
  match line.accountId with
  | some id => ∃ account, accountById db id = some account ∧ account.row.accountCode = code
  | none => ∃ accounts, resolve db documentType line.feeTypeId "line" "line" = .ok accounts ∧
      (detailSide documentType accounts).row.accountCode = code

/-- The type is booked in detail, or its lines resolve to the account of its rule. -/
def LinesFollowRule (db : Db) (d : Document) : Prop :=
  (strategyFor d.documentType).detailed = true ∨
    ∀ control, resolve db d.documentType none "debit" "credit" = .ok control → ∀ line ∈ postingLines d,
      0 < line.amount → ResolvesTo db d.documentType (detailSide d.documentType control).row.accountCode line

/-! ## Resolved accounts are stored -/

section
variable {db : Db} {documentType : DocType}

theorem stored_of_validated {account : Option Account} {label : String} {field : Option String} {a : Account}
    (h : validatePostable account label field = .ok a)
    (hread : ∀ b, account = some b → accountById db b.id = some b) : accountById db a.id = some a :=
  hread a (validatePostable_eq_ok.1 h).1

theorem stored_of_accountById {id : ℕ} {a : Account} (h : accountById db id = some a) : accountById db a.id = some a := by
  rwa [(accountById_eq_some.1 h).1]

theorem stored_of_accountByCode {code : String} {a : Account} (h : accountByCode db code = some a) :
    accountById db a.id = some a :=
  accountById_eq_some.2 ⟨rfl, get?_of_accountByCode h⟩

theorem resolve_stored {feeTypeId : Option ℕ} {labelDebit labelCredit : String} {accounts : PostingRuleAccounts}
    (h : resolve db documentType feeTypeId labelDebit labelCredit = .ok accounts) :
    accountById db accounts.debit.id = some accounts.debit ∧ accountById db accounts.credit.id = some accounts.credit := by
  rw [resolve_eq] at h
  simp only [bind_eq_ok] at h
  obtain ⟨choice, -, h⟩ := h
  cases choice with
  | none =>
    simp only [accountsOf, legacyAccounts, bind_eq_ok, pure_eq_ok] at h
    obtain ⟨debit, hdebit, credit, hcredit, rfl⟩ := h
    exact ⟨stored_of_validated hdebit fun _ => stored_of_accountByCode,
      stored_of_validated hcredit fun _ => stored_of_accountByCode⟩
  | some rule =>
    simp only [accountsOf, bind_eq_ok] at h
    obtain ⟨debit, hdebit, credit, hcredit, h⟩ := h
    have hstored := And.intro (stored_of_validated hdebit fun _ => stored_of_accountById)
      (stored_of_validated hcredit fun _ => stored_of_accountById)
    split at h
    · simp only [bind_eq_ok, map_eq_ok, pure_eq_ok] at h
      obtain ⟨_, -, rfl⟩ := h
      exact hstored
    · cases h
      exact hstored

theorem detailSide_stored {feeTypeId : Option ℕ} {labelDebit labelCredit : String} {accounts : PostingRuleAccounts}
    (h : resolve db documentType feeTypeId labelDebit labelCredit = .ok accounts) :
    accountById db (detailSide documentType accounts).id = some (detailSide documentType accounts) := by
  obtain ⟨hdebit, hcredit⟩ := resolve_stored h
  unfold detailSide
  split
  · exact hcredit
  · exact hdebit

theorem detailAccount_stored {line : DocumentLineInput} {a : Account} (h : detailAccount db documentType line = .ok a) :
    accountById db a.id = some a := by
  unfold detailAccount at h
  cases haccount : line.accountId with
  | some id =>
    simp only [haccount, require_eq_ok] at h
    exact stored_of_accountById h
  | none =>
    simp only [haccount, bind_eq_ok, pure_eq_ok] at h
    obtain ⟨accounts, haccounts, rfl⟩ := h
    exact detailSide_stored haccounts

theorem shownAccountCode_eq_some {line : DocumentLineInput} {code : String} :
    shownAccountCode db documentType line = some code ↔
      ∃ a, detailAccount db documentType line = .ok a ∧ a.row.accountCode = code := by
  unfold shownAccountCode
  cases detailAccount db documentType line with
  | ok a => simp
  | error e => simp

theorem resolvesTo_iff {code : String} {line : DocumentLineInput} :
    ResolvesTo db documentType code line ↔ shownAccountCode db documentType line = some code := by
  rw [shownAccountCode_eq_some]
  unfold ResolvesTo detailAccount
  cases line.accountId with
  | some id => simp only [require_eq_ok]
  | none =>
    simp only [bind_eq_ok, pure_eq_ok]
    constructor
    · rintro ⟨accounts, haccounts, hcode⟩
      exact ⟨_, ⟨accounts, haccounts, rfl⟩, hcode⟩
    · rintro ⟨_, ⟨accounts, haccounts, rfl⟩, hcode⟩
      exact ⟨accounts, haccounts, hcode⟩

/-! ## Detailed types -/

variable {tax : Option Account} {description : String} {documentId : ℕ} {d : Document}

theorem length_draftLine (account : Account) (amount : ℚ) (debit : Bool) (description : String) :
    (draftLine account amount debit description).length = (positivePart amount).length := by
  unfold draftLine positivePart
  split <;> rfl

theorem length_taxLines (debit : Bool) (line : DocumentLineInput) :
    (taxLines tax debit description line).length = (positivePart (line.taxPart tax.isSome)).length := by
  cases tax with
  | none => simp [taxLines, DocumentLineInput.taxPart, positivePart]
  | some account => exact length_draftLine ..

/-- The rows of one line: as many as it has parts, the last one on its own account. -/
theorem detailOf_rows {line : DocumentLineInput} {drafts : List DraftLine} {resolved : Bool}
    (h : detailOf db documentType tax description line = .ok (drafts, resolved)) :
    drafts.length = (line.parts tax.isSome).length ∧ (0 < line.restPart tax.isSome →
      ∃ front l, drafts = front ++ [l] ∧ detailAccount db documentType line = .ok l.account) := by
  unfold detailOf at h
  split at h
  next hrest =>
    cases h
    refine ⟨?_, fun hpos => absurd hpos (not_lt.2 hrest)⟩
    rw [length_taxLines, DocumentLineInput.parts, List.length_append]
    simp [positivePart, hrest]
  next hrest =>
    simp only [bind_eq_ok, pure_eq_ok] at h
    obtain ⟨account, haccount, h⟩ := h
    cases h
    refine ⟨?_, fun _ => ?_⟩
    · rw [List.length_append, length_taxLines, length_draftLine, DocumentLineInput.parts, List.length_append]
    · refine ⟨taxLines tax (!lineDetailIsCredit documentType) description line,
        ⟨account, line.restPart tax.isSome, !lineDetailIsCredit documentType, line.label description⟩, ?_, haccount⟩
      rw [draftLine, if_neg hrest]

theorem exists_last_of_forall₂ {α β : Type} {R : α → β → Prop} {l : α} :
    ∀ {front : List α} {rows : List β}, List.Forall₂ R (front ++ [l]) rows →
      ∃ front' row, rows = front' ++ [row] ∧ R l row
  | [], _, .cons hrow .nil => ⟨[], _, rfl, hrow⟩
  | _ :: _, _, .cons _ hrest => by
    obtain ⟨front', row, rfl, hrow⟩ := exists_last_of_forall₂ hrest
    exact ⟨_ :: front', row, rfl, hrow⟩

/-- Lines and the rows of a journal that starts with their drafts. -/
theorem detailLines_rows : ∀ {lines : List DocumentLineInput} {drafts more : List DraftLine} {resolvedAny : Bool}
    {rows : List JournalEntryLine}, detailLines db documentType tax description lines = .ok (drafts, resolvedAny) →
    List.Forall₂ (JournalLineOf documentId d) (drafts ++ more) rows →
    List.Forall₂ (fun line row => 0 < line.restPart tax.isSome → ShowsAccount db documentType line row) lines
      ((blocks (lines.map fun line => (line.parts tax.isSome).length) rows).map List.getLast?) := by
  intro lines
  induction lines with
  | nil =>
    intro drafts more resolvedAny rows _ _
    exact .nil
  | cons line lines ih =>
    intro drafts more resolvedAny rows h hrows
    simp only [detailLines, bind_eq_ok, pure_eq_ok] at h
    obtain ⟨⟨first, resolved⟩, hfirst, ⟨rest, any⟩, hrest, h⟩ := h
    cases h
    obtain ⟨hlength, hlast⟩ := detailOf_rows hfirst
    rw [List.append_assoc] at hrows
    have hfront := List.forall₂_take_append rows first (rest ++ more) hrows.flip
    have hback := List.forall₂_drop_append rows first (rest ++ more) hrows.flip
    rw [hlength] at hfront hback
    refine .cons ?_ (ih hrest hback.flip)
    intro hpos
    obtain ⟨front, l, rfl, haccount⟩ := hlast hpos
    obtain ⟨front', row, heq, hrow⟩ := exists_last_of_forall₂ hfront.flip
    refine ⟨row, ?_, l.account, ?_, ?_⟩
    · rw [heq, List.getLast?_concat]
      rfl
    · rw [hrow.account]
      exact detailAccount_stored haccount
    · exact shownAccountCode_eq_some.2 ⟨_, haccount, rfl⟩

theorem detailed_rows {total : ℚ} {control : PostingRuleAccounts} {lines : List DocumentLineInput}
    {drafts : List DraftLine} {rows : List JournalEntryLine}
    (hdetailed : (strategyFor documentType).detailed = true) (htotal : 0 < total)
    (h : draftLines db documentType total control description lines = .ok drafts)
    (hrows : List.Forall₂ (JournalLineOf documentId d) drafts rows) :
    List.Forall₂ (fun line row => 0 < line.restPart (splitsTax documentType control) →
      ShowsAccount db documentType line row) lines
      (postedRows documentType (splitsTax documentType control) lines rows) := by
  simp only [postedRows, hdetailed, if_true]
  cases lines with
  | nil => exact .nil
  | cons line lines =>
    simp only [draftLines, hdetailed, List.isEmpty_cons, Bool.not_false, Bool.and_self, if_true, addDetailed,
      bind_eq_ok, pure_eq_ok] at h
    obtain ⟨⟨ds, any⟩, hds, rfl⟩ := h
    -- The control row comes first, as the total is positive.
    rw [draftLine, if_neg (not_le.2 htotal), List.append_assoc, List.singleton_append] at hrows
    cases hrows with
    | cons _ hrest =>
      have hlines := detailLines_rows hds hrest
      rwa [isSome_taxAccount] at hlines

/-! ## Simple types -/

theorem splitsTax_of_simple (hdetailed : (strategyFor documentType).detailed = false) (control : PostingRuleAccounts) :
    splitsTax documentType control = false := by
  cases documentType <;> first | rfl | cases hdetailed

/-- The two rows of a simple entry. -/
theorem simple_row {total : ℚ} {control : PostingRuleAccounts} {lines : List DocumentLineInput}
    {drafts : List DraftLine} {rows : List JournalEntryLine}
    (hdetailed : (strategyFor documentType).detailed = false) (htotal : 0 < total)
    (h : draftLines db documentType total control description lines = .ok drafts)
    (hrows : List.Forall₂ (JournalLineOf documentId d) drafts rows) :
    ∃ row, rows[if lineDetailIsCredit documentType then 1 else 0]? = some row ∧
      row.accountId = (detailSide documentType control).id := by
  simp only [draftLines, hdetailed, Bool.false_and, Bool.false_eq_true, if_false, Except.ok.injEq] at h
  subst h
  simp only [twoSided, draftLine, if_neg (not_le.2 htotal), List.singleton_append] at hrows
  obtain _ | ⟨hdebit, hrows⟩ := hrows
  obtain _ | ⟨hcredit, -⟩ := hrows
  unfold detailSide
  cases lineDetailIsCredit documentType with
  | true => exact ⟨_, rfl, hcredit.account⟩
  | false => exact ⟨_, rfl, hdebit.account⟩

theorem showsAccount_iff {line : DocumentLineInput} {row : JournalEntryLine} {a : Account}
    (ha : accountById db a.id = some a) (hrow : row.accountId = a.id) :
    ShowsAccount db documentType line (some row) ↔ ResolvesTo db documentType a.row.accountCode line := by
  rw [resolvesTo_iff]
  constructor
  · rintro ⟨r, hr, account, haccount, hcode⟩
    cases hr
    rw [hrow, ha, Option.mem_some_iff] at haccount
    rwa [haccount]
  · intro hcode
    exact ⟨row, rfl, a, by rw [hrow, ha]; rfl, hcode⟩

theorem simple_rows {total : ℚ} {control : PostingRuleAccounts} {lines : List DocumentLineInput}
    {drafts : List DraftLine} {rows : List JournalEntryLine}
    (hdetailed : (strategyFor documentType).detailed = false) (htotal : 0 < total)
    (hcontrol : resolve db documentType none "debit" "credit" = .ok control)
    (h : draftLines db documentType total control description lines = .ok drafts)
    (hrows : List.Forall₂ (JournalLineOf documentId d) drafts rows) :
    List.Forall₂ (fun line row => 0 < line.restPart (splitsTax documentType control) →
      ShowsAccount db documentType line row) lines
      (postedRows documentType (splitsTax documentType control) lines rows) ↔
    ∀ line ∈ lines, 0 < line.amount → ResolvesTo db documentType (detailSide documentType control).row.accountCode line := by
  obtain ⟨row, hrow, haccount⟩ := simple_row hdetailed htotal h hrows
  simp only [postedRows, hdetailed, Bool.false_eq_true, if_false, splitsTax_of_simple hdetailed, hrow]
  rw [List.forall₂_map_right_iff, List.forall₂_same]
  simp only [showsAccount_iff (detailSide_stored hcontrol) haccount, DocumentLineInput.restPart,
    DocumentLineInput.taxPart, Bool.false_eq_true, if_false, sub_zero]

end

/-! ## One posting -/

/-- **What the form shows is what is posted** exactly when the type is booked in detail or its lines resolve to the
account of its rule. -/
theorem shows_posted_iff {env : Env} {db db' : Db} {documentId : ℕ} {d : Document}
    (h : postDocument env db documentId = .ok db') (hd : db.documents.get? documentId = some d)
    (hdraft : d.status = .draft) :
    ∃ e, db'.entries.get? db.entries.nextId = some e ∧ e.sourceDocumentId = some documentId ∧
      (ShowsPosted db d e ↔ LinesFollowRule db d) := by
  obtain ⟨d', hd', hcases⟩ := postDocument_spec h
  obtain rfl : d = d' := Option.some.inj (hd.symm.trans hd')
  obtain ⟨hposted, -⟩ | ⟨-, w, rfl, -⟩ := hcases
  · exact absurd (hdraft.symm.trans hposted) DocStatus.noConfusion
  refine ⟨w.entry, Table.get?_insert_self _ _, rfl, ?_⟩
  have hbuild := w.build_ok
  simp only [build, bind_eq_ok, check_eq_ok, pure_eq_ok] at hbuild
  obtain ⟨_, htotal, control, hcontrol, drafts, hdrafts, _, -, hdraftEq⟩ := hbuild
  have hrows : List.Forall₂ (JournalLineOf documentId d) drafts w.entry.lines := by
    have := journalLines_spec w.lines_ok
    rwa [← hdraftEq] at this
  unfold ShowsPosted LinesFollowRule
  simp only [hcontrol, Except.ok.injEq, forall_eq']
  cases hdetailed : (strategyFor d.documentType).detailed with
  | true => exact iff_of_true (detailed_rows hdetailed htotal hdrafts hrows) (.inl rfl)
  | false =>
    rw [simple_rows hdetailed htotal hcontrol hdrafts hrows]
    exact ⟨.inr, fun hor => hor.resolve_left Bool.false_ne_true⟩

/-- Two lines of an invoice with a tax account, one of them on account 4020. -/
def taxedInvoice : DocumentPayload :=
  .ofLines .customerInvoice [{ LinePayload.priced 2 10 with taxRate := .value 7 },
    { LinePayload.priced 1 5 with accountCode := .value "4020" }]

theorem shows_posted_taxedInvoice :
    ∃ r d db', saveDocument january (withTaxRule (Db.fresh usd)) taxedInvoice = .ok r ∧
      r.1.documents.get? r.2 = some d ∧ postDocument january r.1 r.2 = .ok db' ∧
      ∃ e, db'.entries.get? r.1.entries.nextId = some e ∧ e.sourceDocumentId = some r.2 ∧ ShowsPosted r.1 d e := by
  obtain ⟨r, hsave, d, hd, hdraft, hdetailed, hpost⟩ := okAnd_eq_true.1
    (show okAnd (saveDocument january (withTaxRule (Db.fresh usd)) taxedInvoice)
      (fun r => ∃ d ∈ r.1.documents.get? r.2, d.status = .draft ∧ (strategyFor d.documentType).detailed = true ∧
        (postDocument january r.1 r.2).isOk = true) = true by decide +kernel)
  obtain ⟨db', hpost⟩ := isOk_eq_true.1 hpost
  obtain ⟨e, he, hsource, hshows⟩ := shows_posted_iff hpost hd hdraft
  exact ⟨r, d, db', hsave, hd, hpost, e, he, hsource, hshows.2 (.inl hdetailed)⟩

/-- An expense with its line on account 5010. -/
def freightExpense : DocumentPayload :=
  .ofLines .otherExpense [{ LinePayload.priced 1 100 with accountCode := .value "5010" }]

/-- The form shows 5010, and the rule's own debit account 5030 is posted to. -/
theorem freight_expense_posted_elsewhere :
    ∃ r d db' e, saveDocument january (Db.fresh usd) freightExpense = .ok r ∧ r.1.documents.get? r.2 = some d ∧
      postDocument january r.1 r.2 = .ok db' ∧ db'.entries.get? r.1.entries.nextId = some e ∧
      (postingLines d).map (shownAccountCode r.1 d.documentType) = [some "5010"] ∧
      e.lines.map (fun row => (accountById r.1 row.accountId).map (·.row.accountCode)) = [some "5030", some "1020"] ∧
      ¬ShowsPosted r.1 d e := by
  obtain ⟨r, hsave, d, hd, hposted⟩ := okAnd_eq_true.1
    (show okAnd (saveDocument january (Db.fresh usd) freightExpense) (fun r => ∃ d ∈ r.1.documents.get? r.2,
      okAnd (postDocument january r.1 r.2) (fun db' => ∃ e ∈ db'.entries.get? r.1.entries.nextId,
        (postingLines d).map (shownAccountCode r.1 d.documentType) = [some "5010"] ∧
        e.lines.map (fun row => (accountById r.1 row.accountId).map (·.row.accountCode)) = [some "5030", some "1020"] ∧
        ¬ShowsPosted r.1 d e) = true) = true by decide +kernel)
  obtain ⟨db', hpost, e, he, hshown, hrows, hnot⟩ := okAnd_eq_true.1 hposted
  exact ⟨r, d, db', e, hsave, hd, hpost, he, hshown, hrows, hnot⟩

end LcsSystem
