import LcsSystem.Finance.Accounts
import LcsSystem.Finance.PostedAccounts
import LcsSystem.Finance.SavedDocuments

/-!
# Account edits between saving and posting

Accounts are edited while drafts wait. `posted_accounts` is the exact condition under which the postings
of a run go to postable accounts only; `draftsPostable_run` is the condition on the account edits that
is enough: none of them closes an account that a draft names.
-/

namespace LcsSystem
open Relational Checks Transition

/-! ## What a saved journal leaves -/

theorem insertLines_eq {db db' : Db} {id : ℕ} {lines : List JournalEntryLine} (h : insertLines db id lines = .ok db') :
    db' = { db with entries := db.entries.modify id fun e => { e with lines := e.lines ++ lines } } := by
  simp only [insertLines, bind_eq_ok, pure_eq_ok] at h
  obtain ⟨_, -, rfl⟩ := h
  rfl

theorem deleteLines_eq {db db' : Db} {id : ℕ} (h : deleteLines db id = .ok db') :
    db' = { db with entries := db.entries.modify id fun e => { e with lines := [] } } := by
  simp only [deleteLines, bind_eq_ok, pure_eq_ok] at h
  obtain ⟨_, -, rfl⟩ := h
  rfl

theorem updateEntry_eq {db db' : Db} {id : ℕ} {f : JournalEntry → JournalEntry} (h : updateEntry db id f = .ok db') :
    db' = { db with entries := db.entries.modify id f } := by
  simp only [updateEntry, bind_eq_ok, pure_eq_ok] at h
  obtain ⟨_, -, rfl⟩ := h
  rfl

/-- The header of a saved journal is a draft; no other row is touched. -/
theorem writeHeader_spec {env : Env} {db db' : Db} {p : JournalPayload} {periodId id : ℕ}
    (h : writeHeader env db p periodId = .ok (db', id)) :
    (∃ e, db'.entries.get? id = some e ∧ e.status = .draft) ∧ db'.accounts = db.accounts ∧
      db'.documents = db.documents ∧ ∀ i, i ≠ id → db'.entries.get? i = db.entries.get? i := by
  unfold writeHeader at h
  split at h
  · simp only [insertEntry, bind_eq_ok, pure_eq_ok] at h
    obtain ⟨_, -, h⟩ := h
    cases h
    refine ⟨⟨_, Table.get?_insert_self _ _, rfl⟩, rfl, rfl, fun i hi => ?_⟩
    exact (Table.get?_insert _ _ _).trans (if_neg hi)
  · next i e hstored =>
    simp only [bind_eq_ok, check_eq_ok, pure_eq_ok] at h
    obtain ⟨_, hnot, db₁, hupdate, h⟩ := h
    cases h
    obtain rfl := updateEntry_eq hupdate
    obtain ⟨-, he⟩ := Table.bind_get?_eq_some.1 hstored
    refine ⟨⟨_, by rw [Table.get?_modify_self, he]; rfl, ?_⟩, rfl, rfl, fun i hi => Table.get?_modify_of_ne _ hi⟩
    cases hs : e.status with
    | draft => simp [editJournal, hs]
    | posted => exact absurd hs hnot

theorem journalAccount_get? {db : Db} {line : JournalLinePayload} {a : Account} (h : journalAccount db line = some a) :
    db.accounts.get? a.id = some a.row := by
  unfold journalAccount at h
  split at h
  · next b hb =>
    cases h
    obtain ⟨id, -, hid⟩ := Option.bind_eq_some_iff.1 hb
    obtain ⟨rfl, hrow⟩ := accountById_eq_some.1 hid
    exact hrow
  · obtain ⟨code, -, hcode⟩ := Option.bind_eq_some_iff.1 h
    exact get?_of_accountByCode hcode

theorem journalDraftOf_postable {db : Db} {index : ℕ} {line : JournalLinePayload} {l : JournalLineDraft}
    (h : journalDraftOf db index line = .ok l) : db.Postable l.accountId := by
  simp only [journalDraftOf, bind_eq_ok, require_eq_ok, pure_eq_ok] at h
  obtain ⟨account, haccount, validated, hvalidated, _, -, _, -, _, -, _, -, _, -, _, -, _, -, rfl⟩ := h
  exact postable_of_validated hvalidated fun b hb => by
    cases hb
    exact journalAccount_get? haccount

theorem journalDraftsFrom_postable {db : Db} {index : ℕ} {lines : List JournalLinePayload}
    {ls : List JournalLineDraft} (h : journalDraftsFrom db index lines = .ok ls) : ∀ l ∈ ls, db.Postable l.accountId := by
  induction lines generalizing index ls with
  | nil => cases h; simp
  | cons line lines ih =>
    simp only [journalDraftsFrom, bind_eq_ok, pure_eq_ok] at h
    obtain ⟨draft, hdraft, drafts, hdrafts, rfl⟩ := h
    exact List.forall_mem_cons.2 ⟨journalDraftOf_postable hdraft, ih hdrafts⟩

theorem journalRowsFrom_accounts {lineNo : ℕ} {ls : List JournalLineDraft} {rows : List JournalEntryLine}
    (h : journalRowsFrom lineNo ls = .ok rows) :
    rows.map JournalEntryLine.accountId = ls.map JournalLineDraft.accountId := by
  induction ls generalizing lineNo rows with
  | nil => cases h; rfl
  | cons l ls ih =>
    simp only [journalRowsFrom, bind_eq_ok, pure_eq_ok] at h
    obtain ⟨row, hrow, rows, hrows, rfl⟩ := h
    simp only [JournalLineDraft.row, bind_eq_ok, pure_eq_ok] at hrow
    obtain ⟨_, -, _, -, _, -, _, -, _, -, rfl⟩ := hrow
    rw [List.map_cons, List.map_cons, ih hrows]

/-- **A saved journal** is a draft whose lines name postable accounts; no other row is touched. -/
theorem saveJournal_spec {env : Env} {db db' : Db} {p : JournalPayload} {id : ℕ}
    (h : saveJournal env db p = .ok (db', id)) :
    (∃ e, db'.entries.get? id = some e ∧ e.status = .draft ∧ ∀ l ∈ e.lines, db.Postable l.accountId) ∧
      db'.accounts = db.accounts ∧ db'.documents = db.documents ∧
      ∀ i, i ≠ id → db'.entries.get? i = db.entries.get? i := by
  simp only [saveJournal, bind_eq_ok, pure_eq_ok] at h
  obtain ⟨_, -, ⟨periods, periodId, period⟩, -, lines, -, ⟨db₁, i⟩, h₁, db₂, h₂, drafts, hdrafts, rows, hrows,
    debitTotal, -, creditTotal, -, db₃, h₃, db₄, h₄, db₅, hcommit, h⟩ := h
  cases h
  obtain ⟨⟨e, he, hdraft⟩, haccounts, hdocuments, hother⟩ := writeHeader_spec h₁
  obtain ⟨rfl, -⟩ := commit_spec hcommit
  obtain rfl := deleteLines_eq h₂
  obtain rfl := insertLines_eq h₃
  obtain rfl := updateEntry_eq h₄
  have hsaved : (((db₁.entries.modify i fun e => { e with lines := [] }).modify i
      fun e => { e with lines := e.lines ++ rows }).modify i (setTotals debitTotal creditTotal)).get? i =
      some (setTotals debitTotal creditTotal { e with lines := rows }) := by
    simp [he]
  refine ⟨⟨_, hsaved, hdraft, ?_⟩, haccounts, hdocuments, fun j hj => ?_⟩
  · intro l hl
    have hmem : l.accountId ∈ drafts.map JournalLineDraft.accountId := by
      rw [← journalRowsFrom_accounts hrows]
      exact List.mem_map_of_mem hl
    obtain ⟨draft, hmemdraft, heq⟩ := List.mem_map.1 hmem
    rw [← heq]
    exact journalDraftsFrom_postable hdrafts draft hmemdraft
  · simp only [Table.get?_modify_of_ne _ hj]
    exact hother j hj

/-! ## What a saved document leaves -/

theorem lineAccountId_postable {db : Db} {line : LinePayload} {accountId : Option ℕ}
    (h : lineAccountId db line = .ok accountId) : ∀ id ∈ accountId, db.Postable id := by
  unfold lineAccountId at h
  split at h
  · cases h
    simp
  · simp only [bind_eq_ok, require_eq_ok, pure_eq_ok] at h
    obtain ⟨account, haccount, validated, hvalidated, rfl⟩ := h
    simp only [Option.mem_def, Option.some.injEq, forall_eq']
    exact postable_of_validated hvalidated fun b hb => by
      cases hb
      exact get?_of_resolveAccountRef haccount

theorem draftLinesFrom_postable {db : Db} {index : ℕ} {lines : List LinePayload} {ls : List LineDraft}
    (h : draftLinesFrom db index lines = .ok ls) : ∀ l ∈ ls, ∀ id ∈ l.accountId, db.Postable id := by
  induction lines generalizing index ls with
  | nil => cases h; simp
  | cons line lines ih =>
    simp only [draftLinesFrom, bind_eq_ok, pure_eq_ok] at h
    obtain ⟨draft, hdraft, drafts, hdrafts, rfl⟩ := h
    simp only [draftOfLine, bind_eq_ok, pure_eq_ok] at hdraft
    obtain ⟨_, -, _, -, _, -, _, -, _, -, accountId, haccount, rfl⟩ := hdraft
    exact List.forall_mem_cons.2 ⟨lineAccountId_postable haccount, ih hdrafts⟩

theorem rowsFrom_accounts {lineNo : ℕ} {ls : List LineDraft} {rows : List DocumentLine}
    (h : rowsFrom lineNo ls = .ok rows) : rows.map DocumentLine.accountId = ls.map LineDraft.accountId := by
  induction ls generalizing lineNo rows with
  | nil => cases h; rfl
  | cons l ls ih =>
    simp only [rowsFrom, bind_eq_ok, pure_eq_ok] at h
    obtain ⟨row, hrow, rows, hrows, rfl⟩ := h
    simp only [LineDraft.row, bind_eq_ok, pure_eq_ok] at hrow
    obtain ⟨_, -, _, -, _, -, _, -, _, -, _, -, rfl⟩ := hrow
    rw [List.map_cons, List.map_cons, ih hrows]

theorem documentTotals_postable {db : Db} {p : DocumentPayload} {lines : List LinePayload} {rate : ℚ} {precision : ℕ}
    {amounts baseAmounts : Amounts} {rows : List DocumentLine}
    (h : documentTotals db p lines rate precision = .ok (amounts, baseAmounts, rows)) :
    ∀ row ∈ rows, ∀ id ∈ row.accountId, db.Postable id := by
  obtain ⟨t⟩ := documentTotals_spec h
  intro row hrow
  have hmem : row.accountId ∈ t.drafts.map LineDraft.accountId := by
    rw [← rowsFrom_accounts t.rows_ok]
    exact List.mem_map_of_mem hrow
  obtain ⟨draft, hdraft, heq⟩ := List.mem_map.1 hmem
  rw [← heq]
  exact draftLinesFrom_postable t.drafts_ok draft hdraft

/-! ## The drafts -/

/-- The accounts that the lines of drafts name. -/
def draftAccounts (db : Db) : List ℕ :=
  (db.documents.values.flatMap fun d =>
    if d.status = .draft then d.lines.filterMap DocumentLine.accountId else []) ++
  db.entries.values.flatMap fun e => if e.status = .draft then e.lines.map JournalEntryLine.accountId else []

/-- Every account that a draft names is postable. -/
def DraftsPostable (db : Db) : Prop := ∀ id ∈ draftAccounts db, db.Postable id

theorem mem_draftAccounts {db : Db} {id : ℕ} : id ∈ draftAccounts db ↔
    (∃ i d, db.documents.get? i = some d ∧ d.status = .draft ∧ ∃ line ∈ d.lines, id ∈ line.accountId) ∨
    ∃ i e, db.entries.get? i = some e ∧ e.status = .draft ∧ ∃ l ∈ e.lines, l.accountId = id := by
  unfold draftAccounts
  rw [List.mem_append, List.mem_flatMap, List.mem_flatMap]
  refine or_congr ?_ ?_
  · constructor
    · rintro ⟨d, hd, hid⟩
      obtain ⟨i, hi⟩ := Table.mem_values.1 hd
      split at hid
      · next hs => exact ⟨i, d, hi, hs, List.mem_filterMap.1 hid⟩
      · cases hid
    · rintro ⟨i, d, hi, hs, hid⟩
      refine ⟨d, Table.mem_values.2 ⟨i, hi⟩, ?_⟩
      rw [if_pos hs]
      exact List.mem_filterMap.2 hid
  · constructor
    · rintro ⟨e, he, hid⟩
      obtain ⟨i, hi⟩ := Table.mem_values.1 he
      split at hid
      · next hs => exact ⟨i, e, hi, hs, List.mem_map.1 hid⟩
      · cases hid
    · rintro ⟨i, e, hi, hs, hid⟩
      refine ⟨e, Table.mem_values.2 ⟨i, hi⟩, ?_⟩
      rw [if_pos hs]
      exact List.mem_map.2 hid

theorem draftsPostable_iff {db : Db} : DraftsPostable db ↔
    (∀ i d, db.documents.get? i = some d → d.status = .draft →
      ∀ line ∈ d.lines, ∀ id ∈ line.accountId, db.Postable id) ∧
    ∀ i e, db.entries.get? i = some e → e.status = .draft → ∀ l ∈ e.lines, db.Postable l.accountId := by
  simp only [DraftsPostable, mem_draftAccounts]
  constructor
  · intro h
    refine ⟨fun i d hd hs line hline id hid => ?_, fun i e he hs l hl => ?_⟩
    · exact h id (.inl ⟨i, d, hd, hs, line, hline, hid⟩)
    · exact h _ (.inr ⟨i, e, he, hs, l, hl, rfl⟩)
  · rintro ⟨hdocuments, hentries⟩ id (⟨i, d, hd, hs, line, hline, hid⟩ | ⟨i, e, he, hs, l, hl, rfl⟩)
    · exact hdocuments i d hd hs line hline id hid
    · exact hentries i e he hs l hl

/-! ## The requests -/

/-- A configuration edit, or a request that saves or posts. -/
inductive AccountingAction
  | createAccount (p : AccountPayload)
  | updateAccount (accountId : ℕ) (p : AccountPayload)
  /-- Whatever the posting-rule services leave of the rules. -/
  | setPostingRules (rules : Table PostingRule)
  | saveDocument (env : Env) (p : DocumentPayload)
  | saveJournal (env : Env) (p : JournalPayload)
  | postDocument (env : Env) (documentId : ℕ)
  | postJournal (env : Env) (journalId : ℕ)

namespace AccountingAction

def request (db : Db) : AccountingAction → Result Db
  | .createAccount p => LcsSystem.createAccount db p
  | .updateAccount id p => LcsSystem.updateAccount db id p
  | .setPostingRules rules => .ok { db with postingRules := rules }
  | .saveDocument env p => Prod.fst <$> LcsSystem.saveDocument env db p
  | .saveJournal env p => Prod.fst <$> LcsSystem.saveJournal env db p
  | .postDocument env id => LcsSystem.postDocument env db id
  | .postJournal env id => LcsSystem.postJournal env db id

/-- The draft to be posted names postable accounts, on its lines that are posted to their own. -/
def NamesPostable (db : Db) : AccountingAction → Prop
  | .postDocument _ id => ∀ d ∈ db.documents.get? id, d.status = .draft → ∀ a ∈ d.ownAccounts db, db.Postable a
  | .postJournal _ id => ∀ e ∈ db.entries.get? id, e.status = .draft → ∀ l ∈ e.lines, db.Postable l.accountId
  | _ => True

instance (db : Db) : DecidablePred (NamesPostable db)
  | .postDocument _ id => inferInstanceAs (Decidable (∀ d ∈ db.documents.get? id, d.status = .draft → _))
  | .postJournal _ id => inferInstanceAs (Decidable (∀ e ∈ db.entries.get? id, e.status = .draft → _))
  | .createAccount _ | .updateAccount .. | .setPostingRules _ | .saveDocument .. | .saveJournal .. => .isTrue trivial

/-- The edit does not close an account that a draft names. -/
def KeepsDrafts (db : Db) : AccountingAction → Prop
  | .updateAccount id p => id ∈ draftAccounts db →
    ∀ account ∈ db.accounts.get? id, (p.apply account).isPostable = true ∧ (p.apply account).active = true
  | _ => True

instance (db : Db) : DecidablePred (KeepsDrafts db)
  | .updateAccount id _ => inferInstanceAs (Decidable (id ∈ draftAccounts db → _))
  | .createAccount _ | .setPostingRules _ | .saveDocument .. | .saveJournal .. | .postDocument .. | .postJournal .. =>
    .isTrue trivial

end AccountingAction

def accountingStep (db : Db) (a : AccountingAction) : Db := orKeep db (a.request db)

/-! ## Posting -/

theorem saveJournal_newlyPosted {env : Env} {db db' : Db} {p : JournalPayload} {id : ℕ}
    (h : saveJournal env db p = .ok (db', id)) : newlyPosted db db' = [] := by
  obtain ⟨⟨e, he, hdraft, -⟩, -, -, hother⟩ := saveJournal_spec h
  refine List.eq_nil_iff_forall_not_mem.2 fun x hx => ?_
  obtain ⟨i, hi, hposted, hold⟩ := mem_newlyPosted.1 hx
  by_cases hid : i = id
  · subst hid
    rw [he] at hi
    cases hi
    exact EntryStatus.noConfusion (hdraft.symm.trans hposted)
  · rw [hother i hid] at hi
    exact hold x hi hposted

theorem saveDocument_frame {env : Env} {db db' : Db} {p : DocumentPayload} {id : ℕ}
    (h : saveDocument env db p = .ok (db', id)) : db'.entries = db.entries ∧ db'.accounts = db.accounts := by
  obtain ⟨s, header, ⟨-, -, _, -, rfl⟩ | ⟨d, -, -, rfl⟩⟩ := saveDocument_spec h <;> exact ⟨rfl, rfl⟩

/-- **One accepted request**: what it posts goes to postable accounts exactly when the draft names
postable accounts. -/
theorem AccountingAction.postsToPostable_iff {db db' : Db} {a : AccountingAction} (h : a.request db = .ok db') :
    PostsToPostable db db' ↔ a.NamesPostable db := by
  -- A request that posts nothing.
  have hnone (hnil : newlyPosted db db' = []) : PostsToPostable db db' ↔ True := by
    simp [PostsToPostable, hnil]
  cases a with
  | createAccount p => exact hnone (newlyPosted_of_entries_eq (by rw [createAccount_spec h]))
  | updateAccount id p => exact hnone (newlyPosted_of_entries_eq (by rw [updateAccount_spec h]))
  | setPostingRules rules =>
    cases h
    exact hnone (newlyPosted_of_entries_eq rfl)
  | saveDocument env p =>
    obtain ⟨⟨_, id⟩, hsave, rfl⟩ := map_eq_ok.1 h
    exact hnone (newlyPosted_of_entries_eq (saveDocument_frame hsave).1)
  | saveJournal env p =>
    obtain ⟨⟨_, id⟩, hsave, rfl⟩ := map_eq_ok.1 h
    exact hnone (saveJournal_newlyPosted hsave)
  | postDocument env id => exact postDocument_postsToPostable h
  | postJournal env id => exact postJournal_postsToPostable h

theorem accountingStep_postsToPostable {db : Db} {a : AccountingAction} (h : a.NamesPostable db) :
    PostsToPostable db (accountingStep db a) := by
  unfold accountingStep
  cases hreq : a.request db with
  | error e => simp [orKeep, PostsToPostable, newlyPosted_of_entries_eq]
  | ok db' => exact (AccountingAction.postsToPostable_iff hreq).2 h

theorem meets_postsToPostable {db : Db} {as : List AccountingAction}
    (h : Meets accountingStep (fun db a => a.NamesPostable db) db as) :
    Meets accountingStep (fun db a => PostsToPostable db (accountingStep db a)) db as :=
  meets_of_invariant (fun _ => True) (fun _ _ _ _ => trivial) (fun _ _ _ h => accountingStep_postsToPostable h) trivial h

/-- **The accounts of posted entries, over a run.** An accepted request posts to postable accounts only
exactly when the draft it posts names postable accounts; so does every posting of a run whose drafts do. -/
theorem posted_accounts (db : Db) (as : List AccountingAction) :
    (∀ (a : AccountingAction) db', a.request db = .ok db' → (PostsToPostable db db' ↔ a.NamesPostable db)) ∧
      (Meets accountingStep (fun db a => a.NamesPostable db) db as →
        Meets accountingStep (fun db a => PostsToPostable db (accountingStep db a)) db as) :=
  ⟨fun _ _ h => AccountingAction.postsToPostable_iff h, meets_postsToPostable⟩

/-- An invoice whose line names account 4020. -/
def namedInvoice : DocumentPayload :=
  .ofLines .customerInvoice [{ LinePayload.priced 1 100 with accountCode := .value "4020" }]

/-- A journal on accounts 1020 and 4020 and the invoice are saved, account 1020 is deactivated, both
drafts are posted. -/
def postedAfterEdit : List AccountingAction :=
  [.saveJournal january cashSale, .saveDocument january namedInvoice,
    .updateAccount 2 { AccountPayload.empty with status := .value "inactive" },
    .postDocument january 1, .postJournal january 1]

/-- The same with account 4020 made a header. -/
def postedToHeader : List AccountingAction :=
  [.saveDocument january namedInvoice, .updateAccount 6 { AccountPayload.empty with postable := .value false },
    .postDocument january 1]

/-- Neither posting looks at the account of the line again. -/
theorem postings_to_closed_accounts :
    ¬ (∀ (db : Db) (as : List AccountingAction),
      Meets accountingStep (fun db a => PostsToPostable db (accountingStep db a)) db as) ∧
    ¬ Meets accountingStep (fun db a => PostsToPostable db (accountingStep db a)) (Db.fresh usd) postedToHeader :=
  ⟨fun h => absurd (h (Db.fresh usd) postedAfterEdit) (by decide +kernel), by decide +kernel⟩

/-- The invoice, posted after the cash account was deactivated. -/
theorem posted_accounts_invoice :
    Meets accountingStep (fun db a => PostsToPostable db (accountingStep db a)) (Db.fresh usd) (postedAfterEdit.take 4) :=
  (posted_accounts (Db.fresh usd) (postedAfterEdit.take 4)).2 (by decide +kernel)

/-! ## Account edits -/

theorem Db.Postable.congr {db db' : Db} {id : ℕ} (h : db.Postable id) (haccounts : db'.accounts = db.accounts) :
    db'.Postable id := by
  unfold Db.Postable
  rwa [haccounts]

theorem postable_of_insert {db : Db} {id : ℕ} {row : ChartOfAccount} (h : db.Postable id) :
    Db.Postable { db with accounts := db.accounts.insert row } id := by
  obtain ⟨account, haccount, hopen⟩ := h
  exact ⟨account, Table.get?_insert_of_some haccount, hopen⟩

/-- An account that is postable stays so, but for an edit of this account. -/
theorem postable_of_modify {db : Db} {id i : ℕ} {f : ChartOfAccount → ChartOfAccount} (h : db.Postable id)
    (hedit : id = i → ∀ account ∈ db.accounts.get? i, (f account).isPostable = true ∧ (f account).active = true) :
    Db.Postable { db with accounts := db.accounts.modify i f } id := by
  obtain ⟨account, haccount, hopen⟩ := h
  by_cases hid : id = i
  · subst hid
    exact ⟨f account, by rw [Option.mem_def, Table.get?_modify_self, haccount]; rfl, hedit rfl account haccount⟩
  · exact ⟨account, by rw [Option.mem_def, Table.get?_modify_of_ne _ hid]; exact haccount, hopen⟩

/-- The drafts stay postable where their accounts do and a new draft has been validated. -/
theorem DraftsPostable.of_step {db db' : Db} (h : DraftsPostable db)
    (haccounts : ∀ id ∈ draftAccounts db, db.Postable id → db'.Postable id)
    (hdocuments : ∀ i d, db'.documents.get? i = some d → d.status = .draft →
      db.documents.get? i = some d ∨ ∀ line ∈ d.lines, ∀ id ∈ line.accountId, db'.Postable id)
    (hentries : ∀ i e, db'.entries.get? i = some e → e.status = .draft →
      db.entries.get? i = some e ∨ ∀ l ∈ e.lines, db'.Postable l.accountId) : DraftsPostable db' := by
  have hold : ∀ id ∈ draftAccounts db, db'.Postable id := fun id hid => haccounts id hid (h id hid)
  refine draftsPostable_iff.2 ⟨fun i d hd hs line hline id hid => ?_, fun i e he hs l hl => ?_⟩
  · rcases hdocuments i d hd hs with hsame | hnew
    · exact hold id (mem_draftAccounts.2 (.inl ⟨i, d, hsame, hs, line, hline, hid⟩))
    · exact hnew line hline id hid
  · rcases hentries i e he hs with hsame | hnew
    · exact hold _ (mem_draftAccounts.2 (.inr ⟨i, e, hsame, hs, l, hl, rfl⟩))
    · exact hnew l hl

theorem request_draftsPostable {db db' : Db} {a : AccountingAction} (h : DraftsPostable db) (hkeeps : a.KeepsDrafts db)
    (hreq : a.request db = .ok db') : DraftsPostable db' := by
  cases a with
  | createAccount p =>
    obtain rfl := createAccount_spec hreq
    exact h.of_step (fun _ _ => postable_of_insert) (fun _ _ hd _ => .inl hd) (fun _ _ he _ => .inl he)
  | updateAccount id p =>
    obtain rfl := updateAccount_spec hreq
    refine h.of_step (fun i hi hpostable => postable_of_modify hpostable ?_) (fun _ _ hd _ => .inl hd)
      (fun _ _ he _ => .inl he)
    rintro rfl
    exact hkeeps hi
  | setPostingRules rules =>
    cases hreq
    exact h.of_step (fun _ _ hpostable => hpostable) (fun _ _ hd _ => .inl hd) (fun _ _ he _ => .inl he)
  | saveDocument env p =>
    obtain ⟨⟨db₁, id⟩, hsave, rfl⟩ := map_eq_ok.1 hreq
    obtain ⟨hentries, haccounts⟩ := saveDocument_frame hsave
    obtain ⟨s, header, hsaved⟩ := saveDocument_spec hsave
    refine h.of_step (fun _ _ hi => hi.congr haccounts) (fun i d hd _ => ?_)
      (fun i e he _ => .inl (by rwa [hentries] at he))
    by_cases hid : i = id
    · subst hid
      rw [saveDocument_get? hsaved] at hd
      cases hd
      exact .inr fun line hline j hj => (documentTotals_postable s.totals_ok line hline j hj).congr haccounts
    · rw [saveDocument_get?_of_ne hsaved hid] at hd
      exact .inl hd
  | saveJournal env p =>
    obtain ⟨⟨_, id⟩, hsave, rfl⟩ := map_eq_ok.1 hreq
    obtain ⟨⟨e, he, -, hlines⟩, haccounts, hdocuments, hother⟩ := saveJournal_spec hsave
    refine h.of_step (fun _ _ hi => hi.congr haccounts) (fun i d hd _ => .inl (by rwa [hdocuments] at hd))
      (fun i x hx _ => ?_)
    by_cases hid : i = id
    · subst hid
      rw [he] at hx
      cases hx
      exact .inr fun l hl => (hlines l hl).congr haccounts
    · rw [hother i hid] at hx
      exact .inl hx
  | postDocument env id =>
    obtain ⟨d, hd, ⟨-, rfl⟩ | ⟨-, w, rfl, -⟩⟩ := postDocument_spec hreq
    · exact h
    · refine h.of_step (fun _ _ hpostable => hpostable) (fun i x hx hs => ?_) (fun i e he hs => ?_)
      · by_cases hid : i = id
        · subst hid
          rw [PostingWrite.after, Table.get?_modify_self, hd] at hx
          cases hx
          exact DocStatus.noConfusion hs
        · rw [PostingWrite.after, Table.get?_modify_of_ne _ hid] at hx
          exact .inl hx
      · rw [PostingWrite.after, Table.get?_insert] at he
        split at he
        · cases he
          exact EntryStatus.noConfusion hs
        · exact .inl he
  | postJournal env id =>
    simp only [AccountingAction.request, postJournal, postJournalBody, bind_eq_ok, require_eq_ok] at hreq
    obtain ⟨db₁, ⟨e, he, hbody⟩, hcommit⟩ := hreq
    obtain ⟨rfl, -⟩ := commit_spec hcommit
    split at hbody
    · cases hbody
      exact h
    · simp only [bind_eq_ok] at hbody
      obtain ⟨_, -, hflush⟩ := hbody
      obtain ⟨debitTotal, creditTotal, -, -, rfl⟩ := flushPosting_spec hflush
      refine h.of_step (fun _ _ hpostable => hpostable) (fun _ _ hd _ => .inl hd) (fun i x hx hs => ?_)
      by_cases hid : i = id
      · subst hid
        rw [Table.get?_modify_self, he] at hx
        cases hx
        exact EntryStatus.noConfusion hs
      · rw [Table.get?_modify_of_ne _ hid] at hx
        exact .inl hx

theorem accountingStep_draftsPostable {db : Db} {a : AccountingAction} (h : DraftsPostable db)
    (hkeeps : a.KeepsDrafts db) : DraftsPostable (accountingStep db a) := by
  unfold accountingStep
  cases hreq : a.request db with
  | error e => exact h
  | ok db' => exact request_draftsPostable h hkeeps hreq

/-- The lines of a postable draft name postable accounts. -/
theorem DraftsPostable.namesPostable {db : Db} (h : DraftsPostable db) (a : AccountingAction) : a.NamesPostable db := by
  obtain ⟨hdocuments, hentries⟩ := draftsPostable_iff.1 h
  cases a with
  | createAccount | updateAccount | setPostingRules | saveDocument | saveJournal => trivial
  | postDocument env id =>
    intro d hd hs i hi
    unfold Document.ownAccounts at hi
    split at hi
    · unfold ownAccounts at hi
      split at hi
      · obtain ⟨line, hline, hi⟩ := List.mem_filterMap.1 hi
        split at hi
        · obtain ⟨stored, hstored, rfl⟩ := List.mem_map.1 hline
          exact hdocuments id d hd hs stored hstored i hi
        · cases hi
      · cases hi
    · cases hi
  | postJournal env id => exact fun e he hs => hentries id e he hs

/-- **Account edits that do no harm.** From a state whose drafts name postable accounts, a run in which no
edit closes an account that a draft names posts to postable accounts only. -/
theorem draftsPostable_run {db : Db} {as : List AccountingAction} (h : DraftsPostable db)
    (hm : Meets accountingStep (fun db a => a.KeepsDrafts db) db as) :
    DraftsPostable (run accountingStep db as) ∧
      Meets accountingStep (fun db a => PostsToPostable db (accountingStep db a)) db as :=
  ⟨run_invariant_of_meets DraftsPostable (fun _ _ => accountingStep_draftsPostable) h hm,
    meets_postsToPostable (meets_of_invariant DraftsPostable (fun _ _ => accountingStep_draftsPostable)
      (fun _ a hs _ => hs.namesPostable a) h hm)⟩

theorem draftsPostable_run_invoice :
    Meets accountingStep (fun db a => PostsToPostable db (accountingStep db a)) (Db.fresh usd)
      [.saveDocument january namedInvoice,
        .updateAccount 2 { AccountPayload.empty with status := .value "inactive" }, .postDocument january 1] :=
  (draftsPostable_run (fun _ hid => by cases hid) (by decide +kernel)).2

end LcsSystem
