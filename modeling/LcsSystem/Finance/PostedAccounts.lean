import LcsSystem.Finance.JournalGuards
import LcsSystem.Finance.RuleResolution

/-!
# The accounts an entry is posted to

An account of a posting rule and a default account are validated when they are resolved, in the posting
itself. The account a document line names and the account of a journal line are validated when the draft
is saved and are not looked at again. `built_postable_iff` separates the two for a document, and
`postDocument_postsToPostable` and `postJournal_postsToPostable` say when one posting goes to postable
accounts only.
-/

namespace LcsSystem
open Relational Checks Transition

/-- The account is there, a leaf account and ACTIVE. -/
def Db.Postable (db : Db) (accountId : ℕ) : Prop :=
  ∃ account ∈ db.accounts.get? accountId, account.isPostable = true ∧ account.active = true

instance (db : Db) (accountId : ℕ) : Decidable (db.Postable accountId) := inferInstanceAs (Decidable (∃ a ∈ _, _))

/-! ## The accounts of a resolution -/

section
variable {db : Db}

theorem accountById_eq_some {id : ℕ} {a : Account} :
    accountById db id = some a ↔ a.id = id ∧ db.accounts.get? id = some a.row := by
  simp only [accountById, Option.map_eq_some_iff]
  constructor
  · rintro ⟨row, hrow, rfl⟩
    exact ⟨rfl, hrow⟩
  · rintro ⟨rfl, hrow⟩
    exact ⟨a.row, hrow, rfl⟩

theorem get?_of_accountByCode {code : String} {a : Account} (h : accountByCode db code = some a) :
    db.accounts.get? a.id = some a.row := by
  obtain ⟨r, hr, rfl⟩ := Option.map_eq_some_iff.1 h
  exact Table.get?_eq_some.2 (List.mem_of_find?_eq_some hr)

theorem get?_of_resolveAccountRef {reference : String} {a : Account} (h : resolveAccountRef db reference = some a) :
    db.accounts.get? a.id = some a.row := by
  unfold resolveAccountRef at h
  split at h
  · next b hcode =>
    cases h
    exact get?_of_accountByCode hcode
  · obtain ⟨id, -, hid⟩ := Option.bind_eq_some_iff.1 h
    obtain ⟨rfl, hrow⟩ := accountById_eq_some.1 hid
    exact hrow

/-- What `validatePostable` lets through is postable, when it was read from the chart. -/
theorem postable_of_validated {account : Option Account} {label : String} {field : Option String} {a : Account}
    (h : validatePostable account label field = .ok a)
    (hread : ∀ b, account = some b → db.accounts.get? b.id = some b.row) : db.Postable a.id := by
  obtain ⟨haccount, hpostable, hactive⟩ := validatePostable_eq_ok.1 h
  exact ⟨a.row, hread a haccount, hpostable, hactive⟩

theorem postable_of_validatedId {id : ℕ} {label : String} {field : Option String} {a : Account}
    (h : validatePostable (accountById db id) label field = .ok a) : db.Postable a.id :=
  postable_of_validated h fun b hb => by
    obtain ⟨rfl, hrow⟩ := accountById_eq_some.1 hb
    exact hrow

/-- Every account of a resolution is postable, by rule and by default alike. -/
theorem resolve_postable {documentType : DocType} {feeTypeId : Option ℕ} {labelDebit labelCredit : String}
    {resolved : PostingRuleAccounts} (h : resolve db documentType feeTypeId labelDebit labelCredit = .ok resolved) :
    db.Postable resolved.debit.id ∧ db.Postable resolved.credit.id ∧ ∀ a ∈ resolved.tax, db.Postable a.id := by
  rw [resolve_eq] at h
  simp only [bind_eq_ok] at h
  obtain ⟨choice, -, h⟩ := h
  cases choice with
  | none =>
    simp only [accountsOf, legacyAccounts, bind_eq_ok, pure_eq_ok] at h
    obtain ⟨debit, hdebit, credit, hcredit, rfl⟩ := h
    exact ⟨postable_of_validated hdebit fun _ => get?_of_accountByCode,
      postable_of_validated hcredit fun _ => get?_of_accountByCode, by simp⟩
  | some rule =>
    simp only [accountsOf, bind_eq_ok] at h
    obtain ⟨debit, hdebit, credit, hcredit, h⟩ := h
    split at h
    · simp only [bind_eq_ok, map_eq_ok, pure_eq_ok] at h
      obtain ⟨_, ⟨tax, htax, rfl⟩, rfl⟩ := h
      exact ⟨postable_of_validatedId hdebit, postable_of_validatedId hcredit, fun a ha => by
        cases ha
        exact postable_of_validatedId htax⟩
    · cases h
      exact ⟨postable_of_validatedId hdebit, postable_of_validatedId hcredit, by simp⟩

/-! ## The accounts of a draft -/

/-- The accounts named on the lines that are posted to an account of their own. -/
def ownAccounts (documentType : DocType) (splits : Bool) (lines : List DocumentLineInput) : List ℕ :=
  if (strategyFor documentType).detailed then
    lines.filterMap fun line => if 0 < line.restPart splits then line.accountId else none
  else []

/-- Where the line is posted to an account of its own and names one, it is postable. -/
def LinePostable (db : Db) (splits : Bool) (line : DocumentLineInput) : Prop :=
  0 < line.restPart splits → ∀ id ∈ line.accountId, db.Postable id

theorem forall_draftLine {account : Account} {amount : ℚ} {debit : Bool} {description : String} :
    (∀ l ∈ draftLine account amount debit description, db.Postable l.account.id) ↔
      (0 < amount → db.Postable account.id) := by
  unfold draftLine
  split
  · next h => simp [not_lt.2 h]
  · next h => simp [not_le.1 h]

theorem detailAccount_postable {documentType : DocType} {line : DocumentLineInput} {a : Account}
    (h : detailAccount db documentType line = .ok a) : db.Postable a.id ↔ ∀ id ∈ line.accountId, db.Postable id := by
  unfold detailAccount at h
  cases haccount : line.accountId with
  | some id =>
    simp only [haccount, require_eq_ok] at h
    rw [(accountById_eq_some.1 h).1]
    simp
  | none =>
    simp only [haccount, bind_eq_ok, pure_eq_ok] at h
    obtain ⟨resolved, hresolved, rfl⟩ := h
    obtain ⟨hdebit, hcredit, -⟩ := resolve_postable hresolved
    split
    · simp [hcredit]
    · simp [hdebit]

variable {documentType : DocType} {tax : Option Account} {description : String}

theorem forall_taxLines (htax : ∀ a ∈ tax, db.Postable a.id) (debit : Bool) (line : DocumentLineInput) :
    ∀ l ∈ taxLines tax debit description line, db.Postable l.account.id := by
  cases tax with
  | none => simp [taxLines]
  | some a => exact forall_draftLine.2 fun _ => htax a rfl

theorem detailOf_postable {line : DocumentLineInput} {drafts : List DraftLine} {resolved : Bool}
    (htax : ∀ a ∈ tax, db.Postable a.id)
    (h : detailOf db documentType tax description line = .ok (drafts, resolved)) :
    (∀ l ∈ drafts, db.Postable l.account.id) ↔ LinePostable db tax.isSome line := by
  by_cases hrest : line.restPart tax.isSome ≤ 0
  · simp only [detailOf, hrest, if_true] at h
    cases h
    simp only [LinePostable, not_lt.2 hrest, false_implies, iff_true]
    exact forall_taxLines htax _ line
  · simp only [detailOf, hrest, if_false, bind_eq_ok, pure_eq_ok] at h
    obtain ⟨account, haccount, h⟩ := h
    cases h
    rw [List.forall_mem_append, forall_draftLine, detailAccount_postable haccount]
    exact and_iff_right (forall_taxLines htax _ line)

theorem detailLines_postable {lines : List DocumentLineInput} {drafts : List DraftLine} {resolvedAny : Bool}
    (htax : ∀ a ∈ tax, db.Postable a.id)
    (h : detailLines db documentType tax description lines = .ok (drafts, resolvedAny)) :
    (∀ l ∈ drafts, db.Postable l.account.id) ↔ ∀ line ∈ lines, LinePostable db tax.isSome line := by
  induction lines generalizing drafts resolvedAny with
  | nil =>
    cases h
    simp
  | cons line lines ih =>
    simp only [detailLines, bind_eq_ok, pure_eq_ok] at h
    obtain ⟨⟨first, resolved⟩, hfirst, ⟨rest, any⟩, hrest, h⟩ := h
    cases h
    rw [List.forall_mem_append, List.forall_mem_cons, detailOf_postable htax hfirst, ih hrest]

theorem forall_ownAccounts {splits : Bool} {lines : List DocumentLineInput}
    (h : (strategyFor documentType).detailed = true) :
    (∀ id ∈ ownAccounts documentType splits lines, db.Postable id) ↔ ∀ line ∈ lines, LinePostable db splits line := by
  simp only [ownAccounts, h, if_true, List.mem_filterMap, LinePostable]
  constructor
  · intro hall line hline hrest id hid
    exact hall id ⟨line, hline, by rw [if_pos hrest]; exact hid⟩
  · rintro hall id ⟨line, hline, hid⟩
    split at hid
    · next hrest => exact hall line hline hrest id hid
    · cases hid

/-- A draft goes to postable accounts exactly when the accounts named on its lines are. -/
theorem draftLines_postable {total : ℚ} {control : PostingRuleAccounts} {labelDebit labelCredit : String}
    {lines : List DocumentLineInput} {drafts : List DraftLine}
    (hcontrol : resolve db documentType none labelDebit labelCredit = .ok control)
    (h : draftLines db documentType total control description lines = .ok drafts) :
    (∀ l ∈ drafts, db.Postable l.account.id) ↔
      ∀ id ∈ ownAccounts documentType (splitsTax documentType control) lines, db.Postable id := by
  obtain ⟨hdebit, hcredit, htax⟩ := resolve_postable hcontrol
  cases hdetailed : (strategyFor documentType).detailed with
  | false =>
    simp only [draftLines, hdetailed, Bool.false_and, Bool.false_eq_true, if_false, Except.ok.injEq] at h
    subst h
    simp only [twoSided, List.forall_mem_append, forall_draftLine, ownAccounts, hdetailed]
    simp [hdebit, hcredit]
  | true =>
    rw [forall_ownAccounts hdetailed]
    cases lines with
    | nil =>
      simp only [draftLines, List.isEmpty_nil, Bool.not_true, Bool.and_false, Bool.false_eq_true, if_false,
        Except.ok.injEq] at h
      subst h
      simp only [twoSided, List.forall_mem_append, forall_draftLine]
      simp [hdebit, hcredit]
    | cons line lines =>
      simp only [draftLines, hdetailed, List.isEmpty_cons, Bool.not_false, Bool.and_self, if_true, addDetailed,
        bind_eq_ok, pure_eq_ok] at h
      obtain ⟨⟨ds, any⟩, hds, rfl⟩ := h
      have hsplit : ∀ a ∈ (if (strategyFor documentType).splitsTax then control.tax else none), db.Postable a.id := by
        intro a ha
        split at ha
        · exact htax a ha
        · cases ha
      have hlines := detailLines_postable hsplit hds
      rw [isSome_taxAccount] at hlines
      rw [List.forall_mem_append, List.forall_mem_append, hlines]
      constructor
      · rintro ⟨⟨-, hall⟩, -⟩
        exact hall
      · refine fun hall => ⟨⟨forall_draftLine.2 fun _ => ?_, hall⟩, ?_⟩
        · split
          · exact hdebit
          · exact hcredit
        · split
          · simp
          · exact forall_draftLine.2 fun _ => hcredit

end

/-! ## One posting -/

/-- The accounts that the lines of a document name and are posted to. -/
def Document.ownAccounts (db : Db) (d : Document) : List ℕ :=
  match resolve db d.documentType none "debit" "credit" with
  | .ok control => LcsSystem.ownAccounts d.documentType (splitsTax d.documentType control) (postingLines d)
  | .error _ => []

/-- **A built draft**: its accounts are postable, those named on document lines apart. -/
theorem built_postable_iff {db : Db} {d : Document} {draft : JournalDraft}
    (h : build db d.documentType d.amounts.total.val d.label (postingLines d) = .ok draft) :
    (∀ l ∈ draft.lines, db.Postable l.account.id) ↔ ∀ id ∈ d.ownAccounts db, db.Postable id := by
  simp only [build, bind_eq_ok, pure_eq_ok] at h
  obtain ⟨_, -, control, hcontrol, drafts, hdrafts, _, -, rfl⟩ := h
  simp only [Document.ownAccounts, hcontrol]
  exact draftLines_postable hcontrol hdrafts

/-- The entries that became POSTED go to accounts that are postable now. -/
def PostsToPostable (db db' : Db) : Prop := ∀ e ∈ newlyPosted db db', ∀ l ∈ e.lines, db'.Postable l.accountId

instance (db db' : Db) : Decidable (PostsToPostable db db') := inferInstanceAs (Decidable (∀ e ∈ _, _))

theorem newlyPosted_of_entries_eq {db db' : Db} (h : db'.entries = db.entries) : newlyPosted db db' = [] := by
  refine List.eq_nil_iff_forall_not_mem.2 fun e he => ?_
  obtain ⟨id, hid, hposted, hold⟩ := mem_newlyPosted.1 he
  rw [h] at hid
  exact hold e hid hposted

theorem forall_newlyPosted_insert {db db' : Db} {e : JournalEntry} {P : JournalEntry → Prop}
    (h : db'.entries = db.entries.insert e) (hposted : e.status = .posted) :
    (∀ x ∈ newlyPosted db db', P x) ↔ P e := by
  constructor
  · refine fun hall => hall e (mem_newlyPosted.2 ⟨db.entries.nextId, ?_, hposted, ?_⟩)
    · rw [h, Table.get?_insert_self]
    · simp
  · intro he x hx
    obtain ⟨id, hid, hxposted, hold⟩ := mem_newlyPosted.1 hx
    rw [h, Table.get?_insert] at hid
    split at hid
    · cases hid
      exact he
    · exact absurd hxposted (hold x hid)

theorem forall_newlyPosted_modify {db db' : Db} {id : ℕ} {e : JournalEntry} {f : JournalEntry → JournalEntry}
    {P : JournalEntry → Prop} (h : db'.entries = db.entries.modify id f) (he : db.entries.get? id = some e)
    (hdraft : e.status = .draft) (hposted : (f e).status = .posted) :
    (∀ x ∈ newlyPosted db db', P x) ↔ P (f e) := by
  constructor
  · refine fun hall => hall (f e) (mem_newlyPosted.2 ⟨id, ?_, hposted, fun o ho => ?_⟩)
    · rw [h, Table.get?_modify_self, he]
      rfl
    · rw [he, Option.some.injEq] at ho
      rw [← ho, hdraft]
      exact EntryStatus.noConfusion
  · intro hfe x hx
    obtain ⟨i, hi, hxposted, hold⟩ := mem_newlyPosted.1 hx
    rw [h] at hi
    by_cases hid : i = id
    · subst hid
      rw [Table.get?_modify_self, he] at hi
      cases hi
      exact hfe
    · rw [Table.get?_modify_of_ne _ hid] at hi
      exact absurd hxposted (hold x hi)

theorem forall_journalLines {documentId : ℕ} {d : Document} {ls : List DraftLine} {rows : List JournalEntryLine}
    {P : ℕ → Prop} (h : List.Forall₂ (JournalLineOf documentId d) ls rows) :
    (∀ row ∈ rows, P row.accountId) ↔ ∀ l ∈ ls, P l.account.id := by
  induction h with
  | nil => simp
  | cons hrow _ ih => rw [List.forall_mem_cons, List.forall_mem_cons, ih, hrow.account]

/-- A draft that is posted goes to postable accounts exactly when the accounts its lines name are. -/
theorem postDocument_postsToPostable {env : Env} {db db' : Db} {documentId : ℕ}
    (h : postDocument env db documentId = .ok db') : PostsToPostable db db' ↔
      ∀ d ∈ db.documents.get? documentId, d.status = .draft → ∀ id ∈ d.ownAccounts db, db.Postable id := by
  obtain ⟨d, hd, ⟨hposted, rfl⟩ | ⟨hdraft, w, rfl, -⟩⟩ := postDocument_spec h
  · simp [PostsToPostable, newlyPosted_of_entries_eq, hd, hposted]
  · rw [PostsToPostable, forall_newlyPosted_insert (e := w.entry) rfl rfl]
    simp only [hd, Option.mem_def, Option.some.injEq, forall_eq', hdraft, true_implies]
    rw [← built_postable_iff w.build_ok]
    exact forall_journalLines (journalLines_spec w.lines_ok)

theorem postJournal_postsToPostable {env : Env} {db db' : Db} {journalId : ℕ}
    (h : postJournal env db journalId = .ok db') : PostsToPostable db db' ↔
      ∀ e ∈ db.entries.get? journalId, e.status = .draft → ∀ l ∈ e.lines, db.Postable l.accountId := by
  simp only [postJournal, postJournalBody, bind_eq_ok, require_eq_ok] at h
  obtain ⟨db₁, ⟨e, he, hbody⟩, hcommit⟩ := h
  obtain ⟨rfl, -⟩ := commit_spec hcommit
  simp only [he, Option.mem_def, Option.some.injEq, forall_eq']
  cases hs : e.status with
  | posted =>
    simp only [hs, pure_eq_ok] at hbody
    subst hbody
    simp [PostsToPostable, newlyPosted_of_entries_eq]
  | draft =>
    simp only [hs, bind_eq_ok] at hbody
    obtain ⟨_, -, hflush⟩ := hbody
    obtain ⟨debitTotal, creditTotal, -, -, rfl⟩ := flushPosting_spec hflush
    rw [PostsToPostable, forall_newlyPosted_modify (f := postedRow env debitTotal creditTotal) rfl he hs rfl]
    simp only [true_implies]
    exact Iff.rfl

end LcsSystem
