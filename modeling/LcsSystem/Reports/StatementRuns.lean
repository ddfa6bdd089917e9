import LcsSystem.Finance.Accounts
import LcsSystem.Lib.Transition
import LcsSystem.Reports.Statements

/-!
# Account edits and the statements

`create_account` and `update_account` (`src/backend/app/modules/finance/service.py:172-216`) with all columns the reports
read; `createAccount` and `updateAccount` are the same writes on the columns that posting reads (`newAccount_row`,
`editAccount_row`).

An update takes a blank account type for `None` and stores the text of that, so the account leaves every section:
`statements_tie_iff` says that this is the only way the statements stop tying out.
-/

namespace LcsSystem
open Relational Checks Grouping Transition

abbrev Chart := Table LedgerAccount

/-! ## The writes -/

/-- `str(values[key])` of a key that was sent: a blank one was normalised to `None`. -/
def sentText (f : Field String) (stored : String) : String :=
  match f with
  | .absent => stored
  | f => f.text.get?.getD "None"

/-- The row of `create_account`. -/
def newAccount (p : AccountPayload) : LedgerAccount where
  accountCode := p.accountCode.text.get?.getD ""
  accountName := p.accountName.text.get?.getD ""
  accountType := upper (p.accountType.text.get?.getD "ASSET")
  normalBalance := upper (p.normalBalance.text.get?.getD "DEBIT")
  isPostable := p.postableOr true
  status := upper (p.status.text.get?.getD "ACTIVE")

/-- The assignments of `update_account`. -/
def editAccount (p : AccountPayload) (a : LedgerAccount) : LedgerAccount where
  accountCode := p.accountCode.text.get?.getD a.accountCode
  accountName := p.accountName.text.get?.getD a.accountName
  accountType := if p.accountType.sent then upper (sentText p.accountType a.accountType) else a.accountType
  normalBalance := if p.normalBalance.sent then upper (sentText p.normalBalance a.normalBalance) else a.normalBalance
  isPostable := p.postableOr a.isPostable
  status := if p.status.sent then upper (sentText p.status a.status) else a.status

/-- `uq_coa_code`, for the row with this key. -/
def checkCodeUnique (chart : Chart) (code : String) (excludeId : Option ℕ) : Result PUnit :=
  check (∀ r ∈ chart.rows, some r.1 ≠ excludeId → r.2.accountCode ≠ code) (.conflict "DUPLICATE_ACCOUNT_CODE"
    "This account code is already in use." [("accountCode", "This account code is already in use.")])

inductive AccountCall
  | create (body : AccountPayload)
  | update (id : ℕ) (body : AccountPayload)

namespace AccountCall

def perform (chart : Chart) : AccountCall → Result Chart
  | create body => do
    RecordSchema.validate (accountSchema false body)
    checkCodeUnique chart (newAccount body).accountCode none
    return chart.insert (newAccount body)
  | update id body => do
    let account ← require (chart.get? id) (.notFound "Account not found.")
    RecordSchema.validate (accountSchema true body)
    checkCodeUnique chart (editAccount body account).accountCode (some id)
    return chart.modify id (editAccount body)

/-- A refused call leaves the chart alone. -/
def step (chart : Chart) (call : AccountCall) : Chart :=
  match call.perform chart with
  | .ok chart' => chart'
  | .error _ => chart

end AccountCall

/-! ## The columns that posting reads -/

def LedgerAccount.row (a : LedgerAccount) : ChartOfAccount := ⟨a.accountCode, a.isPostable, a.status == "ACTIVE"⟩

theorem newAccount_row (body : AccountPayload) : (newAccount body).row = body.newRow := rfl

theorem editAccount_row (body : AccountPayload) (a : LedgerAccount) : (editAccount body a).row = body.apply a.row := by
  cases hstatus : body.status <;>
    simp [LedgerAccount.row, editAccount, AccountPayload.apply, hstatus, Field.sent, sentText]

/-! ## Account types -/

section
variable {chart chart' : Chart} {id : ℕ} {body : AccountPayload}

/-- An accepted account type is left out, blank, or one of the five in any case. -/
theorem accountType_of_schema {omitted : Bool} (h : accountSchema omitted body = []) :
    body.accountType.text = .absent ∨ body.accountType.text = .blank ∨
      ∃ s, body.accountType.text = .value s ∧ upper s ∈ accountTypes := by
  have hchoice : TextSpec.checkChoice { key := "accountType", maxLength := some 20 } accountTypes body.accountType = [] := by
    simp only [accountSchema, List.append_eq_nil_iff] at h
    exact h.1.1.1.1.2
  unfold TextSpec.checkChoice at hchoice
  split at hchoice
  · next hitems =>
    cases htext : body.accountType.text with
    | absent => exact .inl rfl
    | blank => exact .inr (.inl rfl)
    | malformed => simp [TextSpec.check, htext] at hitems
    | value s =>
      rw [htext] at hchoice
      exact .inr (.inr ⟨s, rfl, by simpa [Field.get?] using hchoice⟩)
  · next hitems => exact absurd hchoice hitems

theorem create_eq_ok (h : (AccountCall.create body).perform chart = .ok chart') :
    accountSchema false body = [] ∧ chart' = chart.insert (newAccount body) := by
  simp only [AccountCall.perform, RecordSchema.validate, bind_eq_ok, check_eq_ok, pure_eq_ok] at h
  obtain ⟨_, hschema, _, -, rfl⟩ := h
  exact ⟨hschema, rfl⟩

theorem update_eq_ok (h : (AccountCall.update id body).perform chart = .ok chart') :
    (∃ account, chart.get? id = some account) ∧ accountSchema true body = [] ∧
      chart' = chart.modify id (editAccount body) := by
  simp only [AccountCall.perform, RecordSchema.validate, bind_eq_ok, require_eq_ok, check_eq_ok, pure_eq_ok] at h
  obtain ⟨account, haccount, _, hschema, _, -, rfl⟩ := h
  exact ⟨⟨account, haccount⟩, hschema, rfl⟩

/-- The update, when it is accepted, does not send a blank account type. -/
def GivesType (chart : Chart) : AccountCall → Prop
  | .update id body => ((AccountCall.update id body).perform chart).isOk = true → body.accountType.text ≠ .blank
  | .create _ => True

theorem newAccount_type (hschema : accountSchema false body = []) : (newAccount body).accountType ∈ accountTypes := by
  have hdefault : upper "ASSET" ∈ accountTypes := by decide
  unfold newAccount
  rcases accountType_of_schema hschema with h | h | ⟨s, h, hs⟩
  · rw [h]
    exact hdefault
  · rw [h]
    exact hdefault
  · rw [h]
    exact hs

theorem sent_of_text {f : Field String} {g : Field String} (h : f.text = g) : f.sent = g.sent := by
  subst h
  cases f with
  | value s =>
    simp only [Field.text]
    split <;> rfl
  | _ => rfl

/-- **An edited account keeps a known type** unless the update sends a blank one. -/
theorem editAccount_type {a : LedgerAccount} (ha : a.accountType ∈ accountTypes) (hschema : accountSchema true body = []) :
    (editAccount body a).accountType ∈ accountTypes ↔ body.accountType.text ≠ .blank := by
  have hstored : body.accountType.sent = true →
      sentText body.accountType a.accountType = body.accountType.text.get?.getD "None" := by
    intro hsent
    cases h : body.accountType with
    | absent => rw [h] at hsent; cases hsent
    | _ => rfl
  unfold editAccount
  rcases accountType_of_schema hschema with h | h | ⟨s, h, hs⟩
  · have hsent : body.accountType.sent = false := sent_of_text h
    simpa [h, hsent] using ha
  · have hsent : body.accountType.sent = true := sent_of_text h
    simp only [hsent, if_true, hstored hsent, h, ne_eq, not_true_eq_false, iff_false]
    decide
  · have hsent : body.accountType.sent = true := sent_of_text h
    simpa [hsent, hstored hsent, h, Field.get?] using hs

/-- Every account of the chart has a known type, and the statements of every ledger over it tie out. -/
def TiesOut (chart : Chart) : Prop :=
  TypesKnown chart ∧ ∀ db : ReportDb, db.accounts = chart → db.EntriesBalance → StatementsTie db

theorem tiesOut_iff : TiesOut chart ↔ TypesKnown chart :=
  ⟨And.left, fun h => ⟨h, fun _ hdb hbalance => statementsTie (hdb ▸ h) hbalance⟩⟩

theorem typesKnown_create (hknown : TypesKnown chart) (body : AccountPayload) :
    TypesKnown (AccountCall.step chart (.create body)) := by
  unfold AccountCall.step
  cases h : (AccountCall.create body).perform chart with
  | error e => exact hknown
  | ok chart' =>
    obtain ⟨hschema, rfl⟩ := create_eq_ok h
    exact Table.forall_insert hknown (newAccount_type hschema)

theorem typesKnown_update (hknown : TypesKnown chart) (id : ℕ) (body : AccountPayload) :
    TypesKnown (AccountCall.step chart (.update id body)) ↔ GivesType chart (.update id body) := by
  unfold AccountCall.step GivesType
  cases h : (AccountCall.update id body).perform chart with
  | error e => exact ⟨fun _ hok => (by rw [h] at hok; cases hok), fun _ => hknown⟩
  | ok chart' =>
    obtain ⟨⟨account, haccount⟩, hschema, rfl⟩ := update_eq_ok h
    have htype := editAccount_type (hknown id account haccount) hschema
    constructor
    · intro hstep _
      exact htype.1 (hstep id _ (by rw [Table.get?_modify_self, haccount]; rfl))
    · intro hgives
      exact Table.forall_modify haccount hknown (htype.2 (hgives (by rw [h]; rfl)))

theorem typesKnown_step (hknown : TypesKnown chart) (call : AccountCall) :
    TypesKnown (AccountCall.step chart call) ↔ GivesType chart call := by
  cases call with
  | create body => exact ⟨fun _ => trivial, fun _ => typesKnown_create hknown body⟩
  | update id body => exact typesKnown_update hknown id body

end

end LcsSystem
