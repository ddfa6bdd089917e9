import LcsSystem.Finance.PostingRules

/-!
# The chart of accounts

`create_account` and `update_account` (`src/backend/app/modules/finance/service.py:172-216`); a direct
status change is an update that sends the status alone. An account can be deactivated or made a header
at any time. The name, the type and the normal balance of an account are checked and left out of the
row.
-/

namespace LcsSystem
open Relational Checks

structure AccountPayload where
  accountCode : Field String
  accountName : Field String
  accountType : Field String
  normalBalance : Field String
  parentCode : Field String
  postable : Field Bool
  status : Field String

/-- A body `{}`. -/
def AccountPayload.empty : AccountPayload where
  accountCode := .absent
  accountName := .absent
  accountType := .absent
  normalBalance := .absent
  parentCode := .absent
  postable := .absent
  status := .absent

/-- `[A-Za-z0-9][A-Za-z0-9._-]*`. -/
def isAccountCode (code : String) : Bool :=
  match code.toList with
  | [] => false
  | c :: cs => c.isAlphanum && cs.all fun c => c.isAlphanum || c == '.' || c == '_' || c == '-'

/-- The length of the code, then its pattern. -/
def checkAccountCode (f : Field String) : List FieldErrorItem :=
  match TextSpec.check { key := "accountCode", minLength := some 1, maxLength := some 32 } f with
  | [] =>
    match f.text.get? with
    | some code =>
      if isAccountCode code then [] else [⟨"accountCode", "INVALID_FORMAT", "Enter a value in the expected format."⟩]
    | none => []
  | items => items

def checkBoolean (key : String) : Field Bool → List FieldErrorItem
  | .malformed => [⟨key, "INVALID_TYPE", "Choose Yes or No."⟩]
  | _ => []

/-- Under `partial`, a required field may be absent. -/
def checkRequiredUnless {α : Type} (omitted : Bool) (key : String) (items : Field α → List FieldErrorItem) :
    Field α → List FieldErrorItem
  | .absent => if omitted then [] else checkRequired key items .absent
  | f => checkRequired key items f

/-- `ACCOUNT_SCHEMA`; `omitted` is the `partial` of an update. -/
def accountSchema (omitted : Bool) (p : AccountPayload) : List FieldErrorItem :=
  checkRequiredUnless omitted "accountCode" checkAccountCode p.accountCode.text ++
  checkRequiredUnless omitted "accountName"
    (TextSpec.check { key := "accountName", minLength := some 1, maxLength := some 255 }) p.accountName.text ++
  TextSpec.checkChoice { key := "accountType", maxLength := some 20 }
    ["ASSET", "LIABILITY", "EQUITY", "REVENUE", "EXPENSE"] p.accountType ++
  TextSpec.checkChoice { key := "normalBalance", maxLength := some 10 } ["DEBIT", "CREDIT"] p.normalBalance ++
  TextSpec.check { key := "parentCode", maxLength := some 32 } p.parentCode ++
  checkBoolean "postable" p.postable ++
  TextSpec.checkChoice { key := "status", maxLength := some 20 } ["ACTIVE", "INACTIVE"] p.status

/-- `_commit_unique`, on `uq_coa_code`. -/
def checkAccountUnique (db : Db) (code : String) (excludeId : Option ℕ) : Result PUnit :=
  check (∀ r ∈ db.accounts.rows, some r.1 ≠ excludeId → r.2.accountCode ≠ code) (.conflict "DUPLICATE_ACCOUNT_CODE"
    "This account code is already in use." [("accountCode", "This account code is already in use.")])

/-- The postable flag of a body: a blank one is `bool(None)`. -/
def AccountPayload.postableOr (p : AccountPayload) (absent : Bool) : Bool :=
  match p.postable with
  | .absent => absent
  | .value b => b
  | .blank | .malformed => false

/-- A new account: a blank status is ACTIVE. -/
def AccountPayload.newRow (p : AccountPayload) : ChartOfAccount where
  accountCode := p.accountCode.text.get?.getD ""
  isPostable := p.postableOr true
  active := upper (p.status.text.get?.getD "ACTIVE") == "ACTIVE"

/-- A stored account after an update: a blank status is `str(None)`, which is not ACTIVE. -/
def AccountPayload.apply (p : AccountPayload) (a : ChartOfAccount) : ChartOfAccount where
  accountCode := p.accountCode.text.get?.getD a.accountCode
  isPostable := p.postableOr a.isPostable
  active := match p.status with
    | .absent => a.active
    | status => upper (status.text.get?.getD "None") == "ACTIVE"

def createAccount (db : Db) (p : AccountPayload) : Result Db := do
  RecordSchema.validate (accountSchema false p)
  checkAccountUnique db p.newRow.accountCode none
  return { db with accounts := db.accounts.insert p.newRow }

def updateAccount (db : Db) (accountId : ℕ) (p : AccountPayload) : Result Db := do
  let account ← require (db.accounts.get? accountId) (.notFound "Account not found.")
  RecordSchema.validate (accountSchema true p)
  checkAccountUnique db (p.apply account).accountCode (some accountId)
  return { db with accounts := db.accounts.modify accountId p.apply }

/-! ## What an edit leaves of an account -/

theorem createAccount_spec {db db' : Db} {p : AccountPayload} (h : createAccount db p = .ok db') :
    db' = { db with accounts := db.accounts.insert p.newRow } := by
  simp only [createAccount, bind_eq_ok, pure_eq_ok] at h
  obtain ⟨_, -, _, -, rfl⟩ := h
  rfl

theorem updateAccount_spec {db db' : Db} {accountId : ℕ} {p : AccountPayload}
    (h : updateAccount db accountId p = .ok db') :
    db' = { db with accounts := db.accounts.modify accountId p.apply } := by
  simp only [updateAccount, bind_eq_ok, pure_eq_ok] at h
  obtain ⟨_, -, _, -, _, -, rfl⟩ := h
  rfl

end LcsSystem
