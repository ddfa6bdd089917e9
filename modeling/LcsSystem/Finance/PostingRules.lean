import LcsSystem.Finance.Models

/-!
# Resolution of posting accounts

`src/backend/app/modules/finance/posting_rules.py`: for a document type and a fee type, which
accounts a journal touches. The exact rule wins over the document default, each tier by priority;
two rules that share the top priority of a tier are a conflict; an install without rules falls back
to the account codes of `DEFAULT_ACCOUNTS` (`modules/finance/service.py:83`).
-/

namespace LcsSystem
open Relational Checks

inductive RuleSource
  | exact
  | documentDefault
  | legacyDefault
  deriving DecidableEq, Repr

/-- An account row with its id. -/
structure Account where
  id : ℕ
  row : ChartOfAccount
  deriving DecidableEq

structure PostingRuleAccounts where
  debit : Account
  credit : Account
  tax : Option Account
  source : RuleSource
  ruleId : Option ℕ
  priority : Option ℤ
  deriving DecidableEq

/-- `field` is the form field that configures the account, when there is one. -/
def validatePostable (account : Option Account) (label : String) (field : Option String) : Result Account :=
  let fieldErrors (message : String) : List (String × String) := field.toList.map fun f => (f, message)
  match account with
  | none => .error (.invalid ("No " ++ label ++ " posting account could be resolved.")
      (fieldErrors ("Select an active, postable " ++ label ++ " account.")))
  | some a => do
    check (a.row.isPostable = true) (.invalid
      ("The " ++ label ++ " account " ++ a.row.accountCode ++ " is not postable.")
      (fieldErrors (a.row.accountCode ++ " is a header account and cannot receive postings.")))
    check (a.row.active = true) (.invalid
      ("The " ++ label ++ " account " ++ a.row.accountCode ++ " must be active.")
      (fieldErrors (a.row.accountCode ++ " is inactive.")))
    return a

/-- **`validatePostable`** lets exactly the active, postable accounts through. -/
theorem validatePostable_eq_ok {account : Option Account} {label : String} {field : Option String} {a : Account} :
    validatePostable account label field = .ok a ↔
      account = some a ∧ a.row.isPostable = true ∧ a.row.active = true := by
  cases account with
  | none => simp [validatePostable]
  | some b =>
    simp only [validatePostable, bind_eq_ok, check_eq_ok, pure_eq_ok, Option.some.injEq]
    constructor
    · rintro ⟨_, hp, _, ha, rfl⟩
      exact ⟨rfl, hp, ha⟩
    · rintro ⟨rfl, hp, ha⟩
      exact ⟨⟨⟩, hp, ⟨⟩, ha, rfl⟩

/-! ## The resolver -/

def accountById (db : Db) (id : ℕ) : Option Account := (db.accounts.get? id).map fun row => ⟨id, row⟩

def accountByCode (db : Db) (code : String) : Option Account :=
  (db.accounts.rows.find? fun r => r.2.accountCode == code).map fun r => ⟨r.1, r.2⟩

/-- `ORDER BY priority DESC, id`. -/
def ruleOrder (a b : ℕ × PostingRule) : Prop :=
  b.2.priority < a.2.priority ∨ (a.2.priority = b.2.priority ∧ a.1 ≤ b.1)

instance : DecidableRel ruleOrder := fun _ _ => inferInstanceAs (Decidable (_ ∨ _))

/-- `_tier`: the active rule of the scope with the highest priority, if it is the only one with it.
Two rows are read, so a tie is seen. -/
def tier (db : Db) (documentType : DocType) (feeTypeId : Option ℕ) : Result (Option (ℕ × PostingRule)) :=
  let rules := db.postingRules.rows.filter fun r =>
    r.2.documentType == documentType && r.2.feeTypeId == feeTypeId && r.2.active
  match (rules.insertionSort ruleOrder).take 2 with
  | [] => .ok none
  | top :: rest => do
    check (∀ r ∈ rest, r.2.priority ≠ top.2.priority) (.conflict "AMBIGUOUS_POSTING_RULE"
      ("More than one active posting rule with priority " ++ toString top.2.priority ++ " matches " ++
        documentType.code ++ ".")
      [(if feeTypeId.isSome then "feeTypeId" else "documentType", "Two active rules share the same priority.")])
    return some top

/-- `_select_rule`: the exact scope first, then the document default. -/
def selectRule (db : Db) (documentType : DocType) (feeTypeId : Option ℕ) : Result (Option (ℕ × PostingRule)) :=
  match feeTypeId with
  | none => tier db documentType none
  | some fee => do
    match ← tier db documentType (some fee) with
    | some rule => return some rule
    | none => tier db documentType none

/-- `DEFAULT_ACCOUNTS`: debit and credit account code. -/
def defaultAccounts : DocType → String × String
  | .customerInvoice => ("1100", "4010")
  | .supplierBill => ("5010", "2010")
  | .customerReceipt => ("1020", "1100")
  | .supplierPayment => ("2010", "1020")
  | .otherIncome => ("1020", "4020")
  | .otherExpense => ("5030", "1020")
  | .transfer => ("1020", "1010")
  | .adjustment => ("5030", "1020")
  | .creditNote => ("4010", "1100")
  | .supplierCreditNote => ("2010", "5010")

def legacyAccounts (db : Db) (documentType : DocType) (labelDebit labelCredit : String) :
    Result PostingRuleAccounts := do
  let codes := defaultAccounts documentType
  let debit ← validatePostable (accountByCode db codes.1) labelDebit none
  let credit ← validatePostable (accountByCode db codes.2) labelCredit none
  return ⟨debit, credit, none, .legacyDefault, none, none⟩

/-- The accounts of a document scope, each validated as postable. -/
def resolve (db : Db) (documentType : DocType) (feeTypeId : Option ℕ) (labelDebit labelCredit : String) :
    Result PostingRuleAccounts := do
  match ← selectRule db documentType feeTypeId with
  | none => legacyAccounts db documentType labelDebit labelCredit
  | some (ruleId, rule) =>
    let debit ← validatePostable (accountById db rule.debitAccountId) labelDebit none
    let credit ← validatePostable (accountById db rule.creditAccountId) labelCredit none
    let tax ← match rule.taxAccountId with
      | some id => some <$> validatePostable (accountById db id) "tax" none
      | none => pure none
    return ⟨debit, credit, tax, if rule.feeTypeId.isSome then .exact else .documentDefault, some ruleId,
      some rule.priority⟩

/-! ## A fresh installation -/

/-- An active, postable account for every code of `DEFAULT_ACCOUNTS`. -/
def defaultChart : Table ChartOfAccount :=
  ["1010", "1020", "1100", "2010", "4010", "4020", "5010", "5030"].foldl (fun t code => t.insert ⟨code, true, true⟩)
    .empty

/-- The default chart, and nothing else. -/
def Db.fresh (defaultCurrency : CurrencyCode) : Db where
  defaultCurrency := defaultCurrency
  currencies := []
  currencyRates := .empty
  documentTypes := .empty
  feeTypes := .empty
  parties := .empty
  serviceOrders := .empty
  containers := .empty
  charges := .empty
  accounts := defaultChart
  postingRules := .empty
  periods := .empty
  sequences := .empty
  documents := .empty
  sources := .empty
  entries := .empty
  postings := .empty
  allocations := .empty

/-- A day of the calendar. -/
structure IsDay (year month day : ℕ) : Prop where
  month_pos : 1 ≤ month
  month_le : month ≤ 12
  day_pos : 1 ≤ day
  day_le : day ≤ Calendar.daysInMonth year month

def IsDay.date {year month day : ℕ} (h : IsDay year month day) : Calendar.Date :=
  ⟨year, month, day, h.month_pos, h.month_le, h.day_pos, h.day_le⟩

theorem isDay_january31 : IsDay 2024 1 31 := ⟨by decide, by decide, by decide, by decide⟩
theorem isDay_february1 : IsDay 2024 2 1 := ⟨by decide, by decide, by decide, by decide⟩

/-- A request by user 1 on the last day of January 2024. -/
def january31 : Calendar.Date := isDay_january31.date
def january : Env := ⟨january31, 2024, some 1⟩

/-- One by user 1 on the next day. -/
def february1 : Calendar.Date := isDay_february1.date
def february : Env := ⟨february1, 2024, some 1⟩

def usd : CurrencyCode := ⟨"USD", by decide⟩
def khr : CurrencyCode := ⟨"KHR", by decide⟩

/-- The fallback covers every document type. -/
theorem resolve_fresh (documentType : DocType) :
    (resolve (Db.fresh usd) documentType none "debit" "credit").isOk = true := by
  cases documentType <;> decide +kernel

end LcsSystem
