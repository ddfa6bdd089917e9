import LcsSystem.Reports.Ledger

/-!
# The trial balance

`_trial_balance_rows` (`src/backend/app/modules/reports/ledger_reports.py:104-173`) over `_trial_balance_statement`
(`modules/reports/repository.py:275-318`).

The control of the report (`balanced`, `warnings`) is computed from the rows it shows, so an account range that cuts
through the journals is reported as a ledger that does not balance: `trial_balance_ties_iff` says when.
-/

namespace LcsSystem
open Calendar Relational Checks Grouping

structure TrialBalanceFilters extends ReportFilters where
  accountFrom : Option String := none
  accountTo : Option String := none

structure TrialBalanceColumns where
  openingDebit : ℚ
  openingCredit : ℚ
  periodDebit : ℚ
  periodCredit : ℚ
  closingDebit : ℚ
  closingCredit : ℚ
  deriving DecidableEq

structure TrialBalanceItem where
  accountId : ℕ
  account : LedgerAccount
  columns : TrialBalanceColumns
  deriving DecidableEq

structure TrialBalance where
  items : List TrialBalanceItem
  totals : TrialBalanceColumns
  balanced : Bool
  imbalance : ℚ
  /-- "Trial balance does not balance", with the totals its text prints. -/
  warnings : List TrialBalanceColumns
  scope : Scope
  deriving DecidableEq

/-! ## The statement -/

/-- `account_code` between the codes of the filter; an empty text is no bound. -/
def TrialBalanceFilters.inRange (f : TrialBalanceFilters) (code : String) : Bool :=
  (f.accountFrom.all fun accountFrom => accountFrom = "" || accountFrom ≤ code) &&
    f.accountTo.all fun accountTo => accountTo = "" || code ≤ accountTo

/-- The lines of the `WHERE`. -/
def trialBalanceLines (db : ReportDb) (f : TrialBalanceFilters) (scope : Scope) : List LedgerLine :=
  db.postedLedger.filter fun r => scope.isClosed r.postingDate && f.inRange r.account.accountCode

/-- The groups: the accounts that have a line, in the order of their codes. -/
def reportedAccounts (db : ReportDb) (lines : List LedgerLine) : List (ℕ × LedgerAccount) :=
  (db.accounts.rows.filter fun a => lines.any fun r => r.accountId = a.1).insertionSort fun a b =>
    a.2.accountCode ≤ b.2.accountCode

/-- `func.sum(…).filter(opening)`, and the rest. -/
def openingSum (scope : Scope) (amount : LedgerLine → ℚ) (lines : List LedgerLine) (accountId : ℕ) : ℚ :=
  groupSum LedgerLine.accountId amount (lines.filter fun r => scope.isOpening r.postingDate) accountId

def periodSum (scope : Scope) (amount : LedgerLine → ℚ) (lines : List LedgerLine) (accountId : ℕ) : ℚ :=
  groupSum LedgerLine.accountId amount (lines.filter fun r => !scope.isOpening r.postingDate) accountId

/-! ## The report -/

/-- `_side`: a signed balance as its debit or its credit. -/
def side (net : ℚ) : ℚ × ℚ := if 0 ≤ net then (net, 0) else (0, -net)

def trialBalanceItem (scope : Scope) (lines : List LedgerLine) (a : ℕ × LedgerAccount) : TrialBalanceItem :=
  let openingNet := openingSum scope LedgerLine.debit lines a.1 - openingSum scope LedgerLine.credit lines a.1
  let periodDebit := periodSum scope LedgerLine.debit lines a.1
  let periodCredit := periodSum scope LedgerLine.credit lines a.1
  { accountId := a.1
    account := a.2
    columns := {
      openingDebit := (side openingNet).1
      openingCredit := (side openingNet).2
      periodDebit := periodDebit
      periodCredit := periodCredit
      closingDebit := (side (openingNet + periodDebit - periodCredit)).1
      closingCredit := (side (openingNet + periodDebit - periodCredit)).2 } }

/-- The six sums of `_trial_balance_totals`. -/
def trialBalanceTotals (items : List TrialBalanceItem) : TrialBalanceColumns where
  openingDebit := (items.map (·.columns.openingDebit)).sum
  openingCredit := (items.map (·.columns.openingCredit)).sum
  periodDebit := (items.map (·.columns.periodDebit)).sum
  periodCredit := (items.map (·.columns.periodCredit)).sum
  closingDebit := (items.map (·.columns.closingDebit)).sum
  closingCredit := (items.map (·.columns.closingCredit)).sum

/-- The control of `_trial_balance_totals`. -/
def TrialBalanceColumns.balanced (t : TrialBalanceColumns) : Bool :=
  t.closingDebit - t.closingCredit = 0 && t.periodDebit - t.periodCredit = 0

/-- `_trial_balance_rows`. -/
def trialBalanceRows (db : ReportDb) (f : TrialBalanceFilters) : Result TrialBalance := do
  let scope ← resolveRange db f.toReportFilters
  check (∀ accountFrom ∈ f.accountFrom, ∀ accountTo ∈ f.accountTo, accountFrom ≠ "" → accountTo ≠ "" →
      accountFrom ≤ accountTo)
    (.invalid "The account range is invalid." [("accountTo", "The to account must not sort before the from account.")])
  let lines := trialBalanceLines db f scope
  let items := (reportedAccounts db lines).map (trialBalanceItem scope lines)
  let totals := trialBalanceTotals items
  return {
    items := items
    totals := totals
    balanced := totals.balanced
    imbalance := totals.closingDebit - totals.closingCredit
    warnings := if totals.balanced then [] else [totals]
    scope := scope }

namespace TrialBalance

def item? (r : TrialBalance) (accountId : ℕ) : Option TrialBalanceItem :=
  r.items.find? fun i => i.accountId = accountId

/-- Debit and credit, zero for an account that is not listed. -/
def openingPosition (r : TrialBalance) (accountId : ℕ) : ℚ × ℚ :=
  ((r.item? accountId).map fun i => (i.columns.openingDebit, i.columns.openingCredit)).getD (0, 0)

def closingPosition (r : TrialBalance) (accountId : ℕ) : ℚ × ℚ :=
  ((r.item? accountId).map fun i => (i.columns.closingDebit, i.columns.closingCredit)).getD (0, 0)

/-- The report is balanced without a warning, and each debit total is the credit total. -/
structure Ties (r : TrialBalance) : Prop where
  balanced : r.balanced = true
  warnings : r.warnings = []
  opening : r.totals.openingDebit = r.totals.openingCredit
  period : r.totals.periodDebit = r.totals.periodCredit
  closing : r.totals.closingDebit = r.totals.closingCredit

end TrialBalance

/-! ## Sides -/

@[simp] theorem side_zero : side 0 = (0, 0) := by simp [side]

theorem side_sub (net : ℚ) : (side net).1 - (side net).2 = net := by
  unfold side
  split <;> simp

theorem side_inj {m n : ℚ} : side m = side n ↔ m = n := by
  constructor
  · intro h
    rw [← side_sub m, h, side_sub n]
  · rintro rfl
    rfl

theorem sum_side {α : Type} (net : α → ℚ) (xs : List α) :
    (xs.map fun x => (side (net x)).1).sum - (xs.map fun x => (side (net x)).2).sum = (xs.map net).sum := by
  induction xs with
  | nil => simp
  | cons x xs ih =>
    simp only [List.map_cons, List.sum_cons]
    have hx := side_sub (net x)
    linarith

/-! ## Sums of a group -/

theorem groupSum_net (rows : List LedgerLine) (id : ℕ) :
    groupSum LedgerLine.accountId LedgerLine.debit rows id - groupSum LedgerLine.accountId LedgerLine.credit rows id =
      groupSum LedgerLine.accountId LedgerLine.net rows id := sum_net _

theorem groupSum_split (p : LedgerLine → Bool) (amount : LedgerLine → ℚ) (rows : List LedgerLine) (id : ℕ) :
    groupSum LedgerLine.accountId amount (rows.filter p) id +
      groupSum LedgerLine.accountId amount (rows.filter fun r => !p r) id =
      groupSum LedgerLine.accountId amount rows id := by
  rw [← groupSum_append]
  exact groupSum_perm (List.filter_append_perm p rows) id

section
variable {db : ReportDb} {f : TrialBalanceFilters} {scope : Scope} {lines : List LedgerLine}

theorem trialBalanceItem_net (a : ℕ × LedgerAccount) :
    (trialBalanceItem scope lines a).columns =
      { openingDebit := (side (openingSum scope LedgerLine.net lines a.1)).1
        openingCredit := (side (openingSum scope LedgerLine.net lines a.1)).2
        periodDebit := periodSum scope LedgerLine.debit lines a.1
        periodCredit := periodSum scope LedgerLine.credit lines a.1
        closingDebit := (side (groupSum LedgerLine.accountId LedgerLine.net lines a.1)).1
        closingCredit := (side (groupSum LedgerLine.accountId LedgerLine.net lines a.1)).2 } := by
  have hopening : openingSum scope LedgerLine.debit lines a.1 - openingSum scope LedgerLine.credit lines a.1 =
      openingSum scope LedgerLine.net lines a.1 := groupSum_net _ _
  have hperiod : periodSum scope LedgerLine.debit lines a.1 - periodSum scope LedgerLine.credit lines a.1 =
      periodSum scope LedgerLine.net lines a.1 := groupSum_net _ _
  have hall : openingSum scope LedgerLine.net lines a.1 + periodSum scope LedgerLine.net lines a.1 =
      groupSum LedgerLine.accountId LedgerLine.net lines a.1 := groupSum_split _ _ _ _
  have hclosing : openingSum scope LedgerLine.debit lines a.1 - openingSum scope LedgerLine.credit lines a.1 +
      periodSum scope LedgerLine.debit lines a.1 - periodSum scope LedgerLine.credit lines a.1 =
      groupSum LedgerLine.accountId LedgerLine.net lines a.1 := by rw [add_sub_assoc, hopening, hperiod, hall]
  simp only [trialBalanceItem, hclosing]
  rw [hopening]

/-! ## The accounts of the report -/

theorem mem_reportedAccounts {a : ℕ × LedgerAccount} :
    a ∈ reportedAccounts db lines ↔ db.accounts.get? a.1 = some a.2 ∧ ∃ r ∈ lines, r.accountId = a.1 := by
  unfold reportedAccounts
  rw [List.mem_insertionSort, List.mem_filter, Table.get?_eq_some]
  simp

theorem nodup_reportedAccounts (db : ReportDb) (lines : List LedgerLine) :
    ((reportedAccounts db lines).map Prod.fst).Nodup := by
  have hperm := (List.perm_insertionSort (fun a b : ℕ × LedgerAccount => a.2.accountCode ≤ b.2.accountCode)
    (db.accounts.rows.filter fun a => lines.any fun r => r.accountId = a.1)).map Prod.fst
  exact hperm.nodup_iff.2 (db.accounts.nodup.sublist (List.filter_sublist.map _))

/-- The reported accounts have all lines, so their sums add up to the whole. -/
theorem sum_reportedAccounts (hlines : ∀ r ∈ lines, r ∈ db.postedLedger) (rows : List LedgerLine)
    (hrows : ∀ r ∈ rows, r ∈ lines) (amount : LedgerLine → ℚ) :
    ((reportedAccounts db lines).map fun a => groupSum LedgerLine.accountId amount rows a.1).sum =
      (rows.map amount).sum := by
  have hmem : ∀ r ∈ rows, r.accountId ∈ (reportedAccounts db lines).map Prod.fst := by
    intro r hr
    have haccount := (ReportDb.mem_postedLedger.1 (hlines r (hrows r hr))).2.2.2
    exact List.mem_map.2 ⟨(r.accountId, r.account), mem_reportedAccounts.2 ⟨haccount, r, hrows r hr, rfl⟩, rfl⟩
  rw [← sum_groupSum LedgerLine.accountId amount (nodup_reportedAccounts db lines) hmem, List.map_map]
  rfl

theorem mem_trialBalanceLines {r : LedgerLine} : r ∈ trialBalanceLines db f scope ↔
    r ∈ db.postedLedger ∧ scope.isClosed r.postingDate = true ∧ f.inRange r.account.accountCode = true := by
  simp [trialBalanceLines]

variable {r : TrialBalance}

theorem trialBalanceRows_eq_ok (h : trialBalanceRows db f = .ok r) :
    r.items = (reportedAccounts db (trialBalanceLines db f r.scope)).map
        (trialBalanceItem r.scope (trialBalanceLines db f r.scope)) ∧
      r.totals = trialBalanceTotals r.items ∧ r.balanced = r.totals.balanced ∧
      r.warnings = if r.totals.balanced then [] else [r.totals] := by
  simp only [trialBalanceRows, bind_eq_ok, pure_eq_ok] at h
  obtain ⟨scope, -, _, -, rfl⟩ := h
  exact ⟨rfl, rfl, rfl, rfl⟩

theorem trialBalanceLines_posted {x : LedgerLine} (h : x ∈ trialBalanceLines db f scope) : x ∈ db.postedLedger :=
  (mem_trialBalanceLines.1 h).1

/-! ## The control -/

/-- The debits and the credits of the accounts in the range agree, before the period and within it. -/
structure RangeBalances (db : ReportDb) (f : TrialBalanceFilters) (scope : Scope) : Prop where
  opening : (((trialBalanceLines db f scope).filter fun x => scope.isOpening x.postingDate).map LedgerLine.net).sum = 0
  period : (((trialBalanceLines db f scope).filter fun x => !scope.isOpening x.postingDate).map LedgerLine.net).sum = 0

/-- What the totals of the report differ by. -/
theorem totals_sub (h : trialBalanceRows db f = .ok r) :
    r.totals.openingDebit - r.totals.openingCredit =
        (((trialBalanceLines db f r.scope).filter fun x => r.scope.isOpening x.postingDate).map LedgerLine.net).sum ∧
      r.totals.periodDebit - r.totals.periodCredit =
        (((trialBalanceLines db f r.scope).filter fun x => !r.scope.isOpening x.postingDate).map LedgerLine.net).sum ∧
      r.totals.closingDebit - r.totals.closingCredit =
        ((trialBalanceLines db f r.scope).map LedgerLine.net).sum := by
  obtain ⟨hitems, htotals, -, -⟩ := trialBalanceRows_eq_ok h
  have hposted : ∀ x ∈ trialBalanceLines db f r.scope, x ∈ db.postedLedger := fun x => trialBalanceLines_posted
  rw [htotals, hitems]
  simp only [trialBalanceTotals, List.map_map, Function.comp_def, trialBalanceItem_net]
  refine ⟨?_, ?_, ?_⟩
  · rw [sum_side]
    exact sum_reportedAccounts hposted _ (fun x hx => (List.mem_filter.1 hx).1) _
  · have hsub := sum_reportedAccounts hposted
      ((trialBalanceLines db f r.scope).filter fun x => !r.scope.isOpening x.postingDate)
      fun x hx => (List.mem_filter.1 hx).1
    simp only [periodSum, hsub]
    exact sum_net _
  · rw [sum_side]
    exact sum_reportedAccounts hposted _ (fun x hx => hx) _

theorem ties_iff_rangeBalances (h : trialBalanceRows db f = .ok r) : r.Ties ↔ RangeBalances db f r.scope := by
  obtain ⟨-, -, hbalanced, hwarnings⟩ := trialBalanceRows_eq_ok h
  obtain ⟨hopening, hperiod, hclosing⟩ := totals_sub h
  have hsplit : ((trialBalanceLines db f r.scope).map LedgerLine.net).sum =
      (((trialBalanceLines db f r.scope).filter fun x => r.scope.isOpening x.postingDate).map LedgerLine.net).sum +
      (((trialBalanceLines db f r.scope).filter fun x => !r.scope.isOpening x.postingDate).map LedgerLine.net).sum := by
    rw [← List.sum_append, ← List.map_append]
    exact (((List.filter_append_perm _ _).map _).sum_eq).symm
  constructor
  · intro hties
    exact ⟨by rw [← hopening, hties.opening, sub_self], by rw [← hperiod, hties.period, sub_self]⟩
  · intro hrange
    rw [hrange.opening] at hopening
    rw [hrange.period] at hperiod
    rw [hsplit, hrange.opening, hrange.period, add_zero] at hclosing
    have hcontrol : r.totals.balanced = true := by simp [TrialBalanceColumns.balanced, hclosing, hperiod]
    exact ⟨hbalanced.trans hcontrol, by rw [hwarnings, if_pos hcontrol], sub_eq_zero.1 hopening, sub_eq_zero.1 hperiod,
      sub_eq_zero.1 hclosing⟩

/-! ## Positions -/

theorem item?_eq (h : trialBalanceRows db f = .ok r) (id : ℕ) :
    r.item? id = ((reportedAccounts db (trialBalanceLines db f r.scope)).find? fun a => a.1 = id).map
      (trialBalanceItem r.scope (trialBalanceLines db f r.scope)) := by
  rw [TrialBalance.item?, (trialBalanceRows_eq_ok h).1, List.find?_map]
  rfl

theorem positions_eq (h : trialBalanceRows db f = .ok r) (id : ℕ) :
    r.openingPosition id = side (openingSum r.scope LedgerLine.net (trialBalanceLines db f r.scope) id) ∧
      r.closingPosition id = side (groupSum LedgerLine.accountId LedgerLine.net (trialBalanceLines db f r.scope) id) := by
  unfold TrialBalance.openingPosition TrialBalance.closingPosition
  rw [item?_eq h]
  cases hfind : (reportedAccounts db (trialBalanceLines db f r.scope)).find? fun a => a.1 = id with
  | none =>
    have hnone : ∀ x ∈ trialBalanceLines db f r.scope, x.accountId ≠ id := by
      intro x hx hid
      have haccount := (ReportDb.mem_postedLedger.1 (trialBalanceLines_posted hx)).2.2.2
      have hmem : (x.accountId, x.account) ∈ reportedAccounts db (trialBalanceLines db f r.scope) :=
        mem_reportedAccounts.2 ⟨haccount, x, hx, rfl⟩
      simpa [hid] using List.find?_eq_none.1 hfind _ hmem
    have hopening : openingSum r.scope LedgerLine.net (trialBalanceLines db f r.scope) id = 0 :=
      groupSum_eq_zero fun x hx => hnone x (List.mem_filter.1 hx).1
    rw [hopening, groupSum_eq_zero hnone, side_zero]
    exact ⟨rfl, rfl⟩
  | some a =>
    have hid : a.1 = id := by simpa using List.find?_some hfind
    subst hid
    simp only [Option.map_some, Option.getD_some, trialBalanceItem_net, Prod.mk.eta, and_self]

end

end LcsSystem
