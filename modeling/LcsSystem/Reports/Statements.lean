import LcsSystem.Reports.BalanceControl

/-!
# Profit and loss, balance sheet

`_account_type_totals`, `profit_loss` and `balance_sheet` (`src/backend/app/modules/reports/service.py:147-173, 297-372`)
without the cache. A reported float is read as the decimal it prints; `round(…, 4)` is to the nearest, ties to even.
-/

namespace LcsSystem
open Relational Checks Grouping DecimalArith

def accountTypes : List String := ["ASSET", "LIABILITY", "EQUITY", "REVENUE", "EXPENSE"]

/-! ## Sections -/

structure AccountTypeTotal where
  accountCode : String
  accountName : String
  amount : ℚ
  debit : ℚ
  credit : ℚ
  deriving DecidableEq

/-- The posted lines of a section. -/
def typeLines (db : ReportDb) (accountType : String) : List LedgerLine :=
  db.postedLedger.filter fun x => x.account.accountType = accountType

/-- The `GROUP BY` of a section. -/
def codeAndName (x : LedgerLine) : String × String := (x.account.accountCode, x.account.accountName)

/-- Credit minus debit for what is normally a credit, else debit minus credit. -/
def signedAmount (accountType : String) (debit credit : ℚ) : ℚ :=
  if accountType ∈ ["REVENUE", "LIABILITY", "EQUITY"] then credit - debit else debit - credit

/-- `_account_type_totals`. -/
def accountTypeTotals (db : ReportDb) (accountType : String) : List AccountTypeTotal :=
  let lines := typeLines db accountType
  let groups := (lines.map codeAndName).dedup.insertionSort fun a b => a.1 ≤ b.1
  groups.map fun g =>
    let debit := groupSum codeAndName LedgerLine.debit lines g
    let credit := groupSum codeAndName LedgerLine.credit lines g
    ⟨g.1, g.2, signedAmount accountType debit credit, debit, credit⟩

/-! ## Statements -/

/-- `round(x, 4)`. -/
def round4 (x : ℚ) : ℚ := roundHalfEven (x * 10 ^ 4) / 10 ^ 4

def sectionSum (rows : List AccountTypeTotal) : ℚ := (rows.map (·.amount)).sum

structure ProfitLoss where
  revenue : ℚ
  expense : ℚ
  net : ℚ
  revenueAccounts : List AccountTypeTotal
  expenseAccounts : List AccountTypeTotal

def profitLoss (db : ReportDb) : ProfitLoss :=
  let revenueRows := accountTypeTotals db "REVENUE"
  let expenseRows := accountTypeTotals db "EXPENSE"
  let revenue := round4 (sectionSum revenueRows)
  let expense := round4 (sectionSum expenseRows)
  { revenue := revenue
    expense := expense
    net := round4 (revenue - expense)
    revenueAccounts := revenueRows
    expenseAccounts := expenseRows }

structure BalanceSheet where
  assets : ℚ
  liabilities : ℚ
  equity : ℚ
  retainedEarnings : ℚ
  liabilitiesAndEquity : ℚ
  difference : ℚ
  balanced : Bool
  assetAccounts : List AccountTypeTotal
  liabilityAccounts : List AccountTypeTotal
  equityAccounts : List AccountTypeTotal

def balanceSheet (db : ReportDb) : BalanceSheet :=
  let assetRows := accountTypeTotals db "ASSET"
  let liabilityRows := accountTypeTotals db "LIABILITY"
  let equityRows := accountTypeTotals db "EQUITY"
  let revenueRows := accountTypeTotals db "REVENUE"
  let expenseRows := accountTypeTotals db "EXPENSE"
  let assets := round4 (sectionSum assetRows)
  let liabilities := round4 (sectionSum liabilityRows)
  let equity := round4 (sectionSum equityRows)
  let netResult := round4 (sectionSum revenueRows - sectionSum expenseRows)
  let rightSide := round4 (liabilities + equity + netResult)
  { assets := assets
    liabilities := liabilities
    equity := equity
    retainedEarnings := netResult
    liabilitiesAndEquity := rightSide
    difference := round4 (assets - rightSide)
    balanced := |round4 (assets - rightSide)| < 1 / 10000
    assetAccounts := assetRows
    liabilityAccounts := liabilityRows
    equityAccounts := equityRows }

/-! ## Rounding -/

theorem roundHalfEven_intCast (n : ℤ) : roundHalfEven n = n := by
  simp [roundHalfEven]

theorem round4_of_scaled {x : ℚ} (h : Scaled 4 x) : round4 x = x := by
  obtain ⟨n, hn⟩ := scaled_iff.1 h
  rw [round4, hn, roundHalfEven_intCast, ← hn]
  exact mul_div_cancel_right₀ _ (by norm_num)

theorem scaled_net (x : LedgerLine) : Scaled 4 x.net := x.line.baseDebitAmount.scaled.sub x.line.baseCreditAmount.scaled

/-! ## What a section adds up to -/

/-- Debit minus credit of all lines of a section. -/
def sectionNet (db : ReportDb) (accountType : String) : ℚ := ((typeLines db accountType).map LedgerLine.net).sum

theorem scaled_sectionNet (db : ReportDb) (accountType : String) : Scaled 4 (sectionNet db accountType) := by
  refine Scaled.sum fun x hx => ?_
  obtain ⟨l, -, rfl⟩ := List.mem_map.1 hx
  exact scaled_net l

theorem sum_signedAmount {α : Type} (accountType : String) (debit credit : α → ℚ) (xs : List α) :
    (xs.map fun x => signedAmount accountType (debit x) (credit x)).sum =
      signedAmount accountType (xs.map debit).sum (xs.map credit).sum := by
  induction xs with
  | nil => simp [signedAmount]
  | cons x xs ih =>
    rw [List.map_cons, List.sum_cons, ih]
    simp only [List.map_cons, List.sum_cons, signedAmount]
    split <;> ring

/-- **A section is its signed net**, however its accounts are grouped. -/
theorem sectionSum_accountTypeTotals (db : ReportDb) (accountType : String) :
    sectionSum (accountTypeTotals db accountType) =
      if accountType ∈ ["REVENUE", "LIABILITY", "EQUITY"] then -sectionNet db accountType
      else sectionNet db accountType := by
  set groups := ((typeLines db accountType).map codeAndName).dedup.insertionSort fun a b => a.1 ≤ b.1 with hgroups
  have hnodup : groups.Nodup := (List.perm_insertionSort _ _).nodup_iff.2 (List.nodup_dedup _)
  have hmem : ∀ x ∈ typeLines db accountType, codeAndName x ∈ groups := fun x hx =>
    (List.mem_insertionSort _).2 (List.mem_dedup.2 (List.mem_map_of_mem hx))
  have hsum : sectionSum (accountTypeTotals db accountType) =
      signedAmount accountType ((typeLines db accountType).map LedgerLine.debit).sum
        ((typeLines db accountType).map LedgerLine.credit).sum := by
    rw [← sum_groupSum _ _ hnodup hmem, ← sum_groupSum _ _ hnodup hmem, ← sum_signedAmount]
    simp only [sectionSum, accountTypeTotals, List.map_map]
    rfl
  rw [hsum, signedAmount, sectionNet, ← sum_net]
  split <;> ring

theorem scaled_sectionSum (db : ReportDb) (accountType : String) :
    Scaled 4 (sectionSum (accountTypeTotals db accountType)) := by
  rw [sectionSum_accountTypeTotals]
  split
  · have h := (scaled_zero 4).sub (scaled_sectionNet db accountType)
    rwa [zero_sub] at h
  · exact scaled_sectionNet db accountType

/-! ## The identity -/

/-- Every account has one of the five types. -/
def TypesKnown (accounts : Table LedgerAccount) : Prop :=
  ∀ id a, accounts.get? id = some a → a.accountType ∈ accountTypes

/-- The statements of a ledger tie out. -/
structure StatementsTie (db : ReportDb) : Prop where
  balanced : (balanceSheet db).balanced = true
  difference : (balanceSheet db).difference = 0
  identity : (balanceSheet db).assets =
    (balanceSheet db).liabilities + (balanceSheet db).equity + (balanceSheet db).retainedEarnings
  netResult : (balanceSheet db).retainedEarnings = (profitLoss db).net
  /-- Every posted line is counted in one section. -/
  sections : ∀ x ∈ db.postedLedger, ∃! accountType, accountType ∈ accountTypes ∧ x ∈ typeLines db accountType

theorem sum_sectionNet {db : ReportDb} (htypes : TypesKnown db.accounts) :
    (accountTypes.map (sectionNet db)).sum = (db.postedLedger.map LedgerLine.net).sum :=
  sum_groupSum (fun x : LedgerLine => x.account.accountType) _ (by decide) fun x hx =>
    htypes _ _ (ReportDb.mem_postedLedger.1 hx).2.2.2

theorem statementsTie {db : ReportDb} (htypes : TypesKnown db.accounts) (hbalance : db.EntriesBalance) :
    StatementsTie db := by
  have hzero : (db.postedLedger.map LedgerLine.net).sum = 0 := by
    have h := sum_net_of_dates hbalance fun _ => true
    rwa [List.filter_true] at h
  have htotal := sum_sectionNet htypes
  rw [hzero] at htotal
  simp only [accountTypes, List.map_cons, List.map_nil, List.sum_cons, List.sum_nil] at htotal
  have hround := fun accountType => round4_of_scaled (scaled_sectionSum db accountType)
  have hnet : round4 (sectionSum (accountTypeTotals db "REVENUE") - sectionSum (accountTypeTotals db "EXPENSE")) =
      sectionSum (accountTypeTotals db "REVENUE") - sectionSum (accountTypeTotals db "EXPENSE") :=
    round4_of_scaled ((scaled_sectionSum db _).sub (scaled_sectionSum db _))
  have hright : round4 (sectionSum (accountTypeTotals db "LIABILITY") + sectionSum (accountTypeTotals db "EQUITY") +
      (sectionSum (accountTypeTotals db "REVENUE") - sectionSum (accountTypeTotals db "EXPENSE"))) =
      sectionSum (accountTypeTotals db "ASSET") := by
    rw [round4_of_scaled (((scaled_sectionSum db _).add (scaled_sectionSum db _)).add
      ((scaled_sectionSum db _).sub (scaled_sectionSum db _)))]
    simp only [sectionSum_accountTypeTotals]
    simp only [List.mem_cons, List.not_mem_nil, or_false, String.reduceEq, or_true, if_true, or_self, if_false]
    linarith
  have hdifference : (balanceSheet db).difference = 0 := by
    simp only [balanceSheet, hround, hnet, hright, sub_self]
    exact round4_of_scaled (scaled_zero 4)
  refine ⟨?_, hdifference, ?_, ?_, fun x hx => ?_⟩
  · have hsame : (balanceSheet db).balanced = decide (|(balanceSheet db).difference| < 1 / 10000) := rfl
    rw [hsame, hdifference]
    norm_num
  · simp only [balanceSheet, hround, hnet]
    rw [← hright, round4_of_scaled]
    exact ((scaled_sectionSum db _).add (scaled_sectionSum db _)).add
      ((scaled_sectionSum db _).sub (scaled_sectionSum db _))
  · simp only [balanceSheet, profitLoss, hround]
  · have hknown := htypes _ _ (ReportDb.mem_postedLedger.1 hx).2.2.2
    refine ⟨x.account.accountType, ⟨hknown, List.mem_filter.2 ⟨hx, by simp⟩⟩, ?_⟩
    rintro accountType ⟨-, hmem⟩
    exact (by simpa using (List.mem_filter.1 hmem).2 : x.account.accountType = accountType).symm

end LcsSystem
