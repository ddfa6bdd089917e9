import LcsSystem.Finance.Models

/-!
# Configured currencies and rates

`src/backend/app/modules/master_data/currency_rates.py`. A rate row says "1 from = rate to"; a
document stores the rate that multiplies its amounts, so the direct pair is used as it is and the
inverse pair is divided into 1.
-/

namespace LcsSystem
open Calendar Relational DecimalArith Checks

def currencyRow (db : Db) (code : CurrencyCode) : Option Currency := db.currencies.find? fun c => c.code == code

/-- `currency_precision(session, code)`. -/
def precisionOf (db : Db) (code : CurrencyCode) : ℕ :=
  match currencyRow db code with
  | some c => currencyPrecision c.decimalPlaces
  | none => defaultCurrencyPrecision

/-- A three-letter code whose row, if there is one, is active. -/
def assertCurrencyCode (db : Db) (text field : String) : Result CurrencyCode := do
  let code ← require (CurrencyCode.ofText? text) (.invalid "A three-letter currency code is required."
    [(field, "Use an ISO 4217 code such as USD.")])
  check ((currencyRow db code).all Currency.active = true) (.invalid "That currency is not active."
    [(field, "Choose an active currency.")])
  return code

/-- `ORDER BY effective_date DESC, id DESC`. -/
def rateOrder (a b : ℕ × CurrencyRate) : Prop :=
  b.2.effectiveDate < a.2.effectiveDate ∨ (a.2.effectiveDate = b.2.effectiveDate ∧ b.1 ≤ a.1)

instance : DecidableRel rateOrder := fun _ _ => inferInstanceAs (Decidable (_ ∨ _))

/-- The newest approved row of a directed pair that is effective on or before a date. -/
def latestApproved (db : Db) (source target : CurrencyCode) (onDate : Date) : Option CurrencyRate :=
  let rows := db.currencyRates.rows.filter fun r =>
    r.2.fromCurrencyCode == source && r.2.toCurrencyCode == target && r.2.approved &&
      decide (r.2.effectiveDate ≤ onDate)
  ((rows.insertionSort rateOrder).head?).map Prod.snd

/-- The rate a document stores, or none when no approved pair covers it. -/
def resolveDocumentRate (db : Db) (currency base : CurrencyCode) (onDate : Date) : Result (Option ℚ) :=
  if currency = base then .ok (some 1)
  else
    match (latestApproved db currency base onDate).filter fun r => decide (0 < r.rate.val) with
    | some direct => some <$> normalizeRate direct.rate.val
    | none =>
      match (latestApproved db base currency onDate).filter fun r => decide (0 < r.rate.val) with
      | some inverse => some <$> normalizeRate (div 1 inverse.rate.val)
      | none => .ok none

end LcsSystem
