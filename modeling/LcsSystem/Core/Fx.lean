import LcsSystem.Core.Validation

/-!
# Currency arithmetic

`src/backend/app/core/fx.py` and the currency part of `modules/master_data/currency_rates.py`
(`assert_currency_code`): which codes and rates are usable, and how an amount is converted.

`quantize` is `roundHalfUp`: it fails in Python where the result needs more than 28 digits, and no
column of this program can hold such a value either.
-/

namespace LcsSystem
open DecimalArith Checks

/-! ## Currency codes -/

/-- Three upper-case letters. -/
def isCurrencyCode (s : String) : Bool := s.toList.length == 3 && s.toList.all Char.isUpper

/-- A code as `assert_currency_code` returns it: stripped, upper-case, three letters. -/
structure CurrencyCode where
  code : String
  wf : isCurrencyCode code = true
  deriving DecidableEq

def CurrencyCode.ofText? (s : String) : Option CurrencyCode :=
  if h : isCurrencyCode (upper (strip s)) = true then some ⟨upper (strip s), h⟩ else none

theorem CurrencyCode.ofText?_code (c : CurrencyCode) : CurrencyCode.ofText? c.code = some c := by
  have hwf := c.wf
  have hsame : upper (strip c.code) = c.code := upper_strip_of_isUpper (Bool.and_eq_true_iff.1 hwf).2
  cases c
  simp [CurrencyCode.ofText?, hsame, hwf]

/-! ## Columns -/

abbrev Money := Numeric 19 4
abbrev Rate := Numeric 19 8
abbrev Quantity := Numeric 12 3
abbrev TaxRate := Numeric 7 4

def overflow : Error := .database "numeric field overflow"

/-- Writing a decimal to a `numeric(p, s)` column. -/
def store (p s : ℕ) (x : ℚ) : Result (Numeric p s) := require (Numeric.store? p s x) overflow

abbrev storeMoney (x : ℚ) : Result Money := store 19 4 x

@[simp] theorem store_eq_ok {p s : ℕ} {x : ℚ} {y : Numeric p s} :
    store p s x = .ok y ↔ Numeric.store? p s x = some y := by
  simp [store]

theorem val_of_store {p s : ℕ} {x : ℚ} {y : Numeric p s} (h : store p s x = .ok y) : y.val = roundHalfUp s x :=
  Numeric.val_of_store? (store_eq_ok.1 h)

/-- A column amount as it prints, with its four decimals. -/
def moneyText (x : ℚ) : String :=
  let units := (⌊|x| * 10 ^ 4⌋).toNat
  let fraction := toString (units % 10000)
  (if x < 0 then "-" else "") ++ toString (units / 10000) ++ "." ++
    String.ofList (List.replicate (4 - fraction.length) '0') ++ fraction

/-! ## Rates -/

def maxRate : ℚ := 1000000000

def rateError (message fieldMessage : String) : Error := .invalid message [("exchangeRate", fieldMessage)]

/-- Positive, at most `maxRate`, and still positive once quantized to 8 decimals. -/
def normalizeRate (rate : ℚ) : Result ℚ := do
  check (0 < rate) (rateError "The exchange rate must be greater than zero." "Enter a rate greater than zero.")
  check (rate ≤ maxRate)
    (rateError "The exchange rate is not plausible." "This rate looks like a data-entry error.")
  check (0 < roundHalfUp 8 rate)
    (rateError "The exchange rate is too small to store." "Use a rate of at least 1E-8.")
  return roundHalfUp 8 rate

/-- `document_rate`: 1 in the base currency, otherwise the given rate normalised. -/
def documentRate (currency base : CurrencyCode) (rate : Option ℚ) : Result ℚ :=
  if currency = base then .ok 1
  else do
    let rate ← require rate (rateError
      "An exchange rate is required when the currency differs from the base currency."
      "Enter the exchange rate for this currency.")
    normalizeRate rate

theorem normalizeRate_eq_ok {rate r : ℚ} :
    normalizeRate rate = .ok r ↔ 0 < rate ∧ rate ≤ maxRate ∧ 0 < roundHalfUp 8 rate ∧ r = roundHalfUp 8 rate := by
  constructor
  · intro h
    simp only [normalizeRate, bind_eq_ok, check_eq_ok, pure_eq_ok] at h
    obtain ⟨_, hpos, _, hmax, _, hround, rfl⟩ := h
    exact ⟨hpos, hmax, hround, rfl⟩
  · rintro ⟨hpos, hmax, hround, rfl⟩
    simp [normalizeRate, check_pos hpos, check_pos hmax, check_pos hround]

theorem normalizeRate_pos {rate r : ℚ} (h : normalizeRate rate = .ok r) : 0 < r := by
  obtain ⟨-, -, hpos, rfl⟩ := normalizeRate_eq_ok.1 h
  exact hpos

theorem documentRate_of_ne {currency base : CurrencyCode} (h : currency ≠ base) {rate : Option ℚ} {r : ℚ} :
    documentRate currency base rate = .ok r ↔ ∃ q, rate = some q ∧ normalizeRate q = .ok r := by
  simp [documentRate, h]

/-! ## Amounts -/

def defaultCurrencyPrecision : ℕ := 2
def maxCurrencyPrecision : ℕ := 6

/-- `currency_precision`: the configured decimal places clamped to `0 … 6`. -/
def currencyPrecision (configured : ℤ) : ℕ := (max 0 (min configured maxCurrencyPrecision)).toNat

def quantizeMoney (amount : ℚ) (precision : ℕ) : ℚ := roundHalfUp (currencyPrecision precision) amount

/-- `amount` in the base currency. -/
def convertToBase (amount rate : ℚ) (precision : ℕ) : ℚ := quantizeMoney (mul amount rate) precision

@[simp] theorem convertToBase_zero (rate : ℚ) (precision : ℕ) : convertToBase 0 rate precision = 0 := by
  simp [convertToBase, quantizeMoney]

end LcsSystem
