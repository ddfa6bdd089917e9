import LcsSystem.Finance.PostingRules
import LcsSystem.MasterData.CurrencyRates
import LcsSystem.Lib.Double

/-!
# The rate a document finds

The rows that `create_reference` and `update_reference` of the collection `currencyRates` accept
(`normalize_rate_input`, `src/backend/app/modules/master_data/currency_rates.py:35-74`), and what
`resolve_document_rate` makes of them.

| here                   | there                                                            |
|------------------------|------------------------------------------------------------------|
| `RateInput`            | the keys of a body that the hook and the required columns read   |
| `AcceptedRate`         | a value of the column `rate` behind `fx.normalize_rate`          |
| `RateStore`            | `currency_rates`; every rate in it was accepted                  |
| `RateStore.resolve`    | `resolve_document_rate`                                          |
| `RateStore.IsNewest`   | `ORDER BY effective_date DESC, id DESC LIMIT 1`                  |

Accepted rates go up to 1 000 000 000. The reciprocal of a rate above 200 000 000 is stored as zero, so
`normalize_rate` refuses it: `RateStore.resolves_iff`.
-/

namespace LcsSystem
open Calendar Relational DecimalArith Checks

/-! ## Writing a rate -/

structure RateInput where
  fromCurrencyCode : String
  toCurrencyCode : String
  /-- Where the body has the key, its number; none inside when it is no number. -/
  rate : Option (Option ℚ)
  effectiveDate : Option Date
  status : String

/-- A rate as it is kept: reading it back through `normalize_rate` gives it again. -/
def AcceptedRate := { rate : Rate // normalizeRate rate.val = .ok rate.val }

theorem normalizeRate_idem {rate r : ℚ} (h : normalizeRate rate = .ok r) : normalizeRate r = .ok r := by
  obtain ⟨hpos, hmax, hround, rfl⟩ := normalizeRate_eq_ok.1 h
  have hfix : roundHalfUp 8 (roundHalfUp 8 rate) = roundHalfUp 8 rate := roundHalfUp_of_scaled (scaled_roundHalfUp 8 rate)
  have hbound : roundHalfUp 8 maxRate = maxRate := roundHalfUp_of_scaled (by decide +kernel)
  refine normalizeRate_eq_ok.2 ⟨hround, ?_, by rwa [hfix], hfix.symm⟩
  calc roundHalfUp 8 rate ≤ roundHalfUp 8 maxRate := roundHalfUp_mono hpos.le hmax
    _ = maxRate := hbound

theorem normalizeRate_stored {given : ℚ} {rate : Rate} (h : (normalizeRate given >>= store 19 8) = .ok rate) :
    normalizeRate rate.val = .ok rate.val := by
  obtain ⟨r, hr, hstore⟩ := bind_eq_ok.1 h
  have hscaled : roundHalfUp 8 r = r := by
    obtain ⟨-, -, -, rfl⟩ := normalizeRate_eq_ok.1 hr
    exact roundHalfUp_of_scaled (scaled_roundHalfUp 8 given)
  rw [val_of_store hstore, hscaled]
  exact normalizeRate_idem hr

def acceptRate (given : ℚ) : Result AcceptedRate :=
  match h : normalizeRate given >>= store 19 8 with
  | .ok rate => .ok ⟨rate, normalizeRate_stored h⟩
  | .error e => .error e

/-- In this collection the field is `rate`. -/
def readdressed : Error → Error
  | .validationFailed message fields _ => .invalid message [("rate", (fields.lookup "exchangeRate").getD message)]
  | e => e

def rateStatuses : List String := ["PENDING", "APPROVED", "INACTIVE"]

structure NormalRateInput where
  fromCurrencyCode : CurrencyCode
  toCurrencyCode : CurrencyCode
  rate : Option AcceptedRate
  status : String

def checkedCode (field message given : String) : Result CurrencyCode := do
  check (strip given ≠ "") (.invalid "A currency is required." [(field, message)])
  require (CurrencyCode.ofText? given) (.invalid "Please correct the highlighted fields."
    [(field, "Enter a value in the expected format.")])

def checkedRate : Option (Option ℚ) → Result (Option AcceptedRate)
  | none => .ok none
  | some none => .error (.invalid "The exchange rate must be a number greater than zero."
      [("rate", "Enter a rate greater than zero.")])
  | some (some given) => (some <$> acceptRate given).mapError readdressed

def normalizeRateInput (data : RateInput) : Result NormalRateInput := do
  let source ← checkedCode "fromCurrencyCode" "Choose the currency being converted." data.fromCurrencyCode
  let target ← checkedCode "toCurrencyCode" "Choose the currency to convert into." data.toCurrencyCode
  check (source ≠ target) (.invalid "A rate needs two different currencies."
    [("toCurrencyCode", "Choose a currency other than the first one.")])
  let rate ← checkedRate data.rate
  let status := if strip data.status = "" then "APPROVED" else upper (strip data.status)
  check (status ∈ rateStatuses) (.invalid "Unknown rate status." [("status", "Choose one of PENDING, APPROVED, INACTIVE.")])
  return ⟨source, target, rate, status⟩

structure RateStore where
  rates : Table CurrencyRate
  accepted : ∀ id row, rates.get? id = some row → normalizeRate row.rate.val = .ok row.rate.val

namespace RateStore

theorem accepted_empty : ∀ id row, (Table.empty : Table CurrencyRate).get? id = some row →
    normalizeRate row.rate.val = .ok row.rate.val := by
  intro id row h
  cases h

def empty : RateStore := ⟨.empty, accepted_empty⟩

/-- The row of a new rate. -/
def insertRow (s : RateStore) (source target : CurrencyCode) (rate : AcceptedRate) (effectiveDate : Date)
    (approved : Bool) : RateStore :=
  ⟨s.rates.insert ⟨source, target, rate.1, effectiveDate, approved⟩, Table.forall_insert s.accepted rate.2⟩

/-- What is given replaces the columns of the row. -/
def updated (row : CurrencyRate) (data : NormalRateInput) (effectiveDate : Option Date) : CurrencyRate :=
  { row with
    fromCurrencyCode := data.fromCurrencyCode
    toCurrencyCode := data.toCurrencyCode
    rate := (data.rate.map Subtype.val).getD row.rate
    effectiveDate := effectiveDate.getD row.effectiveDate
    approved := data.status == "APPROVED" }

theorem accepted_updated (s : RateStore) (id : ℕ) (data : NormalRateInput) (effectiveDate : Option Date) :
    ∀ i row, (s.rates.modify id fun row => updated row data effectiveDate).get? i = some row →
      normalizeRate row.rate.val = .ok row.rate.val := by
  cases hrow : s.rates.get? id with
  | none =>
    intro i row hi
    rw [Table.get?_modify] at hi
    split at hi
    · next h => simp [h, hrow] at hi
    · exact s.accepted i row hi
  | some row =>
    refine Table.forall_modify hrow s.accepted ?_
    unfold updated
    cases data.rate with
    | none => exact s.accepted id row hrow
    | some rate => exact rate.2

def updateRow (s : RateStore) (id : ℕ) (data : NormalRateInput) (effectiveDate : Option Date) : RateStore :=
  ⟨s.rates.modify id fun row => updated row data effectiveDate, s.accepted_updated id data effectiveDate⟩

/-- `create_reference("currencyRates", data)`. -/
def create (s : RateStore) (data : RateInput) : Result RateStore := do
  let given ← normalizeRateInput data
  let rate ← require given.rate (.invalid "Please correct the highlighted fields." [("rate", "This field is required.")])
  let effectiveDate ← require data.effectiveDate
    (.invalid "Please correct the highlighted fields." [("effectiveDate", "This field is required.")])
  return s.insertRow given.fromCurrencyCode given.toCurrencyCode rate effectiveDate (given.status == "APPROVED")

/-- `update_reference("currencyRates", id, data)`: a key that is absent keeps its column. -/
def update (s : RateStore) (id : ℕ) (data : RateInput) : Result RateStore := do
  check ((s.rates.get? id).isSome = true) (.notFound "Record not found.")
  let given ← normalizeRateInput data
  return s.updateRow id given data.effectiveDate

/-- `resolve_document_rate` over these rates. -/
def resolve (s : RateStore) (db : Db) (currency base : CurrencyCode) (onDate : Date) : Result (Option ℚ) :=
  resolveDocumentRate { db with currencyRates := s.rates } currency base onDate

/-! ## The newest row -/

/-- An approved row of the pair, effective on or before the date. -/
def Covers (source target : CurrencyCode) (onDate : Date) (row : CurrencyRate) : Prop :=
  row.fromCurrencyCode = source ∧ row.toCurrencyCode = target ∧ row.approved = true ∧ row.effectiveDate ≤ onDate

/-- The covering row of the latest date, of two on one date the one written last. -/
structure IsNewest (s : RateStore) (source target : CurrencyCode) (onDate : Date) (id : ℕ) (row : CurrencyRate) :
    Prop where
  stored : s.rates.get? id = some row
  covers : Covers source target onDate row
  newest : ∀ id' row', s.rates.get? id' = some row' → Covers source target onDate row' → rateOrder (id, row) (id', row')

/-- No row covers the pair. -/
def Uncovered (s : RateStore) (source target : CurrencyCode) (onDate : Date) : Prop :=
  ∀ id row, s.rates.get? id = some row → ¬Covers source target onDate row

instance rateOrder_total : Std.Total rateOrder := ⟨by
  intro a b
  unfold rateOrder
  rcases lt_trichotomy a.2.effectiveDate b.2.effectiveDate with h | h | h
  · exact .inr (.inl h)
  · rcases Nat.le_total a.1 b.1 with hid | hid
    · exact .inr (.inr ⟨h.symm, hid⟩)
    · exact .inl (.inr ⟨h, hid⟩)
  · exact .inl (.inl h)⟩

instance rateOrder_trans : IsTrans (ℕ × CurrencyRate) rateOrder := ⟨by
  rintro a b c (hab | ⟨hab, hid⟩) (hbc | ⟨hbc, hid'⟩)
  · exact .inl (hbc.trans hab)
  · exact .inl (hbc ▸ hab)
  · exact .inl (hab ▸ hbc)
  · exact .inr ⟨hab.trans hbc, hid'.trans hid⟩⟩

/-- The rows that `latest_approved` sorts. -/
def covering (s : RateStore) (source target : CurrencyCode) (onDate : Date) : List (ℕ × CurrencyRate) :=
  s.rates.rows.filter fun r =>
    r.2.fromCurrencyCode == source && r.2.toCurrencyCode == target && r.2.approved && decide (r.2.effectiveDate ≤ onDate)

theorem latestApproved_eq (s : RateStore) (db : Db) (source target : CurrencyCode) (onDate : Date) :
    latestApproved { db with currencyRates := s.rates } source target onDate =
      (((s.covering source target onDate).insertionSort rateOrder).head?).map Prod.snd := rfl

theorem mem_covering {s : RateStore} {source target : CurrencyCode} {onDate : Date} {r : ℕ × CurrencyRate} :
    r ∈ s.covering source target onDate ↔ s.rates.get? r.1 = some r.2 ∧ Covers source target onDate r.2 := by
  simp [covering, Covers, Table.get?_eq_some, and_assoc]

theorem latestApproved_eq_none {s : RateStore} {db : Db} {source target : CurrencyCode} {onDate : Date} :
    latestApproved { db with currencyRates := s.rates } source target onDate = none ↔
      s.Uncovered source target onDate := by
  rw [latestApproved_eq, Option.map_eq_none_iff, List.head?_eq_none_iff, ← List.length_eq_zero_iff,
    List.length_insertionSort, List.length_eq_zero_iff, List.eq_nil_iff_forall_not_mem]
  constructor
  · intro h id row hrow hcovers
    exact h (id, row) (mem_covering.2 ⟨hrow, hcovers⟩)
  · intro h r hr
    exact h r.1 r.2 (mem_covering.1 hr).1 (mem_covering.1 hr).2

theorem isNewest_of_latestApproved {s : RateStore} {db : Db} {source target : CurrencyCode} {onDate : Date}
    {row : CurrencyRate} (h : latestApproved { db with currencyRates := s.rates } source target onDate = some row) :
    ∃ id, s.IsNewest source target onDate id row := by
  rw [latestApproved_eq, Option.map_eq_some_iff] at h
  obtain ⟨⟨id, first⟩, hhead, rfl⟩ := h
  obtain ⟨rest, hrest⟩ := List.head?_eq_some_iff.1 hhead
  have hmem : ∀ r, r ∈ s.covering source target onDate ↔ r ∈ (id, first) :: rest := by
    intro r
    rw [← hrest, List.mem_insertionSort]
  have hsorted := List.pairwise_insertionSort rateOrder (s.covering source target onDate)
  rw [hrest, List.pairwise_cons] at hsorted
  have hfirst := mem_covering.1 ((hmem (id, first)).2 List.mem_cons_self)
  refine ⟨id, hfirst.1, hfirst.2, fun id' row' hrow' hcovers => ?_⟩
  have hin := (hmem (id', row')).1 (mem_covering.2 ⟨hrow', hcovers⟩)
  rcases List.mem_cons.1 hin with heq | hin
  · rw [heq]
    exact .inr ⟨rfl, le_rfl⟩
  · exact hsorted.1 _ hin

/-- There is at most one newest row. -/
theorem IsNewest.unique {s : RateStore} {source target : CurrencyCode} {onDate : Date} {id id' : ℕ}
    {row row' : CurrencyRate} (h : s.IsNewest source target onDate id row) (h' : s.IsNewest source target onDate id' row') :
    row = row' := by
  have hid : id = id' := by
    have hle := h.newest id' row' h'.stored h'.covers
    have hge := h'.newest id row h.stored h.covers
    rcases hle with hlt | ⟨heq, hle⟩
    · rcases hge with hlt' | ⟨heq', -⟩
      · exact absurd hlt (lt_asymm hlt')
      · exact absurd hlt (heq' ▸ lt_irrefl _)
    · rcases hge with hlt' | ⟨-, hge⟩
      · exact absurd hlt' (heq ▸ lt_irrefl _)
      · exact Nat.le_antisymm hge hle
  have hrow := h.stored
  rw [hid, h'.stored, Option.some.injEq] at hrow
  exact hrow.symm

theorem latestApproved_eq_some {s : RateStore} {db : Db} {source target : CurrencyCode} {onDate : Date} {id : ℕ}
    {row : CurrencyRate} (h : s.IsNewest source target onDate id row) :
    latestApproved { db with currencyRates := s.rates } source target onDate = some row := by
  cases hlatest : latestApproved { db with currencyRates := s.rates } source target onDate with
  | none => exact absurd h.covers (latestApproved_eq_none.1 hlatest id row h.stored)
  | some row' =>
    obtain ⟨id', h'⟩ := isNewest_of_latestApproved hlatest
    rw [h'.unique h]

end RateStore

/-! ## The reciprocal of a stored rate -/

/-- The largest rate whose reciprocal is not stored as zero. -/
def maxInvertible : ℚ := 200000000

theorem stored_units {v : ℚ} (h : normalizeRate v = .ok v) : ∃ n : ℕ, 0 < n ∧ v = n / 10 ^ 8 := by
  obtain ⟨hpos, -, -, hround⟩ := normalizeRate_eq_ok.1 h
  have hscaled : Scaled 8 v := hround ▸ scaled_roundHalfUp 8 v
  obtain ⟨k, hk⟩ := scaled_iff.1 hscaled
  have hk0 : (0 : ℚ) < k := by
    rw [← hk]
    positivity
  lift k to ℕ using by exact_mod_cast hk0.le
  refine ⟨k, by exact_mod_cast hk0, ?_⟩
  rw [eq_div_iff (by norm_num), hk]
  rfl

/-- Half a unit away from a whole number, a quotient by `q` is off by at least half of `1 / q`: an error below that
does not change to which whole number it is rounded. -/
theorem abs_floor_half_sub_le {p : ℤ} {q : ℕ} (hq : 0 < q) {c : ℚ} (h : |c - p / q| < 1 / (2 * q)) :
    |(⌊c + 1 / 2⌋ : ℚ) - p / q| ≤ 1 / 2 := by
  have hq' : (0 : ℚ) < q := by exact_mod_cast hq
  obtain ⟨hlow, hhigh⟩ := abs_lt.1 h
  have hfloor := Int.floor_le (c + 1 / 2)
  have hceil := Int.lt_floor_add_one (c + 1 / 2)
  generalize ⌊c + 1 / 2⌋ = m at hfloor hceil
  have hp : (p : ℚ) / q * q = p := div_mul_cancel₀ _ hq'.ne'
  have hunit : (1 : ℚ) / (2 * q) * (2 * q) = 1 := div_mul_cancel₀ _ (by positivity)
  rw [abs_le]
  constructor
  · by_contra hfar
    have hstrict : q * (2 * m + 1) < 2 * p := by
      have : (q : ℚ) * (2 * m + 1) < 2 * p := by nlinarith
      exact_mod_cast this
    have hgap : (q : ℚ) * (2 * m + 1) + 1 ≤ 2 * p := by exact_mod_cast hstrict
    have hnear : c * (2 * q) < (2 * m + 1) * q := by nlinarith
    nlinarith
  · by_contra hfar
    have hstrict : 2 * p < q * (2 * m - 1) := by
      have : (2 : ℚ) * p < q * (2 * m - 1) := by nlinarith
      exact_mod_cast this
    have hgap : (2 : ℚ) * p + 1 ≤ q * (2 * m - 1) := by exact_mod_cast hstrict
    have hnear : (2 * m - 1) * q ≤ c * (2 * q) := by nlinarith
    nlinarith

/-- The stored reciprocal of `n` units, in units. -/
def reciprocalUnits (n : ℕ) : ℚ := div 1 (n / 10 ^ 8) * 10 ^ 8

theorem abs_reciprocalUnits_sub {n : ℕ} (hn : 0 < n) : |reciprocalUnits n - (10 ^ 16 : ℤ) / n| < 1 / (2 * n) := by
  have hn' : (0 : ℚ) < n := by exact_mod_cast hn
  have hunits : ((10 ^ 16 : ℤ) : ℚ) / n = 1 / (n / 10 ^ 8) * 10 ^ 8 := by
    push_cast
    field_simp
    norm_num
  have hbound : (1 : ℚ) / (n / 10 ^ 8) / (2 * 10 ^ 27) * 10 ^ 8 < 1 / (2 * n) := by
    field_simp
    norm_num
  have hpos : (0 : ℚ) < 1 / (n / 10 ^ 8) := by positivity
  have herr := abs_context_sub_le hpos
  rw [hunits, reciprocalUnits, div, ← sub_mul, abs_mul, abs_of_pos (by norm_num : (0 : ℚ) < 10 ^ 8)]
  exact (mul_le_mul_of_nonneg_right herr (by norm_num)).trans_lt hbound

theorem reciprocalUnits_half : reciprocalUnits (2 * 10 ^ 16) = 1 / 2 := by decide +kernel

/-- Above `maxInvertible` the reciprocal is less than half a unit. -/
theorem floor_reciprocalUnits_pos_iff {n : ℕ} (hn : 0 < n) : 0 < ⌊reciprocalUnits n + 1 / 2⌋ ↔ n ≤ 2 * 10 ^ 16 := by
  have hn' : (0 : ℚ) < n := by exact_mod_cast hn
  have hfloor : 0 < ⌊reciprocalUnits n + 1 / 2⌋ ↔ 1 / 2 ≤ reciprocalUnits n := by
    rw [← Int.add_one_le_iff, Int.le_floor]
    push_cast
    constructor <;> intro h <;> linarith
  obtain ⟨hlow, hhigh⟩ := abs_lt.1 (abs_reciprocalUnits_sub hn)
  push_cast at hlow hhigh
  rw [hfloor]
  constructor
  · intro h
    by_contra hlarge
    have hgap : (2 : ℚ) * 10 ^ 16 + 1 ≤ n := by exact_mod_cast Nat.not_le.1 hlarge
    have hsum : (10 : ℚ) ^ 16 / n + 1 / (2 * n) ≤ 1 / 2 := by
      rw [div_add_div _ _ hn'.ne' (by positivity), div_le_div_iff₀ (by positivity) (by norm_num)]
      nlinarith
    linarith
  · intro h
    rcases h.eq_or_lt with rfl | hlt
    · exact reciprocalUnits_half.ge
    · have hgap : (n : ℚ) + 1 ≤ 2 * 10 ^ 16 := by exact_mod_cast hlt
      have hdiff : 1 / 2 ≤ (10 : ℚ) ^ 16 / n - 1 / (2 * n) := by
        rw [div_sub_div _ _ hn'.ne' (by positivity), div_le_div_iff₀ (by norm_num) (by positivity)]
        nlinarith
      linarith

/-- A reciprocal is positive and plausible, whatever the stored rate is. -/
theorem reciprocal_plausible {n : ℕ} (hn : 0 < n) : 0 < div 1 (n / 10 ^ 8) ∧ div 1 (n / 10 ^ 8) ≤ maxRate := by
  have hn1 : (1 : ℚ) ≤ n := by exact_mod_cast hn
  have hn' : (0 : ℚ) < n := by linarith
  obtain ⟨hlow, hhigh⟩ := abs_lt.1 (abs_reciprocalUnits_sub hn)
  push_cast at hlow hhigh
  have hdiff : 0 < (10 : ℚ) ^ 16 / n - 1 / (2 * n) := by
    rw [div_sub_div _ _ hn'.ne' (by positivity)]
    apply div_pos _ (by positivity)
    linarith
  have hsum : (10 : ℚ) ^ 16 / n + 1 / (2 * n) ≤ 10 ^ 16 + 1 := by
    have hwhole : (10 : ℚ) ^ 16 / n ≤ 10 ^ 16 := div_le_self (by norm_num) hn1
    have hpart : (1 : ℚ) / (2 * n) ≤ 1 := div_le_self (by norm_num) (by linarith)
    linarith
  have hunits : div 1 (n / 10 ^ 8) * 10 ^ 8 = reciprocalUnits n := rfl
  unfold maxRate
  constructor <;> linarith

/-- The reciprocal of a stored rate is within half of the eighth decimal, or refused as zero. -/
theorem normalizeRate_reciprocal {v : ℚ} (h : normalizeRate v = .ok v) :
    (v ≤ maxInvertible → ∃ r, normalizeRate (div 1 v) = .ok r ∧ 0 < r ∧ |r - 1 / v| ≤ 1 / 2 / 10 ^ 8) ∧
      (maxInvertible < v → ∀ r, normalizeRate (div 1 v) ≠ .ok r) := by
  obtain ⟨n, hn, rfl⟩ := stored_units h
  have hn' : (0 : ℚ) < n := by exact_mod_cast hn
  obtain ⟨hpos, hmax⟩ := reciprocal_plausible hn
  have hstored : roundHalfUp 8 (div 1 (n / 10 ^ 8)) = ⌊reciprocalUnits n + 1 / 2⌋ / 10 ^ 8 := roundHalfUp_of_nonneg hpos.le
  have hpositive : 0 < roundHalfUp 8 (div 1 (n / 10 ^ 8)) ↔ (n / 10 ^ 8 : ℚ) ≤ maxInvertible := by
    have hle : (n / 10 ^ 8 : ℚ) ≤ maxInvertible ↔ n ≤ 2 * 10 ^ 16 := by
      rw [div_le_iff₀ (by norm_num)]
      norm_num [maxInvertible]
    rw [hle, ← floor_reciprocalUnits_pos_iff hn, hstored, div_pos_iff_of_pos_right (by norm_num), Int.cast_pos]
  constructor
  · intro hle
    refine ⟨_, normalizeRate_eq_ok.2 ⟨hpos, hmax, hpositive.2 hle, rfl⟩, hpositive.2 hle, ?_⟩
    have hround := abs_floor_half_sub_le hn (abs_reciprocalUnits_sub hn)
    have hscaled : roundHalfUp 8 (div 1 (n / 10 ^ 8)) - 1 / (n / 10 ^ 8) =
        (⌊reciprocalUnits n + 1 / 2⌋ - (10 ^ 16 : ℤ) / n) / 10 ^ 8 := by
      rw [hstored]
      push_cast
      field_simp
      norm_num
    rw [hscaled, abs_div, abs_of_pos (by norm_num : (0 : ℚ) < 10 ^ 8)]
    gcongr
  · intro hlarge r hr
    obtain ⟨-, -, hround, -⟩ := normalizeRate_eq_ok.1 hr
    exact hlarge.not_ge (hpositive.1 hround)

/-! ## What a document finds -/

namespace RateStore

/-- What `resolve_document_rate` is to answer for a pair on a date. -/
structure ResolvesRate (s : RateStore) (db : Db) (currency base : CurrencyCode) (onDate : Date) : Prop where
  /-- The newest row of the pair is taken as it is. -/
  direct : ∀ id row, s.IsNewest currency base onDate id row → s.resolve db currency base onDate = .ok (some row.rate.val)
  /-- Without one, the newest row of the inverse pair is divided into 1. -/
  inverse : s.Uncovered currency base onDate → ∀ id row, s.IsNewest base currency onDate id row →
    ∃ r, s.resolve db currency base onDate = .ok (some r) ∧ 0 < r ∧ |r - 1 / row.rate.val| ≤ 1 / 2 / 10 ^ 8
  missing : s.resolve db currency base onDate = .ok none ↔
    s.Uncovered currency base onDate ∧ s.Uncovered base currency onDate
  /-- It does not raise. -/
  total : ∃ r, s.resolve db currency base onDate = .ok r

theorem rate_pos {s : RateStore} {source target : CurrencyCode} {onDate : Date} {id : ℕ} {row : CurrencyRate}
    (h : s.IsNewest source target onDate id row) : 0 < row.rate.val :=
  (normalizeRate_eq_ok.1 (s.accepted id row h.stored)).1

theorem filter_positive {row : CurrencyRate} (h : 0 < row.rate.val) :
    (some row).filter (fun r => decide (0 < r.rate.val)) = some row := by
  simp [Option.filter, h]

theorem resolve_of_direct {s : RateStore} (db : Db) {currency base : CurrencyCode} {onDate : Date} {id : ℕ}
    {row : CurrencyRate} (hne : currency ≠ base) (h : s.IsNewest currency base onDate id row) :
    s.resolve db currency base onDate = .ok (some row.rate.val) := by
  have hkept := filter_positive (rate_pos h)
  have haccepted := s.accepted id row h.stored
  unfold resolve resolveDocumentRate
  rw [if_neg hne, latestApproved_eq_some h, hkept]
  simp [haccepted]

theorem resolve_of_inverse {s : RateStore} (db : Db) {currency base : CurrencyCode} {onDate : Date} {id : ℕ}
    {row : CurrencyRate} (hne : currency ≠ base) (hdirect : s.Uncovered currency base onDate)
    (h : s.IsNewest base currency onDate id row) :
    s.resolve db currency base onDate = some <$> normalizeRate (div 1 row.rate.val) := by
  have hkept := filter_positive (rate_pos h)
  unfold resolve resolveDocumentRate
  rw [if_neg hne, latestApproved_eq_none.2 hdirect, latestApproved_eq_some h, hkept]
  rfl

theorem resolve_of_uncovered {s : RateStore} (db : Db) {currency base : CurrencyCode} {onDate : Date}
    (hne : currency ≠ base) (hdirect : s.Uncovered currency base onDate) (hinverse : s.Uncovered base currency onDate) :
    s.resolve db currency base onDate = .ok none := by
  unfold resolve resolveDocumentRate
  rw [if_neg hne, latestApproved_eq_none.2 hdirect, latestApproved_eq_none.2 hinverse]
  rfl

theorem uncovered_or_newest (s : RateStore) (source target : CurrencyCode) (onDate : Date) :
    s.Uncovered source target onDate ∨ ∃ id row, s.IsNewest source target onDate id row := by
  cases hlatest : latestApproved { Db.fresh source with currencyRates := s.rates } source target onDate with
  | none => exact .inl (latestApproved_eq_none.1 hlatest)
  | some row =>
    obtain ⟨id, h⟩ := isNewest_of_latestApproved hlatest
    exact .inr ⟨id, row, h⟩

theorem IsNewest.covered {s : RateStore} {source target : CurrencyCode} {onDate : Date} {id : ℕ} {row : CurrencyRate}
    (h : s.IsNewest source target onDate id row) : ¬s.Uncovered source target onDate :=
  fun hnone => hnone id row h.stored h.covers

/-- **A document finds its rate unless only an inverse rate is left that is too large to be inverted.** -/
theorem resolves_iff (s : RateStore) (db : Db) (currency base : CurrencyCode) (onDate : Date) (hne : currency ≠ base) :
    s.ResolvesRate db currency base onDate ↔
      (s.Uncovered currency base onDate → ∀ id row, s.IsNewest base currency onDate id row →
        row.rate.val ≤ maxInvertible) := by
  constructor
  · intro h hdirect id row hrow
    obtain ⟨r, hr, -, -⟩ := h.inverse hdirect id row hrow
    rw [resolve_of_inverse db hne hdirect hrow, map_eq_ok] at hr
    obtain ⟨q, hq, -⟩ := hr
    by_contra hlarge
    exact (normalizeRate_reciprocal (s.accepted id row hrow.stored)).2 (not_le.1 hlarge) q hq
  · intro hsmall
    rcases s.uncovered_or_newest currency base onDate with hdirect | ⟨id, row, hrow⟩
    · rcases s.uncovered_or_newest base currency onDate with hinverse | ⟨id, row, hrow⟩
      · have hnone := resolve_of_uncovered db hne hdirect hinverse
        exact ⟨fun id row hrow => absurd hdirect hrow.covered, fun _ id row hrow => absurd hinverse hrow.covered,
          iff_of_true hnone ⟨hdirect, hinverse⟩, _, hnone⟩
      · obtain ⟨r, hr, hpos, hnear⟩ :=
          (normalizeRate_reciprocal (s.accepted id row hrow.stored)).1 (hsmall hdirect id row hrow)
        have hsome : s.resolve db currency base onDate = .ok (some r) := by
          rw [resolve_of_inverse db hne hdirect hrow, hr]
          rfl
        refine ⟨fun id row hrow => absurd hdirect hrow.covered, fun _ id' row' hrow' => ?_, ?_, _, hsome⟩
        · rw [← hrow.unique hrow']
          exact ⟨r, hsome, hpos, hnear⟩
        · rw [hsome]
          exact iff_of_false (by simp) fun h => hrow.covered h.2
    · have hsome := resolve_of_direct db hne hrow
      refine ⟨fun id' row' hrow' => ?_, fun hnone => absurd hnone hrow.covered, ?_, _, hsome⟩
      · rw [← hrow.unique hrow']
        exact hsome
      · rw [hsome]
        exact iff_of_false (by simp) fun h => hrow.covered h.1

theorem resolves_four_thousand :
    ∃ s, RateStore.empty.create ⟨"USD", "khr ", some (some 4000), some january31, ""⟩ = .ok s ∧
      s.ResolvesRate (Db.fresh usd) khr usd january31 := by
  obtain ⟨s, hs, hsmall⟩ := okAnd_eq_true.1 (by decide +kernel :
    okAnd (RateStore.empty.create ⟨"USD", "khr ", some (some 4000), some january31, ""⟩)
      (fun s => ∀ r ∈ s.rates.rows, r.2.rate.val ≤ maxInvertible) = true)
  refine ⟨s, hs, (resolves_iff s (Db.fresh usd) khr usd january31 (by decide)).2 fun _ id row hrow => ?_⟩
  exact hsmall (id, row) (Table.get?_eq_some.1 hrow.stored)

/-- One US dollar for a billion riels is accepted, and a document in riels then fails. -/
theorem billion_not_inverted :
    ∃ s, RateStore.empty.create ⟨"USD", "KHR", some (some 1000000000), some january31, "APPROVED"⟩ = .ok s ∧
      ¬s.ResolvesRate (Db.fresh usd) khr usd january31 := by
  obtain ⟨s, hs, hfails⟩ := okAnd_eq_true.1 (by decide +kernel :
    okAnd (RateStore.empty.create ⟨"USD", "KHR", some (some 1000000000), some january31, "APPROVED"⟩)
      (fun s => (s.resolve (Db.fresh usd) khr usd january31).isOk = false) = true)
  refine ⟨s, hs, fun h => ?_⟩
  obtain ⟨r, hr⟩ := h.total
  rw [hr] at hfails
  cases hfails

end RateStore

end LcsSystem
