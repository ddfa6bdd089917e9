import LcsSystem.Lib.Context
import LcsSystem.Lib.Double

/-!
# Decimals as digits and an exponent

`Decimal.normalize` of the default context: the number is rounded to 28 significant digits, and not below the least
exponent; beyond the greatest one it overflows; then the zeros at its end are taken off. A signed zero is zero here.

* `places_normalize_le`: the digits after the point of the result, counted on the rounded number;
* `scaled_rounded_iff`: the rounded number has `p` decimals where such a number is within half a unit of the last kept
  digit;
* `normalize_eq_none`: where it overflows.
-/

namespace DecimalArith

/-! ## Ties to even -/

theorem roundHalfEven_of_even {y : ℚ} {k : ℤ} (hk : Even k) (h : |y - k| ≤ 1 / 2) : roundHalfEven y = k := by
  rw [abs_le] at h
  rcases le_or_gt (k : ℚ) y with hle | hlt
  · have hfloor : ⌊y⌋ = k := Int.floor_eq_iff.2 ⟨hle, by linarith⟩
    have heven : ⌊y⌋ % 2 = 0 := by rw [hfloor]; exact Int.even_iff.1 hk
    unfold roundHalfEven
    rw [if_pos heven, hfloor]
    split_ifs with h1 h2
    · rfl
    · linarith
    · rfl
  · have hfloor : ⌊y⌋ = k - 1 := Int.floor_eq_iff.2 ⟨by push_cast; linarith, by push_cast; linarith⟩
    have hodd : ¬⌊y⌋ % 2 = 0 := by
      rw [hfloor]
      have := Int.even_iff.1 hk
      omega
    have hcast : ((k - 1 : ℤ) : ℚ) = k - 1 := by push_cast; rfl
    unfold roundHalfEven
    rw [if_neg hodd, hfloor, hcast]
    split_ifs with h1 h2
    · linarith
    · omega
    · omega

theorem le_roundHalfEven_iff {y : ℚ} {k : ℤ} (hk : Even k) : k ≤ roundHalfEven y ↔ k - 1 / 2 ≤ y := by
  have herror := abs_le.1 (abs_roundHalfEven_sub_le y)
  constructor
  · intro h
    have : (k : ℚ) ≤ roundHalfEven y := by exact_mod_cast h
    linarith
  · intro h
    rcases le_or_gt y (k + 1 / 2) with hle | hlt
    · rw [roundHalfEven_of_even hk (abs_le.2 ⟨by linarith, by linarith⟩)]
    · have hfloor : k ≤ ⌊y⌋ := Int.le_floor.2 (by linarith)
      exact hfloor.trans (floor_le_roundHalfEven y)

theorem roundHalfEven_le_iff {y : ℚ} {k : ℤ} (hk : Even k) : roundHalfEven y ≤ k ↔ y ≤ k + 1 / 2 := by
  have herror := abs_le.1 (abs_roundHalfEven_sub_le y)
  constructor
  · intro h
    have : (roundHalfEven y : ℚ) ≤ k := by exact_mod_cast h
    linarith
  · intro h
    rcases le_or_gt (k - 1 / 2 : ℚ) y with hle | hlt
    · rw [roundHalfEven_of_even hk (abs_le.2 ⟨by linarith, by linarith⟩)]
    · have hfloor : ⌊y⌋ < k := Int.floor_lt.2 (by linarith)
      exact (roundHalfEven_le_floor_add_one y).trans (by omega)

theorem le_abs_roundHalfEven_iff {y : ℚ} {k : ℤ} (hk : Even k) : k ≤ |roundHalfEven y| ↔ k - 1 / 2 ≤ |y| := by
  have hneg := roundHalfEven_le_iff (y := y) hk.neg
  push_cast at hneg
  rw [le_abs', le_abs', le_roundHalfEven_iff hk, hneg]
  constructor
  · exact Or.imp_left fun h => by linarith
  · exact Or.imp_left fun h => by linarith

/-! ## Decimals -/

/-- A coefficient with its sign, and the exponent of its last digit. -/
structure Decimal where
  coefficient : ℤ
  exponent : ℤ
  deriving DecidableEq

/-- `Emax` and `Emin` of the default context, and `Etiny`. -/
def maxExponent : ℤ := 999999
def minExponent : ℤ := -999999
def tinyExponent : ℤ := minExponent - (contextPrecision - 1)

def trailingZeros (n : ℕ) : ℕ := Nat.findGreatest (fun k => 10 ^ k ∣ n) (Nat.log 10 n)

namespace Decimal

def value (d : Decimal) : ℚ := d.coefficient * 10 ^ d.exponent

/-- The exponent of the first digit. -/
def adjusted (d : Decimal) : ℤ := d.exponent + Nat.log 10 d.coefficient.natAbs

/-- The exponent of the last digit that the context keeps. -/
def lastExponent (d : Decimal) : ℤ := max (d.adjusted - (contextPrecision - 1)) tinyExponent

def rounded (d : Decimal) : Decimal :=
  if d.lastExponent ≤ d.exponent then d
  else ⟨roundHalfEven (d.coefficient / 10 ^ (d.lastExponent - d.exponent)), d.lastExponent⟩

/-- `normalize`, and nothing for an overflow. -/
def normalize (d : Decimal) : Option Decimal :=
  let r := d.rounded
  if r.coefficient = 0 then some ⟨0, 0⟩
  else if maxExponent < r.adjusted then none
  else
    let shift := min (trailingZeros r.coefficient.natAbs) (maxExponent - r.exponent).toNat
    some ⟨r.coefficient / 10 ^ shift, r.exponent + shift⟩

/-- `max(0, -exponent)`. -/
def places (d : Decimal) : ℕ := (-d.exponent).toNat

end Decimal

/-! ## Zeros at the end -/

theorem pow_dvd_iff_le_trailingZeros {n k : ℕ} (hn : n ≠ 0) : 10 ^ k ∣ n ↔ k ≤ trailingZeros n := by
  constructor
  · intro h
    exact Nat.le_findGreatest (Nat.le_log_of_pow_le (by norm_num) (Nat.le_of_dvd (Nat.pos_of_ne_zero hn) h)) h
  · intro h
    have hzeros : 10 ^ trailingZeros n ∣ n :=
      Nat.findGreatest_spec (P := fun k => 10 ^ k ∣ n) (Nat.zero_le _) (by simp)
    exact (pow_dvd_pow 10 h).trans hzeros

namespace Decimal
variable {d : Decimal} {p : ℕ}

theorem ten_zpow_pos (e : ℤ) : (0 : ℚ) < 10 ^ e := by positivity

/-- A decimal has `p` decimals where the zeros at its end reach them. -/
theorem scaled_value_iff (h : d.coefficient ≠ 0) :
    Scaled p d.value ↔ -(p : ℤ) ≤ d.exponent + trailingZeros d.coefficient.natAbs := by
  have hvalue : d.value * 10 ^ p = d.coefficient * 10 ^ (d.exponent + p) := by
    rw [value, mul_assoc, ← zpow_natCast, ← zpow_add₀ (by norm_num)]
  rw [scaled_iff, hvalue]
  rcases le_or_gt 0 (d.exponent + p) with hle | hlt
  · obtain ⟨k, hk⟩ := Int.eq_ofNat_of_zero_le hle
    refine iff_of_true ⟨d.coefficient * 10 ^ k, ?_⟩ (by omega)
    rw [hk]
    push_cast
    rw [zpow_natCast]
  · obtain ⟨k, hk⟩ := Int.eq_ofNat_of_zero_le (show 0 ≤ -(d.exponent + p) by omega)
    have hexp : d.exponent + p = -(k : ℤ) := by omega
    have hdvd : (∃ n : ℤ, (d.coefficient : ℚ) * 10 ^ (-(k : ℤ)) = n) ↔ (10 ^ k : ℤ) ∣ d.coefficient := by
      constructor
      · rintro ⟨n, hn⟩
        refine ⟨n, ?_⟩
        rw [zpow_neg, zpow_natCast, ← div_eq_mul_inv, div_eq_iff (by positivity), mul_comm] at hn
        exact_mod_cast hn
      · rintro ⟨n, hn⟩
        refine ⟨n, ?_⟩
        rw [hn, zpow_neg, zpow_natCast]
        push_cast
        rw [mul_comm _ (n : ℚ), mul_assoc, mul_inv_cancel₀ (by positivity), mul_one]
    rw [hexp, hdvd, ← Int.natAbs_dvd_natAbs, Int.natAbs_pow]
    have := pow_dvd_iff_le_trailingZeros (k := k) (Int.natAbs_ne_zero.2 h)
    rw [show Int.natAbs 10 = 10 from rfl, this]
    omega

/-! ## Rounding -/

theorem rounded_value (d : Decimal) :
    d.rounded.value = roundHalfEven (d.value / 10 ^ d.lastExponent) * 10 ^ d.lastExponent := by
  have hvalue : d.value / 10 ^ d.lastExponent = d.coefficient * 10 ^ (d.exponent - d.lastExponent) := by
    rw [value, zpow_sub₀ (by norm_num), mul_div_assoc]
  rw [hvalue, rounded]
  split
  next h =>
    obtain ⟨k, hk⟩ := Int.eq_ofNat_of_zero_le (sub_nonneg.2 h)
    have hunits : (d.coefficient : ℚ) * 10 ^ (d.exponent - d.lastExponent) = ((d.coefficient * 10 ^ k : ℤ) : ℚ) := by
      rw [hk]
      push_cast
      rw [zpow_natCast]
    rw [hunits, roundHalfEven_intCast, ← hunits, mul_assoc, ← zpow_add₀ (by norm_num), sub_add_cancel, value]
  next h =>
    have hunits : (d.coefficient : ℚ) / 10 ^ (d.lastExponent - d.exponent) =
        d.coefficient * 10 ^ (d.exponent - d.lastExponent) := by
      rw [div_eq_mul_inv, ← zpow_neg, neg_sub]
    simp only [value, hunits]

/-- **A rounded number has `p` decimals** where a number with `p` decimals is within half a unit of the last kept digit. -/
theorem scaled_rounded_iff : Scaled p d.rounded.value ↔ ∃ m : ℤ, |d.value - m / 10 ^ p| ≤ 10 ^ d.lastExponent / 2 := by
  have hpos := ten_zpow_pos d.lastExponent
  have hp := (pow_scale_pos p).ne'
  have herror := abs_roundHalfEven_sub_le (d.value / 10 ^ d.lastExponent)
  have hscaled : ∀ y : ℚ, |d.value - y * 10 ^ d.lastExponent| = |d.value / 10 ^ d.lastExponent - y| * 10 ^ d.lastExponent := by
    intro y
    rw [← abs_of_pos hpos, ← abs_mul, abs_of_pos hpos, sub_mul, div_mul_cancel₀ _ hpos.ne']
  rw [rounded_value]
  constructor
  · intro h
    obtain ⟨m, hm⟩ := scaled_iff.1 h
    refine ⟨m, ?_⟩
    rw [← hm, mul_div_cancel_right₀ _ hp, hscaled, abs_sub_comm]
    linarith [mul_le_mul_of_nonneg_right herror hpos.le]
  · rintro ⟨m, hm⟩
    rcases le_or_gt (-(p : ℤ)) d.lastExponent with hle | hlt
    · -- The last kept digit is not beyond the decimals.
      obtain ⟨k, hk⟩ := Int.eq_ofNat_of_zero_le (show 0 ≤ d.lastExponent + p by omega)
      refine scaled_iff.2 ⟨roundHalfEven (d.value / 10 ^ d.lastExponent) * 10 ^ k, ?_⟩
      push_cast
      rw [mul_assoc, ← zpow_natCast (10 : ℚ) p, ← zpow_add₀ (by norm_num), hk, zpow_natCast]
    · -- In units of the last kept digit the near number is even, and wins a tie.
      obtain ⟨k, hk⟩ := Int.eq_ofNat_of_zero_le (show 0 ≤ -(p : ℤ) - d.lastExponent - 1 by omega)
      have hunits : (m : ℚ) / 10 ^ p = ((m * 10 ^ (k + 1) : ℤ) : ℚ) * 10 ^ d.lastExponent := by
        have hexp : ((k + 1 : ℕ) : ℤ) + d.lastExponent = -(p : ℤ) := by omega
        push_cast
        rw [mul_assoc, ← zpow_natCast (10 : ℚ) (k + 1), ← zpow_add₀ (by norm_num), hexp, zpow_neg, zpow_natCast,
          div_eq_mul_inv]
      have heven : Even (m * 10 ^ (k + 1)) := by
        rw [pow_succ]
        exact ((show Even (10 : ℤ) by decide).mul_left _).mul_left _
      rw [hunits, hscaled] at hm
      have hnear : |d.value / 10 ^ d.lastExponent - ((m * 10 ^ (k + 1) : ℤ) : ℚ)| ≤ 1 / 2 := by
        have : |d.value / 10 ^ d.lastExponent - ((m * 10 ^ (k + 1) : ℤ) : ℚ)| * 10 ^ d.lastExponent ≤
            1 / 2 * 10 ^ d.lastExponent := by linarith
        exact le_of_mul_le_mul_right this hpos
      rw [roundHalfEven_of_even heven hnear, ← hunits]
      exact scaled_iff.2 ⟨m, div_mul_cancel₀ _ hp⟩

/-! ## The result -/

theorem log_value (h : d.coefficient ≠ 0) : Int.log 10 |d.value| = d.adjusted := by
  have hpos := ten_zpow_pos d.exponent
  have hnat : d.coefficient.natAbs ≠ 0 := Int.natAbs_ne_zero.2 h
  have hvalue : |d.value| = d.coefficient.natAbs * 10 ^ d.exponent := by
    rw [value, abs_mul, abs_of_pos hpos, Nat.cast_natAbs, Int.cast_abs]
  have hvalue_pos : 0 < |d.value| := by
    rw [hvalue]
    have : (0 : ℚ) < d.coefficient.natAbs := by exact_mod_cast Nat.pos_of_ne_zero hnat
    positivity
  have hlow : (10 : ℚ) ^ Nat.log 10 d.coefficient.natAbs ≤ d.coefficient.natAbs := by
    exact_mod_cast Nat.pow_log_le_self 10 hnat
  have hhigh : (d.coefficient.natAbs : ℚ) < 10 ^ (Nat.log 10 d.coefficient.natAbs + 1) := by
    exact_mod_cast Nat.lt_pow_succ_log_self (by norm_num) d.coefficient.natAbs
  refine le_antisymm (Int.lt_add_one_iff.1 ?_) ?_
  · rw [← Int.lt_zpow_iff_log_lt (by norm_num) hvalue_pos, hvalue, adjusted, add_assoc, add_comm, zpow_add₀ (by norm_num)]
    exact_mod_cast mul_lt_mul_of_pos_right hhigh hpos
  · rw [← Int.zpow_le_iff_le_log (by norm_num) hvalue_pos, hvalue, adjusted, add_comm, zpow_add₀ (by norm_num)]
    exact_mod_cast mul_le_mul_of_nonneg_right hlow hpos.le

theorem zpow_le_iff_le_adjusted (h : d.coefficient ≠ 0) {e : ℤ} : (10 : ℚ) ^ e ≤ |d.value| ↔ e ≤ d.adjusted := by
  have hpos : 0 < |d.value| := abs_pos.2 (mul_ne_zero (by exact_mod_cast h) (ten_zpow_pos _).ne')
  rw [← log_value h, ← Int.zpow_le_iff_le_log (by norm_num) hpos]
  norm_num

/-- The digits after the point that are left. -/
theorem places_normalize_le {m : Decimal} (h : d.normalize = some m) : m.places ≤ p ↔ Scaled p d.rounded.value := by
  simp only [normalize] at h
  split at h
  next hzero =>
    obtain rfl := Option.some.inj h
    rw [value, hzero]
    simp [places]
  next hne =>
    split at h
    · cases h
    next hle =>
      obtain rfl := Option.some.inj h
      have hexponent : d.rounded.exponent ≤ maxExponent := by
        have : d.rounded.exponent ≤ d.rounded.adjusted := by simp [adjusted]
        omega
      have hmax : 0 ≤ maxExponent := by decide
      rw [scaled_value_iff hne]
      simp only [places]
      omega

/-! ## Overflow -/

/-- What is rounded up to a number beyond the greatest exponent. -/
def overflowBound : ℚ := (10 ^ 28 - 1 / 2) * 10 ^ (maxExponent - 27)

theorem normalize_eq_none_iff_rounded : d.normalize = none ↔ 10 ^ (maxExponent + 1) ≤ |d.rounded.value| := by
  have hpos := ten_zpow_pos (maxExponent + 1)
  simp only [normalize]
  split
  next hzero =>
    have hvalue : d.rounded.value = 0 := by rw [value, hzero, Int.cast_zero, zero_mul]
    rw [hvalue, abs_zero]
    exact iff_of_false (Option.some_ne_none _) (not_le.2 hpos)
  next hne =>
    rw [zpow_le_iff_le_adjusted hne]
    split
    next h => exact iff_of_true rfl h
    next h => exact iff_of_false (Option.some_ne_none _) h

/-- Where the last kept digit is not beyond the greatest exponent, the bound is half of its unit lower. -/
theorem le_rounded_iff (h : d.lastExponent ≤ maxExponent) :
    10 ^ (maxExponent + 1) ≤ |d.rounded.value| ↔ (10 : ℚ) ^ (maxExponent + 1) - 10 ^ d.lastExponent / 2 ≤ |d.value| := by
  have hpos := ten_zpow_pos d.lastExponent
  obtain ⟨k, hk⟩ := Int.eq_ofNat_of_zero_le (sub_nonneg.2 h)
  have hbound : (10 : ℚ) ^ (maxExponent + 1) = ((10 ^ (k + 1) : ℤ) : ℚ) * 10 ^ d.lastExponent := by
    have hexp : maxExponent + 1 = ((k + 1 : ℕ) : ℤ) + d.lastExponent := by omega
    rw [hexp, zpow_add₀ (by norm_num), zpow_natCast]
    push_cast
    rfl
  have heven : Even (10 ^ (k + 1) : ℤ) := by
    rw [pow_succ]
    exact (show Even (10 : ℤ) by decide).mul_left _
  have habs : |d.value| = |d.value / 10 ^ d.lastExponent| * 10 ^ d.lastExponent := by
    rw [← abs_of_pos hpos, ← abs_mul, abs_of_pos hpos, div_mul_cancel₀ _ hpos.ne']
  have hsub : ((10 ^ (k + 1) : ℤ) : ℚ) * 10 ^ d.lastExponent - 10 ^ d.lastExponent / 2 =
      (((10 ^ (k + 1) : ℤ) : ℚ) - 1 / 2) * 10 ^ d.lastExponent := by ring
  rw [rounded_value, abs_mul, abs_of_pos hpos, hbound, habs, hsub, mul_le_mul_iff_left₀ hpos, mul_le_mul_iff_left₀ hpos,
    ← le_abs_roundHalfEven_iff heven, ← Int.cast_abs, Int.cast_le]

/-- **A number overflows** from half a unit below the power of ten that is out of range. -/
theorem normalize_eq_none : d.normalize = none ↔ overflowBound ≤ |d.value| := by
  have hmax := ten_zpow_pos maxExponent
  have hnext : (10 : ℚ) ^ (maxExponent + 1) = 10 * 10 ^ maxExponent := by rw [zpow_add₀ (by norm_num), zpow_one, mul_comm]
  have h27 : (10 : ℚ) ^ (27 : ℤ) = 10 ^ 27 := zpow_natCast 10 27
  have hlast : (10 : ℚ) ^ (maxExponent - 27) = 10 ^ maxExponent / 10 ^ 27 := by
    rw [zpow_sub₀ (by norm_num), h27]
  have hbound : overflowBound = 10 ^ (maxExponent + 1) - 10 ^ (maxExponent - 27) / 2 := by
    rw [overflowBound, hnext, hlast]
    ring
  have hrange : tinyExponent ≤ maxExponent - 28 := by decide
  rw [normalize_eq_none_iff_rounded]
  by_cases hzero : d.coefficient = 0
  · have hvalue : d.value = 0 := by rw [value, hzero, Int.cast_zero, zero_mul]
    have hrounded : d.rounded.value = 0 := by
      rw [rounded_value, hvalue, zero_div]
      simp [roundHalfEven]
    rw [hvalue, hrounded, abs_zero, hbound, hlast, hnext]
    refine iff_of_false (not_le.2 (by positivity)) (not_le.2 ?_)
    linarith [div_le_self hmax.le (show (1 : ℚ) ≤ 10 ^ 27 by norm_num)]
  have hlow : (10 : ℚ) ^ d.adjusted ≤ |d.value| := (zpow_le_iff_le_adjusted hzero).2 le_rfl
  have hhigh : |d.value| < (10 : ℚ) ^ (d.adjusted + 1) :=
    not_le.1 fun h => absurd ((zpow_le_iff_le_adjusted hzero).1 h) (by omega)
  have hmono : ∀ {a b : ℤ}, a ≤ b → (10 : ℚ) ^ a ≤ 10 ^ b := fun h => zpow_le_zpow_right₀ (by norm_num) h
  rcases lt_trichotomy d.adjusted maxExponent with hlt | heq | hgt
  · -- Below the last power of ten nothing is rounded beyond it.
    have hlastExp : d.lastExponent ≤ maxExponent := by
      simp only [lastExponent, contextPrecision]
      omega
    have hsmall : |d.value| < 10 ^ maxExponent := hhigh.trans_le (hmono (by omega))
    have hunit := hmono hlastExp
    rw [le_rounded_iff hlastExp, hbound, hlast, hnext]
    refine iff_of_false (not_le.2 (by linarith)) (not_le.2 ?_)
    linarith [div_le_self hmax.le (show (1 : ℚ) ≤ 10 ^ 27 by norm_num)]
  · have hlastExp : d.lastExponent = maxExponent - 27 := by
      simp only [lastExponent, contextPrecision]
      omega
    rw [le_rounded_iff (by omega), hlastExp, hbound]
  · have hlarge : 10 ^ (maxExponent + 1) ≤ |d.value| := (hmono (by omega)).trans hlow
    refine iff_of_true ?_ ?_
    · -- The first digit stays where it is.
      have hlastExp : d.lastExponent = d.adjusted - 27 := by
        simp only [lastExponent, contextPrecision]
        omega
      have hpos := ten_zpow_pos d.lastExponent
      have hfirst : (10 : ℚ) ^ d.adjusted = ((10 ^ 27 : ℤ) : ℚ) * 10 ^ d.lastExponent := by
        have hexp : d.adjusted = 27 + d.lastExponent := by omega
        rw [hexp, zpow_add₀ (by norm_num), h27, Int.cast_pow, Int.cast_ofNat]
      have hcoefficient : (10 ^ 27 : ℤ) ≤ |roundHalfEven (d.value / 10 ^ d.lastExponent)| := by
        rw [le_abs_roundHalfEven_iff (by decide), abs_div, abs_of_pos hpos, le_div_iff₀ hpos]
        rw [hfirst] at hlow
        refine le_trans ?_ hlow
        exact mul_le_mul_of_nonneg_right (by linarith) hpos.le
      have hcast : ((10 ^ 27 : ℤ) : ℚ) ≤ |(roundHalfEven (d.value / 10 ^ d.lastExponent) : ℚ)| := by exact_mod_cast hcoefficient
      rw [rounded_value, abs_mul, abs_of_pos hpos]
      calc (10 : ℚ) ^ (maxExponent + 1) ≤ 10 ^ d.adjusted := hmono (by omega)
        _ = ((10 ^ 27 : ℤ) : ℚ) * 10 ^ d.lastExponent := hfirst
        _ ≤ _ := mul_le_mul_of_nonneg_right hcast hpos.le
    · rw [hbound]
      linarith [ten_zpow_pos (maxExponent - 27)]

/-- The check on values of the 28-digit context is the one on digits, within its exponents. -/
theorem usesAtMost_iff (htiny : tinyExponent ≤ d.adjusted - 27) : usesAtMost p d.value = true ↔ Scaled p d.rounded.value := by
  rw [usesAtMost, decide_eq_true_eq]
  by_cases hzero : d.coefficient = 0
  · have hvalue : d.value = 0 := by rw [value, hzero, Int.cast_zero, zero_mul]
    rw [rounded_value, hvalue, zero_div, context_zero]
    simp [roundHalfEven]
  · have hvalue : d.value ≠ 0 := mul_ne_zero (by exact_mod_cast hzero) (ten_zpow_pos _).ne'
    have hlast : lastPlace d.value = d.lastExponent := by
      simp only [lastPlace, log_value hzero, lastExponent, contextPrecision]
      omega
    rw [context_eq hvalue, hlast, rounded_value]

end Decimal
end DecimalArith
