import LcsSystem.Lib.Context

/-!
# Decimal numbers through a double

A number that is sent as JSON passes through a double: it is rounded to 53 significant bits, written as
the shortest decimal that reads back as the same double, and read again. `jsonNumber` is this on the
values of a decimal column, which are far from the ends of the exponent range.

`jsonNumber_of_scaled`: a value of at most 15 digits comes back as itself.
-/

namespace DecimalArith

/-! ## Significant digits -/

/-- `x` to `n` significant digits in base `b`, ties to even. -/
def roundSignificant (b n : ℕ) (x : ℚ) : ℚ :=
  if x = 0 then 0
  else
    let e := Int.log b |x| - (n - 1)
    roundHalfEven (x / (b : ℚ) ^ e) * (b : ℚ) ^ e

/-- The nearest double. -/
def double (x : ℚ) : ℚ := roundSignificant 2 53 x

/-- The weight of the last of `n` decimal digits of `x`. -/
def lastDigit (n : ℕ) (x : ℚ) : ℚ := 10 ^ (Int.log 10 |x| - (n - 1))

/-- Of the two decimals of `n` digits around `x`, the one that reads as the double `x`; of two, the closer. -/
def decimalOf (n : ℕ) (x : ℚ) : Option ℚ :=
  let d := ⌊x / lastDigit n x⌋
  let low := d * lastDigit n x
  let high := (d + 1) * lastDigit n x
  if double low = x then
    if double high = x ∧ (high - x < x - low ∨ high - x = x - low ∧ d % 2 = 1) then some high else some low
  else if double high = x then some high
  else none

/-- `repr` of a double: the fewest digits that read back; 17 always do. -/
def shortest (x : ℚ) : ℚ :=
  if x = 0 then 0 else ((List.range 17).findSome? fun n => decimalOf (n + 1) x).getD x

/-- A number after it was sent as JSON and read again. -/
def jsonNumber (x : ℚ) : ℚ := shortest (double x)

@[simp] theorem double_zero : double 0 = 0 := by
  simp [double, roundSignificant]

@[simp] theorem jsonNumber_zero : jsonNumber 0 = 0 := by simp [jsonNumber, shortest]

/-! ## The error of a rounding -/

theorem abs_roundHalfEven_sub_le (x : ℚ) : |(roundHalfEven x : ℚ) - x| ≤ 1 / 2 := by
  have hlow := Int.floor_le x
  have hhigh := Int.lt_floor_add_one x
  unfold roundHalfEven
  split
  · rw [abs_le]
    constructor <;> linarith
  · next h =>
    split
    · push_cast
      rw [abs_le]
      constructor <;> linarith
    · split
      · rw [abs_le]
        constructor <;> linarith
      · push_cast
        rw [abs_le]
        constructor <;> linarith

theorem abs_roundSignificant_sub_le {b n : ℕ} (hb : 1 < b) (hn : 0 < n) {x : ℚ} (h : 0 < x) :
    |roundSignificant b n x - x| ≤ x / (2 * (b : ℚ) ^ (n - 1)) := by
  have hb0 : (0 : ℚ) < b := by exact_mod_cast hb.trans' Nat.one_pos
  have hlog : (b : ℚ) ^ Int.log b x ≤ x := Int.zpow_log_le_self hb h
  have hexp : ((n : ℤ) - 1) = ((n - 1 : ℕ) : ℤ) := by omega
  have hweight : (b : ℚ) ^ (Int.log b x - (n - 1)) = (b : ℚ) ^ Int.log b x / (b : ℚ) ^ (n - 1) := by
    rw [zpow_sub₀ hb0.ne', hexp, zpow_natCast]
  have hround : roundSignificant b n x =
      roundHalfEven (x / (b : ℚ) ^ (Int.log b x - (n - 1))) * (b : ℚ) ^ (Int.log b x - (n - 1)) := by
    rw [roundSignificant, if_neg h.ne', abs_of_pos h]
  have hw : (0 : ℚ) < (b : ℚ) ^ (Int.log b x - (n - 1)) := by positivity
  rw [hround]
  generalize (b : ℚ) ^ (Int.log b x - (n - 1)) = w at hw hweight
  have herr := abs_roundHalfEven_sub_le (x / w)
  have hfactor : (roundHalfEven (x / w) : ℚ) * w - x = ((roundHalfEven (x / w) : ℚ) - x / w) * w := by
    field_simp
  rw [hfactor, abs_mul, abs_of_pos hw]
  calc |(roundHalfEven (x / w) : ℚ) - x / w| * w ≤ 1 / 2 * w := by gcongr
    _ = (b : ℚ) ^ Int.log b x / (2 * (b : ℚ) ^ (n - 1)) := by
      rw [hweight]
      field_simp
    _ ≤ x / (2 * (b : ℚ) ^ (n - 1)) := by gcongr

theorem abs_double_sub_le {x : ℚ} (h : 0 < x) : |double x - x| ≤ x / 2 ^ 53 := by
  have herr := abs_roundSignificant_sub_le (b := 2) (n := 53) (by norm_num) (by norm_num) h
  norm_num at herr ⊢
  exact herr

theorem context_eq_roundSignificant (x : ℚ) : context x = roundSignificant 10 28 x := by
  simp [context, roundSignificant, contextPrecision]

/-- The error of one operation of the context. -/
theorem abs_context_sub_le {x : ℚ} (h : 0 < x) : |context x - x| ≤ x / (2 * 10 ^ 27) := by
  rw [context_eq_roundSignificant]
  have herr := abs_roundSignificant_sub_le (b := 10) (n := 28) (by norm_num) (by norm_num) h
  norm_num at herr ⊢
  exact herr

theorem double_pos {x : ℚ} (h : 0 < x) : 0 < double x := by
  have herr := (abs_le.1 (abs_double_sub_le h)).1
  have hsmall : x / 2 ^ 53 < x := div_lt_self h (by norm_num)
  linarith

/-- What reads as the double `x` is so close to it that no two such values have 15 digits. -/
theorem abs_sub_lt_of_double {x y : ℚ} (hy : 0 < y) (h : double y = x) : |x - y| < x / (2 * 10 ^ 15) := by
  have herr := abs_double_sub_le hy
  rw [h] at herr
  have hy' := (abs_le.1 herr).1
  have hle : y ≤ x * 2 ^ 53 / (2 ^ 53 - 1) := by
    rw [le_div_iff₀ (by norm_num)]
    linarith
  have hx : 0 < x := h ▸ double_pos hy
  calc |x - y| ≤ y / 2 ^ 53 := herr
    _ ≤ x * 2 ^ 53 / (2 ^ 53 - 1) / 2 ^ 53 := by gcongr
    _ < x / (2 * 10 ^ 15) := by
      field_simp
      norm_num

/-! ## Decimals of 15 digits -/

/-- `x` is a whole number of units `w`. -/
def OnGrid (w x : ℚ) : Prop := ∃ k : ℤ, x = k * w

theorem OnGrid.eq_of_abs_sub_lt {w x y : ℚ} (hx : OnGrid w x) (hy : OnGrid w y) (h : |x - y| < w) : x = y := by
  obtain ⟨k, rfl⟩ := hx
  obtain ⟨l, rfl⟩ := hy
  have hw : 0 < w := (abs_nonneg _).trans_lt h
  rw [← sub_mul, abs_mul, abs_of_pos hw, mul_lt_iff_lt_one_left hw] at h
  have hkl : |k - l| < 1 := by exact_mod_cast h
  rw [Int.abs_lt_one_iff, sub_eq_zero] at hkl
  rw [hkl]

/-- A coarser grid of decimals is part of a finer one. -/
theorem OnGrid.of_le {a b : ℤ} {x : ℚ} (h : OnGrid (10 ^ b) x) (hab : a ≤ b) : OnGrid (10 ^ a) x := by
  obtain ⟨k, rfl⟩ := h
  refine ⟨k * 10 ^ (b - a).toNat, ?_⟩
  have hsplit : (10 : ℚ) ^ b = 10 ^ (b - a).toNat * 10 ^ a := by
    rw [← zpow_natCast, ← zpow_add₀ (by norm_num), Int.toNat_of_nonneg (by omega), sub_add_cancel]
  push_cast
  rw [hsplit, mul_assoc]

theorem lastDigit_pos (n : ℕ) (x : ℚ) : 0 < lastDigit n x := by
  unfold lastDigit
  positivity

theorem div_lt_lastDigit {x : ℚ} (hx : 0 < x) : x / 10 ^ 15 < lastDigit 15 x := by
  have hlt : x < (10 : ℚ) ^ (Int.log 10 x + 1) := by exact_mod_cast Int.lt_zpow_succ_log_self (by norm_num : 1 < 10) x
  have hsplit : (10 : ℚ) ^ (Int.log 10 x + 1) = lastDigit 15 x * 10 ^ 15 := by
    rw [lastDigit, abs_of_pos hx, ← zpow_natCast, ← zpow_add₀ (by norm_num)]
    congr 1
    push_cast
    ring
  rwa [div_lt_iff₀ (by norm_num), ← hsplit]

theorem decimalOf_spec {n : ℕ} {x c : ℚ} (hx : 0 < x) (h : decimalOf n x = some c) :
    0 < c ∧ double c = x ∧ OnGrid (lastDigit n x) c := by
  have hpos {d : ℤ} (hd : 0 ≤ d) (hdouble : double (d * lastDigit n x) = x) : 0 < d * lastDigit n x := by
    refine (mul_nonneg (by exact_mod_cast hd) (lastDigit_pos n x).le).lt_of_ne fun hzero => ?_
    rw [← hzero, double_zero] at hdouble
    exact hx.ne hdouble
  have hfloor : 0 ≤ ⌊x / lastDigit n x⌋ := Int.floor_nonneg.2 (div_pos hx (lastDigit_pos n x)).le
  have hnext : ((⌊x / lastDigit n x⌋ + 1 : ℤ) : ℚ) * lastDigit n x = (⌊x / lastDigit n x⌋ + 1) * lastDigit n x := by
    push_cast
    rfl
  have hceil : double ((⌊x / lastDigit n x⌋ + 1) * lastDigit n x) = x →
      0 < (⌊x / lastDigit n x⌋ + 1) * lastDigit n x := hnext ▸ hpos (by omega)
  simp only [decimalOf] at h
  split at h
  · next hlow =>
    split at h
    · next hhigh =>
      cases h
      exact ⟨hceil hhigh.1, hhigh.1, _, hnext.symm⟩
    · cases h
      exact ⟨hpos hfloor hlow, hlow, _, rfl⟩
  · split at h
    · next hhigh =>
      cases h
      exact ⟨hceil hhigh, hhigh, _, hnext.symm⟩
    · cases h

/-- A decimal of the grid that reads as `x` is one of the two that are tried. -/
theorem decimalOf_isSome {n : ℕ} {v x : ℚ} (hv : double v = x) (hgrid : OnGrid (lastDigit n x) v)
    (hnear : |x - v| < lastDigit n x) : (decimalOf n x).isSome := by
  have hw := lastDigit_pos n x
  obtain ⟨k, hk⟩ := hgrid
  have hfloor := (le_div_iff₀ hw).1 (Int.floor_le (x / lastDigit n x))
  have hceil := (div_lt_iff₀ hw).1 (Int.lt_floor_add_one (x / lastDigit n x))
  obtain ⟨hleft, hright⟩ := abs_lt.1 hnear
  have hlower : ((⌊x / lastDigit n x⌋ - 1 : ℤ) : ℚ) < k := by
    refine lt_of_mul_lt_mul_right ?_ hw.le
    push_cast
    linarith
  have hupper : (k : ℚ) < (⌊x / lastDigit n x⌋ + 2 : ℤ) := by
    refine lt_of_mul_lt_mul_right ?_ hw.le
    push_cast
    linarith
  rw [Int.cast_lt] at hlower hupper
  have hcases : k = ⌊x / lastDigit n x⌋ ∨ k = ⌊x / lastDigit n x⌋ + 1 := by omega
  rcases hcases with rfl | rfl
  · have hlow : double (⌊x / lastDigit n x⌋ * lastDigit n x) = x := hk ▸ hv
    simp only [decimalOf, hlow, if_true]
    split <;> rfl
  · have hhigh : double ((⌊x / lastDigit n x⌋ + 1) * lastDigit n x) = x := by
      rw [hk] at hv
      push_cast at hv
      exact hv
    simp only [decimalOf, hhigh, true_and, if_true]
    split
    · split <;> rfl
    · rfl

/-- `repr` finds `v`: what it tries before or instead has 15 digits too and reads as the same double. -/
theorem shortest_double {v : ℚ} (hv : 0 < v) (hgrid : OnGrid (lastDigit 15 (double v)) v) :
    shortest (double v) = v := by
  have hx := double_pos hv
  have hsmall := div_lt_lastDigit hx
  have hnear := abs_sub_lt_of_double hv rfl
  have hsome : (decimalOf 15 (double v)).isSome := by
    refine decimalOf_isSome rfl hgrid (hnear.trans (lt_of_le_of_lt ?_ hsmall))
    gcongr
    norm_num
  have hfound : ∃ c, (List.range 15).findSome? (fun n => decimalOf (n + 1) (double v)) = some c := by
    rw [← Option.isSome_iff_exists, List.findSome?_isSome_iff]
    exact ⟨14, by simp, hsome⟩
  obtain ⟨c, hc⟩ := hfound
  obtain ⟨n, hn, hcandidate⟩ := List.exists_of_findSome?_eq_some hc
  obtain ⟨hcpos, hdouble, hcgrid⟩ := decimalOf_spec hx hcandidate
  have hcnear := abs_sub_lt_of_double hcpos hdouble
  have hcv : c = v := by
    refine (hcgrid.of_le ?_).eq_of_abs_sub_lt hgrid ?_
    · have := List.mem_range.1 hn
      omega
    · calc |c - v| ≤ |double v - c| + |double v - v| := by
            rw [abs_sub_comm (double v) c]
            exact abs_sub_le c (double v) v
        _ < double v / (2 * 10 ^ 15) + double v / (2 * 10 ^ 15) := add_lt_add hcnear hnear
        _ = double v / 10 ^ 15 := by ring
        _ < lastDigit 15 (double v) := hsmall
  have hrange : List.range 17 = List.range 15 ++ [15, 16] := rfl
  rw [shortest, if_neg hx.ne', hrange, List.findSome?_append, hc]
  exact hcv

/-- **A number of at most 15 digits comes back as itself.** -/
theorem jsonNumber_of_scaled {s : ℕ} {v : ℚ} (hs : Scaled s v) (h0 : 0 ≤ v) (hmax : v * 10 ^ s < 10 ^ 15) :
    jsonNumber v = v := by
  rcases h0.eq_or_lt with rfl | hv
  · exact jsonNumber_zero
  obtain ⟨m, hm⟩ := scaled_iff.1 hs
  have hdigits : m ≤ 10 ^ 15 - 1 := by
    rw [hm] at hmax
    have : m < 10 ^ 15 := by exact_mod_cast hmax
    omega
  have hdigits' : (m : ℚ) ≤ 10 ^ 15 - 1 := by exact_mod_cast hdigits
  have hbelow : double v < (10 : ℚ) ^ (15 - s : ℤ) := by
    have herr := (abs_le.1 (abs_double_sub_le hv)).2
    have hsplit : (10 : ℚ) ^ (15 - s : ℤ) = 10 ^ 15 / 10 ^ s := by
      rw [zpow_sub₀ (by norm_num), zpow_natCast]
      norm_cast
    rw [hsplit, lt_div_iff₀ (by positivity)]
    calc double v * 10 ^ s ≤ (v + v / 2 ^ 53) * 10 ^ s := by
          gcongr
          linarith
      _ = m + m / 2 ^ 53 := by
          rw [← hm]
          ring
      _ < 10 ^ 15 := by linarith
  refine shortest_double hv ?_
  have hlog : Int.log 10 (double v) < 15 - s :=
    (Int.lt_zpow_iff_log_lt (by norm_num : 1 < 10) (double_pos hv)).1 (by simpa using hbelow)
  have hunits : OnGrid (10 ^ (-(s : ℤ))) v := ⟨m, by rw [← hm, zpow_neg, zpow_natCast]; field_simp⟩
  refine hunits.of_le ?_
  rw [abs_of_pos (double_pos hv)]
  push_cast
  omega

/-! ## What reads back as itself -/

/-- A number of at most 53 bits is a double. -/
theorem double_of_bits {m e : ℤ} (hm : |m| ≤ 2 ^ 53) : double (m * 2 ^ e) = m * 2 ^ e := by
  rw [double, roundSignificant]
  split
  · next hzero => exact hzero.symm
  · next hne =>
    have hint : ∀ k : ℤ, k ≤ e → ∃ n : ℤ, (m * 2 ^ e : ℚ) / 2 ^ k = n := by
      intro k hk
      obtain ⟨d, hd⟩ := Int.eq_ofNat_of_zero_le (sub_nonneg.2 hk)
      refine ⟨m * 2 ^ d, ?_⟩
      rw [mul_div_assoc, ← zpow_sub₀ (by norm_num), hd]
      push_cast
      rfl
    have hround : ∀ k : ℤ, (∃ n : ℤ, (m * 2 ^ e : ℚ) / 2 ^ k = n) →
        (roundHalfEven ((m * 2 ^ e : ℚ) / 2 ^ k) : ℚ) * 2 ^ k = m * 2 ^ e := by
      rintro k ⟨n, hn⟩
      have hk : (2 : ℚ) ^ k ≠ 0 := zpow_ne_zero k (by norm_num)
      rw [hn, roundHalfEven_intCast, ← hn, div_mul_cancel₀ _ hk]
    have habs : |(m * 2 ^ e : ℚ)| = |m| * 2 ^ e := by
      rw [abs_mul, abs_of_pos (show (0 : ℚ) < 2 ^ e by positivity), Int.cast_abs]
    simp only [Nat.cast_ofNat]
    refine hround _ ?_
    rcases hm.lt_or_eq with hlt | heq
    · have hbound : |(m * 2 ^ e : ℚ)| < 2 ^ (53 + e) := by
        rw [habs, zpow_add₀ (by norm_num)]
        have hcast : (|m| : ℚ) < 2 ^ (53 : ℤ) := by exact_mod_cast hlt
        rw [← Int.cast_abs] at hcast
        gcongr
      have hlog := (Int.lt_zpow_iff_log_lt (b := 2) (by decide) (abs_pos.2 hne)).1 (by exact_mod_cast hbound)
      exact hint _ (by omega)
    · -- 53 bits and one more: the last bit is a zero
      have hlog : Int.log 2 |(m * 2 ^ e : ℚ)| = 53 + e := by
        have hpower : |(m * 2 ^ e : ℚ)| = ((2 : ℕ) : ℚ) ^ (53 + e) := by
          rw [habs, heq, zpow_add₀ (by norm_num)]
          norm_num
        rw [hpower, Int.log_zpow (by decide)]
      obtain ⟨n, hn⟩ : ∃ n : ℤ, m = 2 * n := by
        rcases abs_eq (by norm_num : (0 : ℤ) ≤ 2 ^ 53) |>.1 heq with rfl | rfl
        · exact ⟨2 ^ 52, by norm_num⟩
        · exact ⟨-2 ^ 52, by norm_num⟩
      refine ⟨n, ?_⟩
      rw [hlog, show (53 + e - (53 - 1) : ℤ) = e + 1 by ring, hn, zpow_add₀ (by norm_num)]
      have he : (2 : ℚ) ^ e ≠ 0 := zpow_ne_zero e (by norm_num)
      push_cast
      field_simp

/-- Rounding twice is rounding once. -/
theorem double_double (x : ℚ) : double (double x) = double x := by
  by_cases hx : x = 0
  · rw [hx, double_zero, double_zero]
  · have hform : double x = roundHalfEven (x / 2 ^ (Int.log 2 |x| - 52)) * 2 ^ (Int.log 2 |x| - 52) := by
      rw [double, roundSignificant, if_neg hx]
      norm_num
    rw [hform]
    refine double_of_bits ?_
    have hweight : (0 : ℚ) < 2 ^ (Int.log 2 |x| - 52) := by positivity
    have hbound : |x / 2 ^ (Int.log 2 |x| - 52)| < 2 ^ 53 := by
      have hlog := Int.lt_zpow_succ_log_self (b := 2) (by decide) |x|
      rw [abs_div, abs_of_pos hweight, div_lt_iff₀ hweight, ← zpow_natCast, ← zpow_add₀ (by norm_num)]
      refine lt_of_lt_of_eq hlog ?_
      congr 1
      push_cast
      ring
    have hnear := abs_roundHalfEven_sub_le (x / 2 ^ (Int.log 2 |x| - 52))
    have hlt : (|roundHalfEven (x / 2 ^ (Int.log 2 |x| - 52))| : ℚ) < 2 ^ 53 + 1 := by
      calc (|roundHalfEven (x / 2 ^ (Int.log 2 |x| - 52))| : ℚ)
          ≤ |roundHalfEven (x / 2 ^ (Int.log 2 |x| - 52)) - x / 2 ^ (Int.log 2 |x| - 52)| +
              |x / 2 ^ (Int.log 2 |x| - 52)| := by
            have := abs_add_le (roundHalfEven (x / 2 ^ (Int.log 2 |x| - 52)) - x / 2 ^ (Int.log 2 |x| - 52) : ℚ)
              (x / 2 ^ (Int.log 2 |x| - 52))
            rwa [sub_add_cancel] at this
        _ < 1 / 2 + 2 ^ 53 := add_lt_add_of_le_of_lt hnear hbound
        _ < 2 ^ 53 + 1 := by norm_num
    have hint : |roundHalfEven (x / 2 ^ (Int.log 2 |x| - 52))| < 2 ^ 53 + 1 := by exact_mod_cast hlt
    omega

theorem shortest_spec {x : ℚ} (hx : 0 < x) (hdouble : double x = x) : 0 < shortest x ∧ double (shortest x) = x := by
  rw [shortest, if_neg hx.ne']
  cases hfound : (List.range 17).findSome? fun n => decimalOf (n + 1) x with
  | none => exact ⟨hx, hdouble⟩
  | some c =>
    obtain ⟨n, _, hc⟩ := List.exists_of_findSome?_eq_some hfound
    obtain ⟨hpos, hread, _⟩ := decimalOf_spec hx hc
    exact ⟨hpos, hread⟩

theorem jsonNumber_pos {v : ℚ} (hv : 0 < v) : 0 < jsonNumber v := (shortest_spec (double_pos hv) (double_double v)).1

/-- **A number that was sent and read is sent and read as itself.** -/
theorem jsonNumber_jsonNumber {v : ℚ} (hv : 0 ≤ v) : jsonNumber (jsonNumber v) = jsonNumber v := by
  rcases hv.eq_or_lt with rfl | hpos
  · rw [jsonNumber_zero, jsonNumber_zero]
  · have hread := (shortest_spec (double_pos hpos) (double_double v)).2
    exact congrArg shortest hread

end DecimalArith
