import LcsSystem.Lib.Decimal

/-!
# The 28-digit context on short numbers

`context` leaves a number alone that has no more than 28 digits, and it preserves the order. So a product of
columns is exact, and a quotient that is at most one stays so. The error of `roundHalfUp` comes first.
-/

namespace DecimalArith

/-! ## The error of a rounding -/

theorem Scaled.mul {s t : ℕ} {x y : ℚ} (hx : Scaled s x) (hy : Scaled t y) : Scaled (s + t) (x * y) := by
  obtain ⟨m, hm⟩ := scaled_iff.1 hx
  obtain ⟨n, hn⟩ := scaled_iff.1 hy
  refine scaled_iff.2 ⟨m * n, ?_⟩
  push_cast
  rw [← hm, ← hn, pow_add]
  ring

/-- Half a unit of the last decimal at most; a tie goes up. -/
theorem roundHalfUp_error {s : ℕ} {x : ℚ} (hx : 0 ≤ x) :
    -(1 / 2) < (roundHalfUp s x - x) * 10 ^ s ∧ (roundHalfUp s x - x) * 10 ^ s ≤ 1 / 2 := by
  have hp := (pow_scale_pos s).ne'
  have herror : (roundHalfUp s x - x) * 10 ^ s = (⌊x * 10 ^ s + 1 / 2⌋ : ℤ) - x * 10 ^ s := by
    rw [roundHalfUp_of_nonneg hx, sub_mul, div_mul_cancel₀ _ hp]
  have hlow := Int.floor_le (x * 10 ^ s + 1 / 2)
  have hhigh := Int.lt_floor_add_one (x * 10 ^ s + 1 / 2)
  rw [herror]
  constructor <;> linarith

/-- A number with the scale is what a number close above or below it is rounded to. -/
theorem roundHalfUp_eq {s : ℕ} {x y : ℚ} (hx : 0 ≤ x) (hy : Scaled s y) (hlow : -(1 / 2) < (y - x) * 10 ^ s)
    (hhigh : (y - x) * 10 ^ s ≤ 1 / 2) : roundHalfUp s x = y := by
  obtain ⟨n, hn⟩ := scaled_iff.1 hy
  have hp := (pow_scale_pos s).ne'
  have hfloor : ⌊x * 10 ^ s + 1 / 2⌋ = n := by
    rw [Int.floor_eq_iff]
    rw [sub_mul, hn] at hlow hhigh
    constructor <;> linarith
  rw [roundHalfUp_of_nonneg hx, hfloor, ← hn, mul_div_cancel_right₀ _ hp]

/-! ## Ties to even -/

theorem roundHalfEven_intCast (n : ℤ) : roundHalfEven n = n := by
  simp [roundHalfEven]

theorem floor_le_roundHalfEven (x : ℚ) : ⌊x⌋ ≤ roundHalfEven x := by
  unfold roundHalfEven
  split_ifs <;> omega

theorem roundHalfEven_le_floor_add_one (x : ℚ) : roundHalfEven x ≤ ⌊x⌋ + 1 := by
  unfold roundHalfEven
  split_ifs <;> omega

theorem roundHalfEven_mono {x y : ℚ} (h : x ≤ y) : roundHalfEven x ≤ roundHalfEven y := by
  have hfloor := Int.floor_le_floor h
  rcases hfloor.lt_or_eq with hlt | heq
  · have hupper := roundHalfEven_le_floor_add_one x
    have hlower := floor_le_roundHalfEven y
    omega
  · unfold roundHalfEven
    rw [heq]
    split_ifs <;> first | omega | linarith

/-! ## The context -/

/-- The weight of the last digit that is kept. -/
def lastPlace (x : ℚ) : ℤ := Int.log 10 |x| - (contextPrecision - 1)

theorem context_eq {x : ℚ} (hx : x ≠ 0) : context x = roundHalfEven (x / 10 ^ lastPlace x) * 10 ^ lastPlace x :=
  if_neg hx

/-- A number with `s` decimals and `k` integer digits is exact where both fit. -/
theorem context_of_scaled {s k : ℕ} {x : ℚ} (hx : Scaled s x) (hbound : |x| < 10 ^ k) (hdigits : k + s ≤ 28) :
    context x = x := by
  by_cases hzero : x = 0
  · rw [hzero, context_zero]
  · obtain ⟨n, hn⟩ := scaled_iff.1 hx
    have hlog : Int.log 10 |x| < k := by
      rw [← Int.lt_zpow_iff_log_lt (by norm_num) (abs_pos.2 hzero)]
      exact_mod_cast hbound
    have hplace : lastPlace x ≤ -s := by
      simp only [lastPlace, contextPrecision]
      omega
    obtain ⟨m, hm⟩ := Int.le.dest hplace
    have hpos : (0 : ℚ) < 10 ^ lastPlace x := by positivity
    -- in units of the last place the number is an integer
    have hunits : x / 10 ^ lastPlace x = ((n * 10 ^ m : ℤ) : ℚ) := by
      rw [div_eq_iff hpos.ne']
      have hpow : (10 : ℚ) ^ lastPlace x * 10 ^ m * 10 ^ s = 1 := by
        rw [← zpow_natCast, ← zpow_natCast, ← zpow_add₀ (by norm_num), ← zpow_add₀ (by norm_num)]
        have hsum : lastPlace x + m + s = 0 := by omega
        rw [hsum, zpow_zero]
      push_cast
      calc x = x * (10 ^ lastPlace x * 10 ^ m * 10 ^ s) := by rw [hpow, mul_one]
        _ = x * 10 ^ s * 10 ^ m * 10 ^ lastPlace x := by ring
        _ = n * 10 ^ m * 10 ^ lastPlace x := by rw [hn]
    rw [context_eq hzero, hunits, roundHalfEven_intCast, ← hunits, div_mul_cancel₀ _ hpos.ne']

theorem context_nonneg {x : ℚ} (h : 0 ≤ x) : 0 ≤ context x := by
  rcases h.eq_or_lt with rfl | hpos
  · rw [context_zero]
  · rw [context_eq hpos.ne']
    have hunits : (0 : ℤ) ≤ roundHalfEven (x / 10 ^ lastPlace x) :=
      (Int.floor_nonneg.2 (by positivity)).trans (floor_le_roundHalfEven _)
    have hunits' : (0 : ℚ) ≤ (roundHalfEven (x / 10 ^ lastPlace x) : ℤ) := by exact_mod_cast hunits
    positivity

/-- A number stays between the powers of ten around it. -/
theorem pow_log_le_context {x : ℚ} (h : 0 < x) :
    (10 : ℚ) ^ Int.log 10 x ≤ context x ∧ context x ≤ 10 ^ (Int.log 10 x + 1) := by
  have hpos : (0 : ℚ) < 10 ^ lastPlace x := by positivity
  have hplace : lastPlace x = Int.log 10 x - 27 := by
    rw [lastPlace, abs_of_pos h]
    rfl
  have hpow : ∀ k : ℕ, (10 : ℚ) ^ (lastPlace x + k) = ((10 ^ k : ℤ) : ℚ) * 10 ^ lastPlace x := by
    intro k
    rw [zpow_add₀ (by norm_num), zpow_natCast, mul_comm]
    push_cast
    rfl
  have hlow : (10 : ℚ) ^ (lastPlace x + 27) ≤ x := by
    rw [hplace, sub_add_cancel]
    exact Int.zpow_log_le_self (by norm_num) h
  have hhigh : x ≤ (10 : ℚ) ^ (lastPlace x + 28) := by
    have hexp : lastPlace x + 28 = Int.log 10 x + 1 := by omega
    rw [hexp]
    exact (Int.lt_zpow_succ_log_self (by norm_num) x).le
  rw [context_eq h.ne']
  constructor
  · have hexp : Int.log 10 x = lastPlace x + (27 : ℕ) := by push_cast; omega
    rw [hexp, hpow]
    refine mul_le_mul_of_nonneg_right ?_ hpos.le
    have hunits : ((10 ^ 27 : ℤ) : ℚ) ≤ x / 10 ^ lastPlace x := by
      rw [le_div_iff₀ hpos, ← hpow]
      exact_mod_cast hlow
    have hround := roundHalfEven_mono hunits
    rw [roundHalfEven_intCast] at hround
    exact_mod_cast hround
  · have hexp : Int.log 10 x + 1 = lastPlace x + (28 : ℕ) := by push_cast; omega
    rw [hexp, hpow]
    refine mul_le_mul_of_nonneg_right ?_ hpos.le
    have hunits : x / 10 ^ lastPlace x ≤ ((10 ^ 28 : ℤ) : ℚ) := by
      rw [div_le_iff₀ hpos, ← hpow]
      exact_mod_cast hhigh
    have hround := roundHalfEven_mono hunits
    rw [roundHalfEven_intCast] at hround
    exact_mod_cast hround

/-- **The context preserves the order.** -/
theorem context_mono {x y : ℚ} (hx : 0 ≤ x) (hxy : x ≤ y) : context x ≤ context y := by
  rcases hx.eq_or_lt with rfl | hpos
  · rw [context_zero]
    exact context_nonneg hxy
  · have hlog : Int.log 10 x ≤ Int.log 10 y := Int.log_mono_right hpos hxy
    rcases hlog.eq_or_lt with heq | hlt
    · have hplace : lastPlace x = lastPlace y := by
        rw [lastPlace, lastPlace, abs_of_pos hpos, abs_of_pos (hpos.trans_le hxy), heq]
      have hweight : (0 : ℚ) < 10 ^ lastPlace y := by positivity
      rw [context_eq hpos.ne', context_eq (hpos.trans_le hxy).ne', hplace]
      refine mul_le_mul_of_nonneg_right ?_ hweight.le
      exact_mod_cast roundHalfEven_mono (div_le_div_of_nonneg_right hxy hweight.le)
    · calc context x ≤ 10 ^ (Int.log 10 x + 1) := (pow_log_le_context hpos).2
        _ ≤ 10 ^ Int.log 10 y := zpow_le_zpow_right₀ (by norm_num) (Int.add_one_le_iff.2 hlt)
        _ ≤ context y := (pow_log_le_context (hpos.trans_le hxy)).1

/-- A bound that is exact bounds what the context makes of a smaller number. -/
theorem context_le {s k : ℕ} {x y : ℚ} (hx : 0 ≤ x) (hxy : x ≤ y) (hy : Scaled s y) (hbound : y < 10 ^ k)
    (hdigits : k + s ≤ 28) : context x ≤ y := by
  have hexact : context y = y := context_of_scaled hy (by rwa [abs_of_nonneg (hx.trans hxy)]) hdigits
  exact (context_mono hx hxy).trans_eq hexact

/-- A positive number that uses at most `s` decimals in the context does not round to zero. -/
theorem roundHalfUp_pos_of_usesAtMost {s : ℕ} {x : ℚ} (hs : s ≤ 27) (hx : 0 < x) (h : usesAtMost s x = true) :
    0 < roundHalfUp s x := by
  have hp := pow_scale_pos s
  have hscaled : Scaled s (context x) := of_decide_eq_true h
  obtain ⟨n, hn⟩ := scaled_iff.1 hscaled
  have hpos : 0 < context x := (zpow_pos (by norm_num) _).trans_le (pow_log_le_context hx).1
  have hn1 : (1 : ℚ) ≤ n := by
    have hn0 : (0 : ℚ) < n := by
      rw [← hn]
      positivity
    exact_mod_cast Int.add_one_le_iff.2 (by exact_mod_cast hn0 : (0 : ℤ) < n)
  -- below half a unit the context would be below a unit
  have hhalf : 1 / 2 ≤ x * 10 ^ s := by
    by_contra hsmall
    rw [not_le] at hsmall
    have hscale : Scaled (s + 1) (1 / 2 / 10 ^ s : ℚ) := by
      refine scaled_iff.2 ⟨5, ?_⟩
      rw [pow_succ]
      field_simp
      norm_num
    have hle : context x ≤ 1 / 2 / 10 ^ s := by
      refine context_le hx.le ((le_div_iff₀ hp).2 hsmall.le) hscale (k := 0) ?_ (by omega)
      rw [pow_zero, div_lt_one hp]
      have hone : (1 : ℚ) ≤ 10 ^ s := one_le_pow₀ (by norm_num)
      linarith
    rw [le_div_iff₀ hp, hn] at hle
    linarith
  have hfloor : (1 : ℤ) ≤ ⌊x * 10 ^ s + 1 / 2⌋ := by
    rw [Int.le_floor]
    push_cast
    linarith
  rw [roundHalfUp_of_nonneg hx.le]
  have hfloor' : (1 : ℚ) ≤ (⌊x * 10 ^ s + 1 / 2⌋ : ℤ) := by exact_mod_cast hfloor
  positivity

/-- A column value uses no more decimals than its column has. -/
theorem usesAtMost_val {p s : ℕ} (y : Numeric p s) (h : p - s + s ≤ 28) : usesAtMost s y.val = true := by
  rw [usesAtMost, decide_eq_true_eq, context_of_scaled y.scaled y.bounded h]
  exact y.scaled

end DecimalArith
