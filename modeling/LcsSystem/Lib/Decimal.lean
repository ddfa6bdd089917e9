import Mathlib

/-!
# Decimal numbers: rounding to a scale, the 28-digit context, `numeric(p, s)` columns

A decimal number is its value, a rational. Three roundings act on it:

* `roundHalfUp s` — to `s` decimals, ties away from zero: `quantize(…, ROUND_HALF_UP)` of Python's
  `decimal`, and what PostgreSQL does to a value assigned to a `numeric(p, s)` column;
* `context` — to 28 significant digits, ties to even: what every operator of `decimal` does to its
  exact result in the default context;
* `Numeric.store?` — assignment to a column: `roundHalfUp`, refused when the result needs more than
  `p - s` integer digits; `InColumn` says that it is taken.

A value held by a column is a `Numeric p s`: its scale and its range are fields, so a row can only
hold what the column can.
-/

namespace DecimalArith

/-! ## Values with a bounded scale -/

/-- `x` has at most `s` decimals. -/
def Scaled (s : ℕ) (x : ℚ) : Prop := (x * 10 ^ s).den = 1

instance (s : ℕ) (x : ℚ) : Decidable (Scaled s x) := inferInstanceAs (Decidable (_ = _))

theorem scaled_iff {s : ℕ} {x : ℚ} : Scaled s x ↔ ∃ n : ℤ, x * 10 ^ s = n := by
  constructor
  · intro h
    exact ⟨(x * 10 ^ s).num, ((Rat.den_eq_one_iff _).1 h).symm⟩
  · rintro ⟨n, hn⟩
    unfold Scaled
    rw [hn]
    rfl

@[simp] theorem scaled_zero (s : ℕ) : Scaled s 0 := scaled_iff.2 ⟨0, by simp⟩

theorem Scaled.add {s : ℕ} {x y : ℚ} (hx : Scaled s x) (hy : Scaled s y) : Scaled s (x + y) := by
  obtain ⟨m, hm⟩ := scaled_iff.1 hx
  obtain ⟨n, hn⟩ := scaled_iff.1 hy
  exact scaled_iff.2 ⟨m + n, by push_cast; rw [add_mul, hm, hn]⟩

theorem Scaled.sub {s : ℕ} {x y : ℚ} (hx : Scaled s x) (hy : Scaled s y) : Scaled s (x - y) := by
  obtain ⟨m, hm⟩ := scaled_iff.1 hx
  obtain ⟨n, hn⟩ := scaled_iff.1 hy
  exact scaled_iff.2 ⟨m - n, by push_cast; rw [sub_mul, hm, hn]⟩

theorem Scaled.sum {s : ℕ} {xs : List ℚ} (h : ∀ x ∈ xs, Scaled s x) : Scaled s xs.sum := by
  induction xs with
  | nil => simp
  | cons x xs ih =>
    rw [List.sum_cons]
    exact (h x List.mem_cons_self).add (ih fun y hy => h y (List.mem_cons_of_mem _ hy))

theorem Scaled.mono {s t : ℕ} {x : ℚ} (h : Scaled s x) (hst : s ≤ t) : Scaled t x := by
  obtain ⟨n, hn⟩ := scaled_iff.1 h
  refine scaled_iff.2 ⟨n * 10 ^ (t - s), ?_⟩
  have hpow : (10 : ℚ) ^ t = 10 ^ s * 10 ^ (t - s) := by rw [← pow_add, Nat.add_sub_cancel' hst]
  push_cast
  rw [hpow, ← mul_assoc, hn]

/-! ## Half-up rounding -/

/-- Ties away from zero, to `s` decimals. -/
def roundHalfUp (s : ℕ) (x : ℚ) : ℚ :=
  if 0 ≤ x then (⌊x * 10 ^ s + 1 / 2⌋ : ℤ) / 10 ^ s else -((⌊-x * 10 ^ s + 1 / 2⌋ : ℤ) / 10 ^ s)

theorem pow_scale_pos (s : ℕ) : (0 : ℚ) < 10 ^ s := by positivity

theorem roundHalfUp_of_nonneg {s : ℕ} {x : ℚ} (h : 0 ≤ x) :
    roundHalfUp s x = (⌊x * 10 ^ s + 1 / 2⌋ : ℤ) / 10 ^ s := if_pos h

@[simp] theorem roundHalfUp_zero (s : ℕ) : roundHalfUp s 0 = 0 := by
  rw [roundHalfUp_of_nonneg le_rfl]
  norm_num

theorem roundHalfUp_nonneg {s : ℕ} {x : ℚ} (h : 0 ≤ x) : 0 ≤ roundHalfUp s x := by
  rw [roundHalfUp_of_nonneg h]
  have hx : 0 ≤ x * 10 ^ s + 1 / 2 := by positivity
  have hf : (0 : ℤ) ≤ ⌊x * 10 ^ s + 1 / 2⌋ := Int.floor_nonneg.2 hx
  have hf' : (0 : ℚ) ≤ (⌊x * 10 ^ s + 1 / 2⌋ : ℤ) := by exact_mod_cast hf
  positivity

theorem scaled_roundHalfUp (s : ℕ) (x : ℚ) : Scaled s (roundHalfUp s x) := by
  have hp := (pow_scale_pos s).ne'
  unfold roundHalfUp
  split
  · exact scaled_iff.2 ⟨_, div_mul_cancel₀ _ hp⟩
  · exact scaled_iff.2 ⟨-⌊-x * 10 ^ s + 1 / 2⌋, by push_cast; rw [neg_mul, div_mul_cancel₀ _ hp]⟩

theorem floor_int_add_half (n : ℤ) : ⌊(n : ℚ) + 1 / 2⌋ = n := by
  rw [Int.floor_eq_iff]
  constructor <;> norm_num

/-- Rounding does nothing to a value that already has the scale. -/
theorem roundHalfUp_of_scaled {s : ℕ} {x : ℚ} (h : Scaled s x) : roundHalfUp s x = x := by
  obtain ⟨n, hn⟩ := scaled_iff.1 h
  have hp := (pow_scale_pos s).ne'
  have hx : x = n / 10 ^ s := by rw [← hn, mul_div_cancel_right₀ _ hp]
  unfold roundHalfUp
  split
  · rw [hn, floor_int_add_half, ← hx]
  · have hneg : -x * 10 ^ s = ((-n : ℤ) : ℚ) := by push_cast; rw [neg_mul, hn]
    rw [hneg, floor_int_add_half, hx]
    push_cast
    ring

/-- A value with the scale passes through the rounding of a sum of nonnegative values. -/
theorem roundHalfUp_add {s : ℕ} {x y : ℚ} (hs : Scaled s x) (hx : 0 ≤ x) (hy : 0 ≤ y) :
    roundHalfUp s (x + y) = x + roundHalfUp s y := by
  obtain ⟨n, hn⟩ := scaled_iff.1 hs
  have hp := (pow_scale_pos s).ne'
  rw [roundHalfUp_of_nonneg (add_nonneg hx hy), roundHalfUp_of_nonneg hy]
  have hsum : (x + y) * 10 ^ s + 1 / 2 = (n : ℚ) + (y * 10 ^ s + 1 / 2) := by rw [add_mul, hn]; ring
  rw [hsum, Int.floor_intCast_add]
  push_cast
  rw [add_div, ← hn, mul_div_cancel_right₀ _ hp]

theorem roundHalfUp_mono {s : ℕ} {x y : ℚ} (hx : 0 ≤ x) (hxy : x ≤ y) : roundHalfUp s x ≤ roundHalfUp s y := by
  rw [roundHalfUp_of_nonneg hx, roundHalfUp_of_nonneg (hx.trans hxy)]
  have hp := pow_scale_pos s
  have hfl : ⌊x * 10 ^ s + 1 / 2⌋ ≤ ⌊y * 10 ^ s + 1 / 2⌋ := by
    apply Int.floor_le_floor
    have := mul_le_mul_of_nonneg_right hxy hp.le
    linarith
  have hfl' : ((⌊x * 10 ^ s + 1 / 2⌋ : ℤ) : ℚ) ≤ (⌊y * 10 ^ s + 1 / 2⌋ : ℤ) := by exact_mod_cast hfl
  exact div_le_div_of_nonneg_right hfl' hp.le

/-! ## The 28-digit context -/

/-- The nearest integer, ties to even. -/
def roundHalfEven (x : ℚ) : ℤ :=
  if x - ⌊x⌋ < 1 / 2 then ⌊x⌋
  else if 1 / 2 < x - ⌊x⌋ then ⌊x⌋ + 1
  else if ⌊x⌋ % 2 = 0 then ⌊x⌋ else ⌊x⌋ + 1

/-- Precision of the default context. -/
def contextPrecision : ℤ := 28

/-- `x` to 28 significant digits: the last kept digit has weight `10 ^ e`. -/
def context (x : ℚ) : ℚ :=
  if x = 0 then 0
  else
    let e := Int.log 10 |x| - (contextPrecision - 1)
    roundHalfEven (x / 10 ^ e) * 10 ^ e

/-- `x * y` and `x / y` as `decimal` computes them. -/
def mul (x y : ℚ) : ℚ := context (x * y)
def div (x y : ℚ) : ℚ := context (x / y)

@[simp] theorem context_zero : context 0 = 0 := if_pos rfl

@[simp] theorem mul_zero_left (y : ℚ) : mul 0 y = 0 := by simp [mul]

/-- Digits after the point once the value is brought to the context (`Decimal.normalize`): the
check `max(0, -exponent) > places` fails exactly on these. -/
def usesAtMost (places : ℕ) (x : ℚ) : Bool := decide (Scaled places (context x))

/-! ## Column values -/

/-- A value a `numeric(p, s)` column can hold. -/
structure Numeric (p s : ℕ) where
  val : ℚ
  scaled : Scaled s val
  bounded : |val| < 10 ^ (p - s)
  deriving DecidableEq

namespace Numeric
variable {p s : ℕ}

@[ext] theorem ext {x y : Numeric p s} (h : x.val = y.val) : x = y := by
  cases x; cases y; cases h; rfl

instance : Zero (Numeric p s) := ⟨⟨0, scaled_zero s, by simp⟩⟩

/-- Assignment to the column; `none` is the database's numeric field overflow. -/
def store? (p s : ℕ) (x : ℚ) : Option (Numeric p s) :=
  if h : |roundHalfUp s x| < 10 ^ (p - s) then some ⟨roundHalfUp s x, scaled_roundHalfUp s x, h⟩ else none

theorem val_of_store? {x : ℚ} {y : Numeric p s} (h : store? p s x = some y) : y.val = roundHalfUp s x := by
  unfold store? at h
  split at h
  · cases h; rfl
  · cases h

@[simp] theorem store?_val (y : Numeric p s) : store? p s y.val = some y := by
  have hr : roundHalfUp s y.val = y.val := roundHalfUp_of_scaled y.scaled
  unfold store?
  rw [dif_pos (by rw [hr]; exact y.bounded)]
  exact congrArg some (Numeric.ext hr)

@[simp] theorem store?_zero : store? p s 0 = some 0 := store?_val (0 : Numeric p s)

theorem roundHalfUp_val (y : Numeric p s) : roundHalfUp s y.val = y.val := roundHalfUp_of_scaled y.scaled

end Numeric

/-! ## Which values a column takes -/

/-- Assigned to the column, `x` is no numeric field overflow. -/
def InColumn (p s : ℕ) (x : ℚ) : Prop := |roundHalfUp s x| < 10 ^ (p - s)

instance (p s : ℕ) (x : ℚ) : Decidable (InColumn p s x) := inferInstanceAs (Decidable (_ < _))

section
variable {p s t : ℕ} {x y : ℚ}

theorem isSome_store? : (∃ y, Numeric.store? p s x = some y) ↔ InColumn p s x := by
  unfold Numeric.store? InColumn
  by_cases h : |roundHalfUp s x| < 10 ^ (p - s)
  · simp [h]
  · simp [h]

theorem inColumn_of_nonneg (hx : 0 ≤ x) : InColumn p s x ↔ roundHalfUp s x < 10 ^ (p - s) := by
  rw [InColumn, abs_of_nonneg (roundHalfUp_nonneg hx)]

/-- A smaller value fits as well. -/
theorem InColumn.mono (hy : InColumn p s y) (hx : 0 ≤ x) (hxy : x ≤ y) : InColumn p s x := by
  rw [inColumn_of_nonneg (hx.trans hxy)] at hy
  exact (inColumn_of_nonneg hx).2 ((roundHalfUp_mono hx hxy).trans_lt hy)

/-- A value with no more decimals than the column is compared as it is. -/
theorem inColumn_of_scaled (hscaled : Scaled t x) (hts : t ≤ s) (hx : 0 ≤ x) : InColumn p s x ↔ x < 10 ^ (p - s) := by
  rw [inColumn_of_nonneg hx, roundHalfUp_of_scaled (hscaled.mono hts)]

/-- A bound with no more decimals than the column. -/
theorem inColumn_of_le {b : ℚ} (hscaled : Scaled s b) (hb : b < 10 ^ (p - s)) (hx : 0 ≤ x) (hxb : x ≤ b) : InColumn p s x := by
  refine InColumn.mono ?_ hx hxb
  rwa [inColumn_of_scaled hscaled le_rfl (hx.trans hxb)]

end
end DecimalArith
