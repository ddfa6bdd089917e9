import LcsSystem.Core.Validation
import LcsSystem.Lib.Normalize

/-!
# Precision checks

`parse_decimal` and the decimal field of a schema (`src/backend/app/core/validation.py:275-310` and `483-510`) on decimal
literals of any length.

| here              | there                                                             |
|-------------------|-------------------------------------------------------------------|
| `Literal`         | the text of a finite number, which `Decimal` reads digit by digit |
| `toDecimal`       | `Decimal(str(value).strip())`, which refuses extreme exponents    |
| `Outcome.overflow`| the `Overflow` that `normalize` raises and nobody catches         |

The digits are counted after `normalize`, which rounds to 28 of them: `precision_exact_iff`.
-/

namespace LcsSystem.Precision
open DecimalArith

/-! ## Literals -/

structure Literal where
  negative : Bool
  whole : List (Fin 10)
  fraction : List (Fin 10)
  exponent : ℤ
  nonempty : whole ++ fraction ≠ []

/-- `MAX_PREC`, `MAX_EMAX` and `MIN_ETINY`. -/
def maxPrecision : ℕ := 999999999999999999
def constructorMax : ℤ := 999999999999999999
def constructorTiny : ℤ := -1999999999999999997

namespace Literal

def digits (x : Literal) : ℕ := (x.whole ++ x.fraction).foldl (fun n digit => 10 * n + digit.val) 0

/-- The number that is written. -/
def decimal (x : Literal) : Decimal :=
  ⟨if x.negative then -x.digits else x.digits, x.exponent - x.fraction.length⟩

def value (x : Literal) : ℚ := x.decimal.value

/-- The constructor keeps every digit, within its own limits. -/
def Constructible (x : Literal) : Prop :=
  Nat.log 10 x.digits < maxPrecision ∧ constructorTiny ≤ x.decimal.exponent ∧ x.decimal.adjusted ≤ constructorMax

instance (x : Literal) : Decidable x.Constructible := inferInstanceAs (Decidable (_ ∧ _ ∧ _))

def toDecimal (x : Literal) : Option Decimal := if x.Constructible then some x.decimal else none

end Literal

/-! ## The checks -/

inductive Outcome (ε : Type)
  | accepted (number : Decimal)
  | refused (error : ε)
  | overflow
  deriving DecidableEq

/-- The count of decimal places that both checks make. -/
def checkPlaces {ε : Type} (places : Option ℕ) (refusal : ℕ → ε) (number : Decimal) : Outcome ε :=
  match places with
  | none => .accepted number
  | some places =>
    match number.normalize with
    | none => .overflow
    | some normalized => if places < normalized.places then .refused (refusal places) else .accepted number

/-- `parse_decimal`, where nothing or a blank is the default. -/
def parseDecimal (value : Option Literal) (field : String) (default : Decimal) (places : Option ℕ) : Outcome Error :=
  match value with
  | none => .accepted default
  | some literal =>
    match literal.toDecimal with
    | none => .refused (lineError field "Enter a number.")
    | some number =>
      checkPlaces places (fun places => lineError field ("Use at most " ++ toString places ++ " decimal places.")) number

/-- `_enforce_range`. -/
def enforceRange (spec : DecimalSpec) (number : Decimal) : Option FieldErrorItem :=
  match spec.minimum.filter fun b => decide (number.value < b.value) with
  | some b => some ⟨spec.key, "OUT_OF_RANGE", "Enter a value greater than or equal to " ++ b.text ++ "."⟩
  | none =>
    (spec.maximum.filter fun b => decide (b.value < number.value)).map fun b =>
      ⟨spec.key, "OUT_OF_RANGE", "Enter a value less than or equal to " ++ b.text ++ "."⟩

/-- `_decimal`. -/
def decimalField (spec : DecimalSpec) (literal : Literal) : Outcome FieldErrorItem :=
  match literal.toDecimal with
  | none => .refused ⟨spec.key, "INVALID_TYPE", "Enter a number."⟩
  | some number =>
    match enforceRange spec number with
    | some error => .refused error
    | none =>
      checkPlaces spec.decimalPlaces
        (fun places => ⟨spec.key, "INVALID_PRECISION", "Use at most " ++ toString places ++ " decimal places."⟩) number

/-! ## What they accept -/

variable {x : Literal} {p : ℕ} {spec : DecimalSpec} {field : String} {default number : Decimal}

/-- The bounds of the field. -/
def InRange (spec : DecimalSpec) (q : ℚ) : Prop :=
  (∀ b, spec.minimum = some b → b.value ≤ q) ∧ ∀ b, spec.maximum = some b → q ≤ b.value

/-- What both checks look at: the digits that `normalize` leaves. -/
def Passes (p : ℕ) (x : Literal) : Prop := ∃ normalized, x.decimal.normalize = some normalized ∧ normalized.places ≤ p

theorem checkPlaces_accepted {ε : Type} {refusal : ℕ → ε} {literal : Decimal} :
    checkPlaces (some p) refusal literal = .accepted number ↔
      number = literal ∧ ∃ normalized, literal.normalize = some normalized ∧ normalized.places ≤ p := by
  unfold checkPlaces
  cases hnormalize : literal.normalize with
  | none => simp
  | some normalized =>
    by_cases h : p < normalized.places
    · simp [h]
    · simp only [if_neg h, Outcome.accepted.injEq, Option.some.injEq, exists_eq_left', not_lt.1 h, and_true]
      exact eq_comm

theorem parseDecimal_accepted : parseDecimal (some x) field default (some p) = .accepted number ↔
    number = x.decimal ∧ x.Constructible ∧ Passes p x := by
  unfold parseDecimal Literal.toDecimal Passes
  by_cases hread : x.Constructible
  · simp only [hread, if_true, true_and]
    exact checkPlaces_accepted
  · simp [hread]

theorem enforceRange_eq_none : enforceRange spec number = none ↔ InRange spec number.value := by
  unfold enforceRange InRange
  cases hmin : spec.minimum with
  | none =>
    cases hmax : spec.maximum with
    | none => simp
    | some high => simp [Option.filter]
  | some low =>
    by_cases hlow : number.value < low.value
    · simp [Option.filter, hlow]
    · cases hmax : spec.maximum with
      | none => simp [Option.filter, hlow, not_lt.1 hlow]
      | some high => simp [Option.filter, hlow, not_lt.1 hlow]

theorem decimalField_accepted : decimalField { spec with decimalPlaces := some p } x = .accepted number ↔
    number = x.decimal ∧ x.Constructible ∧ InRange spec x.value ∧ Passes p x := by
  unfold decimalField Literal.toDecimal Passes
  have hbounds : enforceRange { spec with decimalPlaces := some p } x.decimal = none ↔ InRange spec x.value :=
    enforceRange_eq_none
  by_cases hread : x.Constructible
  · simp only [hread, if_true, true_and]
    cases hrange : enforceRange { spec with decimalPlaces := some p } x.decimal with
    | none =>
      simp only [hbounds.1 hrange, true_and]
      exact checkPlaces_accepted
    | some error =>
      have hout : ¬InRange spec x.value := fun h => by
        rw [hbounds.2 h] at hrange
        cases hrange
      simp [hout]
  · simp [hread]

/-- It is in range, and a number with `p` decimals is within half a unit of its last kept digit. -/
theorem passes_iff : Passes p x ↔
    |x.value| < Decimal.overflowBound ∧ ∃ m : ℤ, |x.value - m / 10 ^ p| ≤ 10 ^ x.decimal.lastExponent / 2 := by
  rw [Passes, Literal.value, ← Decimal.scaled_rounded_iff, ← not_le, ← Decimal.normalize_eq_none]
  cases hnormalize : x.decimal.normalize with
  | none => simp
  | some normalized =>
    simp only [Option.some.injEq, exists_eq_left', Decimal.places_normalize_le hnormalize, reduceCtorEq, not_false_iff,
      true_and]

/-! ## Exactness -/

/-- Both checks accept exactly the numbers with `p` decimals, which a column with that scale keeps, and return them as they
were. -/
structure PrecisionExact (spec : DecimalSpec) (p : ℕ) (x : Literal) : Prop where
  parse : ∀ field default, (∃ number, parseDecimal (some x) field default (some p) = .accepted number) ↔ Scaled p x.value
  schema : (∃ number, decimalField { spec with decimalPlaces := some p } x = .accepted number) ↔
    InRange spec x.value ∧ Scaled p x.value
  unchanged : ∀ field default number, (parseDecimal (some x) field default (some p) = .accepted number ∨
    decimalField { spec with decimalPlaces := some p } x = .accepted number) →
      number = x.decimal ∧ roundHalfUp p number.value = x.value

/-- **The precision checks are exact** on a literal exactly where it is short of the limits of the two contexts if it has
`p` decimals, and farther than half a unit of its 28th digit from every number with `p` decimals if it has more. -/
theorem precision_exact_iff (spec : DecimalSpec) (p : ℕ) (x : Literal) : PrecisionExact spec p x ↔
    (Scaled p x.value → x.Constructible ∧ |x.value| < Decimal.overflowBound) ∧
      (¬Scaled p x.value → x.Constructible → |x.value| < Decimal.overflowBound →
        ∀ m : ℤ, 10 ^ x.decimal.lastExponent / 2 < |x.value - m / 10 ^ p|) := by
  have hnear : Scaled p x.value → ∃ m : ℤ, |x.value - m / 10 ^ p| ≤ 10 ^ x.decimal.lastExponent / 2 := by
    intro h
    obtain ⟨m, hm⟩ := scaled_iff.1 h
    refine ⟨m, ?_⟩
    rw [← hm, mul_div_cancel_right₀ _ (pow_scale_pos p).ne', sub_self, abs_zero]
    positivity
  have hparse : ∀ field default, (∃ number, parseDecimal (some x) field default (some p) = .accepted number) ↔
      x.Constructible ∧ |x.value| < Decimal.overflowBound ∧ ∃ m : ℤ, |x.value - m / 10 ^ p| ≤ 10 ^ x.decimal.lastExponent / 2 := by
    intro field default
    simp only [parseDecimal_accepted, exists_eq_left, passes_iff]
  have hschema : (∃ number, decimalField { spec with decimalPlaces := some p } x = .accepted number) ↔
      x.Constructible ∧ InRange spec x.value ∧ |x.value| < Decimal.overflowBound ∧
        ∃ m : ℤ, |x.value - m / 10 ^ p| ≤ 10 ^ x.decimal.lastExponent / 2 := by
    simp only [decimalField_accepted, exists_eq_left, passes_iff]
  constructor
  · intro h
    have hiff := (hparse "" ⟨0, 0⟩).symm.trans (h.parse "" ⟨0, 0⟩)
    refine ⟨fun hscaled => ⟨(hiff.2 hscaled).1, (hiff.2 hscaled).2.1⟩, fun hnot hread hbound m => ?_⟩
    by_contra hle
    exact hnot (hiff.1 ⟨hread, hbound, m, not_lt.1 hle⟩)
  · rintro ⟨hscaled, hother⟩
    have hiff : (x.Constructible ∧ |x.value| < Decimal.overflowBound ∧
        ∃ m : ℤ, |x.value - m / 10 ^ p| ≤ 10 ^ x.decimal.lastExponent / 2) ↔ Scaled p x.value := by
      constructor
      · rintro ⟨hread, hbound, m, hm⟩
        by_contra hnot
        exact absurd hm (not_le.2 (hother hnot hread hbound m))
      · exact fun h => ⟨(hscaled h).1, (hscaled h).2, hnear h⟩
    refine ⟨fun field default => (hparse field default).trans hiff, ?_, ?_⟩
    · rw [hschema, and_left_comm]
      exact and_congr_right fun _ => hiff
    · intro field default number haccepted
      have hboth : number = x.decimal ∧ x.Constructible ∧ Passes p x := by
        rcases haccepted with h | h
        · exact parseDecimal_accepted.1 h
        · obtain ⟨hnumber, hread, -, hpasses⟩ := decimalField_accepted.1 h
          exact ⟨hnumber, hread, hpasses⟩
      obtain ⟨rfl, hread, hpasses⟩ := hboth
      exact ⟨rfl, roundHalfUp_of_scaled (hiff.1 ⟨hread, passes_iff.1 hpasses⟩)⟩

/-- One, and a digit in the twenty-ninth decimal place. -/
def longLiteral : Literal := ⟨false, [1], List.replicate 28 0 ++ [1], 0, List.cons_ne_nil _ _⟩

/-- `1e1000000` and `1e-1000027`. -/
def hugeLiteral : Literal := ⟨false, [1], [], 1000000, List.cons_ne_nil _ _⟩
def tinyLiteral : Literal := ⟨false, [1], [], -1000027, List.cons_ne_nil _ _⟩

/-- Two numbers with more than four decimals are accepted, and a whole number overflows. -/
theorem precision_misjudged :
    (parseDecimal (some longLiteral) "quantity" ⟨0, 0⟩ (some 4) = .accepted longLiteral.decimal ∧
      ¬Scaled 4 longLiteral.value) ∧
      (parseDecimal (some tinyLiteral) "quantity" ⟨0, 0⟩ (some 4) = .accepted tinyLiteral.decimal ∧
        ¬Scaled 4 tinyLiteral.value) ∧
      parseDecimal (some hugeLiteral) "quantity" ⟨0, 0⟩ (some 4) = .overflow ∧ Scaled 4 hugeLiteral.value := by
  refine ⟨⟨by decide +kernel, ?_⟩, ⟨by decide +kernel, ?_⟩, by decide +kernel, ?_⟩
  · rw [Literal.value, Decimal.scaled_value_iff (by decide)]
    decide +kernel
  · rw [Literal.value, Decimal.scaled_value_iff (by decide)]
    decide +kernel
  · rw [Literal.value, Decimal.scaled_value_iff (by decide)]
    decide +kernel

end LcsSystem.Precision
