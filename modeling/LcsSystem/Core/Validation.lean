import LcsSystem.Lib.Checks
import LcsSystem.Lib.Decimal

/-!
# Request errors and the reading of money lines

The part of `src/backend/app/core/exceptions.py` and `core/validation.py` that the finance writers
use.

| here | there |
|---|---|
| `Error` | `NotFound`, `InvalidState`, `Conflict`, `ValidationFailed` |
| `Field` | the value of one key of a JSON body |
| `DecimalSpec.check`, `TextSpec.check`, `checkDate` | `_normalize` of one `FieldSpec` |
| `RecordSchema.validate` | its two outcomes: no item, or the list of items |
| `validateLineItems` | `validate_line_items` (`core/validation.py:428`) |
| `parseDecimal`, `resolveLineTax` | `parse_decimal`, `resolve_line_tax` (`core/validation.py:483`, `:513`) |

A body is read after its keys were matched with the schema's aliases. Upper case is ASCII.
-/

namespace LcsSystem
open DecimalArith Checks

/-! ## Errors -/

/-- One item of the coded error list. -/
structure FieldErrorItem where
  field : String
  code : String
  message : String
  deriving DecidableEq, Repr

inductive Error
  | notFound (message : String)
  | invalidState (message : String)
  | conflict (code message : String) (fieldErrors : List (String × String))
  | validationFailed (message : String) (fieldErrors : List (String × String)) (errors : List FieldErrorItem)
  /-- Raised by the database: a trigger, a constraint or a numeric field overflow. -/
  | database (message : String)
  deriving DecidableEq, Repr

abbrev Result := Except Error

def Error.invalid (message : String) (fieldErrors : List (String × String)) : Error :=
  .validationFailed message fieldErrors []

/-! ## Text -/

/-- `str.isspace` of one character. -/
def isSpace (c : Char) : Bool :=
  let n := c.toNat
  (9 ≤ n && n ≤ 13) || (28 ≤ n && n ≤ 32) || n == 0x85 || n == 0xa0 || n == 0x1680 ||
    (0x2000 ≤ n && n ≤ 0x200a) || n == 0x2028 || n == 0x2029 || n == 0x202f || n == 0x205f || n == 0x3000

def stripChars (s : List Char) : List Char := ((s.dropWhile isSpace).reverse.dropWhile isSpace).reverse

/-- `str.strip`. -/
def strip (s : String) : String := String.ofList (stripChars s.toList)

theorem stripChars_of_forall {s : List Char} (h : ∀ c ∈ s, isSpace c = false) : stripChars s = s := by
  have hdrop (l : List Char) (hl : ∀ c ∈ l, isSpace c = false) : l.dropWhile isSpace = l := by
    cases l with
    | nil => rfl
    | cons c cs => simp [hl c List.mem_cons_self]
  rw [stripChars, hdrop _ h, hdrop _ fun c hc => h c (List.mem_reverse.1 hc), List.reverse_reverse]

theorem stripChars_stripChars (s : List Char) : stripChars (stripChars s) = stripChars s := by
  have hidem : ∀ l : List Char, (l.dropWhile isSpace).dropWhile isSpace = l.dropWhile isSpace :=
    List.dropWhile_idempotent isSpace
  have hfront : (stripChars s).dropWhile isSpace = stripChars s := by
    have hstart' : stripChars s <+: s.dropWhile isSpace := List.rdropWhile_prefix isSpace _
    rw [List.dropWhile_eq_self_iff]
    intro hpos hspace
    have hstart := List.dropWhile_eq_self_iff.1 (hidem s) (hpos.trans_le hstart'.length_le)
    rw [hstart'.getElem hpos] at hspace
    exact hstart hspace
  unfold stripChars at hfront ⊢
  rw [hfront, List.reverse_reverse, hidem]

@[simp] theorem strip_strip (s : String) : strip (strip s) = strip s := by
  simp [strip, stripChars_stripChars]

/-- `str.upper`. -/
def upper (s : String) : String := String.ofList (s.toList.map Char.toUpper)

/-- `str.lower`. -/
def lower (s : String) : String := String.ofList (s.toList.map Char.toLower)

theorem toUpper_of_isUpper {c : Char} (h : c.isUpper = true) : c.toUpper = c := by
  unfold Char.toUpper
  split
  · next hlower =>
    simp only [Char.isUpper, decide_eq_true_eq, UInt32.le_iff_toNat_le] at h
    have hhigh := h.2
    have hlow := hlower.1
    simp only [UInt32.le_iff_toNat_le] at hlow
    simp at hhigh hlow
    omega
  · rfl

theorem toUpper_toUpper (c : Char) : c.toUpper.toUpper = c.toUpper := by
  by_cases h : c.isLower = true
  · refine toUpper_of_isUpper ?_
    simp only [Char.isLower, Char.isUpper, Char.toUpper, Bool.and_eq_true, decide_eq_true_eq, ge_iff_le,
      UInt32.le_iff_toNat_le] at h ⊢
    have h1 := h.1
    have h2 := h.2
    simp at h1 h2
    rw [dif_pos (by simp; omega)]
    simp [UInt32.toNat_add]
    omega
  · have hsame : c.toUpper = c := by
      unfold Char.toUpper
      rw [dif_neg]
      simpa [Char.isLower] using h
    rw [hsame, hsame]

@[simp] theorem upper_upper (s : String) : upper (upper s) = upper s := by
  simp [upper, Function.comp_def]

theorem isSpace_of_isUpper {c : Char} (h : c.isUpper = true) : isSpace c = false := by
  simp only [Char.isUpper, decide_eq_true_eq, ge_iff_le, UInt32.le_iff_toNat_le] at h
  obtain ⟨hlow, hhigh⟩ := h
  have hval : c.toNat = c.val.toNat := rfl
  simp at hlow hhigh
  simp [isSpace]
  omega

theorem isSpace_of_isLower {c : Char} (h : c.isLower = true) : isSpace c = false := by
  simp only [Char.isLower, Bool.and_eq_true, decide_eq_true_eq, ge_iff_le, UInt32.le_iff_toNat_le] at h
  obtain ⟨hlow, hhigh⟩ := h
  have hval : c.toNat = c.val.toNat := rfl
  simp at hlow hhigh
  simp [isSpace]
  omega

theorem isSpace_toUpper (c : Char) : isSpace c.toUpper = isSpace c := by
  by_cases h : c.isLower = true
  · have hupper : c.toUpper.isUpper = true := by
      simp only [Char.isLower, Char.isUpper, Char.toUpper, Bool.and_eq_true, decide_eq_true_eq, ge_iff_le,
        UInt32.le_iff_toNat_le] at h ⊢
      have h1 := h.1
      have h2 := h.2
      simp at h1 h2
      rw [dif_pos (by simp; omega)]
      simp [UInt32.toNat_add]
      omega
    rw [isSpace_of_isUpper hupper, isSpace_of_isLower h]
  · have hsame : c.toUpper = c := by
      unfold Char.toUpper
      rw [dif_neg]
      simpa [Char.isLower] using h
    rw [hsame]

theorem strip_upper (s : String) : strip (upper s) = upper (strip s) := by
  have hmap : (isSpace ∘ Char.toUpper) = isSpace := funext isSpace_toUpper
  have hdrop (l : List Char) : (l.map Char.toUpper).dropWhile isSpace = (l.dropWhile isSpace).map Char.toUpper := by
    rw [List.dropWhile_map, hmap]
  simp only [strip, upper, stripChars, String.toList_ofList, hdrop, ← List.map_reverse]

theorem strip_of_forall {l : List Char} (h : ∀ c ∈ l, isSpace c = false) : strip (String.ofList l) = String.ofList l := by
  rw [strip, String.toList_ofList, stripChars_of_forall h]

/-- Upper-case text without spaces reads as itself. -/
theorem upper_strip_of_isUpper {s : String} (h : s.toList.all Char.isUpper = true) : upper (strip s) = s := by
  have hchars : ∀ c ∈ s.toList, c.isUpper = true := List.all_eq_true.1 h
  have hstrip : stripChars s.toList = s.toList := stripChars_of_forall fun c hc => isSpace_of_isUpper (hchars c hc)
  have hupper : s.toList.map Char.toUpper = s.toList :=
    (List.map_congr_left fun c hc => toUpper_of_isUpper (hchars c hc)).trans (List.map_id _)
  simp [upper, strip, hstrip, hupper]

/-- The number that `str.isdigit` text denotes. -/
def digits? (s : String) : Option ℕ :=
  match s.toList with
  | [] => none
  | c :: cs =>
    (c :: cs).foldl (fun n d => n.bind fun n => if d.isDigit then some (10 * n + (d.toNat - 48)) else none) (some 0)

theorem isSpace_of_isDigit {c : Char} (h : c.isDigit = true) : isSpace c = false := by
  simp only [Char.isDigit, Bool.and_eq_true, decide_eq_true_eq, ge_iff_le, UInt32.le_iff_toNat_le] at h
  obtain ⟨hlow, hhigh⟩ := h
  have hval : c.toNat = c.val.toNat := rfl
  simp at hlow hhigh
  simp [isSpace]
  omega

theorem digits?_eq_some {s : String} (hne : s.toList ≠ []) (h : ∀ c ∈ s.toList, c.isDigit = true) :
    digits? s = some (Nat.ofDigitChars 10 s.toList 0) := by
  have hfold : ∀ (l : List Char) (n : ℕ), (∀ c ∈ l, c.isDigit = true) →
      l.foldl (fun n d => n.bind fun n => if d.isDigit then some (10 * n + (d.toNat - 48)) else none) (some n) =
        some (Nat.ofDigitChars 10 l n) := by
    intro l
    induction l with
    | nil => simp
    | cons c cs ih =>
      intro n hl
      rw [List.forall_mem_cons] at hl
      rw [List.foldl_cons, Option.bind_some, if_pos hl.1, ih _ hl.2, Nat.ofDigitChars_cons]
      rfl
  unfold digits?
  split
  · contradiction
  · next c cs hcs => exact hcs ▸ hfold _ 0 h

/-- A number is read back from its digits. -/
theorem digits?_toString (n : ℕ) : strip (toString n) = toString n ∧ digits? (toString n) = some n := by
  have hlist : (toString n).toList = Nat.toDigits 10 n := Nat.toList_repr
  have hdigit : ∀ c ∈ (toString n).toList, c.isDigit = true := by
    intro c hc
    rw [hlist] at hc
    exact Nat.isDigit_of_mem_toDigits (by decide) (by decide) hc
  constructor
  · rw [strip, stripChars_of_forall fun c hc => isSpace_of_isDigit (hdigit c hc), String.ofList_toList]
  · rw [digits?_eq_some (hlist ▸ Nat.toDigits_ne_nil) hdigit, hlist, Nat.ofDigitChars_ten_toDigits]

/-! ## Payload fields -/

/-- The value a body has under a key. `blank` is null or empty text; `malformed` is a value that
does not read as an `α` (text that is no finite number, no date). -/
inductive Field (α : Type)
  | absent
  | blank
  | malformed
  | value (a : α)
  deriving DecidableEq

namespace Field
variable {α : Type}

/-- `data.get(key)`, where a blank value reads as none. -/
def get? : Field α → Option α
  | value a => some a
  | _ => none

/-- `data.get(key) not in (None, "")`. -/
def given : Field α → Bool
  | absent | blank => false
  | _ => true

/-- `key in data`. -/
def sent : Field α → Bool
  | absent => false
  | _ => true

@[simp] theorem get?_absent : (absent : Field α).get? = none := rfl

end Field

/-! ## Schemas -/

/-- A bound and its spelling in the message. -/
structure Bound where
  value : ℚ
  text : String

structure DecimalSpec where
  key : String
  minimum : Option Bound := none
  maximum : Option Bound := none
  decimalPlaces : Option ℕ := none

/-- `_to_decimal`, `_enforce_range` and the scale check, in that order. -/
def DecimalSpec.check (spec : DecimalSpec) : Field ℚ → List FieldErrorItem
  | .absent | .blank => []
  | .malformed => [⟨spec.key, "INVALID_TYPE", "Enter a number."⟩]
  | .value q =>
    match spec.minimum.filter fun b => decide (q < b.value) with
    | some b => [⟨spec.key, "OUT_OF_RANGE", "Enter a value greater than or equal to " ++ b.text ++ "."⟩]
    | none =>
      match spec.maximum.filter fun b => decide (b.value < q) with
      | some b => [⟨spec.key, "OUT_OF_RANGE", "Enter a value less than or equal to " ++ b.text ++ "."⟩]
      | none =>
        match spec.decimalPlaces.filter fun p => !usesAtMost p q with
        | some p => [⟨spec.key, "INVALID_PRECISION", "Use at most " ++ toString p ++ " decimal places."⟩]
        | none => []

/-- A given number is checked against the two bounds and the scale. -/
theorem DecimalSpec.check_value_eq_nil {spec : DecimalSpec} {q : ℚ} :
    spec.check (.value q) = [] ↔ (∀ b ∈ spec.minimum, b.value ≤ q) ∧ (∀ b ∈ spec.maximum, q ≤ b.value) ∧
      ∀ p ∈ spec.decimalPlaces, usesAtMost p q = true := by
  obtain ⟨key, minimum, maximum, decimalPlaces⟩ := spec
  have hmin : (∀ b ∈ minimum, b.value ≤ q) ↔ minimum.filter (fun b => decide (q < b.value)) = none := by
    cases minimum <;> simp [Option.filter]
  have hmax : (∀ b ∈ maximum, q ≤ b.value) ↔ maximum.filter (fun b => decide (b.value < q)) = none := by
    cases maximum <;> simp [Option.filter]
  have hplaces : (∀ p ∈ decimalPlaces, usesAtMost p q = true) ↔ decimalPlaces.filter (fun p => !usesAtMost p q) = none := by
    cases decimalPlaces <;> simp [Option.filter]
  simp only [hmin, hmax, hplaces, DecimalSpec.check]
  split
  · next h => simp [h]
  · next h =>
    split
    · next h' => simp [h']
    · next h' =>
      split
      · next h'' => simp [h'']
      · next h'' => simp [h, h', h'']

theorem DecimalSpec.minimum_le {spec : DecimalSpec} {b : Bound} {q : ℚ} (hb : spec.minimum = some b)
    (h : spec.check (.value q) = []) : b.value ≤ q := by
  by_contra hlt
  simp [DecimalSpec.check, hb, Option.filter, not_le.1 hlt] at h

structure TextSpec where
  key : String
  minLength : Option ℕ := none
  maxLength : Option ℕ := none

/-- The text a schema hands on: stripped, and blank when nothing is left. -/
def Field.text : Field String → Field String
  | .value s => if strip s = "" then .blank else .value (strip s)
  | f => f

def TextSpec.check (spec : TextSpec) (f : Field String) : List FieldErrorItem :=
  match f.text with
  | .absent | .blank => []
  | .malformed => [⟨spec.key, "INVALID_TYPE", "Enter text."⟩]
  | .value s =>
    match spec.minLength.filter fun n => decide (s.length < n) with
    | some n => [⟨spec.key, "TOO_SHORT", "Use at least " ++ toString n ++ " characters."⟩]
    | none =>
      match spec.maxLength.filter fun n => decide (n < s.length) with
      | some n => [⟨spec.key, "TOO_LONG", "Use at most " ++ toString n ++ " characters."⟩]
      | none => []

/-- A required field: missing and blank are refused alike. -/
def checkRequired {α : Type} (key : String) (items : Field α → List FieldErrorItem) (f : Field α) :
    List FieldErrorItem :=
  if f.given then items f else [⟨key, "REQUIRED", "This field is required."⟩]

/-- A text of one of the `choices`, which are upper case. -/
def TextSpec.checkChoice (spec : TextSpec) (choices : List String) (f : Field String) : List FieldErrorItem :=
  match spec.check f with
  | [] =>
    match f.text.get? with
    | some s =>
      if upper s ∈ choices then [] else [⟨spec.key, "INVALID_CHOICE", "Choose one of the available options."⟩]
    | none => []
  | items => items

/-- `_integer`: a number without a fraction, in the range. -/
def DecimalSpec.checkInteger (spec : DecimalSpec) : Field ℚ → List FieldErrorItem
  | .value q => if q.den = 1 then spec.check (.value q) else [⟨spec.key, "INVALID_TYPE", "Enter a whole number."⟩]
  | f => spec.check f

def checkDate {α : Type} (key : String) : Field α → List FieldErrorItem
  | .malformed => [⟨key, "INVALID_FORMAT", "Enter a valid date."⟩]
  | _ => []

/-- What `RecordSchema.validate` raises, given the items of its fields in schema order. -/
def RecordSchema.validate (items : List FieldErrorItem) : Result PUnit :=
  check (items = []) (.validationFailed "Please correct the highlighted fields."
    (items.map fun i => (i.field, i.message)) items)

/-- The items of row `index`, addressed as `field.index.key`. -/
def rowItems (index : ℕ) (items : List FieldErrorItem) (field : String := "lines") : List FieldErrorItem :=
  items.map fun i => { i with field := field ++ "." ++ toString index ++ "." ++ i.field }

/-- `validate_line_items`: every row is checked, the items of all rows are raised together. -/
def validateLineItems {α : Type} (schema : α → List FieldErrorItem) (lines : List α) (field : String := "lines") :
    Result PUnit :=
  let items := (lines.zipIdx.map fun (line, index) => rowItems index (schema line) field).flatten
  check (items = []) (.validationFailed "Please correct the document lines."
    (items.map fun i => (i.field, i.message)) items)

/-- Rows are checked one by one: the list of all their errors is empty where each one's is. -/
theorem flatten_zipIdx_eq_nil {α β : Type} {f : α → ℕ → List β} {P : α → Prop}
    (hf : ∀ a i, f a i = [] ↔ P a) (rows : List α) :
    (rows.zipIdx.map fun x => f x.1 x.2).flatten = [] ↔ ∀ row ∈ rows, P row := by
  rw [List.flatten_eq_nil_iff]
  constructor
  · intro h row hrow
    obtain ⟨i, hi⟩ := List.mem_iff_getElem?.1 hrow
    exact (hf row i).1 (h _ (List.mem_map.2 ⟨(row, i), List.mk_mem_zipIdx_iff_getElem?.2 hi, rfl⟩))
  · intro h errors herrors
    obtain ⟨x, hx, rfl⟩ := List.mem_map.1 herrors
    exact (hf x.1 x.2).2 (h x.1 (List.fst_mem_of_mem_zipIdx hx))

theorem validateLineItems_eq_ok {α : Type} {schema : α → List FieldErrorItem} {lines : List α} {field : String}
    {u : PUnit} : validateLineItems schema lines field = .ok u ↔ ∀ line ∈ lines, schema line = [] := by
  refine check_eq_ok.trans (flatten_zipIdx_eq_nil (f := fun line index => rowItems index (schema line) field) ?_ lines)
  intro line index
  exact List.map_eq_nil_iff

/-! ## Money lines -/

def lineError (field message : String) : Error :=
  .invalid "Please correct the document lines." [(field, message)]

/-- Absent and blank read as `default`; `places` mirrors the column scale. -/
def parseDecimal (f : Field ℚ) (field : String) (default : ℚ) (places : ℕ) : Result ℚ :=
  match f with
  | .absent | .blank => .ok default
  | .malformed => .error (lineError field "Enter a number.")
  | .value q => do
    check (usesAtMost places q = true) (lineError field ("Use at most " ++ toString places ++ " decimal places."))
    return q

/-- The three spellings of a line's tax. -/
structure TaxInput where
  taxRate : Field ℚ
  taxAmount : Field ℚ
  tax : Field ℚ
  deriving DecidableEq

/-- `(field, amount, rate)`: an explicit rate wins, then an amount, then the legacy rate. -/
def resolveLineTax (line : TaxInput) (taxable : ℚ) (pre : String) : Result (String × ℚ × ℚ) :=
  if line.taxRate.given then do
    let rate ← parseDecimal line.taxRate (pre ++ ".taxRate") 0 4
    return ("taxRate", div (mul taxable rate) 100, rate)
  else if line.taxAmount.given then do
    let amount ← parseDecimal line.taxAmount (pre ++ ".taxAmount") 0 4
    return ("taxAmount", amount, if 0 < taxable then mul (div amount taxable) 100 else 0)
  else if line.tax.given then do
    let rate ← parseDecimal line.tax (pre ++ ".tax") 0 4
    return ("tax", div (mul taxable rate) 100, rate)
  else
    return ("taxRate", 0, 0)

end LcsSystem
