import LcsSystem.Lib.Double
import LcsSystem.Lib.Calendar
import LcsSystem.MasterData.ConfigVersions

/-!
# Values of form fields

`_validate_values` and `_coerce_value` of `src/backend/app/modules/operations/component_tabs.py:163-261`: a submitted
value is brought into the shape of its attribute's type and checked.

A number is its value (1.0 is 1), digits are ASCII, numbers in text have no underscores, doubles have any exponent.
`datetime.fromisoformat` is a parameter: the texts it accepts.
-/

namespace LcsSystem
open Relational DecimalArith

/-! ## Numbers and dates in text -/

/-- The number of decimals of `q`. -/
def decimalsOf (q : ℚ) : ℕ := ((List.range 400).find? fun k => (q * 10 ^ k).den == 1).getD 400

/-- `repr` of a positive double that is no whole number. -/
def fractionText (q : ℚ) : String :=
  let k := decimalsOf q
  let digits := toString (q * 10 ^ k).num
  if q < 1 / 10 ^ 4 then
    let exponent := toString (-Int.log 10 q)
    String.ofList (digits.toList.take 1) ++ (if digits.length = 1 then "" else "." ++ String.ofList (digits.toList.drop 1)) ++
      "e-" ++ (if exponent.length = 1 then "0" else "") ++ exponent
  else
    let padded := List.replicate (k + 1 - digits.length) '0' ++ digits.toList
    String.ofList (padded.take (padded.length - k)) ++ "." ++ String.ofList (padded.drop (padded.length - k))

/-- `str` of a number of a JSON body. -/
def numberText (q : ℚ) : String :=
  let x := if q.den = 1 then q else if q < 0 then -jsonNumber (-q) else jsonNumber q
  if x.den = 1 then toString x.num else if x < 0 then "-" ++ fractionText (-x) else fractionText x

/-- `repr` of text. -/
def quoted (s : String) : String :=
  let quote := if '\'' ∈ s.toList ∧ '"' ∉ s.toList then '"' else '\''
  let escaped := s.toList.flatMap fun c =>
    if c = '\\' then ['\\', '\\'] else if c = '\n' then ['\\', 'n'] else if c = '\t' then ['\\', 't']
    else if c = '\r' then ['\\', 'r'] else if c = quote then ['\\', c] else [c]
  String.ofList (quote :: escaped ++ [quote])

mutual

/-- `repr` of a value. -/
def reprText : Json → String
  | .null => "None"
  | .bool b => if b then "True" else "False"
  | .num q => numberText q
  | .str s => quoted s
  | .list items => "[" ++ ", ".intercalate (reprItems items) ++ "]"
  | .dict entries => "\x7b" ++ ", ".intercalate (reprEntries entries) ++ "\x7d"

def reprItems : List Json → List String
  | [] => []
  | item :: items => reprText item :: reprItems items

def reprEntries : List (String × Json) → List String
  | [] => []
  | (key, value) :: entries => (quoted key ++ ": " ++ reprText value) :: reprEntries entries

end

/-- `str(value)`. -/
def strOf : Json → String
  | .str s => s
  | value => reprText value

/-- `int(text)`: digits after an optional sign. -/
def integerText (s : List Char) : Option ℤ :=
  match s with
  | '-' :: cs => (digits? (String.ofList cs)).map fun n => -(n : ℤ)
  | '+' :: cs => (digits? (String.ofList cs)).map fun n => (n : ℤ)
  | cs => (digits? (String.ofList cs)).map fun n => (n : ℤ)

/-- `Decimal(text)` of a finite number. -/
def decimalText (s : String) : Option ℚ :=
  let (negative, unsigned) := match stripChars s.toList with
    | '-' :: cs => (true, cs)
    | '+' :: cs => (false, cs)
    | cs => (false, cs)
  let mantissa := unsigned.takeWhile fun c => c ≠ 'e' && c ≠ 'E'
  let exponent := match unsigned.dropWhile fun c => c ≠ 'e' && c ≠ 'E' with
    | [] => some 0
    | _ :: cs => integerText cs
  let whole := mantissa.takeWhile fun c => c ≠ '.'
  let fraction := (mantissa.dropWhile fun c => c ≠ '.').drop 1
  match digits? (String.ofList (whole ++ fraction)), exponent with
  | some n, some e => some ((if negative then -1 else 1) * n * (10 : ℚ) ^ (e - fraction.length))
  | _, _ => none

/-- `Decimal(str(value))`. -/
def decimalOfJson : Json → Option ℚ
  | .num q => some (if q.den = 1 then q else if q < 0 then -jsonNumber (-q) else jsonNumber q)
  | .str s => decimalText s
  | _ => none

/-- `float` of a decimal, as JSON shows it. -/
def floatOf (q : ℚ) : ℚ := if q < 0 then -jsonNumber (-q) else jsonNumber q

/-- Two or four digits. -/
def padded (width n : ℕ) : List Char :=
  let digits := (toString n).toList
  List.replicate (width - digits.length) '0' ++ digits

/-- `datetime.strptime(text, "%Y-%m-%d").date().isoformat()`. -/
def isoDate (text : List Char) : Option String :=
  match text.splitOn '-' with
  | [year, month, day] =>
    match digits? (String.ofList year), digits? (String.ofList month), digits? (String.ofList (day.dropWhile (· == ' '))) with
    | some y, some m, some d =>
      if year.length = 4 ∧ month.length ≤ 2 ∧ day.length ≤ 2 ∧ 1 ≤ y ∧ 1 ≤ m ∧ m ≤ 12 ∧ 1 ≤ d ∧ d ≤ Calendar.daysInMonth y m then
        some (String.ofList (padded 4 y ++ '-' :: padded 2 m ++ '-' :: padded 2 d))
      else none
    | _, _, _ => none
  | _ => none

/-! ## One value -/

/-- `_empty`. -/
def isEmptyValue : Json → Bool
  | .null | .list [] | .dict [] => true
  | .str s => s == ""
  | _ => false

/-- `str(value).strip().lower() in {"true", "yes", "1", "on"}`. -/
def isTrueText (s : String) : Bool :=
  ["true", "yes", "1", "on"].contains (String.ofList ((strip s).toList.map Char.toLower))

/-- `int(value)`. -/
def integerOfJson : Json → Option ℤ
  | .bool b => some (if b then 1 else 0)
  | .num q => some (if q < 0 then -⌊-q⌋ else ⌊q⌋)
  | .str s => integerText (stripChars s.toList)
  | _ => none

section
variable (fromIsoFormat : String → Bool)

/-- `text.replace("Z", "+00:00")`. -/
def zuluOffset (s : String) : String := String.ofList (s.toList.flatMap fun c => if c = 'Z' then "+00:00".toList else [c])

/-- `_coerce_value`. -/
def coerceValue (type : DataType) (value : Json) : Except String Json :=
  match type with
  | .integer =>
    match decimalOfJson value with
    | some q => if q.den = 1 then .ok (.num q) else .error "Must be a whole number"
    | none => .error "Must be a whole number"
  | .number =>
    match decimalOfJson value with
    | some q => .ok (.num (if q.den = 1 then q else floatOf q))
    | none => .error "Must be a number"
  | .decimal | .money =>
    match decimalOfJson value with
    | some q => .ok (.num (floatOf q))
    | none => .error "Must be a number"
  | .date =>
    match isoDate ((strOf value).toList.take 10) with
    | some date => .ok (.str date)
    | none => .error "Must be a valid date"
  | .datetime =>
    if fromIsoFormat (zuluOffset (strOf value)) then .ok (.str (zuluOffset (strOf value))) else .error "Must be a valid date/time"
  | .checkbox | .boolean =>
    match value with
    | .bool b => .ok (.bool b)
    | value => .ok (.bool (isTrueText (strOf value)))
  | .multiSelect =>
    match value with
    | .list items => .ok (.list items)
    | value => .ok (.list [value])
  | .reference =>
    match integerOfJson value with
    | some n => .ok (.num n)
    | none => .error "Must be a reference id"
  | .text | .textarea | .currency | .select => .ok (.str (strOf value))

/-- `_option_values`: the value, else the label, of each option. -/
def optionValues (options : List Json) : List String :=
  (options.filterMap fun option => match option with
    | .dict entries => (entries.lookup "value").or (entries.lookup "label")
    | option => some option).filterMap fun candidate =>
      if candidate = .null ∨ strOf candidate = "" then none else some (strOf candidate)

/-- The check of a coerced value against the options or references of its attribute. -/
def optionError (referenceIds : String → List ℤ) (a : ComponentAttribute) (coerced : Json) : Option String :=
  match a.dataType with
  | .select | .currency =>
    if optionValues a.options ≠ [] ∧ strOf coerced ∉ optionValues a.options then some "Invalid option" else none
  | .multiSelect =>
    match coerced with
    | .list items =>
      if optionValues a.options ≠ [] ∧ ∃ item ∈ items, strOf item ∉ optionValues a.options then some "Invalid option" else none
    | _ => some "Must be a list"
  | .reference =>
    match integerOfJson coerced with
    | some n => if n ∈ referenceIds (a.referenceType.getD "") then none else some "Reference not found"
    | none => some "Reference not found"
  | _ => none

/-! ## The values of a row -/

/-- The fields that a group takes: active and visible members, in their order. -/
def groupAttributes (config : Configuration) (groupId : ℕ) : List (ComponentGroupAttribute × (ℕ × ComponentAttribute)) :=
  activeMemberships config fun membership => membership.groupId == groupId && membership.isVisible

/-- What a field stores: nothing where it is empty, else the coerced value; or why it is refused. -/
def fieldValue (referenceIds : String → List ℤ) (member : ComponentGroupAttribute × (ℕ × ComponentAttribute))
    (value : Json) : Except String (Option Json) :=
  if isEmptyValue value then
    if member.1.isRequired.getD member.2.2.isRequired then .error "Required" else .ok none
  else do
    let coerced ← coerceValue fromIsoFormat member.2.2.dataType value
    match optionError referenceIds member.2.2 coerced with
    | some message => .error message
    | none => .ok (some coerced)

/-- A submitted value, else the one that is stored. -/
def submittedOr (provided existing : List (String × Json)) (code : String) : Json :=
  ((provided.lookup code).or (existing.lookup code)).getD .null

/-- `_validate_values`: the fields of the group are replaced, other stored values are kept. -/
def validateValues (referenceIds : String → List ℤ) (members : List (ComponentGroupAttribute × (ℕ × ComponentAttribute)))
    (provided existing : List (String × Json)) : Except (List (String × String)) (List (String × Json)) :=
  let fields := members.map fun member => (member.2.2.code,
    fieldValue fromIsoFormat referenceIds member (submittedOr provided existing member.2.2.code))
  let errors := fields.filterMap fun field => match field.2 with
    | .error message => some (field.1, message)
    | .ok _ => none
  if errors = [] then
    .ok ((existing.filter fun entry => !fields.any fun field => field.1 == entry.1) ++
      fields.filterMap fun field => match field.2 with
        | .ok (some value) => some (field.1, value)
        | _ => none)
  else .error errors

end

/-! ## Digits -/

theorem isDigit_toString {n : ℕ} {c : Char} (h : c ∈ (toString n).toList) : c.isDigit = true := by
  rw [show (toString n).toList = Nat.toDigits 10 n from Nat.toList_repr] at h
  exact Nat.isDigit_of_mem_toDigits (by decide) (by decide) h

theorem toString_ne_nil (n : ℕ) : (toString n).toList ≠ [] := by
  rw [show (toString n).toList = Nat.toDigits 10 n from Nat.toList_repr]
  exact Nat.toDigits_ne_nil

theorem digits?_ofList {cs : List Char} (hne : cs ≠ []) (h : ∀ c ∈ cs, c.isDigit = true) :
    digits? (String.ofList cs) = some (Nat.ofDigitChars 10 cs 0) := by
  rw [digits?_eq_some (by rwa [String.toList_ofList]) (by rwa [String.toList_ofList]), String.toList_ofList]

/-- Zeros in front change nothing. -/
theorem digits?_zeros (k n : ℕ) : digits? (String.ofList (List.replicate k '0' ++ (toString n).toList)) = some n := by
  have hdigit : ∀ c ∈ List.replicate k '0' ++ (toString n).toList, c.isDigit = true := by
    intro c hc
    rcases List.mem_append.1 hc with hc | hc
    · rw [List.eq_of_mem_replicate hc]
      decide
    · exact isDigit_toString hc
  have hne : List.replicate k '0' ++ (toString n).toList ≠ [] := by simp
  rw [digits?_ofList hne hdigit, Nat.ofDigitChars_append, Nat.ofDigitChars_replicate_zero, Nat.mul_zero,
    show (toString n).toList = Nat.toDigits 10 n from Nat.toList_repr, Nat.ofDigitChars_ten_toDigits]

theorem digits?_padded (width n : ℕ) : digits? (String.ofList (padded width n)) = some n := digits?_zeros _ n

theorem length_padded {w n : ℕ} (hw : 0 < w) (h : n < 10 ^ w) : (padded w n).length = w := by
  have hlength : (toString n).toList.length ≤ w := by
    rw [show (toString n).toList = Nat.toDigits 10 n from Nat.toList_repr]
    exact (Nat.length_toDigits_le_iff (by decide) hw).2 h
  simp only [padded, List.length_append, List.length_replicate]
  omega

/-- Two digits. -/
theorem padded_two {n : ℕ} (h : n < 100) : ∃ a b, padded 2 n = [a, b] := List.length_eq_two.1 (length_padded (by decide) h)

theorem toList_toString_int (z : ℤ) :
    (toString z).toList = (if z < 0 then ['-'] else []) ++ (toString z.natAbs).toList := by
  cases z with
  | ofNat n => rfl
  | negSucc n =>
    rw [if_pos (Int.negSucc_lt_zero n)]
    change ("-" ++ Nat.repr (n + 1)).toList = '-' :: (Nat.repr (n + 1)).toList
    rw [String.toList_append]
    rfl

theorem foldl_digits_none (cs : List Char) :
    cs.foldl (fun n d => n.bind fun n : ℕ => if d.isDigit then some (10 * n + (d.toNat - 48)) else none) none = none := by
  induction cs with
  | nil => rfl
  | cons c cs ih => exact ih

/-- What reads as a number has digits only, and no more than it has places. -/
theorem lt_of_digits? {cs : List Char} {n : ℕ} (h : digits? (String.ofList cs) = some n) :
    (∀ c ∈ cs, c.isDigit = true) ∧ n < 10 ^ cs.length := by
  have hfold : ∀ (cs : List Char) (start n : ℕ), cs.foldl (fun n d => n.bind fun n : ℕ =>
      if d.isDigit then some (10 * n + (d.toNat - 48)) else none) (some start) = some n →
      (∀ c ∈ cs, c.isDigit = true) ∧ n < (start + 1) * 10 ^ cs.length := by
    intro cs
    induction cs with
    | nil =>
      intro start n hn
      cases hn
      simp
    | cons c cs ih =>
      intro start n hn
      rw [List.foldl_cons, Option.bind_some] at hn
      by_cases hc : c.isDigit = true
      · rw [if_pos hc] at hn
        obtain ⟨hrest, hlt⟩ := ih _ n hn
        refine ⟨List.forall_mem_cons.2 ⟨hc, hrest⟩, hlt.trans_le ?_⟩
        have hle : c.toNat ≤ 57 := by
          simp only [Char.isDigit, Bool.and_eq_true, decide_eq_true_eq, ge_iff_le, UInt32.le_iff_toNat_le] at hc
          exact hc.2
        rw [List.length_cons, pow_succ, mul_comm (10 ^ cs.length) 10, ← mul_assoc]
        exact Nat.mul_le_mul_right _ (by omega)
      · rw [if_neg hc, foldl_digits_none] at hn
        cases hn
  rw [digits?, String.toList_ofList] at h
  split at h
  · cases h
  · simpa using hfold _ 0 n h

end LcsSystem
