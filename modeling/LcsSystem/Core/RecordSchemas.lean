import LcsSystem.Core.Validation
import LcsSystem.Lib.Entries
import LcsSystem.Operations.ComponentValues

/-!
# Payload schemas

`RecordSchema.validate` and `_normalize` of `src/backend/app/core/validation.py:60-377` over payloads as they come: any
value under any key, before the aliases are matched.

| here             | there                                                                        |
|------------------|------------------------------------------------------------------------------|
| `PyValue`        | a value of the payload or of the result                                        |
| `PyValue.float`  | a finite float: its value, and the decimal that `str` prints                     |
| `Readers`        | `re.fullmatch` of a field's pattern; what `datetime.fromisoformat` makes of a text     |
| `FieldSpec.read` | one turn of the loop over the fields                                             |

Decimals are their values, with exponents in the range of the decimal context. White space, digits and case are ASCII.
-/

namespace LcsSystem.Schemas
open Calendar DecimalArith Checks Entries

structure DateTime where
  date : Date
  /-- Microseconds since midnight. -/
  clock : ℕ
  offset : Option ℤ
  deriving DecidableEq

inductive PyValue
  | none
  | bool (b : Bool)
  | int (n : ℤ)
  | float (value printed : ℚ)
  | nonfinite
  | text (s : String)
  | list (items : List PyValue)
  | dict (entries : List (String × PyValue))
  | decimal (q : ℚ)
  | date (d : Date)
  | datetime (t : DateTime)

abbrev Payload := List (String × PyValue)

inductive FieldKind
  | string | integer | decimal | boolean | date | datetime | email | phone | url | reference | json
  deriving DecidableEq

structure FieldSpec where
  key : String
  kind : FieldKind := .string
  required : Bool := false
  minLength : Option ℕ := none
  maxLength : Option ℕ := none
  minimum : Option Bound := none
  maximum : Option Bound := none
  decimalPlaces : Option ℕ := none
  pattern : Option String := none
  choices : Option (List String) := none
  strip : Bool := true
  aliases : List String := []

structure RecordSchema where
  fields : List FieldSpec
  /-- The `check`s of the rules. -/
  crossField : List (Payload → Option FieldErrorItem)
  readonly : List String
  rejectUnknown : Bool

structure Readers where
  /-- `re.fullmatch(pattern, text)`; a malformed pattern matches. -/
  fullmatch : String → String → Bool
  /-- Of a text that `_DATETIME_PATTERN` matches. -/
  datetime : String → Option DateTime

/-- `_Invalid`. -/
structure Invalid where
  code : String
  message : String
  deriving DecidableEq

/-! ## Patterns -/

/-- Where `$` holds: at the end, and before a last line break. -/
def endings (text : List Char) : List (List Char) := if text.getLast? = some '\n' then [text, text.dropLast] else [text]

/-- `[^\s@]`. -/
def isAddressChar (c : Char) : Bool := !isSpace c && c != '@'

def isEmailText (text : List Char) : Bool :=
  match text.splitOn '@' with
  | [mailbox, host] =>
    !mailbox.isEmpty && mailbox.all isAddressChar && host.all isAddressChar &&
      (List.range host.length).any fun i => decide (1 ≤ i) && host[i]? == some '.' && decide (i + 3 ≤ host.length)
  | _ => false

/-- `_EMAIL_PATTERN`. -/
def matchesEmail (s : String) : Bool := (endings s.toList).any isEmailText

def isPhoneText (text : List Char) : Bool :=
  let unsigned := match text with
    | '+' :: cs => cs
    | cs => cs
  match unsigned with
  | [] => false
  | c :: cs =>
    (c.isDigit || c == '(') && decide (4 ≤ cs.length) && decide (cs.length ≤ 20) &&
      cs.all fun d => d.isDigit || isSpace d || ['(', ')', '.', '-'].contains d

/-- `_PHONE_PATTERN`, and 6 to 15 digits. -/
def matchesPhone (s : String) : Bool :=
  let digits := s.toList.countP Char.isDigit
  (endings s.toList).any isPhoneText && decide (6 ≤ digits) && decide (digits ≤ 15)

def isUrlText (text : List Char) : Bool :=
  ["http://", "https://"].any fun scheme =>
    let address := text.drop scheme.length
    let host := address.takeWhile fun c => c != '.'
    let rest := (address.dropWhile fun c => c != '.').drop 1
    (text.map Char.toLower).take scheme.length == scheme.toList && !host.isEmpty && host.all (fun c => !isSpace c) &&
      decide (2 ≤ rest.length) && rest.all fun c => !isSpace c

/-- `_URL_PATTERN`. -/
def matchesUrl (s : String) : Bool := (endings s.toList).any isUrlText

/-- `_matches_choice`. -/
def matchesChoice (text : String) (choices : List String) : Bool := choices.any fun choice => lower choice == lower text

/-! ## Values of the kinds -/

/-- `is_blank`. -/
def isBlank : PyValue → Bool
  | .none => true
  | .text s => LcsSystem.strip s == ""
  | .list [] => true
  | .dict [] => true
  | _ => false

/-- `_string`. -/
def stringValue (readers : Readers) (spec : FieldSpec) : PyValue → Except Invalid PyValue
  | .text s => do
    let text := if spec.strip then LcsSystem.strip s else s
    check (¬(spec.required = true ∧ text = "")) ⟨"REQUIRED", "This field is required."⟩
    check (∀ n ∈ spec.minLength, n ≤ text.length)
      ⟨"TOO_SHORT", "Use at least " ++ toString (spec.minLength.getD 0) ++ " characters."⟩
    check (∀ n ∈ spec.maxLength, text.length ≤ n)
      ⟨"TOO_LONG", "Use at most " ++ toString (spec.maxLength.getD 0) ++ " characters."⟩
    check (spec.kind = .email → matchesEmail text = true) ⟨"INVALID_FORMAT", "Enter a valid email address."⟩
    check (spec.kind = .phone → matchesPhone text = true) ⟨"INVALID_FORMAT", "Enter a valid phone number."⟩
    check (spec.kind = .url → matchesUrl text = true) ⟨"INVALID_FORMAT", "Enter a valid web address."⟩
    check (∀ choices ∈ spec.choices, matchesChoice text choices = true)
      ⟨"INVALID_CHOICE", "Choose one of the available options."⟩
    check (∀ pattern ∈ spec.pattern, readers.fullmatch pattern text = true)
      ⟨"INVALID_FORMAT", "Enter a value in the expected format."⟩
    return .text text
  | _ => .error ⟨"INVALID_TYPE", "Enter text."⟩

/-- The limit of `str` on the digits of an `int`. -/
def maxStrDigits : ℕ := 4300

/-- `Decimal(str(value).strip())`, where it is a finite number. -/
def decimalOf : PyValue → Option ℚ
  | .int n => if n.natAbs < 10 ^ maxStrDigits then some n else none
  | .float _ printed => some printed
  | .decimal q => some q
  | .text s => decimalText s
  | _ => none

/-- `_to_decimal`. -/
def toDecimal (value : PyValue) : Except Invalid ℚ := require (decimalOf value) ⟨"INVALID_TYPE", "Enter a number."⟩

/-- `_enforce_range`. -/
def enforceRange (spec : FieldSpec) (number : ℚ) : Except Invalid PUnit.{1} := do
  check (∀ b ∈ spec.minimum, b.value ≤ number)
    ⟨"OUT_OF_RANGE", "Enter a value greater than or equal to " ++ (spec.minimum.map Bound.text).getD "" ++ "."⟩
  check (∀ b ∈ spec.maximum, number ≤ b.value)
    ⟨"OUT_OF_RANGE", "Enter a value less than or equal to " ++ (spec.maximum.map Bound.text).getD "" ++ "."⟩

/-- `_integer`. -/
def integerValue (spec : FieldSpec) (value : PyValue) : Except Invalid PyValue := do
  let number ← toDecimal value
  check (number.den = 1) ⟨"INVALID_TYPE", "Enter a whole number."⟩
  enforceRange spec number
  return .int number.num

/-- `_decimal`. -/
def decimalValue (spec : FieldSpec) (value : PyValue) : Except Invalid PyValue := do
  let number ← toDecimal value
  enforceRange spec number
  check (∀ places ∈ spec.decimalPlaces, usesAtMost places number = true)
    ⟨"INVALID_PRECISION", "Use at most " ++ toString (spec.decimalPlaces.getD 0) ++ " decimal places."⟩
  return .decimal number

/-- `_TRUE_TEXT` and `_FALSE_TEXT`. -/
def trueText : List String := ["true", "yes", "y", "1", "on", "active", "enabled"]

def falseText : List String := ["false", "no", "n", "0", "off", "inactive", "disabled"]

/-- `_boolean`. -/
def booleanValue : PyValue → Except Invalid PyValue
  | .bool b => .ok (.bool b)
  | .int 0 => .ok (.bool false)
  | .int 1 => .ok (.bool true)
  | .text s =>
    if trueText.contains (lower (LcsSystem.strip s)) then .ok (.bool true)
    else if falseText.contains (lower (LcsSystem.strip s)) then .ok (.bool false)
    else .error ⟨"INVALID_TYPE", "Choose Yes or No."⟩
  | _ => .error ⟨"INVALID_TYPE", "Choose Yes or No."⟩

/-- `date.fromisoformat(text[:10])` of a text that `_DATE_PATTERN` matches. -/
def readDate (text : List Char) : Option Date :=
  match text.take 10 with
  | [y₁, y₂, y₃, y₄, '-', m₁, m₂, '-', d₁, d₂] =>
    match digits? (String.ofList [y₁, y₂, y₃, y₄]), digits? (String.ofList [m₁, m₂]),
      digits? (String.ofList [d₁, d₂]) with
    | some year, some month, some day =>
      if h : 1 ≤ year ∧ 1 ≤ month ∧ month ≤ 12 ∧ 1 ≤ day ∧ day ≤ daysInMonth year month then
        some ⟨year, month, day, h.2.1, h.2.2.1, h.2.2.2.1, h.2.2.2.2⟩
      else none
    | _, _, _ => none
  | _ => none

/-- `_date`. -/
def dateValue : PyValue → Except Invalid PyValue
  | .datetime t => .ok (.date t.date)
  | .date d => .ok (.date d)
  | .text s => do
    let d ← require (readDate (LcsSystem.strip s).toList) ⟨"INVALID_FORMAT", "Enter a valid date."⟩
    return .date d
  | _ => .error ⟨"INVALID_FORMAT", "Enter a valid date."⟩

/-- `_datetime`. -/
def datetimeValue (readers : Readers) : PyValue → Except Invalid PyValue
  | .datetime t => .ok (.datetime t)
  | .date d => .ok (.datetime ⟨d, 0, some 0⟩)
  | .text s => do
    let t ← require (readers.datetime (LcsSystem.strip s)) ⟨"INVALID_FORMAT", "Enter a valid date and time."⟩
    return .datetime t
  | _ => .error ⟨"INVALID_FORMAT", "Enter a valid date and time."⟩

/-- `_reference`. -/
def referenceValue (spec : FieldSpec) : PyValue → Except Invalid PyValue
  | .int n => do
    check (0 < n) ⟨"INVALID_TYPE", "Choose a valid record."⟩
    return .int n
  | .float value _ => do
    check (value.den = 1 ∧ 0 < value) ⟨"INVALID_TYPE", "Choose a valid record."⟩
    return .int value.num
  | .text s => do
    check (∀ n ∈ spec.maxLength, (LcsSystem.strip s).length ≤ n)
      ⟨"TOO_LONG", "Use at most " ++ toString (spec.maxLength.getD 0) ++ " characters."⟩
    return .text (LcsSystem.strip s)
  | _ => .error ⟨"INVALID_TYPE", "Choose a valid record."⟩

/-- A value of kind `json`. -/
def jsonValue : PyValue → Except Invalid PyValue
  | .none | .decimal _ | .date _ | .datetime _ => .error ⟨"INVALID_TYPE", "Enter a valid value."⟩
  | value => .ok value

/-- What a blank value becomes. -/
def blankValue (spec : FieldSpec) (value : PyValue) : Except Invalid PyValue := do
  check (spec.required = false) ⟨"REQUIRED", "This field is required."⟩
  return if spec.kind = .json then value else .none

/-- `_normalize`. -/
def normalize (readers : Readers) (spec : FieldSpec) (value : PyValue) : Except Invalid PyValue :=
  if isBlank value then blankValue spec value
  else
    match spec.kind with
    | .string | .email | .phone | .url => stringValue readers spec value
    | .integer => integerValue spec value
    | .decimal => decimalValue spec value
    | .boolean => booleanValue value
    | .date => dateValue value
    | .datetime => datetimeValue readers value
    | .reference => referenceValue spec value
    | .json => jsonValue value

/-! ## RecordSchema.validate -/

namespace FieldSpec

/-- `source_key`: the key, or the first alias that the payload has. -/
def source (spec : FieldSpec) (payload : Payload) : Option String :=
  if (payload.lookup spec.key).isSome then some spec.key
  else spec.aliases.find? fun alias' => (payload.lookup alias').isSome

/-- The source key with the normalised value, nothing where the payload has none, or the error. -/
def read (readers : Readers) (spec : FieldSpec) (payload : Payload) (partially : Bool) :
    Except FieldErrorItem (Option (String × PyValue)) :=
  match spec.source payload with
  | none =>
    if spec.required = true ∧ partially = false then .error ⟨spec.key, "REQUIRED", "This field is required."⟩
    else .ok none
  | some source =>
    match normalize readers spec ((payload.lookup source).getD .none) with
    | .ok value => .ok (some (source, value))
    | .error invalid => .error ⟨spec.key, invalid.code, invalid.message⟩

/-- The value is written under the key, and an alias is taken away. -/
def write (spec : FieldSpec) (normalized : Payload) : Option (String × PyValue) → Payload
  | none => normalized
  | some (source, value) =>
    if source = spec.key then overlay normalized [(spec.key, value)]
    else (overlay normalized [(spec.key, value)]).filter fun e => e.1 != source

end FieldSpec

namespace RecordSchema

def allows (schema : RecordSchema) (key : String) : Bool :=
  schema.fields.any (fun spec => spec.key == key) || schema.readonly.contains key ||
    schema.fields.any fun spec => spec.aliases.contains key

def unknownErrors (schema : RecordSchema) (payload : Payload) : List FieldErrorItem :=
  if schema.rejectUnknown then
    (payload.filter fun e => !schema.allows e.1).map fun e => ⟨e.1, "UNKNOWN_FIELD", "Unknown field: " ++ e.1 ++ "."⟩
  else []

variable (readers : Readers)

def fieldErrors (schema : RecordSchema) (payload : Payload) (partially : Bool) : List FieldErrorItem :=
  schema.fields.filterMap fun spec =>
    match spec.read readers payload partially with
    | .error item => some item
    | .ok _ => none

/-- One turn of the loop over the fields. -/
def writeField (payload : Payload) (partially : Bool) (normalized : Payload) (spec : FieldSpec) : Payload :=
  match spec.read readers payload partially with
  | .ok found => spec.write normalized found
  | .error _ => normalized

def normalized (schema : RecordSchema) (payload : Payload) (partially : Bool) : Payload :=
  schema.fields.foldl (writeField readers payload partially) payload

/-- The failures of the rules, which see the payload with the normalised values over it. -/
def crossErrors (schema : RecordSchema) (payload normalized : Payload) : List FieldErrorItem :=
  schema.crossField.filterMap fun rule => rule (overlay payload normalized)

/-- The items that `validate` collects. -/
def errors (schema : RecordSchema) (payload : Payload) (partially : Bool) : List FieldErrorItem :=
  let items := schema.unknownErrors payload ++ schema.fieldErrors readers payload partially
  if items = [] then schema.crossErrors payload (schema.normalized readers payload partially) else items

def validate (schema : RecordSchema) (payload : Payload) (partially : Bool) : Result Payload := do
  let items := schema.errors readers payload partially
  check (items = []) (.validationFailed "Please correct the highlighted fields."
    (items.map fun i => (i.field, i.message)) items)
  return schema.normalized readers payload partially

end RecordSchema
end LcsSystem.Schemas
