import LcsSystem.Frontend.Texts
import LcsSystem.Lib.Pairings

/-!
# One password policy, twice

`validatePasswordStrength` and `generateStrongPassword` of `src/frontend/app/utils/validation/field-rules.ts`, and
`validate_password_strength` of `src/backend/app/core/security.py`.

| here                      | there                                                                       |
|---------------------------|-----------------------------------------------------------------------------|
| `Text`                    | a Python text, one code point a character, surrogates among them            |
| `utf16`                   | the same text in JavaScript, which its `length` and its patterns look at    |
| `CaseTables`              | `toLowerCase` and `casefold`, with what Unicode says about ASCII            |
| `random`                  | the bytes that `crypto.getRandomValues` wrote                               |

The two policies differ where a text has characters beyond the basic plane, whose code units the client counts twice, and
where a common password is spelled with a letter that only `casefold` turns into ASCII: `passwordPolicy_iff`.
-/

namespace LcsSystem.PasswordPolicy

abbrev CodePoint := Fin 0x110000
abbrev Text := List CodePoint

def text (s : String) : Text := s.toList.map fun c => Fin.ofNat 0x110000 c.toNat

/-! ## Characters -/

def isUpper (n : ℕ) : Bool := decide (0x41 ≤ n ∧ n ≤ 0x5A)
def isLower (n : ℕ) : Bool := decide (0x61 ≤ n ∧ n ≤ 0x7A)
def isDigit (n : ℕ) : Bool := decide (0x30 ≤ n ∧ n ≤ 0x39)

/-- `[^A-Za-z0-9]`. -/
def isSpecial (n : ℕ) : Bool := !(isUpper n || isLower n || isDigit n)

/-- The code units of one character. -/
def codeUnits (c : CodePoint) : List ℕ :=
  if c.val < 0x10000 then [c.val] else [0xD800 + (c.val - 0x10000) / 0x400, 0xDC00 + (c.val - 0x10000) % 0x400]

def utf16 (s : Text) : List ℕ := s.flatMap codeUnits

def trim (s : Text) : Text := Frontend.trimWhere (fun c => Frontend.isWhiteSpace c.val) s

/-! ## Lower case -/

def lowerAscii (c : CodePoint) : CodePoint := if isUpper c.val then c + 0x20 else c

/-- What `toLowerCase` writes for a character: the Kelvin sign is the only one outside of ASCII that becomes ASCII. -/
inductive Lowered : CodePoint → Text → Prop
  | ascii {c : CodePoint} (hascii : c.val < 0x80) : Lowered c [lowerAscii c]
  | kelvin : Lowered 0x212A [0x6B]
  | other {c : CodePoint} {piece : Text} (hother : 0x80 ≤ c.val) (hpiece : ∃ d ∈ piece, 0x80 ≤ d.val) : Lowered c piece

/-- A character in lower case where it has one in ASCII. -/
def plainLower (c : CodePoint) : Text := if c = 0x212A then [0x6B] else [lowerAscii c]

/-- The characters outside of ASCII that `casefold` turns into ASCII: the long s, the Kelvin sign, the two sharp s and the
Latin ligatures. -/
def foldings : List (CodePoint × Text) :=
  [(0x17F, text "s"), (0x212A, text "k"), (0xDF, text "ss"), (0x1E9E, text "ss"), (0xFB00, text "ff"), (0xFB01, text "fi"),
    (0xFB02, text "fl"), (0xFB03, text "ffi"), (0xFB04, text "ffl"), (0xFB05, text "st"), (0xFB06, text "st")]

/-- What `casefold` writes for a character. -/
inductive Folded : CodePoint → Text → Prop
  | ascii {c : CodePoint} (hascii : c.val < 0x80) : Folded c [lowerAscii c]
  | letters {c : CodePoint} {piece : Text} (hletters : (c, piece) ∈ foldings) : Folded c piece
  | other {c : CodePoint} {piece : Text} (hother : 0x80 ≤ c.val) (hpiece : ∃ d ∈ piece, 0x80 ≤ d.val) : Folded c piece

structure CaseTables where
  toLowerCase : Text → Text
  casefold : Text → Text
  lowered : ∀ s, ∃ pieces, List.Forall₂ Lowered s pieces ∧ toLowerCase s = pieces.flatten
  folded : ∀ s, ∃ pieces, List.Forall₂ Folded s pieces ∧ casefold s = pieces.flatten

/-! ## The policies -/

def passwordMinLength : ℕ := 8
def passwordMaxLength : ℕ := 128

def commonPasswords : List Text :=
  [text "password", text "password123", text "changeme", text "changeme123", text "admin123", text "letmein",
    text "qwerty123"]

/-- `PasswordRequirements`. -/
structure PasswordRequirements where
  minLength : Bool
  maxLength : Bool
  uppercase : Bool
  lowercase : Bool
  number : Bool
  special : Bool

def passwordRequirements (password : Text) : PasswordRequirements :=
  let units := utf16 password
  { minLength := passwordMinLength ≤ units.length
    maxLength := units.length ≤ passwordMaxLength
    uppercase := units.any isUpper
    lowercase := units.any isLower
    number := units.any isDigit
    special := units.any isSpecial }

structure ValidationIssue where
  code : String
  params : List (String × ℕ) := []
  deriving DecidableEq

/-- `validatePasswordStrength` of the client. -/
def clientIssue (tables : CaseTables) (password : Text) : Option ValidationIssue :=
  let checks := passwordRequirements password
  if !checks.minLength then some ⟨"passwordMinLength", [("minLength", passwordMinLength)]⟩
  else if !checks.maxLength then some ⟨"maxLength", [("maxLength", passwordMaxLength)]⟩
  else if commonPasswords.contains (tables.toLowerCase (trim password)) then some ⟨"commonPassword", []⟩
  else if !checks.uppercase then some ⟨"passwordUppercase", []⟩
  else if !checks.lowercase then some ⟨"passwordLowercase", []⟩
  else if !checks.number then some ⟨"passwordNumber", []⟩
  else if !checks.special then some ⟨"passwordSpecial", []⟩
  else none

/-- `validate_password_strength` of the server, with its default limits. -/
def serverErrors (tables : CaseTables) (password : Text) : List String :=
  let reports (fails : Bool) (message : String) : List String := if fails then [message] else []
  reports (password.length < passwordMinLength)
      ("Password must contain at least " ++ toString passwordMinLength ++ " characters.") ++
    reports (passwordMaxLength < password.length)
      ("Password must not exceed " ++ toString passwordMaxLength ++ " characters.") ++
    reports (commonPasswords.contains (tables.casefold password)) "Password is too common." ++
    reports (!password.any fun c => isUpper c.val) "Password must contain at least one uppercase letter." ++
    reports (!password.any fun c => isLower c.val) "Password must contain at least one lowercase letter." ++
    reports (!password.any fun c => isDigit c.val) "Password must contain at least one number." ++
    reports (!password.any fun c => isSpecial c.val) "Password must contain at least one special character."

/-! ## The generator -/

def upper : Text := text "ABCDEFGHJKLMNPQRSTUVWXYZ"
def lower : Text := text "abcdefghijkmnopqrstuvwxyz"
def digits : Text := text "23456789"
def alphabet : Text := upper ++ lower ++ digits
def symbols : Text := text "!@#$%^&*-_=+"

/-- `source[byte % source.length]`. -/
def pick (source : Text) (byte : Fin 256) : CodePoint := source.getD (byte.val % source.length) 0

/-- The characters that the classes need, in three slots that follow one another. -/
def placeClasses (size : ℕ) (random : ℕ → Fin 256) (body : Text) : Text :=
  let span := size - 2
  let offset := (random size).val % span
  ((body.set offset (pick upper (random (size + 1)))).set ((offset + 1) % span) (pick lower (random (size + 2)))).set
    ((offset + 2) % span) (pick digits (random (size + 3)))

/-- `generateStrongPassword`; `getRandomValues` refuses an array of more than 65536 bytes. -/
def generateStrongPassword (length : ℤ) (random : ℕ → Fin 256) : Option Text :=
  let size := (max length 6).toNat
  if 65536 < size + 8 then none
  else
    let body := placeClasses size random ((List.range (size - 1)).map fun index => pick alphabet (random index))
    let symbol := pick symbols (random (size + 4))
    some (body.dropLast ++ symbol :: body.getLast?.toList)

end LcsSystem.PasswordPolicy
