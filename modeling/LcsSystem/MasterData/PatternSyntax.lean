import LcsSystem.Lib.Brackets

/-!
# Regular expressions and the scan for nested quantifiers

`_pattern_is_redos_risk` (`src/backend/app/modules/master_data/service.py:676-726`), and the expressions that its text is
printed from.

| here                 | there                                                                      |
|----------------------|------------------------------------------------------------------------------|
| `Regex`              | a pattern in the syntax of `re`: pieces one after the other, and `\|` between |
| `charAt`             | `source[i]`, which raises an `IndexError` behind the end                     |
| `classEnd`           | the inner loop: where the class ends                                         |
| `scanAt`             | the outer loop from index `i`                                                |

A literal is any character without a meaning of its own; an escape of several characters is its first two and literals.
-/

namespace LcsSystem.Patterns

/-! ## Expressions -/

def specialChars : List Char := ['\\', '[', '(', ')', '{', '}', '*', '+', '?', '|']

inductive Quantifier
  | star | plus | optional
  | counted (lower upper : ℕ)
  deriving DecidableEq

/-- A quantifier, or its lazy form. -/
structure Repeat where
  quantifier : Quantifier
  isLazy : Bool
  deriving DecidableEq

/-- A member of a class other than a bracket in first position. -/
inductive ClassItem
  | char (c : Char) (h : c ≠ ']' ∧ c ≠ '\\')
  | escape (c : Char)

def ClassItem.text : ClassItem → List Char
  | .char c _ => [c]
  | .escape c => ['\\', c]

def itemsText (items : List ClassItem) : List Char := items.flatMap ClassItem.text

/-- A class; a caret in first position negates it. -/
structure CharClass where
  negated : Bool
  bracketFirst : Bool
  items : List ClassItem
  nonempty : bracketFirst = true ∨ items ≠ []
  caret : negated = true ∨ bracketFirst = true ∨ (itemsText items).head? ≠ some '^'

inductive Single
  | literal (c : Char) (h : c ∉ specialChars)
  | escape (c : Char)
  | charClass (k : CharClass)

def isIdentifierChar (c : Char) : Bool := c.isAlphanum || c == '_'

inductive GroupKind
  | plain | nonCapturing | lookahead | negativeLookahead | lookbehind | negativeLookbehind
  | named (name : List Char) (h : ∀ c ∈ name, isIdentifierChar c = true)

inductive Regex
  | empty
  | item (single : Single) (repeated : Option Repeat) (rest : Regex)
  | group (kind : GroupKind) (body : Regex) (repeated : Option Repeat) (rest : Regex)
  /-- The end of an alternative. -/
  | bar (rest : Regex)

/-! ## Their texts -/

def Quantifier.text : Quantifier → List Char
  | .star => ['*']
  | .plus => ['+']
  | .optional => ['?']
  | .counted lower upper => '{' :: Nat.toDigits 10 lower ++ ',' :: Nat.toDigits 10 upper ++ ['}']

def repeatText : Option Repeat → List Char
  | none => []
  | some r => r.quantifier.text ++ if r.isLazy then ['?'] else []

def CharClass.text (k : CharClass) : List Char :=
  '[' :: (if k.negated then ['^'] else []) ++ (if k.bracketFirst then [']'] else []) ++ itemsText k.items ++ [']']

def Single.text : Single → List Char
  | .literal c _ => [c]
  | .escape c => ['\\', c]
  | .charClass k => k.text

/-- What follows the opening parenthesis. -/
def GroupKind.text : GroupKind → List Char
  | .plain => []
  | .nonCapturing => ['?', ':']
  | .lookahead => ['?', '=']
  | .negativeLookahead => ['?', '!']
  | .lookbehind => ['?', '<', '=']
  | .negativeLookbehind => ['?', '<', '!']
  | .named name _ => '?' :: 'P' :: '<' :: name ++ ['>']

namespace Regex

def text : Regex → List Char
  | empty => []
  | item single repeated rest => single.text ++ repeatText repeated ++ rest.text
  | group kind body repeated rest => '(' :: kind.text ++ body.text ++ ')' :: repeatText repeated ++ rest.text
  | bar rest => '|' :: rest.text

/-- A quantified item, at any depth. -/
def quantified : Regex → Bool
  | empty => false
  | item _ repeated rest => repeated.isSome || rest.quantified
  | group _ body repeated rest => repeated.isSome || body.quantified || rest.quantified
  | bar rest => rest.quantified

/-- A quantified group that itself contains a quantified item. -/
def nested : Regex → Bool
  | empty => false
  | item _ _ rest => rest.nested
  | group _ body repeated rest => repeated.isSome && body.quantified || body.nested || rest.nested
  | bar rest => rest.nested

end Regex

/-! ## The scan -/

inductive Fault
  | indexError
  deriving DecidableEq

def charAt (source : List Char) (i : ℕ) : Except Fault Char :=
  match source[i]? with
  | some c => .ok c
  | none => .error .indexError

def quantifierChars : List Char := ['*', '+', '?']

/-- The index of the bracket that ends the class, or one behind the end. -/
def classEnd (source : List Char) (i : ℕ) : Except Fault {j : ℕ // i ≤ j} :=
  if i < source.length then do
    let c ← charAt source i
    if c = ']' then .ok ⟨i, le_rfl⟩
    else do
      let next := if c = '\\' then i + 2 else i + 1
      have hnext : i < next := by
        simp only [next]
        split <;> omega
      let ⟨j, hj⟩ ← classEnd source next
      .ok ⟨j, hnext.le.trans hj⟩
  else .ok ⟨i, le_rfl⟩
termination_by source.length - i
decreasing_by omega

/-- The loop from an index on; the stack says of every open group whether it holds a quantifier. -/
def scanAt (source : List Char) (i : ℕ) (stack : List Bool) : Except Fault Bool :=
  if i < source.length then do
    let char ← charAt source i
    if char = '\\' then scanAt source (i + 2) stack
    else if char = '[' then do
      let ⟨j, hj⟩ ← classEnd source (i + 1)
      scanAt source (j + 1) stack
    else if char = '(' then
      -- A group prefix is not a quantifier on the group.
      if source[i + 1]? = some '?' then scanAt source (i + 2) (false :: stack) else scanAt source (i + 1) (false :: stack)
    else if char = ')' then
      match stack with
      | [] => .ok false
      | quantifiedInside :: stack =>
        let quantifiedNext := source[i + 1]?.any fun c => quantifierChars.contains c
        if quantifiedNext && quantifiedInside then .ok true
        else scanAt source (i + 1) (if quantifiedNext || quantifiedInside then Brackets.note stack else stack)
    else if quantifierChars.contains char then scanAt source (i + 1) (Brackets.note stack)
    else scanAt source (i + 1) stack
  else .ok false
termination_by source.length - i
decreasing_by all_goals omega

def patternIsRedosRisk (source : String) : Except Fault Bool := scanAt source.toList 0 []

end LcsSystem.Patterns
