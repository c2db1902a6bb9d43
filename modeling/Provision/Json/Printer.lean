import Provision.Json.Basic
import Provision.Decimal.Notation

/-!
The text of a JSON value, in one of two layouts.

The compact layout has no blanks. The indented layout puts every item and member on
its own line, two spaces deeper than its container, and a space after each colon;
an empty array or object stays on one line in both. `Json.render` is defined on
characters; `Json.compact` and `Json.pretty` are the texts.
-/

namespace Provision

/-- How items and members are separated. -/
inductive Layout where
  | compact
  | indented
deriving DecidableEq, Repr

/-- What stands before an item at this depth. -/
def Layout.lineBreak : Layout → Nat → List Char
  | .compact, _ => []
  | .indented, depth => '\n' :: List.replicate (2 * depth) ' '

def Layout.colon : Layout → List Char
  | .compact => [':']
  | .indented => [':', ' ']

namespace Json

/-! ### Strings -/

def hexDigit (n : Nat) : Char := Nat.digitChar n

/-- A character inside a quoted string: quotes, backslashes and control characters
are escaped, everything else stands for itself. -/
def escapeChar (c : Char) : List Char :=
  match c with
  | '"' => ['\\', '"']
  | '\\' => ['\\', '\\']
  | '\x08' => ['\\', 'b']
  | '\x0c' => ['\\', 'f']
  | '\n' => ['\\', 'n']
  | '\r' => ['\\', 'r']
  | '\t' => ['\\', 't']
  | c =>
      if c.toNat < 0x20 then
        ['\\', 'u', '0', '0', hexDigit (c.toNat / 16), hexDigit (c.toNat % 16)]
      else [c]

def quoted (s : List Char) : List Char :=
  '"' :: s.flatMap escapeChar ++ ['"']

/-! ### Numbers -/

/-- Positional where the first digit stands for a power of ten from −5 to 15,
scientific otherwise. -/
def decimalText (digits : Decimal.Digits) : List Char :=
  if -5 < digits.point ∧ digits.point ≤ 16 then digits.positional else digits.scientific

def integerText (value : Int) : List Char :=
  if value < 0 then '-' :: Decimal.digitsOf value.natAbs else Decimal.digitsOf value.natAbs

def numberText : Number → List Char
  | .integer value _ => integerText value
  | .float value => value.text decimalText

/-! ### Values -/

mutual

/-- The characters of a value whose container is at depth `depth`. -/
def render (layout : Layout) (depth : Nat) : Json → List Char
  | .null => ['n', 'u', 'l', 'l']
  | .bool true => ['t', 'r', 'u', 'e']
  | .bool false => ['f', 'a', 'l', 's', 'e']
  | .number value => numberText value
  | .string value => quoted value.toList
  | .array [] => ['[', ']']
  | .array (item :: items) =>
      '[' :: layout.lineBreak (depth + 1) ++ render layout (depth + 1) item
        ++ renderItems layout depth items
  | .object [] => ['{', '}']
  | .object ((name, value) :: members) =>
      '{' :: layout.lineBreak (depth + 1) ++ quoted name.toList ++ layout.colon
        ++ render layout (depth + 1) value ++ renderMembers layout depth members

/-- The items after the first one, and the closing bracket. -/
def renderItems (layout : Layout) (depth : Nat) : List Json → List Char
  | [] => layout.lineBreak depth ++ [']']
  | item :: items =>
      ',' :: layout.lineBreak (depth + 1) ++ render layout (depth + 1) item
        ++ renderItems layout depth items

/-- The members after the first one, and the closing brace. -/
def renderMembers (layout : Layout) (depth : Nat) : List (String × Json) → List Char
  | [] => layout.lineBreak depth ++ ['}']
  | (name, value) :: members =>
      ',' :: layout.lineBreak (depth + 1) ++ quoted name.toList ++ layout.colon
        ++ render layout (depth + 1) value ++ renderMembers layout depth members

end

/-- The text without blanks. -/
def compact (value : Json) : String := String.ofList (value.render .compact 0)

/-- The text with one item or member a line. -/
def pretty (value : Json) : String := String.ofList (value.render .indented 0)

end Json

end Provision
