import Provision.Json.Basic
import Provision.Json.Failure
import Provision.Decimal.Binary64

/-!
Reading JSON text.

A reader takes the unread characters and gives a result with the characters that
remain. Nesting is bounded by a number of levels, and the reader of a value is
structural in it; the loops over items and members are bounded by the length of the
text, since every round reads at least one character.
-/

namespace Provision.Json

namespace Reader

/-- The outcome of a reader: a result and the text behind it. -/
abbrev Step (α : Type) := Except Failure (α × List Char)

def Step.map {α β : Type} (f : α → β) : Step α → Step β
  | .ok (value, rest) => .ok (f value, rest)
  | .error failure => .error failure

/-- Space, tab, carriage return and line feed separate tokens. -/
def isBlank (c : Char) : Bool :=
  match c with
  | ' ' | '\t' | '\n' | '\r' => true
  | _ => false

def skipBlanks (text : List Char) : List Char := text.dropWhile isBlank

/-! ### Words -/

/-- Read the rest of a word whose first letter has been seen. -/
def word {α : Type} (value : α) : List Char → List Char → Step α
  | [], text => .ok (value, text)
  | _ :: _, [] => .error (.behind .endInValue [])
  | letter :: letters, c :: rest =>
      if c = letter then word value letters rest
      else .error (.here .expectedIdent (c :: rest))

/-! ### Numbers -/

def maxWord : Nat := 0xFFFFFFFFFFFFFFFF

def maxExponent : Nat := 0x7FFFFFFF

def digitValue? (c : Char) : Option Nat :=
  if '0' ≤ c ∧ c ≤ '9' then some (c.toNat - 48) else none

def startsWithDigit : List Char → Bool
  | c :: _ => (digitValue? c).isSome
  | [] => false

def skipDigits (text : List Char) : List Char :=
  text.dropWhile fun c => (digitValue? c).isSome

/-- Append digits to `start` for as long as the number stays within `limit`. The
result is the number, how many digits it took, and the text behind them; that text
starts with a digit exactly if the next digit would pass the limit. -/
def gather (limit start : Nat) : List Char → Nat × Nat × List Char
  | [] => (start, 0, [])
  | c :: rest =>
      match digitValue? c with
      | some d =>
          if start * 10 + d ≤ limit then
            let (value, count, rest) := gather limit (start * 10 + d) rest
            (value, count + 1, rest)
          else (start, 0, c :: rest)
      | none => (start, 0, c :: rest)

/-- The float with these digits, scaled; too large a number is reported behind its
text. -/
def scaled (negative : Bool) (value : Nat) (exponent : Int) (rest : List Char) : Step Number :=
  match Decimal.scale? negative value exponent with
  | some float => .ok (.float float, rest)
  | none => .error (.behind .numberOutOfRange rest)

def signedZero (negative : Bool) : Number :=
  .float ⟨negative, 0, by decide⟩

/-- Read the exponent, behind its letter, of a number whose digits and power of ten
are known. An exponent above `maxExponent` gives zero, unless the number is non-zero
and the exponent positive. -/
def exponentPart (negative : Bool) (value : Nat) (exponent : Int) (text : List Char) :
    Step Number :=
  let (down, text) :=
    match text with
    | '+' :: rest => (false, rest)
    | '-' :: rest => (true, rest)
    | text => (false, text)
  match text with
  | [] => .error (.behind .endInValue [])
  | c :: rest =>
      if (digitValue? c).isNone then .error (.here .invalidNumber (c :: rest))
      else
        let (power, _, rest) := gather maxExponent 0 (c :: rest)
        if startsWithDigit rest then
          if value ≠ 0 ∧ !down then .error (.here .numberOutOfRange rest)
          else .ok (signedZero negative, skipDigits rest)
        else scaled negative value (if down then exponent - power else exponent + power) rest

def optionalExponent (negative : Bool) (value : Nat) (exponent : Int) (text : List Char) :
    Step Number :=
  match text with
  | 'e' :: rest | 'E' :: rest => exponentPart negative value exponent rest
  | rest => scaled negative value exponent rest

/-- Read the digits behind a decimal point. Digits that no longer fit a word are
read and have no effect. -/
def fraction (negative : Bool) (value : Nat) (exponent : Int) (text : List Char) :
    Step Number :=
  let (value, count, rest) := gather maxWord value text
  if count = 0 ∧ !startsWithDigit rest then
    match rest with
    | [] => .error (.behind .endInValue [])
    | _ => .error (.here .invalidNumber rest)
  else optionalExponent negative value (exponent - count) (skipDigits rest)

/-- The integer with this sign and magnitude. Zero with a minus sign, and a magnitude
that no signed word holds, give a float. -/
def wholeNumber (negative : Bool) (value : Nat) (rest : List Char) : Step Number :=
  if negative ∧ value = 0 then scaled true value 0 rest
  else
    let signed : Int := if negative then -(value : Int) else value
    if fits : FitsWord signed then .ok (.integer signed fits, rest)
    else scaled negative value 0 rest

/-- Read a number behind its sign. A digit of the integer part that no longer fits a
word multiplies the number by ten and is otherwise ignored. -/
def unsigned (negative : Bool) (text : List Char) : Step Number :=
  match text with
  | [] => .error (.behind .endInValue [])
  | '0' :: rest =>
      if startsWithDigit rest then .error (.here .invalidNumber rest)
      else
        match rest with
        | '.' :: more => fraction negative 0 0 more
        | 'e' :: more | 'E' :: more => exponentPart negative 0 0 more
        | rest => wholeNumber negative 0 rest
  | c :: rest =>
      if (digitValue? c).isNone then .error (.here .invalidNumber (c :: rest))
      else
        let (value, _, rest) := gather maxWord 0 (c :: rest)
        let extra : Nat := (rest.takeWhile fun c => (digitValue? c).isSome).length
        match skipDigits rest with
        | '.' :: more => fraction negative value extra more
        | 'e' :: more | 'E' :: more => exponentPart negative value extra more
        | more =>
            if extra = 0 then wholeNumber negative value more
            else scaled negative value extra more

/-! ### Strings -/

def hexValue? (c : Char) : Option Nat :=
  if '0' ≤ c ∧ c ≤ '9' then some (c.toNat - 48)
  else if 'a' ≤ c ∧ c ≤ 'f' then some (c.toNat - 87)
  else if 'A' ≤ c ∧ c ≤ 'F' then some (c.toNat - 55)
  else none

/-- The number that four hexadecimal digits stand for. -/
def hexQuad? (a b c d : Char) : Option Nat := do
  let a ← hexValue? a
  let b ← hexValue? b
  let c ← hexValue? c
  let d ← hexValue? d
  return ((a * 16 + b) * 16 + c) * 16 + d

/-- What is wrong with an escape whose four hexadecimal digits should start here. -/
def hexFailure (text : List Char) : Failure :=
  if (bytes text).length < 4 then .behind .endInString [] else ⟨.invalidEscape, text, 4⟩

def escapeValue? (c : Char) : Option Char :=
  match c with
  | '"' => some '"'
  | '\\' => some '\\'
  | '/' => some '/'
  | 'b' => some '\x08'
  | 'f' => some '\x0c'
  | 'n' => some '\n'
  | 'r' => some '\r'
  | 't' => some '\t'
  | _ => none

/-- What is wrong where the second half of a surrogate pair should start. -/
def secondHalfFailure : List Char → Failure
  | [] => .behind .endInString []
  | ['\\'] => .behind .endInString []
  | '\\' :: 'u' :: rest => hexFailure rest
  | '\\' :: rest => .here .unexpectedEndOfHexEscape rest
  | rest => .here .unexpectedEndOfHexEscape rest

/-- Read a string behind its opening quote, up to and including the closing one. A
character outside the basic plane may be written as two escapes, a leading and a
trailing surrogate. -/
def stringBody : List Char → Step (List Char)
  | [] => .error (.behind .endInString [])
  | '"' :: rest => .ok ([], rest)
  | '\\' :: 'u' :: a :: b :: c :: d :: rest =>
      match hexQuad? a b c d with
      | none => .error (hexFailure (a :: b :: c :: d :: rest))
      | some unit =>
          if 0xDC00 ≤ unit ∧ unit ≤ 0xDFFF then .error (.behind .loneSurrogate rest)
          else if 0xD800 ≤ unit ∧ unit ≤ 0xDBFF then
            match rest with
            | '\\' :: 'u' :: e :: f :: g :: h :: rest =>
                match hexQuad? e f g h with
                | none => .error (hexFailure (e :: f :: g :: h :: rest))
                | some trail =>
                    if 0xDC00 ≤ trail ∧ trail ≤ 0xDFFF then
                      (stringBody rest).map
                        (Char.ofNat (0x10000 + (unit - 0xD800) * 0x400 + (trail - 0xDC00)) :: ·)
                    else .error (.behind .loneSurrogate rest)
            | rest => .error (secondHalfFailure rest)
          else (stringBody rest).map (Char.ofNat unit :: ·)
  | '\\' :: 'u' :: rest => .error (hexFailure rest)
  | ['\\'] => .error (.behind .endInString [])
  | '\\' :: c :: rest =>
      match escapeValue? c with
      | some c => (stringBody rest).map (c :: ·)
      | none => .error (.here .invalidEscape (c :: rest))
  | c :: rest =>
      if c.toNat < 0x20 then .error (.here .controlCharacter (c :: rest))
      else (stringBody rest).map (c :: ·)

def string (text : List Char) : Step String := (stringBody text).map String.ofList

/-! ### Arrays, objects and values -/

/-- Read the items of an array from its first item on, with its closing bracket;
`rounds` bounds the number of items. -/
def items (item : List Char → Step Json) : Nat → List Char → Step (List Json)
  | 0, text => .error (.here .endInList text)
  | rounds + 1, text =>
      match item text with
      | .error failure => .error failure
      | .ok (value, rest) =>
          match skipBlanks rest with
          | [] => .error (.behind .endInList [])
          | ']' :: rest => .ok ([value], rest)
          | ',' :: rest =>
              match skipBlanks rest with
              | [] => .error (.behind .endInValue [])
              | ']' :: rest => .error (.here .trailingComma (']' :: rest))
              | rest => (items item rounds rest).map (value :: ·)
          | rest => .error (.here .expectedListCommaOrEnd rest)

def colon (text : List Char) : Step Unit :=
  match skipBlanks text with
  | [] => .error (.behind .endInObject [])
  | ':' :: rest => .ok ((), rest)
  | rest => .error (.here .expectedColon rest)

/-- Read the members of an object, from behind the opening quote of the first name
on, with its closing brace; `rounds` bounds the number of members. -/
def members (item : List Char → Step Json) : Nat → List Char → Step (List (String × Json))
  | 0, text => .error (.here .endInObject text)
  | rounds + 1, text =>
      match string text with
      | .error failure => .error failure
      | .ok (name, rest) =>
          match colon rest with
          | .error failure => .error failure
          | .ok ((), rest) =>
              match item rest with
              | .error failure => .error failure
              | .ok (value, rest) =>
                  match skipBlanks rest with
                  | [] => .error (.behind .endInObject [])
                  | '}' :: rest => .ok ([(name, value)], rest)
                  | ',' :: rest =>
                      match skipBlanks rest with
                      | [] => .error (.behind .endInValue [])
                      | '"' :: rest => (members item rounds rest).map ((name, value) :: ·)
                      | '}' :: rest => .error (.here .trailingComma ('}' :: rest))
                      | rest => .error (.here .keyMustBeString rest)
                  | rest => .error (.here .expectedObjectCommaOrEnd rest)

/-- Read a value behind any blanks. At most `levels` arrays and objects may be open
at once. -/
def value (levels : Nat) (text : List Char) : Step Json :=
  match skipBlanks text with
  | [] => .error (.behind .endInValue [])
  | 'n' :: rest => word .null ['u', 'l', 'l'] rest
  | 't' :: rest => word (.bool true) ['r', 'u', 'e'] rest
  | 'f' :: rest => word (.bool false) ['a', 'l', 's', 'e'] rest
  | '-' :: rest => (unsigned true rest).map .number
  | '"' :: rest => (string rest).map .string
  | '[' :: rest =>
      match levels with
      | 0 => .error (.here .recursionLimit ('[' :: rest))
      | levels + 1 =>
          match skipBlanks rest with
          | [] => .error (.behind .endInList [])
          | ']' :: rest => .ok (.array [], rest)
          | rest => (items (value levels) rest.length rest).map .array
  | '{' :: rest =>
      match levels with
      | 0 => .error (.here .recursionLimit ('{' :: rest))
      | levels + 1 =>
          match skipBlanks rest with
          | [] => .error (.behind .endInObject [])
          | '}' :: rest => .ok (.object [], rest)
          | '"' :: rest =>
              (members (value levels) rest.length rest).map fun pairs =>
                .object (Members.ofPairs pairs)
          | rest => .error (.here .keyMustBeString rest)
  | c :: rest =>
      if (digitValue? c).isSome then (unsigned false (c :: rest)).map .number
      else .error (.here .expectedValue (c :: rest))

/-- How many arrays and objects a text may hold open at once. -/
def maxLevels : Nat := 127

/-- Refuse anything but blanks. -/
def finish (text : List Char) : Except Failure Unit :=
  match skipBlanks text with
  | [] => .ok ()
  | rest => .error (.here .trailingCharacters rest)

end Reader

def parse (text : String) : Except Failure Json :=
  match Reader.value Reader.maxLevels text.toList with
  | .error failure => .error failure
  | .ok (value, rest) =>
      match Reader.finish rest with
      | .error failure => .error failure
      | .ok () => .ok value

end Provision.Json
