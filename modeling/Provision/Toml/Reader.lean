import Provision.Toml.Tables

/-!
Reading TOML documents.

A reader takes the unread characters and gives a result with the characters that
remain, or nothing if the text is not TOML. Whatever is wrong, the whole document is
refused, so no reader says where.
-/

namespace Provision.Toml.Reader

def apply {α β : Type} (f : α → β) (read : Option (α × List Char)) : Option (β × List Char) :=
  read.map fun (value, rest) => (f value, rest)

/-! ### Characters and blanks -/

def isBlank (c : Char) : Bool := c == ' ' || c == '\t'

/-- Whether a character may stand in comments and strings: anything but a control
character, a tab excepted. -/
def isPlain (c : Char) : Bool := c == '\t' || (0x20 ≤ c.toNat && c.toNat != 0x7f)

def skipBlanks (text : List Char) : List Char := text.dropWhile isBlank

def lineBreak? : List Char → Option (List Char)
  | '\n' :: rest => some rest
  | '\r' :: '\n' :: rest => some rest
  | _ => none

def skipComment : List Char → List Char
  | '#' :: rest => rest.dropWhile isPlain
  | text => text

/-- Read the end of a line: blanks, perhaps a comment, and a line break or the end. -/
def lineEnd (text : List Char) : Option (List Char) :=
  match skipComment (skipBlanks text) with
  | [] => some []
  | rest => lineBreak? rest

/-- Skip blanks, comments and line breaks; `rounds` bounds how many. -/
def skipLines : Nat → List Char → List Char
  | 0, text => text
  | rounds + 1, text =>
      match skipBlanks text with
      | '#' :: rest => skipLines rounds (rest.dropWhile isPlain)
      | '\n' :: rest => skipLines rounds rest
      | '\r' :: '\n' :: rest => skipLines rounds rest
      | rest => rest

/-! ### Numbers -/

def digitValue? (base : Nat) (c : Char) : Option Nat :=
  let value :=
    if '0' ≤ c ∧ c ≤ '9' then c.toNat - 48
    else if 'a' ≤ c ∧ c ≤ 'f' then c.toNat - 87
    else if 'A' ≤ c ∧ c ≤ 'F' then c.toNat - 55
    else base
  if value < base then some value else none

def isDigit (c : Char) : Bool := (digitValue? 10 c).isSome

/-- Read more digits, each perhaps behind an underscore, and append them to a number.
The result is the number, how many digits it took, and the rest. -/
def moreDigits (base value : Nat) : List Char → Nat × Nat × List Char
  | [] => (value, 0, [])
  | '_' :: c :: rest =>
      match digitValue? base c with
      | some d =>
          let (value, count, rest) := moreDigits base (value * base + d) rest
          (value, count + 1, rest)
      | none => (value, 0, '_' :: c :: rest)
  | c :: rest =>
      match digitValue? base c with
      | some d =>
          let (value, count, rest) := moreDigits base (value * base + d) rest
          (value, count + 1, rest)
      | none => (value, 0, c :: rest)

/-- Read digits, the first of them without an underscore. -/
def digits (base value : Nat) : List Char → Option ((Nat × Nat) × List Char)
  | c :: rest =>
      match digitValue? base c with
      | some d =>
          let (value, count, rest) := moreDigits base (value * base + d) rest
          some ((value, count + 1), rest)
      | none => none
  | [] => none

/-- Read a sign; the result says whether it is a minus sign. -/
def sign : List Char → Bool × List Char
  | '-' :: rest => (true, rest)
  | '+' :: rest => (false, rest)
  | rest => (false, rest)

/-- Read a decimal number without superfluous zeros. -/
def decimal : List Char → Option (Nat × List Char)
  | '0' :: rest => some (0, rest)
  | text => apply Prod.fst (digits 10 0 text)

def fitting (value : Int) (rest : List Char) : Option (Toml × List Char) :=
  if -0x8000000000000000 ≤ value ∧ value < 0x8000000000000000 then some (.integer value, rest)
  else none

def integer (text : List Char) : Option (Toml × List Char) :=
  match text with
  | '0' :: 'x' :: rest => do
      let ((value, _), rest) ← digits 16 0 rest
      fitting value rest
  | '0' :: 'o' :: rest => do
      let ((value, _), rest) ← digits 8 0 rest
      fitting value rest
  | '0' :: 'b' :: rest => do
      let ((value, _), rest) ← digits 2 0 rest
      fitting value rest
  | text => do
      let (negative, text) := sign text
      let (value, rest) ← decimal text
      fitting (if negative then -(value : Int) else value) rest

/-- Read an exponent behind its letter. -/
def exponent (text : List Char) : Option (Int × List Char) := do
  let (negative, text) := sign text
  let ((value, _), rest) ← digits 10 0 text
  return (if negative then -(value : Int) else value, rest)

def optionalExponent : List Char → Option (Int × List Char)
  | 'e' :: rest | 'E' :: rest => exponent rest
  | rest => some (0, rest)

/-- A number that is too large is refused, unless it is negative. -/
def notTooLarge (value : Decimal.Float64) (rest : List Char) : Option (Toml × List Char) :=
  if value = .infinite false then none else some (.float value, rest)

/-- Read a number with a fraction or an exponent, or one of the special values. -/
def float (text : List Char) : Option (Toml × List Char) := do
  let (negative, text) := sign text
  match text with
  | 'i' :: 'n' :: 'f' :: rest => return (.float (.infinite negative), rest)
  | 'n' :: 'a' :: 'n' :: rest => return (.float .notANumber, rest)
  | text =>
      let (value, rest) ← decimal text
      match rest with
      | '.' :: rest =>
          let ((value, places), rest) ← digits 10 value rest
          let (power, rest) ← optionalExponent rest
          notTooLarge (.ofDecimal negative value (power - places)) rest
      | 'e' :: rest | 'E' :: rest =>
          let (power, rest) ← exponent rest
          notTooLarge (.ofDecimal negative value power) rest
      | _ => none

/-! ### Dates and times -/

def twoDigits (low high : Nat) : List Char → Option (Nat × List Char)
  | a :: b :: rest => do
      let a ← digitValue? 10 a
      let b ← digitValue? 10 b
      let value := a * 10 + b
      if low ≤ value ∧ value ≤ high then return (value, rest) else none
  | _ => none

def one (expected : Char) : List Char → Option (List Char)
  | c :: rest => if c = expected then some rest else none
  | [] => none

def daysIn (year month : Nat) : Nat :=
  if month = 2 then
    if year % 4 = 0 ∧ (year % 100 ≠ 0 ∨ year % 400 = 0) then 29 else 28
  else if month = 4 ∨ month = 6 ∨ month = 9 ∨ month = 11 then 30
  else 31

def date (text : List Char) : Option (String × List Char) := do
  let (century, rest) ← twoDigits 0 99 text
  let (year, rest) ← twoDigits 0 99 rest
  let rest ← one '-' rest
  let (month, rest) ← twoDigits 1 12 rest
  let rest ← one '-' rest
  let (day, rest) ← twoDigits 1 31 rest
  if day ≤ daysIn (century * 100 + year) month then return (String.ofList (text.take 10), rest)
  else none

/-- The canonical text of a fraction of a second: at most nine digits, without zeros at
the end, and nothing at all for zero. -/
def fractionText (digits : List Char) : List Char :=
  match ((digits.take 9).reverse.dropWhile (· == '0')).reverse with
  | [] => []
  | digits => '.' :: digits

def time (text : List Char) : Option (String × List Char) := do
  let (_, rest) ← twoDigits 0 23 text
  let rest ← one ':' rest
  let (_, rest) ← twoDigits 0 59 rest
  let rest ← one ':' rest
  let (_, rest) ← twoDigits 0 60 rest
  let wholeSeconds := text.take 8
  match rest with
  | '.' :: c :: more =>
      if isDigit c then
        let fraction := fractionText (c :: more.takeWhile isDigit)
        return (String.ofList (wholeSeconds ++ fraction), more.dropWhile isDigit)
      else return (String.ofList wholeSeconds, rest)
  | rest => return (String.ofList wholeSeconds, rest)

/-- Read the distance from universal time behind its sign. The result says whether it is
zero. -/
def distance (text : List Char) : Option (Bool × List Char) := do
  let (hours, rest) ← twoDigits 0 23 text
  let rest ← one ':' rest
  let (minutes, rest) ← twoDigits 0 59 rest
  return (hours = 0 ∧ minutes = 0, rest)

/-- Read the offset of a time, if there is one, and give its canonical text: `Z`, or a
sign and the distance, where zero is positive. -/
def offset (text : List Char) : String × List Char :=
  match text with
  | 'Z' :: rest | 'z' :: rest => ("Z", rest)
  | '+' :: rest | '-' :: rest =>
      match distance rest with
      | some (true, rest) => ("+00:00", rest)
      | some (false, rest) => (String.ofList (text.take 6), rest)
      | none => ("", text)
  | text => ("", text)

/-- Read a date, a time, or both with a space or a letter between them. -/
def dateTime (text : List Char) : Option (Toml × List Char) :=
  match date text with
  | none => apply .dateTime (time text)
  | some (day, rest) =>
      match rest with
      | 'T' :: more | 't' :: more | ' ' :: more =>
          match time more with
          | some (hour, more) =>
              let (zone, more) := offset more
              some (.dateTime s!"{day}T{hour}{zone}", more)
          | none => some (.dateTime day, rest)
      | rest => some (.dateTime day, rest)

/-! ### Strings -/

def character? (code : Nat) : Option Char :=
  if code < 0xD800 ∨ (0xE000 ≤ code ∧ code < 0x110000) then some (Char.ofNat code) else none

def unicode? (digits : List Char) : Option Char := do
  let code ← digits.foldlM (fun code c => (digitValue? 16 c).map (code * 16 + ·)) 0
  character? code

def escapeValue? (c : Char) : Option Char :=
  match c with
  | 'b' => some '\x08'
  | 't' => some '\t'
  | 'n' => some '\n'
  | 'f' => some '\x0c'
  | 'r' => some '\r'
  | '"' => some '"'
  | '\\' => some '\\'
  | _ => none

def prepend (c : Option Char) (step : Option (List Char × List Char)) :
    Option (List Char × List Char) := do
  let c ← c
  let (text, rest) ← step
  return (c :: text, rest)

def basicBody : List Char → Option (List Char × List Char)
  | '"' :: rest => some ([], rest)
  | '\\' :: 'u' :: a :: b :: c :: d :: rest => prepend (unicode? [a, b, c, d]) (basicBody rest)
  | '\\' :: 'U' :: a :: b :: c :: d :: e :: f :: g :: h :: rest =>
      prepend (unicode? [a, b, c, d, e, f, g, h]) (basicBody rest)
  | '\\' :: c :: rest => prepend (escapeValue? c) (basicBody rest)
  | c :: rest => if isPlain c then prepend (some c) (basicBody rest) else none
  | [] => none

def literalBody : List Char → Option (List Char × List Char)
  | '\'' :: rest => some ([], rest)
  | c :: rest => if isPlain c then prepend (some c) (literalBody rest) else none
  | [] => none

/-- Whether an escaped line break starts here: blanks up to the end of the line. -/
def endsLine (text : List Char) : Bool := (lineBreak? (skipBlanks text)).isSome

/-- Read a multi-line basic string. A string ends at three quotes; one or two more
directly behind them belong to it. Behind an escaped line break, which is not read yet
while `trim` holds, blanks and line breaks are skipped. -/
def longBasicBody (trim : Bool) : List Char → Option (List Char × List Char)
  | '"' :: '"' :: '"' :: '"' :: '"' :: rest => some (['"', '"'], rest)
  | '"' :: '"' :: '"' :: '"' :: rest => some (['"'], rest)
  | '"' :: '"' :: '"' :: rest => some ([], rest)
  | '\r' :: '\n' :: rest =>
      if trim then longBasicBody true rest else prepend (some '\n') (longBasicBody false rest)
  | '\n' :: rest =>
      if trim then longBasicBody true rest else prepend (some '\n') (longBasicBody false rest)
  | '\\' :: 'u' :: a :: b :: c :: d :: rest =>
      prepend (unicode? [a, b, c, d]) (longBasicBody false rest)
  | '\\' :: 'U' :: a :: b :: c :: d :: e :: f :: g :: h :: rest =>
      prepend (unicode? [a, b, c, d, e, f, g, h]) (longBasicBody false rest)
  | '\\' :: c :: rest =>
      if endsLine (c :: rest) then longBasicBody true (c :: rest)
      else prepend (escapeValue? c) (longBasicBody false rest)
  | c :: rest =>
      if trim && isBlank c then longBasicBody true rest
      else if isPlain c then prepend (some c) (longBasicBody false rest)
      else none
  | [] => none

def longLiteralBody : List Char → Option (List Char × List Char)
  | '\'' :: '\'' :: '\'' :: '\'' :: '\'' :: rest => some (['\'', '\''], rest)
  | '\'' :: '\'' :: '\'' :: '\'' :: rest => some (['\''], rest)
  | '\'' :: '\'' :: '\'' :: rest => some ([], rest)
  | '\r' :: '\n' :: rest => prepend (some '\n') (longLiteralBody rest)
  | '\n' :: rest => prepend (some '\n') (longLiteralBody rest)
  | c :: rest => if isPlain c then prepend (some c) (longLiteralBody rest) else none
  | [] => none

/-- Skip the line break with which a multi-line string may start. -/
def skipFirstBreak (text : List Char) : List Char := (lineBreak? text).getD text

def string (text : List Char) : Option (String × List Char) :=
  let body :=
    match text with
    | '"' :: '"' :: '"' :: rest => longBasicBody false (skipFirstBreak rest)
    | '"' :: rest => basicBody rest
    | '\'' :: '\'' :: '\'' :: rest => longLiteralBody (skipFirstBreak rest)
    | '\'' :: rest => literalBody rest
    | _ => none
  apply String.ofList body

/-! ### Keys -/

/-- Whether a character may stand in a bare key. -/
def isBare (c : Char) : Bool :=
  ('a' ≤ c && c ≤ 'z') || ('A' ≤ c && c ≤ 'Z') || ('0' ≤ c && c ≤ '9') || c == '-' || c == '_'

def simpleKey (text : List Char) : Option (String × List Char) :=
  match text with
  | '"' :: rest => apply String.ofList (basicBody rest)
  | '\'' :: rest => apply String.ofList (literalBody rest)
  | text =>
      match text.takeWhile isBare with
      | [] => none
      | name => some (String.ofList name, text.dropWhile isBare)

def maxKeyParts : Nat := 79

/-- Read a key: parts with dots between them. The result is all parts but the last one,
and the last one; `parts` bounds how many there may be. -/
def key : Nat → List Char → Option ((List String × String) × List Char)
  | 0, _ => none
  | parts + 1, text => do
      let (name, rest) ← simpleKey (skipBlanks text)
      match skipBlanks rest with
      | '.' :: rest =>
          let ((path, last), rest) ← key parts rest
          return ((name :: path, last), rest)
      | rest => return (([], name), rest)

/-! ### Values -/

/-- Read a key and its value; `value` reads the value. -/
def pair (value : List Char → Option (Toml × List Char)) (text : List Char) :
    Option ((List String × String × Toml) × List Char) := do
  let ((path, name), rest) ← key maxKeyParts text
  let rest ← one '=' rest
  let (value, rest) ← value (skipBlanks rest)
  return ((path, name, value), skipBlanks rest)

/-- Read the items of an array, with its closing bracket; `rounds` bounds the number of
items. -/
def items (value : List Char → Option (Toml × List Char)) :
    Nat → List Char → Option (List Toml × List Char)
  | 0, _ => none
  | rounds + 1, text =>
      match skipLines text.length text with
      | ']' :: rest => some ([], rest)
      | text => do
          let (item, rest) ← value text
          match skipLines rest.length rest with
          | ',' :: rest => apply (item :: ·) (items value rounds rest)
          | ']' :: rest => return ([item], rest)
          | _ => none

/-- Read the members of an inline table that is not empty, with its closing brace;
`rounds` bounds the number of members. -/
def members (value : List Char → Option (Toml × List Char)) :
    Nat → List Char → Option ((List (List String × String × Toml)) × List Char)
  | 0, _ => none
  | rounds + 1, text => do
      let (member, rest) ← pair value text
      match rest with
      | ',' :: rest => apply (member :: ·) (members value rounds rest)
      | '}' :: rest => return ([member], rest)
      | _ => none

/-- How many arrays and inline tables may be open at once. -/
def maxLevels : Nat := 79

def value (levels : Nat) (text : List Char) : Option (Toml × List Char) :=
  match text with
  | '"' :: _ | '\'' :: _ => apply .string (string text)
  | '[' :: rest =>
      match levels with
      | 0 => none
      | levels + 1 => apply .array (items (value levels) (rest.length + 1) rest)
  | '{' :: rest =>
      match levels with
      | 0 => none
      | levels + 1 =>
          match skipBlanks rest with
          | '}' :: rest => some (.table .inline [], rest)
          | rest => do
              let (pairs, rest) ← members (value levels) rest.length rest
              let table ← ofInlinePairs pairs
              return (table, rest)
  | 't' :: 'r' :: 'u' :: 'e' :: rest => some (.boolean true, rest)
  | 'f' :: 'a' :: 'l' :: 's' :: 'e' :: rest => some (.boolean false, rest)
  | text => dateTime text <|> float text <|> integer text

/-! ### Documents -/

/-- Read a header behind its opening brackets, up to the end of the line; `close` reads
the closing brackets. -/
def headerLine (close : List Char → Option (List Char)) (text : List Char) :
    Option ((List String × String) × List Char) := do
  let (name, rest) ← key maxKeyParts text
  let rest ← close rest
  let rest ← lineEnd rest
  return (name, rest)

/-- Read one statement, up to the end of its last line. -/
def statement (text : List Char) : Option (Statement × List Char) :=
  match text with
  | '[' :: '[' :: rest => do
      let ((path, name), rest) ← headerLine (fun rest => one ']' rest >>= one ']') rest
      return (.arrayHeader path name, rest)
  | '[' :: rest => do
      let ((path, name), rest) ← headerLine (one ']') rest
      return (.header path name, rest)
  | text => do
      let ((path, name, value), rest) ← pair (value maxLevels) text
      let rest ← lineEnd rest
      return (.pair path name value, rest)

def statements : Nat → List Char → Option (List Statement)
  | 0, _ => none
  | rounds + 1, text =>
      match skipLines text.length text with
      | [] => some []
      | text => do
          let (first, rest) ← statement text
          let others ← statements rounds rest
          return first :: others

def skipMark : List Char → List Char
  | '\uFEFF' :: rest => rest
  | text => text

end Reader

def parse (text : String) : Option Members := do
  let text := Reader.skipMark text.toList
  let statements ← Reader.statements (text.length + 1) text
  build statements

end Provision.Toml
