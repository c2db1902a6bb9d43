/-!
Writing strings in TOML.

Of the four forms of a string the first that can show it is taken: basic, literal,
multi-line basic, multi-line literal. A form can show a string if nothing in it needs an
escape (in the basic forms a tab is always written as one). If no form can, a basic form
with escapes is used, a multi-line one if the string has a line break.
-/

namespace Provision.Toml

/-- The length of the longest run of a character, where `run` of them directly precede
the text. -/
def longestRun (c : Char) (run : Nat) : List Char → Nat
  | [] => run
  | other :: rest =>
      if other = c then longestRun c (run + 1) rest else max run (longestRun c 0 rest)

/-- Whether a character has to be written as an escape in every form. -/
def isControl (c : Char) : Bool := (c.toNat < 0x20 && c != '\t' && c != '\n') || c.toNat == 0x7f

inductive Form where
  | basic
  | literal
  | longBasic
  | longLiteral
deriving DecidableEq, Repr

/-- Whether a form shows a text without an escape. -/
def Form.shows (form : Form) (text : List Char) : Bool :=
  !text.any isControl &&
    match form with
    | basic => !text.contains '"' && !text.contains '\\' && !text.contains '\n'
    | literal => !text.contains '\'' && !text.contains '\n'
    | longBasic => !text.contains '\\' && longestRun '"' 0 text ≤ 2
    | longLiteral => longestRun '\'' 0 text ≤ 2

def Form.of (text : List Char) : Form :=
  match [basic, literal, longBasic, longLiteral].find? (·.shows text) with
  | some form => form
  | none => if text.contains '\n' then longBasic else basic

def Form.quotes : Form → List Char
  | basic => ['"']
  | literal => ['\'']
  | longBasic => ['"', '"', '"']
  | longLiteral => ['\'', '\'', '\'']

def Form.isLong : Form → Bool
  | basic | literal => false
  | longBasic | longLiteral => true

def hexDigit (n : Nat) : Char := (Nat.digitChar n).toUpper

/-- A character inside a basic form, quotes and line breaks apart. -/
def escapeChar (c : Char) : List Char :=
  match c with
  | '\\' => ['\\', '\\']
  | '\x08' => ['\\', 'b']
  | '\t' => ['\\', 't']
  | '\x0c' => ['\\', 'f']
  | '\r' => ['\\', 'r']
  | c =>
      if c.toNat < 0x20 ∨ c.toNat = 0x7f then
        ['\\', 'u', '0', '0', hexDigit (c.toNat / 16), hexDigit (c.toNat % 16)]
      else [c]

def escapeBasic (text : List Char) : List Char :=
  text.flatMap fun c =>
    match c with
    | '"' => ['\\', '"']
    | '\n' => ['\\', 'n']
    | c => escapeChar c

/-- The inside of a multi-line basic form behind `run` quotes: every third quote in
succession is escaped. -/
def escapeLongBasic (run : Nat) : List Char → List Char
  | [] => []
  | c :: rest =>
      match c with
      | '"' =>
          if run < 2 then '"' :: escapeLongBasic (run + 1) rest
          else '\\' :: '"' :: escapeLongBasic 0 rest
      | '\n' => '\n' :: escapeLongBasic 0 rest
      | c => escapeChar c ++ escapeLongBasic 0 rest

def Form.body (form : Form) (text : List Char) : List Char :=
  match form with
  | basic => escapeBasic text
  | literal | longLiteral => text
  | longBasic => escapeLongBasic 0 text

/-- A text in a form. A multi-line form starts with a line break, which is not part of
the text, if the text has one. -/
def Form.write (form : Form) (text : List Char) : List Char :=
  form.quotes ++ (if form.isLong && text.contains '\n' then ['\n'] else [])
    ++ form.body text ++ form.quotes

def quote (s : String) : String := String.ofList ((Form.of s.toList).write s.toList)

end Provision.Toml
