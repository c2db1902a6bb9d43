import Provision.Cluster.Codec
import Provision.Json.Reader

/-!
Reading a schema dialect straight from JSON text, with the place of every fault.

The same texts are accepted as by decoding the JSON value; what differs is that a fault
is reported with a line and a column, and that reading stops at the first one.
-/

namespace Provision.ApiVersion

open Json (Failure)
open Json.Reader (skipBlanks)

/-- Why a text is no dialect: it is no JSON, or a value that does not fit ends where the
unread text starts. -/
inductive TextFault where
  | malformed (failure : Failure)
  | mismatch (mismatch : Mismatch) (unread : List Char)
deriving DecidableEq, Repr

def TextFault.report (text : String) : TextFault → String
  | malformed failure => failure.report text
  | mismatch found unread =>
      (Failure.behind .expectedValue unread |>.position text.toList).locate found.message

/-- The dialect with this tag, which ends where the unread text starts. -/
def tagged (tag : String) (unread : List Char) : Except TextFault (ApiVersion × List Char) :=
  match ofTag? tag with
  | some version => .ok (version, unread)
  | none => .error (.mismatch (.unknownVariant tag (all.map ApiVersion.tag)) unread)

/-- Read a string behind its opening quote as a tag. -/
def readTag (text : List Char) : Except TextFault (ApiVersion × List Char) :=
  match Json.Reader.string text with
  | .error failure => .error (.malformed failure)
  | .ok (tag, rest) => tagged tag rest

/-- Read the value `null` and give the text behind it. An array or an object is refused
at its bracket, any other value behind its end. -/
def readNull (text : List Char) : Except TextFault (List Char) :=
  match skipBlanks text with
  | '[' :: rest => .error (.mismatch (.wrongType (Json.array []).unexpected "unit") ('[' :: rest))
  | '{' :: rest => .error (.mismatch (.wrongType (Json.object []).unexpected "unit") ('{' :: rest))
  | text =>
      match Json.Reader.value 0 text with
      | .error failure => .error (.malformed failure)
      | .ok (.null, rest) => .ok rest
      | .ok (other, rest) => .error (.mismatch (.wrongType other.unexpected "unit") rest)

/-- Read an object with one member behind its opening brace: a tag, with the value
`null`. -/
def readObject (text : List Char) : Except TextFault (ApiVersion × List Char) :=
  match skipBlanks text with
  | [] => .error (.malformed (.behind .endInObject []))
  | '}' :: rest => .error (.malformed (.here .expectedValue ('}' :: rest)))
  | '"' :: rest => do
      let (version, rest) ← readTag rest
      let ((), rest) ← (Json.Reader.colon rest).mapError TextFault.malformed
      let rest ← readNull rest
      match skipBlanks rest with
      | [] => .error (.malformed (.behind .endInObject []))
      | '}' :: rest => .ok (version, rest)
      | rest => .error (.malformed (.behind .expectedValue rest))
  | rest => .error (.malformed (.here .keyMustBeString rest))

def parse (text : String) : Except TextFault ApiVersion := do
  let (version, rest) ←
    match skipBlanks text.toList with
    | [] => .error (.malformed (.behind .endInValue []))
    | '"' :: rest => readTag rest
    | '{' :: rest => readObject rest
    | rest => .error (.malformed (.here .expectedValue rest))
  (Json.Reader.finish rest).mapError TextFault.malformed
  return version

end Provision.ApiVersion
