import Provision.Decoding.Basic
import Provision.Text.Quoted
import Provision.Toml.Basic

/-!
Reading typed values from TOML.
-/

namespace Provision.Toml

/-- What a decoder was not prepared for. Dates and times count as tables. -/
def unexpected : Toml → String
  | .string value => s!"string {Text.quote value}"
  | .integer value => s!"integer `{value}`"
  | .float value => s!"floating point `{value.text}`"
  | .boolean true => "boolean `true`"
  | .boolean false => "boolean `false`"
  | .dateTime _ => "map"
  | .array _ => "sequence"
  | .table .. => "map"
  | .tables _ => "sequence"

namespace Decode

open Decoding

def wrongType {α : Type} (found : Toml) (expected : String) : Decoded α :=
  fail (.wrongType found.unexpected expected)

/-- A string; `expected` is what messages call it. -/
def text (expected : String) : Toml → Decoded String
  | .string value => .ok value
  | other => wrongType other expected

def string : Toml → Decoded String := text "a string"

def path : Toml → Decoded String := text "path string"

def boolean : Toml → Decoded Bool
  | .boolean value => .ok value
  | other => wrongType other "a boolean"

/-- The members of a table whose values are all strings. -/
def stringMembers : List (String × Toml) → Decoded (List (String × String))
  | [] => .ok []
  | (name, value) :: members =>
      match inside (.name name) (string value) with
      | .ok text => (stringMembers members).map ((name, text) :: ·)
      | .error misfit => .error misfit

/-- The name of the only member of a date or time that is read as a table; its value is
the canonical text. -/
def dateTimeKey : String := "$__toml_private_datetime"

def strings : Toml → Decoded (List (String × String))
  | .table _ members => stringMembers members
  | .dateTime text => .ok [(dateTimeKey, text)]
  | other => wrongType other "a map"

/-- The items of an array as the fields of a record called `name`. The array must not
leave out the field at the position `needed`; items behind the last field are ignored. -/
def recordItems {σ : Type} (name : String) (fields : List (Field Toml σ)) (needed : Option Nat)
    (start : σ) (items : List Toml) : Decoded σ :=
  match takeItems start 0 fields items with
  | .error misfit => .error misfit
  | .ok built =>
      match needed with
      | some position =>
          if items.length ≤ position then fail (.tooShort position name fields.length)
          else .ok built
      | none => .ok built

/-- A record called `name`. It starts as `start` and takes up its fields; `finish` gives
the result or the name of a field that is missing. Unknown members are ignored. -/
def record {α σ : Type} (name : String) (fields : List (Field Toml σ)) (needed : Option Nat)
    (start : σ) (finish : σ → Except String α) (value : Toml) : Decoded α :=
  let built : Decoded σ :=
    match value with
    | .table _ members => takeMembers fields (fun _ _ record => record) start members
    | .dateTime _ => .ok start
    | .array items => recordItems name fields needed start items
    | .tables listed => recordItems name fields needed start (listed.map (.table .header))
    | other => wrongType other s!"struct {name}"
  match built with
  | .error misfit => .error misfit
  | .ok built =>
      match finish built with
      | .ok value => .ok value
      | .error missing => fail (.missingField missing)

end Decode

end Provision.Toml
