import Provision.Decoding.Basic
import Provision.Json.Printer
import Provision.Text.Quoted

/-!
Reading typed values from JSON.
-/

namespace Provision.Json

/-- What a decoder was not prepared for. -/
def unexpected : Json → String
  | .null => "null"
  | .bool true => "boolean `true`"
  | .bool false => "boolean `false`"
  | .number (.integer value _) => s!"integer `{value}`"
  | .number (.float value) => s!"floating point `{String.ofList (numberText (.float value))}`"
  | .string value => s!"string {Text.quote value}"
  | .array _ => "sequence"
  | .object _ => "map"

namespace Decode

open Decoding

def wrongType {α : Type} (found : Json) (expected : String) : Decoded α :=
  fail (.wrongType found.unexpected expected)

def string : Json → Decoded String
  | .string value => .ok value
  | other => wrongType other "a string"

/-- A whole number of 32 bits. -/
def count : Json → Decoded UInt32
  | .number (.integer value fits) =>
      if 0 ≤ value ∧ value < 0x100000000 then .ok (.ofNat value.toNat)
      else fail (.outOfRange (Json.number (.integer value fits)).unexpected "u32")
  | other => wrongType other "u32"

/-- A value that may be absent, which is written `null`. -/
def optional {α : Type} (decode : Json → Decoded α) : Json → Decoded (Option α)
  | .null => .ok none
  | other => (decode other).map some

def list {α : Type} (decode : Json → Decoded α) : Json → Decoded (List α)
  | .array items => itemsFrom decode 0 items
  | other => wrongType other "a sequence"

/-- A record called `name`. It starts as `start` and takes up its fields; `finish` gives
the result or the name of a field that is missing. Unknown members are ignored. -/
def record {α σ : Type} (name : String) (fields : List (Field Json σ)) (start : σ)
    (finish : σ → Except String α) : Json → Decoded α
  | .object members =>
      match takeMembers fields (fun _ _ record => record) start members with
      | .error misfit => .error misfit
      | .ok built =>
          match finish built with
          | .ok value => .ok value
          | .error missing => fail (.missingField missing)
  | .array items =>
      match takeItems start 0 fields items with
      | .error misfit => .error misfit
      | .ok built =>
          match finish built with
          | .error _ => fail (.tooShort items.length name fields.length)
          | .ok value => if fields.length < items.length then fail .surplusItems else .ok value
  | other => wrongType other s!"struct {name}"

end Decode

end Provision.Json
