import Provision.Decimal.Notation

/-!
TOML values. Their numbers are the binary64 numbers nearest to decimals, and those that are
not finite.
-/

namespace Provision

namespace Decimal

inductive Float64 where
  | finite (value : Binary64)
  | infinite (negative : Bool)
  | notANumber
deriving DecidableEq, Repr

/-- The number nearest to `digits * 10 ^ exponent`. Decimals far beyond the finite
numbers, or far below the smallest one, are settled by their length. -/
def Float64.ofDecimal (negative : Bool) (digits : Nat) (exponent : Int) : Float64 :=
  let length : Int := (digitsOf digits).length + exponent
  let magnitude :=
    if digits = 0 ∨ length < -330 then 0
    else if 330 < length then infinity
    else
      nearest (digits * powerOfTen exponent.toNat * unitsPerOne)
        (powerOfTen (-exponent).toNat)
  if finite : magnitude < infinity then .finite ⟨negative, magnitude, finite⟩
  else .infinite negative

def Float64.text : Float64 → String
  | .finite value => String.ofList (value.text Digits.positional)
  | .infinite negative => if negative then "-inf" else "inf"
  | .notANumber => "NaN"

end Decimal

/-- How a table came about: by a header of its own, by a longer header or a dotted key
that passes through it, or as an inline table. -/
inductive TableOrigin where
  | header
  | implicit
  | dotted
  | inline
deriving DecidableEq, Repr

/-- A TOML value. A date, a time or both are kept as their canonical text, which has a
`T` between the date and the time. `tables` are those that array headers have opened
under one name. -/
inductive Toml where
  | string (value : String)
  | integer (value : Int)
  | float (value : Decimal.Float64)
  | boolean (value : Bool)
  | dateTime (text : String)
  | array (items : List Toml)
  | table (origin : TableOrigin) (members : List (String × Toml))
  | tables (tables : List (List (String × Toml)))
deriving Repr, Inhabited

end Provision
