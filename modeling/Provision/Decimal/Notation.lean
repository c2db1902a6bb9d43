import Provision.Decimal.Binary64

/-!
Writing binary64 numbers.

A number is written by the shortest decimal digits that identify its magnitude. The reals that
round to a magnitude form an interval around it. Of all decimals `digits * 10 ^ exponent` in that
interval those with the fewest digits are taken, of these the nearest to the magnitude, and of two
equally near the even one. Digits with a power of ten are written positionally or scientifically.
-/

namespace Provision.Decimal

/-- Decimal digits and the power of ten of the last of them. -/
structure Digits where
  value : Nat
  exponent : Int
deriving DecidableEq, Repr

/-- The reals that round to a magnitude, with the magnitude itself, as whole
numbers over one common denominator. The ends belong to it if `closed`. -/
structure Neighbourhood where
  low : Nat
  centre : Nat
  high : Nat
  denominator : Nat
  closed : Bool

/-- The neighbourhood of a bit pattern, in quarter units. Below a power of two the
gap to the smaller neighbour is half as wide. -/
def Neighbourhood.of (magnitude : Nat) : Neighbourhood :=
  let (significand, shift) := parts magnitude
  let narrow := significand = powerOfTwo 52 ∧ 0 < shift
  { low := (4 * significand - if narrow then 1 else 2) * powerOfTwo shift
    centre := 4 * significand * powerOfTwo shift
    high := (4 * significand + 2) * powerOfTwo shift
    denominator := 4 * unitsPerOne
    closed := significand % 2 = 0 }

def Neighbourhood.holds (around : Neighbourhood) (digits : Nat) (exponent : Int) : Bool :=
  let point := digits * powerOfTen exponent.toNat * around.denominator
  let low := around.low * powerOfTen (-exponent).toNat
  let high := around.high * powerOfTen (-exponent).toNat
  if around.closed then low ≤ point && point ≤ high else low < point && point < high

/-- The nearest decimal with this power of ten, if it lies in the neighbourhood:
one of the two beside the centre, the even one on a tie. -/
def Neighbourhood.onGrid? (around : Neighbourhood) (exponent : Int) : Option Digits :=
  let num := around.centre * powerOfTen (-exponent).toNat
  let den := around.denominator * powerOfTen exponent.toNat
  let near := roundHalfEven num den
  let below := num / den
  let other := if near = below then below + 1 else below
  if around.holds near exponent then some ⟨near, exponent⟩
  else if around.holds other exponent then some ⟨other, exponent⟩
  else none

/-- Search ever finer grids; `steps` bounds how many. -/
def Neighbourhood.search (around : Neighbourhood) (exponent : Int) : Nat → Digits
  | 0 => ⟨0, exponent⟩
  | steps + 1 =>
      match around.onGrid? exponent with
      | some digits => if digits.value = 0 then search around (exponent - 1) steps else digits
      | none => search around (exponent - 1) steps

/-- Move the trailing zeros of the digits into the power of ten; `steps` bounds
how many. -/
def Digits.trim : Nat → Digits → Digits
  | 0, digits => digits
  | steps + 1, digits =>
      if digits.value ≠ 0 ∧ digits.value % 10 = 0 then
        trim steps ⟨digits.value / 10, digits.exponent + 1⟩
      else digits

/-- The shortest digits of a non-zero magnitude. The search starts at a grid that
is coarser than the magnitude itself. -/
def shortest (magnitude : Nat) : Digits :=
  let around := Neighbourhood.of magnitude
  let whole := around.centre / around.denominator
  let start : Int :=
    if whole = 0 then
      -((around.denominator / around.centre).log2 * 30103 / 100000 : Nat)
    else ((whole.log2 + 1) * 30103 / 100000 + 1 : Nat)
  (around.search start 24).trim 20

/-! ### Notation -/

def digitsOf (n : Nat) : List Char := Nat.toDigits 10 n

/-- How many digits stand before the point: zero or less if the number starts with
zeros behind it. -/
def Digits.point (digits : Digits) : Int :=
  (digitsOf digits.value).length + digits.exponent

/-- Digits with a point in their midst, at least one on each side of it. -/
def Digits.positional (digits : Digits) : List Char :=
  let ds := digitsOf digits.value
  if 0 ≤ digits.exponent then
    ds ++ List.replicate digits.exponent.toNat '0' ++ ['.', '0']
  else if 0 < digits.point then
    ds.take digits.point.toNat ++ '.' :: ds.drop digits.point.toNat
  else
    '0' :: '.' :: List.replicate (-digits.point).toNat '0' ++ ds

/-- One digit before the point, and a signed power of ten. -/
def Digits.scientific (digits : Digits) : List Char :=
  let power := digits.point - 1
  let suffix := 'e' :: (if power < 0 then '-' else '+') :: digitsOf power.natAbs
  match digitsOf digits.value with
  | [] => suffix
  | [d] => d :: suffix
  | d :: more => d :: '.' :: more ++ suffix

/-- Write a number by its fewest digits, in the notation that `write` gives them. -/
def Binary64.text (write : Digits → List Char) (value : Binary64) : List Char :=
  let magnitude :=
    if value.magnitude = 0 then ['0', '.', '0'] else write (shortest value.magnitude)
  if value.negative then '-' :: magnitude else magnitude

end Provision.Decimal
