/-!
Finite binary64 numbers in exact integer arithmetic.

A magnitude is held as its place in the increasing list of all non-negative
binary64 numbers, which is also its bit pattern. Every magnitude is a whole
number of *units* of 2⁻¹⁰⁷⁴, so a product, a quotient or a decimal is a fraction
of units, and rounding is one function: `nearest`, to the nearest number, ties
to the even bit pattern. No machine floating point takes part, so all of it can
be evaluated by the kernel.

A decimal is made a number by one scaling step (`scale?`): its digits are rounded to binary64
first and then multiplied or divided, once, by a rounded power of ten. Two roundings take
place, so the result may differ in the last bit from the number nearest to the decimal.
-/

namespace Provision.Decimal

def powerOfTwo (exponent : Nat) : Nat := Nat.pow 2 exponent

def powerOfTen (exponent : Nat) : Nat := Nat.pow 10 exponent

/-- The bit pattern of infinity: one more than that of the largest finite number. -/
def infinity : Nat := 2047 * powerOfTwo 52

def unitsPerOne : Nat := powerOfTwo 1074

/-- A finite binary64 number: a sign, kept for zero too, and the bit pattern of
its magnitude. -/
structure Binary64 where
  negative : Bool
  magnitude : Nat
  finite : magnitude < infinity
deriving DecidableEq, Repr

/-- The significand and the power of two of a bit pattern; the magnitude is
`significand * 2 ^ shift` units. -/
def parts (magnitude : Nat) : Nat × Nat :=
  let field := powerOfTwo 52
  if magnitude / field = 0 then (magnitude, 0)
  else (field + magnitude % field, magnitude / field - 1)

def units (magnitude : Nat) : Nat :=
  let (significand, shift) := parts magnitude
  significand * powerOfTwo shift

/-- The whole number nearest to `num / den`; a half goes to the even neighbour. -/
def roundHalfEven (num den : Nat) : Nat :=
  let below := num / den
  let excess := 2 * (num % den)
  if excess < den then below
  else if den < excess then below + 1
  else if below % 2 = 0 then below else below + 1

/-- The bit pattern of the binary64 number nearest to `num / den` units. It is at
least `infinity` where the fraction rounds beyond the largest finite number. -/
def nearest (num den : Nat) : Nat :=
  let shift := (num / den).log2 - 52
  shift * powerOfTwo 52 + roundHalfEven num (den * powerOfTwo shift)

def product (x y : Nat) : Nat :=
  nearest (units x * units y) unitsPerOne

def quotient (x y : Nat) : Nat :=
  nearest (units x * unitsPerOne) (units y)

def ofNat (n : Nat) : Nat :=
  nearest (n * unitsPerOne) 1

/-! ### Scaling -/

/-- The largest power of ten that a binary64 number can come near. -/
def maxPower : Nat := 308

/-- Divide a magnitude by `10 ^ power`. A power beyond `maxPower` is taken in
steps of `10 ^ maxPower`, and a magnitude that has become zero stays zero. -/
def scaleDown (magnitude power : Nat) : Nat :=
  if power ≤ maxPower then quotient magnitude (ofNat (powerOfTen power))
  else if magnitude = 0 then 0
  else scaleDown (quotient magnitude (ofNat (powerOfTen maxPower))) (power - maxPower)
termination_by power
decreasing_by simp only [maxPower] at *; omega

/-- The number with these digits and this power of ten, or `none` if it is too
large: beyond the finite numbers after scaling, or a non-zero number whose power
of ten is above `maxPower`. -/
def scale? (negative : Bool) (digits : Nat) (exponent : Int) : Option Binary64 :=
  let start := ofNat digits
  let magnitude :=
    if exponent < 0 then scaleDown start exponent.natAbs
    else if exponent.natAbs ≤ maxPower then product start (ofNat (powerOfTen exponent.natAbs))
    else if start = 0 then 0
    else infinity
  if finite : magnitude < infinity then some ⟨negative, magnitude, finite⟩ else none

end Provision.Decimal
