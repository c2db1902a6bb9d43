/-!
IPv4 subnets in CIDR notation.

A subnet keeps the text it was written as. The address is four decimal octets
without superfluous zeros; the prefix length is a decimal number up to 32, which may
have leading zeros and one plus sign.
-/

namespace Provision

inductive SubnetFault where
  | noSlash
  | address
  | length
deriving DecidableEq, Repr

namespace Subnet

/-- Whether all characters are ASCII digits and there is at least one. -/
def isDecimal (text : List Char) : Bool :=
  !text.isEmpty && text.all fun c => '0' ≤ c && c ≤ '9'

def decimalValue (text : List Char) : Nat :=
  text.foldl (fun value c => value * 10 + (c.toNat - 48)) 0

/-- A decimal number up to 255 without superfluous zeros. -/
def isOctet (text : List Char) : Bool :=
  isDecimal text && text.length ≤ 3 && (text.head? != some '0' || text.length == 1)
    && decimalValue text ≤ 255

/-- Four octets with dots between them. -/
def isAddress (text : List Char) : Bool :=
  let octets := text.splitOn '.'
  octets.length == 4 && octets.all isOctet

/-- A number up to 32, perhaps after a plus sign. -/
def isLength (text : List Char) : Bool :=
  let number :=
    match text with
    | '+' :: number => number
    | number => number
  isDecimal number && decimalValue number ≤ 32

def fault? (text : String) : Option SubnetFault :=
  let address := text.toList.takeWhile (· != '/')
  match text.toList.dropWhile (· != '/') with
  | [] => some .noSlash
  | _ :: length =>
      if !isAddress address then some .address
      else if !isLength length then some .length
      else none

end Subnet

/-- A subnet, as it was written. -/
structure Subnet where
  text : String
  wellFormed : Subnet.fault? text = none
deriving DecidableEq

instance : Repr Subnet := ⟨fun subnet n => reprPrec subnet.text n⟩

namespace Subnet

def parse (text : String) : Except SubnetFault Subnet :=
  match h : fault? text with
  | none => .ok ⟨text, h⟩
  | some fault => .error fault

def faultMessage (text : String) (fault : SubnetFault) : String :=
  let detail :=
    match fault with
    | .noSlash => "expected CIDR notation"
    | .address => "invalid IPv4 address syntax"
    | .length => "bad prefix length"
  s!"invalid subnet '{text}': {detail}"

@[simp] theorem parse_text (subnet : Subnet) : parse subnet.text = .ok subnet := by
  unfold parse
  split
  · rfl
  · next fault h => rw [subnet.wellFormed] at h; cases h

end Subnet

end Provision
