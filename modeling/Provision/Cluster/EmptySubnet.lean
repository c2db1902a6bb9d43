import Provision.Json.Printer
import Provision.Text.Erase

/-!
Empty subnets in a document.

Some producers write `"subnet": ""` where they mean that there is no subnet. The member
is dropped from the text of the document before it is read: the document is printed
compactly with `subnet` leading every object it occurs in, and the literal
`"subnet":"",` is erased. The comma belongs to the literal, so an empty subnet that is
the only member of its object stays.

`Json.withoutEmptySubnets` is the same removal on values. The two agree on documents
none of whose names contains a double quote; a name that ends in `"subnet` is printed
with the literal inside.
-/

namespace Provision

namespace Json

def isSubnet (member : String × Json) : Bool := member.1 == "subnet"

mutual

/-- The same value with `subnet` as the first member of every object it occurs in. -/
def subnetFirst : Json → Json
  | .array items => .array (subnetFirstItems items)
  | .object members =>
      let ordered := subnetFirstMembers members
      .object (ordered.filter isSubnet ++ ordered.filter (!isSubnet ·))
  | other => other

def subnetFirstItems : List Json → List Json
  | [] => []
  | item :: items => subnetFirst item :: subnetFirstItems items

def subnetFirstMembers : List (String × Json) → List (String × Json)
  | [] => []
  | (name, value) :: members => (name, subnetFirst value) :: subnetFirstMembers members

end

def isEmptySubnet (member : String × Json) : Bool :=
  match member with
  | (name, .string text) => name == "subnet" && text.isEmpty
  | _ => false

mutual

/-- The same value without the empty subnets of objects that have another member. -/
def withoutEmptySubnets : Json → Json
  | .array items => .array (withoutEmptySubnetsItems items)
  | .object members =>
      let kept := withoutEmptySubnetsMembers members
      .object (if 1 < kept.length then kept.filter (!isEmptySubnet ·) else kept)
  | other => other

def withoutEmptySubnetsItems : List Json → List Json
  | [] => []
  | item :: items => withoutEmptySubnets item :: withoutEmptySubnetsItems items

def withoutEmptySubnetsMembers : List (String × Json) → List (String × Json)
  | [] => []
  | (name, value) :: members =>
      (name, withoutEmptySubnets value) :: withoutEmptySubnetsMembers members

end

end Json

namespace EmptySubnet

/-- How an empty subnet is printed when another member follows it. -/
def literal : List Char := "\"subnet\":\"\",".toList

/-- Erase every empty subnet from a text. -/
def strip (text : String) : String := String.ofList (Text.erase literal text.toList)

def occursIn (text : String) : Bool := Text.occurs literal text.toList

end EmptySubnet

/-- The text in which a definition is looked for: compact, `subnet` first, and without
empty subnets. -/
def Json.canonicalText (document : Json) : String :=
  EmptySubnet.strip document.subnetFirst.compact

end Provision
