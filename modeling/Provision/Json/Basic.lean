import Provision.Decimal.Binary64

/-!
JSON values.

Objects are lists of members in the order of the text; `Members.insert` keeps the
position of a name that is already there and replaces its value, so a list built
by it names every member once. Integers that fit a 64-bit word, signed or
unsigned, stay integers; every other number is a binary64 number.
-/

namespace Provision

/-- An integer that fits an unsigned or a signed 64-bit word. -/
def FitsWord (value : Int) : Prop := -0x8000000000000000 ≤ value ∧ value < 0x10000000000000000

instance (value : Int) : Decidable (FitsWord value) := by
  unfold FitsWord; infer_instance

inductive Number where
  | integer (value : Int) (fits : FitsWord value)
  | float (value : Decimal.Binary64)
deriving DecidableEq, Repr

def Number.ofUInt32 (n : UInt32) : Number :=
  .integer n.toNat (by have := n.toNat_lt; unfold FitsWord; omega)

inductive Json where
  | null
  | bool (value : Bool)
  | number (value : Number)
  | string (value : String)
  | array (items : List Json)
  | object (members : List (String × Json))
deriving Repr, Inhabited

/-! ### Members of an object -/

abbrev Members := List (String × Json)

namespace Members

def names (members : Members) : List String := members.map Prod.fst

/-- The value of the first member with this name. -/
def find? (members : Members) (name : String) : Option Json :=
  (List.find? (·.1 == name) members).map Prod.snd

/-- Replace the value of a member, or append the member if its name is new. -/
def insert (members : Members) (name : String) (value : Json) : Members :=
  match members with
  | [] => [(name, value)]
  | (other, old) :: rest =>
      if other = name then (name, value) :: rest
      else (other, old) :: insert rest name value

/-- Insert pairs from left to right: a repeated name keeps its first position and
its last value. -/
def ofPairs (pairs : List (String × Json)) : Members :=
  pairs.foldl (fun members (name, value) => insert members name value) []

@[simp] theorem insert_nil (name : String) (value : Json) :
    insert [] name value = [(name, value)] := rfl

/-- Inserting a name that is there changes no name. -/
theorem names_insert_of_mem {members : Members} {name : String} (value : Json)
    (present : name ∈ members.names) : (members.insert name value).names = members.names := by
  induction members with
  | nil => simp [names] at present
  | cons member rest ih =>
      obtain ⟨other, old⟩ := member
      unfold insert
      split
      · next same => simp [names, same]
      · next differs =>
          have later : name ∈ names rest := by
            rcases List.mem_cons.mp present with same | later
            · exact absurd same.symm differs
            · exact later
          simpa [names] using ih later

/-- Inserting a new name appends the member. -/
theorem insert_of_not_mem {members : Members} {name : String} (value : Json)
    (absent : name ∉ members.names) : members.insert name value = members ++ [(name, value)] := by
  induction members with
  | nil => rfl
  | cons member rest ih =>
      obtain ⟨other, old⟩ := member
      have differs : other ≠ name := fun same => absent (by simp [names, same])
      have later : name ∉ names rest := fun h => absent (List.mem_cons_of_mem _ h)
      simp [insert, differs, ih later]

end Members

end Provision
