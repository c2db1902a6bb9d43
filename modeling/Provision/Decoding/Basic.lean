/-!
Reading typed values from untyped ones.

A decoder turns an untyped value into a typed one or says what is wrong and where. The
members of an object are decoded in the order of the text and the first misfit wins;
what is missing is found at the end of the object. A record can also be written as an
array of its fields in the order of their declaration.
-/

namespace Provision

/-- A step from a value into one of its parts. -/
inductive Segment where
  | name (name : String)
  | index (index : Nat)
deriving DecidableEq, Repr

/-- The segments behind the first one of a path: names behind dots, indices in
brackets. -/
def segmentsText : List Segment → String
  | [] => ""
  | .name name :: rest => "." ++ name ++ segmentsText rest
  | .index index :: rest => s!"[{index}]" ++ segmentsText rest

/-- The text of a path. The path of the whole document is a single dot. -/
def pathText (path : List Segment) : String :=
  match path with
  | [] => "."
  | .name name :: rest => name ++ segmentsText rest
  | rest => segmentsText rest

inductive Mismatch where
  | wrongType (found expected : String)
  | outOfRange (found expected : String)
  | missingField (name : String)
  | tooShort (length : Nat) (record : String) (fields : Nat)
  | surplusItems
  | unknownVariant (found : String) (known : List String)
  | notAVariant
  | invalid (message : String)
deriving DecidableEq, Repr

def Mismatch.message : Mismatch → String
  | .wrongType found expected => s!"invalid type: {found}, expected {expected}"
  | .outOfRange found expected => s!"invalid value: {found}, expected {expected}"
  | .missingField name => s!"missing field `{name}`"
  | .tooShort length record fields =>
      s!"invalid length {length}, expected struct {record} with {fields} elements"
  | .surplusItems => "trailing characters"
  | .unknownVariant found known =>
      let names := ", ".intercalate (known.map fun name => s!"`{name}`")
      s!"unknown variant `{found}`, expected one of {names}"
  | .notAVariant => "expected value"
  | .invalid message => message

/-- A mismatch and the path of the value it is about. -/
structure Misfit where
  path : List Segment
  mismatch : Mismatch
deriving DecidableEq, Repr

abbrev Decoded (α : Type) := Except Misfit α

namespace Decoding

def fail {α : Type} (mismatch : Mismatch) : Decoded α := .error ⟨[], mismatch⟩

/-- Report a misfit of a part from the point of view of the whole. -/
def inside {α : Type} (segment : Segment) (decoded : Decoded α) : Decoded α :=
  match decoded with
  | .ok value => .ok value
  | .error misfit => .error { misfit with path := segment :: misfit.path }

/-- A field of a record, in untyped values `ν`: its name, and how its value changes the
record `σ` that is being built. -/
structure Field (ν σ : Type) where
  name : String
  read : ν → Decoded (σ → σ)

/-- A field whose decoded value is put into the record by `set`. -/
def field {α ν σ : Type} (name : String) (decode : ν → Decoded α) (set : α → σ → σ) :
    Field ν σ :=
  ⟨name, fun value => (decode value).map set⟩

variable {ν σ : Type}

/-- Take up members in order; `other` takes those that are no field. -/
def takeMembers (fields : List (Field ν σ)) (other : String → ν → σ → σ) (record : σ) :
    List (String × ν) → Decoded σ
  | [] => .ok record
  | (name, value) :: members =>
      match fields.find? (·.name == name) with
      | some field =>
          match inside (.name name) (field.read value) with
          | .ok change => takeMembers fields other (change record) members
          | .error misfit => .error misfit
      | none => takeMembers fields other (other name value record) members

/-- Take up items as the fields in their order; the first item has this index. Items
behind the last field are left. -/
def takeItems (record : σ) (index : Nat) : List (Field ν σ) → List ν → Decoded σ
  | field :: fields, item :: items =>
      match inside (.index index) (field.read item) with
      | .ok change => takeItems (change record) (index + 1) fields items
      | .error misfit => .error misfit
  | _, _ => .ok record

/-- The items of a list, the first of which has this index. -/
def itemsFrom {α : Type} (decode : ν → Decoded α) (index : Nat) : List ν → Decoded (List α)
  | [] => .ok []
  | item :: items =>
      match inside (.index index) (decode item) with
      | .ok value => (itemsFrom decode (index + 1) items).map (value :: ·)
      | .error misfit => .error misfit

end Decoding

end Provision
