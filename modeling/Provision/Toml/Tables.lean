import Provision.Toml.Basic

/-!
Building tables from the statements of a TOML document.

A table can be defined once. Dotted keys may extend a table that dotted keys have made,
headers may pass through tables of any kind but inline ones, and a header may define a
table that only longer headers have named so far.
-/

namespace Provision.Toml

abbrev Members := List (String × Toml)

/-- A statement of a document. Keys are split into the way to a table and the last
name. -/
inductive Statement where
  | pair (path : List String) (name : String) (value : Toml)
  | header (path : List String) (name : String)
  | arrayHeader (path : List String) (name : String)
deriving Repr

def lookup (name : String) (members : Members) : Option Toml :=
  (members.find? (·.1 == name)).map Prod.snd

def replace (name : String) (value : Toml) (members : Members) : Members :=
  members.map fun (other, old) => if other == name then (other, value) else (other, old)

/-- Change the table at the end of a path, which starts in a table of this origin.
Missing tables are made on the way; of several tables under one name the last one is
taken. -/
def within (dotted : Bool) (change : TableOrigin → Members → Option Members)
    (origin : TableOrigin) (members : Members) : List String → Option Members
  | [] => change origin members
  | name :: path =>
      match lookup name members with
      | none => do
          let origin := if dotted then .dotted else .implicit
          let inner ← within dotted change origin [] path
          return members ++ [(name, .table origin inner)]
      | some (.table origin inner) =>
          if origin = .inline ∨ (dotted ∧ origin = .header) then none
          else do
            let inner ← within dotted change origin inner path
            return replace name (.table origin inner) members
      | some (.tables listed) =>
          match listed.getLast? with
          | none => none
          | some last => do
              let last ← within dotted change .header last path
              return replace name (.tables (listed.dropLast ++ [last])) members
      | some _ => none

/-- Add a key and its value to a table of this origin. The table that the path leads to
must have been made by dotted keys, unless the path is empty. -/
def addPair (origin : TableOrigin) (members : Members) (path : List String) (name : String)
    (value : Toml) : Option Members :=
  within true
    (fun origin inner =>
      if (!path.isEmpty ∧ origin ≠ .dotted) ∨ (lookup name inner).isSome then none
      else some (inner ++ [(name, value)]))
    origin members path

/-- An inline table. -/
def ofInlinePairs (pairs : List (List String × String × Toml)) : Option Toml := do
  let members ← pairs.foldlM
    (fun members (path, name, value) => addPair .inline members path name value) []
  return .table .inline members

/-- Open the table of a header. A table that only longer headers have named so far is
taken over, with the place of a new one. -/
def openTable (root : Members) (path : List String) (name : String) : Option Members :=
  within false
    (fun _ members =>
      match lookup name members with
      | none => some (members ++ [(name, .table .header [])])
      | some (.table .implicit inner) =>
          some (members.filter (·.1 != name) ++ [(name, .table .header inner)])
      | some _ => none)
    .header root path

/-- Open another one of the tables under the name of an array header. -/
def openArray (root : Members) (path : List String) (name : String) : Option Members :=
  within false
    (fun _ members =>
      match lookup name members with
      | none => some (members ++ [(name, .tables [[]])])
      | some (.tables listed) => some (replace name (.tables (listed ++ [[]])) members)
      | some _ => none)
    .header root path

/-- Carry out a statement, in a document whose last header has opened the table at a
path. -/
def Statement.perform (document : Members × List String) :
    Statement → Option (Members × List String)
  | pair path name value => do
      let (root, here) := document
      let root ← within false
        (fun origin members => addPair origin members path name value) .header root here
      return (root, here)
  | header path name => do
      let root ← openTable document.1 path name
      return (root, path ++ [name])
  | arrayHeader path name => do
      let root ← openArray document.1 path name
      return (root, path ++ [name])

/-- The members of the document that statements build. -/
def build (statements : List Statement) : Option Members := do
  let (root, _) ← statements.foldlM Statement.perform ([], [])
  return root

end Provision.Toml
