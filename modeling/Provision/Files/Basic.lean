import Provision.Files.Path

/-!
A file system: directories and files with their contents and permission bits.

Entries are kept by location, the names from the root down. `Files.lookup` is the view
of a file system in which all operations are described: a change at one location leaves
every other one as it was.

The file systems covered are those without symbolic and hard links, so that each entry has
one location and `..` leads to the directory that a location is in. Entries have no owners:
whatever is there can be looked up and read, and reading never fails for the disk's sake.
Changes can fail so; the disk on which they are made is given apart from the files.
-/

namespace Provision

/-- Why a file operation cannot be done: what is or is not at the path, the path itself, or
a fault of the disk, which is known by its wording only. -/
inductive FileFault where
  | missing
  | alreadyThere
  | notDirectory
  | isDirectory
  | nameTooLong
  | notText
  | nulInName
  | disk (message : String)
deriving DecidableEq, Repr

def FileFault.message : FileFault → String
  | .missing => "No such file or directory (os error 2)"
  | .alreadyThere => "File exists (os error 17)"
  | .notDirectory => "Not a directory (os error 20)"
  | .isDirectory => "Is a directory (os error 21)"
  | .nameTooLong => "File name too long (os error 36)"
  | .notText => "stream did not contain valid UTF-8"
  | .nulInName => "file name contained an unexpected NUL byte"
  | .disk message => message

/-- The names from the root down to an entry. -/
abbrev Location := List String

inductive Entry where
  | directory
  | file (content : ByteArray) (mode : Nat)

def Entry.isDirectory : Entry → Bool
  | directory => true
  | file .. => false

/-- A file system, seen from the directory in which relative paths start. -/
structure Files where
  entries : List (Location × Entry)
  home : Location

namespace Files

/-- The first entry that is listed for a location. -/
def find (location : Location) : List (Location × Entry) → Option Entry
  | [] => none
  | (place, entry) :: rest => if place = location then some entry else find location rest

/-- List an entry for a location, in place of the one that is listed for it. -/
def put (location : Location) (entry : Entry) : List (Location × Entry) → List (Location × Entry)
  | [] => [(location, entry)]
  | (place, old) :: rest =>
      if place = location then (location, entry) :: rest
      else (place, old) :: put location entry rest

/-- What is at a location. The root is always a directory. -/
def lookup (files : Files) (location : Location) : Option Entry :=
  if location = [] then some .directory else find location files.entries

def set (files : Files) (location : Location) (entry : Entry) : Files :=
  { files with entries := put location entry files.entries }

theorem find_put (location other : Location) (entry : Entry) (entries : List (Location × Entry)) :
    find other (put location entry entries)
      = if other = location then some entry else find other entries := by
  induction entries with
  | nil => simp [put, find, eq_comm]
  | cons listed rest ih =>
      obtain ⟨place, old⟩ := listed
      by_cases same : place = location
      · subst same
        simp only [put, find, if_true]
        by_cases h : other = place
        · simp [h]
        · simp [h, Ne.symm h]
      · simp only [put, same, if_false, find, ih]
        by_cases h : place = other
        · subst h
          simp [same]
        · simp [h]

/-- What is set at a location is found there, and all other locations stay as they
were. -/
theorem lookup_set (files : Files) {location : Location} (inside : location ≠ [])
    (entry : Entry) (other : Location) :
    (files.set location entry).lookup other
      = if other = location then some entry else files.lookup other := by
  unfold lookup set
  by_cases root : other = []
  · simp [root, inside.symm]
  · simp [root, find_put]

end Files

end Provision
