import Provision.Files.Basic

/-!
Looking up and reading by path.

A path is followed name by name from the root or from the home directory; every name on
the way must be looked up in a directory. Nothing is changed here: `openFile` and `vacancy`
only say where a file can be written and where a directory can be made.
-/

namespace Provision.Files

def start (files : Files) (absolute : Bool) : Location := if absolute then [] else files.home

def byteCount (name : String) : Nat := name.utf8ByteSize

/-- Where a name leads from a directory: `.` stays, and `..` goes up. -/
def enter (here : Location) (name : String) : Location :=
  if name = "." then here else if name = ".." then here.dropLast else here ++ [name]

/-- Look up a name in a directory. The result need not exist. -/
def step (files : Files) (here : Location) (name : String) : Except FileFault Location :=
  match files.lookup here with
  | none => .error .missing
  | some (.file ..) => .error .notDirectory
  | some .directory =>
      if Path.maxNameBytes < byteCount name then .error .nameTooLong else .ok (enter here name)

def walk (files : Files) (here : Location) : List String → Except FileFault Location
  | [] => .ok here
  | name :: names =>
      match files.step here name with
      | .error fault => .error fault
      | .ok there => walk files there names

/-- What keeps a path from being followed at all. -/
def refusal? (path : String) : Option FileFault :=
  if path.toList.contains '\x00' then some .nulInName
  else if path.isEmpty then some .missing
  else if Path.maxBytes < byteCount path then some .nameTooLong
  else none

/-- The location of what a path leads to, with what is there. -/
def resolve (files : Files) (path : String) : Except FileFault (Location × Entry) :=
  match refusal? path with
  | some fault => .error fault
  | none =>
      match files.walk (files.start (Path.isAbsolute path)) (Path.names path) with
      | .error fault => .error fault
      | .ok location =>
          match files.lookup location with
          | none => .error .missing
          | some entry =>
              if Path.endsInSlash path && !entry.isDirectory then .error .notDirectory
              else .ok (location, entry)

def pathExists (files : Files) (path : String) : Bool :=
  match files.resolve path with
  | .ok _ => true
  | .error _ => false

def isDirectory (files : Files) (path : String) : Bool :=
  match files.resolve path with
  | .ok (_, entry) => entry.isDirectory
  | .error _ => false

def readText (files : Files) (path : String) : Except FileFault String :=
  match files.resolve path with
  | .error fault => .error fault
  | .ok (_, .directory) => .error .isDirectory
  | .ok (_, .file content _) =>
      match String.fromUTF8? content with
      | some text => .ok text
      | none => .error .notText

/-- The directory in which the last of the names is to be looked up, and that name.
Without a name, `special` is the fault. -/
def container (files : Files) (special : FileFault) (absolute : Bool) (names : List String) :
    Except FileFault (Location × String) :=
  match names.getLast? with
  | none => .error special
  | some last =>
      match files.walk (files.start absolute) names.dropLast with
      | .error fault => .error fault
      | .ok parent =>
          match files.lookup parent with
          | none => .error .missing
          | some (.file ..) => .error .notDirectory
          | some .directory => .ok (parent, last)

/-- The location in which a new entry is to be made: the last name, looked up in the
directory that the others lead to. Where the last name is `.` or `..`, `special` is the
fault, provided that this directory exists. -/
def target (files : Files) (special : FileFault) (absolute : Bool) (names : List String) :
    Except FileFault Location :=
  match files.container special absolute names with
  | .error fault => .error fault
  | .ok (parent, last) =>
      match files.step parent last with
      | .error fault => .error fault
      | .ok location => if last = "." ∨ last = ".." then .error special else .ok location

def newFileMode : Nat := 0o644

/-- The file that can be written under a path: its location and its permission bits, which
are those of the file that is there or else of a new one. A path that ends in a slash can only
be that of a directory, so its last name is not even looked up. -/
def openFile (files : Files) (path : String) : Except FileFault (Location × Nat) :=
  match refusal? path with
  | some fault => .error fault
  | none =>
      let absolute := Path.isAbsolute path
      let names := Path.names path
      if Path.endsInSlash path then
        match files.container .isDirectory absolute names with
        | .error fault => .error fault
        | .ok _ => .error .isDirectory
      else
        match files.target .isDirectory absolute names with
        | .error fault => .error fault
        | .ok location =>
            match files.lookup location with
            | some .directory => .error .isDirectory
            | some (.file _ mode) => .ok (location, mode)
            | none => .ok (location, newFileMode)

/-- The location at which a directory can be made: there is nothing, but the directory that
it is to be in. -/
def vacancy (files : Files) (absolute : Bool) (names : List String) :
    Except FileFault Location :=
  match files.target .alreadyThere absolute names with
  | .error fault => .error fault
  | .ok location =>
      match files.lookup location with
      | some _ => .error .alreadyThere
      | none => .ok location

def leadsToDirectory (files : Files) (absolute : Bool) (names : List String) : Bool :=
  match files.walk (files.start absolute) names with
  | .ok location => (files.lookup location).any (·.isDirectory)
  | .error _ => false

end Provision.Files
