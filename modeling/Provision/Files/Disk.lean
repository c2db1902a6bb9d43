import Provision.Files.Operations

/-!
Changing files on a disk that can fail.

What a path does not allow fails on every disk, and changes nothing. Where it allows a change,
the disk decides what becomes of it (`Disk`). A fault in making a directory or in setting
permission bits leaves everything as it was. So does a write that is refused before its file
is opened; but opening a file makes it or empties it, so a write that is broken off after that
leaves in its file whatever the disk has taken.
-/

namespace Provision

/-- What becomes of a write where the path allows it. -/
inductive WriteOutcome where
  | complete
  | refused (fault : FileFault)
  | brokenOff (fault : FileFault) (left : ByteArray)

/-- A disk: for every change that the path allows, what becomes of it. -/
structure Disk where
  writing : Files → String → ByteArray → WriteOutcome
  restricting : Files → String → Option FileFault
  making : Files → Bool → List String → Option FileFault

namespace Disk

/-- The disk on which only that fails which the path does not allow. -/
def reliable : Disk where
  writing _ _ _ := .complete
  restricting _ _ := none
  making _ _ _ := none

/-- Put a content into the file that a path leads to. A new file is made if there is
none; a file that is there keeps its permission bits. -/
def writeFile (disk : Disk) (files : Files) (path : String) (content : ByteArray) :
    Except FileFault Unit × Files :=
  match files.openFile path with
  | .error fault => (.error fault, files)
  | .ok (location, mode) =>
      match disk.writing files path content with
      | .complete => (.ok (), files.set location (.file content mode))
      | .refused fault => (.error fault, files)
      | .brokenOff fault left => (.error fault, files.set location (.file left mode))

def writeText (disk : Disk) (files : Files) (path text : String) :
    Except FileFault Unit × Files :=
  disk.writeFile files path text.toUTF8

def setMode (disk : Disk) (files : Files) (path : String) (mode : Nat) :
    Except FileFault Files :=
  match files.resolve path with
  | .error fault => .error fault
  | .ok (location, entry) =>
      match disk.restricting files path with
      | some fault => .error fault
      | none =>
          match entry with
          | .directory => .ok files
          | .file content _ => .ok (files.set location (.file content mode))

/-- Make a directory unless there is one already. The directory that it is in must exist. -/
def ensureDirectory (disk : Disk) (files : Files) (absolute : Bool) (names : List String) :
    Except FileFault Files :=
  match files.vacancy absolute names with
  | .ok location =>
      match disk.making files absolute names with
      | some fault => .error fault
      | none => .ok (files.set location .directory)
  | .error fault =>
      if files.leadsToDirectory absolute names then .ok files else .error fault

/-- Make a directory and, where they are missing, those that contain it; `parents` are
the containing directories, nearest first. Names are given last one first. The file
system is returned in any case, since containing directories may have been made before
a fault. -/
def makeThrough (disk : Disk) (files : Files) (absolute : Bool) (names : List String) :
    List (List String) → Except FileFault Unit × Files
  | [] =>
      match disk.ensureDirectory files absolute names.reverse with
      | .ok files => (.ok (), files)
      | .error fault => (.error fault, files)
  | parent :: above =>
      match disk.ensureDirectory files absolute names.reverse with
      | .ok files => (.ok (), files)
      | .error fault =>
          if fault = .missing then
            let (result, files) := makeThrough disk files absolute parent above
            match result with
            | .error fault => (.error fault, files)
            | .ok () =>
                match disk.ensureDirectory files absolute names.reverse with
                | .ok files => (.ok (), files)
                | .error fault => (.error fault, files)
          else (.error fault, files)

/-- Make the directory of a path with all directories that contain it. The empty path
needs none. -/
def createAll (disk : Disk) (files : Files) (path : String) : Except FileFault Unit × Files :=
  if path.isEmpty then (.ok (), files)
  else
    match Files.refusal? path with
    | some fault => (.error fault, files)
    | none =>
        let names := (Path.names path).reverse
        disk.makeThrough files (Path.isAbsolute path) names (Path.parents names)

end Disk

end Provision
