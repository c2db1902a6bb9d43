import Provision.CommandLine.Footprint

/-!
The program: take a picture of the files that a command line is about, respond to it in
that picture, and carry the changes over to the disk.
-/

namespace Provision.Program

open CommandLine

def pathOf (location : Location) : String := "/" ++ "/".intercalate location

/-- The number under which reading a directory as a file is refused. -/
def directoryRefusal : UInt32 := 21

def probe (location : Location) : IO (Option Entry) := do
  try
    return some (.file (← IO.FS.readBinFile (pathOf location)) Files.newFileMode)
  catch
    | .inappropriateType _ code _ =>
        return if code = directoryRefusal then some .directory else none
    | _ => return none

def observeNames (files : Files) (here : Location) : List String → IO Files
  | [] => return files
  | name :: names => do
      let there := Files.enter here name
      match files.lookup there with
      | some _ => observeNames files there names
      | none =>
          match ← probe there with
          | some entry => observeNames (files.set there entry) there names
          | none => observeNames files there names

/-- Look at a path and at everything on the way. -/
def observe (files : Files) (path : String) : IO Files :=
  observeNames files (files.start (Path.isAbsolute path)) (Path.names path)

def observeAll (invocation : Invocation) (files : Files) : Nat → IO Files
  | 0 => return files
  | rounds + 1 => do
      observeAll invocation (← (invocation.footprint files).foldlM observe files) rounds

/-- The files around an invocation, seen from the current directory. -/
def picture (invocation : Invocation) : IO Files := do
  let home := Path.names (toString (← IO.currentDir))
  let files ← observeNames { entries := [], home } [] home
  observeAll invocation files footprintRounds

/-- The rights that permission bits state for one class of users. -/
def rights (bits : Nat) : IO.AccessRight :=
  { read := bits / 4 % 2 = 1, write := bits / 2 % 2 = 1, execution := bits % 2 = 1 }

/-- Carry an entry over to the disk if it is not what was there before. -/
def carryOver (before : Files) (location : Location) (entry : Entry) : IO Unit := do
  let path := pathOf location
  match entry, before.lookup location with
  | .directory, some .directory => return
  | .directory, _ => IO.FS.createDir path
  | .file content mode, old =>
      let (oldContent, oldMode) := match old with
        | some (.file content mode) => (some content, mode)
        | _ => (none, Files.newFileMode)
      if oldContent != some content then IO.FS.writeBinFile path content
      if oldMode != mode then
        IO.setAccessRights path
          { user := rights (mode / 64), group := rights (mode / 8), other := rights mode }

/-- Respond to a command line on the disk. The result is the exit status. -/
def perform (words : List String) : IO UInt32 := do
  let files ← match Invocation.ofWords words with
    | .ok invocation => picture invocation
    | .error _ => pure { entries := [], home := [] }
  let ending := respond markedIssues .reliable words { files, issued := 0 }
  for (location, entry) in ending.world.files.entries do
    carryOver files location entry
  IO.print ending.output
  if let some complaint := ending.complaint then IO.eprintln complaint
  return ending.status.toUInt32

end Provision.Program

def main (words : List String) : IO UInt32 := Provision.Program.perform words
