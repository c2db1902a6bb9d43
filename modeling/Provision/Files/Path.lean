/-!
Paths as they are written: texts with slashes between names.

A path is never normalised; `join` and `parents` work on what is written. Empty names,
which come from doubled and trailing slashes, have no meaning.
-/

namespace Provision.Path

def isAbsolute (path : String) : Bool := path.toList.head? == some '/'

def endsInSlash (path : String) : Bool := path.toList.getLast? == some '/'

/-- The names on the way, `.` and `..` among them. -/
def names (path : String) : List String :=
  ((path.toList.splitOn '/').filter (!·.isEmpty)).map String.ofList

/-- A path from the end of another one. An absolute path stays as it is. -/
def join (base path : String) : String :=
  if isAbsolute path || base.isEmpty then path
  else if endsInSlash base then base ++ path
  else base ++ "/" ++ path

/-- Names without the dots at their end, which lead nowhere. The names are given last
one first. -/
def dropDots (names : List String) : List String := names.dropWhile (· == ".")

/-- The paths of the containing directories, nearest first. Names are given and returned
last one first. -/
def parents : List String → List (List String)
  | [] => []
  | name :: above =>
      if name = "." then parents above else dropDots above :: parents above

/-- The longest path that can be looked up, in bytes. -/
def maxBytes : Nat := 4095

/-- The longest name a directory can hold, in bytes. -/
def maxNameBytes : Nat := 255

@[simp] theorem join_empty_base (path : String) : join "" path = path := by
  simp [join]

end Provision.Path
