/-!
What can go wrong between a cluster definition and its artifacts.

`Error.message` is the wording. `Error.root` is the error without the stages around it,
and `Error.trail` is the message followed by those of its causes, each of which repeats
the end of the one before. A message that ends in a fault of a TOML document is the last
of its trail.
-/

namespace Provision

inductive Stage where
  | localize
  | load
  | merge
  | validate
  | generate
  | postProcess
  | persist
deriving DecidableEq, Repr

def Stage.name : Stage → String
  | .localize => "localize"
  | .load => "load"
  | .merge => "merge"
  | .validate => "validate"
  | .generate => "generate"
  | .postProcess => "post-process"
  | .persist => "persist"

/-- An error. A TOML error has a detail if the text is well-formed TOML of another shape
than the one expected. A malformed catalog is no TOML, or TOML of another shape. -/
inductive Error where
  | notFound (path : String)
  | readFailure (path cause : String)
  | schema (field message : String)
  | validation (message : String)
  | configuration (message : String)
  | engine (document message : String)
  | format (payload message : String)
  | persist (path message : String)
  | stage (stage : Stage) (document : String) (cause : Error)
  | io (cause : String)
  | toml (detail : Option String)
  | malformedCatalog (path : String)
  | json (cause : String)
deriving DecidableEq, Repr

namespace Error

def message : Error → String
  | notFound path => s!"File not found: {path}"
  | readFailure path cause => s!"Failed to read {path}: {cause}"
  | schema field message => s!"Schema error at '{field}': {message}"
  | validation message => s!"Validation error: {message}"
  | configuration message => s!"Configuration error: {message}"
  | engine document message => s!"Error generating template {document}: {message}"
  | format payload message => s!"Error pretty printing {payload}: {message}"
  | persist path message => s!"Error writing artifacts to {path}: {message}"
  | stage failed document cause => s!"{failed.name} failed for {document}: {cause.message}"
  | io cause => s!"IO error: {cause}"
  | toml _ => "TOML parse error: TOML parse error"
  | malformedCatalog path =>
      s!"Configuration error: error loading translation files: {path}: TOML parse error"
  | json cause => s!"JSON error: {cause}"

def root : Error → Error
  | stage _ _ cause => cause.root
  | other => other

/-- Whether the message of an error ends in a fault of a TOML document. -/
def endsInToml : Error → Bool
  | stage _ _ cause => cause.endsInToml
  | toml _ | malformedCatalog _ => true
  | _ => false

/-- The message of an error and those of its causes, up to one that ends in a fault of a
TOML document. -/
def trail : Error → List String
  | stage failed document cause =>
      (stage failed document cause).message :: if cause.endsInToml then [] else cause.trail
  | readFailure path cause => [(readFailure path cause).message, cause]
  | io cause => [(io cause).message, cause]
  | json cause => [(json cause).message, cause]
  | other => [other.message]

def stage? : Error → Option Stage
  | stage failed _ _ => some failed
  | _ => none

def isStage : Error → Bool
  | stage .. => true
  | _ => false

@[simp] theorem root_stage (failed : Stage) (document : String) (cause : Error) :
    (stage failed document cause).root = cause.root := rfl

/-- The root of an error is no stage. -/
theorem isStage_root (error : Error) : error.root.isStage = false := by
  induction error with
  | stage _ _ _ ih => exact ih
  | _ => rfl

end Error

end Provision
