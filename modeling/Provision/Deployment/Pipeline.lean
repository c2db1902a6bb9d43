import Provision.Deployment.Artifacts
import Provision.Deployment.Formatting
import Provision.Deployment.Generation

/-!
From a request to artifacts on disk.

A run loads a definition, merges the replacements of the request into it, validates it,
generates a template, formats it and writes the artifacts. Each stage is a step of `Run`, which
records how far the run has come. The first stage that fails ends the run; its error is wrapped
into the stage and the path of the document. What generates, formats and writes is given as
`Tools`, so a run is described for any such tools; `Outcome.calls` records how they were used.
-/

namespace Provision

/-! ### Progress -/

/-- How far a run has come. -/
inductive Progress where
  | idle
  | loaded
  | merged
  | validated
  | generated
  | postProcessed
  | persisted
  | done
  | failed (stage : Stage)
deriving DecidableEq, Repr

def Progress.after : Stage → Progress
  | .localize => idle
  | .load => loaded
  | .merge => merged
  | .validate => validated
  | .generate => generated
  | .postProcess => postProcessed
  | .persist => persisted

structure Run where
  document : String
  progress : Progress := .idle

/-- A stage comes to its end: the run goes on with its value, or fails for good. -/
def Run.step {α : Type} (run : Run) (stage : Stage) : Except Error α → Except Error α × Run
  | .ok value => (.ok value, { run with progress := .after stage })
  | .error cause =>
      (.error (.stage stage run.document cause), { run with progress := .failed stage })

section Step

variable {α : Type} (run : Run) (stage : Stage)

@[simp] theorem Run.step_ok (value : α) :
    run.step stage (.ok value) = (.ok value, { run with progress := .after stage }) := rfl

@[simp] theorem Run.step_error (cause : Error) :
    run.step stage (.error cause : Except Error α) =
      (.error (.stage stage run.document cause), { run with progress := .failed stage }) := rfl

end Step

/-! ### Tools -/

/-- What a run uses to generate, format and write. -/
structure Tools where
  generate : Validated → Flavour → World → Except Error Generated × World
  formatTemplate : String → Except Error String
  formatParameters : String → Except Error String
  write : Artifacts → World → Except Error Unit × World

inductive Call where
  | generate (validated : Validated) (flavour : Flavour)
  | formatTemplate (text : String)
  | formatParameters (text : String)
  | write (artifacts : Artifacts)

structure Report where
  outputDirectory : String
  version : ApiVersion
  certsGenerated : Bool
  finalState : Progress
deriving DecidableEq, Repr

/-- The end of a run: its result, how far it came, the uses of tools in order, and the world it
leaves. -/
structure Outcome where
  result : Except Error Report
  progress : Progress
  calls : List Call
  world : World

/-! ### Stages -/

def loadDefinition (files : Files) (path : String) : Except Error Definition :=
  if !files.pathExists path then .error (.notFound path)
  else
    match files.readText path with
    | .error fault => .error (.readFailure path fault.message)
    | .ok text => Definition.parse text

/-- Load, merge and validate, as a run does before it uses any tool. -/
def check (request : Request) (files : Files) : Except Error Validated :=
  let document := request.options.definitionPath
  match ({ document } : Run).step .load (loadDefinition files document) with
  | (.error error, _) => .error error
  | (.ok definition, run) =>
      let merged := request.merge definition
      match run.step .merge (.ok ()) with
      | (.error error, _) => .error error
      | (.ok (), run) => (run.step .validate (validate files request.options merged)).1

/-- The template and the parameters as they are written, and the uses of tools on the
way. -/
def postProcess (tools : Tools) (prettyPrint : Bool) (generated : Generated) :
    Except Error (String × String) × List Call :=
  if prettyPrint then
    match tools.formatTemplate generated.template with
    | .error error => (.error error, [.formatTemplate generated.template])
    | .ok template =>
        let calls := [.formatTemplate generated.template, .formatParameters generated.parameters]
        match tools.formatParameters generated.parameters with
        | .error error => (.error error, calls)
        | .ok parameters => (.ok (template, parameters), calls)
  else (.ok (generated.template, generated.parameters), [])

def Validated.artifacts (validated : Validated) (options : Options) (generated : Generated)
    (texts : String × String) : Artifacts :=
  { definition := validated.definition
    version := validated.definition.version
    template := texts.1
    parameters := texts.2
    outputDirectory := validated.outputDirectory
    certsGenerated := generated.certsGenerated
    parametersOnly := options.parametersOnly
    authority := generated.authority }

/-- What a run does with a validated definition: generate, format and write. -/
def deploy (tools : Tools) (request : Request) (validated : Validated) (run : Run)
    (world : World) : Outcome :=
  let flavour := Flavour.ofClassic request.options.classic
  let called := [Call.generate validated flavour]
  let (generated, world) := tools.generate validated flavour world
  match run.step .generate generated with
  | (.error error, run) => ⟨.error error, run.progress, called, world⟩
  | (.ok generated, run) =>
      let (texts, formatted) := postProcess tools request.options.prettyPrint generated
      match run.step .postProcess texts with
      | (.error error, run) => ⟨.error error, run.progress, called ++ formatted, world⟩
      | (.ok texts, run) =>
          let artifacts := validated.artifacts request.options generated texts
          let calls := called ++ formatted ++ [.write artifacts]
          let (written, world) := tools.write artifacts world
          match run.step .persist written with
          | (.error error, run) => ⟨.error error, run.progress, calls, world⟩
          | (.ok (), run) =>
              let run := { run with progress := .done }
              let report :=
                { outputDirectory := validated.outputDirectory
                  version := validated.definition.version
                  certsGenerated := generated.certsGenerated
                  finalState := run.progress }
              ⟨.ok report, run.progress, calls, world⟩

def run (tools : Tools) (request : Request) (world : World) : Outcome :=
  let document := request.options.definitionPath
  match ({ document } : Run).step .load (loadDefinition world.files document) with
  | (.error error, run) => ⟨.error error, run.progress, [], world⟩
  | (.ok definition, run) =>
      let merged := request.merge definition
      match run.step .merge (.ok ()) with
      | (.error error, run) => ⟨.error error, run.progress, [], world⟩
      | (.ok (), run) =>
          match run.step .validate (validate world.files request.options merged) with
          | (.error error, run) => ⟨.error error, run.progress, [], world⟩
          | (.ok validated, run) => deploy tools request validated run world

/-- The built-in tools: generate with the given outcomes of issuing an authority, format
by indentation, and write files to a disk. -/
def builtinTools (issues : Nat → Issue) (disk : Disk) (catalog : Catalog) : Tools where
  generate := generate issues catalog
  formatTemplate := Formatting.template
  formatParameters := Formatting.parameters
  write artifacts world :=
    let (result, files) := artifacts.writeTo disk catalog world.files
    (result, { world with files })

end Provision
