import Provision.Proofs.Deployment.FailedRuns
import Provision.Proofs.Deployment.Placement
import Provision.Proofs.Deployment.Requirements
import Provision.Proofs.Deployment.Rerun

/-!
The output directory that is derived from a definition.

Where the options name no output directory, it is the output root with the DNS prefix joined to
it. The prefix is any text that is not empty. If it is a file name, the output directory is a
directory of its own in the output root, and a run changes nothing outside of it but that the
root is made if it is not there: `derived_directory`. Nothing else is asked of the prefix, though.
An absolute one replaces the output root (`not_extends_absolute`), and one with slashes or dots
leads to other places.
-/

namespace Provision

open Provision.Path (IsFileName Extends)

variable {issues : Nat → Issue} {disk : Disk} {catalog : Catalog} {request : Request}
  {world : World}

/-! ### What a run changes -/

/-- What a run writes, it writes to the directory that was settled, whether or not this succeeds. -/
theorem files_of_write {validated : Validated} {generated : Generated} {between later : World}
    {texts : String × String} {result : Except Error Unit}
    (generates : Generates (builtinTools issues disk catalog) request world validated generated
      between)
    (written : (builtinTools issues disk catalog).write
      (validated.artifacts request.options generated texts) between = (result, later)) :
    ∃ artifacts : Artifacts, artifacts.outputDirectory = validated.outputDirectory ∧
      later.files = (artifacts.writeTo disk catalog world.files).2 := by
  refine ⟨validated.artifacts request.options generated texts, rfl, ?_⟩
  rw [← files_of_generate generates.done, (writeTo_of_write written).1]

/-- A run that has come to a validated definition changes no file but in writing artifacts to the
directory that was settled. -/
theorem files_of_run {validated : Validated}
    (checked : check request world.files = .ok validated) :
    let later := (run (builtinTools issues disk catalog) request world).world.files
    later = world.files ∨ ∃ artifacts : Artifacts,
      artifacts.outputDirectory = validated.outputDirectory ∧
        later = (artifacts.writeTo disk catalog world.files).2 := by
  intro later
  have accepted : Accepts request world.files validated := check_eq_ok_iff.mp checked
  rcases completes_or_fails (builtinTools issues disk catalog) request world with
    ⟨report, calls, left, completes⟩ | ⟨stage, cause, calls, left, fails⟩
  · have ended : later = left.files :=
      congrArg (fun outcome => outcome.world.files) (run_of_completes completes)
    obtain ⟨generates, prints, writes⟩ := completes
    obtain rfl := accepted.unique generates.accepted
    rw [ended]
    exact .inr (files_of_write generates writes)
  · have ended : later = left.files :=
      congrArg (fun outcome => outcome.world.files) (run_of_fails fails)
    cases fails with
    | rejected rejects => exact absurd rejects accepted.not_rejects
    | generate _ stopped => exact .inl (ended.trans (files_of_generate stopped))
    | postProcess generates => exact .inl (ended.trans (files_of_generate generates.done))
    | persist generates prints stopped =>
        obtain rfl := accepted.unique generates.accepted
        rw [ended]
        exact .inr (files_of_write generates stopped)

/-- Nothing has changed outside of a directory of this name in the root, but that directories were
made on the way to the root, where nothing was. -/
def Confined (root name : String) (files later : Files) : Prop :=
  ∀ location, later.lookup location = files.lookup location ∨
    (files.lookup location = none ∧ later.lookup location = some .directory ∧
      later.OnTheWay root location) ∨
    ∃ base, later.Leads root base ∧ base ++ [name] <+: location

/-- Artifacts that are written to a directory of the root change nothing outside of it. -/
theorem confined_writeTo {artifacts : Artifacts} {root name : String} (plain : IsFileName name)
    (directory : artifacts.outputDirectory = Path.join root name) (files : Files) :
    Confined root name files (artifacts.writeTo disk catalog files).2 := by
  intro location
  have entries := artifacts.entries_writeTo disk catalog files location
  rw [directory] at entries
  rcases entries with same | ⟨free, made, passed⟩ | ⟨here, leads, file, -, rfl⟩
  · exact .inl same
  · rcases Files.onTheWay_join plain passed with passed | leads
    · exact .inr (.inl ⟨free, made, passed⟩)
    · obtain ⟨base, within, rfl⟩ := Files.location_of_leads_join plain leads
      exact .inr (.inr ⟨base, within, List.prefix_rfl⟩)
  · obtain ⟨base, within, rfl⟩ := Files.location_of_leads_join plain leads
    exact .inr (.inr ⟨base, within, List.prefix_append _ _⟩)

/-! ### Main results -/

/-- **The output directory that is derived.** Let the options name no output directory, and let a
definition be validated. Then the DNS prefix is not empty, and the output directory is the output
root with the prefix joined to it. It extends the root by exactly the prefix as one name if and
only if the prefix is a file name: neither `.` nor `..`, and without a slash. In this case every
run that validates the definition with these options, whether or not it succeeds and on any disk,
changes nothing outside of the directory of this name in the output root. -/
theorem derived_directory {files : Files} {options : Options} {definition : Definition}
    {validated : Validated} (unstated : Unstated options.outputDirectory)
    (accepted : validate files options definition = .ok validated) :
    definition.dnsPrefix ≠ "" ∧
      validated.outputDirectory = Path.join options.outputRoot definition.dnsPrefix ∧
        (Extends options.outputRoot definition.dnsPrefix validated.outputDirectory ↔
          IsFileName definition.dnsPrefix) ∧
          (IsFileName definition.dnsPrefix → ∀ (issues : Nat → Issue) (disk : Disk)
            (catalog : Catalog) (request : Request) (world : World), request.options = options →
              check request world.files = .ok validated →
                Confined options.outputRoot definition.dnsPrefix world.files
                  (run (builtinTools issues disk catalog) request world).world.files) := by
  obtain ⟨-, settled, -⟩ := validate_eq_ok_iff.mp accepted
  rcases outputDirectory_eq_ok_iff.mp settled with stated | ⟨-, filled, directory⟩
  · exact absurd stated (unstated.not_stated _)
  · refine ⟨filled, directory, ?_, ?_⟩
    · rw [directory]
      exact Path.extends_join_iff
    · rintro plain issues disk catalog request world rfl checked
      rcases files_of_run checked with same | ⟨artifacts, into, written⟩
      · intro location
        rw [same]
        exact .inl rfl
      · rw [written]
        exact confined_writeTo plain (into.trans directory) world.files

/-- A cluster that is named by a file name. -/
theorem derived_directory_plain :
    let options : Options := { definitionPath := "c.json" }
    let definition : Definition :=
      { version := .vlabs, controlPlane := .managed { dnsPrefix := "m" }
        linux := some { sshKeys := ["k"] } }
    let validated : Validated :=
      { definition, source := "c.json", outputDirectory := "_output/m", sound := rfl }
    Unstated options.outputDirectory ∧
      validate (.soleDocument "".toUTF8) options definition = .ok validated ∧
        definition.dnsPrefix ≠ "" ∧
          validated.outputDirectory = Path.join options.outputRoot definition.dnsPrefix ∧
            (Extends options.outputRoot definition.dnsPrefix validated.outputDirectory ↔
              IsFileName definition.dnsPrefix) ∧
              (IsFileName definition.dnsPrefix → ∀ (issues : Nat → Issue) (disk : Disk)
                (catalog : Catalog) (request : Request) (world : World),
                  request.options = options → check request world.files = .ok validated →
                    Confined options.outputRoot definition.dnsPrefix world.files
                      (run (builtinTools issues disk catalog) request world).world.files) := by
  intro options definition validated
  have unstated : Unstated options.outputDirectory := .inl rfl
  have there := pathExists_of_readText (Files.readText_soleDocument "")
  have joined : Path.join "_output" "m" = "_output/m" := rfl
  have settled : outputDirectory options definition = .ok "_output/m" :=
    outputDirectory_eq_ok_iff.mpr (.inr ⟨unstated, by decide, joined.symm⟩)
  have accepted : validate (.soleDocument "".toUTF8) options definition = .ok validated :=
    validate_eq_ok_iff.mpr ⟨there, settled, rfl, none, rfl, rfl⟩
  exact ⟨unstated, accepted, derived_directory unstated accepted⟩

/-- **An absolute DNS prefix leaves the output root**: it is accepted, and it is the output
directory. -/
theorem not_extends_absolute :
    let options : Options := { definitionPath := "c.json" }
    let definition : Definition :=
      { version := .vlabs, controlPlane := .managed { dnsPrefix := "/srv/x" }
        linux := some { sshKeys := ["k"] } }
    let validated : Validated :=
      { definition, source := "c.json", outputDirectory := "/srv/x", sound := rfl }
    Unstated options.outputDirectory ∧
      validate (.soleDocument "".toUTF8) options definition = .ok validated ∧
        ¬ Extends options.outputRoot definition.dnsPrefix validated.outputDirectory := by
  intro options definition validated
  have unstated : Unstated options.outputDirectory := .inl rfl
  have there := pathExists_of_readText (Files.readText_soleDocument "")
  have joined : Path.join "_output" "/srv/x" = "/srv/x" := Path.join_of_isAbsolute (by decide) _
  have settled : outputDirectory options definition = .ok "/srv/x" :=
    outputDirectory_eq_ok_iff.mpr (.inr ⟨unstated, by decide, joined.symm⟩)
  refine ⟨unstated, ?_, ?_⟩
  · exact validate_eq_ok_iff.mpr ⟨there, settled, rfl, none, rfl, rfl⟩
  · intro further
    have start : Path.isAbsolute "/srv/x" = Path.isAbsolute "_output" := further.start
    exact absurd start (by decide)

end Provision
