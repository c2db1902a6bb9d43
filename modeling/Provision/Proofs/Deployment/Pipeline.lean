import Provision.Deployment.Pipeline

/-!
How a run begins, and successful runs.

A file that can be read is loaded by parsing its text (`loadDefinition_eq`). A run begins as a
check does: loading and validating accept its document or reject it (`Accepts`, `Rejects`), and
then it goes on (`run_of_check_ok`) or has ended (`run_of_rejects`). It succeeds exactly if all its
stages do; `run_eq_of_stages` gives its end from what the stages give, and `stages_of_run` takes
a successful run apart. What the built-in tools do in a stage depends on little of what they are
given: formatting on the two texts (`postProcess_congr`), and generating on the definition and its
certificate authority (`generate_eq_ok`).
-/

namespace Provision

/-! ### Loading -/

theorem pathExists_of_readText {files : Files} {path text : String}
    (stored : files.readText path = .ok text) : files.pathExists path = true := by
  unfold Files.readText at stored
  unfold Files.pathExists
  cases resolved : files.resolve path with
  | error fault => simp only [resolved, reduceCtorEq] at stored
  | ok found => rfl

theorem loadDefinition_eq {files : Files} {path text : String}
    (stored : files.readText path = .ok text) :
    loadDefinition files path = Definition.parse text := by
  unfold loadDefinition
  rw [pathExists_of_readText stored, stored]
  rfl

/-- A definition that is loaded is the one that some text states. -/
theorem exists_parse_of_loadDefinition {files : Files} {path : String} {definition : Definition}
    (loaded : loadDefinition files path = .ok definition) :
    ∃ text, Definition.parse text = .ok definition := by
  unfold loadDefinition at loaded
  split at loaded
  · cases loaded
  · split at loaded
    · cases loaded
    · exact ⟨_, loaded⟩

/-! ### Loading and validating -/

section Checks

variable {request : Request} {files : Files}

/-- Loading and validating succeed with this result. -/
def Accepts (request : Request) (files : Files) (validated : Validated) : Prop :=
  ∃ definition, loadDefinition files request.options.definitionPath = .ok definition ∧
    validate files request.options (request.merge definition) = .ok validated

/-- Loading or validating fails with this error. -/
inductive Rejects (request : Request) (files : Files) : Stage → Error → Prop
  | load {cause : Error}
      (unread : loadDefinition files request.options.definitionPath = .error cause) :
      Rejects request files .load cause
  | validate {definition : Definition} {cause : Error}
      (loaded : loadDefinition files request.options.definitionPath = .ok definition)
      (refused : validate files request.options (request.merge definition) = .error cause) :
      Rejects request files .validate cause

theorem accepts_or_rejects (request : Request) (files : Files) :
    (∃ validated, Accepts request files validated) ∨
      ∃ stage cause, Rejects request files stage cause := by
  cases loaded : loadDefinition files request.options.definitionPath with
  | error cause => exact .inr ⟨_, cause, .load loaded⟩
  | ok definition =>
      cases checked : validate files request.options (request.merge definition) with
      | error cause => exact .inr ⟨_, cause, .validate loaded checked⟩
      | ok validated => exact .inl ⟨validated, definition, loaded, checked⟩

/-- A check that succeeds has loaded a definition and validated it with the replacements of
the request. -/
theorem check_eq_ok_iff {validated : Validated} :
    check request files = .ok validated ↔
      ∃ definition, loadDefinition files request.options.definitionPath = .ok definition ∧
        validate files request.options (request.merge definition) = .ok validated := by
  unfold check
  cases loaded : loadDefinition files request.options.definitionPath with
  | error error => simp [loaded]
  | ok definition =>
      simp only [loaded, Run.step_ok, Except.ok.injEq, exists_eq_left']
      cases validate files request.options (request.merge definition) with
      | error error => simp
      | ok other => simp

theorem check_of_rejects {stage : Stage} {cause : Error}
    (rejects : Rejects request files stage cause) :
    check request files = .error (.stage stage request.options.definitionPath cause) := by
  unfold check
  cases rejects with
  | load unread => simp only [unread, Run.step_error]
  | validate loaded refused => simp only [loaded, refused, Run.step_ok, Run.step_error]

theorem check_eq_error_iff {error : Error} :
    check request files = .error error ↔
      ∃ stage cause, Rejects request files stage cause ∧
        error = .stage stage request.options.definitionPath cause := by
  constructor
  · intro refused
    rcases accepts_or_rejects request files with ⟨validated, accepted⟩ | ⟨stage, cause, rejects⟩
    · cases (check_eq_ok_iff.mpr accepted).symm.trans refused
    · cases (check_of_rejects rejects).symm.trans refused
      exact ⟨stage, cause, rejects, rfl⟩
  · rintro ⟨stage, cause, rejects, rfl⟩
    exact check_of_rejects rejects

theorem Accepts.unique {validated other : Validated} (accepted : Accepts request files validated)
    (accepted' : Accepts request files other) : validated = other :=
  Except.ok.inj ((check_eq_ok_iff.mpr accepted).symm.trans (check_eq_ok_iff.mpr accepted'))

theorem Accepts.not_rejects {validated : Validated} (accepted : Accepts request files validated)
    {stage : Stage} {cause : Error} : ¬ Rejects request files stage cause := by
  intro rejects
  cases (check_eq_ok_iff.mpr accepted).symm.trans (check_of_rejects rejects)

end Checks

variable {tools : Tools} {request : Request} {world : World}

/-- The state in which a run comes to use its tools. -/
def Request.validatedRun (request : Request) : Run where
  document := request.options.definitionPath
  progress := .validated

/-- A run whose check succeeds goes on with what was validated. -/
theorem run_of_check_ok {validated : Validated}
    (checked : check request world.files = .ok validated) (tools : Tools) :
    run tools request world = deploy tools request validated request.validatedRun world := by
  obtain ⟨definition, loaded, validates⟩ := check_eq_ok_iff.mp checked
  unfold run
  simp only [loaded, Run.step_ok, validates]
  rfl

theorem run_of_rejects {stage : Stage} {cause : Error}
    (rejects : Rejects request world.files stage cause) :
    run tools request world
      = ⟨.error (.stage stage request.options.definitionPath cause), .failed stage, [], world⟩ := by
  unfold run
  cases rejects with
  | load unread => simp only [unread, Run.step_error]
  | validate loaded refused => simp only [loaded, refused, Run.step_ok, Run.step_error]

/-- A run whose check fails ends with its error, before any tool is used. -/
theorem run_of_check_error {error : Error} (refused : check request world.files = .error error)
    (tools : Tools) :
    ∃ stage, run tools request world = ⟨.error error, .failed stage, [], world⟩ := by
  obtain ⟨stage, cause, rejects, rfl⟩ := check_eq_error_iff.mp refused
  exact ⟨stage, run_of_rejects rejects⟩

/-! ### Stages -/

/-- What the stages of a successful run give. -/
structure Stages (tools : Tools) (request : Request) (world : World) where
  validated : Validated
  generated : Generated
  texts : String × String
  formatted : List Call
  between : World
  later : World
  checked : check request world.files = .ok validated
  generates : tools.generate validated (Flavour.ofClassic request.options.classic) world
    = (.ok generated, between)
  formats : postProcess tools request.options.prettyPrint generated = (.ok texts, formatted)
  writes : tools.write (validated.artifacts request.options generated texts) between
    = (.ok (), later)

def Stages.artifacts (stages : Stages tools request world) : Artifacts :=
  stages.validated.artifacts request.options stages.generated stages.texts

def Stages.report (stages : Stages tools request world) : Report where
  outputDirectory := stages.validated.outputDirectory
  version := stages.validated.definition.version
  certsGenerated := stages.generated.certsGenerated
  finalState := .done

/-- The end of a run whose stages all succeed. -/
theorem run_eq_of_stages (stages : Stages tools request world) :
    run tools request world
      = ⟨.ok stages.report, .done,
          [.generate stages.validated (Flavour.ofClassic request.options.classic)]
            ++ stages.formatted ++ [.write stages.artifacts],
          stages.later⟩ := by
  rw [run_of_check_ok stages.checked]
  unfold deploy
  simp only [stages.generates, stages.formats, stages.writes, Run.step_ok]
  rfl

/-- The stages of a run that succeeded. -/
theorem stages_of_run {report : Report} (h : (run tools request world).result = .ok report) :
    ∃ stages : Stages tools request world, stages.report = report := by
  cases checked : check request world.files with
  | error error =>
      obtain ⟨stage, ended⟩ := run_of_check_error checked tools
      rw [ended] at h
      cases h
  | ok validated =>
      rw [run_of_check_ok checked] at h
      unfold deploy at h
      rcases generates : tools.generate validated (Flavour.ofClassic request.options.classic) world
        with ⟨_ | generated, between⟩
      · simp only [generates, Run.step_error] at h
        cases h
      rcases formats : postProcess tools request.options.prettyPrint generated
        with ⟨_ | texts, formatted⟩
      · simp only [generates, formats, Run.step_ok, Run.step_error] at h
        cases h
      rcases writes : tools.write (validated.artifacts request.options generated texts) between
        with ⟨_ | _, later⟩
      · simp only [generates, formats, writes, Run.step_ok, Run.step_error] at h
        cases h
      · simp only [generates, formats, writes, Run.step_ok] at h
        cases h
        exact ⟨⟨validated, generated, texts, formatted, between, later, checked, generates, formats,
          writes⟩, rfl⟩

/-! ### Built-in tools -/

variable {issues issues' : Nat → Issue} {disk disk' : Disk} {catalog catalog' : Catalog}

/-- Formatting looks at nothing but the two texts. -/
theorem postProcess_congr {prettyPrint : Bool} {generated generated' : Generated}
    (template : generated'.template = generated.template)
    (parameters : generated'.parameters = generated.parameters) :
    postProcess (builtinTools issues' disk' catalog') prettyPrint generated'
      = postProcess (builtinTools issues disk catalog) prettyPrint generated := by
  unfold postProcess
  rw [template, parameters]
  rfl

/-- A template and its parameters are generated for one certificate authority: the own one
of the definition, or a new one. No file is touched. -/
theorem generate_eq_ok {validated : Validated} {flavour : Flavour} {generated : Generated}
    {between : World}
    (h : generate issues catalog validated flavour world = (.ok generated, between)) :
    ∃ certificates, generated = .of validated.definition certificates flavour generated.authority ∧
      between.files = world.files ∧
        ((generated.authority = none ∧ certificates.isComplete = true ∧
            validated.definition.certificates = some certificates) ∨
          (generated.authority = some certificates ∧
            ∃ number, issues number = .ok certificates)) := by
  unfold generate at h
  simp only at h
  split at h
  · rename_i certificates own
    obtain ⟨given, rfl⟩ := Prod.mk.inj h
    obtain rfl := Except.ok.inj given
    obtain ⟨there, complete⟩ := Option.filter_eq_some_iff.mp own
    exact ⟨certificates, rfl, rfl, .inl ⟨rfl, complete, there⟩⟩
  · split at h
    · rename_i authority issued
      obtain ⟨given, rfl⟩ := Prod.mk.inj h
      obtain rfl := Except.ok.inj given
      exact ⟨authority, rfl, rfl, .inr ⟨rfl, _, issued⟩⟩
    · obtain ⟨refused, -⟩ := Prod.mk.inj h
      cases refused

/-- Generating changes no file, whether or not it succeeds. -/
theorem files_of_generate {validated : Validated} {flavour : Flavour}
    {result : Except Error Generated} {later : World}
    (h : generate issues catalog validated flavour world = (result, later)) :
    later.files = world.files := by
  unfold generate at h
  simp only at h
  split at h
  · cases h
    rfl
  · split at h <;> cases h <;> rfl

/-- What the built-in tools write is written to the files of the world. -/
theorem writeTo_of_write {artifacts : Artifacts} {result : Except Error Unit} {later : World}
    (h : (builtinTools issues disk catalog).write artifacts world = (result, later)) :
    artifacts.writeTo disk catalog world.files = (result, later.files) ∧
      later = { world with files := later.files } := by
  simp only [builtinTools, Prod.mk.injEq] at h
  obtain ⟨done, rfl⟩ := h
  exact ⟨Prod.ext done rfl, rfl⟩

/-- A complete certificate authority of the definition is used as it is. -/
theorem generate_of_complete {validated : Validated} {certificates : CertificateProfile}
    (own : validated.definition.certificates = some certificates)
    (complete : certificates.isComplete = true) (flavour : Flavour) :
    generate issues catalog validated flavour world
      = (.ok (.of validated.definition certificates flavour none), world) := by
  have kept : validated.definition.certificates.filter (·.isComplete) = some certificates :=
    Option.filter_eq_some_iff.mpr ⟨own, complete⟩
  unfold generate
  simp only [kept]

/-- A definition without an authority gets the one that is issued. -/
theorem generate_of_none {validated : Validated} {authority : CertificateProfile}
    (none : validated.definition.certificates = none)
    (issued : issues world.issued = .ok authority) (flavour : Flavour) :
    generate issues catalog validated flavour world
      = (.ok (.of validated.definition authority flavour (some authority)),
          { world with issued := world.issued + 1 }) := by
  unfold generate
  simp only [none, Option.filter_none, issued]

/-- The stages of a run with the built-in tools that does not format what it has generated. -/
def Stages.unformatted {validated : Validated} {generated : Generated} {between : World}
    {files : Files} (checked : check request world.files = .ok validated)
    (generates : generate issues catalog validated (Flavour.ofClassic request.options.classic) world
      = (.ok generated, between))
    (plain : request.options.prettyPrint = false)
    (written : (validated.artifacts request.options generated
      (generated.template, generated.parameters)).writeTo disk catalog between.files
        = (.ok (), files)) :
    Stages (builtinTools issues disk catalog) request world where
  validated := validated
  generated := generated
  texts := (generated.template, generated.parameters)
  formatted := []
  between := between
  later := { between with files }
  checked := checked
  generates := generates
  formats := by rw [plain]; rfl
  writes := by simp only [builtinTools, written]

theorem isEmpty_append_eq_false {first : String} (nonempty : first ≠ "") (rest : String) :
    (first ++ rest).isEmpty = false := by
  rw [Bool.eq_false_iff]
  intro empty
  exact nonempty (String.append_eq_empty_iff.mp (String.isEmpty_iff.mp empty)).1

/-- Marked authorities have a certificate and a key. -/
theorem isComplete_of_markedIssues {number : Nat} {authority : CertificateProfile}
    (issued : markedIssues number = .ok authority) : authority.isComplete = true := by
  obtain rfl : markedAuthority (number + 1) = authority := Except.ok.inj issued
  have certificate : (markedAuthority (number + 1)).certificate.isEmpty = false := by
    refine isEmpty_append_eq_false ?_ ">"
    intro empty
    exact absurd (String.append_eq_empty_iff.mp empty).1 (by decide)
  have privateKey : (markedAuthority (number + 1)).privateKey.isEmpty = false := by
    refine isEmpty_append_eq_false ?_ ">"
    intro empty
    exact absurd (String.append_eq_empty_iff.mp empty).1 (by decide)
  unfold CertificateProfile.isComplete
  rw [certificate, privateKey]
  rfl

end Provision
