import Provision.Proofs.Cluster.Readable
import Provision.Proofs.Deployment.Artifacts
import Provision.Proofs.Deployment.Sequence
import Provision.Proofs.Deployment.Validation
import Provision.Proofs.Files.Contents

/-!
What a failed run leaves behind.

With the built-in tools only writing changes files, so a run that fails before leaves them all as
they were. Writing is a list of steps that stops at the first one to fail (`Stopped`), and nothing
is undone then, whatever the fault of the disk: the files that were written until then stay
(`Stopped.kept`). A step that fails keeps all contents, but that a write can be broken off when
its file was opened already, and then this file holds what the disk has left in it
(`Step.leaves_of_error`). No other content has changed (`Stopped.accounts`).

* `contents_of_failed_run` — so a failed run has kept the contents of all files exactly if each
  file that it wrote, or tried to write last, had the same content before.
* `not_sameContents_blocked` — it need not have kept them, even on a reliable disk: where a
  directory has the name of the template, the definition is left behind.
-/

namespace Provision

namespace Artifacts

variable {disk : Disk} {catalog : Catalog} {files files' : Files} {steps : List Step}

/-! ### Stopping at a step -/

/-- What a step leaves when it fails: all contents as they were, but a write can have left anything
in its own file. -/
structure Step.Leaves (step : Step) (files files' : Files) : Prop extends
    Files.Grows files files' where
  contents : ∀ location, files'.contentAt location = files.contentAt location ∨
    ∃ path text left, step = .write path text ∧ files'.Holds path location left

theorem Step.leaves_of_keeps {step : Step} (keeps : Files.Keeps files files') :
    step.Leaves files files' where
  toGrows := keeps.toGrows
  contents location := .inl (keeps.contents location)

theorem Step.leaves_of_error {step : Step} {cause : Error}
    (h : step.perform disk catalog files = (.error cause, files')) :
    step.Leaves files files' := by
  cases step with
  | makeDirectory path =>
      have keeps := Files.keeps_createAll disk files path
      simp only [perform] at h
      split at h
      · cases h
      · rename_i stopped
        cases h
        rw [stopped] at keeps
        exact leaves_of_keeps keeps
  | write path text =>
      simp only [perform] at h
      split at h
      · cases h
      · rename_i failed
        cases h
        rcases Files.eq_or_replaces_of_writeFile failed with rfl | ⟨_, left, replaces⟩
        · exact leaves_of_keeps (Files.Keeps.refl _)
        · refine ⟨replaces.toGrows, fun location => ?_⟩
          rcases replaces.contents location with same | held
          · exact .inl same
          · exact .inr ⟨path, text, left, rfl, held⟩
  | restrict path =>
      simp only [perform] at h
      split at h <;> cases h
      exact leaves_of_keeps (Files.Keeps.refl _)
  | refuse path =>
      cases h
      exact leaves_of_keeps (Files.Keeps.refl _)

/-- Steps fail exactly at one of them, after those before it have been carried out. -/
theorem performAll_eq_error {cause : Error}
    (h : performAll disk catalog files steps = (.error cause, files')) :
    ∃ carried step rest between, steps = carried ++ step :: rest ∧
      performAll disk catalog files carried = (.ok (), between) ∧
        step.perform disk catalog between = (.error cause, files') := by
  induction steps generalizing files with
  | nil => cases h
  | cons step steps ih =>
      cases done : step.perform disk catalog files with
      | mk result between =>
          simp only [performAll, done] at h
          cases result with
          | error fault =>
              cases h
              exact ⟨[], step, steps, files, rfl, rfl, done⟩
          | ok _ =>
              obtain ⟨carried, failing, rest, before, rfl, performed, fails⟩ := ih h
              refine ⟨step :: carried, failing, rest, before, rfl, ?_, fails⟩
              simp only [performAll, done]
              exact performed

/-- Writing artifacts has stopped at a step that fails: those before it have been carried out.
Every file that they wrote is there, and no other content has changed but that of the file that
this step was to write. -/
structure Stopped (artifacts : Artifacts) (disk : Disk) (catalog : Catalog) (carried : List Step)
    (step : Step) (cause : Error) (files later : Files) : Prop where
  listed : ∃ rest, artifacts.steps = carried ++ step :: rest
  stops : ∃ between, performAll disk catalog files carried = (.ok (), between) ∧
    step.perform disk catalog between = (.error cause, later)
  kept : ∀ {path text}, .write path text ∈ carried →
    ∃ location, later.Holds path location text.toUTF8
  accounts : ∀ location, later.contentAt location = files.contentAt location ∨
    (∃ path text, .write path text ∈ carried ∧ later.Holds path location text.toUTF8) ∨
      ∃ path text left, step = .write path text ∧ later.Holds path location left

/-- Writing fails by stopping at a step. -/
theorem stopped_of_writeTo {artifacts : Artifacts} {cause : Error} {later : Files}
    (h : artifacts.writeTo disk catalog files = (.error cause, later)) :
    ∃ carried step, artifacts.Stopped disk catalog carried step cause files later := by
  obtain ⟨carried, step, rest, between, listed, performed, fails⟩ := performAll_eq_error h
  have left := Step.leaves_of_error fails
  have distinct : ((carried ++ [step]).filterMap Step.file?).Nodup := by
    refine artifacts.distinct_steps.sublist (List.Sublist.filterMap _ ?_)
    rw [listed, List.append_cons carried step rest]
    exact List.sublist_append_left _ _
  refine ⟨carried, step, ⟨rest, listed⟩, ⟨between, performed, fails⟩, ?_, ?_⟩
  · intro path text mem
    have once := distinct.sublist ((List.sublist_append_left carried [step]).filterMap _)
    obtain ⟨location, held⟩ := holds_of_performAll once performed mem
    rcases left.contents location with same | ⟨other, replaced, content, rfl, broken⟩
    · exact ⟨location, held.of_contentAt left.toGrows same⟩
    · exact absurd broken
        (Step.not_holds_of_nodup distinct mem (List.mem_singleton_self _) held)
  · intro location
    rcases left.contents location with same | broken
    · rcases (performAll_accounts performed).contents location with
        unchanged | ⟨path, text, mem, held⟩
      · exact .inl (same.trans unchanged)
      · exact .inr (.inl ⟨path, text, mem, held.of_contentAt left.toGrows same⟩)
    · exact .inr (.inr broken)

/-- All contents are the same as before exactly if every file that was written, and the one that
was to be written when writing stopped, had the same content before. -/
theorem Stopped.sameContents_iff {artifacts : Artifacts} {carried : List Step} {step : Step}
    {cause : Error} {later : Files}
    (stopped : artifacts.Stopped disk catalog carried step cause files later) :
    files.SameContents later ↔
      (∀ path text location, .write path text ∈ carried →
        later.Holds path location text.toUTF8 → files.contentAt location = some text.toUTF8) ∧
      ∀ path text location left, step = .write path text →
        later.Holds path location left → files.contentAt location = some left := by
  constructor
  · intro same
    have before {path : String} {location : Location} {content : ByteArray}
        (held : later.Holds path location content) : files.contentAt location = some content := by
      rw [← same location]
      exact Files.contentAt_eq_some_iff.mpr held.entry
    exact ⟨fun _ _ _ _ held => before held, fun _ _ _ _ _ held => before held⟩
  · rintro ⟨written, broken⟩ location
    rcases stopped.accounts location with same | ⟨path, text, mem, held⟩
        | ⟨path, text, left, failing, held⟩
    · exact same
    · rw [Files.contentAt_eq_some_iff.mpr held.entry, written path text location mem held]
    · rw [Files.contentAt_eq_some_iff.mpr held.entry, broken path text location left failing held]

end Artifacts

/-! ### Failed runs -/

variable {issues : Nat → Issue} {disk : Disk} {catalog : Catalog} {request : Request}
  {world : World}

/-- A run that fails has changed files only if it fails in writing, and then writing has stopped
at a step. -/
theorem Fails.files {stage : Stage} {cause : Error} {calls : List Call} {later : World}
    (fails : Fails (builtinTools issues disk catalog) request world stage cause calls later) :
    (stage ≠ .persist → later.files = world.files) ∧
      (stage = .persist → ∃ artifacts carried step, .write artifacts ∈ calls ∧
        artifacts.Stopped disk catalog carried step cause world.files later.files) := by
  cases fails with
  | rejected rejects =>
      refine ⟨fun _ => rfl, ?_⟩
      rintro rfl
      cases rejects
  | generate accepted fails => exact ⟨fun _ => files_of_generate fails, nofun⟩
  | postProcess generates => exact ⟨fun _ => files_of_generate generates.done, nofun⟩
  | @persist validated generated between _ texts _ generates prints fails =>
      refine ⟨fun other => absurd rfl other, fun _ => ?_⟩
      obtain ⟨carried, step, stopped⟩ := Artifacts.stopped_of_writeTo (writeTo_of_write fails).1
      rw [files_of_generate generates.done] at stopped
      refine ⟨_, carried, step, ?_, stopped⟩
      exact List.mem_append_right _ (List.mem_singleton_self _)

/-! ### A template that cannot be written -/

/-- A document with a certificate authority of its own. -/
def securedDocument : Json :=
  .object
    [ ("apiVersion", .string "vlabs"),
      ("properties", .object
        [ ("masterProfile", .object []),
          ("certificateProfile", .object
            [("caCertificate", .string "c"), ("caPrivateKey", .string "p")]) ]) ]

/-- A run on it that writes all artifacts, without formatting them. -/
def securedRequest : Request where
  options := { definitionPath := "c.json", outputDirectory := some "out", prettyPrint := false }
  overrides := some { dnsPrefix := "n", sshPublicKey := "k" }

/-- The document, and an output directory in which another directory has the name of the
template. -/
def blockedWorld : World where
  files :=
    { entries :=
        [ ([], .directory), (["c.json"], .file securedDocument.compact.toUTF8 0o644),
          (["out"], .directory), (["out", "azuredeploy.json"], .directory) ]
      home := [] }
  issued := 0

def blockedError : Error :=
  .persist "out/azuredeploy.json" "error writing file: Is a directory (os error 21)"

def securedValidated : Validated where
  definition :=
    { version := .vlabs, controlPlane := .managed { dnsPrefix := "n" }
      linux := some { sshKeys := ["k"] }
      certificates := some { certificate := "c", privateKey := "p" } }
  source := "c.json"
  outputDirectory := "out"
  sound := rfl

theorem check_blocked : check securedRequest blockedWorld.files = .ok securedValidated := by
  have integers : securedDocument.wholeNumbers := by decide
  have plain : securedDocument.plainNames := by decide
  have read : Json.parse securedDocument.compact = .ok securedDocument :=
    Json.parse_compact integers (by decide) (by decide)
  have stored : blockedWorld.files.readText "c.json" = .ok securedDocument.compact :=
    @Files.readText_of_resolve _ _ _ ["c.json"] 0o644 rfl
  refine check_eq_ok_iff.mpr
    ⟨{ version := .vlabs, controlPlane := .managed {}
       certificates := some { certificate := "c", privateKey := "p" } }, ?_, ?_⟩
  · exact (loadDefinition_eq stored).trans
      ((Definition.parse_eq_ofValue read integers plain).trans rfl)
  · exact validate_eq_ok_iff.mpr ⟨pathExists_of_readText stored, rfl, rfl, none, rfl, rfl⟩

/-- The run stops at the template, after it has written the definition. It needs no authority. -/
theorem fails_blocked (issues : Nat → Issue) : ∃ calls content,
    Fails (builtinTools issues .reliable {}) securedRequest blockedWorld .persist blockedError calls
      { blockedWorld with
        files := blockedWorld.files.set ["out", "apimodel.json"] (.file content 0o644) } := by
  let certificates : CertificateProfile := { certificate := "c", privateKey := "p" }
  let generated := Generated.of securedValidated.definition certificates securedRequest.flavour none
  let artifacts := securedValidated.artifacts securedRequest.options generated
    (generated.template, generated.parameters)
  have own : securedValidated.definition.certificates = some certificates := rfl
  have complete : certificates.isComplete = true := rfl
  have done : generate issues {} securedValidated securedRequest.flavour blockedWorld
      = (.ok generated, blockedWorld) := generate_of_complete own complete _
  have generates : Generates (builtinTools issues .reliable {}) securedRequest blockedWorld
      securedValidated generated blockedWorld := ⟨check_eq_ok_iff.mp check_blocked, done⟩
  have steps : artifacts.steps = Artifacts.outSteps artifacts.definitionText artifacts.template
      artifacts.parameters none := Artifacts.steps_eq_outSteps rfl rfl rfl
  have stops (definition template parameters : String) :
      Artifacts.performAll .reliable {} blockedWorld.files
          (Artifacts.outSteps definition template parameters none)
        = (.error blockedError, blockedWorld.files.set ["out", "apimodel.json"]
            (.file definition.toUTF8 0o644)) := rfl
  have writes : artifacts.writeTo .reliable {} blockedWorld.files = (.error blockedError,
      blockedWorld.files.set ["out", "apimodel.json"]
        (.file artifacts.definitionText.toUTF8 0o644)) := by
    rw [Artifacts.writeTo, steps]
    exact stops _ _ _
  refine ⟨_, artifacts.definitionText.toUTF8, .persist generates .plain ?_⟩
  show (builtinTools issues .reliable {}).write artifacts blockedWorld = _
  simp only [builtinTools, writes]

/-! ### Main results -/

/-- **What a failed run leaves behind.** With the built-in tools and on any disk, a run that fails
before it comes to write leaves all files as they were. One that fails in writing has stopped at a
step: the files that were written until then stay and hold what was written; if the step is a
write, its own file may hold anything; no other content is changed. So all contents are the same
as before exactly if each of these files had the same content before, as when the first step
fails. -/
theorem contents_of_failed_run {error : Error}
    (failed : (run (builtinTools issues disk catalog) request world).result = .error error) :
    let outcome := run (builtinTools issues disk catalog) request world
    (error.stage? ≠ some .persist → outcome.world.files = world.files) ∧
      (error.stage? = some .persist → ∃ artifacts carried step cause,
        .write artifacts ∈ outcome.calls ∧
          error = .stage .persist request.options.definitionPath cause ∧
            artifacts.Stopped disk catalog carried step cause world.files outcome.world.files ∧
              (world.files.SameContents outcome.world.files ↔
                (∀ path text location, .write path text ∈ carried →
                  outcome.world.files.Holds path location text.toUTF8 →
                    world.files.contentAt location = some text.toUTF8) ∧
                ∀ path text location left, step = .write path text →
                  outcome.world.files.Holds path location left →
                    world.files.contentAt location = some left)) := by
  intro outcome
  obtain ⟨stage, cause, fails, rfl⟩ := result_eq_error_iff.mp failed
  obtain ⟨unwritten, written⟩ := fails.files
  constructor
  · intro other
    exact unwritten fun same => other (congrArg some same)
  · intro same
    obtain rfl : stage = .persist := Option.some.inj same
    obtain ⟨artifacts, carried, step, called, stopped⟩ := written rfl
    exact ⟨artifacts, carried, step, cause, called, rfl, stopped, stopped.sameContents_iff⟩

/-- A run that stops at the template. -/
theorem contents_of_failed_run_blocked :
    let failure : Error := .stage .persist "c.json" blockedError
    let files :=
      (run (builtinTools markedIssues .reliable {}) securedRequest blockedWorld).world.files
    (run (builtinTools markedIssues .reliable {}) securedRequest blockedWorld).result
        = .error failure ∧
      ∃ artifacts carried step cause,
        .write artifacts
            ∈ (run (builtinTools markedIssues .reliable {}) securedRequest blockedWorld).calls ∧
          failure = .stage .persist "c.json" cause ∧
            Artifacts.Stopped artifacts .reliable {} carried step cause blockedWorld.files files ∧
              (blockedWorld.files.SameContents files ↔
                (∀ path text location, .write path text ∈ carried →
                  files.Holds path location text.toUTF8 →
                    blockedWorld.files.contentAt location = some text.toUTF8) ∧
                ∀ path text location left, step = .write path text →
                  files.Holds path location left →
                    blockedWorld.files.contentAt location = some left) := by
  intro failure files
  obtain ⟨calls, content, fails⟩ := fails_blocked markedIssues
  have failed : (run (builtinTools markedIssues .reliable {}) securedRequest blockedWorld).result
      = .error failure := congrArg Outcome.result (run_of_fails fails)
  exact ⟨failed, (contents_of_failed_run failed).2 rfl⟩

/-- **A failed run can leave something behind**: the definition is written before the template,
and stays when the template cannot be written. -/
theorem not_sameContents_blocked :
    (run (builtinTools markedIssues .reliable {}) securedRequest blockedWorld).result
        = .error (.stage .persist "c.json" blockedError) ∧
      ¬ blockedWorld.files.SameContents
        (run (builtinTools markedIssues .reliable {}) securedRequest blockedWorld).world.files := by
  obtain ⟨calls, content, fails⟩ := fails_blocked markedIssues
  rw [run_of_fails fails]
  refine ⟨rfl, ?_⟩
  intro same
  have there := same ["out", "apimodel.json"]
  rw [Files.contentAt_set _ (by decide), if_pos rfl] at there
  have before : blockedWorld.files.contentAt ["out", "apimodel.json"] = none := rfl
  rw [before] at there
  cases there

end Provision
