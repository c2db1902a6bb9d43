import Provision.Proofs.Deployment.Sequence

/-!
The language of a run.

A catalog gives nothing but text inside the messages of errors. `Error.Retold` relates an error to
the same one in another language, and `Retelling` the results of one operation in two languages:
the same value or errors that are related, and the same world left behind. Every step of writing
is one (`Artifacts.Step.retelling`), and so are all steps together and generating. So a run fails
in the same stage in both languages or in none (`Fails.retold`, `Completes.retold`), and it leaves
the same files: `run_retold`.
-/

namespace Provision

/-- The same error in two languages: of an error in generating or writing, the text that the
catalogs give may differ, and nothing else. -/
inductive Error.Retold (first second : Catalog) : Error → Error → Prop
  | same (error : Error) : Retold first second error error
  | engine (document text detail : String) :
      Retold first second (.engine document s!"{first.localize text}: {detail}")
        (.engine document s!"{second.localize text}: {detail}")
  | persist (path text detail : String) :
      Retold first second (.persist path s!"{first.localize text}: {detail}")
        (.persist path s!"{second.localize text}: {detail}")
  | refused (path text : String) :
      Retold first second (.persist path (first.localize text))
        (.persist path (second.localize text))

/-- What an operation gives and leaves in two languages: only its error may be worded in another
way. -/
inductive Retelling (first second : Catalog) {α β : Type} :
    Except Error α × β → Except Error α × β → Prop
  | ok (value : α) (left : β) : Retelling first second (.ok value, left) (.ok value, left)
  | error {cause cause' : Error} (left : β) (retold : cause.Retold first second cause') :
      Retelling first second (.error cause, left) (.error cause', left)

variable {first second : Catalog}

theorem Retelling.ok_of {α β : Type} {told again : Except Error α × β}
    (retelling : Retelling first second told again) {value : α} {left : β}
    (h : told = (.ok value, left)) : again = (.ok value, left) := by
  cases retelling with
  | ok => exact h
  | error => cases h

theorem Retelling.error_of {α β : Type} {told again : Except Error α × β}
    (retelling : Retelling first second told again) {cause : Error} {left : β}
    (h : told = (.error cause, left)) :
    ∃ cause', cause.Retold first second cause' ∧ again = (.error cause', left) := by
  cases retelling with
  | ok => cases h
  | error left retold =>
      cases h
      exact ⟨_, retold, rfl⟩

/-! ### Writing -/

namespace Artifacts

/-- One step. -/
theorem Step.retelling (disk : Disk) (first second : Catalog) (files : Files) (step : Step) :
    Retelling first second (step.perform disk first files) (step.perform disk second files) := by
  cases step with
  | makeDirectory path =>
      simp only [perform]
      split
      · exact .ok _ _
      · exact .error _ (.persist ..)
  | write path content =>
      simp only [perform]
      split
      · exact .ok _ _
      · exact .error _ (.persist ..)
  | restrict path =>
      simp only [perform]
      split
      · exact .ok _ _
      · exact .error _ (.persist ..)
  | refuse path => exact .error _ (.refused ..)

/-- Any number of steps. -/
theorem performAll_retelling (disk : Disk) (first second : Catalog) (files : Files)
    (steps : List Step) :
    Retelling first second (performAll disk first files steps)
      (performAll disk second files steps) := by
  induction steps generalizing files with
  | nil => exact .ok _ _
  | cons step steps ih =>
      have here := Step.retelling disk first second files step
      unfold performAll
      generalize step.perform disk first files = told at here
      generalize step.perform disk second files = again at here
      cases here with
      | ok _ between => exact ih between
      | error left retold => exact .error left retold

end Artifacts

/-! ### Tools -/

section Tools

variable {issues : Nat → Issue} {disk : Disk}

theorem generate_retelling (first second : Catalog) (validated : Validated) (flavour : Flavour)
    (world : World) :
    Retelling first second (generate issues first validated flavour world)
      (generate issues second validated flavour world) := by
  unfold generate
  simp only
  split
  · exact .ok _ _
  · split
    · exact .ok _ _
    · exact .error _ (.engine ..)

theorem write_retelling (first second : Catalog) (artifacts : Artifacts) (world : World) :
    Retelling first second ((builtinTools issues disk first).write artifacts world)
      ((builtinTools issues disk second).write artifacts world) := by
  have written : Retelling first second (artifacts.writeTo disk first world.files)
      (artifacts.writeTo disk second world.files) := Artifacts.performAll_retelling ..
  simp only [builtinTools]
  generalize artifacts.writeTo disk first world.files = told at written
  generalize artifacts.writeTo disk second world.files = again at written
  cases written with
  | ok => exact .ok _ _
  | error _ retold => exact .error _ retold

end Tools

/-! ### Runs -/

section Runs

variable {issues : Nat → Issue} {disk : Disk} {request : Request} {world between later : World}
  {validated : Validated} {generated : Generated} {texts : String × String} {calls : List Call}

theorem Generates.retold
    (generates :
      Generates (builtinTools issues disk first) request world validated generated between) :
    Generates (builtinTools issues disk second) request world validated generated between where
  accepted := generates.accepted
  done := (generate_retelling first second validated request.flavour world).ok_of generates.done

/-- Formatting knows no language. -/
theorem Prints.retold {prettyPrint : Bool}
    (prints : Prints (builtinTools issues disk first) generated prettyPrint texts) :
    Prints (builtinTools issues disk second) generated prettyPrint texts := by
  cases prints with
  | plain => exact .plain
  | pretty template parameters => exact .pretty template parameters

theorem Misprints.retold {cause : Error}
    (misprints : Misprints (builtinTools issues disk first) generated cause calls) :
    Misprints (builtinTools issues disk second) generated cause calls := by
  cases misprints with
  | template fails => exact .template fails
  | parameters template fails => exact .parameters template fails

theorem Completes.retold {report : Report}
    (completes : Completes (builtinTools issues disk first) request world report calls later) :
    Completes (builtinTools issues disk second) request world report calls later := by
  obtain ⟨generates, prints, writes⟩ := completes
  exact .intro generates.retold prints.retold ((write_retelling first second _ _).ok_of writes)

theorem Fails.retold {stage : Stage} {cause : Error}
    (fails : Fails (builtinTools issues disk first) request world stage cause calls later) :
    ∃ cause', cause.Retold first second cause' ∧
      Fails (builtinTools issues disk second) request world stage cause' calls later := by
  cases fails with
  | rejected rejects => exact ⟨_, .same _, .rejected rejects⟩
  | generate accepted fails =>
      obtain ⟨cause', retold, fails⟩ :=
        (generate_retelling first second _ request.flavour world).error_of fails
      exact ⟨cause', retold, .generate accepted fails⟩
  | postProcess generates pretty misprints =>
      exact ⟨_, .same _, .postProcess generates.retold pretty misprints.retold⟩
  | persist generates prints fails =>
      obtain ⟨cause', retold, fails⟩ := (write_retelling first second _ _).error_of fails
      exact ⟨cause', retold, .persist generates.retold prints.retold fails⟩

/-- **The language never changes what is generated.** With any two catalogs, runs that are the
same otherwise use their tools in the same way, come equally far and leave the same files, and the
same number of authorities issued. Both succeed with the same report, or both fail in the same
stage for the same document, with errors that are the same but for the text that the catalogs
give. -/
theorem run_retold (issues : Nat → Issue) (disk : Disk) (first second : Catalog)
    (request : Request) (world : World) :
    let told := run (builtinTools issues disk first) request world
    let again := run (builtinTools issues disk second) request world
    again.calls = told.calls ∧ again.world = told.world ∧ again.progress = told.progress ∧
      ((∃ report, told.result = .ok report ∧ again.result = .ok report) ∨
        ∃ stage cause cause',
          told.result = .error (.stage stage request.options.definitionPath cause) ∧
            again.result = .error (.stage stage request.options.definitionPath cause') ∧
              cause.Retold first second cause') := by
  intro told again
  rcases completes_or_fails (builtinTools issues disk first) request world with
    ⟨report, calls, later, completes⟩ | ⟨stage, cause, calls, later, fails⟩
  · have ended : told = _ := run_of_completes completes
    have ended' : again = _ := run_of_completes completes.retold
    rw [ended, ended']
    exact ⟨rfl, rfl, rfl, .inl ⟨report, rfl, rfl⟩⟩
  · obtain ⟨cause', retold, fails'⟩ := fails.retold
    have ended : told = _ := run_of_fails fails
    have ended' : again = _ := run_of_fails fails'
    rw [ended, ended']
    exact ⟨rfl, rfl, rfl, .inr ⟨stage, cause, cause', rfl, rfl, retold⟩⟩

end Runs

end Provision
