import Provision.Proofs.Deployment.FailedRuns
import Provision.Proofs.Deployment.Likeness
import Provision.Proofs.Deployment.ParameterValues

/-!
The stages in which a run with the built-in tools can fail.

A validated definition has texts if it has an authority of its own or one can be issued
(`exists_generated`). Whatever strings the definition and the authority hold, both texts are read
as objects, so they can be formatted, and formatting keeps what they say (`exists_indented`).
So neither generating nor formatting fails, and what is left are loading, validating and writing:
`stage_of_failed_run`.
-/

namespace Provision

variable {issues : Nat → Issue} {disk : Disk} {catalog : Catalog} {request : Request}
  {world later : World}

/-! ### Formatting what was generated -/

namespace Template

/-- A template is generated in the order in which it is formatted. -/
theorem exists_document_eq (definition : Definition) (flavour : Flavour) :
    ∃ members, document definition flavour = .object members ∧
      Formatting.reorder members = members := ⟨_, rfl, rfl⟩

end Template

/-- The indented forms of the texts that were generated: the template is read as the same object
as before, and the parameters are read inside a document of their own. -/
structure Indented (generated : Generated) (template parameters : String) : Prop where
  formatsTemplate : Formatting.template generated.template = .ok template
  formatsParameters : Formatting.parameters generated.parameters = .ok parameters
  same : ∃ members, Json.parse generated.template = .ok (.object members) ∧
    Json.parse template = .ok (.object members)
  inside : ∃ values document, Json.parse generated.parameters = .ok (.object values) ∧
    Json.parse parameters = .ok document ∧
      document.member? "parameters" = some (.object values)

/-- What was generated can be formatted, whatever strings it is made of. -/
theorem exists_indented {validated : Validated} {flavour : Flavour} {generated : Generated}
    (h : generate issues catalog validated flavour world = (.ok generated, later)) :
    ∃ template parameters, Indented generated template parameters := by
  obtain ⟨certificates, same, -⟩ := generate_eq_ok h
  obtain ⟨members, object, ordered⟩ := Template.exists_document_eq validated.definition flavour
  have faithful := @Template.faithful_document 122 validated.definition flavour
  have document := faithful.parse_compact
  rw [object] at faithful document
  have template := Formatting.template_of_parse document
  have formatted := Formatting.parse_reorder document (Json.integral_of_wholeNumbers faithful.whole)
  rw [ordered] at template formatted
  have values := Template.parse_valuesDocument certificates flavour validated.sound
  have parameters := Formatting.parameters_of_parse values
  rw [same, Generated.of, object]
  exact ⟨_, _,
    { formatsTemplate := template
      formatsParameters := parameters
      same := ⟨_, document, formatted⟩
      inside := ⟨_, _, values, Template.parse_parameters validated.sound parameters, rfl⟩ }⟩

/-! ### Main results -/

/-- A run fails neither in generating nor in formatting. -/
theorem Fails.load_validate_or_persist {stage : Stage} {cause : Error} {calls : List Call}
    (ready : ∀ validated, check request world.files = .ok validated →
      validated.definition.certificates.isSome ∨
        ∃ authority, issues world.issued = .ok authority)
    (fails : Fails (builtinTools issues disk catalog) request world stage cause calls later) :
    stage = .load ∨ stage = .validate ∨ stage = .persist := by
  cases fails with
  | rejected rejects =>
      cases rejects with
      | load => exact .inl rfl
      | validate => exact .inr (.inl rfl)
  | @generate validated _ _ accepted fails =>
      obtain ⟨_, _, done⟩ := exists_generated (ready validated (check_eq_ok_iff.mpr accepted))
        catalog request.flavour
      cases done.symm.trans fails
  | postProcess generates _ misprints =>
      obtain ⟨_, _, indented⟩ := exists_indented generates.done
      cases misprints with
      | template fails => cases indented.formatsTemplate.symm.trans fails
      | parameters _ fails => cases indented.formatsParameters.symm.trans fails
  | persist => exact .inr (.inr rfl)

/-- **Only loading, validating and writing can fail**, if an authority is issued where it is needed:
to a definition that has none of its own. So far as this concerns the definition of a run, the
error of the run, if it fails, belongs to one of these stages. So far as it concerns any validated
definition, texts are generated from it, in both flavours; both can be formatted, and then the
template is read as the same object as before, and the parameters are read as they were, inside a
document. -/
theorem stage_of_failed_run :
    ((∀ validated, check request world.files = .ok validated →
        validated.definition.certificates.isSome ∨
          ∃ authority, issues world.issued = .ok authority) →
      ∀ error, (run (builtinTools issues disk catalog) request world).result = .error error →
        error.stage? = some .load ∨ error.stage? = some .validate ∨
          error.stage? = some .persist) ∧
    ∀ (validated : Validated) (flavour : Flavour),
      (validated.definition.certificates.isSome ∨
        ∃ authority, issues world.issued = .ok authority) →
      ∃ generated later template parameters,
        generate issues catalog validated flavour world = (.ok generated, later) ∧
          Indented generated template parameters := by
  constructor
  · intro ready error failed
    obtain ⟨stage, cause, fails, rfl⟩ := result_eq_error_iff.mp failed
    simpa only [Error.stage?, Option.some.injEq] using fails.load_validate_or_persist ready
  · intro validated flavour ready
    obtain ⟨generated, later, done⟩ := exists_generated ready catalog flavour
    obtain ⟨template, parameters, indented⟩ := exists_indented done
    exact ⟨generated, later, template, parameters, done, indented⟩

/-- A run with an authority of its own that fails in writing, where none can be issued, and a
definition without one of its own for which one is issued. -/
theorem stage_of_failed_run_blocked :
    let failure : Error := .stage .persist "c.json" blockedError
    let refused : Nat → Issue := fun _ => .error (.keyPair, "no entropy")
    let validated : Validated :=
      { definition :=
          { version := .vlabs
            controlPlane := .managed { dnsPrefix := "\"m\\" }
            linux := some { sshKeys := ["k"] } }
        source := "c.json"
        outputDirectory := "out"
        sound := rfl }
    let generated : Generated :=
      .of validated.definition (markedAuthority 1) .modern (some (markedAuthority 1))
    (run (builtinTools refused .reliable {}) securedRequest blockedWorld).result = .error failure ∧
      (failure.stage? = some .load ∨ failure.stage? = some .validate ∨
        failure.stage? = some .persist) ∧
      validated.definition.certificates = none ∧
        ∃ template parameters, Indented generated template parameters := by
  intro failure refused validated generated
  obtain ⟨calls, content, fails⟩ := fails_blocked refused
  have failed : (run (builtinTools refused .reliable {}) securedRequest blockedWorld).result
      = .error failure := congrArg Outcome.result (run_of_fails fails)
  have ready : ∀ validated, check securedRequest blockedWorld.files = .ok validated →
      validated.definition.certificates.isSome ∨
        ∃ authority, refused blockedWorld.issued = .ok authority := by
    intro validated checked
    obtain rfl : securedValidated = validated :=
      Except.ok.inj (check_blocked.symm.trans checked)
    exact .inl rfl
  have stages := (@stage_of_failed_run refused .reliable {} _ _).1 ready failure failed
  obtain ⟨other, later, template, parameters, done, indented⟩ :=
    (@stage_of_failed_run markedIssues .reliable {} securedRequest blockedWorld).2 validated .modern
      (.inr ⟨_, rfl⟩)
  have generates : generate markedIssues {} validated .modern blockedWorld
      = (.ok generated, { blockedWorld with issued := 1 }) := rfl
  obtain ⟨same, -⟩ := Prod.mk.inj (done.symm.trans generates)
  exact ⟨failed, stages, rfl, template, parameters, Except.ok.inj same ▸ indented⟩

end Provision
