import Provision.Deployment.Validation

/-!
What validation gives.

`validate_eq_ok_iff` says exactly when a definition is validated and as what: the document
is there, the output directory can be settled, and the definition with the supplied
certificate authority, and without an empty one, has no violation. The proof of the last
condition is kept in `Validated` itself, so the equivalence names only the data.
-/

namespace Provision

theorem hasSshKey_iff {definition : Definition} :
    definition.hasSshKey ↔
      ∃ linux, definition.linux = some linux ∧ ∃ key ∈ linux.sshKeys, key ≠ "" := by
  unfold Definition.hasSshKey
  cases definition.linux <;> simp

/-- The certificate profile of a definition without violations is complete. -/
theorem isComplete_of_sound {definition : Definition} (sound : definition.violation? = none)
    {certificates : CertificateProfile} (own : definition.certificates = some certificates) :
    certificates.isComplete = true := by
  unfold Definition.violation? at sound
  split at sound
  · cases sound
  · rename_i complete
    simpa [own] using complete

/-- A definition without violations has an SSH key that is not empty. -/
theorem hasSshKey_of_sound {definition : Definition} (sound : definition.violation? = none) :
    definition.hasSshKey = true := by
  unfold Definition.violation? at sound
  split at sound
  · cases sound
  · split at sound
    · cases sound
    · rename_i hasKey
      simpa using hasKey

theorem Validated.ext_data {validated other : Validated}
    (definition : validated.definition = other.definition)
    (source : validated.source = other.source)
    (directory : validated.outputDirectory = other.outputDirectory) : validated = other := by
  cases validated
  cases other
  cases definition
  cases source
  cases directory
  rfl

theorem validate_eq_ok_iff {files : Files} {options : Options} {definition : Definition}
    {validated : Validated} :
    validate files options definition = .ok validated ↔
      files.pathExists options.definitionPath = true ∧
        outputDirectory options definition = .ok validated.outputDirectory ∧
          validated.source = options.definitionPath ∧
            ∃ supplied, suppliedCertificates files options = .ok supplied ∧
              validated.definition
                = (definition.withCertificates supplied).dropEmptyCertificates := by
  unfold validate
  cases exist : files.pathExists options.definitionPath with
  | false => simp
  | true =>
      cases settled : outputDirectory options definition with
      | error error => simp
      | ok directory =>
          cases read : suppliedCertificates files options with
          | error error => simp
          | ok supplied =>
              simp only [Bool.not_true, Bool.false_eq_true, if_false, true_and, Except.ok.injEq,
                exists_eq_left']
              constructor
              · intro h
                split at h
                · cases h
                · cases h
                  exact ⟨rfl, rfl, rfl⟩
              · rintro ⟨directory, source, same⟩
                split
                · rename_i violation unsound
                  have sound := validated.sound
                  rw [same, unsound] at sound
                  cases sound
                · exact congrArg Except.ok
                    (Validated.ext_data same.symm source.symm directory)

/-- Validation touches nothing of a definition but its certificate profile. -/
theorem definition_of_validate {files : Files} {options : Options} {definition : Definition}
    {validated : Validated} (h : validate files options definition = .ok validated) :
    ∃ certificates, validated.definition = { definition with certificates } := by
  obtain ⟨-, -, -, supplied, -, same⟩ := validate_eq_ok_iff.mp h
  rw [same]
  cases supplied <;> exact ⟨_, rfl⟩

end Provision
