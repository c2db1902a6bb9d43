import Provision.Proofs.Deployment.History

/-!
The certificate authority in all that one run leaves behind.

A run takes a certificate authority from the definition that it has validated, or issues one if
there is none. The authority reaches the output directory in three ways: among the parameters, in
the definition that is kept, and as files of its own, which are written only if it was issued.
`LeavesAuthority` says that all of them are the same and what happens to files that are not written;
`authority_of_run` shows this of every run that succeeds.

Nothing is said about the authority being usable: it is only a pair of texts that are not empty,
which an authority that is issued is assumed to be.
-/

namespace Provision

open Artifacts (parametersFile definitionFile certificateFile privateKeyFile)

/-! ### Files that are not touched -/

/-- A location is as it was, with the content and the mode of its file. At most, there was nothing
and a directory has been made, on the way to others. -/
def Files.Untouched (files later : Files) (location : Location) : Prop :=
  later.lookup location = files.lookup location ∨
    files.lookup location = none ∧ later.lookup location = some .directory

/-- Writing artifacts touches no file, in any directory, of a place that they are not written
to. -/
theorem Keeping.untouched_of_not_takes {keeping : Keeping} {artifacts : Artifacts} {name : String}
    (leaves : keeping.takes artifacts = false) (mem : name ∈ keeping.names) (disk : Disk)
    (catalog : Catalog) (files : Files) (directory : Location) :
    files.Untouched (artifacts.writeTo disk catalog files).2 (directory ++ [name]) := by
  rcases Artifacts.entries_writeTo artifacts disk catalog files (directory ++ [name]) with
    same | ⟨free, made, -⟩ | ⟨here, -, file, listed, same⟩
  · exact .inl same
  · exact .inr ⟨free, made⟩
  · have last := (List.append_inj' same rfl).2
    exact absurd (List.cons.inj last).1 (Keeping.ne_of_not_takes leaves mem file listed)

/-! ### What a run leaves behind -/

/-- What a run that has used a certificate authority leaves behind. -/
structure LeavesAuthority (request : Request) (report : Report) (certificates : CertificateProfile)
    (files later : Files) : Prop where
  certificate : certificates.certificate ≠ ""
  privateKey : certificates.privateKey ≠ ""
  parameters : ∃ text,
    later.readText (Path.join report.outputDirectory parametersFile) = .ok text ∧
      parametersAuthority? text = some certificates
  definition : request.options.parametersOnly = false → ∃ text,
    later.readText (Path.join report.outputDirectory definitionFile) = .ok text ∧
      definitionAuthority? text = some certificates
  written : report.certsGenerated = true →
    later.readText (Path.join report.outputDirectory certificateFile)
        = .ok certificates.certificate ∧
      later.readText (Path.join report.outputDirectory privateKeyFile)
        = .ok certificates.privateKey
  untouched : report.certsGenerated = false → ∀ directory : Location,
    ∀ name ∈ [certificateFile, privateKeyFile], files.Untouched later (directory ++ [name])

section Runs

variable {issues : Nat → Issue} {disk : Disk} {catalog : Catalog} {request : Request}
  {world : World} {certificates : CertificateProfile}

theorem ne_empty_of_isComplete (complete : certificates.isComplete = true) :
    certificates.certificate ≠ "" ∧ certificates.privateKey ≠ "" := by
  simpa [CertificateProfile.isComplete] using complete

/-- If no authority was issued, its files are not touched. -/
theorem untouched_of_stages (stages : Stages (builtinTools issues disk catalog) request world)
    (notIssued : stages.report.certsGenerated = false) {name : String}
    (mem : name ∈ Keeping.authority.names) (directory : Location) :
    world.files.Untouched (run (builtinTools issues disk catalog) request world).world.files
      (directory ++ [name]) := by
  obtain ⟨wrote, -⟩ := writeTo_of_write stages.writes
  obtain ⟨-, -, unchanged, -⟩ := generate_eq_ok stages.generates
  have leaves : Keeping.authority.takes stages.artifacts = false := notIssued
  have same :=
    Keeping.untouched_of_not_takes leaves mem disk catalog stages.between.files directory
  rw [Stages.artifacts, wrote, unchanged] at same
  rw [run_eq_of_stages stages]
  exact same

/-- The authority of the artifacts is the one that a run leaves behind. -/
theorem leavesAuthority_of_carries
    (stages : Stages (builtinTools issues disk catalog) request world)
    (carries : stages.artifacts.Carries certificates) (complete : certificates.isComplete = true) :
    LeavesAuthority request stages.report certificates world.files
      (run (builtinTools issues disk catalog) request world).world.files where
  certificate := (ne_empty_of_isComplete complete).1
  privateKey := (ne_empty_of_isComplete complete).2
  parameters :=
    ⟨_, readText_of_texts stages stages.artifacts.parameters_mem_texts, carries.parameters⟩
  definition full :=
    ⟨_, readText_of_texts stages (Artifacts.definition_mem_texts full), carries.definition⟩
  written issued := by
    obtain ⟨certificate, privateKey⟩ := Artifacts.authority_mem_texts issued carries.own
    exact ⟨readText_of_texts stages certificate, readText_of_texts stages privateKey⟩
  untouched notIssued directory _ mem := untouched_of_stages stages notIssued mem directory

/-- Without an authority of the definition, the next one that is issued is that of the
artifacts. -/
theorem carries_of_none (stages : Stages (builtinTools issues disk catalog) request world)
    (none : stages.validated.definition.certificates = none) :
    ∃ certificates, issues world.issued = .ok certificates ∧
      stages.artifacts.Carries certificates := by
  have generates := stages.generates
  cases issued : issues world.issued with
  | ok authority =>
      have same := (generate_of_none none issued _).symm.trans generates
      have generated := Except.ok.inj (Prod.mk.inj same).1
      refine ⟨authority, rfl, carries_of_kept stages ?_⟩
      rw [certificates_keptDefinition, ← generated]
      rfl
  | error fault =>
      simp only [builtinTools, generate, none, Option.filter_none, issued] at generates
      cases (Prod.mk.inj generates).1

/-- **One certificate authority is used in the whole of a run.** Assume that an authority that is
issued has texts that are not empty. If a run with the built-in tools succeeds, it reports that an
authority was issued exactly if the definition that it has validated has none. The authority of
the definition, or else the one that was issued, is what the parameters give, and what the kept
definition gives unless only the parameters are written. It is written to files of its own if it
was issued; otherwise no file of such a name is touched. -/
theorem authority_of_run {report : Report}
    (complete : ∀ number authority, issues number = .ok authority → authority.isComplete = true)
    (succeeded : (run (builtinTools issues disk catalog) request world).result = .ok report) :
    ∃ validated certificates, check request world.files = .ok validated ∧
      (report.certsGenerated = true ↔ validated.definition.certificates = none) ∧
        (∀ own, validated.definition.certificates = some own → certificates = own) ∧
          (report.certsGenerated = true → issues world.issued = .ok certificates) ∧
            LeavesAuthority request report certificates world.files
              (run (builtinTools issues disk catalog) request world).world.files := by
  obtain ⟨stages, rfl⟩ := stages_of_run succeeded
  cases own : stages.validated.definition.certificates with
  | none =>
      obtain ⟨certificates, issued, carries⟩ := carries_of_none stages own
      refine ⟨stages.validated, certificates, stages.checked, ?_, ?_, fun _ => issued,
        leavesAuthority_of_carries stages carries (complete _ _ issued)⟩
      · exact iff_of_true (issued_of_none stages own) own
      · intro other same
        rw [own] at same
        cases same
  | some certificates =>
      obtain ⟨carries, notIssued, -⟩ := carries_of_own stages own
      have whole := isComplete_of_sound stages.validated.sound own
      refine ⟨stages.validated, certificates, stages.checked, ?_, ?_, ?_,
        leavesAuthority_of_carries stages carries whole⟩
      · rw [notIssued, own]
        exact iff_of_false Bool.false_ne_true (Option.some_ne_none _)
      · intro other same
        exact Option.some.inj (own.symm.trans same)
      · intro issued
        rw [notIssued] at issued
        cases issued

/-- A run that issues an authority, beside files of another one. -/
theorem authority_of_run_issued :
    let other : CertificateProfile := { certificate := "c", privateKey := "p" }
    let world : World := { files := .withAuthority other, issued := 0 }
    let request := bareRequest none none
    let report : Report := ⟨"out", .vlabs, true, .done⟩
    ((∀ number authority, markedIssues number = .ok authority → authority.isComplete = true) ∧
      (run (builtinTools markedIssues .reliable {}) request world).result = .ok report) ∧
      ∃ validated certificates, check request world.files = .ok validated ∧
        (report.certsGenerated = true ↔ validated.definition.certificates = none) ∧
          (∀ own, validated.definition.certificates = some own → certificates = own) ∧
            (report.certsGenerated = true → markedIssues world.issued = .ok certificates) ∧
              LeavesAuthority request report certificates world.files
                (run (builtinTools markedIssues .reliable {}) request world).world.files := by
  intro other world request report
  have complete : ∀ number authority, markedIssues number = .ok authority →
      authority.isComplete = true := fun _ _ => isComplete_of_markedIssues
  obtain ⟨stored, -, -⟩ := Files.readText_withAuthority other
  have supplies : suppliedCertificates world.files request.options = .ok none := rfl
  have checked : check request world.files = .ok (bareValidated none rfl) :=
    check_bareRequest stored supplies rfl
  obtain ⟨stages, reported, -⟩ :=
    exists_stages_issuing checked rfl (writable_withAuthority _ (some (markedAuthority 1)))
  have succeeded : (run (builtinTools markedIssues .reliable {}) request world).result
      = .ok report := by
    rw [run_eq_of_stages stages, reported]
  exact ⟨⟨complete, succeeded⟩, authority_of_run complete succeeded⟩

end Runs

end Provision
