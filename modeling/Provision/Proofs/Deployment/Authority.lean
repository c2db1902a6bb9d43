import Provision.Proofs.Deployment.KeptProperties
import Provision.Proofs.Deployment.ParameterValues
import Provision.Proofs.Deployment.Placement
import Provision.Proofs.Deployment.Requirements

/-!
The certificate authority of a run.

`parametersAuthority?` and `definitionAuthority?` read a certificate authority from the files that
are written. Whatever document a successful run begins with, both files give one and the same
authority, which is the one that the run has used: `carries_of_stages`.

An authority that the options supply is used as it is, in place of the one that the document has
(`supplied_authority_used`). There is one exception: if both of its files are empty, the authority
is dropped as an empty profile is, and a new one is issued (`issued_for_empty_authority`).
-/

namespace Provision

/-! ### Authorities in files -/

/-- The certificate authority with these parts, if both are there. -/
def CertificateProfile.ofParts? : Option String → Option String → Option CertificateProfile
  | some certificate, some privateKey => some { certificate, privateKey }
  | _, _ => none

/-- The certificate authority that a file of parameters gives. -/
def parametersAuthority? (text : String) : Option CertificateProfile :=
  CertificateProfile.ofParts? (parameterText? text "caCertificate")
    (parameterText? text "caPrivateKey")

/-- The certificate authority in the definition that a file states. -/
def definitionAuthority? (text : String) : Option CertificateProfile :=
  match Json.parse text with
  | .ok document =>
      CertificateProfile.ofParts?
        (document.textAt ["properties", "certificateProfile", "caCertificate"])
        (document.textAt ["properties", "certificateProfile", "caPrivateKey"])
  | .error _ => none

/-- The parameters give the certificate authority that they were generated for. -/
theorem parametersAuthority?_of_prints {issues : Nat → Issue} {disk : Disk} {catalog : Catalog}
    {definition : Definition} {certificates : CertificateProfile} {flavour : Flavour}
    {authority : Option CertificateProfile} {prettyPrint : Bool} {texts : String × String}
    (sound : definition.violation? = none)
    (prints : Prints (builtinTools issues disk catalog)
      (.of definition certificates flavour authority) prettyPrint texts) :
    parametersAuthority? texts.2 = some certificates := by
  have listed : ∀ parameter ∈ Template.certificateValues certificates,
      parameter ∈ Template.ownValues definition certificates flavour := by
    intro parameter mem
    simp only [Template.ownValues, List.mem_append]
    exact .inl (.inl (.inl (.inr mem)))
  have certificate := parameterText?_of_prints sound prints
    (listed _ List.mem_cons_self) (by decide)
  have privateKey := parameterText?_of_prints sound prints
    (listed _ (List.mem_cons_of_mem _ List.mem_cons_self)) (by decide)
  unfold parametersAuthority?
  rw [certificate, privateKey]
  rfl

section Kept

variable {definition : Definition} {certificates : CertificateProfile}

/-- A legible definition is written with its certificate profile among its properties. -/
theorem Definition.Legible.textAt_encode (h : definition.Legible)
    (own : definition.certificates = some certificates) (names : List String) :
    definition.encode.textAt ("properties" :: "certificateProfile" :: names)
      = certificates.encode.textAt names := by
  obtain ⟨-, distinct⟩ := Json.distinctNames_object_iff.mp h.wellRead_encode.distinct
  obtain ⟨properties, -⟩ := Json.distinctNames_object_iff.mp
    (distinct _ (List.mem_cons_of_mem _ List.mem_cons_self))
  have listed : ("certificateProfile", certificates.encode)
      ∈ definition.profileMembers ++ definition.extra := by
    refine List.mem_append_left _ ?_
    unfold Definition.profileMembers
    rw [own]
    exact List.mem_append_right _ (List.mem_singleton_self _)
  have member : (Json.object (definition.profileMembers ++ definition.extra)).member?
      "certificateProfile" = some certificates.encode := Members.find?_of_mem properties listed
  have property : definition.encode.member? "properties"
      = some (.object (definition.profileMembers ++ definition.extra)) := rfl
  rw [Json.textAt_of_member? property, Json.textAt_of_member? member]

/-- The text in which a legible definition is kept gives its certificate authority. -/
theorem definitionAuthority?_pretty (h : definition.Legible)
    (own : definition.certificates = some certificates) :
    definitionAuthority? (definition.pretty ++ "\n") = some certificates := by
  have wellRead := h.wellRead_encode
  have read : Json.parse (definition.pretty ++ "\n") = .ok definition.encode.reread :=
    Json.parse_pretty_line_reread wellRead.distinct wellRead.bound
  unfold definitionAuthority?
  rw [read]
  simp only [Json.textAt_reread, h.textAt_encode own]
  rfl

end Kept

/-! ### The authority of a run -/

section Runs

variable {issues : Nat → Issue} {disk : Disk} {catalog : Catalog} {request : Request}
  {world : World}

/-- Artifacts that have one certificate authority: it is that of the kept definition, and both the
definition and the parameters give it when they are read. -/
structure Artifacts.Carries (artifacts : Artifacts) (certificates : CertificateProfile) : Prop where
  own : artifacts.keptDefinition.certificates = some certificates
  definition : definitionAuthority? artifacts.definitionText = some certificates
  parameters : parametersAuthority? artifacts.parameters = some certificates

/-- The kept definition has the authority that was issued, or else its own. -/
theorem certificates_keptDefinition
    (stages : Stages (builtinTools issues disk catalog) request world) :
    stages.artifacts.keptDefinition.certificates
      = (stages.generated.authority <|> stages.validated.definition.certificates) := rfl

/-- **The artifacts of a successful run have one certificate authority**, the one that the
template and the parameters were generated for. -/
theorem carries_of_stages (stages : Stages (builtinTools issues disk catalog) request world) :
    ∃ certificates, stages.artifacts.Carries certificates := by
  obtain ⟨certificates, generated, -, origin⟩ := generate_eq_ok stages.generates
  have own : stages.artifacts.keptDefinition.certificates = some certificates := by
    rw [certificates_keptDefinition]
    rcases origin with ⟨noAuthority, -, own⟩ | ⟨authority, -⟩
    · rw [noAuthority, own]
      rfl
    · rw [authority]
      rfl
  have legible : stages.artifacts.keptDefinition.Legible :=
    (legible_of_check stages.checked).congr rfl
  have prints := prints_of_postProcess stages.formats
  rw [generated] at prints
  exact ⟨certificates, own, definitionAuthority?_pretty legible own,
    parametersAuthority?_of_prints stages.validated.sound prints⟩

theorem carries_of_kept (stages : Stages (builtinTools issues disk catalog) request world)
    {certificates : CertificateProfile}
    (kept : stages.artifacts.keptDefinition.certificates = some certificates) :
    stages.artifacts.Carries certificates := by
  obtain ⟨used, carries⟩ := carries_of_stages stages
  obtain rfl : used = certificates := Option.some.inj (carries.own.symm.trans kept)
  exact carries

/-- A complete authority of the definition that was validated is the one of the artifacts, and none
is issued. -/
theorem carries_of_own (stages : Stages (builtinTools issues disk catalog) request world)
    {certificates : CertificateProfile}
    (own : stages.validated.definition.certificates = some certificates) :
    stages.artifacts.Carries certificates ∧ stages.report.certsGenerated = false ∧
      stages.later.issued = world.issued := by
  have complete := isComplete_of_sound stages.validated.sound own
  have generates := (generate_of_complete own complete _).symm.trans stages.generates
  obtain ⟨generated, between⟩ := Prod.mk.inj generates
  have notIssued : stages.generated.authority = none := by
    rw [← Except.ok.inj generated]
    rfl
  have kept : stages.artifacts.keptDefinition.certificates = some certificates := by
    rw [certificates_keptDefinition, notIssued, own]
    rfl
  obtain ⟨-, later⟩ := writeTo_of_write stages.writes
  refine ⟨carries_of_kept stages kept, ?_, ?_⟩
  · show stages.generated.authority.isSome = false
    rw [notIssued]
    rfl
  · rw [later, ← between]

/-- Without one, an authority is issued. -/
theorem issued_of_none (stages : Stages (builtinTools issues disk catalog) request world)
    (none : stages.validated.definition.certificates = none) :
    stages.report.certsGenerated = true := by
  obtain ⟨certificates, -, -, origin⟩ := generate_eq_ok stages.generates
  show stages.generated.authority.isSome = true
  rcases origin with ⟨-, -, own⟩ | ⟨authority, -⟩
  · rw [none] at own
    cases own
  · rw [authority]
    rfl

/-- What passes the first two stages has the authority in the files that the options name, unless
both files are empty. -/
theorem certificates_of_check {files : Files} {validated : Validated}
    {certificatePath keyPath : String}
    (certificateStated : Stated request.options.caCertificatePath certificatePath)
    (keyStated : Stated request.options.caPrivateKeyPath keyPath)
    (checked : check request files = .ok validated) :
    ∃ certificate privateKey, files.readText certificatePath = .ok certificate ∧
      files.readText keyPath = .ok privateKey ∧
        validated.definition.certificates
          = (some { certificate, privateKey }).filter (!CertificateProfile.isEmpty ·) := by
  obtain ⟨definition, -, validates⟩ := check_eq_ok_iff.mp checked
  obtain ⟨-, -, -, supplied, supplies, same⟩ := validate_eq_ok_iff.mp validates
  rw [same]
  cases suppliedCertificates_eq_ok_iff.mp supplies with
  | nothing noCertificate => exact absurd certificateStated (noCertificate.not_stated _)
  | authority certificateStated' keyStated' certificateRead keyRead =>
      obtain rfl := certificateStated'.unique certificateStated
      obtain rfl := keyStated'.unique keyStated
      exact ⟨_, _, certificateRead, keyRead, rfl⟩

end Runs

/-! ### A run with the files of an authority -/

def bareDocument : Json :=
  .object [("apiVersion", .string "vlabs"), ("properties", .object [("masterProfile", .object [])])]

def Files.withAuthority (authority : CertificateProfile) : Files where
  entries :=
    [ ([], .directory), (["c.json"], .file bareDocument.compact.toUTF8 0o644),
      (["a.crt"], .file authority.certificate.toUTF8 0o644),
      (["a.key"], .file authority.privateKey.toUTF8 0o600) ]
  home := []

/-- A run on the document that writes all artifacts, without formatting them, and takes an
authority from these paths if they are given. -/
def bareRequest (certificatePath keyPath : Option String) : Request where
  options :=
    { definitionPath := "c.json", outputDirectory := some "out"
      caCertificatePath := certificatePath, caPrivateKeyPath := keyPath, prettyPrint := false }
  overrides := some { dnsPrefix := "n", sshPublicKey := "k" }

def bareValidated (authority : Option CertificateProfile)
    (complete : authority.all (·.isComplete) = true) : Validated where
  definition :=
    { version := .vlabs, controlPlane := .managed { dnsPrefix := "n" }
      linux := some { sshKeys := ["k"] }, certificates := authority }
  source := "c.json"
  outputDirectory := "out"
  sound := by
    have passes : authority.any (fun profile => !profile.isComplete) = false := by
      cases authority with
      | none => rfl
      | some profile => simpa using complete
    simp only [Definition.violation?, passes]
    rfl

theorem parse_bareDocument : Definition.parse bareDocument.compact
    = .ok { version := .vlabs, controlPlane := .managed {} } := by
  have integers : bareDocument.wholeNumbers := by decide
  have plain : bareDocument.plainNames := by decide
  have read : Json.parse bareDocument.compact = .ok bareDocument :=
    Json.parse_compact integers (by decide) (by decide)
  exact (Definition.parse_eq_ofValue read integers plain).trans rfl

theorem check_bareRequest {files : Files} {certificatePath keyPath : Option String}
    {supplied : Option CertificateProfile}
    (stored : files.readText "c.json" = .ok bareDocument.compact)
    (supplies : suppliedCertificates files (bareRequest certificatePath keyPath).options
      = .ok supplied)
    (complete : (supplied.filter (!·.isEmpty)).all (·.isComplete) = true) :
    check (bareRequest certificatePath keyPath) files = .ok (bareValidated _ complete) := by
  refine check_eq_ok_iff.mpr ⟨_, (loadDefinition_eq stored).trans parse_bareDocument, ?_⟩
  refine validate_eq_ok_iff.mpr
    ⟨pathExists_of_readText stored, rfl, rfl, supplied, supplies, ?_⟩
  cases supplied <;> rfl

section Bare

variable {certificatePath keyPath : Option String} {request : Request} {world : World}

/-- If there is no authority to take, one is issued. -/
theorem exists_stages_issuing
    (checked : check request world.files = .ok (bareValidated none rfl))
    (bare : request = bareRequest certificatePath keyPath)
    (writable : ∀ definition template parameters, (Artifacts.performAll .reliable {} world.files
      (Artifacts.outSteps definition template parameters
        (some (markedAuthority (world.issued + 1))))).1 = .ok ()) :
    ∃ stages : Stages (builtinTools markedIssues .reliable {}) request world,
      stages.report = ⟨"out", .vlabs, true, .done⟩ ∧
        stages.artifacts.Carries (markedAuthority (world.issued + 1)) ∧
          ∃ definition template parameters, stages.later.files
            = (Artifacts.performAll .reliable {} world.files (Artifacts.outSteps definition template
                parameters (some (markedAuthority (world.issued + 1))))).2 := by
  subst bare
  have own : (bareValidated none rfl).definition.certificates = none := rfl
  have issued : markedIssues world.issued = .ok (markedAuthority (world.issued + 1)) := rfl
  have generates := @generate_of_none world markedIssues {} _ _ own issued
    (Flavour.ofClassic (bareRequest certificatePath keyPath).options.classic)
  obtain ⟨stages, validated, generated, left⟩ :=
    exists_stages_out generates checked rfl rfl rfl rfl writable
  have kept : stages.artifacts.keptDefinition.certificates
      = some (markedAuthority (world.issued + 1)) := by
    rw [certificates_keptDefinition, generated]
    rfl
  refine ⟨stages, ?_, carries_of_kept stages kept, _, _, _, left⟩
  unfold Stages.report
  rw [validated, generated]
  rfl

/-- If the options name the files of a complete authority, it is taken. -/
theorem exists_stages_taking {authority : CertificateProfile}
    (complete : authority.isComplete = true)
    (bare : request = bareRequest (some "a.crt") (some "a.key"))
    (stored : world.files.readText "c.json" = .ok bareDocument.compact)
    (certificate : world.files.readText "a.crt" = .ok authority.certificate)
    (privateKey : world.files.readText "a.key" = .ok authority.privateKey)
    (writable : ∀ definition template parameters, (Artifacts.performAll .reliable {} world.files
      (Artifacts.outSteps definition template parameters none)).1 = .ok ()) :
    ∃ stages : Stages (builtinTools markedIssues .reliable {}) request world,
      stages.report = ⟨"out", .vlabs, false, .done⟩ ∧ stages.artifacts.Carries authority ∧
        ∃ definition template parameters, stages.later.files
          = (Artifacts.performAll .reliable {} world.files
              (Artifacts.outSteps definition template parameters none)).2 := by
  subst bare
  have supplies := suppliedCertificates_eq_ok_iff.mpr
    (@Supplies.authority _ (bareRequest (some "a.crt") (some "a.key")).options _ _ _ _
      ⟨rfl, by decide⟩ ⟨rfl, by decide⟩ certificate privateKey)
  have kept : (some authority).filter (!·.isEmpty) = some authority := by
    rw [Option.filter_some, not_isEmpty_of_isComplete complete]
    rfl
  have checked : check (bareRequest (some "a.crt") (some "a.key")) world.files
      = .ok (bareValidated (some authority) complete) := by
    rw [check_bareRequest stored supplies (by rw [kept]; exact complete)]
    simp only [kept]
  have own : (bareValidated (some authority) complete).definition.certificates
      = some authority := rfl
  have generates := @generate_of_complete world markedIssues {} _ _ own complete
    (Flavour.ofClassic (bareRequest (some "a.crt") (some "a.key")).options.classic)
  obtain ⟨stages, validated, generated, left⟩ :=
    exists_stages_out generates checked rfl rfl rfl rfl writable
  have own : stages.validated.definition.certificates = some authority := by
    rw [validated]
    rfl
  refine ⟨stages, ?_, (carries_of_own stages own).1, _, _, _, left⟩
  unfold Stages.report
  rw [validated, generated]
  rfl

end Bare

section WithAuthority

variable (authority : CertificateProfile)

theorem Files.readText_withAuthority :
    (withAuthority authority).readText "c.json" = .ok bareDocument.compact ∧
      (withAuthority authority).readText "a.crt" = .ok authority.certificate ∧
        (withAuthority authority).readText "a.key" = .ok authority.privateKey :=
  ⟨@readText_of_resolve _ _ _ ["c.json"] 0o644 rfl, @readText_of_resolve _ _ _ ["a.crt"] 0o644 rfl,
    @readText_of_resolve _ _ _ ["a.key"] 0o600 rfl⟩

theorem writable_withAuthority (issued : Option CertificateProfile)
    (definition template parameters : String) :
    (Artifacts.performAll .reliable {} (.withAuthority authority)
      (Artifacts.outSteps definition template parameters issued)).1 = .ok () := by
  cases issued <;> rfl

end WithAuthority

/-! ### Main results -/

section Results

variable {issues : Nat → Issue} {disk : Disk} {catalog : Catalog} {request : Request}
  {world : World}

/-- **An authority that the options supply is the one that is used**, whatever authority the
document has. Let the options name both files. If a run with the built-in tools succeeds, both
files could be read, and an authority was issued exactly if both are empty. Otherwise none was
issued; the parameters that are left in the output directory give exactly the contents of the
two files, and so does the definition unless only the parameters are written. -/
theorem supplied_authority_used {certificatePath keyPath : String} {report : Report}
    (certificateStated : Stated request.options.caCertificatePath certificatePath)
    (keyStated : Stated request.options.caPrivateKeyPath keyPath)
    (succeeded : (run (builtinTools issues disk catalog) request world).result = .ok report) :
    ∃ certificate privateKey, world.files.readText certificatePath = .ok certificate ∧
      world.files.readText keyPath = .ok privateKey ∧
        (report.certsGenerated = true ↔ certificate = "" ∧ privateKey = "") ∧
          (report.certsGenerated = false →
            let later := (run (builtinTools issues disk catalog) request world).world
            later.issued = world.issued ∧
              (∃ text, later.files.readText
                  (Path.join report.outputDirectory Artifacts.parametersFile) = .ok text ∧
                parametersAuthority? text = some { certificate, privateKey }) ∧
                (request.options.parametersOnly = false → ∃ text, later.files.readText
                    (Path.join report.outputDirectory Artifacts.definitionFile) = .ok text ∧
                  definitionAuthority? text = some { certificate, privateKey })) := by
  obtain ⟨stages, rfl⟩ := stages_of_run succeeded
  obtain ⟨certificate, privateKey, certificateRead, keyRead, supplied⟩ :=
    certificates_of_check certificateStated keyStated stages.checked
  refine ⟨certificate, privateKey, certificateRead, keyRead, ?_⟩
  by_cases empty : certificate = "" ∧ privateKey = ""
  · have none : stages.validated.definition.certificates = none := by
      rw [supplied, empty.1, empty.2]
      rfl
    have issued := issued_of_none stages none
    refine ⟨iff_of_true issued empty, ?_⟩
    intro notIssued
    rw [issued] at notIssued
    cases notIssued
  · have own : stages.validated.definition.certificates = some { certificate, privateKey } := by
      rw [supplied]
      refine Option.filter_eq_some_iff.mpr ⟨rfl, ?_⟩
      simpa [CertificateProfile.isEmpty] using not_and_or.mp empty
    obtain ⟨carries, notIssued, issued⟩ := carries_of_own stages own
    constructor
    · rw [notIssued]
      exact iff_of_false Bool.false_ne_true empty
    · intro _ later
      refine ⟨?_, ?_, ?_⟩
      · show (run (builtinTools issues disk catalog) request world).world.issued = world.issued
        rw [run_eq_of_stages stages]
        exact issued
      · exact ⟨_, readText_of_texts stages stages.artifacts.parameters_mem_texts,
          carries.parameters⟩
      · intro full
        exact ⟨_, readText_of_texts stages (Artifacts.definition_mem_texts full),
          carries.definition⟩

/-- A run that takes the authority of the options. -/
theorem supplied_authority_used_files :
    let authority : CertificateProfile := { certificate := "c", privateKey := "p" }
    let request := bareRequest (some "a.crt") (some "a.key")
    let world : World := { files := .withAuthority authority, issued := 0 }
    let report : Report := ⟨"out", .vlabs, false, .done⟩
    Stated request.options.caCertificatePath "a.crt" ∧
      Stated request.options.caPrivateKeyPath "a.key" ∧
        (run (builtinTools markedIssues .reliable {}) request world).result = .ok report ∧
          ∃ certificate privateKey, world.files.readText "a.crt" = .ok certificate ∧
            world.files.readText "a.key" = .ok privateKey ∧
              (report.certsGenerated = true ↔ certificate = "" ∧ privateKey = "") ∧
                (report.certsGenerated = false →
                  let later := (run (builtinTools markedIssues .reliable {}) request world).world
                  later.issued = world.issued ∧
                    (∃ text, later.files.readText
                        (Path.join report.outputDirectory Artifacts.parametersFile) = .ok text ∧
                      parametersAuthority? text = some { certificate, privateKey }) ∧
                      (request.options.parametersOnly = false → ∃ text, later.files.readText
                          (Path.join report.outputDirectory Artifacts.definitionFile) = .ok text ∧
                        definitionAuthority? text = some { certificate, privateKey })) := by
  intro authority request world report
  obtain ⟨stored, certificate, privateKey⟩ := Files.readText_withAuthority authority
  have certificateStated : Stated request.options.caCertificatePath "a.crt" := ⟨rfl, by decide⟩
  have keyStated : Stated request.options.caPrivateKeyPath "a.key" := ⟨rfl, by decide⟩
  obtain ⟨stages, reported, -⟩ := @exists_stages_taking request world authority rfl rfl stored
    certificate privateKey (writable_withAuthority authority none)
  have succeeded : (run (builtinTools markedIssues .reliable {}) request world).result
      = .ok report := by
    rw [run_eq_of_stages stages, reported]
  exact ⟨certificateStated, keyStated, succeeded,
    supplied_authority_used certificateStated keyStated succeeded⟩

/-- **An authority whose files are empty is replaced by a new one.** -/
theorem issued_for_empty_authority :
    let request := bareRequest (some "a.crt") (some "a.key")
    let world : World := { files := .withAuthority {}, issued := 0 }
    Stated request.options.caCertificatePath "a.crt" ∧
      Stated request.options.caPrivateKeyPath "a.key" ∧
        world.files.readText "a.crt" = .ok "" ∧ world.files.readText "a.key" = .ok "" ∧
          (run (builtinTools markedIssues .reliable {}) request world).result
              = .ok ⟨"out", .vlabs, true, .done⟩ ∧
            ∃ text, (run (builtinTools markedIssues .reliable {}) request world).world.files.readText
                (Path.join "out" Artifacts.parametersFile) = .ok text ∧
              parametersAuthority? text = some (markedAuthority 1) ∧
                parametersAuthority? text ≠ some { certificate := "", privateKey := "" } := by
  intro request world
  obtain ⟨stored, certificate, privateKey⟩ := Files.readText_withAuthority {}
  have certificateStated : Stated request.options.caCertificatePath "a.crt" := ⟨rfl, by decide⟩
  have keyStated : Stated request.options.caPrivateKeyPath "a.key" := ⟨rfl, by decide⟩
  have supplies := suppliedCertificates_eq_ok_iff.mpr
    (.authority certificateStated keyStated certificate privateKey)
  have checked : check request world.files = .ok (bareValidated none rfl) :=
    check_bareRequest stored supplies rfl
  obtain ⟨stages, report, carries, -⟩ :=
    exists_stages_issuing checked rfl (writable_withAuthority {} (some (markedAuthority 1)))
  have left := readText_of_texts stages stages.artifacts.parameters_mem_texts
  rw [report] at left
  refine ⟨certificateStated, keyStated, certificate, privateKey, ?_, _, left,
    carries.parameters, ?_⟩
  · rw [run_eq_of_stages stages, report]
  · rw [carries.parameters]
    intro same
    have empty : (markedAuthority 1).certificate = "" :=
      congrArg CertificateProfile.certificate (Option.some.inj same)
    exact absurd empty (by decide)

end Results

end Provision
