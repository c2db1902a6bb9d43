import Provision.Proofs.Cluster.Readable
import Provision.Proofs.Deployment.Artifacts
import Provision.Proofs.Deployment.Pipeline
import Provision.Proofs.Deployment.Validation

/-!
A run on what another run has kept.

A successful run writes the definition that it has used, with the certificate authority in
it, beside the template and its parameters. A second run on this definition, with no
replacements and no authority of its own, succeeds as well and changes nothing.

* `readable_of_check` — the definition that passes the first two stages is readable, so the
  text that is kept of it is loaded as the same definition (`parse_definitionText`).
* `check_again` — it is validated again: an authority that was used is complete, and nothing
  else of the definition is checked against the options.
* `generate_again` — the texts depend on the authority as a value, not on where it came from.
* `run_again` — so the second run writes the same contents, which changes nothing.
-/

namespace Provision

/-- The request for a run on the definition that another run has kept. -/
def Request.again (request : Request) (report : Report) : Request where
  options := { request.options with
    definitionPath := Path.join report.outputDirectory Artifacts.definitionFile
    caCertificatePath := none
    caPrivateKeyPath := none }
  overrides := none

/-! ### What is kept -/

theorem Request.readable_merge (request : Request) {definition : Definition}
    (h : definition.Readable) : (request.merge definition).Readable := by
  unfold merge
  split
  · exact h.congr rfl (ControlPlane.isHosted_withDnsPrefix _ _) rfl
  · exact h

/-- What passes the first two stages is readable. -/
theorem readable_of_check {request : Request} {files : Files} {text : String} {document : Json}
    {validated : Validated} (stored : files.readText request.options.definitionPath = .ok text)
    (read : Json.parse text = .ok document) (whole : document.wholeNumbers)
    (plain : document.plainNames) (checked : check request files = .ok validated) :
    validated.definition.Readable := by
  obtain ⟨definition, loaded, validates⟩ := check_eq_ok_iff.mp checked
  rw [loadDefinition_eq stored] at loaded
  obtain ⟨certificates, same⟩ := definition_of_validate validates
  have merged := request.readable_merge (Definition.readable_of_parse read whole plain loaded)
  rw [same]
  exact merged.congr rfl rfl rfl

/-- The text in which a definition is kept stands for the value that is written for it; it ends
in a line feed. -/
theorem Artifacts.json_definitionText {artifacts : Artifacts}
    (h : artifacts.keptDefinition.encode.Faithful Json.Reader.maxLevels) :
    Json.parse artifacts.definitionText = .ok artifacts.keptDefinition.encode :=
  h.parse_pretty_line

/-- The text in which a readable definition is kept is loaded as this definition. -/
theorem parse_definitionText {artifacts : Artifacts} (h : artifacts.keptDefinition.Readable) :
    Definition.parse artifacts.definitionText = .ok artifacts.keptDefinition :=
  h.parse_of_encode (Artifacts.json_definitionText h.storable_encode.faithful)

/-! ### Checking again -/

/-- The certificate authority is checked for being complete and for nothing else. -/
theorem violation?_with_complete {definition : Definition} (sound : definition.violation? = none)
    {certificates : CertificateProfile} (complete : certificates.isComplete = true) :
    { definition with certificates := some certificates : Definition }.violation? = none := by
  unfold Definition.violation? at sound ⊢
  have passes : (some certificates).any (fun profile => !profile.isComplete) = false := by
    simp [complete]
  rw [passes]
  split at sound
  · cases sound
  · exact sound

theorem not_isEmpty_of_isComplete {certificates : CertificateProfile}
    (complete : certificates.isComplete = true) : certificates.isEmpty = false := by
  unfold CertificateProfile.isComplete at complete
  unfold CertificateProfile.isEmpty
  simp only [Bool.and_eq_true, Bool.not_eq_true'] at complete
  rw [complete.1, Bool.false_and]

/-- The output directory depends on two options and the DNS prefix. -/
theorem outputDirectory_congr {options options' : Options} {definition definition' : Definition}
    (directory : options'.outputDirectory = options.outputDirectory)
    (root : options'.outputRoot = options.outputRoot)
    (dnsPrefix : definition'.dnsPrefix = definition.dnsPrefix) :
    outputDirectory options' definition' = outputDirectory options definition := by
  unfold outputDirectory
  rw [directory, root, dnsPrefix]

/-- A definition with the authority that was used is validated again, in the same output
directory. -/
theorem check_again {request : Request} {files later : Files} {validated : Validated}
    {report : Report} {text : String} {certificates : CertificateProfile}
    (checked : check request files = .ok validated)
    (complete : certificates.isComplete = true)
    (stored : later.readText (request.again report).options.definitionPath = .ok text)
    (loaded : Definition.parse text
      = .ok { validated.definition with certificates := some certificates }) :
    ∃ again : Validated, check (request.again report) later = .ok again ∧
      again.definition = { validated.definition with certificates := some certificates } ∧
        again.outputDirectory = validated.outputDirectory := by
  obtain ⟨definition, -, validates⟩ := check_eq_ok_iff.mp checked
  obtain ⟨-, settled, -⟩ := validate_eq_ok_iff.mp validates
  obtain ⟨_, same⟩ := definition_of_validate validates
  let again : Validated :=
    { definition := { validated.definition with certificates := some certificates }
      source := (request.again report).options.definitionPath
      outputDirectory := validated.outputDirectory
      sound := violation?_with_complete validated.sound complete }
  refine ⟨again, check_eq_ok_iff.mpr ⟨again.definition, ?_, ?_⟩, rfl, rfl⟩
  · rw [loadDefinition_eq stored, loaded]
  · refine validate_eq_ok_iff.mpr ⟨?_, ?_, rfl, none, rfl, ?_⟩
    · exact pathExists_of_readText stored
    · rw [← settled]
      refine outputDirectory_congr rfl rfl ?_
      show validated.definition.dnsPrefix = (request.merge definition).dnsPrefix
      rw [same]
      rfl
    · show again.definition
        = { again.definition with certificates := (some certificates).filter (!·.isEmpty) }
      rw [Option.filter_some, not_isEmpty_of_isComplete complete]
      rfl

/-! ### Generating again -/

variable {issues issues' : Nat → Issue} {disk : Disk} {catalog catalog' : Catalog}

/-- The authority that was used, as a profile of the kept definition, gives the same texts,
and none is issued. -/
theorem generate_again {validated again : Validated} {certificates : CertificateProfile}
    (kept : again.definition = { validated.definition with certificates := some certificates })
    (complete : certificates.isComplete = true) (flavour : Flavour)
    (authority : Option CertificateProfile) (world : World) :
    generate issues' catalog' again flavour world
      = (.ok { Generated.of validated.definition certificates flavour authority with
          authority := none }, world) := by
  have own : again.definition.certificates = some certificates := by rw [kept]
  rw [generate_of_complete own complete, kept]
  rfl

/-- The kept definition has the authority that was used, wherever it came from, and this
authority is complete. -/
theorem keptDefinition_eq {request : Request} {world : World}
    (complete : ∀ number authority, issues number = .ok authority → authority.isComplete = true)
    (stages : Stages (builtinTools issues disk catalog) request world) :
    ∃ certificates, certificates.isComplete = true ∧
      stages.generated = .of stages.validated.definition certificates
        (Flavour.ofClassic request.options.classic) stages.generated.authority ∧
      stages.artifacts.keptDefinition
        = { stages.validated.definition with certificates := some certificates } := by
  obtain ⟨certificates, generated, -, origin⟩ := generate_eq_ok stages.generates
  have kept : stages.artifacts.keptDefinition = { stages.validated.definition with
      certificates := stages.generated.authority <|> stages.validated.definition.certificates } :=
    rfl
  rcases origin with ⟨noAuthority, completed, own⟩ | ⟨authority, number, issued⟩
  · refine ⟨certificates, completed, generated, ?_⟩
    rw [kept, noAuthority, own]
    rfl
  · refine ⟨certificates, complete number certificates issued, generated, ?_⟩
    rw [kept, authority]
    rfl

/-! ### Runs into a directory `out` -/

/-- A run that writes all artifacts into a directory `out`, without formatting them, succeeds if
these files can be written there. -/
theorem exists_stages_out {request : Request} {world between : World} {validated : Validated}
    {generated : Generated} {authority : Option CertificateProfile}
    (generates : generate issues catalog validated (Flavour.ofClassic request.options.classic) world
      = (.ok generated, between))
    (checked : check request world.files = .ok validated)
    (issued : generated.authority = authority)
    (directory : validated.outputDirectory = "out")
    (full : request.options.parametersOnly = false)
    (plain : request.options.prettyPrint = false)
    (writable : ∀ definition template parameters, (Artifacts.performAll disk catalog world.files
      (Artifacts.outSteps definition template parameters authority)).1 = .ok ()) :
    ∃ stages : Stages (builtinTools issues disk catalog) request world,
      stages.validated = validated ∧ stages.generated = generated ∧
        stages.later.files = (Artifacts.performAll disk catalog world.files (Artifacts.outSteps
          stages.artifacts.definitionText generated.template generated.parameters
            authority)).2 := by
  obtain ⟨-, -, unchanged, -⟩ := generate_eq_ok generates
  let artifacts := validated.artifacts request.options generated
    (generated.template, generated.parameters)
  have steps : artifacts.steps = Artifacts.outSteps artifacts.definitionText generated.template
      generated.parameters authority := by
    rw [← issued]
    exact Artifacts.steps_eq_outSteps directory full rfl
  have written : artifacts.writeTo disk catalog between.files
      = (.ok (), (Artifacts.performAll disk catalog world.files (Artifacts.outSteps
          artifacts.definitionText generated.template generated.parameters authority)).2) := by
    rw [Artifacts.writeTo, steps, unchanged]
    exact Prod.ext (writable _ _ _) rfl
  exact ⟨.unformatted checked generates plain written, rfl, rfl, rfl⟩

def Files.soleDocument (document : ByteArray) : Files where
  entries := [([], .directory), (["c.json"], .file document 0o644)]
  home := []

theorem Files.readText_soleDocument (text : String) :
    (soleDocument text.toUTF8).readText "c.json" = .ok text :=
  @readText_of_resolve _ _ _ ["c.json"] 0o644 rfl

theorem writable_soleDocument (document : ByteArray) (authority : CertificateProfile)
    (definition template parameters : String) :
    (Artifacts.performAll .reliable {} (.soleDocument document)
      (Artifacts.outSteps definition template parameters (some authority))).1 = .ok () := rfl

/-- A run in the directory of a sole document that issues an authority and writes all artifacts
into a new directory, without formatting them. -/
theorem run_soleDocument {request : Request} {validated : Validated} {document : ByteArray}
    (checked : check request (.soleDocument document) = .ok validated)
    (directory : validated.outputDirectory = "out")
    (noAuthority : validated.definition.certificates = none)
    (full : request.options.parametersOnly = false)
    (unformatted : request.options.prettyPrint = false) :
    let world : World := { files := .soleDocument document, issued := 0 }
    (run (builtinTools markedIssues .reliable {}) request world).result
      = .ok ⟨"out", validated.definition.version, true, .done⟩ := by
  intro world
  have generates : generate markedIssues {} validated (Flavour.ofClassic request.options.classic)
      world = _ := generate_of_none noAuthority rfl _
  have writable := writable_soleDocument document (markedAuthority 1)
  obtain ⟨stages, same, generated, -⟩ :=
    exists_stages_out generates checked rfl directory full unformatted writable
  have report : stages.report = ⟨"out", validated.definition.version, true, .done⟩ := by
    unfold Stages.report
    rw [same, generated, directory]
    rfl
  rw [run_eq_of_stages stages, report]

/-! ### Running again -/

/-- The stages of the second run. They give what those of the first run gave, except that no
authority is issued. -/
theorem exists_stages_again {request : Request} {world : World}
    (complete : ∀ number authority, issues number = .ok authority → authority.isComplete = true)
    (full : request.options.parametersOnly = false)
    (stages : Stages (builtinTools issues disk catalog) request world)
    (readable : stages.validated.definition.Readable) :
    ∃ again : Stages (builtinTools issues' .reliable catalog') (request.again stages.report)
        stages.later,
      again.later = stages.later ∧ again.report = { stages.report with certsGenerated := false } ∧
        again.artifacts.contents = stages.artifacts.contents ∧
          Artifacts.Kept stages.later.files stages.report.outputDirectory
            stages.artifacts.contents := by
  obtain ⟨certificates, completed, generated, kept⟩ := keptDefinition_eq complete stages
  obtain ⟨wrote, -⟩ := writeTo_of_write stages.writes
  obtain ⟨keptFiles, rewrite⟩ := Artifacts.writeTo_again full wrote
  -- the second run loads the definition that the first one has kept
  obtain ⟨location, held⟩ := keptFiles (Artifacts.definitionFile, stages.artifacts.definitionText)
    List.mem_cons_self
  have loaded : Definition.parse stages.artifacts.definitionText
      = .ok { stages.validated.definition with certificates := some certificates } := by
    rw [← kept]
    exact parse_definitionText (kept ▸ readable.congr rfl rfl rfl)
  obtain ⟨validated, checked, definition, directory⟩ :=
    @check_again request _ _ _ stages.report _ _ stages.checked completed held.readText loaded
  -- it generates the same texts, so it has the same contents to write
  let generated' : Generated := { stages.generated with authority := none }
  let rewritten := validated.artifacts (request.again stages.report).options generated'
    stages.texts
  have generates : generate issues' catalog' validated
      (Flavour.ofClassic request.options.classic) stages.later
        = (.ok generated', stages.later) := by
    rw [generate_again definition completed _ stages.generated.authority, ← generated]
  have same : rewritten.contents = stages.artifacts.contents := by
    have sameDefinition : rewritten.keptDefinition = stages.artifacts.keptDefinition :=
      Eq.trans rfl (definition.trans kept.symm)
    unfold Artifacts.contents Artifacts.definitionText
    rw [sameDefinition]
    rfl
  have writes : (builtinTools issues' .reliable catalog').write rewritten stages.later
      = (.ok (), stages.later) := by
    have done := rewrite rewritten catalog' full rfl directory same
    simp only [builtinTools, done]
  let again : Stages (builtinTools issues' .reliable catalog') (request.again stages.report)
      stages.later :=
    { validated, generated := generated', texts := stages.texts, formatted := stages.formatted
      between := stages.later, later := stages.later, checked, generates, writes
      formats := (postProcess_congr rfl rfl).trans stages.formats }
  have report : again.report = { stages.report with certsGenerated := false } := by
    show Report.mk validated.outputDirectory validated.definition.version false .done = _
    rw [directory, definition]
    rfl
  exact ⟨again, rfl, report, same, keptFiles⟩

/-- **A run on what another run has kept changes nothing.** Let a run with the built-in tools
that writes all artifacts succeed, on whatever disk, on a document with integers and plain names,
where every authority that is issued has a certificate and a key. Then a run on the definition in
its output directory, without an authority or replacements and on a disk that does not fail,
succeeds with the same report, except that no certificates were generated. It makes the same
directory and writes the definition, the template and the parameters with the same contents,
which are there already, and nothing else; it leaves all files, and the number of issued
authorities, as they were. -/
theorem run_again {request : Request} {world : World} {text : String} {document : Json}
    {report : Report}
    (complete : ∀ number authority, issues number = .ok authority → authority.isComplete = true)
    (full : request.options.parametersOnly = false)
    (stored : world.files.readText request.options.definitionPath = .ok text)
    (read : Json.parse text = .ok document) (whole : document.wholeNumbers)
    (plain : document.plainNames)
    (succeeded : (run (builtinTools issues disk catalog) request world).result = .ok report) :
    let first := run (builtinTools issues disk catalog) request world
    let again := run (builtinTools issues' .reliable catalog') (request.again report) first.world
    again.result = .ok { report with certsGenerated := false } ∧ again.world = first.world ∧
      ∃ written rewritten : Artifacts,
        .write written ∈ first.calls ∧ .write rewritten ∈ again.calls ∧
          rewritten.steps = .makeDirectory report.outputDirectory
            :: Artifacts.writes report.outputDirectory written.contents ∧
          ∀ file ∈ written.contents,
            first.world.files.readText (Path.join report.outputDirectory file.1)
              = .ok file.2 := by
  intro first again
  obtain ⟨stages, rfl⟩ := stages_of_run succeeded
  have readable := readable_of_check stored read whole plain stages.checked
  obtain ⟨second, later, report, same, kept⟩ :=
    @exists_stages_again _ issues' _ _ catalog' _ _ complete full stages readable
  have ended : first = _ := run_eq_of_stages stages
  have world' : first.world = stages.later := by rw [ended]
  have repeated : again = _ :=
    (congrArg (run (builtinTools issues' .reliable catalog') (request.again stages.report))
      world').trans (run_eq_of_stages second)
  have noCerts : second.artifacts.certsGenerated = false := congrArg Report.certsGenerated report
  have directory : second.artifacts.outputDirectory = stages.report.outputDirectory :=
    congrArg Report.outputDirectory report
  rw [repeated, ended]
  refine ⟨congrArg Except.ok report, later, stages.artifacts, second.artifacts, ?_, ?_, ?_, ?_⟩
  · exact List.mem_append_right _ List.mem_cons_self
  · exact List.mem_append_right _ List.mem_cons_self
  · rw [Artifacts.steps_eq full, same, directory, noCerts, if_neg (by decide), List.append_nil]
  · intro file mem
    obtain ⟨location, held⟩ := kept file mem
    exact held.readText

/-- A run that renames the cluster, makes the output directory and issues an authority, and
the run on what it has kept. -/
theorem run_again_issued :
    let document : Json := .object
      [ ("apiVersion", .string "vlabs"),
        ("properties", .object
          [("masterProfile", .object [("dnsPrefix", .string "m"), ("subnet", .string "")])]) ]
    let request : Request :=
      { options :=
          { definitionPath := "c.json", outputDirectory := some "out", prettyPrint := false }
        overrides := some { dnsPrefix := "n", sshPublicKey := "k" } }
    let world : World :=
      { files :=
          { entries := [([], .directory), (["c.json"], .file document.compact.toUTF8 0o644)]
            home := [] }
        issued := 0 }
    let report : Report := ⟨"out", .vlabs, true, .done⟩
    let first := run (builtinTools markedIssues .reliable {}) request world
    let again := run (builtinTools markedIssues .reliable {}) (request.again report) first.world
    first.result = .ok report ∧ again.result = .ok { report with certsGenerated := false } ∧
      again.world = first.world := by
  intro document request world report
  have whole : document.wholeNumbers := by decide
  have plain : document.plainNames := by decide
  have read : Json.parse document.compact = .ok document :=
    Json.parse_compact whole (by decide) (by decide)
  have stored : world.files.readText "c.json" = .ok document.compact :=
    Files.readText_soleDocument _
  let validated : Validated :=
    { definition :=
        { version := .vlabs, controlPlane := .managed { dnsPrefix := "n" }
          linux := some { sshKeys := ["k"] } }
      source := "c.json", outputDirectory := "out", sound := rfl }
  have checked : check request world.files = .ok validated := by
    refine check_eq_ok_iff.mpr
      ⟨{ version := .vlabs, controlPlane := .managed { dnsPrefix := "m" } }, ?_, ?_⟩
    · exact (loadDefinition_eq stored).trans
        ((Definition.parse_eq_ofValue read whole plain).trans rfl)
    · exact validate_eq_ok_iff.mpr ⟨pathExists_of_readText stored, rfl, rfl, none, rfl, rfl⟩
  have succeeded : (run (builtinTools markedIssues .reliable {}) request world).result
      = .ok report := run_soleDocument checked rfl rfl rfl rfl
  obtain ⟨same, unchanged, -⟩ := run_again (fun _ _ => isComplete_of_markedIssues) rfl stored read
    whole plain succeeded
  exact ⟨succeeded, same, unchanged⟩

end Provision
