import Provision.Proofs.Cluster.Properties
import Provision.Proofs.Deployment.Rerun

/-!
Properties that no profile covers, from a document to the definition that is kept of it.

* `uninterpreted_kept` — a definition holds these properties as the document has them, up to the
  order of members, and a run keeps them exactly as the definition holds them. The properties
  have to hold integers and must not have an empty subnet that loading drops, and no member of
  the document may be severed (`Json.unsevered`).
* `not_same_extra_spare` — an empty subnet is lost, however deep it is among these properties.
-/

namespace Provision

variable {issues : Nat → Issue} {disk : Disk} {catalog : Catalog} {request : Request}
  {text : String}

theorem Request.extra_merge (request : Request) (definition : Definition) :
    (request.merge definition).extra = definition.extra := by
  unfold merge
  split
  · rfl
  · rfl

theorem extra_of_validate {files : Files} {definition : Definition} {validated : Validated}
    (validates : validate files request.options (request.merge definition) = .ok validated) :
    validated.definition.extra = definition.extra := by
  obtain ⟨certificates, same⟩ := definition_of_validate validates
  rw [same]
  exact request.extra_merge definition

/-- What passes the first two stages has the properties of the definition that was loaded. -/
theorem extra_of_check {files : Files} {definition : Definition} {validated : Validated}
    (stored : files.readText request.options.definitionPath = .ok text)
    (accepted : Definition.parse text = .ok definition)
    (checked : check request files = .ok validated) :
    validated.definition.extra = definition.extra := by
  obtain ⟨other, loaded, validates⟩ := check_eq_ok_iff.mp checked
  rw [loadDefinition_eq stored, accepted] at loaded
  obtain rfl := Except.ok.inj loaded
  exact extra_of_validate validates

/-- What passes the first two stages is legible, whatever the document is. -/
theorem legible_of_check {files : Files} {validated : Validated}
    (checked : check request files = .ok validated) : validated.definition.Legible := by
  obtain ⟨definition, loaded, validates⟩ := check_eq_ok_iff.mp checked
  obtain ⟨text, accepted⟩ := exists_parse_of_loadDefinition loaded
  exact (Definition.legible_of_parse accepted).congr (extra_of_validate validates)

/-- A run leaves its artifacts in the output directory. -/
theorem readText_of_texts {world : World}
    (stages : Stages (builtinTools issues disk catalog) request world)
    {name content : String} (mem : (name, content) ∈ stages.artifacts.texts) :
    (run (builtinTools issues disk catalog) request world).world.files.readText
        (Path.join stages.report.outputDirectory name) = .ok content := by
  obtain ⟨wrote, -⟩ := writeTo_of_write stages.writes
  obtain ⟨location, held⟩ := Artifacts.holds_of_performAll stages.artifacts.distinct_steps wrote
    (Artifacts.write_mem_steps mem)
  rw [run_eq_of_stages stages]
  exact held.readText

/-- A run that writes all artifacts leaves the text of the kept definition in the output
directory. -/
theorem readText_of_stages {world : World} (full : request.options.parametersOnly = false)
    (stages : Stages (builtinTools issues disk catalog) request world) :
    (run (builtinTools issues disk catalog) request world).world.files.readText
        (Path.join stages.report.outputDirectory Artifacts.definitionFile)
      = .ok stages.artifacts.definitionText :=
  readText_of_texts stages (Artifacts.definition_mem_texts full)

/-- **Properties that no profile covers are kept.** Let a document be accepted none of whose
members is severed, and let its properties that no profile covers hold integers and no spare
empty subnets. Then the definition holds exactly these properties, with the values of the
document up to the order of members; and every run on the document that succeeds and writes all
artifacts leaves a definition in its output directory that is JSON with exactly these properties
besides its profiles. -/
theorem uninterpreted_kept {document : Json} {definition : Definition}
    (read : Json.parse text = .ok document) (whole : document.subnetFirst.unsevered)
    (integers : ∀ member ∈ document.uninterpreted, member.2.wholeNumbers)
    (spareless : ∀ member ∈ document.uninterpreted,
      Json.isEmptySubnet member = false ∧ member.2.noSpareSubnets)
    (accepted : Definition.parse text = .ok definition) :
    Json.Same (.object document.uninterpreted) (.object definition.extra) ∧
      ∀ (issues : Nat → Issue) (catalog : Catalog) (request : Request) (world : World)
        (report : Report),
        world.files.readText request.options.definitionPath = .ok text →
          request.options.parametersOnly = false →
            (run (builtinTools issues disk catalog) request world).result = .ok report →
              ∃ keptText kept,
                (run (builtinTools issues disk catalog) request world).world.files.readText
                    (Path.join report.outputDirectory Artifacts.definitionFile) = .ok keptText ∧
                  Json.parse keptText = .ok kept ∧ kept.uninterpreted = definition.extra := by
  refine ⟨Definition.same_extra read whole integers accepted spareless, ?_⟩
  intro issues catalog request world report stored full succeeded
  obtain ⟨stages, rfl⟩ := stages_of_run succeeded
  have extra : stages.artifacts.keptDefinition.extra = definition.extra :=
    extra_of_check stored accepted stages.checked
  have writable := (Definition.writable_of_parse read whole integers accepted).congr extra
  refine ⟨_, _, readText_of_stages full stages,
    Artifacts.json_definitionText writable.faithful_encode, ?_⟩
  rw [writable.uninterpreted_encode, extra]

/-- A property with a quote in its name, and one whose subnet is moved, which a run keeps. -/
theorem uninterpreted_kept_network :
    let document := Json.object
      [ ("apiVersion", .string "vlabs"),
        ("properties", .object
          [ ("masterProfile", .object [("dnsPrefix", .string "m"), ("subnet", .string "")]),
            ("linuxProfile", .object
              [("ssh", .object [("publicKeys", .array [.object [("keyData", .string "k")]])])]),
            ("x\"y", .null),
            ("network", .object [("name", .string "n"), ("subnet", .string "10.0.0.0/8")]) ]) ]
    let definition : Definition :=
      { version := .vlabs, controlPlane := .managed { dnsPrefix := "m" }
        linux := some { sshKeys := ["k"] }
        extra :=
          [ ("x\"y", .null),
            ("network", .object [("subnet", .string "10.0.0.0/8"), ("name", .string "n")]) ] }
    let request : Request :=
      { options :=
          { definitionPath := "c.json", outputDirectory := some "out", prettyPrint := false }
        overrides := none }
    let world : World := { files := .soleDocument document.compact.toUTF8, issued := 0 }
    Definition.parse document.compact = .ok definition ∧
      (run (builtinTools markedIssues .reliable {}) request world).result
          = .ok ⟨"out", .vlabs, true, .done⟩ ∧
        Json.Same (.object document.uninterpreted) (.object definition.extra) ∧
          ∃ keptText kept,
            (run (builtinTools markedIssues .reliable {}) request world).world.files.readText
                (Path.join "out" Artifacts.definitionFile) = .ok keptText ∧
              Json.parse keptText = .ok kept ∧ kept.uninterpreted = definition.extra := by
  intro document definition request world
  have integers : document.wholeNumbers := by decide
  have read : Json.parse document.compact = .ok document :=
    Json.parse_compact integers (by decide) (by decide)
  have whole : document.subnetFirst.unsevered := of_decide_eq_true rfl
  have accepted : Definition.parse document.compact = .ok definition := by
    rw [Definition.parse_eq_ofValue_loaded read whole, Json.loaded_of_wholeNumbers integers]
    rfl
  have stored : world.files.readText "c.json" = .ok document.compact :=
    Files.readText_soleDocument _
  let validated : Validated :=
    { definition, source := "c.json", outputDirectory := "out", sound := rfl }
  have checked : check request world.files = .ok validated := by
    refine check_eq_ok_iff.mpr ⟨definition, (loadDefinition_eq stored).trans accepted, ?_⟩
    exact validate_eq_ok_iff.mpr ⟨pathExists_of_readText stored, rfl, rfl, none, rfl, rfl⟩
  have succeeded : (run (builtinTools markedIssues .reliable {}) request world).result
      = .ok ⟨"out", .vlabs, true, .done⟩ := run_soleDocument checked rfl rfl rfl rfl
  obtain ⟨same, kept⟩ := uninterpreted_kept read whole (by decide) (by decide) accepted
  exact ⟨accepted, succeeded, same, kept markedIssues {} request world _ stored rfl succeeded⟩

/-- **An empty subnet among the properties that no profile covers is lost**, although it is not
a member of a profile. -/
theorem not_same_extra_spare :
    let document := Json.object
      [ ("apiVersion", .string "vlabs"),
        ("properties", .object
          [ ("masterProfile", .object []),
            ("network", .object [("name", .string "n"), ("subnet", .string "")]) ]) ]
    let definition : Definition :=
      { version := .vlabs, controlPlane := .managed {}
        extra := [("network", .object [("name", .string "n")])] }
    Json.parse document.compact = .ok document ∧ document.subnetFirst.unsevered ∧
      (∀ member ∈ document.uninterpreted, member.2.wholeNumbers) ∧
        Definition.parse document.compact = .ok definition ∧
          ¬ Json.Same (.object document.uninterpreted) (.object definition.extra) := by
  intro document definition
  have integers : document.wholeNumbers := by decide
  have read : Json.parse document.compact = .ok document :=
    Json.parse_compact integers (by decide) (by decide)
  have others : document.uninterpreted
      = [("network", .object [("name", .string "n"), ("subnet", .string "")])] := rfl
  refine ⟨read, of_decide_eq_true rfl, by decide, ?_, ?_⟩
  · exact (Definition.parse_eq_ofValue read integers (by decide)).trans rfl
  · intro same
    rw [others] at same
    have inner := same.value List.mem_cons_self List.mem_cons_self
    exact absurd inner.names.length_eq (by decide)

end Provision
