import Mathlib.Logic.Relation
import Provision.Proofs.Cluster.Stated
import Provision.Proofs.Deployment.Revision

/-!
The dialect and the control plane of a definition, from the document on.

The document settles both (`Provision.Proofs.Cluster.Stated`), and no later edit changes the dialect
or the kind of the control plane: `kind_of_edit` for one edit, `kind_of_edits` for any number of
them. So a hosted control plane stays with a dialect that knows it. A change of the dialect is no
edit in this sense, and neither is writing a definition and reading it again.
-/

namespace Provision

/-- Whether a revision is an edit of parts of a definition: new overrides, a new DNS prefix, new
certificates, or validation. -/
def Revision.isEdit : Revision → Bool
  | override _ | dnsPrefix _ | certificates _ | settle _ => true
  | version _ | reread _ => false

namespace Definition

/-- The second definition is the first one after an edit that succeeded. Every edit is made on
files of its own. -/
def Edit (earlier later : Definition) : Prop :=
  ∃ (revision : Revision) (files : Files), revision.isEdit ∧
    revision.apply files earlier = .ok later

/-- Definitions have the same dialect and the same kind of control plane. -/
def SameKind (first second : Definition) : Prop :=
  second.version = first.version ∧ second.controlPlane.isHosted = first.controlPlane.isHosted

/-- One edit. -/
theorem kind_of_edit {earlier later : Definition} (edit : Edit earlier later) :
    SameKind earlier later := by
  obtain ⟨revision, files, edits, applied⟩ := edit
  cases revision with
  | override overrides =>
      cases applied
      exact ⟨rfl, ControlPlane.isHosted_withDnsPrefix _ _⟩
  | dnsPrefix name =>
      cases applied
      exact ⟨rfl, ControlPlane.isHosted_withDnsPrefix _ _⟩
  | certificates profile =>
      cases applied
      exact ⟨rfl, rfl⟩
  | settle options =>
      obtain ⟨certificates, rfl⟩ := Revision.apply_settle applied
      exact ⟨rfl, rfl⟩
  | version dialect => cases edits
  | reread spacing => cases edits

/-- Any number of edits. -/
theorem kind_of_edits {definition edited : Definition}
    (run : Relation.ReflTransGen Edit definition edited) : SameKind definition edited := by
  induction run with
  | refl => exact ⟨rfl, rfl⟩
  | tail _ edit ih =>
      obtain ⟨version, hosted⟩ := kind_of_edit edit
      exact ⟨version.trans ih.1, hosted.trans ih.2⟩

/-- **The dialect and the control plane are as the document states them, and stay so.** Any text is
read as a definition or refused with an error of the schema. An object with properties, and without
double quotes in names, is refused if it misstates the dialect or the control plane; a definition
that is read from it has a control plane of the one kind that is stated. After any number of edits a
definition has the dialect and the kind of control plane that it was read with, and a hosted one
only under a dialect that knows it. -/
theorem kind_stated_and_kept (text : String) :
    ((∃ definition, Definition.parse text = .ok definition) ∨
      ∃ field message, Definition.parse text = .error (.schema field message)) ∧
    (∀ members properties : Members, Json.parse text = .ok (.object members) →
      (Json.object members).plainNames →
        members.find? "properties" = some (.object properties) →
          (Misstated members properties →
            ∃ field message, Definition.parse text = .error (.schema field message)) ∧
          ∀ definition, Definition.parse text = .ok definition →
            (definition.controlPlane.isHosted = true ↔
              properties.States "hostedMasterProfile") ∧
            (definition.controlPlane.isHosted = false ↔ properties.States "masterProfile")) ∧
    ∀ definition edited, Definition.parse text = .ok definition →
      Relation.ReflTransGen Edit definition edited →
        edited.version = definition.version ∧
          edited.controlPlane.isHosted = definition.controlPlane.isHosted ∧
            (edited.controlPlane.isHosted → edited.version.supportsHosted) := by
  refine ⟨Definition.parse_ok_or_schema text, ?_, ?_⟩
  · intro members properties read plain there
    exact ⟨Definition.error_of_misstated read plain there,
      fun definition accepted => Definition.states_of_parse read plain accepted there⟩
  · intro definition edited accepted run
    obtain ⟨version, kind⟩ := kind_of_edits run
    refine ⟨version, kind, ?_⟩
    intro hosted
    rw [version]
    exact Definition.supportsHosted_of_parse accepted (kind ▸ hosted)

/-- A hosted control plane under a dialect that knows it, renamed and then given certificates; and
the same document under an older dialect, which is refused. -/
theorem kind_stated_and_kept_hosted :
    let properties : Members :=
      [("masterProfile", .null), ("hostedMasterProfile", .object [("dnsPrefix", .string "old")])]
    let early : Members := [("apiVersion", .string "v1"), ("properties", .object properties)]
    let members : Members := [("apiVersion", .string "vlabs"), ("properties", .object properties)]
    let definition : Definition :=
      { version := .vlabs, controlPlane := .hosted { dnsPrefix := "old" } }
    let edited : Definition :=
      { version := .vlabs
        controlPlane := .hosted { dnsPrefix := "new" }
        certificates := some { certificate := "c", privateKey := "k" } }
    (∃ field message,
      Definition.parse (Json.object early).pretty = .error (.schema field message)) ∧
    Definition.parse (Json.object members).pretty = .ok definition ∧
      properties.States "hostedMasterProfile" ∧ ¬ properties.States "masterProfile" ∧
        Relation.ReflTransGen Edit definition edited ∧
          edited.controlPlane.isHosted ∧ edited.version.supportsHosted := by
  intro properties early members definition edited
  have readEarly : Json.parse (Json.object early).pretty = .ok (.object early) :=
    Json.parse_pretty (by decide) (by decide) (by decide)
  have read : Json.parse (Json.object members).pretty = .ok (.object members) :=
    Json.parse_pretty (by decide) (by decide) (by decide)
  have accepted : Definition.parse (Json.object members).pretty = .ok definition :=
    (Definition.parse_eq_ofValue read (by decide) (by decide)).trans rfl
  let files : Files := { entries := [], home := [] }
  have renamed : Edit definition
      { version := .vlabs, controlPlane := .hosted { dnsPrefix := "new" } } :=
    ⟨.dnsPrefix "new", files, rfl, rfl⟩
  have certified : Edit
      { version := .vlabs, controlPlane := .hosted { dnsPrefix := "new" } } edited :=
    ⟨.certificates (some { certificate := "c", privateKey := "k" }), files, rfl, rfl⟩
  have run : Relation.ReflTransGen Edit definition edited :=
    (Relation.ReflTransGen.single renamed).tail certified
  have hostedStated : properties.States "hostedMasterProfile" := ⟨_, rfl, nofun⟩
  have misstated : Misstated early properties :=
    .hostedTooEarly "v1" rfl (by decide) hostedStated
  obtain ⟨-, ofEarly, -⟩ := kind_stated_and_kept (Json.object early).pretty
  obtain ⟨-, ofStated, ofEdits⟩ := kind_stated_and_kept (Json.object members).pretty
  obtain ⟨refused, -⟩ := ofEarly early properties readEarly (by decide) rfl
  obtain ⟨-, stated⟩ := ofStated members properties read (by decide) rfl
  obtain ⟨hosted, managed⟩ := stated definition accepted
  obtain ⟨-, kind, known⟩ := ofEdits definition edited accepted run
  refine ⟨refused misstated, accepted, hosted.mp rfl, ?_, run, kind, known kind⟩
  intro managedStated
  cases managed.mpr managedStated

end Definition

end Provision
