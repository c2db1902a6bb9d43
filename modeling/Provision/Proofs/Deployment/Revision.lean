import Provision.Deployment.Revision
import Provision.Proofs.Cluster.Readable
import Provision.Proofs.Deployment.Validation

/-!
Revised definitions are written and read again without loss.

A definition that was read is readable (`Definition.readable_of_parse`), a revision that
keeps the dialect keeps it readable (`Revision.readable_apply`), and a readable definition
is given back by its own texts (`Definition.Readable.parse_text`). So this holds after any
number of revisions, in any order: `parse_text_of_revisedTo`.

A change of the dialect is left out: a hosted control plane is refused in a document of a
dialect that does not know it, but the revision does not check this.
-/

namespace Provision

def Revision.keepsDialect : Revision → Bool
  | version _ => false
  | _ => true

/-- The second definition was made from the first by revisions that succeeded and kept the
dialect. Every revision is made on files of its own. -/
inductive RevisedTo : Definition → Definition → Prop
  | unrevised {definition : Definition} : RevisedTo definition definition
  | revised {definition earlier later : Definition} {revision : Revision} {files : Files}
      (before : RevisedTo definition earlier) (keeps : revision.keepsDialect)
      (applied : revision.apply files earlier = .ok later) : RevisedTo definition later

/-- A readable definition is given back by each of its texts. -/
theorem Definition.Readable.parse_text {definition : Definition} (h : definition.Readable)
    (spacing : Spacing) : Definition.parse (definition.text spacing) = .ok definition := by
  have storable := h.storable_encode
  cases spacing with
  | compact =>
      exact h.parse_of_encode
        (Json.parse_compact storable.whole storable.distinct storable.bound)
  | pretty =>
      exact h.parse_of_encode
        (Json.parse_pretty storable.whole storable.distinct storable.bound)

/-- Settling touches nothing of a definition but its certificate profile. -/
theorem Revision.apply_settle {files : Files} {options : Options} {definition revised : Definition}
    (applied : Revision.apply files definition (.settle options) = .ok revised) :
    ∃ certificates, revised = { definition with certificates } := by
  simp only [Revision.apply] at applied
  cases validation : validate files options definition with
  | error error =>
      rw [validation] at applied
      cases applied
  | ok validated =>
      rw [validation] at applied
      cases applied
      exact definition_of_validate validation

/-- One revision. -/
theorem Revision.readable_apply {revision : Revision} {files : Files}
    {definition revised : Definition} (h : definition.Readable) (keeps : revision.keepsDialect)
    (applied : revision.apply files definition = .ok revised) : revised.Readable := by
  cases revision with
  | override overrides =>
      cases applied
      exact h.congr rfl (ControlPlane.isHosted_withDnsPrefix _ _) rfl
  | dnsPrefix name =>
      cases applied
      exact h.congr rfl (ControlPlane.isHosted_withDnsPrefix _ _) rfl
  | version dialect => cases keeps
  | certificates profile =>
      cases applied
      exact h.congr rfl rfl rfl
  | reread spacing =>
      cases (h.parse_text spacing).symm.trans applied
      exact h
  | settle options =>
      obtain ⟨certificates, rfl⟩ := Revision.apply_settle applied
      exact h.congr rfl rfl rfl

/-- Any number of revisions. -/
theorem RevisedTo.readable {definition revised : Definition} (run : RevisedTo definition revised)
    (h : definition.Readable) : revised.Readable := by
  induction run with
  | unrevised => exact h
  | revised _ keeps applied ih => exact Revision.readable_apply ih keeps applied

/-- **Writing and reading is the identity on revised definitions.** From a document with
integers and plain names, take the definition that it states, and revise it any number of
times. Either text of the result is read as exactly this result, with the properties that no
profile covers in their order, and so is written again as the same text. -/
theorem parse_text_of_revisedTo {text : String} {document : Json}
    {definition revised : Definition} (read : Json.parse text = .ok document)
    (whole : document.wholeNumbers) (plain : document.plainNames)
    (accepted : Definition.parse text = .ok definition) (run : RevisedTo definition revised)
    (spacing : Spacing) :
    Definition.parse (revised.text spacing) = .ok revised :=
  (run.readable (Definition.readable_of_parse read whole plain accepted)).parse_text spacing

/-- A document with properties of its own, one of them a subnet that moves and one with an
empty subnet that goes, under a new DNS prefix and then new certificates. -/
theorem parse_text_of_revisedTo_renewed :
    let document : Json := .object
      [ ("apiVersion", .string "vlabs"),
        ("properties", .object
          [ ("zones", .array [.number (.integer 3 (by decide)), .null]),
            ("masterProfile", .object [("dnsPrefix", .string "old"), ("subnet", .string "")]),
            ("subnet", .string "10.0.0.0/8"),
            ("note", .object [("text", .string "\""), ("subnet", .string "")]) ]) ]
    let definition : Definition :=
      { version := .vlabs
        controlPlane := .managed { dnsPrefix := "old" }
        extra :=
          [ ("subnet", .string "10.0.0.0/8"),
            ("zones", .array [.number (.integer 3 (by decide)), .null]),
            ("note", .object [("text", .string "\"")]) ] }
    let revised : Definition :=
      { definition with
        controlPlane := .managed { dnsPrefix := "new" }
        certificates := some { certificate := "c", privateKey := "k" } }
    Json.parse document.pretty = .ok document ∧ document.wholeNumbers ∧ document.plainNames ∧
      Definition.parse document.pretty = .ok definition ∧ RevisedTo definition revised ∧
        Definition.parse (revised.text .compact) = .ok revised := by
  intro document definition revised
  have read : Json.parse document.pretty = .ok document :=
    Json.parse_pretty (by decide) (by decide) (by decide)
  have whole : document.wholeNumbers := by decide
  have plain : document.plainNames := by decide
  have accepted : Definition.parse document.pretty = .ok definition :=
    (Definition.parse_eq_ofValue read whole plain).trans rfl
  let files : Files := { entries := [], home := [] }
  have renamed : RevisedTo definition { definition with
      controlPlane := .managed { dnsPrefix := "new" } } :=
    @RevisedTo.revised _ _ _ (.dnsPrefix "new") files .unrevised rfl rfl
  have run : RevisedTo definition revised :=
    @RevisedTo.revised _ _ _ (.certificates (some { certificate := "c", privateKey := "k" }))
      files renamed rfl rfl
  exact ⟨read, whole, plain, accepted, run,
    parse_text_of_revisedTo read whole plain accepted run .compact⟩

end Provision
