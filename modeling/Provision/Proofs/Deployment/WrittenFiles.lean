import Provision.Proofs.Deployment.Placement
import Provision.Proofs.Deployment.Rerun
import Provision.Proofs.Deployment.Revision

/-!
What writing artifacts leaves.

`Artifacts.Written` lists it: the files in the location of the output directory, by the options
that ask for them, and that nothing else has changed but that directories were made on the way
there. Steps that succeed are taken apart with `performAll_append_eq_ok`, which finds the mode of
a private key in the last of them (`restricted_of_writeTo`) and the output directory in the first
(`isDirectory_of_writeTo`). The definition that is kept is read again under the version and with
the authority of the artifacts: `files_of_written`.
-/

namespace Provision.Artifacts

variable {artifacts : Artifacts} {disk : Disk} {catalog : Catalog} {files later : Files}

/-! ### The output directory -/

/-- The output directory is there, under any path that can be followed. -/
theorem isDirectory_of_writeTo {here : Location}
    (written : artifacts.writeTo disk catalog files = (.ok (), later))
    (leads : later.Leads artifacts.outputDirectory here)
    (found : later.lookup here = some .directory) (named : artifacts.outputDirectory ≠ "") :
    later.isDirectory artifacts.outputDirectory = true := by
  rw [writeTo, steps_eq_writes, ← List.singleton_append] at written
  obtain ⟨between, made, -⟩ := performAll_append_eq_ok written
  have created := Step.makeDirectory_eq_ok (performAll_singleton_eq_ok made)
  exact Files.isDirectory_of_leads (Files.refusal?_of_createAll created named) leads found

/-! ### The private key -/

/-- A file that is written and restricted in the end has the bits of a private file. -/
theorem restricted_of_performAll {steps : List Step} {path text : String}
    (distinct : (steps.filterMap Step.file?).Nodup) (mem : .write path text ∈ steps)
    (h : performAll disk catalog files (steps ++ [.restrict path]) = (.ok (), later)) :
    ∃ location, later.Leads path location ∧
      later.lookup location = some (.file text.toUTF8 privateMode) := by
  obtain ⟨between, wrote, closed⟩ := performAll_append_eq_ok h
  obtain ⟨location, held⟩ := holds_of_performAll distinct wrote mem
  have inside := (Files.getLast?_of_target held.target).2
  have restricted := held.eq_of_setMode (Step.restrict_eq_ok (performAll_singleton_eq_ok closed))
  have grows : Files.Grows between later := by
    obtain ⟨mode, found⟩ := held.entry
    rw [restricted]
    exact Files.grows_set inside (by simp [found])
  refine ⟨location, grows.leads held.leads, ?_⟩
  rw [restricted, Files.lookup_set between inside, if_pos rfl]

/-- A private key that was written is a private file. -/
theorem restricted_of_writeTo (written : artifacts.writeTo disk catalog files = (.ok (), later))
    (issued : artifacts.certsGenerated = true) :
    ∃ profile, (artifacts.authority <|> artifacts.definition.certificates) = some profile ∧
      ∃ location, later.Leads (artifacts.path privateKeyFile) location ∧
        later.lookup location = some (.file profile.privateKey.toUTF8 privateMode) := by
  have distinct := artifacts.distinct_steps
  rw [writeTo, steps_eq_writes, ← List.cons_append] at written
  rw [steps_eq_writes, ← List.cons_append, List.filterMap_append] at distinct
  have distinct := distinct.sublist (List.sublist_append_left _ _)
  unfold closing at written
  rw [if_pos issued] at written
  cases own : artifacts.authority <|> artifacts.definition.certificates with
  | none =>
      rw [own] at written
      obtain ⟨between, -, refused⟩ := performAll_append_eq_ok written
      cases performAll_singleton_eq_ok refused
  | some profile =>
      rw [own] at written
      have mem : .write (artifacts.path privateKeyFile) profile.privateKey
          ∈ writes artifacts.outputDirectory artifacts.texts :=
        List.mem_map_of_mem (authority_mem_texts issued own).2
      exact ⟨profile, rfl, restricted_of_performAll distinct (List.mem_cons_of_mem _ mem) written⟩

/-! ### All that writing leaves -/

/-- The names of the files that the options ask for. -/
def writtenNames (artifacts : Artifacts) : List String :=
  (if artifacts.parametersOnly then [] else [definitionFile, templateFile])
    ++ parametersFile :: if artifacts.certsGenerated then [certificateFile, privateKeyFile] else []

theorem mem_writtenNames {file : String × String} (mem : file ∈ artifacts.texts) :
    file.1 ∈ artifacts.writtenNames := by
  unfold writtenNames
  rcases name_of_mem_texts mem with ⟨full, name⟩ | name | ⟨issued, name⟩
  · rw [full]
    exact List.mem_append_left _ name
  · rw [name]
    exact List.mem_append_right _ List.mem_cons_self
  · rw [issued]
    exact List.mem_append_right _ (List.mem_cons_of_mem _ name)

/-- Artifacts are in the location `here` of their output directory: the parameters, the template
and the definition unless only parameters are asked for, and a certificate authority if one was
issued, the new one or else that of the definition. Everything else is as it was, but for
directories that were made on the way. -/
structure Written (artifacts : Artifacts) (files later : Files) (here : Location) : Prop where
  leads : later.Leads artifacts.outputDirectory here
  directory : later.lookup here = some .directory
  parameters : later.Holds (artifacts.path parametersFile) (here ++ [parametersFile])
    artifacts.parameters.toUTF8
  template : artifacts.parametersOnly = false →
    later.Holds (artifacts.path templateFile) (here ++ [templateFile]) artifacts.template.toUTF8
  definition : artifacts.parametersOnly = false →
    later.Holds (artifacts.path definitionFile) (here ++ [definitionFile])
      artifacts.definitionText.toUTF8
  authority : artifacts.certsGenerated = true → ∃ profile,
    (artifacts.authority <|> artifacts.definition.certificates) = some profile ∧
      later.Holds (artifacts.path certificateFile) (here ++ [certificateFile])
          profile.certificate.toUTF8 ∧
        later.Holds (artifacts.path privateKeyFile) (here ++ [privateKeyFile])
            profile.privateKey.toUTF8 ∧
          later.lookup (here ++ [privateKeyFile])
            = some (.file profile.privateKey.toUTF8 privateMode)
  others : ∀ location, (∀ name ∈ artifacts.writtenNames, location ≠ here ++ [name]) →
    later.lookup location = files.lookup location ∨
      files.lookup location = none ∧ later.lookup location = some .directory ∧
        later.OnTheWay artifacts.outputDirectory location

theorem written_of_writeTo (written : artifacts.writeTo disk catalog files = (.ok (), later)) :
    ∃ here, Written artifacts files later here := by
  obtain ⟨here, leads, held, -⟩ := contentAt_of_writeTo written
  have parameters := held (_, artifacts.parameters) artifacts.parameters_mem_texts
  refine ⟨here, leads, ?_, parameters, ?_, ?_, ?_, ?_⟩
  · obtain ⟨there, leads', stepped⟩ := (Files.leads_join_iff
      (isFileName_of_mem_texts artifacts.parameters_mem_texts)).mp parameters.leads
    exact leads.unique leads' ▸ Files.directory_of_step stepped
  · exact fun full => held (_, artifacts.template) (template_mem_texts full)
  · exact fun full => held (_, artifacts.definitionText) (definition_mem_texts full)
  · intro issued
    obtain ⟨profile, own, location, key, found⟩ := restricted_of_writeTo written issued
    obtain ⟨certificate, privateKey⟩ := authority_mem_texts issued own
    obtain ⟨there, leads', rfl⟩ :=
      Files.location_of_leads_join (isFileName_of_mem_texts privateKey) key
    obtain rfl := leads.unique leads'
    exact ⟨profile, own, held (_, profile.certificate) certificate,
      held (_, profile.privateKey) privateKey, found⟩
  · intro location other
    have entries := entries_writeTo artifacts disk catalog files location
    rw [written] at entries
    rcases entries with same | made | ⟨there, leads', file, mem, same⟩
    · exact .inl same
    · exact .inr made
    · obtain rfl := leads.unique leads'
      exact absurd same (other _ (mem_writtenNames mem))

/-! ### The definition that is kept -/

/-- A definition stays readable under any version that supports its control plane and with any
authority. -/
theorem readable_keptDefinition (h : artifacts.definition.Readable)
    (supported : artifacts.definition.controlPlane.isHosted → artifacts.version.supportsHosted) :
    artifacts.keptDefinition.Readable where
  hosted := supported
  storable := h.storable
  leads := h.leads
  unclaimed := h.unclaimed

/-- **What a successful write changes.** Take artifacts whose definition was read from a document
with integers and plain names and revised, and whose version supports its control plane. If they
are written, the output directory is there and holds what the options ask for, a private key in a
private file; the definition is one indented text that ends in a line feed and is read as the
definition under the version and with the authority of the artifacts, if there is one; everything
else is as it was, but for directories on the way to the output directory. -/
theorem files_of_written {text : String} {document : Json} {definition : Definition}
    (read : Json.parse text = .ok document) (whole : document.wholeNumbers)
    (plain : document.plainNames) (accepted : Definition.parse text = .ok definition)
    (run : RevisedTo definition artifacts.definition)
    (supported : artifacts.definition.controlPlane.isHosted → artifacts.version.supportsHosted)
    (written : artifacts.writeTo disk catalog files = (.ok (), later)) :
    (artifacts.outputDirectory ≠ "" → later.isDirectory artifacts.outputDirectory = true) ∧
      (∃ here, Written artifacts files later here) ∧
        ∃ kept : Json, artifacts.definitionText = kept.pretty ++ "\n" ∧
          Json.parse artifacts.definitionText = .ok kept ∧
            Definition.parse artifacts.definitionText = .ok { artifacts.definition with
              version := artifacts.version
              certificates := artifacts.authority <|> artifacts.definition.certificates } := by
  have readable := readable_keptDefinition
    (run.readable (Definition.readable_of_parse read whole plain accepted)) supported
  obtain ⟨here, files⟩ := written_of_writeTo written
  refine ⟨isDirectory_of_writeTo written files.leads files.directory, ⟨here, files⟩, ?_⟩
  exact ⟨_, rfl, json_definitionText readable.storable_encode.faithful,
    parse_definitionText readable⟩

/-- A hosted control plane, under another version and with a new authority in place of its own,
where a private key is there that others may read. -/
theorem files_of_written_replaced :
    let document : Json := .object
      [ ("apiVersion", .string "vlabs"),
        ("properties", .object
          [ ("hostedMasterProfile", .object [("dnsPrefix", .string "m")]),
            ("zones", .array [.number (.integer 3 (by decide))]) ]) ]
    let definition : Definition :=
      { version := .vlabs
        controlPlane := .hosted { dnsPrefix := "m" }
        extra := [("zones", .array [.number (.integer 3 (by decide))])] }
    let artifacts : Artifacts :=
      { definition := { definition with certificates := some { certificate := "d" } }
        version := .v20170701
        template := "t"
        parameters := "p"
        outputDirectory := "out"
        certsGenerated := true
        parametersOnly := false
        authority := some { certificate := "c", privateKey := "k" } }
    let files : Files :=
      { entries :=
          [ ([], .directory), (["n"], .file "n".toUTF8 0o644), (["out"], .directory),
            (["out", "ca.key"], .file "old".toUTF8 0o644) ]
        home := [] }
    Json.parse document.compact = .ok document ∧ document.wholeNumbers ∧ document.plainNames ∧
      Definition.parse document.compact = .ok definition ∧
        RevisedTo definition artifacts.definition ∧
          (artifacts.definition.controlPlane.isHosted → artifacts.version.supportsHosted) ∧
            ∃ later, artifacts.writeTo .reliable {} files = (.ok (), later) ∧
              later.isDirectory "out" = true ∧ (∃ here, Written artifacts files later here) ∧
                ∃ kept : Json, artifacts.definitionText = kept.pretty ++ "\n" ∧
                  Json.parse artifacts.definitionText = .ok kept ∧
                    Definition.parse artifacts.definitionText = .ok { definition with
                      version := .v20170701
                      certificates := some { certificate := "c", privateKey := "k" } } := by
  intro document definition artifacts files
  have whole : document.wholeNumbers := by decide
  have plain : document.plainNames := by decide
  have read : Json.parse document.compact = .ok document :=
    Json.parse_compact whole (by decide) (by decide)
  have accepted : Definition.parse document.compact = .ok definition :=
    (Definition.parse_eq_ofValue read whole plain).trans rfl
  have run : RevisedTo definition artifacts.definition :=
    @RevisedTo.revised _ _ _ (.certificates (some { certificate := "d" })) files .unrevised rfl rfl
  have supported : artifacts.definition.controlPlane.isHosted →
      artifacts.version.supportsHosted := fun _ => rfl
  have steps : artifacts.steps = outSteps artifacts.definitionText artifacts.template
      artifacts.parameters artifacts.authority := steps_eq_outSteps rfl rfl rfl
  have writable (text : String) : ∃ later, performAll .reliable {} files
      (outSteps text artifacts.template artifacts.parameters artifacts.authority)
        = (.ok (), later) := ⟨_, rfl⟩
  obtain ⟨later, written⟩ := writable artifacts.definitionText
  rw [← steps] at written
  obtain ⟨there, left, kept⟩ := files_of_written read whole plain accepted run supported written
  exact ⟨read, whole, plain, accepted, run, supported, later, written, there (by decide), left,
    kept⟩

end Provision.Artifacts
