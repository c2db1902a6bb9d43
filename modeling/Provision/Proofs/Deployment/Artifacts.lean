import Mathlib.Data.List.Basic
import Provision.Deployment.Artifacts
import Provision.Proofs.Files.Contents
import Provision.Proofs.Files.Path

/-!
Artifacts that were written.

* `performAll_accounts` — steps that are carried out change no contents but those of the files
  that they write.
* `holds_of_performAll` — where no two of them write to files of one name, every file that was
  written holds what was written, whatever came behind.
* `writeTo_again` — artifacts that were written to a directory can be written there once
  more on a reliable disk, and this changes nothing.
-/

namespace Provision.Artifacts

open Provision.Path (IsFileName)

variable {disk : Disk} {catalog : Catalog} {files files' : Files} {steps : List Step}

/-! ### Steps that succeed -/

theorem Step.write_eq_ok {path content : String}
    (h : (Step.write path content).perform disk catalog files = (.ok (), files')) :
    disk.writeText files path content = (.ok (), files') := by
  simp only [perform] at h
  split at h
  · cases h
    assumption
  · cases h

theorem Step.makeDirectory_eq_ok {path : String}
    (h : (Step.makeDirectory path).perform disk catalog files = (.ok (), files')) :
    disk.createAll files path = (.ok (), files') := by
  simp only [perform] at h
  split at h
  · cases h
    assumption
  · cases h

theorem Step.restrict_eq_ok {path : String}
    (h : (Step.restrict path).perform disk catalog files = (.ok (), files')) :
    disk.setMode files path privateMode = .ok files' := by
  simp only [perform] at h
  split at h
  · cases h
    assumption
  · cases h

/-- Steps that succeed do so in two parts. -/
theorem performAll_append_eq_ok {more : List Step}
    (h : performAll disk catalog files (steps ++ more) = (.ok (), files')) :
    ∃ between, performAll disk catalog files steps = (.ok (), between) ∧
      performAll disk catalog between more = (.ok (), files') := by
  induction steps generalizing files with
  | nil => exact ⟨files, rfl, h⟩
  | cons step steps ih =>
      simp only [List.cons_append, performAll] at h ⊢
      split at h
      · exact ih h
      · cases h

theorem performAll_singleton_eq_ok {step : Step}
    (h : performAll disk catalog files [step] = (.ok (), files')) :
    step.perform disk catalog files = (.ok (), files') := by
  simp only [performAll] at h
  split at h
  · cases h
    assumption
  · cases h

/-! ### What steps have written -/

/-- Each location has kept its content, unless a path that was written leads there, which holds
what was written. -/
structure Accounts (steps : List Step) (files files' : Files) : Prop extends
    Files.Grows files files' where
  contents : ∀ location, files'.contentAt location = files.contentAt location ∨
    ∃ path text, .write path text ∈ steps ∧ files'.Holds path location text.toUTF8

theorem accounts_of_keeps (keeps : Files.Keeps files files') : Accounts steps files files' where
  toGrows := keeps.toGrows
  contents location := .inl (keeps.contents location)

/-- What some steps have written is still there unless others have written there again. -/
theorem Accounts.append {more : List Step} {between : Files} (first : Accounts steps files between)
    (second : Accounts more between files') : Accounts (steps ++ more) files files' where
  toGrows := first.toGrows.trans second.toGrows
  contents := by
    intro location
    rcases second.contents location with same | ⟨path, text, mem, held⟩
    · rcases first.contents location with unchanged | ⟨path, text, mem, held⟩
      · exact .inl (same.trans unchanged)
      · have still := held.of_contentAt second.toGrows same
        exact .inr ⟨path, text, List.mem_append_left _ mem, still⟩
    · exact .inr ⟨path, text, List.mem_append_right _ mem, held⟩

/-- One step. -/
theorem Step.accounts {step : Step} (h : step.perform disk catalog files = (.ok (), files')) :
    Accounts [step] files files' := by
  cases step with
  | makeDirectory path =>
      have keeps := Files.keeps_createAll disk files path
      rw [makeDirectory_eq_ok h] at keeps
      exact accounts_of_keeps keeps
  | write path text =>
      obtain ⟨_, replaces⟩ := Files.replaces_of_writeFile (write_eq_ok h)
      refine ⟨replaces.toGrows, fun location => ?_⟩
      rcases replaces.contents location with same | held
      · exact .inl same
      · exact .inr ⟨path, text, List.mem_singleton_self _, held⟩
  | restrict path => exact accounts_of_keeps (Files.keeps_setMode (restrict_eq_ok h))
  | refuse path => cases h

/-- Any number of steps. -/
theorem performAll_accounts (h : performAll disk catalog files steps = (.ok (), files')) :
    Accounts steps files files' := by
  induction steps generalizing files with
  | nil =>
      cases h
      exact accounts_of_keeps (Files.Keeps.refl _)
  | cons step steps ih =>
      simp only [performAll] at h
      split at h
      · rename_i done
        exact (Step.accounts done).append (ih h)
      · cases h

/-- The name of the file that a step writes. -/
def Step.file? : Step → Option String
  | write path _ => (Path.names path).getLast?
  | _ => none

theorem Step.file?_of_holds {path text : String} {location : Location} {content : ByteArray}
    (held : files.Holds path location content) :
    (Step.write path text).file? = location.getLast? :=
  (Files.getLast?_of_target held.target).1.symm

/-- Where no two steps write to files of one name, a location is not written twice. -/
theorem Step.not_holds_of_nodup {first second : List Step}
    (distinct : ((first ++ second).filterMap file?).Nodup) {path text other replaced : String}
    (mem : write path text ∈ first) (mem' : write other replaced ∈ second)
    {location : Location} {content content' : ByteArray}
    (held : files.Holds path location content) : ¬ files'.Holds other location content' := by
  intro held'
  obtain ⟨name, named⟩ : ∃ name, location.getLast? = some name :=
    ⟨_, List.getLast?_eq_some_getLast (Files.getLast?_of_target held.target).2⟩
  rw [List.filterMap_append] at distinct
  refine (List.nodup_append.mp distinct).2.2 name ?_ name ?_ rfl
  · exact List.mem_filterMap.mpr ⟨_, mem, (file?_of_holds held).trans named⟩
  · exact List.mem_filterMap.mpr ⟨_, mem', (file?_of_holds held').trans named⟩

/-- Where no two steps write to files of one name, every text that was written is there in the
end: no step behind writes to its location. -/
theorem holds_of_performAll (distinct : (steps.filterMap Step.file?).Nodup)
    (h : performAll disk catalog files steps = (.ok (), files')) {path text : String}
    (mem : .write path text ∈ steps) : ∃ location, files'.Holds path location text.toUTF8 := by
  induction steps generalizing files with
  | nil => cases mem
  | cons step steps ih =>
      simp only [performAll] at h
      split at h
      · rename_i between done
        rcases List.mem_cons.mp mem with rfl | later
        · obtain ⟨location, replaces⟩ := Files.replaces_of_writeFile (Step.write_eq_ok done)
          have held := replaces.held
          have rest := performAll_accounts h
          rcases rest.contents location with same | ⟨other, content, among, replaced⟩
          · exact ⟨location, held.of_contentAt rest.toGrows same⟩
          · have apart : (([Step.write path text] ++ steps).filterMap Step.file?).Nodup := distinct
            exact absurd replaced
              (Step.not_holds_of_nodup apart (List.mem_singleton_self _) among held)
        · refine ih (distinct.sublist ?_) h later
          exact (List.sublist_cons_self _ _).filterMap _
      · cases h

/-! ### The files of artifacts -/

/-- Write files, given by name and content, into a directory. -/
def writes (directory : String) (contents : List (String × String)) : List Step :=
  contents.map fun file => .write (Path.join directory file.1) file.2

def authorityTexts (artifacts : Artifacts) : List (String × String) :=
  (artifacts.authority <|> artifacts.definition.certificates).toList.flatMap fun profile =>
    [(certificateFile, profile.certificate), (privateKeyFile, profile.privateKey)]

/-- The files that artifacts are written to, by name and content. -/
def texts (artifacts : Artifacts) : List (String × String) :=
  (if artifacts.parametersOnly then []
    else [(definitionFile, artifacts.definitionText), (templateFile, artifacts.template)])
  ++ (parametersFile, artifacts.parameters)
  :: (if artifacts.certsGenerated then artifacts.authorityTexts else [])

theorem definition_mem_texts {artifacts : Artifacts} (full : artifacts.parametersOnly = false) :
    (definitionFile, artifacts.definitionText) ∈ artifacts.texts := by
  unfold texts
  rw [full]
  exact List.mem_cons_self

theorem template_mem_texts {artifacts : Artifacts} (full : artifacts.parametersOnly = false) :
    (templateFile, artifacts.template) ∈ artifacts.texts := by
  unfold texts
  rw [full]
  exact List.mem_cons_of_mem _ List.mem_cons_self

theorem parameters_mem_texts (artifacts : Artifacts) :
    (parametersFile, artifacts.parameters) ∈ artifacts.texts :=
  List.mem_append_right _ List.mem_cons_self

theorem authority_mem_texts {artifacts : Artifacts} {profile : CertificateProfile}
    (issued : artifacts.certsGenerated = true)
    (own : artifacts.keptDefinition.certificates = some profile) :
    (certificateFile, profile.certificate) ∈ artifacts.texts ∧
      (privateKeyFile, profile.privateKey) ∈ artifacts.texts := by
  have texts : artifacts.authorityTexts
      = [(certificateFile, profile.certificate), (privateKeyFile, profile.privateKey)] := by
    have own : (artifacts.authority <|> artifacts.definition.certificates) = some profile := own
    unfold authorityTexts
    rw [own]
    rfl
  unfold Artifacts.texts
  rw [issued, if_pos rfl, texts]
  constructor
  · exact List.mem_append_right _ (List.mem_cons_of_mem _ List.mem_cons_self)
  · exact List.mem_append_right _
      (List.mem_cons_of_mem _ (List.mem_cons_of_mem _ List.mem_cons_self))

/-- Which files are written. -/
theorem name_of_mem_texts {artifacts : Artifacts} {file : String × String}
    (mem : file ∈ artifacts.texts) :
    (artifacts.parametersOnly = false ∧ file.1 ∈ [definitionFile, templateFile]) ∨
      file.1 = parametersFile ∨
        (artifacts.certsGenerated = true ∧ file.1 ∈ [certificateFile, privateKeyFile]) := by
  rcases List.mem_append.mp mem with whole | rest
  · cases only : artifacts.parametersOnly with
    | true =>
        rw [only] at whole
        cases whole
    | false =>
        rw [only] at whole
        exact .inl ⟨rfl, List.mem_map_of_mem whole⟩
  · rcases List.mem_cons.mp rest with rfl | own
    · exact .inr (.inl rfl)
    · cases issued : artifacts.certsGenerated with
      | false =>
          rw [issued] at own
          cases own
      | true =>
          rw [issued] at own
          refine .inr (.inr ⟨rfl, ?_⟩)
          obtain ⟨profile, -, listed⟩ := List.mem_flatMap.mp own
          exact List.mem_map_of_mem listed

/-- What is left to do when the files are written: restrict who may read a private key, or refuse
if there was no authority to write. -/
def closing (artifacts : Artifacts) : List Step :=
  if artifacts.certsGenerated then
    match artifacts.authority <|> artifacts.definition.certificates with
    | some _ => [.restrict (artifacts.path privateKeyFile)]
    | none => [.refuse artifacts.outputDirectory]
  else []

theorem steps_eq_writes (artifacts : Artifacts) :
    artifacts.steps = .makeDirectory artifacts.outputDirectory
      :: (writes artifacts.outputDirectory artifacts.texts ++ artifacts.closing) := by
  unfold steps texts closing authoritySteps authorityTexts
  cases artifacts.parametersOnly <;> cases artifacts.certsGenerated <;>
    cases artifacts.authority <|> artifacts.definition.certificates <;> rfl

/-- Every file is written. -/
theorem write_mem_steps {artifacts : Artifacts} {file : String × String}
    (mem : file ∈ artifacts.texts) :
    .write (artifacts.path file.1) file.2 ∈ artifacts.steps := by
  rw [steps_eq_writes]
  exact List.mem_cons_of_mem _ (List.mem_append_left _ (List.mem_map_of_mem mem))

/-- A private key that is restricted is one of the files. -/
theorem mem_closing {artifacts : Artifacts} {step : Step} (mem : step ∈ artifacts.closing) :
    step = .refuse artifacts.outputDirectory ∨
      ∃ file ∈ artifacts.texts, step = .restrict (artifacts.path file.1) := by
  unfold closing at mem
  split at mem
  · rename_i issued
    split at mem
    · rename_i profile own
      refine .inr ⟨(privateKeyFile, profile.privateKey), ?_, List.mem_singleton.mp mem⟩
      simp [texts, issued, authorityTexts, own]
    · exact .inl (List.mem_singleton.mp mem)
  · cases mem

def fileNames : List String :=
  [definitionFile, templateFile, parametersFile, certificateFile, privateKeyFile]

theorem isFileName_of_mem : ∀ name ∈ fileNames, IsFileName name := by decide

theorem names_texts_sublist (artifacts : Artifacts) :
    (artifacts.texts.map Prod.fst).Sublist fileNames := by
  have authority : (artifacts.authorityTexts.map Prod.fst).Sublist
      [certificateFile, privateKeyFile] := by
    unfold authorityTexts
    cases artifacts.authority <|> artifacts.definition.certificates with
    | none => exact List.nil_sublist _
    | some profile => exact List.Sublist.refl _
  have definition : ((if artifacts.parametersOnly then []
      else [(definitionFile, artifacts.definitionText), (templateFile, artifacts.template)]).map
        Prod.fst).Sublist [definitionFile, templateFile] := by
    split
    · exact List.nil_sublist _
    · exact List.Sublist.refl _
  unfold texts
  rw [List.map_append, List.map_cons]
  refine definition.append (List.Sublist.cons_cons _ ?_)
  split
  · exact authority
  · exact List.nil_sublist _

theorem isFileName_of_mem_texts {artifacts : Artifacts} {file : String × String}
    (mem : file ∈ artifacts.texts) : IsFileName file.1 :=
  isFileName_of_mem _ (artifacts.names_texts_sublist.subset (List.mem_map_of_mem mem))

/-- Every file is written once. -/
theorem filterMap_file?_steps (artifacts : Artifacts) :
    artifacts.steps.filterMap Step.file? = artifacts.texts.map Prod.fst := by
  have closing : artifacts.closing.filterMap Step.file? = [] := by
    refine List.filterMap_eq_nil_iff.mpr ?_
    intro step mem
    rcases mem_closing mem with rfl | ⟨file, -, rfl⟩ <;> rfl
  have named : ∀ file ∈ artifacts.texts,
      (Step.write (artifacts.path file.1) file.2).file? = some file.1 := by
    intro file mem
    exact Path.getLast?_names_join (isFileName_of_mem_texts mem) _
  rw [steps_eq_writes, List.filterMap_cons_none rfl, List.filterMap_append, closing,
    List.append_nil, writes, List.filterMap_map]
  exact List.filterMap_eq_map_iff_forall_eq_some.mpr named

/-- No two steps write to files of one name. -/
theorem distinct_steps (artifacts : Artifacts) :
    (artifacts.steps.filterMap Step.file?).Nodup := by
  rw [filterMap_file?_steps]
  exact artifacts.names_texts_sublist.nodup (by decide)

/-! ### Writing files into one directory -/

/-- The files of a directory that hold these contents. -/
def Kept (files : Files) (directory : String) (contents : List (String × String)) : Prop :=
  ∀ file ∈ contents, ∃ location,
    files.Holds (Path.join directory file.1) location file.2.toUTF8

/-- On a reliable disk, files that hold some contents can be written with these contents again,
and nothing changes. -/
theorem performAll_of_kept {directory : String} {contents : List (String × String)}
    (kept : Kept files directory contents) :
    performAll .reliable catalog files (writes directory contents) = (.ok (), files) := by
  induction contents with
  | nil => rfl
  | cons file contents ih =>
      obtain ⟨⟨location, held⟩, kept⟩ := List.forall_mem_cons.mp kept
      simp only [writes, List.map_cons, performAll, Step.perform, held.writeText]
      exact ih kept

/-! ### All artifacts -/

/-- The artifacts that every run writes, by name. -/
def contents (artifacts : Artifacts) : List (String × String) :=
  [ (definitionFile, artifacts.definitionText),
    (templateFile, artifacts.template),
    (parametersFile, artifacts.parameters) ]

/-- All artifacts are written, and then perhaps a certificate authority. -/
theorem steps_eq {artifacts : Artifacts} (whole : artifacts.parametersOnly = false) :
    artifacts.steps = .makeDirectory artifacts.outputDirectory
      :: (writes artifacts.outputDirectory artifacts.contents
        ++ if artifacts.certsGenerated then artifacts.authoritySteps else []) := by
  unfold steps
  rw [whole]
  rfl

/-- **Artifacts that were written are kept, and can be written again without a change** to a
reliable disk, a certificate authority apart. -/
theorem writeTo_again {artifacts : Artifacts} (whole : artifacts.parametersOnly = false)
    (written : artifacts.writeTo disk catalog files = (.ok (), files')) :
    Kept files' artifacts.outputDirectory artifacts.contents ∧
      ∀ (again : Artifacts) (catalog' : Catalog), again.parametersOnly = false →
        again.certsGenerated = false → again.outputDirectory = artifacts.outputDirectory →
          again.contents = artifacts.contents →
            again.writeTo .reliable catalog' files' = (.ok (), files') := by
  have kept : Kept files' artifacts.outputDirectory artifacts.contents := by
    intro file mem
    refine holds_of_performAll artifacts.distinct_steps written ?_
    rw [steps_eq whole]
    exact List.mem_cons_of_mem _ (List.mem_append_left _ (List.mem_map_of_mem mem))
  refine ⟨kept, ?_⟩
  rw [writeTo, steps_eq whole] at written
  simp only [performAll] at written
  split at written
  · rename_i between made
    have created := Step.makeDirectory_eq_ok made
    have grows := (performAll_accounts written).toGrows
    intro again catalog' whole' noCerts directory same
    rw [writeTo, steps_eq whole', directory, same, noCerts, if_neg (by decide), List.append_nil]
    simp only [performAll, Step.perform, Files.createAll_again created grows .reliable]
    exact performAll_of_kept kept
  · cases written

/-! ### A directory by its name -/

/-- What is to be done for all artifacts in a directory `out`, with an authority if one was
issued. -/
def outSteps (definition template parameters : String) (authority : Option CertificateProfile) :
    List Step :=
  [ .makeDirectory "out",
    .write "out/apimodel.json" definition,
    .write "out/azuredeploy.json" template,
    .write "out/azuredeploy.parameters.json" parameters ]
  ++ authority.toList.flatMap fun profile =>
    [ .write "out/ca.crt" profile.certificate,
      .write "out/ca.key" profile.privateKey,
      .restrict "out/ca.key" ]

theorem steps_eq_outSteps {artifacts : Artifacts} (directory : artifacts.outputDirectory = "out")
    (full : artifacts.parametersOnly = false)
    (issued : artifacts.certsGenerated = artifacts.authority.isSome) :
    artifacts.steps = outSteps artifacts.definitionText artifacts.template artifacts.parameters
      artifacts.authority := by
  have joined : Path.join "out" definitionFile = "out/apimodel.json" ∧
      Path.join "out" templateFile = "out/azuredeploy.json" ∧
        Path.join "out" parametersFile = "out/azuredeploy.parameters.json" ∧
          Path.join "out" certificateFile = "out/ca.crt" ∧
            Path.join "out" privateKeyFile = "out/ca.key" := ⟨rfl, rfl, rfl, rfl, rfl⟩
  obtain ⟨definition, template, parameters, certificate, privateKey⟩ := joined
  rw [steps_eq full, directory]
  unfold writes contents outSteps authoritySteps path
  simp only [List.map_cons, List.map_nil, directory, definition, template, parameters,
    certificate, privateKey]
  cases authority : artifacts.authority with
  | none =>
      rw [issued, authority]
      rfl
  | some profile =>
      rw [issued, authority]
      rfl

end Provision.Artifacts
