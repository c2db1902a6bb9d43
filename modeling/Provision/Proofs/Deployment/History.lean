import Provision.Proofs.Deployment.Authority

/-!
Many runs into one directory.

A certificate authority is kept in up to three places of an output directory (`Keeping`): in the
parameters, in the definition, and in files of its own. Not every run writes all of them. The
parameters are always written, the definition unless only the parameters are wanted, and the files
of an authority only if a new one was issued; nothing is ever removed.

`History` is what can happen to an output directory that is empty in the beginning. Whatever
happens to files outside of it, each place holds the authority of the last run that wrote it
(`follows_of_history`). So the places agree exactly if these runs have used the same authority
(`authority_of_history`), and they need not (`not_coherent_supplied`).
-/

namespace Provision

open Artifacts (parametersFile definitionFile certificateFile privateKeyFile)

/-! ### Texts at a location -/

namespace Files

variable {files later : Files} {location : Location}

def textOf (files : Files) (location : Location) : Option String :=
  (files.contentAt location).bind String.fromUTF8?

theorem Holds.textOf {path text : String} (held : files.Holds path location text.toUTF8) :
    files.textOf location = some text := by
  unfold Files.textOf
  rw [contentAt_eq_some_iff.mpr held.entry]
  exact fromUTF8?_toUTF8 text

end Files

/-! ### Where an authority is kept -/

/-- The places of an output directory in which a certificate authority is kept. -/
inductive Keeping where
  | parameters
  | definition
  | authority

namespace Keeping

def names : Keeping → List String
  | parameters => [parametersFile]
  | definition => [definitionFile]
  | authority => [certificateFile, privateKeyFile]

def takes (keeping : Keeping) (artifacts : Artifacts) : Bool :=
  match keeping with
  | parameters => true
  | definition => !artifacts.parametersOnly
  | authority => artifacts.certsGenerated

def last? (keeping : Keeping) (written : List Artifacts) : Option Artifacts :=
  (written.filter keeping.takes).getLast?

def Present (keeping : Keeping) (files : Files) (directory : Location) : Prop :=
  ∃ name ∈ keeping.names, files.contentAt (directory ++ [name]) ≠ none

/-- The certificate authority that is kept there. -/
def read (keeping : Keeping) (files : Files) (directory : Location) : Option CertificateProfile :=
  match keeping with
  | parameters => (files.textOf (directory ++ [parametersFile])).bind parametersAuthority?
  | definition => (files.textOf (directory ++ [definitionFile])).bind definitionAuthority?
  | authority =>
      CertificateProfile.ofParts? (files.textOf (directory ++ [certificateFile]))
        (files.textOf (directory ++ [privateKeyFile]))

variable {keeping : Keeping} {files later : Files} {directory : Location}

/-- What is kept depends on the files of the place. -/
theorem read_congr (same : ∀ name ∈ keeping.names,
      later.contentAt (directory ++ [name]) = files.contentAt (directory ++ [name])) :
    keeping.read later directory = keeping.read files directory := by
  have text : ∀ name ∈ keeping.names,
      later.textOf (directory ++ [name]) = files.textOf (directory ++ [name]) := by
    intro name mem
    unfold Files.textOf
    rw [same name mem]
  unfold read
  cases keeping with
  | parameters => simp only [text _ List.mem_cons_self]
  | definition => simp only [text _ List.mem_cons_self]
  | authority =>
      have key := text privateKeyFile (List.mem_cons_of_mem _ List.mem_cons_self)
      simp only [text _ List.mem_cons_self, key]

theorem present_congr (same : ∀ name ∈ keeping.names,
      later.contentAt (directory ++ [name]) = files.contentAt (directory ++ [name])) :
    keeping.Present later directory ↔ keeping.Present files directory := by
  unfold Present
  constructor
  · rintro ⟨name, mem, there⟩
    exact ⟨name, mem, same name mem ▸ there⟩
  · rintro ⟨name, mem, there⟩
    exact ⟨name, mem, (same name mem).symm ▸ there⟩

theorem last?_concat_of_takes {written : List Artifacts} {artifacts : Artifacts}
    (takes : keeping.takes artifacts = true) :
    keeping.last? (written ++ [artifacts]) = some artifacts := by
  unfold last?
  rw [List.filter_append, List.filter_singleton, takes]
  exact List.getLast?_concat

theorem last?_concat_of_not_takes {written : List Artifacts} {artifacts : Artifacts}
    (leaves : keeping.takes artifacts = false) :
    keeping.last? (written ++ [artifacts]) = keeping.last? written := by
  unfold last?
  rw [List.filter_append, List.filter_singleton, leaves]
  exact congrArg List.getLast? (List.append_nil _)

/-- Every run writes the parameters. -/
theorem last?_parameters (written : List Artifacts) :
    parameters.last? written = written.getLast? :=
  congrArg List.getLast? (List.filter_eq_self.mpr fun _ _ => rfl)

/-- Artifacts that are not written to a place have no file of its names. -/
theorem ne_of_not_takes {artifacts : Artifacts} (leaves : keeping.takes artifacts = false)
    {name : String} (mem : name ∈ keeping.names) :
    ∀ file ∈ artifacts.texts, name ≠ file.1 := by
  rintro file listed rfl
  cases keeping with
  | parameters => cases leaves
  | definition =>
      have only : artifacts.parametersOnly = true := by simpa [takes] using leaves
      have own : file.1 = definitionFile := List.mem_singleton.mp mem
      rcases Artifacts.name_of_mem_texts listed with ⟨full, -⟩ | same | ⟨-, same⟩
      · rw [only] at full
        cases full
      · rw [own] at same
        exact absurd same (by decide)
      · rw [own] at same
        exact absurd same (by decide)
  | authority =>
      have notIssued : artifacts.certsGenerated = false := leaves
      have apart : ∀ name ∈ authority.names, name ≠ parametersFile ∧
          name ∉ [definitionFile, Artifacts.templateFile] := by decide
      rcases Artifacts.name_of_mem_texts listed with ⟨-, same⟩ | same | ⟨issued, -⟩
      · exact (apart _ mem).2 same
      · exact (apart _ mem).1 same
      · rw [notIssued] at issued
        cases issued

/-- The files of a place that artifacts are written to give the authority of the artifacts. -/
theorem read_of_takes {artifacts : Artifacts} {certificates : CertificateProfile}
    (carries : artifacts.Carries certificates) (takes : keeping.takes artifacts = true)
    (held : ∀ file ∈ artifacts.texts, later.textOf (directory ++ [file.1]) = some file.2) :
    keeping.Present later directory ∧ keeping.read later directory = some certificates := by
  have there : ∀ file ∈ artifacts.texts, later.contentAt (directory ++ [file.1]) ≠ none := by
    intro file mem absent
    have text := held file mem
    unfold Files.textOf at text
    rw [absent] at text
    cases text
  cases keeping with
  | parameters =>
      have mem := artifacts.parameters_mem_texts
      refine ⟨⟨_, List.mem_cons_self, there _ mem⟩, ?_⟩
      simp only [read, held _ mem, Option.bind_some, carries.parameters]
  | definition =>
      have full : artifacts.parametersOnly = false := by simpa [Keeping.takes] using takes
      have mem := Artifacts.definition_mem_texts full
      refine ⟨⟨_, List.mem_cons_self, there _ mem⟩, ?_⟩
      simp only [read, held _ mem, Option.bind_some, carries.definition]
  | authority =>
      obtain ⟨certificate, privateKey⟩ := Artifacts.authority_mem_texts takes carries.own
      refine ⟨⟨_, List.mem_cons_self, there _ certificate⟩, ?_⟩
      simp only [read, held _ certificate, held _ privateKey]
      rfl

/-- What a place holds after these artifacts were written to the directory, one after another: the
authority of the last ones that were written there, or nothing if there are none. -/
structure Follows (keeping : Keeping) (written : List Artifacts) (files : Files)
    (directory : Location) : Prop where
  present : keeping.Present files directory ↔ keeping.last? written ≠ none
  read : keeping.read files directory
    = (keeping.last? written).bind (·.keptDefinition.certificates)

theorem Follows.congr {written : List Artifacts} (h : keeping.Follows written files directory)
    (same : ∀ name ∈ keeping.names,
      later.contentAt (directory ++ [name]) = files.contentAt (directory ++ [name])) :
    keeping.Follows written later directory where
  present := (present_congr same).trans h.present
  read := (read_congr same).trans h.read

/-- **One run**: the places that it writes hold its authority, and all others what they held. -/
theorem follows_of_writeTo {written : List Artifacts} {artifacts : Artifacts}
    {certificates : CertificateProfile} {disk : Disk} {catalog : Catalog}
    (before : keeping.Follows written files directory) (carries : artifacts.Carries certificates)
    (wrote : artifacts.writeTo disk catalog files = (.ok (), later))
    (into : later.Leads artifacts.outputDirectory directory) :
    keeping.Follows (written ++ [artifacts]) later directory := by
  obtain ⟨here, leads, held, others⟩ := Artifacts.contentAt_of_writeTo wrote
  obtain rfl : directory = here := leads.unique into
  cases takes : keeping.takes artifacts with
  | true =>
      have texts : ∀ file ∈ artifacts.texts,
          later.textOf (directory ++ [file.1]) = some file.2 :=
        fun file mem => (held file mem).textOf
      obtain ⟨present, read⟩ := read_of_takes carries takes texts
      constructor
      · rw [last?_concat_of_takes takes]
        exact iff_of_true present (Option.some_ne_none _)
      · rw [last?_concat_of_takes takes, read]
        exact carries.own.symm
  | false =>
      have same : ∀ name ∈ keeping.names,
          later.contentAt (directory ++ [name]) = files.contentAt (directory ++ [name]) := by
        intro name mem
        refine others _ ?_
        intro file listed same
        have last := List.append_cancel_left same
        exact ne_of_not_takes takes mem file listed (List.cons.inj last).1
      have kept := before.congr same
      constructor
      · rw [last?_concat_of_not_takes takes]
        exact kept.present
      · rw [last?_concat_of_not_takes takes]
        exact kept.read

end Keeping

/-! ### Histories -/

/-- What can happen to a directory that is empty in the beginning, with the artifacts that were
written to it so far: runs of any kind that succeed and whose output directory it is, and changes
of anything that is not in it. -/
inductive History (directory : Location) : List Artifacts → World → Prop
  | empty {world : World} (vacant : ∀ name, world.files.lookup (directory ++ [name]) = none) :
      History directory [] world
  | elsewhere {written : List Artifacts} {world later : World}
      (before : History directory written world)
      (same : ∀ name,
        later.files.lookup (directory ++ [name]) = world.files.lookup (directory ++ [name])) :
      History directory written later
  | ran {written : List Artifacts} {world : World} {issues : Nat → Issue} {disk : Disk}
      {catalog : Catalog} {request : Request} {report : Report} {artifacts : Artifacts}
      (before : History directory written world)
      (succeeded : (run (builtinTools issues disk catalog) request world).result = .ok report)
      (wrote : .write artifacts ∈ (run (builtinTools issues disk catalog) request world).calls)
      (into : (run (builtinTools issues disk catalog) request world).world.files.Leads
        report.outputDirectory directory) :
      History directory (written ++ [artifacts])
        (run (builtinTools issues disk catalog) request world).world

section Histories

variable {directory : Location} {written : List Artifacts} {world : World}

/-- The artifacts of a successful run have one authority, and were written to its directory. -/
theorem carries_of_run {issues : Nat → Issue} {disk : Disk} {catalog : Catalog} {request : Request}
    {report : Report} {artifacts : Artifacts}
    (succeeded : (run (builtinTools issues disk catalog) request world).result = .ok report)
    (wrote : .write artifacts ∈ (run (builtinTools issues disk catalog) request world).calls) :
    (∃ certificates, artifacts.Carries certificates) ∧
      artifacts.outputDirectory = report.outputDirectory ∧
        artifacts.writeTo disk catalog world.files
          = (.ok (), (run (builtinTools issues disk catalog) request world).world.files) := by
  obtain ⟨stages, rfl⟩ := stages_of_run succeeded
  obtain ⟨written, later⟩ := writeTo_of_write stages.writes
  have unchanged : stages.between.files = world.files := by
    obtain ⟨-, -, unchanged, -⟩ := generate_eq_ok stages.generates
    exact unchanged
  obtain rfl := stages.eq_of_write_mem wrote
  refine ⟨carries_of_stages stages, rfl, ?_⟩
  rw [run_eq_of_stages stages, ← unchanged]
  exact written

/-- **Many runs**: each place holds the authority of the last run that wrote it. -/
theorem follows_of_history (history : History directory written world) (keeping : Keeping) :
    keeping.Follows written world.files directory := by
  induction history with
  | @empty world vacant =>
      have absent : ∀ name, world.files.contentAt (directory ++ [name]) = none := by
        intro name
        unfold Files.contentAt
        rw [vacant name]
        rfl
      have noText : ∀ name, world.files.textOf (directory ++ [name]) = none := by
        intro name
        unfold Files.textOf
        rw [absent name]
        rfl
      constructor
      · refine iff_of_false ?_ (fun some => some rfl)
        rintro ⟨name, -, there⟩
        exact there (absent name)
      · unfold Keeping.read
        cases keeping with
        | parameters => simp only [noText, Option.bind_none]; rfl
        | definition => simp only [noText, Option.bind_none]; rfl
        | authority => simp only [noText]; rfl
  | elsewhere before same ih =>
      refine ih.congr ?_
      intro name _
      exact Files.contentAt_congr (same name)
  | ran before succeeded wrote into ih =>
      obtain ⟨⟨certificates, carries⟩, directory, wrote⟩ := carries_of_run succeeded wrote
      rw [← directory] at into
      exact Keeping.follows_of_writeTo ih carries wrote into

theorem carries_of_history (history : History directory written world) :
    ∀ artifacts ∈ written, ∃ certificates, artifacts.Carries certificates := by
  induction history with
  | empty => exact List.forall_mem_nil _
  | elsewhere _ _ ih => exact ih
  | ran before succeeded wrote into ih =>
      obtain ⟨carries, -⟩ := carries_of_run succeeded wrote
      exact List.forall_mem_append.mpr ⟨ih, List.forall_mem_singleton.mpr carries⟩

theorem History.concat {issues : Nat → Issue} {disk : Disk} {catalog : Catalog} {request : Request}
    (before : History directory written world)
    (stages : Stages (builtinTools issues disk catalog) request world)
    (into : stages.later.files.Leads stages.report.outputDirectory directory) :
    History directory (written ++ [stages.artifacts])
      (run (builtinTools issues disk catalog) request world).world := by
  have ended := run_eq_of_stages stages
  refine before.ran (congrArg Outcome.result ended) ?_ ?_
  · rw [ended]
    exact List.mem_append_right _ List.mem_cons_self
  · rw [ended]
    exact into

/-- Every place that is there holds the authority that the parameters give. -/
def Coherent (files : Files) (directory : Location) : Prop :=
  ∀ keeping : Keeping, keeping.Present files directory →
    ∃ certificates, keeping.read files directory = some certificates ∧
      Keeping.parameters.read files directory = some certificates

/-- Places that follow the runs agree exactly if the last runs that wrote them have used the same
authority. -/
theorem coherent_iff
    (carried : ∀ artifacts ∈ written, ∃ certificates, artifacts.Carries certificates)
    (follows : ∀ keeping : Keeping, keeping.Follows written world.files directory) :
    Coherent world.files directory ↔ ∀ (keeping : Keeping) (artifacts last : Artifacts),
      keeping.last? written = some artifacts → written.getLast? = some last →
        artifacts.keptDefinition.certificates = last.keptDefinition.certificates := by
  have parameters := (follows .parameters).read
  rw [Keeping.last?_parameters] at parameters
  constructor
  · intro coherent keeping artifacts last there latest
    have kept := (follows keeping).read
    rw [there] at kept
    rw [latest] at parameters
    obtain ⟨certificates, own, given⟩ := coherent keeping
      ((follows keeping).present.mpr (there ▸ Option.some_ne_none _))
    exact (kept.symm.trans (own.trans given.symm)).trans parameters
  · intro agree keeping present
    obtain ⟨artifacts, there⟩ :=
      Option.ne_none_iff_exists'.mp ((follows keeping).present.mp present)
    have mem : artifacts ∈ written :=
      (List.mem_filter.mp (List.mem_of_getLast? there)).1
    obtain ⟨last, latest⟩ : ∃ last, written.getLast? = some last :=
      ⟨_, List.getLast?_eq_some_getLast (List.ne_nil_of_mem mem)⟩
    obtain ⟨certificates, carries⟩ := carried artifacts mem
    have kept := (follows keeping).read
    rw [there] at kept
    rw [latest] at parameters
    refine ⟨certificates, kept.trans carries.own, parameters.trans ?_⟩
    rw [Option.bind_some, ← agree keeping artifacts last there latest]
    exact carries.own

/-! ### An authority that is issued before one is supplied -/

section Supplied

variable (authority issued : CertificateProfile) (definition template parameters : String)

/-- The directory in which all artifacts have been written, with an authority that was issued. -/
def Files.withArtifacts : Files where
  entries := (withAuthority authority).entries ++
    [ (["out"], .directory),
      (["out", "apimodel.json"], .file definition.toUTF8 0o644),
      (["out", "azuredeploy.json"], .file template.toUTF8 0o644),
      (["out", "azuredeploy.parameters.json"], .file parameters.toUTF8 0o644),
      (["out", "ca.crt"], .file issued.certificate.toUTF8 0o644),
      (["out", "ca.key"], .file issued.privateKey.toUTF8 0o600) ]
  home := []

theorem written_withAuthority :
    Artifacts.performAll .reliable {} (.withAuthority authority)
        (Artifacts.outSteps definition template parameters (some issued))
      = (.ok (), .withArtifacts authority issued definition template parameters) := rfl

theorem Files.readText_withArtifacts :
    let files := withArtifacts authority issued definition template parameters
    files.readText "c.json" = .ok bareDocument.compact ∧
      files.readText "a.crt" = .ok authority.certificate ∧
        files.readText "a.key" = .ok authority.privateKey :=
  ⟨@readText_of_resolve _ _ _ ["c.json"] 0o644 rfl,
    @readText_of_resolve _ _ _ ["a.crt"] 0o644 rfl,
    @readText_of_resolve _ _ _ ["a.key"] 0o600 rfl⟩

/-- Where all artifacts have been written, they can be written again. -/
theorem written_withArtifacts (definition' template' parameters' : String) :
    Artifacts.performAll .reliable {}
        (.withArtifacts authority issued definition template parameters)
        (Artifacts.outSteps definition' template' parameters' none)
      = (.ok (), .withArtifacts authority issued definition' template' parameters') := rfl

theorem Files.leads_withArtifacts :
    (withArtifacts authority issued definition template parameters).Leads "out" ["out"] := rfl

end Supplied

/-- A run that issues an authority, and then one that takes the authority of the options. -/
theorem history_supplied {authority : CertificateProfile} {first second : Outcome}
    (complete : authority.isComplete = true)
    (firstRuns : first = run (builtinTools markedIssues .reliable {}) (bareRequest none none)
      { files := .withAuthority authority, issued := 0 })
    (secondRuns : second = run (builtinTools markedIssues .reliable {})
      (bareRequest (some "a.crt") (some "a.key")) first.world) :
    first.result = .ok ⟨"out", .vlabs, true, .done⟩ ∧
      second.result = .ok ⟨"out", .vlabs, false, .done⟩ ∧
      ∃ old new : Artifacts, History ["out"] [old, new] second.world ∧
        old.certsGenerated = true ∧ old.Carries (markedAuthority 1) ∧
          new.certsGenerated = false ∧ new.Carries authority := by
  -- the first run finds no authority in the document and none in the options
  let world : World := { files := .withAuthority authority, issued := 0 }
  obtain ⟨stored, -, -⟩ := Files.readText_withAuthority authority
  have supplies : suppliedCertificates world.files (bareRequest none none).options = .ok none := rfl
  have checked : check (bareRequest none none) world.files = .ok (bareValidated none rfl) :=
    check_bareRequest stored supplies rfl
  obtain ⟨old, oldReport, oldCarries, definition, template, parameters, left⟩ :=
    exists_stages_issuing checked rfl
      (writable_withAuthority authority (some (markedAuthority 1)))
  have written : old.later.files
      = .withArtifacts authority (markedAuthority 1) definition template parameters :=
    left.trans (congrArg Prod.snd (written_withAuthority ..))
  have ended := run_eq_of_stages old
  rw [← firstRuns] at ended
  have files : first.world.files
      = .withArtifacts authority (markedAuthority 1) definition template parameters := by
    rw [ended]
    exact written
  have before : History ["out"] [old.artifacts] first.world := by
    have began : History ["out"] [] world := .empty fun _ => rfl
    rw [firstRuns]
    refine began.concat old ?_
    rw [oldReport, written]
    exact Files.leads_withArtifacts ..
  -- the second run finds the same document, and the files of an authority
  obtain ⟨stored', certificate, privateKey⟩ := Files.readText_withArtifacts authority
    (markedAuthority 1) definition template parameters
  rw [← files] at stored' certificate privateKey
  have writable : ∀ definition template parameters,
      (Artifacts.performAll .reliable {} first.world.files
        (Artifacts.outSteps definition template parameters none)).1 = .ok () := by
    intro definition' template' parameters'
    rw [files, written_withArtifacts]
  obtain ⟨new, newReport, newCarries, definition', template', parameters', left'⟩ :=
    exists_stages_taking complete rfl stored' certificate privateKey writable
  rw [files, written_withArtifacts] at left'
  have ended' := run_eq_of_stages new
  rw [← secondRuns] at ended'
  refine ⟨?_, ?_, old.artifacts, new.artifacts, ?_, ?_, oldCarries, ?_, newCarries⟩
  · rw [ended, oldReport]
  · rw [ended', newReport]
  · rw [secondRuns]
    refine before.concat new ?_
    rw [newReport, left']
    exact Files.leads_withArtifacts ..
  · exact congrArg Report.certsGenerated oldReport
  · exact congrArg Report.certsGenerated newReport

/-- **The authorities that are kept in a directory** after any number of runs into it, in any
order and with anything done elsewhere between them. Each run has used one authority. The
parameters give that of the last run, the definition that of the last run that did not write the
parameters only, and the files of an authority that of the last run that issued one; none of these
is there if there was no such run. So they all agree exactly if these runs have used the same
authority. -/
theorem authority_of_history (history : History directory written world) :
    (∀ artifacts ∈ written, ∃ certificates, artifacts.Carries certificates) ∧
      (∀ keeping : Keeping, keeping.Follows written world.files directory) ∧
        (Coherent world.files directory ↔ ∀ (keeping : Keeping) (artifacts last : Artifacts),
          keeping.last? written = some artifacts → written.getLast? = some last →
            artifacts.keptDefinition.certificates = last.keptDefinition.certificates) := by
  have carried := carries_of_history history
  have follows := follows_of_history history
  exact ⟨carried, follows, coherent_iff carried follows⟩

/-- Two runs, of which only the first one has issued an authority. -/
theorem authority_of_history_supplied :
    ∃ (old new : Artifacts) (world : World), History ["out"] [old, new] world ∧
      (∀ artifacts ∈ [old, new], ∃ certificates, artifacts.Carries certificates) ∧
        (∀ keeping : Keeping, keeping.Follows [old, new] world.files ["out"]) ∧
          (Coherent world.files ["out"] ↔ ∀ (keeping : Keeping) (artifacts last : Artifacts),
            keeping.last? [old, new] = some artifacts → [old, new].getLast? = some last →
              artifacts.keptDefinition.certificates = last.keptDefinition.certificates) := by
  let authority : CertificateProfile := { certificate := "c", privateKey := "p" }
  obtain ⟨-, -, old, new, history, -⟩ := @history_supplied authority _ _ rfl rfl rfl
  exact ⟨old, new, _, history, authority_of_history history⟩

/-- **The files of an authority can be out of date**: those that were written when an authority
was issued stay when a later run takes one of the options, and then they hold another authority
than the parameters give. -/
theorem not_coherent_supplied :
    let authority : CertificateProfile := { certificate := "c", privateKey := "p" }
    let world : World := { files := .withAuthority authority, issued := 0 }
    let first := run (builtinTools markedIssues .reliable {}) (bareRequest none none) world
    let second := run (builtinTools markedIssues .reliable {})
      (bareRequest (some "a.crt") (some "a.key")) first.world
    first.result = .ok ⟨"out", .vlabs, true, .done⟩ ∧
      second.result = .ok ⟨"out", .vlabs, false, .done⟩ ∧
      (∃ written, History ["out"] written second.world) ∧
        Keeping.authority.read second.world.files ["out"] = some (markedAuthority 1) ∧
          Keeping.parameters.read second.world.files ["out"] = some authority ∧
            ¬ Coherent second.world.files ["out"] := by
  intro authority world first second
  obtain ⟨firstEnds, secondEnds, old, new, history, issued, oldCarries, taken, newCarries⟩ :=
    @history_supplied authority first second rfl rfl rfl
  have files := follows_of_history history .authority
  have parameters := follows_of_history history .parameters
  have filesOf : Keeping.authority.last? [old, new] = some old := by
    simp [Keeping.last?, Keeping.takes, issued, taken]
  have parametersOf : Keeping.parameters.last? [old, new] = some new := rfl
  have stale : Keeping.authority.read second.world.files ["out"] = some (markedAuthority 1) := by
    rw [files.read, filesOf]
    exact oldCarries.own
  have current : Keeping.parameters.read second.world.files ["out"] = some authority := by
    rw [parameters.read, parametersOf]
    exact newCarries.own
  refine ⟨firstEnds, secondEnds, ⟨_, history⟩, stale, current, ?_⟩
  intro coherent
  have present : Keeping.authority.Present second.world.files ["out"] := by
    rw [files.present, filesOf]
    exact Option.some_ne_none old
  obtain ⟨certificates, kept, given⟩ := coherent .authority present
  have same : markedAuthority 1 = authority :=
    Option.some.inj (stale.symm.trans (kept.trans (given.symm.trans current)))
  have certificate : (markedAuthority 1).certificate = "c" :=
    congrArg CertificateProfile.certificate same
  exact absurd certificate (by decide)

end Histories

end Provision
