import Mathlib.Data.List.Induction
import Provision.Proofs.Deployment.Validation

/-!
What validation asks for, in the order in which it asks.

`Requirement.Holds` states the seven requirements without regard to how they are checked,
and `Requirement.Reports` the error for each that is not met. `validate_meets` is the whole
account of validation: it succeeds exactly if every requirement holds, it fails exactly with
the error of the first one that does not, and it changes nothing of a definition but its
certificate profile.

The proof has three parts, from which the equivalences follow because validation gives one
result: an unmet requirement is reported if all earlier ones hold (`validate_of_reports`),
every unmet requirement has something to report (`Requirement.exists_report`), and validation
succeeds if all hold (`exists_validated`).
-/

namespace Provision

/-! ### Paths and names -/

/-- An option that names this path. -/
def Stated (option : Option String) (path : String) : Prop := option = some path ∧ path ≠ ""

/-- An option that is not given, or given as an empty path. -/
def Unstated (option : Option String) : Prop := option = none ∨ option = some ""

theorem nonEmpty_eq_some_iff {option : Option String} {path : String} :
    nonEmpty option = some path ↔ Stated option path := by
  unfold nonEmpty Stated
  cases option with
  | none => simp
  | some other =>
      simp only [Option.filter_eq_some_iff, Option.some.injEq, Bool.not_eq_true']
      constructor
      · rintro ⟨rfl, filled⟩
        exact ⟨rfl, by simpa using filled⟩
      · rintro ⟨rfl, filled⟩
        exact ⟨rfl, by simpa using filled⟩

theorem nonEmpty_eq_none_iff {option : Option String} :
    nonEmpty option = none ↔ Unstated option := by
  unfold nonEmpty Unstated
  cases option with
  | none => simp
  | some path => simp

theorem stated_or_unstated (option : Option String) :
    (∃ path, Stated option path) ∨ Unstated option := by
  cases given : nonEmpty option with
  | none => exact .inr (nonEmpty_eq_none_iff.mp given)
  | some path => exact .inl ⟨path, nonEmpty_eq_some_iff.mp given⟩

theorem Stated.unique {option : Option String} {path other : String} (stated : Stated option path)
    (stated' : Stated option other) : path = other :=
  Option.some.inj (stated.1.symm.trans stated'.1)

theorem Unstated.not_stated {option : Option String} (unstated : Unstated option)
    (path : String) : ¬ Stated option path := by
  rintro ⟨rfl, filled⟩
  rcases unstated with none | empty
  · cases none
  · exact filled (Option.some.inj empty)

/-- Two names that differ in the case of ASCII letters at most. -/
def SameName (name other : String) : Prop := foldCase name = foldCase other

instance (name other : String) : Decidable (SameName name other) := by
  unfold SameName; infer_instance

/-! ### Agent pools -/

/-- Pools whose names are there, are not that of the control plane, and are all different. -/
structure UsableNames (pools : List AgentPool) : Prop where
  named : ∀ pool ∈ pools, pool.name ≠ ""
  unreserved : ∀ pool ∈ pools, ¬ SameName pool.name "master"
  distinct : pools.Pairwise fun pool later => ¬ SameName pool.name later.name

/-- Why a pool cannot stand behind pools with usable names. -/
inductive Refused (earlier : List AgentPool) (pool : AgentPool) : Violation → Prop
  | unnamed (empty : pool.name = "") : Refused earlier pool .unnamedPool
  | reserved (same : SameName pool.name "master") :
      Refused earlier pool (.reservedPool pool.name)
  | duplicate {other : AgentPool} (mem : other ∈ earlier) (same : SameName other.name pool.name) :
      Refused earlier pool (.duplicatePool pool.name)

/-- The names of pools as they are compared, last one first. -/
def takenNames (pools : List AgentPool) : List (List Char) :=
  (pools.map fun pool => foldCase pool.name).reverse

section Pools

variable {earlier later pools : List AgentPool} {pool : AgentPool} {violation : Violation}

theorem mem_takenNames_iff : foldCase pool.name ∈ takenNames earlier ↔
    ∃ other ∈ earlier, SameName other.name pool.name := by
  simp [takenNames, SameName]

theorem takenNames_concat :
    takenNames (earlier ++ [pool]) = foldCase pool.name :: takenNames earlier := by
  simp [takenNames]

theorem contains_reservedPoolNames_iff :
    reservedPoolNames.contains (foldCase pool.name) ↔ SameName pool.name "master" := by
  simp [reservedPoolNames, SameName]

/-- One more pool. -/
theorem usableNames_concat_iff :
    UsableNames (earlier ++ [pool]) ↔
      UsableNames earlier ∧ pool.name ≠ "" ∧ ¬ SameName pool.name "master" ∧
        ∀ other ∈ earlier, ¬ SameName other.name pool.name := by
  constructor
  · rintro ⟨named, unreserved, distinct⟩
    obtain ⟨namedEarlier, namedPool⟩ := List.forall_mem_append.mp named
    obtain ⟨unreservedEarlier, unreservedPool⟩ := List.forall_mem_append.mp unreserved
    obtain ⟨distinctEarlier, -, apart⟩ := List.pairwise_append.mp distinct
    refine ⟨⟨namedEarlier, unreservedEarlier, distinctEarlier⟩, ?_, ?_, ?_⟩
    · exact namedPool pool List.mem_cons_self
    · exact unreservedPool pool List.mem_cons_self
    · intro other mem
      exact apart other mem pool List.mem_cons_self
  · rintro ⟨⟨named, unreserved, distinct⟩, namedPool, unreservedPool, apart⟩
    constructor
    · exact List.forall_mem_append.mpr ⟨named, List.forall_mem_singleton.mpr namedPool⟩
    · exact List.forall_mem_append.mpr ⟨unreserved, List.forall_mem_singleton.mpr unreservedPool⟩
    · refine List.pairwise_append.mpr ⟨distinct, List.pairwise_singleton _ _, ?_⟩
      intro other mem
      exact List.forall_mem_singleton.mpr (apart other mem)

/-- Behind usable names, a pool is usable or there is a reason to refuse it. -/
theorem exists_refused (usable : UsableNames earlier)
    (unusable : ¬ UsableNames (earlier ++ [pool])) :
    ∃ violation, Refused earlier pool violation := by
  by_cases empty : pool.name = ""
  · exact ⟨_, .unnamed empty⟩
  by_cases reserved : SameName pool.name "master"
  · exact ⟨_, .reserved reserved⟩
  by_cases duplicate : ∃ other ∈ earlier, SameName other.name pool.name
  · obtain ⟨other, mem, same⟩ := duplicate
    exact ⟨_, .duplicate mem same⟩
  · refine absurd (usableNames_concat_iff.mpr ⟨usable, empty, reserved, ?_⟩) unusable
    intro other mem same
    exact duplicate ⟨other, mem, same⟩

/-- Usable names in front are passed over, and are remembered. -/
theorem poolViolation?_append (usable : UsableNames earlier) (later : List AgentPool) :
    poolViolation? [] (earlier ++ later) = poolViolation? (takenNames earlier) later := by
  induction earlier using List.reverseRecOn generalizing later with
  | nil => rfl
  | append_singleton earlier pool ih =>
      obtain ⟨usable, named, unreserved, apart⟩ := usableNames_concat_iff.mp usable
      have unnamed : pool.name.isEmpty = false := by simpa using named
      have free : (takenNames earlier).contains (foldCase pool.name) = false := by
        rw [List.contains_eq_mem, decide_eq_false_iff_not, mem_takenNames_iff]
        rintro ⟨other, mem, same⟩
        exact apart other mem same
      have notMaster : reservedPoolNames.contains (foldCase pool.name) = false := by
        rw [Bool.eq_false_iff]
        exact fun reserved => unreserved (contains_reservedPoolNames_iff.mp reserved)
      rw [List.append_assoc, List.singleton_append, ih usable, takenNames_concat, poolViolation?,
        unnamed, notMaster, free]
      rfl

theorem poolViolation?_of_usableNames (usable : UsableNames pools) :
    poolViolation? [] pools = none := by
  have passed := poolViolation?_append usable []
  rwa [List.append_nil] at passed

/-- The first pool that is refused decides. -/
theorem poolViolation?_of_refused (usable : UsableNames earlier)
    (refused : Refused earlier pool violation) (later : List AgentPool) :
    poolViolation? [] (earlier ++ pool :: later) = some violation := by
  rw [poolViolation?_append usable, poolViolation?]
  cases refused with
  | unnamed empty =>
      rw [empty]
      rfl
  | reserved same =>
      have named : pool.name.isEmpty = false := by
        rw [Bool.eq_false_iff]
        intro empty
        rw [String.isEmpty_iff.mp empty] at same
        exact absurd same (by decide)
      rw [named, contains_reservedPoolNames_iff.mpr same]
      rfl
  | @duplicate other mem same =>
      have named : pool.name.isEmpty = false := by
        rw [Bool.eq_false_iff]
        intro empty
        rw [SameName, String.isEmpty_iff.mp empty] at same
        exact usable.named other mem (by simpa [foldCase] using same)
      have unreserved : reservedPoolNames.contains (foldCase pool.name) = false := by
        rw [Bool.eq_false_iff]
        intro reserved
        exact usable.unreserved other mem (same.trans (contains_reservedPoolNames_iff.mp reserved))
      have taken : (takenNames earlier).contains (foldCase pool.name) = true := by
        rw [List.contains_eq_mem, decide_eq_true_iff]
        exact mem_takenNames_iff.mpr ⟨other, mem, same⟩
      rw [named, unreserved, taken]
      rfl

/-- Of pools without usable names there is a first one to refuse. -/
theorem exists_first_refused (unusable : ¬ UsableNames pools) :
    ∃ earlier pool later violation, pools = earlier ++ pool :: later ∧ UsableNames earlier ∧
      Refused earlier pool violation := by
  induction pools using List.reverseRecOn with
  | nil => exact absurd ⟨nofun, nofun, List.Pairwise.nil⟩ unusable
  | append_singleton pools last ih =>
      by_cases usable : UsableNames pools
      · obtain ⟨violation, refused⟩ := exists_refused usable unusable
        exact ⟨pools, last, [], violation, rfl, usable, refused⟩
      · obtain ⟨earlier, pool, later, violation, rfl, usable, refused⟩ := ih usable
        exact ⟨earlier, pool, later ++ [last], violation, by simp, usable, refused⟩

end Pools

/-! ### Requirements -/

/-- The certificate authority in the files that the options name, if they name any. -/
inductive Supplies (files : Files) (options : Options) : Option CertificateProfile → Prop
  | nothing (noCertificate : Unstated options.caCertificatePath)
      (noKey : Unstated options.caPrivateKeyPath) : Supplies files options none
  | authority {certificatePath keyPath certificate privateKey : String}
      (certificateStated : Stated options.caCertificatePath certificatePath)
      (keyStated : Stated options.caPrivateKeyPath keyPath)
      (certificateRead : files.readText certificatePath = .ok certificate)
      (keyRead : files.readText keyPath = .ok privateKey) :
      Supplies files options (some { certificate, privateKey })

/-- A certificate profile that is complete or wholly empty. -/
def CertificateProfile.Whole (profile : CertificateProfile) : Prop :=
  profile.certificate ≠ "" ∧ profile.privateKey ≠ "" ∨
    profile.certificate = "" ∧ profile.privateKey = ""

inductive Requirement where
  | document
  | directory
  | authority
  | certificates
  | sshKey
  | principal
  | pools
deriving DecidableEq, Repr

namespace Requirement

/-- The place of a requirement in the order in which they are looked at. -/
def place : Requirement → Nat
  | document => 1
  | directory => 2
  | authority => 3
  | certificates => 4
  | sshKey => 5
  | principal => 6
  | pools => 7

variable (files : Files) (options : Options) (definition : Definition)

/-- What a requirement asks of the files, the options and the definition. The certificate
profile is that of a supplied authority, and that of the definition if none is supplied. -/
def Holds : Requirement → Prop
  | document => files.pathExists options.definitionPath
  | directory => (∃ path, Stated options.outputDirectory path) ∨ definition.dnsPrefix ≠ ""
  | authority => ∃ supplied, Supplies files options supplied
  | certificates => ∀ supplied, Supplies files options supplied →
      ∀ profile, (supplied <|> definition.certificates) = some profile → profile.Whole
  | sshKey => ∃ linux, definition.linux = some linux ∧ ∃ key ∈ linux.sshKeys, key ≠ ""
  | principal => ∀ principal, definition.servicePrincipal = some principal →
      principal.clientId ≠ "" ∧ principal.secret ≠ ""
  | pools => UsableNames definition.agentPools

/-- The error for a requirement that is not met. -/
inductive Reports : Requirement → Error → Prop
  | document : Reports document (.notFound options.definitionPath)
  | directory : Reports directory
      (.configuration "cannot derive output directory: master profile has no DNS prefix")
  | loneCertificate {path : String} (stated : Stated options.caCertificatePath path)
      (noKey : Unstated options.caPrivateKeyPath) :
      Reports authority (.validation Violation.loneCaPath.message)
  | loneKey {path : String} (noCertificate : Unstated options.caCertificatePath)
      (stated : Stated options.caPrivateKeyPath path) :
      Reports authority (.validation Violation.loneCaPath.message)
  | certificateFile {path keyPath : String} {fault : FileFault}
      (stated : Stated options.caCertificatePath path)
      (keyStated : Stated options.caPrivateKeyPath keyPath)
      (unread : files.readText path = .error fault) :
      Reports authority (.readFailure s!"CA certificate file {path}" fault.message)
  | keyFile {path keyPath certificate : String} {fault : FileFault}
      (stated : Stated options.caCertificatePath path)
      (keyStated : Stated options.caPrivateKeyPath keyPath)
      (read : files.readText path = .ok certificate)
      (unread : files.readText keyPath = .error fault) :
      Reports authority (.readFailure s!"CA private key file {keyPath}" fault.message)
  | certificates : Reports certificates (.validation Violation.incompleteCertificates.message)
  | sshKey : Reports sshKey (.validation Violation.noSshKey.message)
  | principal : Reports principal (.validation Violation.incompletePrincipal.message)
  | pool {earlier later : List AgentPool} {pool : AgentPool} {violation : Violation}
      (split : definition.agentPools = earlier ++ pool :: later) (usable : UsableNames earlier)
      (refused : Refused earlier pool violation) :
      Reports pools (.validation violation.message)

/-- A requirement that is not met although all earlier ones are. -/
def FirstUnmet (requirement : Requirement) : Prop :=
  ¬ requirement.Holds files options definition ∧
    ∀ earlier : Requirement, earlier.place < requirement.place →
      earlier.Holds files options definition

end Requirement

section Checks

variable {files : Files} {options : Options} {definition : Definition}
  {supplied : Option CertificateProfile}

/-! ### Checks -/

/-- Where the artifacts go. -/
theorem outputDirectory_eq_ok_iff {directory : String} :
    outputDirectory options definition = .ok directory ↔
      Stated options.outputDirectory directory ∨
        Unstated options.outputDirectory ∧ definition.dnsPrefix ≠ "" ∧
          directory = Path.join options.outputRoot definition.dnsPrefix := by
  unfold outputDirectory
  rcases stated_or_unstated options.outputDirectory with ⟨path, stated⟩ | unstated
  · rw [nonEmpty_eq_some_iff.mpr stated]
    constructor
    · rintro ⟨⟩
      exact .inl stated
    · rintro (stated' | ⟨unstated, -⟩)
      · exact congrArg Except.ok (stated.unique stated')
      · exact absurd stated (unstated.not_stated path)
  · rw [nonEmpty_eq_none_iff.mpr unstated]
    have notStated := unstated.not_stated directory
    by_cases empty : definition.dnsPrefix = ""
    · simp [empty, notStated]
    · have filled : definition.dnsPrefix.isEmpty = false := by simpa using empty
      simp [filled, notStated, unstated, empty, eq_comm]

theorem outputDirectory_eq_error (unstated : Unstated options.outputDirectory)
    (empty : definition.dnsPrefix = "") :
    outputDirectory options definition = .error (.configuration
      "cannot derive output directory: master profile has no DNS prefix") := by
  unfold outputDirectory
  rw [nonEmpty_eq_none_iff.mpr unstated, empty]
  rfl

theorem readCaFile_eq_ok_iff {kind path text : String} :
    readCaFile files kind path = .ok text ↔ files.readText path = .ok text := by
  unfold readCaFile
  cases files.readText path <;> simp

theorem readCaFile_eq_error {kind path : String} {fault : FileFault}
    (unread : files.readText path = .error fault) :
    readCaFile files kind path = .error (.readFailure s!"{kind} file {path}" fault.message) := by
  unfold readCaFile
  rw [unread]

theorem suppliedCertificates_eq_ok_iff :
    suppliedCertificates files options = .ok supplied ↔ Supplies files options supplied := by
  constructor
  · intro given
    unfold suppliedCertificates at given
    split at given
    · rename_i certificatePath keyPath certificateGiven keyGiven
      split at given
      · cases given
      · rename_i certificate certificateRead
        split at given
        · cases given
        · rename_i privateKey keyRead
          cases given
          exact .authority (nonEmpty_eq_some_iff.mp certificateGiven)
            (nonEmpty_eq_some_iff.mp keyGiven) (readCaFile_eq_ok_iff.mp certificateRead)
            (readCaFile_eq_ok_iff.mp keyRead)
    · rename_i noCertificate noKey
      cases given
      exact .nothing (nonEmpty_eq_none_iff.mp noCertificate) (nonEmpty_eq_none_iff.mp noKey)
    · cases given
  · intro supplies
    unfold suppliedCertificates
    cases supplies with
    | nothing noCertificate noKey =>
        rw [nonEmpty_eq_none_iff.mpr noCertificate, nonEmpty_eq_none_iff.mpr noKey]
    | authority certificateStated keyStated certificateRead keyRead =>
        simp only [nonEmpty_eq_some_iff.mpr certificateStated, nonEmpty_eq_some_iff.mpr keyStated,
          readCaFile_eq_ok_iff.mpr certificateRead, readCaFile_eq_ok_iff.mpr keyRead]

/-- A definition after a supplied authority has been taken up and an empty profile dropped. -/
theorem dropEmptyCertificates_withCertificates (definition : Definition)
    (supplied : Option CertificateProfile) :
    (definition.withCertificates supplied).dropEmptyCertificates
      = { definition with
          certificates := (supplied <|> definition.certificates).filter (!·.isEmpty) } := by
  cases supplied <;> rfl

/-- Behind an empty profile that was dropped, only one with a single part is incomplete. -/
theorem any_incomplete_eq_false_iff {profile? : Option CertificateProfile} :
    (profile?.filter (!·.isEmpty)).any (!·.isComplete) = false ↔
      ∀ profile, profile? = some profile → profile.Whole := by
  cases profile? with
  | none => simp
  | some profile =>
      by_cases certificate : profile.certificate = "" <;>
      by_cases privateKey : profile.privateKey = "" <;>
      simp [Option.filter, CertificateProfile.isEmpty, CertificateProfile.isComplete,
        CertificateProfile.Whole, certificate, privateKey]

theorem any_incompletePrincipal_eq_false_iff {principal? : Option ServicePrincipal} :
    principal?.any (!·.isComplete) = false ↔
      ∀ principal, principal? = some principal →
        principal.clientId ≠ "" ∧ principal.secret ≠ "" := by
  cases principal? with
  | none => simp
  | some principal => simp [ServicePrincipal.isComplete]

/-! ### The first unmet requirement -/

open Requirement (Holds Reports FirstUnmet)

/-- A violation is reported once the first three requirements are met. -/
theorem validate_eq_error_of_violation {directory : String} {violation : Violation}
    (exist : files.pathExists options.definitionPath = true)
    (settled : outputDirectory options definition = .ok directory)
    (supplies : Supplies files options supplied)
    (violated : ((definition.withCertificates supplied).dropEmptyCertificates).violation?
      = some violation) :
    validate files options definition = .error (.validation violation.message) := by
  unfold validate
  simp only [exist, settled, suppliedCertificates_eq_ok_iff.mpr supplies, Bool.not_true,
    Bool.false_eq_true, if_false]
  split
  · rename_i other violated'
    rw [violated] at violated'
    cases violated'
    rfl
  · rename_i sound
    rw [violated] at sound
    cases sound

/-- There is an output directory exactly if one is stated or can be named. -/
theorem exists_outputDirectory_iff :
    (∃ directory, outputDirectory options definition = .ok directory) ↔
      Holds files options definition .directory := by
  simp only [outputDirectory_eq_ok_iff, Holds]
  constructor
  · rintro ⟨directory, stated | ⟨-, named, -⟩⟩
    · exact .inl ⟨directory, stated⟩
    · exact .inr named
  · intro either
    rcases stated_or_unstated options.outputDirectory with ⟨path, stated⟩ | unstated
    · exact ⟨path, .inl stated⟩
    · rcases either with ⟨path, stated⟩ | named
      · exact absurd stated (unstated.not_stated path)
      · exact ⟨_, .inr ⟨unstated, named, rfl⟩⟩

theorem suppliedCertificates_of_reports {error : Error}
    (reports : Reports files options definition .authority error) :
    suppliedCertificates files options = .error error := by
  unfold suppliedCertificates
  cases reports with
  | loneCertificate stated noKey =>
      rw [nonEmpty_eq_some_iff.mpr stated, nonEmpty_eq_none_iff.mpr noKey]
  | loneKey noCertificate stated =>
      rw [nonEmpty_eq_none_iff.mpr noCertificate, nonEmpty_eq_some_iff.mpr stated]
  | certificateFile stated keyStated unread =>
      simp only [nonEmpty_eq_some_iff.mpr stated, nonEmpty_eq_some_iff.mpr keyStated,
        readCaFile_eq_error unread]
      rfl
  | keyFile stated keyStated read unread =>
      simp only [nonEmpty_eq_some_iff.mpr stated, nonEmpty_eq_some_iff.mpr keyStated,
        readCaFile_eq_ok_iff.mpr read, readCaFile_eq_error unread]
      rfl

/-- What is wrong with a definition is decided by the last four requirements in their order. -/
theorem violation?_settled (definition : Definition) (supplied : Option CertificateProfile) :
    ((definition.withCertificates supplied).dropEmptyCertificates).violation?
      = if ((supplied <|> definition.certificates).filter (!·.isEmpty)).any (!·.isComplete) then
          some .incompleteCertificates
        else if !definition.hasSshKey then some .noSshKey
        else if definition.servicePrincipal.any (!·.isComplete) then some .incompletePrincipal
        else poolViolation? [] definition.agentPools := by
  rw [dropEmptyCertificates_withCertificates]
  rfl

theorem Supplies.unique {other : Option CertificateProfile}
    (supplies : Supplies files options supplied) (supplies' : Supplies files options other) :
    supplied = other :=
  Except.ok.inj ((suppliedCertificates_eq_ok_iff.mpr supplies).symm.trans
    (suppliedCertificates_eq_ok_iff.mpr supplies'))

theorem any_incomplete_eq_false (supplies : Supplies files options supplied)
    (holds : Holds files options definition .certificates) :
    ((supplied <|> definition.certificates).filter (!·.isEmpty)).any (!·.isComplete) = false :=
  any_incomplete_eq_false_iff.mpr (holds supplied supplies)

/-- The last four requirements are about the definition as it is settled. -/
theorem violation?_of_reports {requirement : Requirement} {error : Error}
    (unmet : FirstUnmet files options definition requirement)
    (reports : Reports files options definition requirement error)
    (late : Requirement.authority.place < requirement.place)
    (supplies : Supplies files options supplied) :
    ∃ violation, error = .validation violation.message ∧
      ((definition.withCertificates supplied).dropEmptyCertificates).violation?
        = some violation := by
  obtain ⟨fails, earlier⟩ := unmet
  rw [violation?_settled]
  cases reports with
  | certificates =>
      have incomplete : ((supplied <|> definition.certificates).filter (!·.isEmpty)).any
          (!·.isComplete) = true := by
        rw [← Bool.not_eq_false, any_incomplete_eq_false_iff]
        intro whole
        refine fails ?_
        intro other supplies'
        rwa [← supplies.unique supplies']
      exact ⟨_, rfl, if_pos incomplete⟩
  | sshKey =>
      have complete := any_incomplete_eq_false supplies (earlier .certificates (by decide))
      have noKey : definition.hasSshKey = false := by
        rw [Bool.eq_false_iff]
        exact fun key => fails (hasSshKey_iff.mp key)
      rw [complete, noKey]
      exact ⟨_, rfl, rfl⟩
  | principal =>
      have complete := any_incomplete_eq_false supplies (earlier .certificates (by decide))
      have key : definition.hasSshKey = true := hasSshKey_iff.mpr (earlier .sshKey (by decide))
      have incomplete : definition.servicePrincipal.any (!·.isComplete) = true := by
        rw [← Bool.not_eq_false, any_incompletePrincipal_eq_false_iff]
        exact fails
      rw [complete, key, incomplete]
      exact ⟨_, rfl, rfl⟩
  | pool split usable refused =>
      have complete := any_incomplete_eq_false supplies (earlier .certificates (by decide))
      have key : definition.hasSshKey = true := hasSshKey_iff.mpr (earlier .sshKey (by decide))
      have principal : definition.servicePrincipal.any (!·.isComplete) = false :=
        any_incompletePrincipal_eq_false_iff.mpr (earlier .principal (by decide))
      rw [complete, key, principal, split, poolViolation?_of_refused usable refused]
      exact ⟨_, rfl, rfl⟩
  | _ => exact absurd late (by decide)

/-- An unmet requirement is reported if all earlier ones are met. -/
theorem validate_of_reports {requirement : Requirement} {error : Error}
    (unmet : FirstUnmet files options definition requirement)
    (reports : Reports files options definition requirement error) :
    validate files options definition = .error error := by
  have ⟨fails, earlier⟩ := unmet
  cases requirement with
  | document =>
      cases reports
      have missing : files.pathExists options.definitionPath = false := by simpa [Holds] using fails
      unfold validate
      rw [missing]
      rfl
  | directory =>
      cases reports
      have exist : files.pathExists options.definitionPath = true := earlier .document (by decide)
      obtain ⟨noneStated, unnamed⟩ := not_or.mp fails
      have unstated := (stated_or_unstated options.outputDirectory).resolve_left noneStated
      unfold validate
      rw [exist, outputDirectory_eq_error unstated (not_not.mp unnamed)]
      rfl
  | authority =>
      have exist : files.pathExists options.definitionPath = true := earlier .document (by decide)
      obtain ⟨directory, settled⟩ := exists_outputDirectory_iff.mpr (earlier .directory (by decide))
      unfold validate
      simp only [exist, settled, suppliedCertificates_of_reports reports]
      rfl
  | _ =>
      have exist : files.pathExists options.definitionPath = true := earlier .document (by decide)
      obtain ⟨directory, settled⟩ := exists_outputDirectory_iff.mpr (earlier .directory (by decide))
      obtain ⟨supplied, supplies⟩ := earlier .authority (by decide)
      obtain ⟨violation, rfl, violated⟩ := violation?_of_reports unmet reports (by decide) supplies
      exact validate_eq_error_of_violation exist settled supplies violated

/-- Every unmet requirement has something to report. -/
theorem exists_report {requirement : Requirement}
    (unmet : ¬ Holds files options definition requirement) :
    ∃ error, Reports files options definition requirement error := by
  cases requirement with
  | document => exact ⟨_, .document⟩
  | directory => exact ⟨_, .directory⟩
  | certificates => exact ⟨_, .certificates⟩
  | sshKey => exact ⟨_, .sshKey⟩
  | principal => exact ⟨_, .principal⟩
  | pools =>
      obtain ⟨earlier, pool, later, violation, split, usable, refused⟩ := exists_first_refused unmet
      exact ⟨_, .pool split usable refused⟩
  | authority =>
      rcases stated_or_unstated options.caCertificatePath with ⟨path, stated⟩ | noCertificate <;>
      rcases stated_or_unstated options.caPrivateKeyPath with ⟨keyPath, keyStated⟩ | noKey
      · cases read : files.readText path with
        | error fault => exact ⟨_, .certificateFile stated keyStated read⟩
        | ok certificate =>
            cases keyRead : files.readText keyPath with
            | error fault => exact ⟨_, .keyFile stated keyStated read keyRead⟩
            | ok privateKey => exact absurd ⟨_, .authority stated keyStated read keyRead⟩ unmet
      · exact ⟨_, .loneCertificate stated noKey⟩
      · exact ⟨_, .loneKey noCertificate keyStated⟩
      · exact absurd ⟨_, .nothing noCertificate noKey⟩ unmet

/-- If requirements are unmet, one of them is the first. -/
theorem exists_firstUnmet {requirement : Requirement}
    (unmet : ¬ Holds files options definition requirement) :
    ∃ first, FirstUnmet files options definition first := by
  induction place : requirement.place using Nat.strongRecOn generalizing requirement with
  | _ n ih =>
      by_cases earlier : ∀ other : Requirement, other.place < requirement.place →
          Holds files options definition other
      · exact ⟨requirement, unmet, earlier⟩
      · simp only [not_forall] at earlier
        obtain ⟨other, before, unmet'⟩ := earlier
        exact ih other.place (place ▸ before) unmet' rfl

/-- Validation succeeds if all requirements are met. -/
theorem exists_validated
    (met : ∀ requirement, Holds files options definition requirement) :
    ∃ validated, validate files options definition = .ok validated := by
  obtain ⟨directory, settled⟩ := exists_outputDirectory_iff.mpr (met .directory)
  obtain ⟨supplied, supplies⟩ := met .authority
  have complete := any_incomplete_eq_false supplies (met .certificates)
  have key : definition.hasSshKey = true := hasSshKey_iff.mpr (met .sshKey)
  have principal : definition.servicePrincipal.any (!·.isComplete) = false :=
    any_incompletePrincipal_eq_false_iff.mpr (met .principal)
  have sound : ((definition.withCertificates supplied).dropEmptyCertificates).violation?
      = none := by
    rw [violation?_settled, complete, key, principal, poolViolation?_of_usableNames (met .pools)]
    rfl
  let validated : Validated :=
    { definition := (definition.withCertificates supplied).dropEmptyCertificates
      source := options.definitionPath
      outputDirectory := directory
      sound }
  exact ⟨validated, validate_eq_ok_iff.mpr
    ⟨met .document, settled, rfl, supplied, suppliedCertificates_eq_ok_iff.mpr supplies, rfl⟩⟩

end Checks

/-! ### The whole account -/

/-- What validation has made of a definition: the certificate profile is that of a supplied
authority, or else its own, without one that is wholly empty; everything else is as it was. -/
structure Validated.Settles (validated : Validated) (files : Files) (options : Options)
    (definition : Definition) : Prop where
  unchanged : validated.definition
    = { definition with certificates := validated.definition.certificates }
  profile : ∃ supplied, Supplies files options supplied ∧
    ∀ profile, validated.definition.certificates = some profile ↔
      (supplied <|> definition.certificates) = some profile ∧
        ¬ (profile.certificate = "" ∧ profile.privateKey = "")
  source : validated.source = options.definitionPath
  directory : Stated options.outputDirectory validated.outputDirectory ∨
    Unstated options.outputDirectory ∧
      validated.outputDirectory = Path.join options.outputRoot definition.dnsPrefix

theorem settles_of_validate {files : Files} {options : Options} {definition : Definition}
    {validated : Validated} (h : validate files options definition = .ok validated) :
    validated.Settles files options definition := by
  obtain ⟨-, settled, source, supplied, given, same⟩ := validate_eq_ok_iff.mp h
  rw [dropEmptyCertificates_withCertificates] at same
  constructor
  · rw [same]
  · refine ⟨supplied, suppliedCertificates_eq_ok_iff.mp given, ?_⟩
    intro profile
    rw [same]
    have filled : (!profile.isEmpty) = true ↔
        ¬ (profile.certificate = "" ∧ profile.privateKey = "") := by
      simp only [Bool.not_eq_true', ← Bool.not_eq_true, CertificateProfile.isEmpty,
        Bool.and_eq_true, String.isEmpty_iff]
    rw [Option.filter_eq_some_iff, filled]
  · exact source
  · rcases outputDirectory_eq_ok_iff.mp settled with stated | ⟨unstated, -, named⟩
    · exact .inl stated
    · exact .inr ⟨unstated, named⟩

/-- **Validation accepts exactly what meets all requirements, reports the first that is not
met, and changes nothing but the certificate profile.** For every state of the files, all
options and every definition: there is a validated definition exactly if all seven
requirements hold; there is an error exactly if some requirement is the first that does not
hold, and the error is the one this requirement reports; and what is validated is the
definition itself, apart from its certificate profile. -/
theorem validate_meets (files : Files) (options : Options) (definition : Definition) :
    ((∃ validated, validate files options definition = .ok validated) ↔
      ∀ requirement : Requirement, requirement.Holds files options definition) ∧
    (∀ error, validate files options definition = .error error ↔
      ∃ requirement, Requirement.FirstUnmet files options definition requirement ∧
        requirement.Reports files options definition error) ∧
    ∀ validated, validate files options definition = .ok validated →
      validated.Settles files options definition := by
  -- either all requirements hold, or the first unmet one is reported
  have outcome : (∀ requirement : Requirement, requirement.Holds files options definition) ∨
      ∃ requirement error, Requirement.FirstUnmet files options definition requirement ∧
        requirement.Reports files options definition error := by
    by_cases met : ∀ requirement : Requirement, requirement.Holds files options definition
    · exact .inl met
    · simp only [not_forall] at met
      obtain ⟨requirement, unmet⟩ := met
      obtain ⟨first, firstUnmet⟩ := exists_firstUnmet unmet
      obtain ⟨error, reports⟩ := exists_report firstUnmet.1
      exact .inr ⟨first, error, firstUnmet, reports⟩
  refine ⟨⟨?_, exists_validated⟩, ?_, fun _ => settles_of_validate⟩
  · rintro ⟨validated, accepted⟩
    rcases outcome with met | ⟨requirement, error, first, reports⟩
    · exact met
    · cases accepted.symm.trans (validate_of_reports first reports)
  · intro error
    constructor
    · intro refused
      rcases outcome with met | ⟨requirement, other, first, reports⟩
      · obtain ⟨validated, accepted⟩ := exists_validated met
        cases accepted.symm.trans refused
      · cases refused.symm.trans (validate_of_reports first reports)
        exact ⟨requirement, first, reports⟩
    · rintro ⟨requirement, first, reports⟩
      exact validate_of_reports first reports

end Provision
