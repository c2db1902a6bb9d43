import Provision.Cluster.Definition
import Provision.Error
import Provision.Files.Operations

/-!
What is asked for in one run, and checking a definition before anything is made from it.

A definition can be deployed if its profiles are complete and its agent pools have
usable names (`Definition.violation?`). `validate` first takes up the certificate
authority that the options name, and settles the output directory; it changes nothing
of the definition but its certificate profile. What it returns carries the proof that
there is no violation.
-/

namespace Provision

/-! ### Requests -/

/-- The options of a run. An empty path counts as absent, except for the document. -/
structure Options where
  definitionPath : String := "cluster.json"
  outputDirectory : Option String := none
  outputRoot : String := "_output"
  caCertificatePath : Option String := none
  caPrivateKeyPath : Option String := none
  classic : Bool := false
  prettyPrint : Bool := true
  parametersOnly : Bool := false
deriving DecidableEq, Repr

/-- A request for a run: its options, and replacements for the definition if any. -/
structure Request where
  options : Options := {}
  overrides : Option Overrides := none
deriving DecidableEq, Repr

def Request.merge (request : Request) (definition : Definition) : Definition :=
  match request.overrides with
  | some overrides => overrides.apply definition
  | none => definition

def nonEmpty (path : Option String) : Option String := path.filter (!·.isEmpty)

/-! ### Violations -/

inductive Violation where
  | loneCaPath
  | incompleteCertificates
  | noSshKey
  | incompletePrincipal
  | unnamedPool
  | reservedPool (name : String)
  | duplicatePool (name : String)
deriving DecidableEq, Repr

def Violation.message : Violation → String
  | .loneCaPath =>
      "--ca-certificate-path and --ca-private-key-path must be specified together"
  | .incompleteCertificates => "certificateProfile requires both caCertificate and caPrivateKey"
  | .noSshKey => "linuxProfile must contain at least one SSH public key"
  | .incompletePrincipal => "servicePrincipalProfile requires both clientId and secret"
  | .unnamedPool => "agent pool name cannot be empty"
  | .reservedPool name => s!"agent pool name '{name}' is reserved"
  | .duplicatePool name => s!"duplicate agent pool name '{name}'"

/-! ### Agent pools -/

/-- A name without regard to the case of ASCII letters. -/
def foldCase (name : String) : List Char := name.toList.map Char.toLower

/-- Names that agent pools cannot have, since the control plane's parameters start with
them. -/
def reservedPoolNames : List (List Char) := [foldCase "master"]

/-- The violation of the first pool whose name cannot be used behind pools with the
names `taken`. -/
def poolViolation? (taken : List (List Char)) : List AgentPool → Option Violation
  | [] => none
  | pool :: pools =>
      if pool.name.isEmpty then some .unnamedPool
      else if reservedPoolNames.contains (foldCase pool.name) then some (.reservedPool pool.name)
      else if taken.contains (foldCase pool.name) then some (.duplicatePool pool.name)
      else poolViolation? (foldCase pool.name :: taken) pools

/-! ### Definitions -/

/-- Whether a definition has an SSH key that is not empty. -/
def Definition.hasSshKey (definition : Definition) : Bool :=
  definition.linux.any fun linux => linux.sshKeys.any (!·.isEmpty)

def ServicePrincipal.isComplete (principal : ServicePrincipal) : Bool :=
  !principal.clientId.isEmpty && !principal.secret.isEmpty

def Definition.violation? (definition : Definition) : Option Violation :=
  if definition.certificates.any (!·.isComplete) then some .incompleteCertificates
  else if !definition.hasSshKey then some .noSshKey
  else if definition.servicePrincipal.any (!·.isComplete) then some .incompletePrincipal
  else poolViolation? [] definition.agentPools

def Definition.dropEmptyCertificates (definition : Definition) : Definition :=
  { definition with certificates := definition.certificates.filter (!·.isEmpty) }

/-! ### Runs -/

/-- A definition that can be deployed, where it was read from, and where its artifacts
are to be written. -/
structure Validated where
  definition : Definition
  source : String
  outputDirectory : String
  sound : definition.violation? = none

/-- The output directory that is asked for, or else one in the output root with the name
of the DNS prefix. -/
def outputDirectory (options : Options) (definition : Definition) : Except Error String :=
  match nonEmpty options.outputDirectory with
  | some directory => .ok directory
  | none =>
      if definition.dnsPrefix.isEmpty then
        .error (.configuration
          "cannot derive output directory: master profile has no DNS prefix")
      else .ok (Path.join options.outputRoot definition.dnsPrefix)

/-- The text of a file with CA material; `kind` names the file in errors. -/
def readCaFile (files : Files) (kind path : String) : Except Error String :=
  match files.readText path with
  | .ok text => .ok text
  | .error fault => .error (.readFailure s!"{kind} file {path}" fault.message)

/-- The certificate authority in the files that the options name, if they name any. -/
def suppliedCertificates (files : Files) (options : Options) :
    Except Error (Option CertificateProfile) :=
  match nonEmpty options.caCertificatePath, nonEmpty options.caPrivateKeyPath with
  | some certificatePath, some keyPath =>
      match readCaFile files "CA certificate" certificatePath with
      | .error error => .error error
      | .ok certificate =>
          match readCaFile files "CA private key" keyPath with
          | .error error => .error error
          | .ok privateKey => .ok (some { certificate, privateKey })
  | none, none => .ok none
  | _, _ => .error (.validation Violation.loneCaPath.message)

def Definition.withCertificates (definition : Definition) :
    Option CertificateProfile → Definition
  | some profile => { definition with certificates := some profile }
  | none => definition

/-- Check a definition against the options of a run. -/
def validate (files : Files) (options : Options) (definition : Definition) :
    Except Error Validated :=
  if !files.pathExists options.definitionPath then .error (.notFound options.definitionPath)
  else
    match outputDirectory options definition with
    | .error error => .error error
    | .ok directory =>
        match suppliedCertificates files options with
        | .error error => .error error
        | .ok supplied =>
            let settled := (definition.withCertificates supplied).dropEmptyCertificates
            match sound : settled.violation? with
            | some violation => .error (.validation violation.message)
            | none =>
                .ok { definition := settled, source := options.definitionPath
                      outputDirectory := directory, sound }

end Provision
