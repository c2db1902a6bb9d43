import Provision.Deployment.Template
import Provision.Localization

/-!
Generating a template and its parameter values.

A definition with a certificate profile keeps its certificate authority; for any other
one a new authority is issued. Issuing is the only part of generation that is not a
function of the definition: its outcomes are given as a sequence, and a world counts how
many of them have been used.
-/

namespace Provision

inductive IssueStep where
  | parameters
  | keyPair
  | certificate
deriving DecidableEq, Repr

def IssueStep.failure : IssueStep → String
  | .parameters => "failed to create CA parameters"
  | .keyPair => "failed to generate CA key pair"
  | .certificate => "failed to generate CA certificate"

/-- An authority, or the step that failed and why. -/
abbrev Issue := Except (IssueStep × String) CertificateProfile

/-- The authority that stands for the `number`th one that is issued: marks in place of a
certificate and a key, for which material made elsewhere can be put in. -/
def markedAuthority (number : Nat) : CertificateProfile :=
  { certificate := s!"<generated-ca-certificate-{number}>"
    privateKey := s!"<generated-ca-private-key-{number}>" }

def markedIssues (issued : Nat) : Issue := .ok (markedAuthority (issued + 1))

/-- What a run works on: the files, and how many times an authority has been asked
for. -/
structure World where
  files : Files
  issued : Nat

/-- A template, its parameter values, and the certificate authority if a new one was
issued. -/
structure Generated where
  template : String
  parameters : String
  authority : Option CertificateProfile
deriving DecidableEq, Repr

def Generated.certsGenerated (generated : Generated) : Bool := generated.authority.isSome

def Generated.of (definition : Definition) (certificates : CertificateProfile)
    (flavour : Flavour) (authority : Option CertificateProfile) : Generated :=
  { template := (Template.document definition flavour).compact
    parameters := (Template.valuesDocument definition certificates flavour).compact
    authority }

/-- Generate from a definition; `issues` gives the outcome of every attempt to issue an
authority. -/
def generate (issues : Nat → Issue) (catalog : Catalog) (validated : Validated)
    (flavour : Flavour) (world : World) : Except Error Generated × World :=
  let definition := validated.definition
  match definition.certificates.filter (·.isComplete) with
  | some certificates => (.ok (.of definition certificates flavour none), world)
  | none =>
      let world' := { world with issued := world.issued + 1 }
      match issues world.issued with
      | .ok authority => (.ok (.of definition authority flavour (some authority)), world')
      | .error (step, detail) =>
          (.error (.engine validated.source s!"{catalog.localize step.failure}: {detail}"), world')

end Provision
