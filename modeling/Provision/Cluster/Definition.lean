import Provision.Cluster.ApiVersion
import Provision.Cluster.Subnet
import Provision.Json.Basic

/-!
Cluster definitions: what a cluster is to be made of.

Exactly one control plane belongs to a definition, managed with the cluster or hosted
elsewhere. Properties that no profile covers are kept as they are in `extra`. For one run,
the DNS prefix, the SSH keys and the service principal can be replaced (`Overrides`);
everything else stays as it is in the definition.
-/

namespace Provision

/-- A control plane that is provisioned with the cluster. -/
structure ManagedMaster where
  count : UInt32 := 1
  dnsPrefix : String := ""
  vmSize : String := "Standard_D2_v2"
  subnet : Option Subnet := none
  firstStaticIp : Option String := none
deriving DecidableEq, Repr

/-- A control plane that is hosted elsewhere. -/
structure HostedMaster where
  dnsPrefix : String := ""
  fqdn : Option String := none
deriving DecidableEq, Repr

inductive ControlPlane where
  | managed (master : ManagedMaster)
  | hosted (master : HostedMaster)
deriving DecidableEq, Repr

structure Orchestrator where
  type : String
  release : Option String := none
deriving DecidableEq, Repr

structure AgentPool where
  name : String
  count : UInt32 := 1
  vmSize : String := "Standard_D2_v2"
  availability : Option String := none
  subnet : Option Subnet := none
deriving DecidableEq, Repr

/-- How to log in to the nodes: the administrator and the SSH public keys. -/
structure LinuxProfile where
  adminUsername : String := "azureuser"
  sshKeys : List String := []
deriving DecidableEq, Repr

/-- The cloud identity of the cluster. -/
structure ServicePrincipal where
  clientId : String := ""
  secret : String := ""
deriving DecidableEq, Repr

/-- The certificate and the private key of the cluster's certificate authority. -/
structure CertificateProfile where
  certificate : String := ""
  privateKey : String := ""
deriving DecidableEq, Repr

structure Definition where
  version : ApiVersion
  controlPlane : ControlPlane
  orchestrator : Option Orchestrator := none
  agentPools : List AgentPool := []
  linux : Option LinuxProfile := none
  servicePrincipal : Option ServicePrincipal := none
  certificates : Option CertificateProfile := none
  extra : Members := []
deriving Repr

namespace ControlPlane

def dnsPrefix : ControlPlane → String
  | managed master => master.dnsPrefix
  | hosted master => master.dnsPrefix

def withDnsPrefix (plane : ControlPlane) (dnsPrefix : String) : ControlPlane :=
  match plane with
  | managed master => managed { master with dnsPrefix }
  | hosted master => hosted { master with dnsPrefix }

def isHosted : ControlPlane → Bool
  | managed _ => false
  | hosted _ => true

@[simp] theorem dnsPrefix_withDnsPrefix (plane : ControlPlane) (dnsPrefix : String) :
    (plane.withDnsPrefix dnsPrefix).dnsPrefix = dnsPrefix := by
  cases plane <;> rfl

@[simp] theorem isHosted_withDnsPrefix (plane : ControlPlane) (dnsPrefix : String) :
    (plane.withDnsPrefix dnsPrefix).isHosted = plane.isHosted := by
  cases plane <;> rfl

end ControlPlane

namespace CertificateProfile

/-- Both the certificate and the key are there. -/
def isComplete (profile : CertificateProfile) : Bool :=
  !profile.certificate.isEmpty && !profile.privateKey.isEmpty

/-- Neither the certificate nor the key is there. -/
def isEmpty (profile : CertificateProfile) : Bool :=
  profile.certificate.isEmpty && profile.privateKey.isEmpty

end CertificateProfile

def Definition.dnsPrefix (definition : Definition) : String :=
  definition.controlPlane.dnsPrefix

/-! ### Replacements -/

/-- Replacements for one run. -/
structure Overrides where
  dnsPrefix : String := ""
  sshPublicKey : String := ""
  servicePrincipal : Option ServicePrincipal := none
deriving DecidableEq, Repr

/-- The definition with the replacements made. A definition without a Linux profile
gets the default one. -/
def Overrides.apply (overrides : Overrides) (definition : Definition) : Definition :=
  { definition with
    controlPlane := definition.controlPlane.withDnsPrefix overrides.dnsPrefix
    servicePrincipal := overrides.servicePrincipal
    linux := some { definition.linux.getD {} with sshKeys := [overrides.sshPublicKey] } }

end Provision
