import Provision.Deployment.Validation
import Provision.Json.Printer

/-!
Deployment templates and the values of their parameters.

A template declares parameters, resources and outputs. It depends on the shape of the
cluster only: the kind of its control plane, whether there is a service principal, and
the names of its agent pools. What belongs to one cluster, its names, sizes, keys and
secrets, is in the parameter values. The classic flavour adds a parameter for the
release of the orchestrator, and an output for every agent pool.
-/

namespace Provision

inductive Flavour where
  | modern
  | classic
deriving DecidableEq, Repr

def Flavour.ofClassic (classic : Bool) : Flavour := if classic then .classic else .modern

def Flavour.name : Flavour → String
  | .modern => "modern"
  | .classic => "classic"

namespace Template

/-! ### Names and expressions -/

def countParameter (pool : AgentPool) : String := pool.name ++ "Count"

def sizeParameter (pool : AgentPool) : String := pool.name ++ "VMSize"

def nameOutput (pool : AgentPool) : String := pool.name ++ "FQDN"

/-- An object whose members are texts. -/
def texts (members : List (String × String)) : Json :=
  .object (members.map fun (name, value) => (name, .string value))

/-- Where every resource is placed. -/
def location : String × Json := ("location", .string "[resourceGroup().location]")

/-! ### Parameters -/

def declaration (kind description : String) : Json :=
  .object [("type", .string kind), ("metadata", texts [("description", description)])]

/-- The parameters that every cluster has. -/
def commonParameters : List (String × Json) :=
  [ ("dnsNamePrefix", declaration "string" "DNS prefix for the cluster endpoints"),
    ("linuxAdminUsername", declaration "string" "User name for the Linux virtual machines"),
    ("sshRSAPublicKey", declaration "string" "SSH public key for the admin user"),
    ("caCertificate", declaration "securestring" "Cluster CA certificate"),
    ("caPrivateKey", declaration "securestring" "Cluster CA private key") ]

def principalParameters : List (String × Json) :=
  [ ("servicePrincipalClientId", declaration "securestring" "Service principal client id"),
    ("servicePrincipalClientSecret",
      declaration "securestring" "Service principal client secret") ]

/-- The parameter that only the classic flavour has. -/
def releaseParameters : List (String × Json) :=
  [("orchestratorVersion", declaration "string" "Orchestrator release")]

def masterParameters : List (String × Json) :=
  [ ("masterCount", declaration "int" "Number of control plane nodes"),
    ("masterVMSize", declaration "string" "Size of the control plane nodes") ]

def poolParameters (pool : AgentPool) : List (String × Json) :=
  [ (countParameter pool, declaration "int" "Number of agent nodes in the pool"),
    (sizeParameter pool, declaration "string" "Size of the agent nodes in the pool") ]

def parameters (definition : Definition) (flavour : Flavour) : List (String × Json) :=
  commonParameters
    ++ (if definition.servicePrincipal.isSome then principalParameters else [])
    ++ (if flavour = .classic then releaseParameters else [])
    ++ (if definition.controlPlane.isHosted then [] else masterParameters)
    ++ definition.agentPools.flatMap poolParameters

/-! ### Resources -/

def controlPlaneResource : ControlPlane → Json
  | .managed _ =>
      .object
        [ ("type", .string "Microsoft.Compute/virtualMachines"),
          ("apiVersion", .string "2017-03-30"),
          ("name", .string
            "[concat('k8s-master-', parameters('dnsNamePrefix'), '-', copyIndex())]"),
          location,
          ("copy", texts [("name", "masterLoop"), ("count", "[parameters('masterCount')]")]),
          ("properties", .object
            [ ("hardwareProfile", texts [("vmSize", "[parameters('masterVMSize')]")]),
              ("osProfile", texts
                [ ("adminUsername", "[parameters('linuxAdminUsername')]"),
                  ("computerName", "[concat('k8s-master-', copyIndex())]") ]) ]) ]
  | .hosted _ =>
      .object
        [ ("type", .string "Microsoft.ContainerService/managedClusters"),
          ("apiVersion", .string "2017-08-31"),
          ("name", .string "[parameters('dnsNamePrefix')]"),
          location,
          ("properties", texts [("dnsPrefix", "[parameters('dnsNamePrefix')]")]) ]

def poolResource (pool : AgentPool) : Json :=
  .object
    [ ("type", .string "Microsoft.Compute/virtualMachineScaleSets"),
      ("apiVersion", .string "2017-03-30"),
      ("name", .string s!"[concat(parameters('dnsNamePrefix'), '-{pool.name}')]"),
      location,
      ("sku", texts
        [ ("name", s!"[parameters('{sizeParameter pool}')]"),
          ("capacity", s!"[parameters('{countParameter pool}')]") ]) ]

/-- All resources: the control plane, then the agent pools. -/
def resources (definition : Definition) : List Json :=
  controlPlaneResource definition.controlPlane :: definition.agentPools.map poolResource

/-! ### Outputs -/

def output (name expression : String) : String × Json :=
  (name, texts [("type", "string"), ("value", expression)])

def poolOutput (pool : AgentPool) : String × Json :=
  output (nameOutput pool)
    s!"[concat(parameters('dnsNamePrefix'), '-{pool.name}.', resourceGroup().location, '.cloudapp.azure.com')]"

def masterOutput : String × Json :=
  output "masterFQDN"
    "[concat(parameters('dnsNamePrefix'), '.', resourceGroup().location, '.cloudapp.azure.com')]"

def outputs (definition : Definition) (flavour : Flavour) : List (String × Json) :=
  (if flavour = .classic then definition.agentPools.map poolOutput else []) ++ [masterOutput]

/-! ### The whole template -/

def orchestratorType (definition : Definition) : String :=
  definition.orchestrator.elim "Kubernetes" Orchestrator.type

def document (definition : Definition) (flavour : Flavour) : Json :=
  .object
    [ ("$schema", .string
        "https://schema.management.azure.com/schemas/2015-01-01/deploymentTemplate.json#"),
      ("contentVersion", .string "1.0.0.0"),
      ("parameters", .object (Members.ofPairs (parameters definition flavour))),
      ("variables", texts
        [ ("orchestratorType", orchestratorType definition),
          ("apiModelVersion", definition.version.tag) ]),
      ("resources", .array (resources definition)),
      ("outputs", .object (Members.ofPairs (outputs definition flavour))) ]

/-! ### Parameter values -/

def value (name : String) (value : Json) : String × Json := (name, .object [("value", value)])

def textValue (name text : String) : String × Json := value name (.string text)

def countValue (name : String) (count : UInt32) : String × Json :=
  value name (.number (.ofUInt32 count))

/-- How to log in to the nodes; of several SSH keys the first one is taken. -/
def linuxValues (linux : LinuxProfile) : List (String × Json) :=
  textValue "linuxAdminUsername" linux.adminUsername
    :: linux.sshKeys.head?.toList.map (textValue "sshRSAPublicKey")

def certificateValues (profile : CertificateProfile) : List (String × Json) :=
  [textValue "caCertificate" profile.certificate, textValue "caPrivateKey" profile.privateKey]

def principalValues (principal : ServicePrincipal) : List (String × Json) :=
  [ textValue "servicePrincipalClientId" principal.clientId,
    textValue "servicePrincipalClientSecret" principal.secret ]

/-- The release of the orchestrator, or an empty text. -/
def releaseValues (definition : Definition) : List (String × Json) :=
  [textValue "orchestratorVersion" ((definition.orchestrator.bind Orchestrator.release).getD "")]

def masterValues : ControlPlane → List (String × Json)
  | .managed master =>
      [countValue "masterCount" master.count, textValue "masterVMSize" master.vmSize]
  | .hosted _ => []

def poolValues (pool : AgentPool) : List (String × Json) :=
  [countValue (countParameter pool) pool.count, textValue (sizeParameter pool) pool.vmSize]

/-- All parameter values, with this certificate authority. -/
def values (definition : Definition) (certificates : CertificateProfile) (flavour : Flavour) :
    List (String × Json) :=
  textValue "dnsNamePrefix" definition.dnsPrefix
    :: definition.linux.toList.flatMap linuxValues
    ++ certificateValues certificates
    ++ definition.servicePrincipal.toList.flatMap principalValues
    ++ (if flavour = .classic then releaseValues definition else [])
    ++ masterValues definition.controlPlane
    ++ definition.agentPools.flatMap poolValues

def valuesDocument (definition : Definition) (certificates : CertificateProfile)
    (flavour : Flavour) : Json :=
  .object (Members.ofPairs (values definition certificates flavour))

end Template

end Provision
