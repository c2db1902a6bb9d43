import Provision.Cluster.Definition
import Provision.Json.Decode

/-!
Cluster definitions as JSON.

`Definition.decode` reads a definition from a JSON value and `Definition.encode` writes
one. Profiles that are absent are not written, and `null` reads as absent. Unknown
members are ignored, except among the properties, where they are kept in order.
-/

namespace Provision

open Decoding (Field field fail inside takeMembers)

/-! ### Reading -/

/-- A dialect: its tag, or an object whose only member is the tag with the value
`null`. -/
def ApiVersion.decode : Json → Decoded ApiVersion
  | .string tag => ofTag tag
  | .object ((tag, value) :: more) => do
      let version ← ofTag tag
      match value with
      | .null => if more.isEmpty then .ok version else fail .notAVariant
      | other => inside (.name tag) (Json.Decode.wrongType other "unit")
  | _ => fail .notAVariant
where
  /-- The dialect with this tag. -/
  ofTag (tag : String) : Decoded ApiVersion :=
    match ApiVersion.ofTag? tag with
    | some version => .ok version
    | none => fail (.unknownVariant tag (ApiVersion.all.map ApiVersion.tag))

def Subnet.decode (value : Json) : Decoded Subnet := do
  let text ← Json.Decode.string value
  match Subnet.parse text with
  | .ok subnet => .ok subnet
  | .error fault => fail (.invalid (Subnet.faultMessage text fault))

def ManagedMaster.decode : Json → Decoded ManagedMaster :=
  Json.Decode.record "MasterProfile"
    [ field "count" Json.Decode.count fun count master => { master with count },
      field "dnsPrefix" Json.Decode.string fun dnsPrefix master => { master with dnsPrefix },
      field "vmSize" Json.Decode.string fun vmSize master => { master with vmSize },
      field "subnet" (Json.Decode.optional Subnet.decode)
        fun subnet master => { master with subnet },
      field "firstConsecutiveStaticIp" (Json.Decode.optional Json.Decode.string)
        fun firstStaticIp master => { master with firstStaticIp } ]
    {} .ok

def HostedMaster.decode : Json → Decoded HostedMaster :=
  Json.Decode.record "HostedMasterProfile"
    [ field "dnsPrefix" Json.Decode.string fun dnsPrefix master => { master with dnsPrefix },
      field "fqdn" (Json.Decode.optional Json.Decode.string)
        fun fqdn master => { master with fqdn } ]
    {} .ok

def Orchestrator.decode : Json → Decoded Orchestrator :=
  Json.Decode.record "OrchestratorProfile"
    [ field "orchestratorType" Json.Decode.string fun type (_, release) => (some type, release),
      field "orchestratorRelease" (Json.Decode.optional Json.Decode.string)
        fun release (type, _) => (type, release) ]
    ((none, none) : Option String × Option String)
    fun
      | (some type, release) => .ok { type, release }
      | (none, _) => .error "orchestratorType"

def AgentPool.decode : Json → Decoded AgentPool :=
  Json.Decode.record "AgentPoolProfile"
    [ field "name" Json.Decode.string fun name (_, pool) => (some name, pool),
      field "count" Json.Decode.count fun count (name, pool) => (name, { pool with count }),
      field "vmSize" Json.Decode.string fun vmSize (name, pool) => (name, { pool with vmSize }),
      field "availabilityProfile" (Json.Decode.optional Json.Decode.string)
        fun availability (name, pool) => (name, { pool with availability }),
      field "subnet" (Json.Decode.optional Subnet.decode)
        fun subnet (name, pool) => (name, { pool with subnet }) ]
    ((none, { name := "" }) : Option String × AgentPool)
    fun
      | (some name, pool) => .ok { pool with name }
      | (none, _) => .error "name"

def LinuxProfile.decodeKey : Json → Decoded String :=
  Json.Decode.record "PublicKey" [field "keyData" Json.Decode.string fun key _ => key] "" .ok

/-- The SSH configuration, which is a list of keys. -/
def LinuxProfile.decodeKeys : Json → Decoded (List String) :=
  Json.Decode.record "SshConfiguration"
    [field "publicKeys" (Json.Decode.list decodeKey) fun keys _ => keys] [] .ok

def LinuxProfile.decode : Json → Decoded LinuxProfile :=
  Json.Decode.record "LinuxProfile"
    [ field "adminUsername" Json.Decode.string
        fun adminUsername linux => { linux with adminUsername },
      field "ssh" decodeKeys fun sshKeys linux => { linux with sshKeys } ]
    {} .ok

def ServicePrincipal.decode : Json → Decoded ServicePrincipal :=
  Json.Decode.record "ServicePrincipalProfile"
    [ field "clientId" Json.Decode.string fun clientId principal => { principal with clientId },
      field "secret" Json.Decode.string fun secret principal => { principal with secret } ]
    {} .ok

def CertificateProfile.decode : Json → Decoded CertificateProfile :=
  Json.Decode.record "CertificateProfile"
    [ field "caCertificate" Json.Decode.string
        fun certificate profile => { profile with certificate },
      field "caPrivateKey" Json.Decode.string
        fun privateKey profile => { profile with privateKey } ]
    {} .ok

/-- The profiles of a definition as a document states them: each of the two kinds of
control plane may be there or not. -/
structure Profiles where
  orchestrator : Option Orchestrator := none
  managed : Option ManagedMaster := none
  hosted : Option HostedMaster := none
  agentPools : List AgentPool := []
  linux : Option LinuxProfile := none
  servicePrincipal : Option ServicePrincipal := none
  certificates : Option CertificateProfile := none
  extra : Members := []

def Profiles.fields : List (Field Json Profiles) :=
  [ field "orchestratorProfile" (Json.Decode.optional Orchestrator.decode)
      fun orchestrator profiles => { profiles with orchestrator },
    field "masterProfile" (Json.Decode.optional ManagedMaster.decode)
      fun managed profiles => { profiles with managed },
    field "hostedMasterProfile" (Json.Decode.optional HostedMaster.decode)
      fun hosted profiles => { profiles with hosted },
    field "agentPoolProfiles" (Json.Decode.list AgentPool.decode)
      fun agentPools profiles => { profiles with agentPools },
    field "linuxProfile" (Json.Decode.optional LinuxProfile.decode)
      fun linux profiles => { profiles with linux },
    field "servicePrincipalProfile" (Json.Decode.optional ServicePrincipal.decode)
      fun servicePrincipal profiles => { profiles with servicePrincipal },
    field "certificateProfile" (Json.Decode.optional CertificateProfile.decode)
      fun certificates profiles => { profiles with certificates } ]

/-- The control plane, if exactly one of the two kinds is stated. -/
def Profiles.controlPlane (profiles : Profiles) : Decoded ControlPlane :=
  match profiles.managed, profiles.hosted with
  | some master, none => .ok (.managed master)
  | none, some master => .ok (.hosted master)
  | some _, some _ =>
      fail (.invalid "masterProfile and hostedMasterProfile are mutually exclusive")
  | none, none => fail (.invalid "one of masterProfile or hostedMasterProfile is required")

/-- The properties of a definition, which only an object can state. -/
def Profiles.decode : Json → Decoded (ControlPlane × Profiles)
  | .object members => do
      let profiles ← takeMembers Profiles.fields
        (fun name value profiles => { profiles with extra := profiles.extra.insert name value })
        {} members
      let plane ← profiles.controlPlane
      return (plane, profiles)
  | other => Json.Decode.wrongType other "struct RawProperties"

def Profiles.toDefinition (profiles : Profiles) (version : ApiVersion)
    (controlPlane : ControlPlane) : Definition :=
  { version, controlPlane
    orchestrator := profiles.orchestrator
    agentPools := profiles.agentPools
    linux := profiles.linux
    servicePrincipal := profiles.servicePrincipal
    certificates := profiles.certificates
    extra := profiles.extra }

def Definition.decode : Json → Decoded Definition :=
  Json.Decode.record "ApiModel"
    [ field "apiVersion" ApiVersion.decode
        fun version (_, properties) => (some version, properties),
      field "properties" Profiles.decode
        fun properties (version, _) => (version, some properties) ]
    ((none, none) : Option ApiVersion × Option (ControlPlane × Profiles))
    fun
      | (some version, some (plane, profiles)) => .ok (profiles.toDefinition version plane)
      | (none, _) => .error "apiVersion"
      | (_, none) => .error "properties"

/-! ### Writing -/

/-- A member that is written only if there is a value. -/
def optionalMember {α : Type} (name : String) (encode : α → Json) : Option α → Members
  | some value => [(name, encode value)]
  | none => []

def encodeCount (count : UInt32) : Json := .number (.ofUInt32 count)

def Subnet.encode (subnet : Subnet) : Json := .string subnet.text

def ManagedMaster.encode (master : ManagedMaster) : Json :=
  .object <|
    [ ("count", encodeCount master.count),
      ("dnsPrefix", .string master.dnsPrefix),
      ("vmSize", .string master.vmSize) ]
    ++ optionalMember "subnet" Subnet.encode master.subnet
    ++ optionalMember "firstConsecutiveStaticIp" .string master.firstStaticIp

def HostedMaster.encode (master : HostedMaster) : Json :=
  .object <| ("dnsPrefix", .string master.dnsPrefix) :: optionalMember "fqdn" .string master.fqdn

def Orchestrator.encode (orchestrator : Orchestrator) : Json :=
  .object <|
    ("orchestratorType", .string orchestrator.type)
      :: optionalMember "orchestratorRelease" .string orchestrator.release

def AgentPool.encode (pool : AgentPool) : Json :=
  .object <|
    [ ("name", .string pool.name),
      ("count", encodeCount pool.count),
      ("vmSize", .string pool.vmSize) ]
    ++ optionalMember "availabilityProfile" .string pool.availability
    ++ optionalMember "subnet" Subnet.encode pool.subnet

def LinuxProfile.encode (linux : LinuxProfile) : Json :=
  .object
    [ ("adminUsername", .string linux.adminUsername),
      ("ssh", .object
        [ ("publicKeys",
            .array (linux.sshKeys.map fun key => .object [("keyData", .string key)])) ]) ]

def ServicePrincipal.encode (principal : ServicePrincipal) : Json :=
  .object [("clientId", .string principal.clientId), ("secret", .string principal.secret)]

def CertificateProfile.encode (profile : CertificateProfile) : Json :=
  .object
    [ ("caCertificate", .string profile.certificate),
      ("caPrivateKey", .string profile.privateKey) ]

def ControlPlane.encode : ControlPlane → Members
  | managed master => [("masterProfile", master.encode)]
  | hosted master => [("hostedMasterProfile", master.encode)]

/-- The agent pools as a member, which is left out if there are none. -/
def encodePools (pools : List AgentPool) : Members :=
  if pools.isEmpty then [] else [("agentPoolProfiles", .array (pools.map AgentPool.encode))]

/-- A definition as an object; the uninterpreted properties come last. -/
def Definition.encode (definition : Definition) : Json :=
  .object
    [ ("apiVersion", .string definition.version.tag),
      ("properties", .object <|
        optionalMember "orchestratorProfile" Orchestrator.encode definition.orchestrator
        ++ definition.controlPlane.encode
        ++ encodePools definition.agentPools
        ++ optionalMember "linuxProfile" LinuxProfile.encode definition.linux
        ++ optionalMember "servicePrincipalProfile" ServicePrincipal.encode
            definition.servicePrincipal
        ++ optionalMember "certificateProfile" CertificateProfile.encode definition.certificates
        ++ definition.extra) ]

end Provision
