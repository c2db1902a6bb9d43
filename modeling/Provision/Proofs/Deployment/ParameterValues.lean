import Provision.Proofs.Deployment.Formatting
import Provision.Proofs.Deployment.Parameters
import Provision.Proofs.Deployment.Sequence
import Provision.Proofs.Json.Lookup

/-!
The values that are given for single parameters.

Most parameters belong to the cluster as a whole, and their names are fixed
(`Template.ownNames`). Agent pools add parameters under names of their own, which all end in the
same two ways (`Template.EndsAsPool`), so no pool can replace the value of a parameter whose name
does not (`Template.textAt_valuesDocument`). The value is found again in the file that the values
are kept in, formatted or not: `parameterText?_of_prints`.

The SSH key that is given is the first one of the definition (`sshKey_of_generate`). So it can be
used to log in exactly if this one is not empty; that another key is not empty does not help, as
`not_usable_sshKey_empty` shows.
-/

namespace Provision

namespace Template

variable {definition : Definition} {certificates : CertificateProfile} {flavour : Flavour}
  {name text : String}

/-! ### Parameters of the cluster and of its pools -/

/-- The values of the parameters that do not belong to an agent pool. -/
def ownValues (definition : Definition) (certificates : CertificateProfile) (flavour : Flavour) :
    List (String × Json) :=
  textValue "dnsNamePrefix" definition.dnsPrefix
    :: definition.linux.toList.flatMap linuxValues
    ++ certificateValues certificates
    ++ definition.servicePrincipal.toList.flatMap principalValues
    ++ (if flavour = .classic then releaseValues definition else [])
    ++ masterValues definition.controlPlane

theorem values_eq (definition : Definition) (certificates : CertificateProfile)
    (flavour : Flavour) :
    values definition certificates flavour
      = ownValues definition certificates flavour ++ definition.agentPools.flatMap poolValues :=
  rfl

def ownNames : List String :=
  [ "dnsNamePrefix", "linuxAdminUsername", "sshRSAPublicKey", "caCertificate", "caPrivateKey",
    "servicePrincipalClientId", "servicePrincipalClientSecret", "orchestratorVersion",
    "masterCount", "masterVMSize" ]

theorem names_linuxValues_sublist (linux : LinuxProfile) :
    (Members.names (linuxValues linux)).Sublist ["linuxAdminUsername", "sshRSAPublicKey"] := by
  unfold linuxValues
  cases linux.sshKeys with
  | nil => exact List.Sublist.cons_cons _ (List.nil_sublist _)
  | cons key others => exact List.Sublist.refl _

/-- Each of them is given at most once, in this order. -/
theorem names_ownValues_sublist :
    (Members.names (ownValues definition certificates flavour)).Sublist ownNames := by
  have linux : (Members.names (definition.linux.toList.flatMap linuxValues)).Sublist
      ["linuxAdminUsername", "sshRSAPublicKey"] := by
    cases definition.linux with
    | none => exact List.nil_sublist _
    | some linux =>
        rw [Option.toList_some, List.flatMap_singleton]
        exact names_linuxValues_sublist linux
  have principal : (Members.names
      (definition.servicePrincipal.toList.flatMap principalValues)).Sublist
        ["servicePrincipalClientId", "servicePrincipalClientSecret"] := by
    cases definition.servicePrincipal with
    | none => exact List.nil_sublist _
    | some principal => exact List.Sublist.refl _
  have release : (Members.names
      (if flavour = .classic then releaseValues definition else [])).Sublist
        ["orchestratorVersion"] := by
    cases flavour with
    | modern => exact List.nil_sublist _
    | classic => exact List.Sublist.refl _
  have master : (Members.names (masterValues definition.controlPlane)).Sublist
      ["masterCount", "masterVMSize"] := by
    cases definition.controlPlane with
    | managed master => exact List.Sublist.refl _
    | hosted master => exact List.nil_sublist _
  have authority : (Members.names (certificateValues certificates)).Sublist
      ["caCertificate", "caPrivateKey"] := List.Sublist.refl _
  unfold ownValues
  simp only [Members.names_append]
  have common := (linux.cons_cons "dnsNamePrefix").append authority
  exact ((common.append principal).append release).append master

/-- A name that ends as the names of the parameters of agent pools do. -/
def EndsAsPool (name : String) : Prop :=
  "Count".toList <:+ name.toList ∨ "VMSize".toList <:+ name.toList

instance (name : String) : Decidable (EndsAsPool name) :=
  inferInstanceAs (Decidable ("Count".toList <:+ name.toList ∨ "VMSize".toList <:+ name.toList))

theorem endsAsPool_of_mem {pools : List AgentPool} {parameter : String × Json}
    (mem : parameter ∈ pools.flatMap poolValues) : EndsAsPool parameter.1 := by
  obtain ⟨pool, -, mem⟩ := List.mem_flatMap.mp mem
  rcases List.mem_cons.mp mem with rfl | mem
  · refine .inl ⟨pool.name.toList, ?_⟩
    exact (String.toList_append).symm
  · obtain rfl := List.mem_singleton.mp mem
    refine .inr ⟨pool.name.toList, ?_⟩
    exact (String.toList_append).symm

/-! ### Values by name -/

/-- The value of a parameter that no pool can have is found by its name. -/
theorem find?_values {value : Json}
    (mem : (name, value) ∈ ownValues definition certificates flavour)
    (own : ¬ EndsAsPool name) :
    (Members.ofPairs (values definition certificates flavour)).find? name = some value := by
  rw [values_eq]
  refine Members.find?_ofPairs (List.mem_append_left _ mem) ?_
  intro other listed
  rcases List.mem_append.mp listed with cluster | pool
  · exact Members.eq_of_mem (names_ownValues_sublist.nodup (by decide)) cluster mem
  · exact absurd (endsAsPool_of_mem pool) own

theorem textAt_valuesDocument
    (mem : textValue name text ∈ ownValues definition certificates flavour)
    (own : ¬ EndsAsPool name) :
    (valuesDocument definition certificates flavour).textAt [name, "value"] = some text := by
  have member : (valuesDocument definition certificates flavour).member? name
      = some (.object [("value", .string text)]) := find?_values mem own
  exact Json.textAt_of_member? member ["value"]

/-- No parameter has the name of the member that holds parameters in a document of their own. -/
theorem member?_valuesDocument_parameters :
    (valuesDocument definition certificates flavour).member? "parameters" = none := by
  refine Members.find?_eq_none_iff.mpr ?_
  intro named
  obtain ⟨member, mem, same⟩ := List.mem_map.mp named
  rcases List.mem_append.mp (Members.mem_of_mem_ofPairs mem) with own | pool
  · have listed := names_ownValues_sublist.subset (List.mem_map_of_mem own)
    rw [same] at listed
    exact absurd listed (by decide)
  · have ends := endsAsPool_of_mem pool
    rw [same] at ends
    exact absurd ends (by decide)

/-! ### Values that are read -/

/-- The values that are generated are read back. -/
theorem parse_valuesDocument (certificates : CertificateProfile) (flavour : Flavour)
    (sound : definition.violation? = none) :
    Json.parse (valuesDocument definition certificates flavour).compact
      = .ok (valuesDocument definition certificates flavour) :=
  (@faithful_valuesDocument 125 _ _ _ sound).parse_compact

/-- So are those that are formatted, from the document that carries them. -/
theorem parse_parameters (sound : definition.violation? = none)
    (formatted : Formatting.parameters (valuesDocument definition certificates flavour).compact
      = .ok text) :
    Json.parse text = .ok (Formatting.parametersDocument
      (Members.ofPairs (values definition certificates flavour))) := by
  have faithful := @faithful_valuesDocument 124 definition certificates flavour sound
  have wrapped := Formatting.parameters_of_parse (parse_valuesDocument certificates flavour sound)
  obtain rfl := Except.ok.inj (formatted.symm.trans wrapped)
  rw [Json.parse_eq_parseWithin]
  exact Formatting.parseWithin_parametersDocument faithful.distinct
    (Json.integral_of_wholeNumbers faithful.whole) (faithful.bound.trans_lt (by decide))

end Template

/-! ### Values in a file -/

/-- The text that a file of parameters gives for one of them. The parameters are the members of
the file, or of its member `parameters` if it is a document of their own. -/
def parameterText? (text name : String) : Option String :=
  match Json.parse text with
  | .ok document =>
      match document.member? "parameters" with
      | some parameters => parameters.textAt [name, "value"]
      | none => document.textAt [name, "value"]
  | .error _ => none

section Values

open Template

variable {definition : Definition} {certificates : CertificateProfile} {flavour : Flavour}
  {authority : Option CertificateProfile} {issues : Nat → Issue} {disk : Disk} {catalog : Catalog}
  {prettyPrint : Bool} {texts : String × String} {name text : String}

/-- The file of parameters holds the values as they were generated, or a document of them. -/
theorem parse_of_prints (sound : definition.violation? = none)
    (prints : Prints (builtinTools issues disk catalog)
      (.of definition certificates flavour authority) prettyPrint texts) :
    Json.parse texts.2 = .ok (valuesDocument definition certificates flavour) ∨
      Json.parse texts.2 = .ok (Formatting.parametersDocument
        (Members.ofPairs (values definition certificates flavour))) := by
  cases prints with
  | plain => exact .inl (parse_valuesDocument certificates flavour sound)
  | pretty first second => exact .inr (parse_parameters sound second)

/-- The text of a parameter that no pool can have is found in the file of parameters. -/
theorem parameterText?_of_prints (sound : definition.violation? = none)
    (prints : Prints (builtinTools issues disk catalog)
      (.of definition certificates flavour authority) prettyPrint texts)
    (mem : textValue name text ∈ ownValues definition certificates flavour)
    (own : ¬ EndsAsPool name) : parameterText? texts.2 name = some text := by
  have found := textAt_valuesDocument mem own
  unfold parameterText?
  rcases parse_of_prints sound prints with read | read
  · rw [read]
    simp only [member?_valuesDocument_parameters]
    exact found
  · rw [read]
    exact found

end Values

/-! ### The SSH key -/

section SshKey

variable {issues : Nat → Issue} {catalog : Catalog} {flavour : Flavour} {world later : World}
  {validated : Validated} {generated : Generated}

/-- **The SSH key in the parameters is the first one of the definition.** Whatever is generated
for a validated definition: the definition has an SSH key that is not empty, but the key that the
parameters give is the first of its keys, whatever this one is. So the parameters give a key of
the definition that is not empty exactly if the first one is not empty. -/
theorem sshKey_of_generate
    (h : generate issues catalog validated flavour world = (.ok generated, later)) :
    ∃ linux key others supplied, validated.definition.linux = some linux ∧
      linux.sshKeys = key :: others ∧ (∃ usable ∈ linux.sshKeys, usable ≠ "") ∧
        Json.parse generated.parameters = .ok supplied ∧
          supplied.textAt ["sshRSAPublicKey", "value"] = some key ∧
            ((∃ usable ∈ linux.sshKeys, usable ≠ "" ∧
              supplied.textAt ["sshRSAPublicKey", "value"] = some usable) ↔ key ≠ "") := by
  obtain ⟨certificates, same, -⟩ := generate_eq_ok h
  obtain ⟨linux, own, usable, mem, filled⟩ :=
    hasSshKey_iff.mp (hasSshKey_of_sound validated.sound)
  obtain ⟨key, others, keys⟩ := List.exists_cons_of_ne_nil (List.ne_nil_of_mem mem)
  have read : Json.parse generated.parameters
      = .ok (Template.valuesDocument validated.definition certificates flavour) := by
    rw [same]
    exact Template.parse_valuesDocument certificates flavour validated.sound
  have first : Template.textValue "sshRSAPublicKey" key
      ∈ Template.ownValues validated.definition certificates flavour := by
    simp [Template.ownValues, own, Template.linuxValues, keys]
  have supplied := Template.textAt_valuesDocument first (by decide)
  refine ⟨linux, key, others, _, own, keys, ⟨usable, mem, filled⟩, read, supplied, ?_⟩
  constructor
  · rintro ⟨usable, -, filled, found⟩ rfl
    rw [supplied] at found
    exact filled (Option.some.inj found).symm
  · intro filled
    exact ⟨key, keys ▸ List.mem_cons_self, filled, supplied⟩

/-- A usable key that an empty one stands behind. -/
theorem sshKey_of_generate_first :
    let linux : LinuxProfile := { sshKeys := ["k", ""] }
    let validated : Validated :=
      { definition :=
          { version := .vlabs, controlPlane := .managed { dnsPrefix := "m" }, linux := some linux }
        source := "c.json"
        outputDirectory := "out"
        sound := rfl }
    let world : World := { files := { entries := [], home := [] }, issued := 0 }
    let generated : Generated :=
      .of validated.definition (markedAuthority 1) .modern (some (markedAuthority 1))
    generate markedIssues {} validated .modern world
        = (.ok generated, { world with issued := 1 }) ∧
      ∃ linux key others supplied, validated.definition.linux = some linux ∧
        linux.sshKeys = key :: others ∧ (∃ usable ∈ linux.sshKeys, usable ≠ "") ∧
          Json.parse generated.parameters = .ok supplied ∧
            supplied.textAt ["sshRSAPublicKey", "value"] = some key ∧
              ((∃ usable ∈ linux.sshKeys, usable ≠ "" ∧
                supplied.textAt ["sshRSAPublicKey", "value"] = some usable) ↔ key ≠ "") := by
  intro linux validated world generated
  have generates : generate markedIssues {} validated .modern world
      = (.ok generated, { world with issued := 1 }) := rfl
  exact ⟨generates, sshKey_of_generate generates⟩

/-- **An empty SSH key is written to the parameters** if it stands before a usable one. -/
theorem not_usable_sshKey_empty :
    let linux : LinuxProfile := { sshKeys := ["", "k"] }
    let validated : Validated :=
      { definition :=
          { version := .vlabs, controlPlane := .managed { dnsPrefix := "m" }, linux := some linux }
        source := "c.json"
        outputDirectory := "out"
        sound := rfl }
    let world : World := { files := { entries := [], home := [] }, issued := 0 }
    ∃ generated supplied,
      generate markedIssues {} validated .modern world
          = (.ok generated, { world with issued := 1 }) ∧
        Json.parse generated.parameters = .ok supplied ∧
          ¬ ∃ usable ∈ linux.sshKeys, usable ≠ "" ∧
            supplied.textAt ["sshRSAPublicKey", "value"] = some usable := by
  intro linux validated world
  let values := Template.valuesDocument validated.definition (markedAuthority 1) .modern
  have supplied : values.textAt ["sshRSAPublicKey", "value"] = some "" := by
    refine Template.textAt_valuesDocument ?_ (by decide)
    exact List.mem_of_getElem? (i := 2) rfl
  have read : Json.parse values.compact = .ok values :=
    Template.parse_valuesDocument _ _ validated.sound
  refine ⟨_, values, rfl, read, ?_⟩
  rintro ⟨usable, -, filled, found⟩
  rw [supplied] at found
  exact filled (Option.some.inj found).symm

end SshKey

end Provision
