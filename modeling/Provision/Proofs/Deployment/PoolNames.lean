import Mathlib.Data.List.Pairwise
import Provision.Proofs.Deployment.ParameterValues
import Provision.Proofs.Deployment.Requirements

/-!
Names that are made from those of agent pools.

The parameters and the output of a pool are named by the name of the pool and an ending, and stand
among parameters and outputs with fixed names. All of them are inserted one after another, and a
name that is there already would be overwritten. `Apart` says that names differ in more than the
case of letters; `apart_values`, `apart_parameters` and `apart_outputs` say this of all names that
are inserted, so nothing is overwritten (`nothing_overwritten`).

It is enough that pools have usable names. Names with unlike endings differ whatever stands before
(`UnlikeEndings.not_sameName`), names with one ending differ as the names of the pools do
(`sameName_append_iff`), and a fixed name that ends as those of pools do is that of a pool called
`master`, which is reserved (`not_sameName_poolNames`).
-/

namespace Provision

/-! ### Names and endings -/

section Endings

variable {name other ending ending' : String} {names others endings : List String}
  {pools : List AgentPool}

theorem foldCase_append (name ending : String) :
    foldCase (name ++ ending) = foldCase name ++ foldCase ending := by
  unfold foldCase
  rw [String.toList_append, List.map_append]

theorem SameName.symm (same : SameName name other) : SameName other name := Eq.symm same

/-- What two names both end in does not matter. -/
theorem sameName_append_iff :
    SameName (name ++ ending) (other ++ ending) ↔ SameName name other := by
  unfold SameName
  rw [foldCase_append, foldCase_append]
  exact List.append_left_inj _

/-- Neither ends in the other, whatever the case of letters. -/
def UnlikeEndings (ending other : String) : Prop :=
  ¬ foldCase ending <:+ foldCase other ∧ ¬ foldCase other <:+ foldCase ending

instance (ending other : String) : Decidable (UnlikeEndings ending other) := by
  unfold UnlikeEndings; infer_instance

instance : Std.Symm UnlikeEndings where
  symm _ _ := And.symm

theorem UnlikeEndings.not_sameName (unlike : UnlikeEndings ending ending')
    (name other : String) : ¬ SameName (name ++ ending) (other ++ ending') := by
  intro same
  have folded : foldCase name ++ foldCase ending = foldCase other ++ foldCase ending' := by
    rw [← foldCase_append, ← foldCase_append]
    exact same
  have first : foldCase ending <:+ foldCase other ++ foldCase ending' :=
    folded ▸ List.suffix_append _ _
  have second : foldCase ending' <:+ foldCase other ++ foldCase ending' := List.suffix_append _ _
  rcases List.suffix_or_suffix_of_suffix first second with ends | ends
  · exact unlike.1 ends
  · exact unlike.2 ends

/-! ### Names that differ -/

/-- Names that all differ in more than the case of ASCII letters. -/
def Apart (names : List String) : Prop := names.Pairwise fun name later => ¬ SameName name later

instance (names : List String) : Decidable (Apart names) := by
  unfold Apart; infer_instance

theorem Apart.nodup (apart : Apart names) : names.Nodup :=
  List.Pairwise.imp (fun differs same => differs (congrArg foldCase same)) apart

theorem Apart.sublist (apart : Apart names) (part : others.Sublist names) : Apart others :=
  List.Pairwise.sublist part apart

theorem apart_append_iff : Apart (names ++ others) ↔
    Apart names ∧ Apart others ∧ ∀ name ∈ names, ∀ other ∈ others, ¬ SameName name other :=
  List.pairwise_append

/-- The names of pools with each of these endings. -/
def poolNames (endings : List String) (pools : List AgentPool) : List String :=
  pools.flatMap fun pool => endings.map (pool.name ++ ·)

theorem mem_poolNames_iff : name ∈ poolNames endings pools ↔
    ∃ pool ∈ pools, ∃ ending ∈ endings, pool.name ++ ending = name := by
  simp only [poolNames, List.mem_flatMap, List.mem_map]

/-- Names of usable pools with unlike endings are apart. -/
theorem apart_poolNames (unlike : endings.Pairwise UnlikeEndings) (usable : UsableNames pools) :
    Apart (poolNames endings pools) := by
  refine List.pairwise_flatMap.mpr ⟨?_, ?_⟩
  · intro pool _
    exact List.pairwise_map.mpr (unlike.imp fun unlike => unlike.not_sameName _ _)
  · refine usable.distinct.imp ?_
    intro pool later differs
    simp only [List.forall_mem_map]
    intro ending mem ending' mem'
    by_cases same : ending = ending'
    · rw [same, sameName_append_iff]
      exact differs
    · exact (unlike.forall mem mem' same).not_sameName _ _

/-- A fixed name that, if it ends as names of pools do, is that of a pool called `master`. -/
def FixedBeside (endings : List String) (name : String) : Prop :=
  ∀ ending ∈ endings, foldCase ending <:+ foldCase name → SameName name ("master" ++ ending)

instance (endings : List String) (name : String) : Decidable (FixedBeside endings name) := by
  unfold FixedBeside; infer_instance

/-- No usable pool has such a name. -/
theorem not_sameName_poolNames (fixed : FixedBeside endings name) (usable : UsableNames pools) :
    ∀ other ∈ poolNames endings pools, ¬ SameName name other := by
  intro other mem same
  obtain ⟨pool, listed, ending, ends, rfl⟩ := mem_poolNames_iff.mp mem
  have folded : foldCase name = foldCase pool.name ++ foldCase ending := by
    rw [← foldCase_append]
    exact same
  have suffix : foldCase ending <:+ foldCase name := folded ▸ List.suffix_append _ _
  have master : SameName name ("master" ++ ending) := fixed ending ends suffix
  exact usable.unreserved pool listed (sameName_append_iff.mp (same.symm.trans master))

end Endings

/-- The pools of a definition without violations have usable names. -/
theorem usableNames_of_sound {definition : Definition} (sound : definition.violation? = none) :
    UsableNames definition.agentPools := by
  by_contra unusable
  obtain ⟨earlier, pool, later, violation, split, usable, refused⟩ :=
    exists_first_refused unusable
  have violated := poolViolation?_of_refused usable refused later
  unfold Definition.violation? at sound
  rw [split, violated] at sound
  split at sound
  · cases sound
  · split at sound
    · cases sound
    · split at sound <;> cases sound

namespace Template

/-! ### What is inserted -/

section Inserted

variable {definition : Definition} {certificates : CertificateProfile} {flavour : Flavour}

def parameterEndings : List String := ["Count", "VMSize"]

def outputEndings : List String := ["FQDN"]

theorem names_poolValues (pools : List AgentPool) :
    Members.names (pools.flatMap poolValues) = poolNames parameterEndings pools := by
  unfold Members.names poolNames
  rw [List.map_flatMap]
  rfl

theorem names_poolOutputs (pools : List AgentPool) :
    Members.names (pools.map poolOutput) = poolNames outputEndings pools := by
  unfold Members.names poolNames
  rw [List.map_map, List.map_eq_flatMap]
  rfl

/-- Values are given under names that are apart. -/
theorem apart_values (certificates : CertificateProfile) (flavour : Flavour)
    (sound : definition.violation? = none) :
    Apart (Members.names (values definition certificates flavour)) := by
  have usable := usableNames_of_sound sound
  have own : Apart ownNames := by decide
  have fixed : ∀ name ∈ ownNames, FixedBeside parameterEndings name := by decide
  have unlike : parameterEndings.Pairwise UnlikeEndings := by decide
  rw [values_eq, Members.names_append, names_poolValues]
  refine apart_append_iff.mpr
    ⟨own.sublist names_ownValues_sublist, apart_poolNames unlike usable, ?_⟩
  intro name mem
  exact not_sameName_poolNames (fixed name (names_ownValues_sublist.subset mem)) usable

/-- Parameters are declared under the names of their values. -/
theorem names_parameters (certificates : CertificateProfile) (flavour : Flavour)
    (sound : definition.violation? = none) :
    Members.names (parameters definition flavour)
      = Members.names (values definition certificates flavour) :=
  Members.names_eq_of_forall₂ (fun _ _ fits => fits.name)
    (fits_values definition certificates flavour sound)

theorem apart_parameters (flavour : Flavour) (sound : definition.violation? = none) :
    Apart (Members.names (parameters definition flavour)) := by
  rw [names_parameters {} flavour sound]
  exact apart_values {} flavour sound

theorem apart_outputs (flavour : Flavour) (sound : definition.violation? = none) :
    Apart (Members.names (outputs definition flavour)) := by
  have usable := usableNames_of_sound sound
  have fixed : FixedBeside outputEndings "masterFQDN" := by decide
  have pools : Apart (poolNames outputEndings definition.agentPools) :=
    apart_poolNames (List.pairwise_singleton _ _) usable
  have master : Apart (Members.names [masterOutput]) := List.pairwise_singleton _ _
  unfold outputs
  cases flavour with
  | modern => exact master
  | classic =>
      rw [if_pos rfl, Members.names_append, names_poolOutputs]
      refine apart_append_iff.mpr ⟨pools, master, ?_⟩
      intro name mem
      refine List.forall_mem_singleton.mpr ?_
      intro same
      exact not_sameName_poolNames fixed usable name mem same.symm

/-- Inserting under names that are apart keeps everything that is inserted. -/
theorem ofPairs_of_apart {inserted : List (String × Json)}
    (apart : Apart (Members.names inserted)) : Members.ofPairs inserted = inserted :=
  Members.ofPairs_of_nodup apart.nodup

/-! ### What is found -/

/-- What was inserted, under names that are apart, and what is found in the end: all of it. -/
structure Keeps (inserted : List (String × Json)) (found : Json) : Prop where
  apart : Apart (Members.names inserted)
  whole : found = .object inserted

/-- The object of what was inserted under names that are apart. -/
theorem keeps_of_apart {inserted : List (String × Json)}
    (apart : Apart (Members.names inserted)) :
    Keeps inserted (.object (Members.ofPairs inserted)) where
  apart := apart
  whole := by rw [ofPairs_of_apart apart]

theorem Keeps.member? {inserted : List (String × Json)} {found value : Json} {name : String}
    (keeps : Keeps inserted found) (mem : (name, value) ∈ inserted) :
    found.member? name = some value := by
  rw [keeps.whole]
  exact Members.find?_of_mem keeps.apart.nodup mem

/-- The value that is given for a parameter. -/
def Given (supplied : Json) (name : String) (value : Json) : Prop :=
  supplied.member? name = some (.object [("value", value)])

/-- The values of a definition with this certificate authority are given, each under the name of
its parameter. -/
structure Gives (supplied : Json) (definition : Definition) (certificates : CertificateProfile)
    (flavour : Flavour) : Prop where
  dnsPrefix : Given supplied "dnsNamePrefix" (.string definition.dnsPrefix)
  login : ∃ linux key others, definition.linux = some linux ∧ linux.sshKeys = key :: others ∧
    Given supplied "linuxAdminUsername" (.string linux.adminUsername) ∧
      Given supplied "sshRSAPublicKey" (.string key)
  authority : Given supplied "caCertificate" (.string certificates.certificate) ∧
    Given supplied "caPrivateKey" (.string certificates.privateKey)
  principal : ∀ principal, definition.servicePrincipal = some principal →
    Given supplied "servicePrincipalClientId" (.string principal.clientId) ∧
      Given supplied "servicePrincipalClientSecret" (.string principal.secret)
  release : flavour = .classic → Given supplied "orchestratorVersion"
    (.string ((definition.orchestrator.bind Orchestrator.release).getD ""))
  master : ∀ master, definition.controlPlane = .managed master →
    Given supplied "masterCount" (.number (.ofUInt32 master.count)) ∧
      Given supplied "masterVMSize" (.string master.vmSize)
  pools : ∀ pool ∈ definition.agentPools,
    Given supplied (pool.name ++ "Count") (.number (.ofUInt32 pool.count)) ∧
      Given supplied (pool.name ++ "VMSize") (.string pool.vmSize)

/-- Values that are all kept are found under their names. -/
theorem gives_of_keeps {supplied : Json} (sound : definition.violation? = none)
    (keeps : Keeps (values definition certificates flavour) supplied) :
    Gives supplied definition certificates flavour := by
  have each : ∀ parameter ∈ values definition certificates flavour,
      supplied.member? parameter.1 = some parameter.2 := fun _ => keeps.member?
  unfold values at each
  simp only [List.forall_mem_append, List.forall_mem_cons, List.forall_mem_flatMap] at each
  obtain ⟨⟨⟨⟨⟨⟨dnsPrefix, login⟩, authority⟩, principal⟩, release⟩, master⟩, pools⟩ := each
  constructor
  · exact dnsPrefix
  · obtain ⟨linux, key, others, own, keys⟩ := linux_of_sound sound
    have login := login linux (Option.mem_toList.mpr own)
    simp only [linuxValues, keys, List.head?_cons, Option.toList_some, List.map_cons,
      List.forall_mem_cons] at login
    exact ⟨linux, key, others, own, keys, login.1, login.2.1⟩
  · simp only [certificateValues, List.forall_mem_cons] at authority
    exact ⟨authority.1, authority.2.1⟩
  · intro own same
    have principal := principal own (Option.mem_toList.mpr same)
    simp only [principalValues, List.forall_mem_cons] at principal
    exact ⟨principal.1, principal.2.1⟩
  · rintro rfl
    exact release _ (List.mem_singleton_self _)
  · intro own same
    simp only [same, masterValues, List.forall_mem_cons] at master
    exact ⟨master.1, master.2.1⟩
  · intro pool listed
    have pools := pools pool listed
    simp only [poolValues, List.forall_mem_cons] at pools
    exact ⟨pools.1, pools.2.1⟩

end Inserted

end Template

/-! ### What is generated -/

section Generated

variable {issues : Nat → Issue} {catalog : Catalog} {flavour : Flavour} {world later : World}
  {validated : Validated} {generated : Generated}

/-- What is found in the two texts that are generated. -/
structure Generated.Reads (generated : Generated) (definition : Definition)
    (certificates : CertificateProfile) (flavour : Flavour)
    (declared outputs supplied : Json) : Prop where
  used : (generated.authority <|> definition.certificates) = some certificates
  template : ∃ template : Members, Json.parse generated.template = .ok (.object template) ∧
    template.find? "parameters" = some declared ∧
      template.find? "resources" = some (.array (Template.controlPlaneResource
        definition.controlPlane :: definition.agentPools.map Template.poolResource)) ∧
        template.find? "outputs" = some outputs
  values : Json.parse generated.parameters = .ok supplied

theorem reads_of_generate
    (h : generate issues catalog validated flavour world = (.ok generated, later)) :
    ∃ certificates, generated.Reads validated.definition certificates flavour
      (.object (Members.ofPairs (Template.parameters validated.definition flavour)))
      (.object (Members.ofPairs (Template.outputs validated.definition flavour)))
      (Template.valuesDocument validated.definition certificates flavour) := by
  obtain ⟨certificates, same, -, origin⟩ := generate_eq_ok h
  refine ⟨certificates, ?_, ?_, ?_⟩
  · rcases origin with ⟨noAuthority, -, own⟩ | ⟨authority, -⟩
    · rw [noAuthority, own]
      rfl
    · rw [authority]
      rfl
  · have read := (@Template.faithful_document 122 validated.definition flavour).parse_compact
    rw [same]
    exact ⟨_, read, rfl, rfl, rfl⟩
  · rw [same]
    exact Template.parse_valuesDocument certificates flavour validated.sound

/-- **Nothing that is inserted is overwritten.** Whatever is generated for a validated definition,
in either flavour and with any authority: the parameters and the outputs of the template, and the
values of the parameters, are each inserted under names that differ in more than the case of ASCII
letters, and all of them are found in the texts. So every agent pool has the values for its own
count and size and, in the classic flavour, an output of its own beside that of the control plane,
every other parameter has the value of the definition or of the authority that is used, and the
resources are the control plane and then one for every pool, in their order. -/
theorem nothing_overwritten
    (h : generate issues catalog validated flavour world = (.ok generated, later)) :
    ∃ certificates declared outputs supplied,
      generated.Reads validated.definition certificates flavour declared outputs supplied ∧
        Template.Keeps (Template.parameters validated.definition flavour) declared ∧
          Template.Keeps (Template.outputs validated.definition flavour) outputs ∧
            Template.Keeps (Template.values validated.definition certificates flavour) supplied ∧
              Template.Gives supplied validated.definition certificates flavour ∧
                outputs.member? "masterFQDN" = some Template.masterOutput.2 ∧
                  (flavour = .classic → ∀ pool ∈ validated.definition.agentPools,
                    outputs.member? (pool.name ++ "FQDN")
                      = some (Template.poolOutput pool).2) := by
  obtain ⟨certificates, reads⟩ := reads_of_generate h
  have sound := validated.sound
  have parameters := Template.keeps_of_apart (Template.apart_parameters flavour sound)
  have outputs := Template.keeps_of_apart (Template.apart_outputs flavour sound)
  have values := Template.keeps_of_apart (Template.apart_values certificates flavour sound)
  refine ⟨certificates, _, _, _, reads, parameters, outputs, values,
    Template.gives_of_keeps sound values, ?_, ?_⟩
  · exact outputs.member? (List.mem_append_right _ (List.mem_singleton_self _))
  · rintro rfl pool listed
    exact outputs.member? (List.mem_append_left _ (List.mem_map_of_mem listed))

/-- The classic flavour with two agent pools, one of which has a name that the other one starts
with. -/
theorem nothing_overwritten_classic :
    let validated : Validated :=
      { definition :=
          { version := .vlabs
            controlPlane := .managed { dnsPrefix := "m", count := 3 }
            agentPools := [{ name := "a", count := 2 }, { name := "aCount", vmSize := "v" }]
            linux := some { sshKeys := ["k"] } }
        source := "c.json"
        outputDirectory := "out"
        sound := rfl }
    let world : World := { files := { entries := [], home := [] }, issued := 0 }
    let generated : Generated :=
      .of validated.definition (markedAuthority 1) .classic (some (markedAuthority 1))
    generate markedIssues {} validated .classic world
        = (.ok generated, { world with issued := 1 }) ∧
      ∃ certificates declared outputs supplied,
        generated.Reads validated.definition certificates .classic declared outputs supplied ∧
          Template.Keeps (Template.parameters validated.definition .classic) declared ∧
            Template.Keeps (Template.outputs validated.definition .classic) outputs ∧
              Template.Keeps (Template.values validated.definition certificates .classic)
                supplied ∧
                Template.Gives supplied validated.definition certificates .classic ∧
                  outputs.member? "masterFQDN" = some Template.masterOutput.2 ∧
                    (Flavour.classic = .classic → ∀ pool ∈ validated.definition.agentPools,
                      outputs.member? (pool.name ++ "FQDN")
                        = some (Template.poolOutput pool).2) := by
  intro validated world generated
  have generates : generate markedIssues {} validated .classic world
      = (.ok generated, { world with issued := 1 }) := rfl
  exact ⟨generates, nothing_overwritten generates⟩

end Generated

end Provision
