import Provision.Proofs.Deployment.PoolNames

/-!
The classic flavour beside the modern one.

The classic flavour adds to what the modern one gives: a parameter for the release of the
orchestrator, with its value, and an output for every agent pool. `Adds` says that a text has more
in it than another one at some places only: deleting these places from the value that it is read
as gives exactly the other text, and nothing is at these places there.

What is added stands among what both flavours have, and a deletion goes by name. It takes out what
was added and nothing else because all names are apart (`Members.adds_of_nodup`), which is where
the names of agent pools matter: `classic_adds`.
-/

namespace Provision

/-! ### Members without some names -/

namespace Members

variable {members small large front added back : Members} {name : String} {names : List String}

/-- The members that do not have one of these names. -/
def without (members : Members) (names : List String) : Members :=
  members.filter (·.1 ∉ names)

theorem without_append (front back : Members) (names : List String) :
    without (front ++ back) names = front.without names ++ back.without names :=
  List.filter_append _ _

theorem without_eq_self (absent : ∀ name ∈ members.names, name ∉ names) :
    members.without names = members := by
  refine List.filter_eq_self.mpr ?_
  intro member mem
  exact decide_eq_true (absent _ (List.mem_map_of_mem mem))

theorem without_nil (members : Members) : members.without [] = members :=
  without_eq_self fun _ _ => List.not_mem_nil

theorem without_names (members : Members) : members.without members.names = [] := by
  refine List.filter_eq_nil_iff.mpr ?_
  intro member mem
  have named : member.1 ∈ members.names := List.mem_map_of_mem mem
  simpa using named

/-- Names can be left out one after another. -/
theorem without_without (members : Members) (name : String) (names : List String) :
    (members.without [name]).without names = members.without (name :: names) := by
  unfold without
  rw [List.filter_filter]
  refine List.filter_congr ?_
  intro member _
  simp [Bool.and_comm]

/-- Members that have some names in addition to others: without them they are the others. -/
structure Adds (names : List String) (small large : Members) : Prop where
  without : large.without names = small
  there : names ⊆ large.names

theorem Adds.find? (adds : Adds names small large) (mem : name ∈ names) :
    (large.find? name).isSome = true ∧ small.find? name = none := by
  constructor
  · rw [Option.isSome_iff_ne_none]
    exact fun absent => find?_eq_none_iff.mp absent (adds.there mem)
  · rw [← adds.without]
    refine find?_eq_none_iff.mpr ?_
    intro named
    obtain ⟨member, kept, rfl⟩ := List.mem_map.mp named
    exact of_decide_eq_true (List.mem_filter.mp kept).2 mem

/-- Where no two members have one name, leaving out the names of some takes out these only. -/
theorem adds_of_nodup (distinct : large.names.Nodup) (whole : large = front ++ added ++ back)
    (rest : small = front ++ back) : Adds added.names small large := by
  subst whole rest
  rw [names_append, names_append] at distinct
  obtain ⟨first, -, behind⟩ := List.nodup_append'.mp distinct
  obtain ⟨-, -, before⟩ := List.nodup_append'.mp first
  have kept : front.without added.names = front :=
    without_eq_self fun name mem => before mem
  have kept' : back.without added.names = back :=
    without_eq_self fun name mem also => behind (List.mem_append_right _ also) mem
  constructor
  · rw [without_append, without_append, kept, without_names, kept', List.append_nil]
  · rw [names_append, names_append]
    exact fun name mem => List.mem_append_left _ (List.mem_append_right _ mem)

end Members

/-! ### Deleting from a value -/

namespace Json

def mapObject (f : Members → Members) : Json → Json
  | .object members => .object (f members)
  | value => value

/-- Delete what a path of names leads to. -/
def delete : List String → Json → Json
  | [] => id
  | [name] => mapObject (·.without [name])
  | part :: path => mapObject fun members =>
      members.map fun (name, value) => (name, if name = part then value.delete path else value)

/-- Delete what any of these paths leads to, one after another. -/
def deleteAll (value : Json) (paths : List (List String)) : Json :=
  paths.foldl (fun value path => value.delete path) value

theorem deleteAll_append (value : Json) (paths more : List (List String)) :
    value.deleteAll (paths ++ more) = (value.deleteAll paths).deleteAll more :=
  List.foldl_append

/-- Where a value has members in one part, deleting some of them there leaves them out. -/
theorem deleteAll_of_delete {around : Members → Json} {part : String}
    (once : ∀ members name,
      (around members).delete [part, name] = around (Members.without members [name]))
    (members : Members) (names : List String) :
    (around members).deleteAll (names.map ([part, ·])) = around (members.without names) := by
  induction names generalizing members with
  | nil =>
      rw [Members.without_nil]
      rfl
  | cons name names ih =>
      calc (around members).deleteAll ((name :: names).map ([part, ·]))
          = ((around members).delete [part, name]).deleteAll (names.map ([part, ·])) := rfl
        _ = (around (members.without [name])).deleteAll (names.map ([part, ·])) := by rw [once]
        _ = around (members.without (name :: names)) := by rw [ih, Members.without_without]

def valueAt (value : Json) : List String → Option Json
  | [] => some value
  | name :: path => (value.member? name).bind (·.valueAt path)

theorem valueAt_name (members : Members) (name : String) :
    (object members).valueAt [name] = members.find? name :=
  Option.bind_fun_some _

end Json

/-- A text has more in it than another one, at these places only: they lead to something in it and
to nothing in the other one, and deleting them from it gives the text of the other one. -/
def Adds (paths : List (List String)) (smaller larger : String) : Prop :=
  ∃ small large : Json, Json.parse smaller = .ok small ∧ Json.parse larger = .ok large ∧
    (large.deleteAll paths).compact = smaller ∧
      ∀ path ∈ paths, (large.valueAt path).isSome = true ∧ small.valueAt path = none

/-! ### What the classic flavour adds -/

namespace Template

def classicParameters : List String := ["orchestratorVersion"]

/-- Where a classic template has more in it than a modern one. -/
def classicPaths (definition : Definition) : List (List String) :=
  classicParameters.map (["parameters", ·])
    ++ (definition.agentPools.map nameOutput).map (["outputs", ·])

section Documents

variable {definition : Definition} {certificates : CertificateProfile}

def assembled (definition : Definition) (declared outputs : Members) : Json :=
  .object
    [ ("$schema", .string
        "https://schema.management.azure.com/schemas/2015-01-01/deploymentTemplate.json#"),
      ("contentVersion", .string "1.0.0.0"),
      ("parameters", .object declared),
      ("variables", texts
        [ ("orchestratorType", orchestratorType definition),
          ("apiModelVersion", definition.version.tag) ]),
      ("resources", .array (resources definition)),
      ("outputs", .object outputs) ]

theorem document_eq_assembled (flavour : Flavour) (sound : definition.violation? = none) :
    document definition flavour
      = assembled definition (parameters definition flavour) (outputs definition flavour) := by
  unfold document
  rw [ofPairs_of_apart (apart_parameters flavour sound),
    ofPairs_of_apart (apart_outputs flavour sound)]
  rfl

theorem valuesDocument_eq (flavour : Flavour) (sound : definition.violation? = none) :
    valuesDocument definition certificates flavour
      = .object (values definition certificates flavour) := by
  unfold valuesDocument
  rw [ofPairs_of_apart (apart_values certificates flavour sound)]

/-- Deleting parameters from a template leaves them out. -/
theorem deleteAll_parameters (names : List String) (declared outputs : Members) :
    (assembled definition declared outputs).deleteAll (names.map (["parameters", ·]))
      = assembled definition (declared.without names) outputs :=
  @Json.deleteAll_of_delete (assembled definition · outputs) "parameters"
    (fun _ _ => rfl) declared names

/-- So does deleting outputs. -/
theorem deleteAll_outputs (names : List String) (declared outputs : Members) :
    (assembled definition declared outputs).deleteAll (names.map (["outputs", ·]))
      = assembled definition declared (outputs.without names) :=
  @Json.deleteAll_of_delete (assembled definition declared) "outputs"
    (fun _ _ => rfl) outputs names

/-- The classic flavour adds one parameter. -/
theorem adds_parameters (sound : definition.violation? = none) :
    Members.Adds classicParameters (parameters definition .modern)
      (parameters definition .classic) := by
  let front := commonParameters
    ++ if definition.servicePrincipal.isSome then principalParameters else []
  let back := (if definition.controlPlane.isHosted then [] else masterParameters)
    ++ definition.agentPools.flatMap poolParameters
  have classic : parameters definition .classic = front ++ releaseParameters ++ back := by
    simp [parameters, front, back]
  have modern : parameters definition .modern = front ++ back := by
    simp [parameters, front, back]
  exact Members.adds_of_nodup (apart_parameters .classic sound).nodup classic modern

/-- It adds the value of this parameter. -/
theorem adds_values (certificates : CertificateProfile) (sound : definition.violation? = none) :
    Members.Adds classicParameters (values definition certificates .modern)
      (values definition certificates .classic) := by
  let front := textValue "dnsNamePrefix" definition.dnsPrefix
    :: definition.linux.toList.flatMap linuxValues ++ certificateValues certificates
    ++ definition.servicePrincipal.toList.flatMap principalValues
  let back := masterValues definition.controlPlane ++ definition.agentPools.flatMap poolValues
  have classic : values definition certificates .classic
      = front ++ releaseValues definition ++ back := by
    simp [values, front, back]
  have modern : values definition certificates .modern = front ++ back := by
    simp [values, front, back]
  exact Members.adds_of_nodup (apart_values certificates .classic sound).nodup classic modern

/-- It adds an output for every pool. -/
theorem adds_outputs (sound : definition.violation? = none) :
    Members.Adds (definition.agentPools.map nameOutput) (outputs definition .modern)
      (outputs definition .classic) := by
  have names : definition.agentPools.map nameOutput
      = Members.names (definition.agentPools.map poolOutput) := by
    unfold Members.names
    rw [List.map_map]
    rfl
  have classic : outputs definition .classic
      = [] ++ definition.agentPools.map poolOutput ++ [masterOutput] := rfl
  have modern : outputs definition .modern = [] ++ [masterOutput] := rfl
  rw [names]
  exact Members.adds_of_nodup (apart_outputs .classic sound).nodup classic modern

/-! ### Whole templates -/

/-- Deleting what a classic template has in addition gives the modern one. -/
theorem deleteAll_document (sound : definition.violation? = none) :
    (document definition .classic).deleteAll (classicPaths definition)
      = document definition .modern := by
  rw [document_eq_assembled .classic sound, document_eq_assembled .modern sound]
  unfold classicPaths
  rw [Json.deleteAll_append, deleteAll_parameters, deleteAll_outputs,
    (adds_parameters sound).without, (adds_outputs sound).without]

/-- A classic template has something at each of these places, and a modern one has nothing. -/
theorem valueAt_document (sound : definition.violation? = none) :
    ∀ path ∈ classicPaths definition,
      ((document definition .classic).valueAt path).isSome = true ∧
        (document definition .modern).valueAt path = none := by
  have declared : ∀ flavour name, (document definition flavour).valueAt ["parameters", name]
      = Members.find? (parameters definition flavour) name := by
    intro flavour name
    rw [document_eq_assembled flavour sound]
    exact Json.valueAt_name _ _
  have given : ∀ flavour name, (document definition flavour).valueAt ["outputs", name]
      = Members.find? (outputs definition flavour) name := by
    intro flavour name
    rw [document_eq_assembled flavour sound]
    exact Json.valueAt_name _ _
  refine List.forall_mem_append.mpr ⟨List.forall_mem_map.mpr ?_, List.forall_mem_map.mpr ?_⟩
  · intro name mem
    rw [declared, declared]
    exact (adds_parameters sound).find? mem
  · intro name mem
    rw [given, given]
    exact (adds_outputs sound).find? mem

/-- The template of the classic flavour adds a parameter and outputs. -/
theorem adds_template (sound : definition.violation? = none) :
    Adds (classicPaths definition) (document definition .modern).compact
      (document definition .classic).compact := by
  have read : ∀ flavour, Json.parse (document definition flavour).compact
      = .ok (document definition flavour) :=
    fun flavour => (@faithful_document 122 definition flavour).parse_compact
  refine ⟨_, _, read .modern, read .classic, ?_, valueAt_document sound⟩
  rw [deleteAll_document sound]

/-- So do the values of the classic flavour. -/
theorem adds_valuesDocument (certificates : CertificateProfile)
    (sound : definition.violation? = none) :
    Adds (classicParameters.map ([·])) (valuesDocument definition certificates .modern).compact
      (valuesDocument definition certificates .classic).compact := by
  have adds := adds_values certificates sound
  have read : ∀ flavour, Json.parse (valuesDocument definition certificates flavour).compact
      = .ok (.object (values definition certificates flavour)) := by
    intro flavour
    rw [parse_valuesDocument certificates flavour sound, valuesDocument_eq flavour sound]
  refine ⟨_, _, read .modern, read .classic, ?_, List.forall_mem_map.mpr ?_⟩
  · rw [valuesDocument_eq .modern sound, ← adds.without]
    rfl
  · intro name mem
    rw [Json.valueAt_name, Json.valueAt_name]
    exact adds.find? mem

end Documents

end Template

/-! ### Both flavours -/

/-- **The classic flavour only adds to the modern one.** For a validated definition with a
certificate authority, both flavours are generated. Deleting the parameter `orchestratorVersion`
and the output of every agent pool from the classic template gives the text of the modern
template, and deleting `orchestratorVersion` from the classic values gives the text of the modern
values. All that is deleted is there, and none of it is in the modern texts. -/
theorem classic_adds {validated : Validated} {certificates : CertificateProfile}
    (own : validated.definition.certificates = some certificates) (issues : Nat → Issue)
    (catalog : Catalog) (world : World) :
    ∃ modern classic : Generated,
      generate issues catalog validated .modern world = (.ok modern, world) ∧
        generate issues catalog validated .classic world = (.ok classic, world) ∧
          Adds (["parameters", "orchestratorVersion"]
              :: validated.definition.agentPools.map (["outputs", ·.name ++ "FQDN"]))
            modern.template classic.template ∧
            Adds [["orchestratorVersion"]] modern.parameters classic.parameters := by
  have complete := isComplete_of_sound validated.sound own
  refine ⟨_, _, generate_of_complete own complete _, generate_of_complete own complete _, ?_,
    Template.adds_valuesDocument certificates validated.sound⟩
  have paths : Template.classicPaths validated.definition
      = ["parameters", "orchestratorVersion"]
        :: validated.definition.agentPools.map (["outputs", ·.name ++ "FQDN"]) := by
    unfold Template.classicPaths
    rw [List.map_map]
    rfl
  exact paths ▸ Template.adds_template validated.sound

/-- A cluster with two agent pools. -/
theorem classic_adds_pools :
    let certificates : CertificateProfile := { certificate := "c", privateKey := "p" }
    let validated : Validated :=
      { definition :=
          { version := .vlabs
            controlPlane := .managed { dnsPrefix := "m" }
            agentPools := [{ name := "a" }, { name := "masterF" }]
            linux := some { sshKeys := ["k"] }
            certificates := some certificates }
        source := "c.json"
        outputDirectory := "out"
        sound := rfl }
    let world : World := { files := { entries := [], home := [] }, issued := 0 }
    validated.definition.certificates = some certificates ∧
      ∃ modern classic : Generated,
        generate markedIssues {} validated .modern world = (.ok modern, world) ∧
          generate markedIssues {} validated .classic world = (.ok classic, world) ∧
            Adds (["parameters", "orchestratorVersion"]
                :: validated.definition.agentPools.map (["outputs", ·.name ++ "FQDN"]))
              modern.template classic.template ∧
              Adds [["orchestratorVersion"]] modern.parameters classic.parameters := by
  intro certificates validated world
  have own : validated.definition.certificates = some certificates := rfl
  exact ⟨own, classic_adds own markedIssues {} world⟩

end Provision
