import Mathlib.Data.List.Forall2
import Provision.Proofs.Deployment.Pipeline
import Provision.Proofs.Deployment.Validation
import Provision.Proofs.Json.RoundTrip

/-!
A template and the values of its parameters belong together.

`Template.Fits` says that a value is given for a declared parameter: under its name, and of
the kind that was declared. What is generated for a definition without violations fits
parameter by parameter, in the order of the declarations (`parameters_fit`).

Declarations and values are written by two functions that branch differently: a value for the
administrator and the SSH key is written only if the definition has them, a declaration
always. That both are there is what validation makes sure of (`linux_of_sound`). Nothing is
asked of the names of the pools, since both sides insert the same names in the same order
(`forall₂_ofPairs`).
-/

namespace Provision

/-! ### Members side by side -/

namespace Members

variable {R : String × Json → String × Json → Prop}

/-- Inserting related members under one name keeps members related, one by one. -/
theorem forall₂_insert (sameName : ∀ first second, R first second → first.1 = second.1)
    {members members' : Members} (h : List.Forall₂ R members members') {name : String}
    {value value' : Json} (new : R (name, value) (name, value')) :
    List.Forall₂ R (members.insert name value) (members'.insert name value') := by
  induction h with
  | nil => exact .cons new .nil
  | @cons first second rest rest' related tail ih =>
      obtain ⟨other, old⟩ := first
      obtain ⟨other', old'⟩ := second
      obtain rfl : other = other' := sameName _ _ related
      by_cases same : other = name
      · simp only [insert, if_pos same]
        exact .cons new tail
      · simp only [insert, if_neg same]
        exact .cons related ih

/-- Related pairs become related members. -/
theorem forall₂_ofPairs (sameName : ∀ first second, R first second → first.1 = second.1)
    {pairs pairs' : List (String × Json)} (h : List.Forall₂ R pairs pairs') :
    List.Forall₂ R (ofPairs pairs) (ofPairs pairs') := by
  have fold : ∀ {start start' : Members}, List.Forall₂ R start start' → List.Forall₂ R
      (pairs.foldl (fun members pair => insert members pair.1 pair.2) start)
      (pairs'.foldl (fun members pair => insert members pair.1 pair.2) start') := by
    induction h with
    | nil => exact id
    | @cons first second rest rest' related tail ih =>
        intro start start' before
        obtain ⟨name, value⟩ := first
        obtain ⟨name', value'⟩ := second
        obtain rfl : name = name' := sameName _ _ related
        exact ih (forall₂_insert sameName before related)
  exact fold .nil

theorem names_eq_of_forall₂ (sameName : ∀ first second, R first second → first.1 = second.1)
    {members members' : Members} (h : List.Forall₂ R members members') :
    members.names = members'.names := by
  induction h with
  | nil => rfl
  | cons related tail ih => exact congrArg₂ List.cons (sameName _ _ related) ih

end Members

/-! ### Values for declarations -/

namespace Template

/-- Values of the kinds with which parameters are declared. -/
inductive OfKind : String → Json → Prop
  | count {value : Int} (fits : FitsWord value) (nonnegative : 0 ≤ value) :
      OfKind "int" (.number (.integer value fits))
  | text (text : String) : OfKind "string" (.string text)
  | secret (text : String) : OfKind "securestring" (.string text)

/-- The second member gives a value for the parameter that the first one declares. -/
structure Fits (declared supplied : String × Json) : Prop where
  name : declared.1 = supplied.1
  kind : ∃ members kind value, declared.2 = .object members ∧
    Members.find? members "type" = some (.string kind) ∧
      supplied.2 = .object [("value", value)] ∧ OfKind kind value

theorem fits_text (name description text : String) :
    Fits (name, declaration "string" description) (textValue name text) :=
  ⟨rfl, _, _, _, rfl, rfl, rfl, .text text⟩

theorem fits_secret (name description text : String) :
    Fits (name, declaration "securestring" description) (textValue name text) :=
  ⟨rfl, _, _, _, rfl, rfl, rfl, .secret text⟩

theorem fits_count (name description : String) (count : UInt32) :
    Fits (name, declaration "int" description) (countValue name count) :=
  ⟨rfl, _, _, _, rfl, rfl, rfl, .count _ (Int.natCast_nonneg _)⟩

/-- A definition without violations has an administrator and an SSH key. -/
theorem linux_of_sound {definition : Definition} (sound : definition.violation? = none) :
    ∃ linux key more, definition.linux = some linux ∧ linux.sshKeys = key :: more := by
  obtain ⟨linux, own, key, mem, -⟩ := hasSshKey_iff.mp (hasSshKey_of_sound sound)
  obtain ⟨first, more, same⟩ := List.exists_cons_of_ne_nil (List.ne_nil_of_mem mem)
  exact ⟨linux, first, more, own, same⟩

section Pieces

variable (definition : Definition) (certificates : CertificateProfile) (flavour : Flavour)

theorem fits_common (sound : definition.violation? = none) :
    List.Forall₂ Fits commonParameters
      (textValue "dnsNamePrefix" definition.dnsPrefix
        :: definition.linux.toList.flatMap linuxValues ++ certificateValues certificates) := by
  obtain ⟨linux, key, more, own, keys⟩ := linux_of_sound sound
  have values : linuxValues linux
      = [textValue "linuxAdminUsername" linux.adminUsername, textValue "sshRSAPublicKey" key] := by
    rw [linuxValues, keys]
    rfl
  rw [own, Option.toList_some, List.flatMap_singleton, values]
  exact .cons (fits_text ..) (.cons (fits_text ..) (.cons (fits_text ..)
    (.cons (fits_secret ..) (.cons (fits_secret ..) .nil))))

theorem fits_principal :
    List.Forall₂ Fits (if definition.servicePrincipal.isSome then principalParameters else [])
      (definition.servicePrincipal.toList.flatMap principalValues) := by
  cases definition.servicePrincipal with
  | none => exact .nil
  | some principal => exact .cons (fits_secret ..) (.cons (fits_secret ..) .nil)

theorem fits_release :
    List.Forall₂ Fits (if flavour = .classic then releaseParameters else [])
      (if flavour = .classic then releaseValues definition else []) := by
  cases flavour with
  | modern => exact .nil
  | classic => exact .cons (fits_text ..) .nil

theorem fits_master (plane : ControlPlane) :
    List.Forall₂ Fits (if plane.isHosted then [] else masterParameters) (masterValues plane) := by
  cases plane with
  | managed master => exact .cons (fits_count ..) (.cons (fits_text ..) .nil)
  | hosted master => exact .nil

theorem fits_pools (pools : List AgentPool) :
    List.Forall₂ Fits (pools.flatMap poolParameters) (pools.flatMap poolValues) := by
  induction pools with
  | nil => exact .nil
  | cons pool pools ih => exact .cons (fits_count ..) (.cons (fits_text ..) ih)

/-- All declarations and all values, one by one. -/
theorem fits_values (sound : definition.violation? = none) :
    List.Forall₂ Fits (parameters definition flavour) (values definition certificates flavour) := by
  have common := fits_common definition certificates sound
  have principal := List.rel_append common (fits_principal definition)
  have release := List.rel_append principal (fits_release definition flavour)
  have master := List.rel_append release (fits_master definition.controlPlane)
  have pools := List.rel_append master (fits_pools definition.agentPools)
  exact pools

end Pieces

/-! ### Texts -/

section Texts

open Json (Faithful)

variable {levels : Nat}

theorem faithful_texts {members : List (String × String)}
    (names : decide (members.map Prod.fst).Nodup = true) :
    (texts members).Faithful (levels + 1) := by
  refine Faithful.object ?_ (List.forall_mem_map.mpr ?_)
  · simpa [Members.names, Function.comp_def] using names
  · intro member _
    exact Faithful.string member.2

theorem faithful_declaration (kind description : String) :
    (declaration kind description).Faithful (levels + 2) := by
  refine Faithful.record rfl ?_
  simp only [List.forall_mem_cons]
  exact ⟨Faithful.string kind, faithful_texts rfl, nofun⟩

/-- Every parameter is declared by its kind and a description. -/
theorem exists_declaration (definition : Definition) (flavour : Flavour) :
    ∀ parameter ∈ parameters definition flavour,
      ∃ kind description, parameter.2 = declaration kind description := by
  have pools : ∀ parameter ∈ definition.agentPools.flatMap poolParameters,
      ∃ kind description, parameter.2 = declaration kind description := by
    simp only [List.forall_mem_flatMap, poolParameters, List.forall_mem_cons]
    intro pool _
    exact ⟨⟨_, _, rfl⟩, ⟨_, _, rfl⟩, nofun⟩
  have fixed : ∀ parameter ∈ commonParameters ++ principalParameters ++ releaseParameters
      ++ masterParameters, ∃ kind description, parameter.2 = declaration kind description := by
    simp only [commonParameters, principalParameters, releaseParameters, masterParameters,
      List.cons_append, List.nil_append, List.forall_mem_cons]
    exact ⟨⟨_, _, rfl⟩, ⟨_, _, rfl⟩, ⟨_, _, rfl⟩, ⟨_, _, rfl⟩, ⟨_, _, rfl⟩, ⟨_, _, rfl⟩,
      ⟨_, _, rfl⟩, ⟨_, _, rfl⟩, ⟨_, _, rfl⟩, ⟨_, _, rfl⟩, nofun⟩
  simp only [List.forall_mem_append] at fixed
  obtain ⟨⟨⟨common, principal⟩, release⟩, master⟩ := fixed
  unfold parameters
  simp only [List.forall_mem_append]
  refine ⟨⟨⟨⟨common, ?_⟩, ?_⟩, ?_⟩, pools⟩
  all_goals split <;> first | assumption | exact nofun

/-- A resource: what kind it is, its name, its place, and members of its own. -/
theorem faithful_resource {type version name : String} {own : Members}
    (names : decide ("type" :: "apiVersion" :: "name" :: "location" :: own.names).Nodup = true)
    (each : ∀ member ∈ own, member.2.Faithful levels) :
    (Json.object (("type", .string type) :: ("apiVersion", .string version)
      :: ("name", .string name) :: location :: own)).Faithful (levels + 1) := by
  refine Faithful.record names ?_
  simp only [location, List.forall_mem_cons]
  exact ⟨.string _, .string _, .string _, .string _, each⟩

theorem faithful_resources (definition : Definition) :
    ∀ resource ∈ resources definition, resource.Faithful (levels + 3) := by
  have control : (controlPlaneResource definition.controlPlane).Faithful (levels + 3) := by
    cases definition.controlPlane with
    | managed master =>
        refine faithful_resource rfl ?_
        simp only [List.forall_mem_cons]
        refine ⟨faithful_texts rfl, Faithful.record rfl ?_, nofun⟩
        simp only [List.forall_mem_cons]
        exact ⟨faithful_texts rfl, faithful_texts rfl, nofun⟩
    | hosted master =>
        exact faithful_resource rfl (List.forall_mem_singleton.mpr (faithful_texts rfl))
  refine List.forall_mem_cons.mpr ⟨control, List.forall_mem_map.mpr ?_⟩
  intro pool _
  exact faithful_resource rfl (List.forall_mem_singleton.mpr (faithful_texts rfl))

theorem faithful_outputs (definition : Definition) (flavour : Flavour) :
    ∀ output ∈ outputs definition flavour, output.2.Faithful (levels + 1) := by
  have each (name expression : String) : (output name expression).2.Faithful (levels + 1) :=
    faithful_texts rfl
  unfold outputs
  refine List.forall_mem_append.mpr ⟨?_, List.forall_mem_singleton.mpr (each _ _)⟩
  split
  · exact List.forall_mem_map.mpr fun pool _ => each _ _
  · exact nofun

/-- A template is given back by its text. -/
theorem faithful_document (definition : Definition) (flavour : Flavour) :
    (document definition flavour).Faithful (levels + 5) := by
  have declarations : (Json.object (Members.ofPairs (parameters definition flavour))).Faithful
      (levels + 4) := by
    refine Faithful.ofPairs ?_
    intro parameter mem
    obtain ⟨kind, description, same⟩ := exists_declaration definition flavour parameter mem
    rw [same]
    exact faithful_declaration kind description
  refine Faithful.record rfl ?_
  simp only [List.forall_mem_cons]
  exact ⟨.string _, .string _, declarations, faithful_texts rfl,
    .array (faithful_resources definition), .ofPairs (faithful_outputs definition flavour), nofun⟩

/-- Values that were supplied for declarations are given back by their text. -/
theorem faithful_of_fits {declared supplied : List (String × Json)}
    (fits : List.Forall₂ Fits declared supplied) :
    ∀ member ∈ supplied, member.2.Faithful (levels + 1) := by
  induction fits with
  | nil => exact nofun
  | cons first _ ih =>
      obtain ⟨-, _, _, value, -, -, same, kind⟩ := first
      refine List.forall_mem_cons.mpr ⟨?_, ih⟩
      rw [same]
      refine Faithful.record rfl (List.forall_mem_singleton.mpr ?_)
      cases kind with
      | count fits _ => exact .integer _ fits
      | text text => exact .string text
      | secret text => exact .string text

/-- So are the values of the parameters. -/
theorem faithful_valuesDocument {definition : Definition} {certificates : CertificateProfile}
    {flavour : Flavour} (sound : definition.violation? = none) :
    (valuesDocument definition certificates flavour).Faithful (levels + 2) :=
  Faithful.ofPairs (faithful_of_fits (fits_values definition certificates flavour sound))

end Texts

end Template

/-! ### What is generated -/

variable {issues : Nat → Issue} {catalog : Catalog} {flavour : Flavour} {world later : World}
  {validated : Validated} {generated : Generated}

/-- **A template and its parameter values agree.** Whatever is generated for a validated
definition, in either flavour and with any authority: both texts are read as objects, the
template declares its parameters in an object, and what the other text gives is exactly one
value for every parameter, in the order of the declarations, each under the name and of the
kind that is declared: a count for `int`, a text for `string` and `securestring`. -/
theorem parameters_fit
    (h : generate issues catalog validated flavour world = (.ok generated, later)) :
    ∃ template declared supplied : Members,
      Json.parse generated.template = .ok (.object template) ∧
        template.find? "parameters" = some (.object declared) ∧
          Json.parse generated.parameters = .ok (.object supplied) ∧
            supplied.names = declared.names ∧ List.Forall₂ Template.Fits declared supplied := by
  obtain ⟨certificates, same, -⟩ := generate_eq_ok h
  have sameName : ∀ first second, Template.Fits first second → first.1 = second.1 :=
    fun _ _ fits => fits.name
  have fits := Members.forall₂_ofPairs sameName
    (Template.fits_values validated.definition certificates flavour validated.sound)
  have template := (@Template.faithful_document 122 validated.definition flavour).parse_compact
  have values := (@Template.faithful_valuesDocument 125 validated.definition certificates flavour
    validated.sound).parse_compact
  rw [same]
  exact ⟨_, _, _, template, rfl, values, (Members.names_eq_of_forall₂ sameName fits).symm, fits⟩

/-- The classic flavour with a service principal and two agent pools, where the first SSH key
is empty and the authority is a new one. -/
theorem parameters_fit_classic :
    let validated : Validated :=
      { definition :=
          { version := .vlabs
            controlPlane := .managed { dnsPrefix := "m", count := 3 }
            agentPools := [{ name := "b" }, { name := "a", count := 0 }]
            linux := some { sshKeys := ["", "k"] }
            servicePrincipal := some { clientId := "i", secret := "s" } }
        source := "c.json"
        outputDirectory := "out"
        sound := rfl }
    let world : World := { files := { entries := [], home := [] }, issued := 0 }
    let generated : Generated :=
      .of validated.definition (markedAuthority 1) .classic (some (markedAuthority 1))
    generate markedIssues {} validated .classic world
        = (.ok generated, { world with issued := 1 }) ∧
      ∃ template declared supplied : Members,
        Json.parse generated.template = .ok (.object template) ∧
          template.find? "parameters" = some (.object declared) ∧
            Json.parse generated.parameters = .ok (.object supplied) ∧
              supplied.names = declared.names ∧ List.Forall₂ Template.Fits declared supplied := by
  intro validated world generated
  have generates : generate markedIssues {} validated .classic world
      = (.ok generated, { world with issued := 1 }) := rfl
  exact ⟨generates, parameters_fit generates⟩

end Provision
