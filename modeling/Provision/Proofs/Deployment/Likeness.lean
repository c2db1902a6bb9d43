import Provision.Proofs.Deployment.Pipeline
import Provision.Proofs.Deployment.Validation

/-!
What a template tells of its cluster.

`Definition.bare` is what is left of a definition when everything that belongs to one cluster is
taken out of it: names, counts, sizes, subnets, keys, secrets, certificates, the release and the
properties that no profile covers. The template of a definition is that of its bare one
(`Template.document_bare`), so definitions that are alike have one template
(`template_of_alike`).

Alike is weaker than equal in shape: two definitions that both leave the orchestrator out are
alike, and so are two that name the same one; one that leaves it out and one that names
`Kubernetes` are not, although their templates are the same.
-/

namespace Provision

/-! ### Alike definitions -/

/-- Definitions that differ at most in what belongs to one cluster. -/
structure Definition.Alike (definition other : Definition) : Prop where
  version : definition.version = other.version
  kind : definition.controlPlane.isHosted = other.controlPlane.isHosted
  orchestrator : definition.orchestrator.map Orchestrator.type
    = other.orchestrator.map Orchestrator.type
  principal : definition.servicePrincipal.isSome = other.servicePrincipal.isSome
  pools : definition.agentPools.map AgentPool.name = other.agentPools.map AgentPool.name

/-- A control plane of the same kind. -/
def ControlPlane.bare (plane : ControlPlane) : ControlPlane :=
  if plane.isHosted then hosted {} else managed {}

/-- The definition without what belongs to one cluster. -/
def Definition.bare (definition : Definition) : Definition where
  version := definition.version
  controlPlane := definition.controlPlane.bare
  orchestrator := (definition.orchestrator.map Orchestrator.type).map ({ type := · })
  agentPools := (definition.agentPools.map AgentPool.name).map ({ name := · })
  servicePrincipal := if definition.servicePrincipal.isSome then some {} else none

theorem Definition.Alike.bare_eq {definition other : Definition} (alike : definition.Alike other) :
    definition.bare = other.bare := by
  obtain ⟨version, kind, orchestrator, principal, pools⟩ := alike
  unfold bare ControlPlane.bare
  rw [version, kind, orchestrator, principal, pools]

/-! ### Templates -/

namespace Template

variable (definition : Definition) (flavour : Flavour)

/-- What is made of pools by their names alone is made of the bare pools. -/
theorem map_bare_pools {α : Type} {make : AgentPool → α}
    (byName : ∀ pool, make pool = make { name := pool.name }) :
    definition.bare.agentPools.map make = definition.agentPools.map make := by
  simp only [Definition.bare, List.map_map]
  exact List.map_congr_left fun pool _ => (byName pool).symm

theorem flatMap_bare_pools {α : Type} {make : AgentPool → List α}
    (byName : ∀ pool, make pool = make { name := pool.name }) :
    definition.bare.agentPools.flatMap make = definition.agentPools.flatMap make := by
  rw [List.flatMap_def, List.flatMap_def, map_bare_pools definition byName]

@[simp] theorem isHosted_bare (plane : ControlPlane) : plane.bare.isHosted = plane.isHosted := by
  cases plane <;> rfl

theorem parameters_bare : parameters definition.bare flavour = parameters definition flavour := by
  have principal :
      definition.bare.servicePrincipal.isSome = definition.servicePrincipal.isSome := by
    unfold Definition.bare
    cases definition.servicePrincipal <;> rfl
  have kind : definition.bare.controlPlane.isHosted = definition.controlPlane.isHosted :=
    isHosted_bare _
  unfold parameters
  rw [principal, kind, flatMap_bare_pools definition fun _ => rfl]

theorem resources_bare : resources definition.bare = resources definition := by
  have control : controlPlaneResource definition.bare.controlPlane
      = controlPlaneResource definition.controlPlane := by
    unfold Definition.bare
    cases definition.controlPlane <;> rfl
  unfold resources
  rw [control, map_bare_pools definition fun _ => rfl]

theorem outputs_bare : outputs definition.bare flavour = outputs definition flavour := by
  unfold outputs
  rw [map_bare_pools definition fun _ => rfl]

theorem orchestratorType_bare :
    orchestratorType definition.bare = orchestratorType definition := by
  unfold orchestratorType Definition.bare
  cases definition.orchestrator <;> rfl

/-- A template is that of the bare definition. -/
theorem document_bare : document definition.bare flavour = document definition flavour := by
  unfold document
  rw [parameters_bare, resources_bare, outputs_bare, orchestratorType_bare]
  rfl

end Template

/-! ### What is generated -/

/-- Generating succeeds for a definition with an authority of its own, and for any other one if
an authority is issued. -/
theorem exists_generated {issues : Nat → Issue} {validated : Validated} {world : World}
    (ready : validated.definition.certificates.isSome ∨
      ∃ authority, issues world.issued = .ok authority)
    (catalog : Catalog) (flavour : Flavour) :
    ∃ generated later,
      generate issues catalog validated flavour world = (.ok generated, later) := by
  cases own : validated.definition.certificates with
  | some certificates =>
      have complete := isComplete_of_sound validated.sound own
      exact ⟨_, _, generate_of_complete own complete flavour⟩
  | none =>
      rw [own] at ready
      obtain ⟨authority, issued⟩ := ready.resolve_left Bool.false_ne_true
      unfold generate
      simp only [own, Option.filter_none, issued]
      exact ⟨_, _, rfl⟩

/-- **A template tells nothing about one cluster.** Two validated definitions that are alike have
one template in either flavour: it is what is generated for each of them, with any authorities
that are issued, in any language and any world; and for each of them it is generated if the
definition has an authority or one is issued. -/
theorem template_of_alike {validated other : Validated}
    (alike : validated.definition.Alike other.definition) (flavour : Flavour) :
    ∃ template : String, ∀ subject ∈ [validated, other],
      ∀ (issues : Nat → Issue) (catalog : Catalog) (world : World),
        (subject.definition.certificates.isSome ∨
            (∃ authority, issues world.issued = .ok authority) →
          ∃ generated later,
            generate issues catalog subject flavour world = (.ok generated, later)) ∧
        ∀ generated later,
          generate issues catalog subject flavour world = (.ok generated, later) →
            generated.template = template := by
  refine ⟨(Template.document validated.definition flavour).compact, ?_⟩
  have same : Template.document other.definition flavour
      = Template.document validated.definition flavour := by
    rw [← Template.document_bare other.definition, ← alike.bare_eq, Template.document_bare]
  intro subject mem issues catalog world
  refine ⟨fun ready => exists_generated ready catalog flavour, ?_⟩
  intro generated later generates
  obtain ⟨certificates, of, -⟩ := generate_eq_ok generates
  have text : generated.template = (Template.document subject.definition flavour).compact := by
    rw [of]
    rfl
  simp only [List.mem_cons, List.not_mem_nil, or_false] at mem
  rcases mem with rfl | rfl
  · exact text
  · rw [text, same]

/-- A definition for which an authority is issued, and one with an authority of its own, that
differ in everything in which alike definitions can differ. -/
theorem template_of_alike_authority :
    let plain : Validated :=
      { definition :=
          { version := .vlabs
            controlPlane := .managed { dnsPrefix := "m", count := 3 }
            orchestrator := some { type := "Kubernetes" }
            agentPools := [{ name := "b", count := 2 }, { name := "a" }]
            linux := some { sshKeys := ["k"] }
            servicePrincipal := some { clientId := "i", secret := "s" } }
        source := "c.json"
        outputDirectory := "out"
        sound := rfl }
    let secured : Validated :=
      { definition :=
          { version := .vlabs
            controlPlane := .managed { dnsPrefix := "n", vmSize := "v", firstStaticIp := some "4" }
            orchestrator := some { type := "Kubernetes", release := some "1.8" }
            agentPools :=
              [{ name := "b", vmSize := "w" }, { name := "a", availability := some "z" }]
            linux := some { adminUsername := "u", sshKeys := ["", "l"] }
            servicePrincipal := some { clientId := "j", secret := "t" }
            certificates := some { certificate := "c", privateKey := "p" }
            extra := [("zones", .null)] }
        source := "d.json"
        outputDirectory := "new"
        sound := rfl }
    plain.definition.Alike secured.definition ∧
      ∃ template,
        (Generated.of plain.definition (markedAuthority 1) .classic
            (some (markedAuthority 1))).template = template ∧
          (Generated.of secured.definition { certificate := "c", privateKey := "p" } .classic
            none).template = template := by
  intro plain secured
  have alike : plain.definition.Alike secured.definition := ⟨rfl, rfl, rfl, rfl, rfl⟩
  let world : World := { files := { entries := [], home := [] }, issued := 0 }
  obtain ⟨template, same⟩ := template_of_alike alike .classic
  obtain ⟨-, ofPlain⟩ := same plain (by simp) markedIssues {} world
  obtain ⟨-, ofSecured⟩ := same secured (by simp) markedIssues {} world
  exact ⟨alike, template, ofPlain _ { world with issued := 1 } rfl, ofSecured _ world rfl⟩

end Provision
