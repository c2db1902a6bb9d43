import Provision.Cluster.Definition

/-!
What replacements change in a definition, and what they leave alone.

* `Overrides.Replaced` — what a definition becomes, field by field; `apply_eq_iff` says that this is
  all that replacements do, and that they do it.
* `apply_apply` — replacements hide the ones made before them, so that only the last of several
  counts (`applyAll_concat`).
* `replaced_in_order` — so the result of any number of them, in order, is told from the definition
  and from the last ones alone.
-/

namespace Provision

/-- The second control plane is the first one under a new name: of the same kind, and with
everything but the DNS prefix as it was. -/
inductive ControlPlane.Renamed (name : String) : ControlPlane → ControlPlane → Prop
  | managed {before after : ManagedMaster} (dnsPrefix : after.dnsPrefix = name)
      (count : after.count = before.count) (vmSize : after.vmSize = before.vmSize)
      (subnet : after.subnet = before.subnet)
      (firstStaticIp : after.firstStaticIp = before.firstStaticIp) :
      Renamed name (.managed before) (.managed after)
  | hosted {before after : HostedMaster} (dnsPrefix : after.dnsPrefix = name)
      (fqdn : after.fqdn = before.fqdn) : Renamed name (.hosted before) (.hosted after)

theorem ControlPlane.withDnsPrefix_eq_iff {plane renamed : ControlPlane} {name : String} :
    plane.withDnsPrefix name = renamed ↔ plane.Renamed name renamed := by
  constructor
  · rintro rfl
    cases plane with
    | managed master => exact .managed rfl rfl rfl rfl rfl
    | hosted master => exact .hosted rfl rfl
  · rintro (⟨rfl, count, vmSize, subnet, ip⟩ | ⟨rfl, fqdn⟩)
    · simp only [withDnsPrefix, ← count, ← vmSize, ← subnet, ← ip]
    · simp only [withDnsPrefix, ← fqdn]

namespace Overrides

/-- What replacements make of a definition: the control plane gets the DNS prefix, the service
principal is replaced, also by none, and there is a Linux profile whose only key is the one given;
everything else stays. -/
structure Replaced (overrides : Overrides) (before after : Definition) : Prop where
  plane : before.controlPlane.Renamed overrides.dnsPrefix after.controlPlane
  servicePrincipal : after.servicePrincipal = overrides.servicePrincipal
  kept : ∀ linux, before.linux = some linux →
    after.linux = some { linux with sshKeys := [overrides.sshPublicKey] }
  created : before.linux = none →
    after.linux = some { adminUsername := "azureuser", sshKeys := [overrides.sshPublicKey] }
  version : after.version = before.version
  orchestrator : after.orchestrator = before.orchestrator
  agentPools : after.agentPools = before.agentPools
  certificates : after.certificates = before.certificates
  extra : after.extra = before.extra

/-- Replacements do exactly this. -/
theorem apply_eq_iff {overrides : Overrides} {before after : Definition} :
    overrides.apply before = after ↔ overrides.Replaced before after := by
  constructor
  · rintro rfl
    constructor
    case plane => exact ControlPlane.withDnsPrefix_eq_iff.mp rfl
    case kept =>
      intro linux there
      simp only [apply, there, Option.getD_some]
    case created =>
      intro absent
      simp only [apply, absent, Option.getD_none]
    all_goals rfl
  · intro replaced
    have linux : after.linux
        = some { before.linux.getD {} with sshKeys := [overrides.sshPublicKey] } := by
      cases there : before.linux with
      | none => exact replaced.created there
      | some linux => exact replaced.kept linux there
    obtain ⟨version, plane, orchestrator, pools, _, principal, certificates, extra⟩ := after
    simp only [apply, Definition.mk.injEq]
    exact ⟨replaced.version.symm, ControlPlane.withDnsPrefix_eq_iff.mpr replaced.plane,
      replaced.orchestrator.symm, replaced.agentPools.symm, linux.symm,
      replaced.servicePrincipal.symm, replaced.certificates.symm, replaced.extra.symm⟩

def applyAll (sequence : List Overrides) (definition : Definition) : Definition :=
  sequence.foldl (fun definition overrides => overrides.apply definition) definition

/-- Replacements hide the ones made before them. -/
theorem apply_apply (first second : Overrides) (definition : Definition) :
    second.apply (first.apply definition) = second.apply definition := by
  obtain ⟨version, plane, orchestrator, pools, linux, principal, certificates, extra⟩ := definition
  cases plane <;> rfl

/-- Only the last of several replacements counts. -/
theorem applyAll_concat (earlier : List Overrides) (last : Overrides) (definition : Definition) :
    applyAll (earlier ++ [last]) definition = last.apply definition := by
  induction earlier generalizing definition with
  | nil => rfl
  | cons first earlier ih => exact (ih (first.apply definition)).trans (apply_apply first last _)

/-- **The last replacements decide, and nothing but what they state is changed.** Any number of
replacements, made in order, leave what the last of them leave when they are made alone, and this
is the one definition that differs from the first in the DNS prefix of its control plane, the
service principal and the SSH keys only, apart from a Linux profile that is created if there was
none. -/
theorem replaced_in_order (earlier : List Overrides) (last : Overrides)
    (definition result : Definition) :
    applyAll (earlier ++ [last]) definition = last.apply definition ∧
      (applyAll (earlier ++ [last]) definition = result ↔ last.Replaced definition result) := by
  have same := applyAll_concat earlier last definition
  refine ⟨same, ?_⟩
  rw [same]
  exact apply_eq_iff

end Overrides

end Provision
