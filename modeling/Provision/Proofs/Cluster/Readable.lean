import Provision.Cluster.Loading
import Provision.Proofs.Cluster.Codec

/-!
Definitions that survive being written and read again.

* `Definition.Readable` — the condition. Nothing is asked of the profiles; the properties that
  no profile covers have to be storable, must not take the name of a profile, and must have
  their subnets first already, since loading puts them there.
* `Readable.parse_of_encode` — what was written for a readable definition is loaded as this
  definition.
* `Definition.readable_of_parse` — every definition that was loaded is readable, if the
  numbers of its document are integers and its names are plain.
-/

namespace Provision

open Decoding

/-! ### Properties -/

def ControlPlane.managed? : ControlPlane → Option ManagedMaster
  | managed master => some master
  | hosted _ => none

def ControlPlane.hosted? : ControlPlane → Option HostedMaster
  | managed _ => none
  | hosted master => some master

/-- The profiles of a definition as a document states them. -/
def Definition.profiles (definition : Definition) : Profiles where
  orchestrator := definition.orchestrator
  managed := definition.controlPlane.managed?
  hosted := definition.controlPlane.hosted?
  agentPools := definition.agentPools
  linux := definition.linux
  servicePrincipal := definition.servicePrincipal
  certificates := definition.certificates
  extra := definition.extra

/-- The members in which the profiles of a definition are written. -/
def Definition.profileMembers (definition : Definition) : Members :=
  optionalMember "orchestratorProfile" Orchestrator.encode definition.orchestrator
    ++ definition.controlPlane.encode
    ++ encodePools definition.agentPools
    ++ optionalMember "linuxProfile" LinuxProfile.encode definition.linux
    ++ optionalMember "servicePrincipalProfile" ServicePrincipal.encode definition.servicePrincipal
    ++ optionalMember "certificateProfile" CertificateProfile.encode definition.certificates

/-- Keep a property that no profile covers. -/
def Profiles.keep (name : String) (value : Json) (profiles : Profiles) : Profiles :=
  { profiles with extra := profiles.extra.insert name value }

/-- The properties that are no profiles are kept in their order. -/
theorem Profiles.foldl_keep (members : Members) (profiles : Profiles) :
    members.foldl (fun built member => Profiles.keep member.1 member.2 built) profiles
      = { profiles with
          extra := members.foldl (fun kept member => kept.insert member.1 member.2)
            profiles.extra } := by
  induction members generalizing profiles with
  | nil => rfl
  | cons member members ih => exact ih (Profiles.keep member.1 member.2 profiles)

variable {profiles : Profiles} {more : Members}

theorem takeMembers_pools {pools : List AgentPool} (none : profiles.agentPools = []) :
    takeMembers Profiles.fields Profiles.keep profiles
        ((encodePools pools).mapValues Json.subnetFirst ++ more)
      = takeMembers Profiles.fields Profiles.keep { profiles with agentPools := pools } more := by
  cases pools with
  | nil =>
      cases profiles
      cases none
      rfl
  | cons pool pools =>
      have read := restores_list restores_pool (pool :: pools)
      exact Eq.trans (takeMembers_field rfl read) rfl

theorem takeMembers_plane {plane : ControlPlane} (noManaged : profiles.managed = none)
    (noHosted : profiles.hosted = none) :
    takeMembers Profiles.fields Profiles.keep profiles
        (plane.encode.mapValues Json.subnetFirst ++ more)
      = takeMembers Profiles.fields Profiles.keep
          { profiles with managed := plane.managed?, hosted := plane.hosted? } more := by
  cases profiles
  cases noManaged
  cases noHosted
  cases plane with
  | managed master =>
      have read := restores_optional restores_managed (fun _ => nofun) master
      exact Eq.trans (takeMembers_field rfl read) rfl
  | hosted master =>
      have read := restores_optional restores_hosted (fun _ => nofun) master
      exact Eq.trans (takeMembers_field rfl read) rfl

/-- The profiles are taken up as they were written. -/
theorem takeMembers_profileMembers (definition : Definition) (extra more : Members) :
    takeMembers Profiles.fields Profiles.keep { extra }
        (definition.profileMembers.mapValues Json.subnetFirst ++ more)
      = takeMembers Profiles.fields Profiles.keep { definition.profiles with extra } more := by
  simp only [Definition.profileMembers, Members.mapValues_append, List.append_assoc]
  refine (takeMembers_optional rfl restores_orchestrator (fun _ => nofun) rfl).trans ?_
  refine (takeMembers_plane rfl rfl).trans ?_
  refine (takeMembers_pools rfl).trans ?_
  refine (takeMembers_optional rfl restores_linux (fun _ => nofun) rfl).trans ?_
  refine (takeMembers_optional rfl restores_principal (fun _ => nofun) rfl).trans ?_
  exact (takeMembers_optional rfl restores_certificates (fun _ => nofun) rfl).trans rfl

/-! ### Readable definitions -/

def Profiles.names : List String := Profiles.fields.map Field.name

/-- A definition that can be written and read again: its dialect knows its control plane,
and the properties that no profile covers are storable beside the profiles, with a subnet
leading wherever there is one. -/
structure Definition.Readable (definition : Definition) : Prop where
  hosted : definition.controlPlane.isHosted → definition.version.supportsHosted
  storable : Members.Storable 125 definition.extra
  leads : (Json.object definition.extra).subnetLeads
  unclaimed : ∀ name ∈ definition.extra.names, name ∉ Profiles.names

/-- Being readable is a matter of the dialect, the kind of the control plane, and the
properties that no profile covers. -/
theorem Definition.Readable.congr {definition other : Definition} (h : definition.Readable)
    (version : other.version = definition.version)
    (plane : other.controlPlane.isHosted = definition.controlPlane.isHosted)
    (extra : other.extra = definition.extra) : other.Readable := by
  constructor
  · rw [version, plane]
    exact h.hosted
  · rw [extra]
    exact h.storable
  · rw [extra]
    exact h.leads
  · rw [extra]
    exact h.unclaimed

theorem find?_fields_eq_none_iff {name : String} :
    Profiles.fields.find? (·.name == name) = none ↔ name ∉ Profiles.names := by
  rw [List.find?_eq_none]
  constructor
  · intro none mem
    obtain ⟨field, listed, rfl⟩ := List.mem_map.mp mem
    exact none field listed (beq_self_eq_true _)
  · intro unclaimed field mem same
    exact unclaimed (beq_iff_eq.mp same ▸ List.mem_map_of_mem mem)

/-- What holds of the member for every profile holds of the members of all profiles. -/
theorem forall_profileMembers {P : String × Json → Prop}
    (orchestrator : ∀ o : Orchestrator, P ("orchestratorProfile", o.encode))
    (managed : ∀ m : ManagedMaster, P ("masterProfile", m.encode))
    (hosted : ∀ m : HostedMaster, P ("hostedMasterProfile", m.encode))
    (pools : ∀ ps : List AgentPool, P ("agentPoolProfiles", .array (ps.map AgentPool.encode)))
    (linux : ∀ l : LinuxProfile, P ("linuxProfile", l.encode))
    (principal : ∀ p : ServicePrincipal, P ("servicePrincipalProfile", p.encode))
    (certificates : ∀ c : CertificateProfile, P ("certificateProfile", c.encode))
    (definition : Definition) : ∀ member ∈ definition.profileMembers, P member := by
  have plane : ∀ member ∈ definition.controlPlane.encode, P member := by
    cases definition.controlPlane with
    | managed master => exact List.forall_mem_singleton.mpr (managed master)
    | hosted master => exact List.forall_mem_singleton.mpr (hosted master)
  have agents : ∀ member ∈ encodePools definition.agentPools, P member := by
    unfold encodePools
    split
    · exact nofun
    · exact List.forall_mem_singleton.mpr (pools _)
  simp only [Definition.profileMembers, List.forall_mem_append]
  exact ⟨⟨⟨⟨⟨forall_optionalMember orchestrator, plane⟩, agents⟩, forall_optionalMember linux⟩,
    forall_optionalMember principal⟩, forall_optionalMember certificates⟩

theorem isSubnet_profileMembers (definition : Definition) :
    ∀ member ∈ definition.profileMembers, Json.isSubnet member = false := by
  refine forall_profileMembers ?_ ?_ ?_ ?_ ?_ ?_ ?_ definition
  all_goals
    intro profile
    rfl

/-- Profiles are written in the order of the fields, some left out. -/
theorem names_profileMembers_sublist (definition : Definition) :
    definition.profileMembers.names.Sublist Profiles.names := by
  have plane : definition.controlPlane.encode.names.Sublist
      ["masterProfile", "hostedMasterProfile"] := by
    cases definition.controlPlane with
    | managed master => exact List.Sublist.cons_cons _ (List.nil_sublist _)
    | hosted master => exact List.Sublist.cons _ (List.Sublist.refl _)
  have agents : (encodePools definition.agentPools).names.Sublist ["agentPoolProfiles"] := by
    unfold encodePools
    split
    · exact List.nil_sublist _
    · exact List.Sublist.refl _
  simp only [Definition.profileMembers, Members.names_append]
  exact ((((names_optionalMember_sublist.append plane).append agents).append
    names_optionalMember_sublist).append names_optionalMember_sublist).append
      names_optionalMember_sublist

/-- The profiles are storable: the deepest, with the SSH keys, has four levels. -/
theorem storable_profileMembers (definition : Definition) :
    Members.Storable 125 definition.profileMembers := by
  refine Members.storable_of_names (names_profileMembers_sublist definition) rfl
    (forall_profileMembers ?_ ?_ ?_ ?_ ?_ ?_ ?_ definition)
  · intro orchestrator
    exact ⟨rfl, storable_orchestrator orchestrator⟩
  · intro master
    exact ⟨rfl, storable_managed master⟩
  · intro master
    exact ⟨rfl, storable_hosted master⟩
  · intro pools
    refine ⟨rfl, Json.storable_array (List.forall_mem_map.mpr ?_)⟩
    intro pool _
    exact storable_pool pool
  · intro linux
    exact ⟨rfl, storable_linux linux⟩
  · intro principal
    exact ⟨rfl, storable_principal principal⟩
  · intro certificates
    exact ⟨rfl, storable_certificates certificates⟩

/-- Decode a value and check that the dialect knows the control plane. -/
def Definition.ofValue (value : Json) : Except Error Definition :=
  match Definition.decode value with
  | .error misfit => .error (Definition.misfitError misfit)
  | .ok definition => definition.checkVersion

/-- Loading on values: no text is left between a document and its definition, unless a member
is severed. -/
theorem Definition.parse_eq_ofValue_loaded {text : String} {document : Json}
    (read : Json.parse text = .ok document) (whole : document.subnetFirst.unsevered) :
    Definition.parse text = Definition.ofValue document.loaded := by
  have wellRead := Json.wellRead_of_parse read
  simp only [Definition.parse, read, Definition.ofCanonicalText,
    Json.parse_canonicalText wellRead whole]
  rfl

/-- With integers and plain names, the definition is that of the canonical value. -/
theorem Definition.parse_eq_ofValue {text : String} {document : Json}
    (read : Json.parse text = .ok document) (whole : document.wholeNumbers)
    (plain : document.plainNames) :
    Definition.parse text = Definition.ofValue document.canonical := by
  have unsevered := Json.unsevered_of_plainNames
    (Json.all_subnetFirst Json.nameTest_hasPlainNames plain)
  rw [Definition.parse_eq_ofValue_loaded read unsevered, Json.loaded_of_wholeNumbers whole]

theorem Definition.checkVersion_eq_ok_iff {definition revised : Definition} :
    definition.checkVersion = .ok revised ↔ definition = revised ∧
      (definition.controlPlane.isHosted → definition.version.supportsHosted) := by
  unfold Definition.checkVersion
  split
  · rename_i refused
    simp only [Bool.and_eq_true, Bool.not_eq_true'] at refused
    simp [refused]
  · rename_i allowed
    simp only [Bool.and_eq_true, Bool.not_eq_true', not_and, Bool.not_eq_false] at allowed
    constructor
    · intro same
      exact ⟨Except.ok.inj same, allowed⟩
    · rintro ⟨rfl, -⟩
      rfl

/-- A value states a definition exactly if it is decoded as one whose dialect knows its control
plane. -/
theorem Definition.ofValue_eq_ok_iff {value : Json} {definition : Definition} :
    Definition.ofValue value = .ok definition ↔ Definition.decode value = .ok definition ∧
      (definition.controlPlane.isHosted → definition.version.supportsHosted) := by
  unfold Definition.ofValue
  cases Definition.decode value with
  | error misfit => simp
  | ok other =>
      simp only [Definition.checkVersion_eq_ok_iff, Except.ok.injEq]
      constructor
      · rintro ⟨rfl, known⟩
        exact ⟨rfl, known⟩
      · rintro ⟨rfl, known⟩
        exact ⟨rfl, known⟩

namespace Definition.Readable

variable {definition : Definition}

/-- A readable definition is written as a value that a document can hold. -/
theorem storable_encode (h : definition.Readable) :
    definition.encode.Storable Json.Reader.maxLevels := by
  have properties : (Json.object (definition.profileMembers ++ definition.extra)).Storable 126 := by
    refine Json.storable_object ((storable_profileMembers definition).append h.storable ?_)
    intro name mem own
    exact h.unclaimed name own ((names_profileMembers_sublist definition).subset mem)
  refine storable_record (List.Sublist.refl ["apiVersion", "properties"]) rfl ?_
  simp only [List.forall_mem_cons]
  exact ⟨⟨rfl, Json.storable_string _⟩, ⟨rfl, properties⟩, nofun⟩

/-- With subnets first, a subnet among the other properties stands before the profiles. -/
theorem properties_subnetFirst (h : definition.Readable) :
    (Json.object (definition.profileMembers ++ definition.extra)).subnetFirst
      = .object (definition.extra.filter Json.isSubnet
        ++ (definition.profileMembers.mapValues Json.subnetFirst
          ++ definition.extra.filter (!Json.isSubnet ·))) := by
  obtain ⟨-, values⟩ := Json.subnetLeads_object_iff.mp h.leads
  have own : Members.mapValues Json.subnetFirst definition.extra = definition.extra := by
    refine Members.mapValues_eq_self ?_
    intro member mem
    exact Json.subnetFirst_of_subnetLeads (values member mem)
  have noSubnet : ∀ member ∈ definition.profileMembers.mapValues Json.subnetFirst,
      Json.isSubnet member = false :=
    Json.forall_mapValues.mpr (isSubnet_profileMembers definition)
  have none : (definition.profileMembers.mapValues Json.subnetFirst).filter Json.isSubnet = [] := by
    refine List.filter_eq_nil_iff.mpr ?_
    intro member mem
    exact Bool.eq_false_iff.mp (noSubnet member mem)
  have all : (definition.profileMembers.mapValues Json.subnetFirst).filter (!Json.isSubnet ·)
      = definition.profileMembers.mapValues Json.subnetFirst := by
    refine List.filter_eq_self.mpr ?_
    intro member mem
    rw [noSubnet member mem]
    rfl
  rw [Json.subnetFirst_object, Members.mapValues_append, own, Members.leading, List.filter_append,
    List.filter_append, none, all, List.nil_append]

/-- The properties are given back: the profiles as they were written, and the others in
their order. -/
theorem decode_properties (h : definition.Readable) :
    Profiles.decode (Json.object (definition.profileMembers ++ definition.extra)).subnetFirst
      = .ok (definition.controlPlane, definition.profiles) := by
  let subnets : Members := definition.extra.filter Json.isSubnet
  let others : Members := definition.extra.filter (!Json.isSubnet ·)
  have inOrder : subnets ++ others = definition.extra :=
    Members.leading_eq_self (Json.subnetLeads_object_iff.mp h.leads).1
  have distinct : (Members.names (subnets ++ others)).Nodup := inOrder ▸ h.storable.distinct
  have unclaimed : ∀ name ∈ Members.names (subnets ++ others),
      Profiles.fields.find? (·.name == name) = none := by
    intro name mem
    rw [inOrder] at mem
    exact find?_fields_eq_none_iff.mpr (h.unclaimed name mem)
  rw [Members.names_append] at unclaimed
  obtain ⟨subnetsOther, othersOther⟩ := List.forall_mem_append.mp unclaimed
  have first : takeMembers Profiles.fields Profiles.keep {} subnets = .ok { extra := subnets } := by
    have part := (List.sublist_append_left subnets others).map Prod.fst
    rw [takeMembers_other subnetsOther, Profiles.foldl_keep,
      Members.foldl_insert_of_nodup [] (distinct.sublist part)]
    rfl
  have last : takeMembers Profiles.fields Profiles.keep
      { definition.profiles with extra := subnets } others = .ok definition.profiles := by
    rw [takeMembers_other othersOther, Profiles.foldl_keep,
      Members.foldl_insert_of_nodup subnets distinct, inOrder]
    rfl
  have taken := (takeMembers_append first _).trans
    ((takeMembers_profileMembers definition subnets others).trans last)
  have plane : definition.profiles.controlPlane = .ok definition.controlPlane := by
    unfold Profiles.controlPlane Definition.profiles
    cases definition.controlPlane <;> rfl
  rw [h.properties_subnetFirst]
  show (takeMembers Profiles.fields Profiles.keep {} _ >>= fun profiles =>
    profiles.controlPlane >>= fun plane => pure (plane, profiles)) = _
  rw [taken]
  show (definition.profiles.controlPlane >>= fun plane => pure (plane, definition.profiles)) = _
  rw [plane]
  rfl

/-- A readable definition is given back by the decoder, wherever subnets were put. -/
theorem decode_encode (h : definition.Readable) :
    Definition.decode definition.encode.subnetFirst = .ok definition := by
  have version : ApiVersion.decode (.string definition.version.tag) = .ok definition.version := by
    simp only [ApiVersion.decode, ApiVersion.decode.ofTag, ApiVersion.ofTag?_tag]
  refine record_ok (?taken : takeMembers _ _ _ _
    = .ok (some definition.version, some (definition.controlPlane, definition.profiles))) rfl
  refine (takeMembers_field rfl version).trans ?_
  exact (takeMembers_field rfl h.decode_properties).trans rfl

/-- **What was written for a readable definition is loaded as this definition**, whatever
the layout of the document it was written into. -/
theorem parse_of_encode (h : definition.Readable) {text : String}
    (read : Json.parse text = .ok definition.encode) :
    Definition.parse text = .ok definition := by
  have storable := h.storable_encode
  rw [Definition.parse_eq_ofValue read storable.whole storable.plain,
    Json.canonical_of_storable storable]
  exact Definition.ofValue_eq_ok_iff.mpr ⟨h.decode_encode, h.hosted⟩

end Definition.Readable

/-! ### What was read is readable -/

def Profiles.isOther (member : String × Json) : Bool := !Profiles.names.contains member.1

theorem Profiles.isOther_iff {member : String × Json} :
    Profiles.isOther member ↔ Profiles.fields.find? (·.name == member.1) = none := by
  rw [find?_fields_eq_none_iff]
  simp [Profiles.isOther]

/-- A profile does not touch the other properties. -/
theorem Profiles.extra_of_read : ∀ field ∈ Profiles.fields, ∀ value change,
    field.read value = .ok change → ∀ profiles, (change profiles).extra = profiles.extra := by
  simp only [Profiles.fields, List.forall_mem_cons]
  refine ⟨?_, ?_, ?_, ?_, ?_, ?_, ?_, nofun⟩
  all_goals
    intro value change read profiles
    obtain ⟨x, -, rfl⟩ := read_field_eq_ok read
    rfl

/-- The other properties are what no profile covers, in the order of the document. -/
theorem Profiles.extra_of_takeMembers {members : Members} {profiles built : Profiles}
    (taken : takeMembers Profiles.fields Profiles.keep profiles members = .ok built) :
    built.extra = (members.filter Profiles.isOther).foldl
      (fun kept member => kept.insert member.1 member.2) profiles.extra := by
  induction members generalizing profiles with
  | nil =>
      cases taken
      rfl
  | cons member members ih =>
      obtain ⟨name, value⟩ := member
      rcases takeMembers_cons_eq_ok taken with ⟨found, taken⟩ | ⟨field, change, found, read, taken⟩
      · rw [List.filter_cons_of_pos (Profiles.isOther_iff.mpr found)]
        exact ih taken
      · have covered : ¬ Profiles.isOther (name, value) = true := by
          intro other
          rw [Profiles.isOther_iff.mp other] at found
          cases found
        have listed := List.mem_of_find?_eq_some found
        rw [List.filter_cons_of_neg covered, ih taken,
          Profiles.extra_of_read field listed value change read]

/-- The profiles that an object states are taken up from its members, and have one control plane. -/
theorem Profiles.taken_of_decode {members : Members} {plane : ControlPlane}
    {profiles : Profiles}
    (decoded : Profiles.decode (.object members) = .ok (plane, profiles)) :
    takeMembers Profiles.fields Profiles.keep {} members = .ok profiles ∧
      profiles.controlPlane = .ok plane := by
  simp only [Profiles.decode, bind, Except.bind] at decoded
  split at decoded
  · cases decoded
  · rename_i taken
    split at decoded
    · cases decoded
    · rename_i settled
      cases decoded
      exact ⟨taken, settled⟩

/-- Properties are an object, and what no profile covers is kept from it. They are more than
a single property that no profile covers, since a control plane is among them. -/
theorem Profiles.members_of_decode {value : Json} {plane : ControlPlane} {profiles : Profiles}
    (distinct : value.distinctNames) (decoded : Profiles.decode value = .ok (plane, profiles)) :
    ∃ members, value = .object members ∧ profiles.extra = members.filter Profiles.isOther ∧
      (members.length ≤ 1 → members.filter Profiles.isOther = []) := by
  cases value with
  | object members =>
      obtain ⟨taken, hasPlane⟩ := Profiles.taken_of_decode decoded
      obtain ⟨names, -⟩ := Json.distinctNames_object_iff.mp distinct
      have extra : _ = members.filter Profiles.isOther :=
        (Profiles.extra_of_takeMembers taken).trans
          (Members.foldl_insert_of_nodup [] (names.sublist (List.filter_sublist.map Prod.fst)))
      refine ⟨members, rfl, extra, ?_⟩
      intro alone
      cases members with
      | nil => rfl
      | cons member more =>
          obtain rfl : more = [] := List.eq_nil_of_length_eq_zero (by simpa using alone)
          refine List.filter_eq_nil_iff.mpr (List.forall_mem_singleton.mpr ?_)
          -- without a profile there would be no control plane
          intro other
          have found := Profiles.isOther_iff.mp other
          simp only [takeMembers, found] at taken
          cases taken
          cases hasPlane
  | _ => cases decoded

/-- The value of `properties` in a document, which can also be written as an array of its two
fields. -/
def Json.properties? : Json → Option Json
  | .object members => Members.find? members "properties"
  | .array items => items[1]?
  | _ => none

/-- The value of `properties` is a part of the document. -/
theorem Json.mem_parts_of_properties? {document v : Json}
    (found : document.properties? = some v) : v ∈ document.parts := by
  cases document with
  | array items => exact List.mem_of_getElem? found
  | object members => exact List.mem_map_of_mem (Members.mem_of_find? found)
  | _ => cases found

def Definition.fields : List (Field Json (Option ApiVersion × Option (ControlPlane × Profiles))) :=
  [ field "apiVersion" ApiVersion.decode fun version state => (some version, state.2),
    field "properties" Profiles.decode fun properties state => (state.1, some properties) ]

/-- The properties of a definition are decoded from the value of `properties`. -/
theorem Definition.properties_of_decode {value : Json} {definition : Definition}
    (distinct : value.distinctNames) (decoded : Definition.decode value = .ok definition) :
    ∃ part, value.properties? = some part ∧ ∃ plane profiles version,
      Profiles.decode part = .ok (plane, profiles) ∧
        definition = profiles.toDefinition version plane := by
  let stated (state : Option ApiVersion × Option (ControlPlane × Profiles)) : Prop :=
    ∀ properties, state.2 = some properties →
      ∃ part, value.properties? = some part ∧ Profiles.decode part = .ok properties
  have start : stated (none, none) := by
    intro properties same
    cases same
  have byVersion : ∀ part change,
      (field "apiVersion" ApiVersion.decode fun version (state : _ × _) =>
        (some version, state.2)).read part = .ok change →
      ∀ state, stated state → stated (change state) := by
    intro part change read state h
    obtain ⟨version, -, rfl⟩ := read_field_eq_ok read
    exact h
  have byProperties : ∀ part, value.properties? = some part → ∀ change,
      (field "properties" Profiles.decode fun properties (state : _ × _) =>
        (state.1, some properties)).read part = .ok change →
      ∀ state, stated state → stated (change state) := by
    intro part there change read
    obtain ⟨properties, decoded, rfl⟩ := read_field_eq_ok read
    rintro ⟨version, _⟩ _ _ same
    cases same
    exact ⟨part, there, decoded⟩
  have kept : FieldsKeep stated (Given Definition.fields value) := by
    intro field part given
    cases value with
    | object members =>
        obtain ⟨listed, mem⟩ := given
        have there := Members.find?_of_mem (Json.distinctNames_object_iff.mp distinct).1 mem
        simp only [Definition.fields, List.mem_cons, List.not_mem_nil, or_false] at listed
        rcases listed with rfl | rfl
        · exact byVersion part
        · exact byProperties part there
    | array items =>
        obtain ⟨place, listed, there⟩ := given
        rcases place with _ | _ | place
        · obtain rfl := Option.some.inj listed
          exact byVersion part
        · obtain rfl := Option.some.inj listed
          exact byProperties part there
        · cases listed
    | _ => cases given
  obtain ⟨⟨version, properties⟩, holds, finished⟩ := record_forall start kept decoded
  split at finished
  · rename_i version plane profiles same
    cases same
    cases finished
    obtain ⟨part, there, decoded⟩ := holds _ rfl
    exact ⟨part, there, plane, profiles, version, decoded, rfl⟩
  · cases finished
  · cases finished

/-- **A definition that was read is readable**, if the numbers of its document are integers
and no name in it contains a double quote. -/
theorem Definition.readable_of_parse {text : String} {document : Json} {definition : Definition}
    (read : Json.parse text = .ok document) (whole : document.wholeNumbers)
    (plain : document.plainNames) (accepted : Definition.parse text = .ok definition) :
    definition.Readable := by
  have wellRead := Json.wellRead_of_parse read
  have storable : document.canonical.Storable (126 + 1) :=
    Json.storable_canonical wellRead whole plain
  have leads := Json.subnetLeads_canonical wellRead.distinct
  rw [Definition.parse_eq_ofValue read whole plain] at accepted
  obtain ⟨decoded, hosted⟩ := Definition.ofValue_eq_ok_iff.mp accepted
  obtain ⟨part, there, plane, profiles, version, properties, rfl⟩ :=
    Definition.properties_of_decode storable.distinct decoded
  have mem := Json.mem_parts_of_properties? there
  have inner : part.Storable 126 := storable.part mem
  obtain ⟨members, rfl, extra, alone⟩ := Profiles.members_of_decode inner.distinct properties
  have kept : (profiles.toDefinition version plane).extra = members.filter Profiles.isOther :=
    extra
  constructor
  · exact hosted
  · rw [kept]
    exact Members.storable_filter inner alone
  · rw [kept]
    exact Members.subnetLeads_filter (Json.all_part leads mem)
  · intro name own
    rw [kept] at own
    obtain ⟨member, listed, rfl⟩ := List.mem_map.mp own
    obtain ⟨-, other⟩ := List.mem_filter.mp listed
    exact find?_fields_eq_none_iff.mp (Profiles.isOther_iff.mp other)

end Provision
