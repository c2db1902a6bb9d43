import Provision.Cluster.Codec
import Provision.Proofs.EmptySubnet.Canonical

/-!
Profiles are read back from what is written for them.

Between writing and reading, loading moves subnets to the front, so every law is about the
value with subnets first: `Restores decode encode`. What is written for a profile is also
storable, so nothing of it is lost on the way; for a subnet this is so because the empty
text is no subnet.

The members of an object are taken up one by one. `takeMembers_field` and
`takeMembers_optional` say what one member does; a law about a record is a chain of them in
the order in which its members are written.
-/

namespace Provision

namespace Decoding

variable {α σ : Type} {fields : List (Field Json σ)} {other : String → Json → σ → σ}
  {record built : σ} {more : Members} {name : String}

/-! ### Taking up members -/

theorem inside_eq_ok {segment : Segment} {decoded : Decoded α} {x : α}
    (h : inside segment decoded = .ok x) : decoded = .ok x := by
  cases decoded with
  | error misfit => cases h
  | ok y => exact h

/-- What taking up one member does: it goes to the field of its name, or to the others. -/
theorem takeMembers_cons_eq_ok {value : Json}
    (taken : takeMembers fields other record ((name, value) :: more) = .ok built) :
    (fields.find? (·.name == name) = none ∧
        takeMembers fields other (other name value record) more = .ok built) ∨
      ∃ field change, fields.find? (·.name == name) = some field ∧
        field.read value = .ok change ∧
          takeMembers fields other (change record) more = .ok built := by
  simp only [takeMembers] at taken
  cases found : fields.find? (·.name == name) with
  | none =>
      rw [found] at taken
      exact .inl ⟨rfl, taken⟩
  | some field =>
      rw [found] at taken
      cases read : inside (.name name) (field.read value) with
      | error misfit => simp only [read, reduceCtorEq] at taken
      | ok change =>
          simp only [read] at taken
          exact .inr ⟨field, change, rfl, inside_eq_ok read, taken⟩

/-- Taking up members in two parts. -/
theorem takeMembers_append {members : Members}
    (taken : takeMembers fields other record members = .ok built) (more : Members) :
    takeMembers fields other record (members ++ more) = takeMembers fields other built more := by
  induction members generalizing record with
  | nil =>
      cases taken
      rfl
  | cons member members ih =>
      obtain ⟨name, value⟩ := member
      rcases takeMembers_cons_eq_ok taken with ⟨found, taken⟩ | ⟨field, change, found, read, taken⟩
      · simp only [List.cons_append, takeMembers, found]
        exact ih taken
      · simp only [List.cons_append, takeMembers, found, read, inside]
        exact ih taken

/-- A member that states a field. -/
theorem takeMembers_field {decode : Json → Decoded α} {set : α → σ → σ} {value : Json} {x : α}
    (found : fields.find? (·.name == name) = some (field name decode set))
    (read : decode value = .ok x) :
    takeMembers fields other record ((name, value) :: more)
      = takeMembers fields other (set x record) more := by
  simp only [takeMembers, found, field, read]
  rfl

/-- Members that state no field, taken up one after the other. -/
theorem takeMembers_other {members : Members}
    (unclaimed : ∀ name ∈ members.names, fields.find? (·.name == name) = none) :
    takeMembers fields other record members
      = .ok (members.foldl (fun built member => other member.1 member.2 built) record) := by
  induction members generalizing record with
  | nil => rfl
  | cons member members ih =>
      have first := unclaimed member.1 List.mem_cons_self
      simp only [takeMembers, first, List.foldl_cons]
      exact ih (List.forall_mem_cons.mp unclaimed).2

/-! ### Records that were taken up -/

/-- A field that was read puts what was decoded into the record. -/
theorem read_field_eq_ok {decode : Json → Decoded α} {set : α → σ → σ} {value : Json}
    {change : σ → σ} (h : (field name decode set).read value = .ok change) :
    ∃ x, decode value = .ok x ∧ change = set x := by
  simp only [field] at h
  cases read : decode value with
  | error misfit =>
      rw [read] at h
      cases h
  | ok x =>
      rw [read] at h
      cases h
      exact ⟨x, rfl, rfl⟩

/-- The parts of a value that a field of a record reads: the member of its name, or the item at
its place. -/
def Given (fields : List (Field Json σ)) : Json → Field Json σ → Json → Prop
  | .object members, field, part => field ∈ fields ∧ (field.name, part) ∈ members
  | .array items, field, part =>
      ∃ place : Nat, fields[place]? = some field ∧ items[place]? = some part
  | _, _, _ => False

/-- Whatever a field reads from a part that it is given, a record keeps `P`. -/
def FieldsKeep (P : σ → Prop) (given : Field Json σ → Json → Prop) : Prop :=
  ∀ field part, given field part → ∀ change, field.read part = .ok change →
    ∀ record, P record → P (change record)

variable {P : σ → Prop}

theorem FieldsKeep.mono {given fewer : Field Json σ → Json → Prop} (keep : FieldsKeep P given)
    (sub : ∀ field part, fewer field part → given field part) : FieldsKeep P fewer := by
  intro field part mem
  exact keep field part (sub field part mem)

/-- What every field keeps is kept by all members together. -/
theorem takeMembers_forall {members : Members} (start : P record)
    (keep : FieldsKeep P (Given fields (.object members)))
    (rest : ∀ name value record, P record → P (other name value record))
    (taken : takeMembers fields other record members = .ok built) : P built := by
  induction members generalizing record with
  | nil =>
      cases taken
      exact start
  | cons member members ih =>
      obtain ⟨name, value⟩ := member
      have later : FieldsKeep P (Given fields (.object members)) := by
        refine keep.mono ?_
        rintro field part ⟨listed, mem⟩
        exact ⟨listed, List.mem_cons_of_mem _ mem⟩
      rcases takeMembers_cons_eq_ok taken with ⟨-, taken⟩ | ⟨field, change, found, read, taken⟩
      · exact ih (rest _ _ _ start) later taken
      · have listed := List.mem_of_find?_eq_some found
        have named : field.name = name := by simpa using List.find?_some found
        have given : Given fields (.object ((name, value) :: members)) field value :=
          ⟨listed, named ▸ List.mem_cons_self⟩
        exact ih (keep field value given change read _ start) later taken

/-- What every field keeps is kept by all items together. -/
theorem takeItems_forall {index : Nat} {items : List Json} (start : P record)
    (keep : FieldsKeep P (Given fields (.array items)))
    (taken : takeItems record index fields items = .ok built) : P built := by
  induction fields generalizing record index items with
  | nil =>
      simp only [takeItems] at taken
      cases taken
      exact start
  | cons field fields ih =>
      cases items with
      | nil =>
          simp only [takeItems] at taken
          cases taken
          exact start
      | cons item items =>
          simp only [takeItems] at taken
          cases read : inside (.index index) (field.read item) with
          | error misfit => simp only [read, reduceCtorEq] at taken
          | ok change =>
              simp only [read] at taken
              have kept := keep field item ⟨0, rfl, rfl⟩ change (inside_eq_ok read) _ start
              have later : FieldsKeep P (Given fields (.array items)) := by
                refine keep.mono ?_
                rintro field part ⟨place, listed, found⟩
                exact ⟨place + 1, listed, found⟩
              exact ih kept later taken

/-- A record that was decoded was finished from something that all its fields kept. -/
theorem record_forall {name : String} {start : σ} {finish : σ → Except String α} {value : Json}
    {x : α} (first : P start) (keep : FieldsKeep P (Given fields value))
    (decoded : Json.Decode.record name fields start finish value = .ok x) :
    ∃ built, P built ∧ finish built = .ok x := by
  unfold Json.Decode.record at decoded
  split at decoded
  · split at decoded
    · cases decoded
    · rename_i built taken
      split at decoded
      · rename_i finished
        cases decoded
        exact ⟨built, takeMembers_forall first keep (fun _ _ _ h => h) taken, finished⟩
      · cases decoded
  · split at decoded
    · cases decoded
    · rename_i built taken
      split at decoded
      · cases decoded
      · rename_i finished
        split at decoded
        · cases decoded
        · cases decoded
          exact ⟨built, takeItems_forall first keep taken, finished⟩
  · cases decoded

end Decoding

open Decoding

/-! ### What decoders give back -/

section Restores

variable {α σ : Type} {encode : α → Json} {decode : Json → Decoded α}

/-- A decoder gives back what was encoded, after subnets have been moved. -/
def Restores (decode : Json → Decoded α) (encode : α → Json) : Prop :=
  ∀ x, decode (encode x).subnetFirst = .ok x

theorem restores_count : Restores Json.Decode.count encodeCount := by
  intro n
  have small := n.toNat_lt
  have range : 0 ≤ (n.toNat : Int) ∧ (n.toNat : Int) < 0x100000000 := by omega
  have same : UInt32.ofNat (n.toNat : Int).toNat = n := by simp
  simp only [encodeCount, Number.ofUInt32, Json.subnetFirst, Json.Decode.count, if_pos range, same]

theorem restores_string : Restores Json.Decode.string Json.string := fun _ => rfl

theorem restores_subnet : Restores Subnet.decode Subnet.encode := by
  intro subnet
  have parsed := Subnet.parse_text subnet
  unfold Subnet.decode Subnet.encode
  simp only [Json.subnetFirst, Json.Decode.string, bind, Except.bind, parsed]

/-- Items are given back one by one. -/
theorem restores_list (restores : Restores decode encode) (xs : List α) :
    Json.Decode.list decode (Json.array (xs.map encode)).subnetFirst = .ok xs := by
  have items (index : Nat) :
      itemsFrom decode index ((xs.map encode).map Json.subnetFirst) = .ok xs := by
    induction xs generalizing index with
    | nil => rfl
    | cons x xs ih =>
        simp only [List.map_cons, itemsFrom, restores x, inside, ih]
        rfl
  rw [Json.subnetFirst_array]
  exact items 0

/-- A value that may be absent is given back as one that is there. -/
theorem restores_optional (restores : Restores decode encode)
    (notNull : ∀ x, (encode x).subnetFirst ≠ .null) (x : α) :
    Json.Decode.optional decode (encode x).subnetFirst = .ok (some x) := by
  have read := restores x
  cases same : (encode x).subnetFirst with
  | null => exact absurd same (notNull x)
  | _ =>
      rw [same] at read
      simp only [Json.Decode.optional, read]
      rfl

/-- A value that is written only if there is one. -/
theorem takeMembers_optional {fields : List (Field Json σ)} {other : String → Json → σ → σ}
    {record : σ} {more : Members} {name : String} {set : Option α → σ → σ} {value : Option α}
    (found : fields.find? (·.name == name)
      = some (field name (Json.Decode.optional decode) set))
    (restores : Restores decode encode) (notNull : ∀ x, (encode x).subnetFirst ≠ .null)
    (start : set none record = record) :
    takeMembers fields other record
        ((optionalMember name encode value).mapValues Json.subnetFirst ++ more)
      = takeMembers fields other (set value record) more := by
  cases value with
  | none =>
      rw [start]
      rfl
  | some x => exact takeMembers_field found (restores_optional restores notNull x)

/-- A record whose members are taken up. -/
theorem record_ok {name : String} {fields : List (Field Json σ)} {start built : σ}
    {finish : σ → Except String α} {members : Members} {x : α}
    (taken : takeMembers fields (fun _ _ record => record) start members = .ok built)
    (finished : finish built = .ok x) :
    Json.Decode.record name fields start finish (.object members) = .ok x := by
  simp only [Json.Decode.record, taken, finished]

end Restores

/-! ### Profiles -/

theorem restores_orchestrator : Restores Orchestrator.decode Orchestrator.encode := by
  rintro ⟨type, release⟩
  cases release <;> rfl

theorem restores_hosted : Restores HostedMaster.decode HostedMaster.encode := by
  rintro ⟨dnsPrefix, fqdn⟩
  cases fqdn <;> rfl

theorem restores_principal : Restores ServicePrincipal.decode ServicePrincipal.encode :=
  fun _ => rfl

theorem restores_certificates : Restores CertificateProfile.decode CertificateProfile.encode :=
  fun _ => rfl

/-- Only a subnet moves in a managed control plane. -/
theorem ManagedMaster.encode_subnetFirst (master : ManagedMaster) :
    master.encode.subnetFirst
      = .object ((optionalMember "subnet" Subnet.encode master.subnet).mapValues Json.subnetFirst
        ++ (("count", encodeCount master.count) :: ("dnsPrefix", .string master.dnsPrefix)
          :: ("vmSize", .string master.vmSize)
          :: ((optionalMember "firstConsecutiveStaticIp" .string master.firstStaticIp).mapValues
            Json.subnetFirst ++ []))) := by
  obtain ⟨count, dnsPrefix, vmSize, subnet, ip⟩ := master
  cases subnet <;> cases ip <;> rfl

theorem restores_managed : Restores ManagedMaster.decode ManagedMaster.encode := by
  intro master
  rw [ManagedMaster.encode_subnetFirst]
  refine record_ok ((takeMembers_optional rfl restores_subnet (fun _ => nofun) rfl).trans ?_) rfl
  refine (takeMembers_field rfl (restores_count _)).trans ?_
  refine (takeMembers_field rfl (restores_string _)).trans ?_
  refine (takeMembers_field rfl (restores_string _)).trans ?_
  exact (takeMembers_optional rfl restores_string (fun _ => nofun) rfl).trans rfl

/-- Only a subnet moves in an agent pool. -/
theorem AgentPool.encode_subnetFirst (pool : AgentPool) :
    pool.encode.subnetFirst
      = .object ((optionalMember "subnet" Subnet.encode pool.subnet).mapValues Json.subnetFirst
        ++ (("name", .string pool.name) :: ("count", encodeCount pool.count)
          :: ("vmSize", .string pool.vmSize)
          :: ((optionalMember "availabilityProfile" .string pool.availability).mapValues
            Json.subnetFirst ++ []))) := by
  obtain ⟨name, count, vmSize, availability, subnet⟩ := pool
  cases subnet <;> cases availability <;> rfl

theorem restores_pool : Restores AgentPool.decode AgentPool.encode := by
  intro pool
  rw [AgentPool.encode_subnetFirst]
  -- the name is put into the pool only in the end
  refine record_ok (?taken : takeMembers _ _ _ _ = .ok (some pool.name, { pool with name := "" }))
    rfl
  refine (takeMembers_optional rfl restores_subnet (fun _ => nofun) rfl).trans ?_
  refine (takeMembers_field rfl (restores_string _)).trans ?_
  refine (takeMembers_field rfl (restores_count _)).trans ?_
  refine (takeMembers_field rfl (restores_string _)).trans ?_
  exact (takeMembers_optional rfl restores_string (fun _ => nofun) rfl).trans rfl

def LinuxProfile.encodeKey (key : String) : Json := .object [("keyData", .string key)]

theorem restores_key : Restores LinuxProfile.decodeKey LinuxProfile.encodeKey := fun _ => rfl

theorem restores_linux : Restores LinuxProfile.decode LinuxProfile.encode := by
  intro linux
  have keys : LinuxProfile.decodeKeys (.object
      [("publicKeys", (Json.array (linux.sshKeys.map LinuxProfile.encodeKey)).subnetFirst)])
        = .ok linux.sshKeys :=
    record_ok ((takeMembers_field rfl (restores_list restores_key _)).trans rfl) rfl
  exact record_ok ((takeMembers_field rfl (restores_string _)).trans
    ((takeMembers_field rfl keys).trans rfl)) rfl

/-! ### What is written is storable -/

section Storable

open Json (isEmptySubnet storable_string storable_integer storable_array storable_object)

variable {α : Type} {encode : α → Json} {name : String} {levels : Nat}

theorem names_optionalMember_sublist {value : Option α} :
    (optionalMember name encode value).names.Sublist [name] := by
  cases value with
  | none => exact List.nil_sublist _
  | some x => exact List.Sublist.refl _

theorem forall_optionalMember {P : String × Json → Prop} {value : Option α}
    (each : ∀ x, P (name, encode x)) : ∀ member ∈ optionalMember name encode value, P member := by
  cases value with
  | none =>
      intro member mem
      cases mem
  | some x => exact List.forall_mem_singleton.mpr (each x)

/-- A member that is no empty subnet and has a storable value. -/
def StorableMember (levels : Nat) (member : String × Json) : Prop :=
  isEmptySubnet member = false ∧ member.2.Storable levels

/-- Whether these names can be those of members of one object. -/
def soundNames (names : List String) : Bool :=
  decide (names.Nodup ∧ ∀ name ∈ names, '"' ∉ name.toList)

/-- Members are storable if their names are some of a few known ones. -/
theorem Members.storable_of_names {members : Members} {known : List String}
    (sub : members.names.Sublist known) (sound : soundNames known)
    (each : ∀ member ∈ members, StorableMember levels member) : members.Storable levels := by
  obtain ⟨distinct, plain⟩ := of_decide_eq_true sound
  constructor
  · exact distinct.sublist sub
  · intro name mem
    exact plain name (sub.subset mem)
  · intro member mem
    exact (each member mem).1
  · intro member mem
    exact (each member mem).2

/-- So is the record that has them. -/
theorem storable_record {members : Members} {known : List String}
    (sub : members.names.Sublist known) (sound : soundNames known)
    (each : ∀ member ∈ members, StorableMember levels member) :
    (Json.object members).Storable (levels + 1) :=
  storable_object (Members.storable_of_names sub sound each)

theorem storable_count (count : UInt32) : (encodeCount count).Storable levels :=
  storable_integer _ _

/-- The empty text is no subnet. -/
theorem storableMember_subnet (subnet : Subnet) :
    StorableMember levels ("subnet", subnet.encode) := by
  refine ⟨?_, storable_string _⟩
  rw [Bool.eq_false_iff]
  intro empty
  have same : subnet.text = "" := by simpa [Subnet.encode] using Json.isEmptySubnet_iff.mp empty
  have sound := subnet.wellFormed
  rw [same] at sound
  cases sound

theorem storable_orchestrator (orchestrator : Orchestrator) :
    orchestrator.encode.Storable (levels + 1) := by
  refine storable_record (names_optionalMember_sublist.cons_cons "orchestratorType") rfl ?_
  refine List.forall_mem_cons.mpr ⟨⟨rfl, storable_string _⟩, forall_optionalMember ?_⟩
  intro release
  exact ⟨rfl, storable_string release⟩

theorem storable_hosted (master : HostedMaster) : master.encode.Storable (levels + 1) := by
  refine storable_record (names_optionalMember_sublist.cons_cons "dnsPrefix") rfl ?_
  refine List.forall_mem_cons.mpr ⟨⟨rfl, storable_string _⟩, forall_optionalMember ?_⟩
  intro fqdn
  exact ⟨rfl, storable_string fqdn⟩

/-- Three members and two that may be missing. -/
theorem names_three_optional_sublist {β : Type} {encode' : β → Json} {a b c d e : String}
    {u v w : Json} {x : Option α} {y : Option β} :
    Members.names ([(a, u), (b, v), (c, w)] ++ optionalMember d encode x
      ++ optionalMember e encode' y) |>.Sublist [a, b, c, d, e] := by
  rw [Members.names_append, Members.names_append]
  exact ((List.Sublist.refl [a, b, c]).append names_optionalMember_sublist).append
    names_optionalMember_sublist

theorem storable_managed (master : ManagedMaster) : master.encode.Storable (levels + 1) := by
  refine storable_record names_three_optional_sublist rfl ?_
  have own : ∀ member ∈ [("count", encodeCount master.count),
      ("dnsPrefix", .string master.dnsPrefix), ("vmSize", .string master.vmSize)],
      StorableMember levels member := by
    simp only [List.forall_mem_cons]
    exact ⟨⟨rfl, storable_count _⟩, ⟨rfl, storable_string _⟩, ⟨rfl, storable_string _⟩, nofun⟩
  have address : ∀ ip, StorableMember levels ("firstConsecutiveStaticIp", .string ip) := by
    intro ip
    exact ⟨rfl, storable_string ip⟩
  simp only [List.forall_mem_append]
  exact ⟨⟨own, forall_optionalMember storableMember_subnet⟩, forall_optionalMember address⟩

theorem storable_pool (pool : AgentPool) : pool.encode.Storable (levels + 1) := by
  refine storable_record names_three_optional_sublist rfl ?_
  have own : ∀ member ∈ [("name", .string pool.name), ("count", encodeCount pool.count),
      ("vmSize", .string pool.vmSize)], StorableMember levels member := by
    simp only [List.forall_mem_cons]
    exact ⟨⟨rfl, storable_string _⟩, ⟨rfl, storable_count _⟩, ⟨rfl, storable_string _⟩, nofun⟩
  have profile : ∀ text, StorableMember levels ("availabilityProfile", .string text) := by
    intro text
    exact ⟨rfl, storable_string text⟩
  simp only [List.forall_mem_append]
  exact ⟨⟨own, forall_optionalMember profile⟩, forall_optionalMember storableMember_subnet⟩

theorem storable_principal (principal : ServicePrincipal) :
    principal.encode.Storable (levels + 1) := by
  refine storable_record (List.Sublist.refl ["clientId", "secret"]) rfl ?_
  simp only [List.forall_mem_cons]
  exact ⟨⟨rfl, storable_string _⟩, ⟨rfl, storable_string _⟩, nofun⟩

theorem storable_certificates (profile : CertificateProfile) :
    profile.encode.Storable (levels + 1) := by
  refine storable_record (List.Sublist.refl ["caCertificate", "caPrivateKey"]) rfl ?_
  simp only [List.forall_mem_cons]
  exact ⟨⟨rfl, storable_string _⟩, ⟨rfl, storable_string _⟩, nofun⟩

/-- A single member. -/
theorem storable_single {name : String} {value : Json} (sound : soundNames [name])
    (settled : isEmptySubnet (name, value) = false) (storable : value.Storable levels) :
    (Json.object [(name, value)]).Storable (levels + 1) := by
  refine storable_record (List.Sublist.refl [name]) sound ?_
  exact List.forall_mem_singleton.mpr ⟨settled, storable⟩

theorem storable_linux (linux : LinuxProfile) : linux.encode.Storable (levels + 4) := by
  have keys : (Json.array (linux.sshKeys.map LinuxProfile.encodeKey)).Storable (levels + 2) := by
    refine storable_array (List.forall_mem_map.mpr ?_)
    intro key _
    exact storable_single rfl rfl (storable_string key)
  have ssh : (Json.object [("publicKeys",
      .array (linux.sshKeys.map LinuxProfile.encodeKey))]).Storable (levels + 3) :=
    storable_single rfl rfl keys
  refine storable_record (List.Sublist.refl ["adminUsername", "ssh"]) rfl ?_
  simp only [List.forall_mem_cons]
  exact ⟨⟨rfl, storable_string _⟩, ⟨rfl, ssh⟩, nofun⟩

end Storable

end Provision
