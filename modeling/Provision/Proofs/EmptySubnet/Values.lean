import Provision.Cluster.EmptySubnet
import Provision.Proofs.Json.Shape

/-!
Moving and removing subnets, on values.

`Json.subnetFirst` and `Json.withoutEmptySubnets` change every object of a value by one
function of its members: the first moves `subnet` to the front (`Members.leading`), the
second drops an empty subnet that has company (`Members.settled`). Neither adds or changes
a name, so the conditions under which a text can be read back survive both
(`NameTest`, `all_subnetFirst`, `all_withoutEmptySubnets`). The inductions over values are
made once, for any such function (`Rebuilds`).

Each function makes sure of a condition and leaves the values alone that meet it: after
`subnetFirst` only a first member is a subnet (`subnetLeads`), and after
`withoutEmptySubnets` no empty subnet has company (`noSpareSubnets`). The second keeps what
the first has made sure of (`subnetLeads_withoutEmptySubnets`).
-/

namespace Provision

namespace Members

/-- The members with `subnet` at the front. -/
def leading (members : Members) : Members :=
  members.filter Json.isSubnet ++ members.filter (!Json.isSubnet ·)

/-- The members without an empty subnet, unless there is a single member. -/
def settled (members : Members) : Members :=
  if 1 < members.length then members.filter (!Json.isEmptySubnet ·) else members

theorem leading_perm (members : Members) : members.leading.Perm members :=
  List.filter_append_perm _ _

/-- Where a member goes does not depend on its value. -/
theorem leading_mapValues (f : Json → Json) (members : Members) :
    leading (members.mapValues f) = mapValues f members.leading := by
  simp only [leading, mapValues, List.map_append, List.filter_map]
  rfl

theorem settled_sublist (members : Members) : members.settled.Sublist members := by
  unfold settled
  split
  · exact List.filter_sublist
  · exact List.Sublist.refl _

/-- Where only the first member can be a subnet, it leads already. -/
theorem leading_eq_self {members : Members}
    (tail : ∀ member ∈ members.tail, Json.isSubnet member = false) :
    members.leading = members := by
  cases members with
  | nil => rfl
  | cons first rest =>
      have none : rest.filter Json.isSubnet = [] := by
        refine List.filter_eq_nil_iff.mpr ?_
        intro member mem
        exact Bool.eq_false_iff.mp (tail member mem)
      have all : rest.filter (!Json.isSubnet ·) = rest := by
        refine List.filter_eq_self.mpr ?_
        intro member mem
        rw [tail member mem]
        rfl
      unfold leading
      cases h : Json.isSubnet first <;> simp [h, none, all]

/-- Of members with different names at most one is a subnet, so the others do not lead. -/
theorem leading_tail {members : Members} (distinct : members.names.Nodup) :
    ∀ member ∈ members.leading.tail, Json.isSubnet member = false := by
  have others : ∀ member ∈ members.filter (!Json.isSubnet ·), Json.isSubnet member = false := by
    intro member mem
    simpa using (List.mem_filter.mp mem).2
  unfold leading
  cases h : members.filter Json.isSubnet with
  | nil =>
      intro member mem
      exact others member (List.mem_of_mem_tail mem)
  | cons first more =>
      have names : ((first :: more).map Prod.fst).Nodup :=
        h ▸ distinct.sublist (List.filter_sublist.map Prod.fst)
      have called : ∀ member ∈ first :: more, member.1 = "subnet" := by
        intro member mem
        rw [← h] at mem
        obtain ⟨-, subnet⟩ := List.mem_filter.mp mem
        exact eq_of_beq subnet
      cases more with
      | nil => exact others
      | cons second more =>
          have same : first.1 = second.1 :=
            (called first (by simp)).trans (called second (by simp)).symm
          simp only [List.map_cons, List.nodup_cons, List.mem_cons, not_or] at names
          exact absurd same names.1.1

/-- A member that is no empty subnet is not left out. -/
theorem mem_settled {members : Members} {member : String × Json} (mem : member ∈ members)
    (other : Json.isEmptySubnet member = false) : member ∈ members.settled := by
  unfold settled
  split
  · exact List.mem_filter.mpr ⟨mem, by rw [other]; rfl⟩
  · exact mem

theorem settled_eq_self {members : Members}
    (spareless : members.length ≤ 1 ∨ ∀ member ∈ members, Json.isEmptySubnet member = false) :
    members.settled = members := by
  unfold settled
  by_cases company : 1 < members.length
  · rw [if_pos company]
    rcases spareless with alone | none
    · omega
    · refine List.filter_eq_self.mpr ?_
      intro member mem
      rw [none member mem]
      rfl
  · rw [if_neg company]

theorem settled_spareless (members : Members) :
    members.settled.length ≤ 1 ∨
      ∀ member ∈ members.settled, Json.isEmptySubnet member = false := by
  unfold settled
  by_cases company : 1 < members.length
  · rw [if_pos company]
    right
    intro member mem
    simpa using (List.mem_filter.mp mem).2
  · rw [if_neg company]
    left
    omega

theorem tail_filter_subset (p : String × Json → Bool) (members : Members) :
    (members.filter p).tail ⊆ members.tail := by
  cases members with
  | nil => exact List.Subset.refl _
  | cons first rest =>
      intro member mem
      rw [List.filter_cons] at mem
      split at mem
      · exact (List.mem_filter.mp mem).1
      · exact (List.mem_filter.mp (List.mem_of_mem_tail mem)).1

theorem settled_tail_subset {members : Members} : members.settled.tail ⊆ members.tail := by
  unfold settled
  split
  · exact tail_filter_subset _ members
  · exact List.Subset.refl _

end Members

namespace Json

/-! ### The two functions by the members of an object -/

theorem subnetFirstItems_eq (items : List Json) :
    subnetFirstItems items = items.map subnetFirst := by
  induction items with
  | nil => rfl
  | cons item items ih => rw [subnetFirstItems, ih, List.map_cons]

theorem subnetFirstMembers_eq (members : Members) :
    subnetFirstMembers members = members.mapValues subnetFirst := by
  induction members with
  | nil => rfl
  | cons member members ih =>
      rw [subnetFirstMembers, ih]
      rfl

theorem subnetFirst_array (items : List Json) :
    (array items).subnetFirst = .array (items.map subnetFirst) := by
  rw [subnetFirst, subnetFirstItems_eq]

theorem subnetFirst_object (members : Members) :
    (object members).subnetFirst = .object (members.mapValues subnetFirst).leading := by
  rw [subnetFirst, subnetFirstMembers_eq]
  rfl

theorem withoutEmptySubnetsItems_eq (items : List Json) :
    withoutEmptySubnetsItems items = items.map withoutEmptySubnets := by
  induction items with
  | nil => rfl
  | cons item items ih => rw [withoutEmptySubnetsItems, ih, List.map_cons]

theorem withoutEmptySubnetsMembers_eq (members : Members) :
    withoutEmptySubnetsMembers members = members.mapValues withoutEmptySubnets := by
  induction members with
  | nil => rfl
  | cons member members ih =>
      rw [withoutEmptySubnetsMembers, ih]
      rfl

theorem withoutEmptySubnets_array (items : List Json) :
    (array items).withoutEmptySubnets = .array (items.map withoutEmptySubnets) := by
  rw [withoutEmptySubnets, withoutEmptySubnetsItems_eq]

theorem withoutEmptySubnets_object (members : Members) :
    (object members).withoutEmptySubnets
      = .object (members.mapValues withoutEmptySubnets).settled := by
  rw [withoutEmptySubnets, withoutEmptySubnetsMembers_eq]
  rfl

/-- Being an empty subnet is a matter of the member alone. -/
theorem isEmptySubnet_withoutEmptySubnets (name : String) (value : Json) :
    isEmptySubnet (name, value.withoutEmptySubnets) = isEmptySubnet (name, value) := by
  cases value <;> rfl

theorem isEmptySubnet_subnetFirst (name : String) (value : Json) :
    isEmptySubnet (name, value.subnetFirst) = isEmptySubnet (name, value) := by
  cases value <;> rfl

theorem isEmptySubnet_iff {member : String × Json} :
    isEmptySubnet member ↔ member = ("subnet", .string "") := by
  obtain ⟨name, value⟩ := member
  cases value <;> simp [isEmptySubnet]

/-! ### Rebuilding a value from its parts -/

/-- A function that changes a value from its parts up: `g` chooses among the changed members
of an object, everything else is kept. -/
structure Rebuilds (f : Json → Json) (g : Members → Members) : Prop where
  null : f .null = .null
  bool : ∀ value, f (.bool value) = .bool value
  number : ∀ value, f (.number value) = .number value
  string : ∀ value, f (.string value) = .string value
  array : ∀ items, f (.array items) = .array (items.map f)
  object : ∀ members : Members, f (.object members) = .object (g (members.mapValues f))
  part : ∀ members, g members ⊆ members

theorem rebuilds_subnetFirst : Rebuilds subnetFirst Members.leading where
  null := rfl
  bool _ := rfl
  number _ := rfl
  string _ := rfl
  array := subnetFirst_array
  object := subnetFirst_object
  part members := (Members.leading_perm members).subset

theorem rebuilds_withoutEmptySubnets : Rebuilds withoutEmptySubnets Members.settled where
  null := rfl
  bool _ := rfl
  number _ := rfl
  string _ := rfl
  array := withoutEmptySubnets_array
  object := withoutEmptySubnets_object
  part members := (Members.settled_sublist members).subset

namespace Rebuilds

variable {f : Json → Json} {g : Members → Members} (rebuilds : Rebuilds f g)

include rebuilds

/-- What holds of the changed value of every member holds of the members that are kept. -/
theorem forall_kept {members : Members} {P : Json → Prop}
    (each : ∀ member ∈ members, P (f member.2)) :
    ∀ member ∈ g (members.mapValues f), P member.2 := by
  intro member mem
  obtain ⟨old, oldMem, rfl⟩ := List.mem_map.mp (rebuilds.part _ mem)
  exact each old oldMem

/-- A test that every changed value passes, if it passed another one before, is passed by
all parts. -/
theorem all_of_all {before after : Json → Bool}
    (here : ∀ value, before value → after (f value)) {value : Json} (h : value.all before) :
    (f value).all after := by
  induction value using byParts with
  | null =>
      have passes := here _ h
      rw [rebuilds.null] at passes ⊢
      exact passes
  | bool value =>
      have passes := here _ h
      rw [rebuilds.bool] at passes ⊢
      exact passes
  | number value =>
      have passes := here _ h
      rw [rebuilds.number] at passes ⊢
      exact passes
  | string value =>
      have passes := here _ h
      rw [rebuilds.string] at passes ⊢
      exact passes
  | array items ih =>
      obtain ⟨first, parts⟩ := all_array_iff.mp h
      have passes := here _ first
      rw [rebuilds.array] at passes ⊢
      refine all_array_iff.mpr ⟨passes, List.forall_mem_map.mpr ?_⟩
      intro item mem
      exact ih item mem (parts item mem)
  | object members ih =>
      obtain ⟨first, parts⟩ := all_object_iff.mp h
      have passes := here _ first
      rw [rebuilds.object] at passes ⊢
      have each : ∀ member ∈ members, (f member.2).all after := by
        intro member mem
        exact ih member mem (parts member mem)
      exact all_object_iff.mpr
        ⟨passes, rebuilds.forall_kept (P := fun value => value.all after) each⟩

/-- Nothing is nested deeper than before. -/
theorem nesting_le {value : Json} {levels : Nat} (h : value.nesting ≤ levels) :
    (f value).nesting ≤ levels := by
  induction value using byParts generalizing levels with
  | null => rwa [rebuilds.null]
  | bool value => rwa [rebuilds.bool]
  | number value => rwa [rebuilds.number]
  | string value => rwa [rebuilds.string]
  | array items ih =>
      obtain ⟨fewer, rfl, parts⟩ := nesting_array_le_iff.mp h
      rw [rebuilds.array]
      refine nesting_array_le_iff.mpr ⟨fewer, rfl, List.forall_mem_map.mpr ?_⟩
      intro item mem
      exact ih item mem (parts item mem)
  | object members ih =>
      obtain ⟨fewer, rfl, parts⟩ := nesting_object_le_iff.mp h
      rw [rebuilds.object]
      have each : ∀ member ∈ members, (f member.2).nesting ≤ fewer := by
        intro member mem
        exact ih member mem (parts member mem)
      exact nesting_object_le_iff.mpr
        ⟨fewer, rfl, rebuilds.forall_kept (P := fun value => value.nesting ≤ fewer) each⟩

/-- A value in which all members of an object would be kept as they are is not changed. -/
theorem eq_self {test : Json → Bool}
    (here : ∀ members, test (.object members) → g members = members) {value : Json}
    (h : value.all test) : f value = value := by
  induction value using byParts with
  | null => exact rebuilds.null
  | bool value => exact rebuilds.bool value
  | number value => exact rebuilds.number value
  | string value => exact rebuilds.string value
  | array items ih =>
      obtain ⟨-, parts⟩ := all_array_iff.mp h
      have same : ∀ item ∈ items, f item = item := by
        intro item mem
        exact ih item mem (parts item mem)
      rw [rebuilds.array, List.map_congr_left same, List.map_id']
  | object members ih =>
      obtain ⟨first, parts⟩ := all_object_iff.mp h
      have same : ∀ member ∈ members, f member.2 = member.2 := by
        intro member mem
        exact ih member mem (parts member mem)
      rw [rebuilds.object, Members.mapValues_eq_self same, here members first]

end Rebuilds

/-! ### Conditions that survive -/

/-- A test that reads nothing of an object but the names of its members, in no order, and
that is kept when members are left out. -/
structure NameTest (test : Json → Bool) : Prop where
  array : ∀ items items', test (.array items) → test (.array items')
  perm : ∀ {members members' : Members}, members'.names.Perm members.names →
    test (.object members) → test (.object members')
  sublist : ∀ {members members' : Members}, members'.names.Sublist members.names →
    test (.object members) → test (.object members')

theorem nameTest_notFloat : NameTest notFloat where
  array _ _ _ := rfl
  perm _ _ := rfl
  sublist _ _ := rfl

theorem hasPlainNames_iff {members : Members} :
    hasPlainNames (.object members) ↔ ∀ name ∈ members.names, '"' ∉ name.toList := by
  simp [hasPlainNames, Members.names]

theorem nameTest_hasPlainNames : NameTest hasPlainNames where
  array _ _ _ := rfl
  perm same plain := by
    refine hasPlainNames_iff.mpr ?_
    intro name mem
    exact hasPlainNames_iff.mp plain name (same.mem_iff.mp mem)
  sublist part plain := by
    refine hasPlainNames_iff.mpr ?_
    intro name mem
    exact hasPlainNames_iff.mp plain name (part.subset mem)

theorem nameTest_hasDistinctNames : NameTest hasDistinctNames where
  array _ _ _ := rfl
  perm same distinct := by
    simp only [hasDistinctNames, decide_eq_true_eq] at distinct ⊢
    exact same.symm.nodup distinct
  sublist part distinct := by
    simp only [hasDistinctNames, decide_eq_true_eq] at distinct ⊢
    exact distinct.sublist part

variable {test : Json → Bool}

theorem forall_mapValues {f : Json → Json} {members : Members} {P : String × Json → Prop} :
    (∀ member ∈ members.mapValues f, P member) ↔ ∀ member ∈ members, P (member.1, f member.2) := by
  simp only [Members.mapValues, List.forall_mem_map]

theorem all_subnetFirst (survives : NameTest test) {value : Json} (h : value.all test) :
    value.subnetFirst.all test := by
  refine rebuilds_subnetFirst.all_of_all ?_ h
  intro value here
  cases value with
  | array items => exact survives.array _ _ here
  | object members =>
      have same := (Members.leading_perm (Members.mapValues subnetFirst members)).map Prod.fst
      rw [subnetFirst_object]
      exact survives.perm (same.trans (.of_eq (Members.names_mapValues _ _))) here
  | _ => exact here

theorem all_withoutEmptySubnets (survives : NameTest test) {value : Json} (h : value.all test) :
    value.withoutEmptySubnets.all test := by
  refine rebuilds_withoutEmptySubnets.all_of_all ?_ h
  intro value here
  cases value with
  | array items => exact survives.array _ _ here
  | object members =>
      have part := Members.settled_sublist (Members.mapValues withoutEmptySubnets members)
      have names := part.map Prod.fst
      rw [withoutEmptySubnets_object]
      exact survives.sublist (Members.names_mapValues withoutEmptySubnets members ▸ names) here
  | _ => exact here

/-! ### Canonical values -/

/-- Whether no member but the first is a subnet. -/
def hasLeadingSubnet : Json → Bool
  | .object members => members.tail.all (!isSubnet ·)
  | _ => true

/-- Whether no empty subnet has company. -/
def hasNoSpareSubnet : Json → Bool
  | .object members => members.length ≤ 1 || members.all (!isEmptySubnet ·)
  | _ => true

/-- Whether a subnet leads every object it occurs in. -/
def subnetLeads (value : Json) : Bool := value.all hasLeadingSubnet

/-- Whether no empty subnet has company anywhere. -/
def noSpareSubnets (value : Json) : Bool := value.all hasNoSpareSubnet

theorem subnetLeads_object_iff {members : Members} :
    (object members).subnetLeads ↔
      (∀ member ∈ members.tail, isSubnet member = false) ∧
        ∀ member ∈ members, member.2.subnetLeads := by
  simp [subnetLeads, all_object_iff, hasLeadingSubnet]

theorem noSpareSubnets_object_iff {members : Members} :
    (object members).noSpareSubnets ↔
      (members.length ≤ 1 ∨ ∀ member ∈ members, isEmptySubnet member = false) ∧
        ∀ member ∈ members, member.2.noSpareSubnets := by
  simp [noSpareSubnets, all_object_iff, hasNoSpareSubnet]

theorem isEmptySubnet_of_not_isSubnet {member : String × Json} (h : isSubnet member = false) :
    isEmptySubnet member = false := by
  rw [Bool.eq_false_iff]
  intro empty
  rw [isEmptySubnet_iff.mp empty] at h
  cases h

theorem hasLeadingSubnet_object_iff {members : Members} :
    hasLeadingSubnet (.object members) ↔ ∀ member ∈ members.tail, isSubnet member = false := by
  simp [hasLeadingSubnet]

theorem hasNoSpareSubnet_object_iff {members : Members} :
    hasNoSpareSubnet (.object members) ↔
      members.length ≤ 1 ∨ ∀ member ∈ members, isEmptySubnet member = false := by
  simp [hasNoSpareSubnet]

/-- A value in which a subnet leads everywhere stays as it is. -/
theorem subnetFirst_of_subnetLeads {value : Json} (leads : value.subnetLeads) :
    value.subnetFirst = value := by
  refine rebuilds_subnetFirst.eq_self ?_ leads
  intro members here
  exact Members.leading_eq_self (hasLeadingSubnet_object_iff.mp here)

/-- A value without spare empty subnets stays as it is. -/
theorem withoutEmptySubnets_of_noSpareSubnets {value : Json} (spareless : value.noSpareSubnets) :
    value.withoutEmptySubnets = value := by
  refine rebuilds_withoutEmptySubnets.eq_self ?_ spareless
  intro members here
  exact Members.settled_eq_self (hasNoSpareSubnet_object_iff.mp here)

/-- Where names are different, `subnetFirst` puts every subnet first. -/
theorem subnetLeads_subnetFirst {value : Json} (distinct : value.distinctNames) :
    value.subnetFirst.subnetLeads := by
  refine rebuilds_subnetFirst.all_of_all ?_ distinct
  intro value here
  cases value with
  | object members =>
      have names : (Members.mapValues subnetFirst members).names.Nodup := by
        rw [Members.names_mapValues]
        exact of_decide_eq_true here
      rw [subnetFirst_object]
      exact hasLeadingSubnet_object_iff.mpr (Members.leading_tail names)
  | _ => rfl

/-- What `withoutEmptySubnets` leaves has a subnet first where it had one first before. -/
theorem subnetLeads_withoutEmptySubnets {value : Json} (leads : value.subnetLeads) :
    value.withoutEmptySubnets.subnetLeads := by
  refine rebuilds_withoutEmptySubnets.all_of_all ?_ leads
  intro value here
  cases value with
  | object members =>
      have tail := hasLeadingSubnet_object_iff.mp here
      rw [withoutEmptySubnets_object]
      refine hasLeadingSubnet_object_iff.mpr ?_
      intro member mem
      have old := Members.settled_tail_subset mem
      rw [Members.mapValues, ← List.map_tail] at old
      obtain ⟨before, later, rfl⟩ := List.mem_map.mp old
      exact tail before later
  | _ => rfl

/-- What `withoutEmptySubnets` leaves has no spare empty subnet. -/
theorem noSpareSubnets_withoutEmptySubnets (value : Json) :
    value.withoutEmptySubnets.noSpareSubnets := by
  refine rebuilds_withoutEmptySubnets.all_of_all ?_ (all_of_forall (fun _ => rfl) value)
  intro value _
  cases value with
  | object members =>
      rw [withoutEmptySubnets_object]
      exact hasNoSpareSubnet_object_iff.mpr (Members.settled_spareless _)
  | _ => rfl

end Json

end Provision
