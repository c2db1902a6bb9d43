import Provision.Proofs.EmptySubnet.Canonical

/-!
Values that differ in the order of members only.

Loading moves subnets to the front. Where it drops no empty subnet and rounds no float, what
is loaded is the same value without regard to the order of members (`Json.Same`), at every
depth: `same_loaded`.
-/

namespace Provision

namespace Json

/-- Two values are the same without regard to the order of members: their objects have the
same names, and the values behind one name are the same again. -/
inductive Same : Json → Json → Prop where
  | null : Same .null .null
  | bool (value : Bool) : Same (.bool value) (.bool value)
  | number (value : Number) : Same (.number value) (.number value)
  | string (text : String) : Same (.string text) (.string text)
  | array {items items' : List Json} (length : items'.length = items.length)
      (each : ∀ (i : Nat) v w, items[i]? = some v → items'[i]? = some w → Same v w) :
      Same (.array items) (.array items')
  | object {members members' : Members} (names : members'.names.Perm members.names)
      (each : ∀ name v w, (name, v) ∈ members → (name, w) ∈ members' → Same v w) :
      Same (.object members) (.object members')

theorem Same.names {members members' : Members}
    (same : Same (.object members) (.object members')) : members'.names.Perm members.names := by
  cases same with
  | object names => exact names

theorem Same.value {members members' : Members} {name : String} {v w : Json}
    (same : Same (.object members) (.object members')) (first : (name, v) ∈ members)
    (second : (name, w) ∈ members') : Same v w := by
  cases same with
  | object _ each => exact each name v w first second

/-- Moving subnets to the front changes the order of members only. -/
theorem same_subnetFirst {v : Json} (distinct : v.distinctNames) : Same v v.subnetFirst := by
  induction v using byParts with
  | null => exact .null
  | bool value => exact .bool value
  | number value => exact .number value
  | string text => exact .string text
  | array items ih =>
      have distinct := (all_array_iff.mp distinct).2
      rw [subnetFirst_array]
      refine .array (List.length_map _) ?_
      intro i v w first second
      rw [List.getElem?_map, first] at second
      obtain rfl := Option.some.inj second
      have mem := List.mem_of_getElem? first
      exact ih v mem (distinct v mem)
  | object members ih =>
      obtain ⟨names, distinct⟩ := distinctNames_object_iff.mp distinct
      have perm := Members.leading_perm (members.mapValues subnetFirst)
      rw [subnetFirst_object]
      constructor
      · exact (perm.map Prod.fst).trans (.of_eq (Members.names_mapValues _ _))
      · intro name v w mem mem'
        obtain ⟨⟨_, own⟩, listed, same⟩ := List.mem_map.mp (perm.mem_iff.mp mem')
        obtain ⟨rfl, rfl⟩ := Prod.mk.inj same
        obtain rfl := Members.eq_of_mem names mem listed
        exact ih _ mem (distinct _ mem)

/-- Of a value of integers without spare empty subnets, loading changes nothing but the place
of its subnets. -/
theorem loaded_of_noSpareSubnets {v : Json} (whole : v.wholeNumbers)
    (spareless : v.noSpareSubnets) : v.loaded = v.subnetFirst := by
  rw [loaded_of_wholeNumbers whole, canonical,
    withoutEmptySubnets_of_noSpareSubnets (noSpareSubnets_subnetFirst spareless)]

theorem same_loaded {v : Json} (distinct : v.distinctNames) (whole : v.wholeNumbers)
    (spareless : v.noSpareSubnets) : Same v v.loaded := by
  rw [loaded_of_noSpareSubnets whole spareless]
  exact same_subnetFirst distinct

/-- Some of the members of an object are the same, if none of them is an empty subnet. -/
theorem same_filter_loaded {members : Members} {p : String × Json → Bool}
    (byName : ∀ name v w, p (name, v) = p (name, w)) (distinct : (object members).distinctNames)
    (whole : ∀ member ∈ members.filter p, member.2.wholeNumbers)
    (spareless : ∀ member ∈ members.filter p,
      isEmptySubnet member = false ∧ member.2.noSpareSubnets) :
    Same (.object (members.filter p)) (.object (members.loaded.filter p)) := by
  obtain ⟨names, distinct⟩ := distinctNames_object_iff.mp distinct
  have names' := Members.nodup_names_loaded names
  have part (members : Members) (names : members.names.Nodup) :
      (Members.names (members.filter p)).Nodup :=
    names.sublist (List.filter_sublist.map Prod.fst)
  constructor
  · refine (List.perm_ext_iff_of_nodup (part _ names') (part _ names)).mpr ?_
    intro name
    constructor
    · intro mem
      obtain ⟨⟨_, w⟩, kept, rfl⟩ := List.mem_map.mp mem
      obtain ⟨listed, passes⟩ := List.mem_filter.mp kept
      obtain ⟨v, own, -⟩ := Members.mem_of_mem_loaded listed
      exact List.mem_map.mpr ⟨_, List.mem_filter.mpr ⟨own, (byName ..).trans passes⟩, rfl⟩
    · intro mem
      obtain ⟨⟨_, v⟩, kept, rfl⟩ := List.mem_map.mp mem
      obtain ⟨listed, passes⟩ := List.mem_filter.mp kept
      have loaded := Members.mem_loaded listed (spareless _ kept).1
      exact List.mem_map.mpr ⟨_, List.mem_filter.mpr ⟨loaded, (byName ..).trans passes⟩, rfl⟩
  · intro name v w mem mem'
    obtain ⟨listed, -⟩ := List.mem_filter.mp mem
    obtain ⟨v', listed', rfl⟩ := Members.mem_of_mem_loaded (List.mem_filter.mp mem').1
    obtain rfl := Members.eq_of_mem names listed listed'
    exact same_loaded (distinct _ listed) (whole _ mem) (spareless _ mem).2

end Json

end Provision
