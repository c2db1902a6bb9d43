import Provision.Proofs.EmptySubnet.CompactText
import Provision.Proofs.Json.Parsed
import Provision.Proofs.Json.RoundTrip

/-!
The value in the canonical text of a document.

* `parse_canonicalText` — unless a member is severed (`Json.unsevered`), the
  canonical text of a document can be read, and what is read is `Json.loaded`: subnets first,
  then without the empty ones that have company, with floats as their texts stand for them.
  With integers it is `Json.canonical` (`loaded_of_wholeNumbers`).
* `Json.Storable` — a value that survives being written into a document and loaded again,
  as far as its text goes: it can be read back, and has no empty subnet to lose. Then
  `canonical_of_storable` says that only the place of its subnets can change.
* `storable_canonical` — what loading makes of a document is storable itself.
-/

namespace Provision

/-- The value of the canonical text of a document. -/
def Json.canonical (document : Json) : Json := document.subnetFirst.withoutEmptySubnets

/-- The value that is read from the canonical text of a document: every float is what its
text stands for. -/
def Json.loaded (document : Json) : Json := document.canonical.reread

/-- What becomes of the members of an object. -/
def Members.loaded (members : Members) : Members :=
  Members.mapValues Json.reread
    (Members.settled (Members.leading (members.mapValues Json.canonical)))

/-- A value that a document with this many levels can hold and give back. -/
structure Json.Storable (levels : Nat) (value : Json) : Prop where
  whole : value.wholeNumbers
  plain : value.plainNames
  distinct : value.distinctNames
  spareless : value.noSpareSubnets
  bound : value.nesting ≤ levels

/-- Members that an object can hold beside each other, whatever other members it has. -/
structure Members.Storable (levels : Nat) (members : Members) : Prop where
  distinct : members.names.Nodup
  plain : ∀ name ∈ members.names, '"' ∉ name.toList
  spareless : ∀ member ∈ members, Json.isEmptySubnet member = false
  values : ∀ member ∈ members, member.2.Storable levels

namespace Json

variable {levels : Nat}

/-! ### Storable values -/

theorem storable_string (text : String) : (string text).Storable levels :=
  ⟨rfl, rfl, rfl, rfl, Nat.zero_le _⟩

theorem storable_integer (value : Int) (fits : FitsWord value) :
    (number (.integer value fits)).Storable levels :=
  ⟨rfl, rfl, rfl, rfl, Nat.zero_le _⟩

theorem storable_array {items : List Json} (each : ∀ item ∈ items, item.Storable levels) :
    (array items).Storable (levels + 1) := by
  constructor
  · refine all_array_iff.mpr ⟨rfl, ?_⟩
    intro item mem
    exact (each item mem).whole
  · refine all_array_iff.mpr ⟨rfl, ?_⟩
    intro item mem
    exact (each item mem).plain
  · refine all_array_iff.mpr ⟨rfl, ?_⟩
    intro item mem
    exact (each item mem).distinct
  · refine all_array_iff.mpr ⟨rfl, ?_⟩
    intro item mem
    exact (each item mem).spareless
  · refine Nat.succ_le_succ (nestingItems_le_iff.mpr ?_)
    intro item mem
    exact (each item mem).bound

theorem storable_object {members : Members} (h : members.Storable levels) :
    (object members).Storable (levels + 1) := by
  constructor
  · refine wholeNumbers_object_iff.mpr ?_
    intro member mem
    exact (h.values member mem).whole
  · refine plainNames_object_iff.mpr ?_
    intro member mem
    exact ⟨h.plain _ (List.mem_map_of_mem mem), (h.values member mem).plain⟩
  · refine distinctNames_object_iff.mpr ⟨h.distinct, ?_⟩
    intro member mem
    exact (h.values member mem).distinct
  · refine noSpareSubnets_object_iff.mpr ⟨.inr h.spareless, ?_⟩
    intro member mem
    exact (h.values member mem).spareless
  · refine Nat.succ_le_succ (nestingMembers_le_iff.mpr ?_)
    intro member mem
    exact (h.values member mem).bound

/-! ### Parts -/

/-- The items of an array or the values of an object. -/
def parts : Json → List Json
  | .array items => items
  | .object members => members.map Prod.snd
  | _ => []

/-- A test that holds everywhere in a value holds everywhere in its parts. -/
theorem all_part {test : Json → Bool} {value part : Json} (h : value.all test)
    (mem : part ∈ value.parts) : part.all test := by
  cases value with
  | array items => exact (all_array_iff.mp h).2 part mem
  | object members =>
      obtain ⟨member, listed, rfl⟩ := List.mem_map.mp mem
      exact (all_object_iff.mp h).2 member listed
  | _ => cases mem

theorem nesting_part_le {value part : Json} (bound : value.nesting ≤ levels + 1)
    (mem : part ∈ value.parts) : part.nesting ≤ levels := by
  cases value with
  | array items => exact nestingItems_le_iff.mp (Nat.le_of_succ_le_succ bound) part mem
  | object members =>
      obtain ⟨member, listed, rfl⟩ := List.mem_map.mp mem
      exact nestingMembers_le_iff.mp (Nat.le_of_succ_le_succ bound) member listed
  | _ => cases mem

theorem Storable.part {value part : Json} (h : value.Storable (levels + 1))
    (mem : part ∈ value.parts) : part.Storable levels where
  whole := all_part h.whole mem
  plain := all_part h.plain mem
  distinct := all_part h.distinct mem
  spareless := all_part h.spareless mem
  bound := nesting_part_le h.bound mem

theorem Storable.faithful {value : Json} (h : value.Storable levels) : value.Faithful levels :=
  ⟨h.whole, h.distinct, h.bound⟩

/-! ### Moving subnets -/

/-- Moving subnets gives no empty subnet company that had none. -/
theorem noSpareSubnets_subnetFirst {value : Json} (spareless : value.noSpareSubnets) :
    value.subnetFirst.noSpareSubnets := by
  refine rebuilds_subnetFirst.all_of_all ?_ spareless
  intro value here
  cases value with
  | object members =>
      have perm := Members.leading_perm (Members.mapValues subnetFirst members)
      rw [subnetFirst_object]
      refine hasNoSpareSubnet_object_iff.mpr ?_
      rcases hasNoSpareSubnet_object_iff.mp here with alone | none
      · left
        rw [perm.length_eq, Members.mapValues, List.length_map]
        exact alone
      · right
        intro member mem
        obtain ⟨old, oldMem, rfl⟩ := List.mem_map.mp (perm.mem_iff.mp mem)
        rw [isEmptySubnet_subnetFirst]
        exact none old oldMem
  | _ => rfl

theorem Storable.subnetFirst {value : Json} (h : value.Storable levels) :
    value.subnetFirst.Storable levels where
  whole := all_subnetFirst nameTest_notFloat h.whole
  plain := all_subnetFirst nameTest_hasPlainNames h.plain
  distinct := all_subnetFirst nameTest_hasDistinctNames h.distinct
  spareless := noSpareSubnets_subnetFirst h.spareless
  bound := rebuilds_subnetFirst.nesting_le h.bound

/-! ### Canonical text -/

/-- The canonical text is that of the canonical value, if no member is severed where subnets
come first. -/
theorem canonicalText_eq {document : Json} (distinct : document.distinctNames)
    (whole : document.subnetFirst.unsevered) :
    document.canonicalText = document.canonical.compact :=
  strip_compact_of_unsevered (subnetLeads_subnetFirst distinct) whole

theorem distinctNames_canonical {document : Json} (distinct : document.distinctNames) :
    document.canonical.distinctNames :=
  all_withoutEmptySubnets nameTest_hasDistinctNames
    (all_subnetFirst nameTest_hasDistinctNames distinct)

theorem nesting_canonical_le {document : Json} (bound : document.nesting ≤ levels) :
    document.canonical.nesting ≤ levels :=
  rebuilds_withoutEmptySubnets.nesting_le (rebuilds_subnetFirst.nesting_le bound)

/-- **Canonical text can always be read**, and what is read is the canonical value, with its
floats as their texts stand for them. -/
theorem parse_canonicalText {document : Json} (read : WellRead Reader.maxLevels document)
    (whole : document.subnetFirst.unsevered) :
    Json.parse document.canonicalText = .ok document.loaded := by
  rw [canonicalText_eq read.distinct whole]
  exact parse_compact_reread (distinctNames_canonical read.distinct)
    (nesting_canonical_le read.bound)

/-- What loading makes of a document is storable. -/
theorem storable_canonical {document : Json} (read : WellRead levels document)
    (whole : document.wholeNumbers) (plain : document.plainNames) :
    document.canonical.Storable levels where
  whole := all_withoutEmptySubnets nameTest_notFloat (all_subnetFirst nameTest_notFloat whole)
  plain := all_withoutEmptySubnets nameTest_hasPlainNames
    (all_subnetFirst nameTest_hasPlainNames plain)
  distinct := distinctNames_canonical read.distinct
  spareless := noSpareSubnets_withoutEmptySubnets _
  bound := nesting_canonical_le read.bound

theorem subnetLeads_canonical {document : Json} (distinct : document.distinctNames) :
    document.canonical.subnetLeads :=
  subnetLeads_withoutEmptySubnets (subnetLeads_subnetFirst distinct)

/-- Of a storable value, loading changes nothing but the place of its subnets. -/
theorem canonical_of_storable {value : Json} (h : value.Storable levels) :
    value.canonical = value.subnetFirst :=
  withoutEmptySubnets_of_noSpareSubnets h.subnetFirst.spareless

/-- Integers are loaded as they are. -/
theorem loaded_of_wholeNumbers {value : Json} (whole : value.wholeNumbers) :
    value.loaded = value.canonical :=
  reread_of_wholeNumbers
    (all_withoutEmptySubnets nameTest_notFloat (all_subnetFirst nameTest_notFloat whole))

theorem wholeNumbers_loaded {value : Json} (whole : value.wholeNumbers) :
    value.loaded.wholeNumbers := by
  rw [loaded_of_wholeNumbers whole]
  exact all_withoutEmptySubnets nameTest_notFloat (all_subnetFirst nameTest_notFloat whole)

/-- What is loaded was read, from the canonical text. -/
theorem wellRead_loaded {document : Json} (read : WellRead Reader.maxLevels document)
    (whole : document.subnetFirst.unsevered) : WellRead Reader.maxLevels document.loaded :=
  wellRead_of_parse (parse_canonicalText read whole)

/-! ### What is loaded, part by part -/

theorem rebuilds_canonical : Rebuilds canonical fun members => members.leading.settled where
  null := rfl
  bool _ := rfl
  number _ := rfl
  string _ := rfl
  array items := by
    rw [canonical, subnetFirst_array, withoutEmptySubnets_array, List.map_map]
    rfl
  object members := by
    rw [canonical, subnetFirst_object, withoutEmptySubnets_object, ← Members.leading_mapValues,
      Members.mapValues, Members.mapValues, List.map_map]
    rfl
  part members := List.Subset.trans (Members.settled_sublist _).subset
    (Members.leading_perm members).subset

theorem loaded_array (items : List Json) : (array items).loaded = .array (items.map loaded) := by
  rw [loaded, rebuilds_canonical.array, reread_array, List.map_map]
  rfl

theorem loaded_object (members : Members) : (object members).loaded = .object members.loaded := by
  rw [loaded, rebuilds_canonical.object, reread_object]
  rfl

theorem loaded_integer (value : Int) (fits : FitsWord value) :
    (number (.integer value fits)).loaded = .number (.integer value fits) := by
  rw [loaded, rebuilds_canonical.number, reread, Reader.reread_integer]

theorem exists_loaded_float (x : Decimal.Binary64) :
    ∃ y, (number (.float x)).loaded = .number (.float y) := by
  obtain ⟨y, same, -⟩ := Reader.exists_reread_float x
  exact ⟨y, by rw [loaded, rebuilds_canonical.number, reread, same]⟩

theorem isEmptySubnet_canonical (name : String) (value : Json) :
    isEmptySubnet (name, value.canonical) = isEmptySubnet (name, value) := by
  rw [canonical, isEmptySubnet_withoutEmptySubnets, isEmptySubnet_subnetFirst]

end Json

namespace Members

/-- Every member that is loaded comes from the document. -/
theorem mem_of_mem_loaded {members : Members} {name : String} {w : Json}
    (mem : (name, w) ∈ members.loaded) : ∃ v, (name, v) ∈ members ∧ w = v.loaded := by
  obtain ⟨⟨_, moved⟩, kept, same⟩ := List.mem_map.mp mem
  obtain ⟨⟨_, own⟩, listed, same'⟩ := List.mem_map.mp (Json.rebuilds_canonical.part _ kept)
  obtain ⟨rfl, rfl⟩ := Prod.mk.inj same
  obtain ⟨rfl, rfl⟩ := Prod.mk.inj same'
  exact ⟨own, listed, rfl⟩

/-- Every member but an empty subnet is loaded. -/
theorem mem_loaded {members : Members} {name : String} {v : Json} (mem : (name, v) ∈ members)
    (other : Json.isEmptySubnet (name, v) = false) : (name, v.loaded) ∈ members.loaded := by
  have moved := (leading_perm (members.mapValues Json.canonical)).mem_iff.mpr
    (List.mem_map_of_mem mem)
  exact List.mem_map.mpr
    ⟨_, mem_settled moved ((Json.isEmptySubnet_canonical name v).trans other), rfl⟩

theorem names_loaded_subset (members : Members) : members.loaded.names ⊆ members.names := by
  intro name mem
  obtain ⟨⟨_, w⟩, listed, rfl⟩ := List.mem_map.mp mem
  obtain ⟨v, own, -⟩ := mem_of_mem_loaded listed
  exact List.mem_map.mpr ⟨_, own, rfl⟩

/-- Loading keeps names different. -/
theorem nodup_names_loaded {members : Members} (distinct : members.names.Nodup) :
    members.loaded.names.Nodup := by
  have perm := (leading_perm (members.mapValues Json.canonical)).map Prod.fst
  have part := (settled_sublist (leading (members.mapValues Json.canonical))).map Prod.fst
  have moved : (members.mapValues Json.canonical).names.Nodup := by rwa [names_mapValues]
  rw [loaded, names_mapValues]
  exact (perm.symm.nodup moved).sublist part

variable {levels : Nat}

/-- Members of different names can be held together. -/
theorem Storable.append {members others : Members} (h : members.Storable levels)
    (h' : others.Storable levels) (apart : ∀ name ∈ members.names, name ∉ others.names) :
    (members ++ others : Members).Storable levels := by
  constructor
  · rw [names_append]
    refine List.nodup_append.mpr ⟨h.distinct, h'.distinct, ?_⟩
    rintro name mem other mem' rfl
    exact apart name mem mem'
  · intro name mem
    rw [names_append] at mem
    rcases List.mem_append.mp mem with mem | mem
    · exact h.plain name mem
    · exact h'.plain name mem
  · intro member mem
    rcases List.mem_append.mp mem with mem | mem
    · exact h.spareless member mem
    · exact h'.spareless member mem
  · intro member mem
    rcases List.mem_append.mp mem with mem | mem
    · exact h.values member mem
    · exact h'.values member mem

/-- Some of the members of a storable object, which must not be its only one. -/
theorem storable_filter {members : Members} {p : String × Json → Bool}
    (h : (Json.object members).Storable (levels + 1))
    (alone : members.length ≤ 1 → members.filter p = []) :
    Members.Storable levels (members.filter p) := by
  constructor
  · obtain ⟨distinct, -⟩ := Json.distinctNames_object_iff.mp h.distinct
    exact distinct.sublist (List.filter_sublist.map Prod.fst)
  · intro name mem
    obtain ⟨member, listed, rfl⟩ := List.mem_map.mp mem
    exact (Json.plainNames_object_iff.mp h.plain member (List.mem_filter.mp listed).1).1
  · intro member mem
    obtain ⟨few | none, -⟩ := Json.noSpareSubnets_object_iff.mp h.spareless
    · rw [alone few] at mem
      cases mem
    · exact none member (List.mem_filter.mp mem).1
  · intro member mem
    exact h.part (List.mem_map_of_mem (List.mem_filter.mp mem).1)

theorem subnetLeads_filter {members : Members} {p : String × Json → Bool}
    (leads : (Json.object members).subnetLeads) :
    (Json.object (members.filter p)).subnetLeads := by
  obtain ⟨tail, values⟩ := Json.subnetLeads_object_iff.mp leads
  refine Json.subnetLeads_object_iff.mpr ⟨?_, ?_⟩
  · intro member mem
    exact tail member (tail_filter_subset p members mem)
  · intro member mem
    exact values member (List.mem_filter.mp mem).1

end Members

end Provision
