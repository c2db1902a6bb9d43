import Provision.Proofs.Cluster.Readable
import Provision.Proofs.EmptySubnet.Order

/-!
The properties of a document that no profile covers.

`Json.uninterpreted` are the members of the properties object whose name is not that of a
profile.

* `Definition.Legible` — a definition whose text is JSON. Every one that was read is so, whatever
  its document is (`legible_of_parse`).
* `Definition.Writable` — a definition whose text can be read back; `uninterpreted_encode` says
  that it is written with exactly the properties that it keeps beside its profiles.
* `extra_of_parse` — a definition that was read keeps what is loaded of these properties, and
  nothing else; it is writable if they hold integers (`writable_of_parse`).
* `same_extra` — so it keeps them as they are, up to the order of members, if they also have no
  spare empty subnets, and no member of the document is severed.
-/

namespace Provision

namespace Json

/-- The members of an object; any other value has none. -/
def members : Json → Members
  | .object members => members
  | _ => []

def properties (document : Json) : Members := document.properties?.elim [] members

/-- The properties of a document that no profile covers. -/
def uninterpreted (document : Json) : Members := document.properties.filter Profiles.isOther

end Json

/-! ### Loading properties -/

/-- What is loaded under a name is what the document has under it, unless it may be an empty
subnet. -/
theorem Members.find?_loaded {members : Members} {name : String}
    (distinct : members.names.Nodup) (other : name ≠ "subnet") :
    members.loaded.find? name = (members.find? name).map Json.loaded := by
  cases found : members.find? name with
  | none =>
      cases found' : members.loaded.find? name with
      | none => rfl
      | some w =>
          obtain ⟨v, mem, -⟩ := mem_of_mem_loaded (mem_of_find? found')
          rw [find?_of_mem distinct mem] at found
          cases found
  | some v =>
      have noSubnet : Json.isEmptySubnet (name, v) = false := by
        refine Json.isEmptySubnet_of_not_isSubnet ?_
        simp [Json.isSubnet, other]
      exact find?_of_mem (nodup_names_loaded distinct) (mem_loaded (mem_of_find? found) noSubnet)

namespace Json

theorem members_loaded (v : Json) : v.loaded.members = Members.loaded v.members := by
  cases v with
  | array items => rw [loaded_array]; rfl
  | object members => rw [loaded_object]; rfl
  | _ => rfl

theorem properties?_loaded {document : Json} (distinct : document.distinctNames) :
    document.loaded.properties? = document.properties?.map loaded := by
  cases document with
  | array items =>
      rw [loaded_array]
      exact List.getElem?_map
  | object members =>
      rw [loaded_object]
      exact Members.find?_loaded (distinctNames_object_iff.mp distinct).1 (by decide)
  | _ => rfl

/-- The properties that are loaded are those of the document, loaded. -/
theorem properties_loaded {document : Json} (distinct : document.distinctNames) :
    document.loaded.properties = document.properties.loaded := by
  rw [properties, properties?_loaded distinct, properties]
  cases document.properties? with
  | none => rfl
  | some v => exact members_loaded v

variable {levels : Nat}

/-- The properties were read with the document. -/
theorem wellRead_properties {document : Json} (read : WellRead (levels + 1) document)
    (positive : 0 < levels) : WellRead levels (.object document.properties) := by
  unfold properties
  cases found : document.properties? with
  | none => exact ⟨rfl, positive⟩
  | some v =>
      have mem := mem_parts_of_properties? found
      cases v with
      | object members => exact ⟨all_part read.distinct mem, nesting_part_le read.bound mem⟩
      | _ => exact ⟨rfl, positive⟩

end Json

/-! ### Properties that are written -/

/-- A definition whose text is JSON: the properties that no profile covers have different names,
which are not those of profiles, and values that can be read in their place. -/
structure Definition.Legible (definition : Definition) : Prop where
  distinct : definition.extra.names.Nodup
  unclaimed : ∀ name ∈ definition.extra.names, name ∉ Profiles.names
  values : ∀ member ∈ definition.extra, Json.WellRead 125 member.2

/-- Being legible is a matter of the properties that no profile covers. -/
theorem Definition.Legible.congr {definition other : Definition} (h : definition.Legible)
    (extra : other.extra = definition.extra) : other.Legible := by
  constructor
  · rw [extra]
    exact h.distinct
  · rw [extra]
    exact h.unclaimed
  · rw [extra]
    exact h.values

/-- The value that is written for a legible definition can be read, whatever its profiles are. -/
theorem Definition.Legible.wellRead_encode {definition : Definition} (h : definition.Legible) :
    Json.WellRead Json.Reader.maxLevels definition.encode := by
  have profiles := storable_profileMembers definition
  have properties : Json.WellRead 126
      (.object (definition.profileMembers ++ definition.extra)) := by
    refine Json.wellRead_members ?_ (List.forall_mem_append.mpr ⟨?_, h.values⟩)
    · rw [Members.names_append]
      refine List.nodup_append.mpr ⟨profiles.distinct, h.distinct, ?_⟩
      rintro name mem _ own rfl
      exact h.unclaimed name own ((names_profileMembers_sublist definition).subset mem)
    · intro member mem
      exact ⟨(profiles.values member mem).distinct, (profiles.values member mem).bound⟩
  refine Json.wellRead_members (of_decide_eq_true rfl) ?_
  simp only [List.forall_mem_cons]
  exact ⟨⟨rfl, Nat.zero_le _⟩, properties, nofun⟩

/-- A definition that can be written and read back as JSON, whatever its names are: nothing is
asked of the profiles, and the other properties hold integers and do not take the name of a
profile. -/
structure Definition.Writable (definition : Definition) : Prop where
  distinct : definition.extra.names.Nodup
  unclaimed : ∀ name ∈ definition.extra.names, name ∉ Profiles.names
  values : ∀ member ∈ definition.extra, member.2.Faithful 125

namespace Definition.Writable

variable {definition : Definition}

/-- Being writable is a matter of the properties that no profile covers. -/
theorem congr {other : Definition} (h : definition.Writable)
    (extra : other.extra = definition.extra) : other.Writable := by
  constructor
  · rw [extra]
    exact h.distinct
  · rw [extra]
    exact h.unclaimed
  · rw [extra]
    exact h.values

theorem legible (h : definition.Writable) : definition.Legible where
  distinct := h.distinct
  unclaimed := h.unclaimed
  values member mem := ⟨(h.values member mem).distinct, (h.values member mem).bound⟩

theorem faithful_encode (h : definition.Writable) :
    definition.encode.Faithful Json.Reader.maxLevels := by
  have wellRead := h.legible.wellRead_encode
  have properties : (Json.object (definition.profileMembers ++ definition.extra)).wholeNumbers := by
    refine Json.wholeNumbers_object_iff.mpr (List.forall_mem_append.mpr ⟨?_, ?_⟩)
    · intro member mem
      exact ((storable_profileMembers definition).values member mem).whole
    · intro member mem
      exact (h.values member mem).whole
  refine ⟨Json.wholeNumbers_object_iff.mpr ?_, wellRead.distinct, wellRead.bound⟩
  simp only [List.forall_mem_cons]
  exact ⟨rfl, properties, nofun⟩

/-- A definition is written with the properties that it keeps, and no others that no profile
covers. -/
theorem uninterpreted_encode (h : definition.Writable) :
    definition.encode.uninterpreted = definition.extra := by
  have profiles : definition.profileMembers.filter Profiles.isOther = [] := by
    refine List.filter_eq_nil_iff.mpr ?_
    intro member mem other
    have claimed := (names_profileMembers_sublist definition).subset (List.mem_map_of_mem mem)
    exact find?_fields_eq_none_iff.mp (Profiles.isOther_iff.mp other) claimed
  have others : definition.extra.filter Profiles.isOther = definition.extra := by
    refine List.filter_eq_self.mpr ?_
    intro member mem
    have unclaimed := h.unclaimed member.1 (List.mem_map_of_mem mem)
    exact Profiles.isOther_iff.mpr (find?_fields_eq_none_iff.mpr unclaimed)
  show (definition.profileMembers ++ definition.extra).filter Profiles.isOther = definition.extra
  rw [List.filter_append, profiles, others, List.nil_append]

end Definition.Writable

/-! ### Properties that are kept -/

/-- The properties that a definition keeps are those that no profile covers. -/
theorem Definition.extra_of_decode {value : Json} {definition : Definition}
    (distinct : value.distinctNames) (decoded : Definition.decode value = .ok definition) :
    definition.extra = value.uninterpreted := by
  obtain ⟨part, there, plane, profiles, version, stated, rfl⟩ :=
    Definition.properties_of_decode distinct decoded
  have inner : part.distinctNames := Json.all_part distinct (Json.mem_parts_of_properties? there)
  obtain ⟨members, rfl, extra, -⟩ := Profiles.members_of_decode inner stated
  rw [Json.uninterpreted, Json.properties, there]
  exact extra

section Parsed

variable {text : String} {document : Json} {definition : Definition}

/-- A definition that was read keeps the properties of the loaded document that no profile
covers. -/
theorem Definition.extra_of_parse (read : Json.parse text = .ok document)
    (whole : document.subnetFirst.unsevered) (accepted : Definition.parse text = .ok definition) :
    definition.extra = document.loaded.uninterpreted := by
  have wellRead := Json.wellRead_loaded (Json.wellRead_of_parse read) whole
  rw [Definition.parse_eq_ofValue_loaded read whole] at accepted
  obtain ⟨decoded, -⟩ := Definition.ofValue_eq_ok_iff.mp accepted
  exact Definition.extra_of_decode wellRead.distinct decoded

/-- **Every definition that was read is legible**, whatever the document is. -/
theorem Definition.legible_of_parse (accepted : Definition.parse text = .ok definition) :
    definition.Legible := by
  unfold Definition.parse at accepted
  split at accepted
  · cases accepted
  · unfold Definition.ofCanonicalText at accepted
    split at accepted
    · cases accepted
    · rename_i loaded canonical
      have accepted : Definition.ofValue loaded = .ok definition := accepted
      have wellRead := Json.wellRead_of_parse canonical
      obtain ⟨decoded, -⟩ := Definition.ofValue_eq_ok_iff.mp accepted
      have extra := Definition.extra_of_decode wellRead.distinct decoded
      have properties : Json.WellRead 126 (.object loaded.properties) :=
        Json.wellRead_properties wellRead (by decide)
      obtain ⟨names, distinct⟩ := Json.distinctNames_object_iff.mp properties.distinct
      have bound := Json.nestingMembers_le_iff.mp (Nat.le_of_succ_le_succ properties.bound)
      constructor
      · rw [extra]
        exact names.sublist (List.filter_sublist.map Prod.fst)
      · rw [extra]
        intro name own
        obtain ⟨member, mem, rfl⟩ := List.mem_map.mp own
        exact find?_fields_eq_none_iff.mp (Profiles.isOther_iff.mp (List.mem_filter.mp mem).2)
      · rw [extra]
        intro member mem
        obtain ⟨listed, -⟩ := List.mem_filter.mp mem
        exact ⟨distinct member listed, bound member listed⟩

variable (read : Json.parse text = .ok document) (whole : document.subnetFirst.unsevered)
  (integers : ∀ member ∈ document.uninterpreted, member.2.wholeNumbers)
  (accepted : Definition.parse text = .ok definition)

include read whole integers accepted

/-- Properties that no profile covers are kept as they are, up to the order of members, if none
of them has an empty subnet to lose. -/
theorem Definition.same_extra
    (spareless : ∀ member ∈ document.uninterpreted,
      Json.isEmptySubnet member = false ∧ member.2.noSpareSubnets) :
    Json.Same (.object document.uninterpreted) (.object definition.extra) := by
  have wellRead := Json.wellRead_of_parse read
  have properties : Json.WellRead 126 (.object document.properties) :=
    Json.wellRead_properties wellRead (by decide)
  rw [Definition.extra_of_parse read whole accepted, Json.uninterpreted, Json.uninterpreted,
    Json.properties_loaded wellRead.distinct]
  exact Json.same_filter_loaded (fun _ _ _ => rfl) properties.distinct integers spareless

/-- A definition that was read is writable, if the properties that no profile covers hold
integers. -/
theorem Definition.writable_of_parse : definition.Writable := by
  have legible := Definition.legible_of_parse accepted
  refine ⟨legible.distinct, legible.unclaimed, ?_⟩
  intro member mem
  refine ⟨?_, (legible.values member mem).distinct, (legible.values member mem).bound⟩
  -- only integers are loaded from integers
  rw [Definition.extra_of_parse read whole accepted] at mem
  obtain ⟨listed, other⟩ := List.mem_filter.mp mem
  rw [Json.properties_loaded (Json.wellRead_of_parse read).distinct] at listed
  obtain ⟨v, own, same⟩ := Members.mem_of_mem_loaded listed
  rw [same]
  exact Json.wholeNumbers_loaded (integers (member.1, v) (List.mem_filter.mpr ⟨own, other⟩))

end Parsed

end Provision
