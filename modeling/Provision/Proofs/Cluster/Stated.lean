import Provision.Proofs.Cluster.Properties
import Provision.Proofs.Json.Lookup

/-!
What a document states about its dialect and its control plane.

* `Decoding.Owns` — one field alone decides what is seen of a record. Then this is told from the one
  member of its name, however many others are taken up before and behind it (`Owns.of_present`,
  `Owns.of_absent`).
* `Members.States` — a profile is stated by a member that is not `null`. Loading does not change
  whether it is (`states_loaded_iff`).
* `Definition.tag_of_parse`, `states_of_parse` — a definition that was read from an object has the
  dialect that the object names, and the kind of control plane that its properties state.
* `Misstated` — what is refused in such an object, whatever else is in it (`error_of_misstated`).
-/

namespace Provision

namespace Decoding

/-! ### What one field makes of an object -/

variable {α β σ : Type} {fields : List (Field Json σ)} {other : String → Json → σ → σ}
  {record built : σ} {members : Members} {name : String}

/-- What `view` shows of a record is a matter of the field of this name alone. -/
structure Owns (fields : List (Field Json σ)) (other : String → Json → σ → σ) (name : String)
    (view : σ → β) : Prop where
  apart : ∀ field ∈ fields, field.name ≠ name → ∀ value change, field.read value = .ok change →
    ∀ record, view (change record) = view record
  rest : ∀ name value record, view (other name value record) = view record

/-- Members of other names leave it as it was. -/
theorem Owns.of_absent {view : σ → β} (owns : Owns fields other name view)
    (taken : takeMembers fields other record members = .ok built) (absent : name ∉ members.names) :
    view built = view record := by
  refine takeMembers_forall (P := fun later => view later = view record) rfl ?_ ?_ taken
  · rintro field value ⟨listed, mem⟩ change read later same
    have differs : field.name ≠ name := by
      rintro rfl
      exact absent (List.mem_map_of_mem mem)
    exact (owns.apart field listed differs value change read later).trans same
  · intro name value later same
    exact (owns.rest name value later).trans same

section Present

variable {decode : Json → Decoded α} {set : α → σ → σ}
  (own : fields.find? (·.name == name) = some (field name decode set))
  (distinct : members.names.Nodup)
include own distinct

/-- The member of its name is decoded, and the result is shown. -/
theorem Owns.of_present {view : σ → β} {put : α → β} {value : Json}
    (owns : Owns fields other name view) (shown : ∀ x record, view (set x record) = put x)
    (taken : takeMembers fields other record members = .ok built)
    (present : members.find? name = some value) :
    ∃ x, decode value = .ok x ∧ view built = put x := by
  induction members generalizing record with
  | nil => cases present
  | cons member members ih =>
      obtain ⟨first, v⟩ := member
      obtain ⟨absent, later⟩ := List.nodup_cons.mp distinct
      by_cases same : first = name
      · subst same
        obtain rfl : v = value :=
          Option.some.inj ((Members.find?_of_mem distinct List.mem_cons_self).symm.trans present)
        rcases takeMembers_cons_eq_ok taken with ⟨found, -⟩ | ⟨_, change, found, read, taken⟩
        · rw [own] at found
          cases found
        · rw [own] at found
          cases found
          obtain ⟨x, decoded, rfl⟩ := read_field_eq_ok read
          exact ⟨x, decoded, (owns.of_absent taken absent).trans (shown x record)⟩
      · rw [Members.find?, List.find?_cons_of_neg (by simpa using same)] at present
        rcases takeMembers_cons_eq_ok taken with ⟨-, taken⟩ | ⟨_, _, -, -, taken⟩
        · exact ih later taken present
        · exact ih later taken present

/-- What is shown was decoded, if there was nothing to show before. -/
theorem Owns.exists_of_some {view : σ → Option β} {put : α → Option β} {y : β}
    (owns : Owns fields other name view) (shown : ∀ x record, view (set x record) = put x)
    (empty : view record = none) (taken : takeMembers fields other record members = .ok built)
    (there : view built = some y) :
    ∃ value x, members.find? name = some value ∧ decode value = .ok x ∧ put x = some y := by
  cases found : members.find? name with
  | none =>
      rw [owns.of_absent taken (Members.find?_eq_none_iff.mp found), empty] at there
      cases there
  | some value =>
      obtain ⟨x, decoded, same⟩ := owns.of_present own distinct shown taken found
      exact ⟨value, x, rfl, decoded, same.symm.trans there⟩

end Present

/-- A record in the form of an object is finished from what its members give. -/
theorem taken_of_record {name : String} {start : σ} {finish : σ → Except String α} {x : α}
    (decoded : Json.Decode.record name fields start finish (.object members) = .ok x) :
    ∃ built, takeMembers fields (fun _ _ record => record) start members = .ok built ∧
      finish built = .ok x := by
  simp only [Json.Decode.record] at decoded
  split at decoded
  · cases decoded
  · rename_i built taken
    split at decoded
    · rename_i finished
      cases decoded
      exact ⟨built, taken, finished⟩
    · cases decoded

end Decoding

open Decoding

/-! ### Stated profiles -/

/-- Members state a profile: one has its name, and its value is not `null`. -/
def Members.States (members : Members) (name : String) : Prop :=
  ∃ value, members.find? name = some value ∧ value ≠ .null

theorem Json.loaded_eq_null_iff {value : Json} : value.loaded = .null ↔ value = .null := by
  cases value with
  | null => exact iff_of_true rfl rfl
  | number n =>
      cases n with
      | integer n fits => simp [loaded_integer]
      | float x =>
          obtain ⟨y, same⟩ := exists_loaded_float x
          simp [same]
  | array items => simp [loaded_array]
  | object members => simp [loaded_object]
  | bool | string =>
      constructor
      all_goals
        intro null
        cases null

/-- Loading does not change which profiles are stated. -/
theorem Members.states_loaded_iff {members : Members} {name : String}
    (distinct : members.names.Nodup) (other : name ≠ "subnet") :
    members.loaded.States name ↔ members.States name := by
  simp only [States, find?_loaded distinct other, Option.map_eq_some_iff]
  constructor
  · rintro ⟨_, ⟨value, found, rfl⟩, notNull⟩
    exact ⟨value, found, fun null => notNull (Json.loaded_eq_null_iff.mpr null)⟩
  · rintro ⟨value, found, notNull⟩
    exact ⟨_, ⟨value, found, rfl⟩, fun null => notNull (Json.loaded_eq_null_iff.mp null)⟩

theorem Json.isSome_of_optional {α : Type} {decode : Json → Decoded α} {value : Json}
    {x : Option α} (decoded : Json.Decode.optional decode value = .ok x) :
    x.isSome ↔ value ≠ .null := by
  unfold Json.Decode.optional at decoded
  split at decoded
  · cases decoded
    simp
  · rename_i notNull
    cases read : decode value with
    | error misfit =>
        rw [read] at decoded
        cases decoded
    | ok y =>
        rw [read] at decoded
        cases decoded
        exact iff_of_true rfl notNull

/-- A profile that may be absent is there exactly if it is stated. -/
theorem Decoding.Owns.isSome_iff_states {α σ : Type} {fields : List (Field Json σ)}
    {other : String → Json → σ → σ} {record built : σ} {members : Members} {name : String}
    {view : σ → Option α} {decode : Json → Decoded α} {set : Option α → σ → σ}
    (own : fields.find? (·.name == name) = some (field name (Json.Decode.optional decode) set))
    (distinct : members.names.Nodup) (owns : Owns fields other name view)
    (shown : ∀ x record, view (set x record) = x) (empty : view record = none)
    (taken : takeMembers fields other record members = .ok built) :
    (view built).isSome ↔ members.States name := by
  cases found : members.find? name with
  | none =>
      rw [owns.of_absent taken (Members.find?_eq_none_iff.mp found), empty]
      simp [Members.States, found]
  | some value =>
      obtain ⟨x, decoded, same⟩ := owns.of_present own distinct shown taken found
      rw [same, Json.isSome_of_optional decoded]
      simp [Members.States, found]

/-! ### Properties -/

/-- Only its own field states a control plane. -/
theorem Profiles.planes_of_read : ∀ field ∈ Profiles.fields, ∀ value change,
    field.read value = .ok change → ∀ profiles,
      (field.name ≠ "masterProfile" → (change profiles).managed = profiles.managed) ∧
        (field.name ≠ "hostedMasterProfile" → (change profiles).hosted = profiles.hosted) := by
  simp only [Profiles.fields, List.forall_mem_cons]
  refine ⟨?_, ?_, ?_, ?_, ?_, ?_, ?_, List.forall_mem_nil _⟩
  all_goals
    intro value change read profiles
    obtain ⟨x, -, rfl⟩ := read_field_eq_ok read
    constructor
    all_goals
      intro differs
      first
        | rfl
        | exact absurd rfl differs

theorem Profiles.owns_managed :
    Owns Profiles.fields Profiles.keep "masterProfile" Profiles.managed where
  apart field listed differs value change read profiles :=
    (Profiles.planes_of_read field listed value change read profiles).1 differs
  rest _ _ _ := rfl

theorem Profiles.owns_hosted :
    Owns Profiles.fields Profiles.keep "hostedMasterProfile" Profiles.hosted where
  apart field listed differs value change read profiles :=
    (Profiles.planes_of_read field listed value change read profiles).2 differs
  rest _ _ _ := rfl

theorem Profiles.controlPlane_eq_ok {profiles : Profiles} {plane : ControlPlane}
    (settled : profiles.controlPlane = .ok plane) :
    profiles.managed = plane.managed? ∧ profiles.hosted = plane.hosted? := by
  unfold Profiles.controlPlane at settled
  split at settled
  · rename_i managed hosted
    cases settled
    exact ⟨managed, hosted⟩
  · rename_i managed hosted
    cases settled
    exact ⟨managed, hosted⟩
  · cases settled
  · cases settled

/-- The control plane is of the one kind that the properties state. -/
theorem Profiles.states_of_decode {properties : Members} {plane : ControlPlane}
    {profiles : Profiles} (distinct : properties.names.Nodup)
    (decoded : Profiles.decode (.object properties) = .ok (plane, profiles)) :
    (plane.isHosted = true ↔ properties.States "hostedMasterProfile") ∧
      (plane.isHosted = false ↔ properties.States "masterProfile") := by
  obtain ⟨taken, settled⟩ := Profiles.taken_of_decode decoded
  obtain ⟨managed, hosted⟩ := Profiles.controlPlane_eq_ok settled
  have managedStated :=
    Owns.isSome_iff_states rfl distinct Profiles.owns_managed (fun _ _ => rfl) rfl taken
  have hostedStated :=
    Owns.isSome_iff_states rfl distinct Profiles.owns_hosted (fun _ _ => rfl) rfl taken
  rw [← managedStated, ← hostedStated, managed, hosted]
  cases plane <;> simp [ControlPlane.isHosted, ControlPlane.managed?, ControlPlane.hosted?]

/-! ### Definitions -/

theorem ApiVersion.tag_of_decode {tag : String} {version : ApiVersion}
    (decoded : ApiVersion.decode (.string tag) = .ok version) : version.tag = tag := by
  simp only [ApiVersion.decode, ApiVersion.decode.ofTag] at decoded
  split at decoded
  · rename_i found
    cases decoded
    exact ApiVersion.ofTag?_eq_some_iff.mp found
  · cases decoded

/-- Each of the two members of a definition has a field of its own. -/
theorem Definition.members_of_read : ∀ field ∈ Definition.fields, ∀ value change,
    field.read value = .ok change → ∀ state,
      (field.name ≠ "apiVersion" → (change state).1 = state.1) ∧
        (field.name ≠ "properties" → (change state).2 = state.2) := by
  simp only [Definition.fields, List.forall_mem_cons]
  refine ⟨?_, ?_, List.forall_mem_nil _⟩
  all_goals
    intro value change read state
    obtain ⟨x, -, rfl⟩ := read_field_eq_ok read
    constructor
    all_goals
      intro differs
      first
        | rfl
        | exact absurd rfl differs

theorem Definition.owns_version :
    Owns Definition.fields (fun _ _ state => state) "apiVersion" Prod.fst where
  apart field listed differs value change read state :=
    (Definition.members_of_read field listed value change read state).1 differs
  rest _ _ _ := rfl

theorem Definition.owns_properties :
    Owns Definition.fields (fun _ _ state => state) "properties" Prod.snd where
  apart field listed differs value change read state :=
    (Definition.members_of_read field listed value change read state).2 differs
  rest _ _ _ := rfl

/-- The dialect and the control plane of a definition are decoded from the members of their
names. -/
theorem Definition.members_of_decode {members : Members} {definition : Definition}
    (distinct : members.names.Nodup)
    (decoded : Definition.decode (.object members) = .ok definition) :
    ∃ tag part profiles, members.find? "apiVersion" = some tag ∧
      ApiVersion.decode tag = .ok definition.version ∧ members.find? "properties" = some part ∧
        Profiles.decode part = .ok (definition.controlPlane, profiles) := by
  have version :
      Definition.fields.find? (·.name == "apiVersion") =
        some (field "apiVersion" ApiVersion.decode fun version state => (some version, state.2)) :=
    rfl
  have properties :
      Definition.fields.find? (·.name == "properties") =
        some (field "properties" Profiles.decode fun properties state =>
          (state.1, some properties)) :=
    rfl
  obtain ⟨built, taken, finished⟩ := taken_of_record decoded
  split at finished
  · cases finished
    obtain ⟨tag, _, tagged, version, put⟩ :=
      Owns.exists_of_some version distinct Definition.owns_version (fun _ _ => rfl) rfl taken rfl
    cases put
    obtain ⟨part, _, there, stated, put⟩ :=
      Owns.exists_of_some properties distinct Definition.owns_properties (fun _ _ => rfl) rfl taken
        rfl
    cases put
    exact ⟨tag, part, _, tagged, version, there, stated⟩
  · cases finished
  · cases finished

section Parsed

variable {text : String} {members properties : Members} {definition : Definition}
  (read : Json.parse text = .ok (.object members)) (plain : (Json.object members).plainNames)
  (accepted : Definition.parse text = .ok definition)
include read plain accepted

/-- A definition that was read was decoded from what is loaded. -/
theorem Definition.decode_of_parse :
    Definition.decode (.object members.loaded) = .ok definition := by
  have unsevered := Json.unsevered_of_plainNames
    (Json.all_subnetFirst Json.nameTest_hasPlainNames plain)
  rw [Definition.parse_eq_ofValue_loaded read unsevered, Json.loaded_object] at accepted
  exact (Definition.ofValue_eq_ok_iff.mp accepted).1

/-- The object names the dialect; if it does so by a tag, it is the tag of the dialect. -/
theorem Definition.tag_of_parse : ∃ value, members.find? "apiVersion" = some value ∧
    ∀ tag, value = .string tag → definition.version.tag = tag := by
  have decoded := Definition.decode_of_parse read plain accepted
  obtain ⟨names, -⟩ := Json.distinctNames_object_iff.mp (Json.wellRead_of_parse read).distinct
  obtain ⟨loaded, -, -, tagged, version, -⟩ :=
    Definition.members_of_decode (Members.nodup_names_loaded names) decoded
  rw [Members.find?_loaded names (by decide), Option.map_eq_some_iff] at tagged
  obtain ⟨value, there, rfl⟩ := tagged
  refine ⟨value, there, ?_⟩
  rintro tag rfl
  exact ApiVersion.tag_of_decode version

/-- The control plane is of the one kind that the properties of the object state. -/
theorem Definition.states_of_parse
    (there : members.find? "properties" = some (.object properties)) :
    (definition.controlPlane.isHosted = true ↔ properties.States "hostedMasterProfile") ∧
      (definition.controlPlane.isHosted = false ↔ properties.States "masterProfile") := by
  have decoded := Definition.decode_of_parse read plain accepted
  obtain ⟨names, inner⟩ :=
    Json.distinctNames_object_iff.mp (Json.wellRead_of_parse read).distinct
  obtain ⟨distinct, -⟩ :=
    Json.distinctNames_object_iff.mp (inner _ (Members.mem_of_find? there))
  obtain ⟨-, part, profiles, -, -, found, stated⟩ :=
    Definition.members_of_decode (Members.nodup_names_loaded names) decoded
  rw [Members.find?_loaded names (by decide), there, Option.map_some, Json.loaded_object,
    Option.some.injEq] at found
  subst found
  rw [← Members.states_loaded_iff distinct (by decide),
    ← Members.states_loaded_iff distinct (by decide)]
  exact Profiles.states_of_decode (Members.nodup_names_loaded distinct) stated

end Parsed

/-! ### What is refused -/

/-- An object and its properties misstate the dialect or the control plane. -/
inductive Misstated (members properties : Members) : Prop
  | noDialect (absent : members.find? "apiVersion" = none)
  | unknownDialect (tag : String) (named : members.find? "apiVersion" = some (.string tag))
      (unknown : tag ∉ ["v1", "2016-09-30", "2017-07-01", "vlabs"])
  | bothPlanes (managed : properties.States "masterProfile")
      (hosted : properties.States "hostedMasterProfile")
  | noPlane (managed : ¬ properties.States "masterProfile")
      (hosted : ¬ properties.States "hostedMasterProfile")
  | hostedTooEarly (tag : String) (named : members.find? "apiVersion" = some (.string tag))
      (early : tag ∈ ["v1", "2016-09-30"]) (hosted : properties.States "hostedMasterProfile")

/-- Reading a document gives a definition or an error of the schema, and no other error. -/
theorem Definition.parse_ok_or_schema (text : String) :
    (∃ definition, Definition.parse text = .ok definition) ∨
      ∃ field message, Definition.parse text = .error (.schema field message) := by
  unfold Definition.parse
  split
  · exact .inr ⟨_, _, rfl⟩
  · unfold Definition.ofCanonicalText
    split
    · exact .inr ⟨_, _, rfl⟩
    · split
      · exact .inr ⟨_, _, rfl⟩
      · unfold Definition.checkVersion
        split
        · exact .inr ⟨_, _, rfl⟩
        · exact .inl ⟨_, rfl⟩

/-- From any text, a hosted control plane is only read under a dialect that knows it. -/
theorem Definition.supportsHosted_of_parse {text : String} {definition : Definition}
    (accepted : Definition.parse text = .ok definition)
    (hosted : definition.controlPlane.isHosted) : definition.version.supportsHosted := by
  unfold Definition.parse at accepted
  split at accepted
  · cases accepted
  · unfold Definition.ofCanonicalText at accepted
    split at accepted
    · cases accepted
    · split at accepted
      · cases accepted
      · obtain ⟨rfl, known⟩ := Definition.checkVersion_eq_ok_iff.mp accepted
        exact known hosted

/-- An object that misstates its dialect or its control plane is refused. -/
theorem Definition.error_of_misstated {text : String} {members properties : Members}
    (read : Json.parse text = .ok (.object members)) (plain : (Json.object members).plainNames)
    (there : members.find? "properties" = some (.object properties))
    (misstated : Misstated members properties) :
    ∃ field message, Definition.parse text = .error (.schema field message) := by
  rcases Definition.parse_ok_or_schema text with ⟨definition, accepted⟩ | refused
  · exfalso
    obtain ⟨value, tagged, version⟩ := Definition.tag_of_parse read plain accepted
    obtain ⟨hosted, managed⟩ := Definition.states_of_parse read plain accepted there
    cases misstated with
    | noDialect absent =>
        rw [absent] at tagged
        cases tagged
    | unknownDialect tag named unknown =>
        cases tagged.symm.trans named
        rw [← version tag rfl] at unknown
        cases same : definition.version <;> simp [same, ApiVersion.tag] at unknown
    | bothPlanes hasManaged hasHosted =>
        have both := (managed.mpr hasManaged).symm.trans (hosted.mpr hasHosted)
        cases both
    | noPlane noManaged noHosted =>
        cases kind : definition.controlPlane.isHosted with
        | false => exact noManaged (managed.mp kind)
        | true => exact noHosted (hosted.mp kind)
    | hostedTooEarly tag named early hasHosted =>
        cases tagged.symm.trans named
        have supports := Definition.supportsHosted_of_parse accepted (hosted.mpr hasHosted)
        rw [← version tag rfl] at early
        cases same : definition.version <;>
          simp [same, ApiVersion.tag, ApiVersion.supportsHosted] at early supports
  · exact refused

end Provision
