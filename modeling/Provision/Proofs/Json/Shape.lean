import Mathlib.Data.List.Nodup
import Provision.Json.Basic

/-!
The shape of JSON values.

`Json.all` tests every part of a value, the value itself included; the conditions under
which a text can be read back are such tests: all numbers are integers
(`Json.wholeNumbers`, or `Json.integral` if zeros may have a sign), no name contains a double
quote (`Json.plainNames`), and no object has two members of one name (`Json.distinctNames`,
which every value that was read has).
`Json.nesting` is how many arrays and objects are open at once.
-/

namespace Provision.Json

/-- Induction with the parts of an array or an object taken as a whole. -/
@[elab_as_elim]
theorem byParts {motive : Json → Prop} (null : motive .null)
    (bool : ∀ value, motive (.bool value)) (number : ∀ value, motive (.number value))
    (string : ∀ value, motive (.string value))
    (array : ∀ items : List Json, (∀ item ∈ items, motive item) → motive (.array items))
    (object : ∀ members : Members, (∀ member ∈ members, motive member.2) →
      motive (.object members)) (value : Json) : motive value :=
  @Json.rec motive (fun items => ∀ item ∈ items, motive item)
    (fun members => ∀ member ∈ members, motive member.2) (fun member => motive member.2)
    null bool number string array object (by simp)
    (fun _ _ head tail => List.forall_mem_cons.mpr ⟨head, tail⟩) (by simp)
    (fun _ _ head tail => List.forall_mem_cons.mpr ⟨head, tail⟩) (fun _ _ value => value) value

/-! ### Tests of every part -/

mutual

/-- Whether a test holds of a value and of every value inside it. -/
def all (test : Json → Bool) : Json → Bool
  | .array items => test (.array items) && allItems test items
  | .object members => test (.object members) && allMembers test members
  | other => test other

def allItems (test : Json → Bool) : List Json → Bool
  | [] => true
  | item :: items => all test item && allItems test items

def allMembers (test : Json → Bool) : List (String × Json) → Bool
  | [] => true
  | (_, value) :: members => all test value && allMembers test members

end

variable {test : Json → Bool}

theorem allItems_iff {items : List Json} :
    allItems test items = true ↔ ∀ item ∈ items, item.all test := by
  induction items with
  | nil => simp [allItems]
  | cons item items ih => simp [allItems, ih]

theorem allMembers_iff {members : Members} :
    allMembers test members = true ↔ ∀ member ∈ members, member.2.all test := by
  induction members with
  | nil => simp [allMembers]
  | cons member members ih => simp [allMembers, ih]

theorem all_array_iff {items : List Json} :
    (array items).all test = true ↔ test (.array items) ∧ ∀ item ∈ items, item.all test := by
  simp [all, allItems_iff]

theorem all_object_iff {members : Members} :
    (object members).all test = true ↔
      test (.object members) ∧ ∀ member ∈ members, member.2.all test := by
  simp [all, allMembers_iff]

/-- A test that is passed by all parts implies a weaker one. -/
theorem all_mono {weaker : Json → Bool} (here : ∀ value, test value → weaker value)
    {value : Json} (h : value.all test) : value.all weaker := by
  induction value using byParts with
  | array items ih =>
      obtain ⟨first, parts⟩ := all_array_iff.mp h
      refine all_array_iff.mpr ⟨here _ first, ?_⟩
      intro item mem
      exact ih item mem (parts item mem)
  | object members ih =>
      obtain ⟨first, parts⟩ := all_object_iff.mp h
      refine all_object_iff.mpr ⟨here _ first, ?_⟩
      intro member mem
      exact ih member mem (parts member mem)
  | _ => exact here _ h

theorem all_of_forall (each : ∀ value, test value) (value : Json) : value.all test := by
  induction value using byParts with
  | array items ih => exact all_array_iff.mpr ⟨each _, ih⟩
  | object members ih => exact all_object_iff.mpr ⟨each _, ih⟩
  | _ => exact each _

def notFloat : Json → Bool
  | .number (.float _) => false
  | _ => true

/-- Whether all numbers in a value are integers. -/
def wholeNumbers (value : Json) : Bool := value.all notFloat

/-- Whether a value is no float but a zero, which is what `-0` is read as. -/
def notFraction : Json → Bool
  | .number (.float value) => value.magnitude == 0
  | _ => true

/-- Whether all numbers in a value are integers or zeros with a sign: those that are written
without a point or an exponent and fit a word. -/
def integral (value : Json) : Bool := value.all notFraction

def hasPlainNames : Json → Bool
  | .object members => members.all fun member => !member.1.toList.contains '"'
  | _ => true

/-- Whether no name in a value contains a double quote. -/
def plainNames (value : Json) : Bool := value.all hasPlainNames

def hasDistinctNames : Json → Bool
  | .object members => decide (Members.names members).Nodup
  | _ => true

/-- Whether no object in a value has two members of one name. -/
def distinctNames (value : Json) : Bool := value.all hasDistinctNames

theorem plainNames_object_iff {members : Members} :
    (object members).plainNames ↔
      ∀ member ∈ members, '"' ∉ member.1.toList ∧ member.2.plainNames := by
  simp [plainNames, all_object_iff, hasPlainNames, forall_and]

theorem distinctNames_object_iff {members : Members} :
    (object members).distinctNames ↔
      members.names.Nodup ∧ ∀ member ∈ members, member.2.distinctNames := by
  simp [distinctNames, all_object_iff, hasDistinctNames]

theorem wholeNumbers_object_iff {members : Members} :
    (object members).wholeNumbers ↔ ∀ member ∈ members, member.2.wholeNumbers := by
  simp [wholeNumbers, all_object_iff, notFloat]

theorem integral_object_iff {members : Members} :
    (object members).integral ↔ ∀ member ∈ members, member.2.integral := by
  simp [integral, all_object_iff, notFraction]

theorem integral_of_wholeNumbers {value : Json} (whole : value.wholeNumbers) :
    value.integral := by
  refine all_mono ?_ whole
  intro part
  unfold notFloat notFraction
  split <;> simp

/-! ### Nesting -/

mutual

/-- How many arrays and objects of a value are open at once. -/
def nesting : Json → Nat
  | .array items => nestingItems items + 1
  | .object members => nestingMembers members + 1
  | _ => 0

def nestingItems : List Json → Nat
  | [] => 0
  | item :: items => max (nesting item) (nestingItems items)

def nestingMembers : List (String × Json) → Nat
  | [] => 0
  | (_, value) :: members => max (nesting value) (nestingMembers members)

end

theorem nestingItems_le_iff {items : List Json} {levels : Nat} :
    nestingItems items ≤ levels ↔ ∀ item ∈ items, item.nesting ≤ levels := by
  induction items with
  | nil => simp [nestingItems]
  | cons item items ih => rw [nestingItems, Nat.max_le, ih, List.forall_mem_cons]

theorem nestingMembers_le_iff {members : Members} {levels : Nat} :
    nestingMembers members ≤ levels ↔ ∀ member ∈ members, member.2.nesting ≤ levels := by
  induction members with
  | nil => simp [nestingMembers]
  | cons member members ih => rw [nestingMembers, Nat.max_le, ih, List.forall_mem_cons]

/-- An array takes up a level of its own, and its items have the others. -/
theorem nesting_array_le_iff {items : List Json} {levels : Nat} :
    (array items).nesting ≤ levels ↔
      ∃ fewer, levels = fewer + 1 ∧ ∀ item ∈ items, item.nesting ≤ fewer := by
  simp only [nesting, ← nestingItems_le_iff]
  exact ⟨fun bound => ⟨levels - 1, by omega, by omega⟩, fun ⟨fewer, _, _⟩ => by omega⟩

theorem nesting_object_le_iff {members : Members} {levels : Nat} :
    (object members).nesting ≤ levels ↔
      ∃ fewer, levels = fewer + 1 ∧ ∀ member ∈ members, member.2.nesting ≤ fewer := by
  simp only [nesting, ← nestingMembers_le_iff]
  exact ⟨fun bound => ⟨levels - 1, by omega, by omega⟩, fun ⟨fewer, _, _⟩ => by omega⟩

end Provision.Json

namespace Provision.Members

/-! ### Functions on the values of members -/

def mapValues (f : Json → Json) (members : Members) : Members :=
  members.map fun member => (member.1, f member.2)

@[simp] theorem names_mapValues (f : Json → Json) (members : Members) :
    (mapValues f members).names = members.names := by
  simp [names, mapValues]

theorem mapValues_append (f : Json → Json) (members others : Members) :
    mapValues f (members ++ others) = mapValues f members ++ mapValues f others :=
  List.map_append

theorem mapValues_eq_self {f : Json → Json} {members : Members}
    (same : ∀ member ∈ members, f member.2 = member.2) : mapValues f members = members := by
  have each : ∀ member ∈ members, (member.1, f member.2) = member := by
    intro member mem
    rw [same member mem]
  rw [mapValues, List.map_congr_left each, List.map_id']

/-! ### Members by their names -/

/-- Of members with different names, only one has a given name. -/
theorem eq_of_mem {members : Members} (distinct : members.names.Nodup) {name : String}
    {v w : Json} (first : (name, v) ∈ members) (second : (name, w) ∈ members) : v = w :=
  congrArg Prod.snd (List.inj_on_of_nodup_map distinct first second rfl)

theorem mem_of_find? {members : Members} {name : String} {v : Json}
    (found : members.find? name = some v) : (name, v) ∈ members := by
  obtain ⟨⟨other, w⟩, same, rfl⟩ := Option.map_eq_some_iff.mp found
  obtain rfl : other = name := by simpa using List.find?_some same
  exact List.mem_of_find?_eq_some same

theorem find?_of_mem {members : Members} {name : String} {v : Json}
    (distinct : members.names.Nodup) (mem : (name, v) ∈ members) :
    members.find? name = some v := by
  cases found : members.find? name with
  | none =>
      have absent := List.find?_eq_none.mp (Option.map_eq_none_iff.mp found) _ mem
      simp at absent
  | some w => rw [eq_of_mem distinct (mem_of_find? found) mem]

/-! ### Members built from pairs -/

theorem names_append (members others : Members) :
    names (members ++ others) = names members ++ names others :=
  List.map_append

theorem mem_insert {members : Members} {name : String} {value : Json} {member : String × Json}
    (h : member ∈ members.insert name value) : member = (name, value) ∨ member ∈ members := by
  induction members with
  | nil => simpa using h
  | cons other rest ih =>
      unfold insert at h
      split at h
      · rcases List.mem_cons.mp h with same | later
        · exact .inl same
        · exact .inr (List.mem_cons_of_mem _ later)
      · rcases List.mem_cons.mp h with same | later
        · exact .inr (same ▸ List.mem_cons_self)
        · exact (ih later).imp_right (List.mem_cons_of_mem _)

/-- Inserting a member keeps the names different. -/
theorem nodup_names_insert {members : Members} (distinct : members.names.Nodup) (name : String)
    (value : Json) : (members.insert name value).names.Nodup := by
  by_cases present : name ∈ members.names
  · rw [names_insert_of_mem value present]
    exact distinct
  · have apart : name ∉ List.map Prod.fst members := present
    rw [insert_of_not_mem value present]
    simp only [names, List.map_append, List.map_cons, List.map_nil]
    refine List.nodup_append.mpr ⟨distinct, List.pairwise_singleton _ _, ?_⟩
    rintro other mem last same rfl
    rw [List.mem_singleton.mp same] at mem
    exact apart mem

/-- What a fold of insertions keeps: the names are different, and every member is one of
the pairs or was there before. -/
theorem foldl_insert {pairs : List (String × Json)} (start : Members)
    (distinct : start.names.Nodup) :
    (pairs.foldl (fun members pair => insert members pair.1 pair.2) start).names.Nodup ∧
      ∀ member ∈ pairs.foldl (fun members pair => insert members pair.1 pair.2) start,
        member ∈ pairs ∨ member ∈ start := by
  induction pairs generalizing start with
  | nil => exact ⟨distinct, fun _ mem => .inr mem⟩
  | cons pair pairs ih =>
      obtain ⟨nodup, source⟩ := ih _ (nodup_names_insert distinct pair.1 pair.2)
      refine ⟨nodup, ?_⟩
      intro member mem
      rcases source member mem with later | earlier
      · exact .inl (List.mem_cons_of_mem _ later)
      · rcases mem_insert earlier with rfl | old
        · exact .inl List.mem_cons_self
        · exact .inr old

theorem nodup_names_ofPairs (pairs : List (String × Json)) : (ofPairs pairs).names.Nodup :=
  (foldl_insert [] List.nodup_nil).1

theorem mem_of_mem_ofPairs {pairs : List (String × Json)} {member : String × Json}
    (h : member ∈ ofPairs pairs) : member ∈ pairs := by
  simpa using (foldl_insert [] List.nodup_nil).2 member h

/-- New names are appended in their order. -/
theorem foldl_insert_of_nodup {pairs : List (String × Json)} (start : Members)
    (distinct : names (start ++ pairs) |>.Nodup) :
    pairs.foldl (fun members pair => insert members pair.1 pair.2) start = start ++ pairs := by
  induction pairs generalizing start with
  | nil => simp
  | cons pair pairs ih =>
      obtain ⟨name, value⟩ := pair
      have absent : name ∉ names start := by
        intro mem
        simp only [names, List.map_append, List.map_cons] at distinct
        obtain ⟨-, -, apart⟩ := List.nodup_append.mp distinct
        exact apart _ mem _ List.mem_cons_self rfl
      rw [List.foldl_cons, insert_of_not_mem value absent, ih _ (by simpa using distinct)]
      simp

/-- Pairs with different names are the members as they are. -/
theorem ofPairs_of_nodup {pairs : List (String × Json)} (distinct : (names pairs).Nodup) :
    ofPairs pairs = pairs :=
  foldl_insert_of_nodup [] distinct

end Provision.Members
