import Provision.Proofs.EmptySubnet.Order

/-!
The names of members in the value of a canonical text.

Bringing a document into canonical text should lose nothing but empty subnets.
`Json.KeepsNames` says so, object by object: no name is new, every member that is not an
empty subnet has its name kept, and the same holds of the values behind one name, or at one
place of an array.

* `keepsNames_of_parse` — this is so for every document none of whose members is severed
  (`Json.unsevered`), whatever other characters its names have, and whatever its numbers are.
* `not_keepsNames_severed` — it is not so for a severed member: the quote in its name opens
  the literal, and the text behind the literal, which starts the next member, is taken for
  the rest of the name.
-/

namespace Provision

namespace Json

/-! ### Keeping names -/

/-- Every object of a value has only names of the corresponding object of a document, and
all of them, but for empty subnets. A float stays a float. -/
inductive KeepsNames : Json → Json → Prop where
  | null : KeepsNames .null .null
  | bool (value : Bool) : KeepsNames (.bool value) (.bool value)
  | integer (value : Int) (fits : FitsWord value) :
      KeepsNames (.number (.integer value fits)) (.number (.integer value fits))
  | float (x y : Decimal.Binary64) : KeepsNames (.number (.float x)) (.number (.float y))
  | string (text : String) : KeepsNames (.string text) (.string text)
  | array {items items' : List Json} (length : items'.length = items.length)
      (each : ∀ (i : Nat) v w, items[i]? = some v → items'[i]? = some w → KeepsNames v w) :
      KeepsNames (.array items) (.array items')
  | object {members members' : Members} (known : members'.names ⊆ members.names)
      (kept : ∀ member ∈ members, isEmptySubnet member = false → member.1 ∈ members'.names)
      (each : ∀ name v w, (name, v) ∈ members → (name, w) ∈ members' → KeepsNames v w) :
      KeepsNames (.object members) (.object members')

theorem KeepsNames.known {members members' : Members}
    (keeps : KeepsNames (.object members) (.object members')) :
    members'.names ⊆ members.names := by
  cases keeps with
  | object known => exact known

theorem KeepsNames.value {members members' : Members} {name : String} {v w : Json}
    (keeps : KeepsNames (.object members) (.object members')) (first : (name, v) ∈ members)
    (second : (name, w) ∈ members') : KeepsNames v w := by
  cases keeps with
  | object _ _ each => exact each name v w first second

theorem keepsNames_loaded {document : Json} (distinct : document.distinctNames) :
    document.KeepsNames document.loaded := by
  induction document using byParts with
  | null => exact .null
  | bool value => exact .bool value
  | number n =>
      cases n with
      | integer value fits =>
          rw [loaded_integer]
          exact .integer value fits
      | float x =>
          obtain ⟨y, same⟩ := exists_loaded_float x
          rw [same]
          exact .float x y
  | string text => exact .string text
  | array items ih =>
      have distinct := (all_array_iff.mp distinct).2
      rw [loaded_array]
      refine .array (List.length_map _) ?_
      intro i v w first second
      rw [List.getElem?_map, first] at second
      obtain rfl := Option.some.inj second
      have mem := List.mem_of_getElem? first
      exact ih v mem (distinct v mem)
  | object members ih =>
      obtain ⟨names, distinct⟩ := distinctNames_object_iff.mp distinct
      rw [loaded_object]
      refine .object (Members.names_loaded_subset members) ?_ ?_
      · intro member mem other
        exact List.mem_map.mpr ⟨_, Members.mem_loaded mem other, rfl⟩
      · intro name v w mem mem'
        obtain ⟨v', listed, rfl⟩ := Members.mem_of_mem_loaded mem'
        obtain rfl := Members.eq_of_mem names mem listed
        exact ih _ mem (distinct _ mem)

/-- **Canonical text keeps the names of a document.** Every document that can be read and has
no severed member has a canonical text that can be read, and in its value every object has
only names of the corresponding object of the document, and all of them but for empty
subnets. The names may contain any characters. -/
theorem keepsNames_of_parse {text : String} {document : Json}
    (read : Json.parse text = .ok document) (whole : document.subnetFirst.unsevered) :
    ∃ value, Json.parse document.canonicalText = .ok value ∧ document.KeepsNames value := by
  have wellRead := wellRead_of_parse read
  exact ⟨_, parse_canonicalText wellRead whole, keepsNames_loaded wellRead.distinct⟩

/-- A name with a quote that is not severed, one that ends in `subnet` without a quote before
it, and a severed one that ends its object, whose subnet is put first. -/
theorem keepsNames_quoted :
    let document := object
      [ ("x\"y", .string ""),
        ("xsubnet", .string ""),
        ("pools", .array [.object [("x\"subnet", .string ""), ("subnet", .string "")]]),
        ("x\"subnet", .string "") ]
    Json.parse document.pretty = .ok document ∧ document.subnetFirst.unsevered ∧
      ∃ value, Json.parse document.canonicalText = .ok value ∧ document.KeepsNames value := by
  intro document
  have read : Json.parse document.pretty = .ok document :=
    Json.parse_pretty (by decide) (by decide) (by decide)
  have whole : document.subnetFirst.unsevered := of_decide_eq_true rfl
  exact ⟨read, whole, keepsNames_of_parse read whole⟩

/-- **A severed member takes the next one with it**: both are lost, and a name that the
document does not have takes their place. -/
theorem not_keepsNames_severed :
    let document := object
      [ ("apiVersion", .string "vlabs"),
        ("properties", .object
          [ ("masterProfile", .object []),
            ("x\"subnet", .string ""),
            ("note", .number (.integer 1 (by decide))) ]) ]
    let value := object
      [ ("apiVersion", .string "vlabs"),
        ("properties", .object
          [ ("masterProfile", .object []),
            ("x\"note", .number (.integer 1 (by decide))) ]) ]
    Json.parse document.compact = .ok document ∧
      Json.parse document.canonicalText = .ok value ∧ ¬ document.KeepsNames value := by
  intro document value
  refine ⟨Json.parse_compact (by decide) (by decide) (by decide), ?_, ?_⟩
  · have text : document.canonicalText = value.compact := by decide
    rw [text]
    exact Json.parse_compact (by decide) (by decide) (by decide)
  · intro keeps
    have properties := keeps.value (List.mem_cons_of_mem _ List.mem_cons_self)
      (List.mem_cons_of_mem _ List.mem_cons_self)
    exact absurd (properties.known (List.mem_cons_of_mem _ List.mem_cons_self)) (by decide)

end Json

end Provision
