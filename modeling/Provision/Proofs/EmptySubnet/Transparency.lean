import Provision.Cluster.Loading
import Provision.Proofs.EmptySubnet.CompactText
import Provision.Proofs.Json.RoundTrip

/-!
An empty subnet is transparent to loading.

`EmptySubnet.Inserted` says that one value is another one with `"subnet": ""` put anywhere
among the members of one of its objects, which has a member but no subnet.

* `Inserted.spliced` — with subnets first, the compact text gains nothing but the literal,
  directly behind the opening brace of that object. The brace does not occur in the literal,
  so no occurrence reaches over it, and the literal behind it is erased as a whole.
* `canonicalText_of_inserted` — the two values have one canonical text.
* `parse_of_inserted` — two documents with these values are loaded alike, into the same
  definition or with the same error. Names, numbers and the layout of the two documents are
  free.
-/

namespace Provision

namespace EmptySubnet

/-- The second value is the first one with an empty subnet inserted into one object, at any
depth and at any place among its members. -/
inductive Inserted : Json → Json → Prop
  | here {before after : Members} (nonempty : before ++ after ≠ [])
      (absent : "subnet" ∉ Members.names (before ++ after)) :
      Inserted (.object (before ++ after)) (.object (before ++ ("subnet", .string "") :: after))
  | item {before after : List Json} {value value' : Json} (inner : Inserted value value') :
      Inserted (.array (before ++ value :: after)) (.array (before ++ value' :: after))
  | member {before after : Members} {name : String} {value value' : Json}
      (inner : Inserted value value') :
      Inserted (.object (before ++ (name, value) :: after))
        (.object (before ++ (name, value') :: after))

/-- The second text is the first one with the literal behind one of its braces. -/
def Spliced (text text' : List Char) : Prop :=
  ∃ front back, text = front ++ '{' :: back ∧ text' = front ++ '{' :: (literal ++ back)

theorem Spliced.within {text text' : List Char} (spliced : Spliced text text')
    (front back : List Char) : Spliced (front ++ (text ++ back)) (front ++ (text' ++ back)) := by
  obtain ⟨inner, rest, rfl, rfl⟩ := spliced
  exact ⟨front ++ inner, rest ++ back, by simp, by simp⟩

/-- The literal does not reach over a brace, so it is erased on its own. -/
theorem Spliced.erase {text text' : List Char} (spliced : Spliced text text') :
    Text.erase literal text' = Text.erase literal text := by
  obtain ⟨front, back, rfl, rfl⟩ := spliced
  have brace : '{' ∉ literal := by decide
  rw [Text.erase_append_cons_of_notMem brace Json.literal_ne_nil,
    Text.erase_append_cons_of_notMem brace Json.literal_ne_nil,
    Text.erase_literal_append Json.literal_ne_nil]

end EmptySubnet

namespace Json

open EmptySubnet (Inserted Spliced)

variable {layout : Layout} {depth : Nat}

/-! ### Text around a part -/

/-- The items behind the first one, around one of them. -/
theorem renderItems_around (before after : List Json) :
    ∃ front back, ∀ value, renderItems layout depth (before ++ value :: after)
      = front ++ (render layout (depth + 1) value ++ back) := by
  induction before with
  | nil => exact ⟨_, _, fun value => List.append_assoc ..⟩
  | cons item before ih =>
      obtain ⟨front, back, same⟩ := ih
      refine ⟨',' :: layout.lineBreak (depth + 1) ++ render layout (depth + 1) item ++ front,
        back, ?_⟩
      intro value
      rw [List.cons_append, renderItems, same, List.append_assoc _ front]

/-- The text of an array around one of its items. -/
theorem render_array_around (before after : List Json) :
    ∃ front back, ∀ value, render layout depth (.array (before ++ value :: after))
      = front ++ (render layout (depth + 1) value ++ back) := by
  cases before with
  | nil => exact ⟨_, _, fun value => List.append_assoc ..⟩
  | cons item before =>
      obtain ⟨front, back, same⟩ := @renderItems_around layout depth before after
      refine ⟨'[' :: layout.lineBreak (depth + 1) ++ render layout (depth + 1) item ++ front,
        back, ?_⟩
      intro value
      rw [List.cons_append, render, same, List.append_assoc _ front]

/-- The members behind the first one, around the value of one of them. -/
theorem renderMembers_around (before after : Members) (name : String) :
    ∃ front back, ∀ value, renderMembers layout depth (before ++ (name, value) :: after)
      = front ++ (render layout (depth + 1) value ++ back) := by
  induction before with
  | nil => exact ⟨_, _, fun value => List.append_assoc ..⟩
  | cons member before ih =>
      obtain ⟨front, back, same⟩ := ih
      refine ⟨',' :: layout.lineBreak (depth + 1) ++ quoted member.1.toList ++ layout.colon
        ++ render layout (depth + 1) member.2 ++ front, back, ?_⟩
      intro value
      rw [List.cons_append, renderMembers, same, List.append_assoc _ front]

/-- The text of an object around the value of one of its members. -/
theorem render_object_around (before after : Members) (name : String) :
    ∃ front back, ∀ value, render layout depth (.object (before ++ (name, value) :: after))
      = front ++ (render layout (depth + 1) value ++ back) := by
  cases before with
  | nil => exact ⟨_, _, fun value => List.append_assoc ..⟩
  | cons member before =>
      obtain ⟨front, back, same⟩ := @renderMembers_around layout depth before after name
      refine ⟨'{' :: layout.lineBreak (depth + 1) ++ quoted member.1.toList ++ layout.colon
        ++ render layout (depth + 1) member.2 ++ front, back, ?_⟩
      intro value
      rw [List.cons_append, render, same, List.append_assoc _ front]

/-- Where a member goes when subnets are put first is a matter of its name. -/
theorem leading_around (before after : Members) (name : String) :
    ∃ front back : Members, ∀ value,
      Members.leading (before ++ (name, value) :: after) = front ++ (name, value) :: back := by
  by_cases subnet : name = "subnet"
  · refine ⟨before.filter isSubnet, after.filter isSubnet ++
      (before.filter (!isSubnet ·) ++ after.filter (!isSubnet ·)), ?_⟩
    intro value
    have yes : isSubnet (name, value) = true := by simp [isSubnet, subnet]
    simp [Members.leading, yes]
  · refine ⟨before.filter isSubnet ++ (after.filter isSubnet ++ before.filter (!isSubnet ·)),
      after.filter (!isSubnet ·), ?_⟩
    intro value
    have no : isSubnet (name, value) = false := by simp [isSubnet, subnet]
    simp [Members.leading, no]

/-! ### Two documents -/

/-- An empty subnet that is put into an object without one leads it, before what the object
had before. -/
theorem leading_insertion {before after : Members}
    (absent : "subnet" ∉ Members.names (before ++ after)) :
    Members.leading (before ++ ("subnet", .string "") :: after)
      = ("subnet", .string "") :: Members.leading (before ++ after) := by
  have others : ∀ member ∈ before ++ after, isSubnet member = false := by
    intro member mem
    have differs : member.1 ≠ "subnet" := by
      intro same
      exact absent (same ▸ List.mem_map_of_mem mem)
    simp [isSubnet, differs]
  have none (members : Members) (part : members ⊆ before ++ after) :
      members.filter isSubnet = [] := by
    refine List.filter_eq_nil_iff.mpr ?_
    intro member mem
    exact Bool.eq_false_iff.mp (others member (part mem))
  have subnet : isSubnet ("subnet", .string "") = true := rfl
  simp [Members.leading, subnet, none before (List.subset_append_left ..),
    none after (List.subset_append_right ..)]

/-- In front of another member, an empty subnet is the literal behind the brace. -/
theorem spliced_insertion {members : Members} (nonempty : members ≠ []) :
    Spliced (render .compact depth (.object members))
      (render .compact depth (.object (("subnet", .string "") :: members))) := by
  refine ⟨[], membersText depth members, render_object members, ?_⟩
  rw [render_object, membersText, renderMembers_of_ne_nil nonempty, literal_append]
  rfl

end Json

/-- With subnets first, the text gains the literal behind the brace of one object. -/
theorem EmptySubnet.Inserted.spliced {value value' : Json} (inserted : Inserted value value')
    {depth : Nat} :
    Spliced (value.subnetFirst.render .compact depth)
      (value'.subnetFirst.render .compact depth) := by
  induction inserted generalizing depth with
  | @here before after nonempty absent =>
      have absent' : "subnet" ∉ Members.names
          (before.mapValues Json.subnetFirst ++ after.mapValues Json.subnetFirst) := by
        simpa [Members.names, Members.mapValues] using absent
      have nonempty' : Members.leading
          (before.mapValues Json.subnetFirst ++ after.mapValues Json.subnetFirst) ≠ [] := by
        intro none
        have length := (Members.leading_perm _).length_eq.symm.trans (congrArg List.length none)
        simp [Members.mapValues] at length
        exact nonempty (by simp [length])
      have plain : (Json.object (before ++ after)).subnetFirst = .object (Members.leading
          (before.mapValues Json.subnetFirst ++ after.mapValues Json.subnetFirst)) := by
        rw [Json.subnetFirst_object, Members.mapValues, List.map_append]
        rfl
      have grown : (Json.object (before ++ ("subnet", .string "") :: after)).subnetFirst
          = .object (("subnet", .string "") :: Members.leading
              (before.mapValues Json.subnetFirst ++ after.mapValues Json.subnetFirst)) := by
        rw [← Json.leading_insertion absent', Json.subnetFirst_object, Members.mapValues,
          List.map_append]
        rfl
      rw [plain, grown]
      exact Json.spliced_insertion nonempty'
  | @item before after value value' _ ih =>
      obtain ⟨front, back, around⟩ := @Json.render_array_around .compact depth
        (before.map Json.subnetFirst) (after.map Json.subnetFirst)
      simp only [Json.subnetFirst_array, List.map_append, List.map_cons, around]
      exact ih.within front back
  | @member before after name value value' _ ih =>
      obtain ⟨before', after', lead⟩ := Json.leading_around
        (Members.mapValues Json.subnetFirst before) (Members.mapValues Json.subnetFirst after) name
      obtain ⟨front, back, around⟩ := @Json.render_object_around .compact depth before' after' name
      simp only [Members.mapValues] at lead
      simp only [Json.subnetFirst_object, Members.mapValues, List.map_append, List.map_cons, lead,
        around]
      exact ih.within front back

/-- An inserted empty subnet does not change the canonical text. -/
theorem Json.canonicalText_of_inserted {document document' : Json}
    (inserted : EmptySubnet.Inserted document document') :
    document'.canonicalText = document.canonicalText := by
  have spliced := @EmptySubnet.Inserted.spliced document document' inserted 0
  unfold Json.canonicalText EmptySubnet.strip Json.compact
  rw [String.toList_ofList, String.toList_ofList, spliced.erase]

/-- **An empty subnet is transparent to loading.** Of two documents the second of which has
an empty subnet more, in an object with a member and no subnet, both are loaded alike: the
definition is the same, or the error with its field and its message. -/
theorem Definition.parse_of_inserted {text text' : String} {document document' : Json}
    (read : Json.parse text = .ok document) (read' : Json.parse text' = .ok document')
    (inserted : EmptySubnet.Inserted document document') :
    Definition.parse text' = Definition.parse text := by
  simp only [Definition.parse, read, read', Json.canonicalText_of_inserted inserted]

/-- An empty subnet between the members of a control plane, in a document of another
layout. -/
theorem Definition.parse_of_inserted_middle :
    let around (master : Members) : Json :=
      .object [("apiVersion", .string "vlabs"),
        ("properties", .object [("masterProfile", .object master)])]
    let document := around [("vmSize", .string "A"), ("dnsPrefix", .string "m")]
    let document' :=
      around [("vmSize", .string "A"), ("subnet", .string ""), ("dnsPrefix", .string "m")]
    Json.parse document.pretty = .ok document ∧ Json.parse document'.compact = .ok document' ∧
      EmptySubnet.Inserted document document' ∧
        Definition.parse document'.compact = Definition.parse document.pretty := by
  intro around document document'
  have read : Json.parse document.pretty = .ok document :=
    Json.parse_pretty (by decide) (by decide) (by decide)
  have read' : Json.parse document'.compact = .ok document' :=
    Json.parse_compact (by decide) (by decide) (by decide)
  have inserted : EmptySubnet.Inserted document document' :=
    @EmptySubnet.Inserted.member [("apiVersion", .string "vlabs")] [] "properties" _ _
      (@EmptySubnet.Inserted.member [] [] "masterProfile" _ _
        (@EmptySubnet.Inserted.here [("vmSize", .string "A")] [("dnsPrefix", .string "m")]
          (by simp) (by decide)))
  exact ⟨read, read', inserted, Definition.parse_of_inserted read read' inserted⟩

end Provision
