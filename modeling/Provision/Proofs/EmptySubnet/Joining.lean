import Provision.Proofs.EmptySubnet.Values

/-!
Members whose text is cut, on values.

The literal of an empty subnet starts at a quote. The quote may open a name, which is then
`subnet`, or stand within one that ends in it and `subnet` (`isSevered`). With an empty text as its
value and another member behind it, such a member is cut (`isCut`): all that is left of it is the
`stem` of its name, and the name of the next member goes on from there. `Json.joined` is what
becomes of a value in this way; nothing is asked of the value.

* `Members.uncut_joinedFrom` — what is joined has no member to cut: a stem is empty or ends in a
  quote, and then only a name that is cut by itself goes on with `subnet`. So joining a second time
  changes nothing (`joined_joined`).
* `nesting_joined_le` — joining opens no new arrays and objects.
* `joined_eq_withoutEmptySubnets` — where subnets lead and no member is severed, joining drops the
  empty subnets that have company.
-/

namespace Provision

namespace Json

/-! ### Severed members -/

/-- Whether a member has an empty text as its value and a name that ends in a quote and
`subnet`. The literal is printed for it from that quote on, if another member follows. -/
def isSevered (member : String × Json) : Bool :=
  match member with
  | (name, .string text) => text.isEmpty && ('"' :: "subnet".toList).isSuffixOf name.toList
  | _ => false

/-- Whether no member that has another one behind it is severed. -/
def hasNoSevered : Json → Bool
  | .object members => members.dropLast.all (!isSevered ·)
  | _ => true

/-- Whether no member that has another one behind it is severed anywhere. -/
def unsevered (value : Json) : Bool := value.all hasNoSevered

theorem isSevered_iff {name : String} {value : Json} :
    isSevered (name, value) ↔ value = .string "" ∧ '"' :: "subnet".toList <:+ name.toList := by
  cases value <;> simp [isSevered]

theorem hasNoSevered_object_iff {members : Members} :
    hasNoSevered (.object members) ↔ ∀ member ∈ members.dropLast, isSevered member = false := by
  simp [hasNoSevered]

theorem unsevered_object_iff {members : Members} :
    (object members).unsevered ↔
      (∀ member ∈ members.dropLast, isSevered member = false) ∧
        ∀ member ∈ members, member.2.unsevered := by
  simp [unsevered, all_object_iff, hasNoSevered]

/-- Without double quotes in names, no member is severed. -/
theorem unsevered_of_plainNames {value : Json} (plain : value.plainNames) : value.unsevered := by
  refine all_mono ?_ plain
  intro value here
  cases value with
  | object members =>
      refine hasNoSevered_object_iff.mpr ?_
      rintro ⟨name, value⟩ mem
      have noQuote : '"' ∉ name.toList :=
        hasPlainNames_iff.mp here name (List.mem_map_of_mem (List.dropLast_subset _ mem))
      rw [Bool.eq_false_iff]
      intro severed
      exact noQuote ((isSevered_iff.mp severed).2.subset List.mem_cons_self)
  | _ => rfl

/-! ### Cut members -/

/-- Whether the literal is printed for a member, if another one follows. -/
def isCut (member : String × Json) : Bool := isEmptySubnet member || isSevered member

/-- What is left of a name that is cut. -/
def stem (name : String) : List Char := name.toList.take (name.toList.length - "subnet".length)

/-- A member is cut if its name ends in `subnet` behind a quote, that in front of it included. -/
theorem isCut_iff {name : String} {value : Json} :
    isCut (name, value) ↔
      value = .string "" ∧ '"' :: "subnet".toList <:+ '"' :: name.toList := by
  have same : name = "subnet" ↔ "subnet".toList = name.toList := by
    rw [String.toList_inj, eq_comm]
  rw [isCut, Bool.or_eq_true, isEmptySubnet_iff, isSevered_iff, List.suffix_cons_iff,
    List.cons.injEq, Prod.mk.injEq, same]
  simp only [true_and]
  tauto

theorem stem_eq {name : String} {front : List Char}
    (ends : name.toList = front ++ "subnet".toList) : stem name = front := by
  have count : "subnet".length = "subnet".toList.length := rfl
  rw [stem, ends, List.length_append, count, Nat.add_sub_cancel, List.take_left]

/-- A place where a name can go on: nothing is left of the names before, or it ends in a quote. -/
def EndsInQuote (front : List Char) : Prop := ∃ opened, opened ++ ['"'] = '"' :: front

theorem endsInQuote_nil : EndsInQuote [] := ⟨[], rfl⟩

/-- The literal opens with the quote in front of the name, or with the last one of its stem. -/
theorem ends_of_isCut {name : String} {value : Json} (cut : isCut (name, value) = true) :
    name.toList = stem name ++ "subnet".toList ∧ EndsInQuote (stem name) := by
  obtain ⟨front, ends⟩ := (isCut_iff.mp cut).2
  cases front with
  | nil =>
      have own : name.toList = [] ++ "subnet".toList := (List.cons.inj ends).2.symm
      rw [stem_eq own]
      exact ⟨own, [], rfl⟩
  | cons c front =>
      obtain ⟨rfl, inner⟩ := List.cons.inj ends
      have own : name.toList = (front ++ ['"']) ++ "subnet".toList := by
        rw [← inner, List.append_assoc]
        rfl
      rw [stem_eq own]
      exact ⟨own, '"' :: front, rfl⟩

/-- What stands in front of a quote does not matter for whether it opens a word. -/
theorem suffix_append_cons_iff {c : Char} {word front back : List Char} (absent : c ∉ word) :
    c :: word <:+ front ++ c :: back ↔ c :: word <:+ c :: back := by
  constructor
  · intro ends
    induction front with
    | nil => exact ends
    | cons d front ih =>
        rcases List.suffix_cons_iff.mp ends with same | later
        · -- the word itself would hold the quote
          obtain ⟨-, same⟩ := List.cons.inj same
          exact absurd (same ▸ List.mem_append_right front List.mem_cons_self) absent
        · exact ih later
  · intro ends
    exact ends.trans (List.suffix_append _ _)

/-- The stem of a cut name, behind another one, can be gone on from. -/
theorem EndsInQuote.append_stem {front : List Char} (ends : EndsInQuote front) {name : String}
    {value : Json} (cut : isCut (name, value) = true) : EndsInQuote (front ++ stem name) := by
  obtain ⟨opened, same⟩ := ends
  obtain ⟨-, inner, same'⟩ := ends_of_isCut cut
  refine ⟨opened ++ inner, ?_⟩
  rw [List.append_assoc, same', ← List.cons_append, ← same, List.append_assoc]
  rfl

/-- A name that goes on from such a place is cut exactly if it is cut by itself. -/
theorem isCut_append {front : List Char} (ends : EndsInQuote front) (name : String)
    (value : Json) :
    isCut (String.ofList (front ++ name.toList), value) = isCut (name, value) := by
  obtain ⟨opened, same⟩ := ends
  have whole : '"' :: (front ++ name.toList) = opened ++ '"' :: name.toList := by
    rw [← List.cons_append, ← same, List.append_assoc]
    rfl
  rw [Bool.eq_iff_iff, isCut_iff, isCut_iff, @String.toList_ofList (front ++ name.toList), whole,
    suffix_append_cons_iff (by decide)]

end Json

/-! ### Joining members -/

namespace Members

open Json (isCut stem EndsInQuote)

/-- The members that are left of these, where the first name goes on from `front`. -/
def joinedFrom (front : List Char) : Members → Members
  | [] => []
  | (name, value) :: rest =>
      if isCut (name, value) ∧ rest ≠ [] then joinedFrom (front ++ stem name) rest
      else (String.ofList (front ++ name.toList), value) :: joinedFrom [] rest

variable {front : List Char} {members : Members}

theorem joinedFrom_ne_nil (nonempty : members ≠ []) : joinedFrom front members ≠ [] := by
  induction members generalizing front with
  | nil => exact absurd rfl nonempty
  | cons member rest ih =>
      unfold joinedFrom
      split
      · rename_i cut
        exact ih cut.2
      · exact List.cons_ne_nil _ _

theorem joinedFrom_eq_nil_iff : joinedFrom front members = [] ↔ members = [] := by
  refine ⟨not_imp_not.mp joinedFrom_ne_nil, ?_⟩
  rintro rfl
  rfl

/-- No value is new. -/
theorem exists_of_mem_joinedFrom {member : String × Json}
    (mem : member ∈ joinedFrom front members) : ∃ name, (name, member.2) ∈ members := by
  induction members generalizing front with
  | nil => cases mem
  | cons first rest ih =>
      unfold joinedFrom at mem
      split at mem
      · obtain ⟨name, later⟩ := ih mem
        exact ⟨name, List.mem_cons_of_mem _ later⟩
      · rcases List.mem_cons.mp mem with rfl | mem
        · exact ⟨first.1, List.mem_cons_self⟩
        · obtain ⟨name, later⟩ := ih mem
          exact ⟨name, List.mem_cons_of_mem _ later⟩

/-- Of members with none to cut before the last, all are left as they are. -/
theorem joinedFrom_eq_self (uncut : ∀ member ∈ members.dropLast, isCut member = false) :
    joinedFrom [] members = members := by
  induction members with
  | nil => rfl
  | cons first rest ih =>
      have kept : ¬ (isCut first = true ∧ rest ≠ []) := by
        rintro ⟨cut, others⟩
        rw [List.dropLast_cons_of_ne_nil others] at uncut
        rw [uncut first List.mem_cons_self] at cut
        cases cut
      have later : ∀ member ∈ rest.dropLast, isCut member = false := by
        intro member mem
        refine uncut member ?_
        cases rest with
        | nil => cases mem
        | cons second rest => exact List.mem_cons_of_mem _ mem
      rw [joinedFrom, if_neg kept, ih later, List.nil_append, String.ofList_toList]

/-- **Joined members are not cut again.** The induction is on the members, with any place to go on
from: a member keeps its name, or the one that goes on behind it is in such a place again. -/
theorem uncut_joinedFrom (ends : EndsInQuote front) :
    ∀ member ∈ (joinedFrom front members).dropLast, isCut member = false := by
  induction members generalizing front with
  | nil =>
      intro member mem
      cases mem
  | cons first rest ih =>
      obtain ⟨name, value⟩ := first
      unfold joinedFrom
      split
      · rename_i cut
        exact ih (ends.append_stem cut.1)
      · rename_i kept
        by_cases others : rest = []
        · subst others
          intro member mem
          cases mem
        · have notCut : isCut (name, value) = false := by
            rw [Bool.eq_false_iff]
            exact fun cut => kept ⟨cut, others⟩
          rw [List.dropLast_cons_of_ne_nil (joinedFrom_ne_nil others), List.forall_mem_cons,
            Json.isCut_append ends]
          exact ⟨notCut, ih Json.endsInQuote_nil⟩

end Members

namespace Json

/-! ### Joining values -/

mutual

/-- The same value with the members of every object joined. -/
def joined : Json → Json
  | .array items => .array (joinedItems items)
  | .object members => .object (Members.joinedFrom [] (joinedMembers members))
  | other => other

def joinedItems : List Json → List Json
  | [] => []
  | item :: items => joined item :: joinedItems items

def joinedMembers : List (String × Json) → List (String × Json)
  | [] => []
  | (name, value) :: members => (name, joined value) :: joinedMembers members

end

theorem joinedItems_eq (items : List Json) : joinedItems items = items.map joined := by
  induction items with
  | nil => rfl
  | cons item items ih => rw [joinedItems, ih, List.map_cons]

theorem joinedMembers_eq (members : Members) :
    joinedMembers members = members.mapValues joined := by
  induction members with
  | nil => rfl
  | cons member members ih =>
      rw [joinedMembers, ih]
      rfl

theorem joined_array (items : List Json) : (array items).joined = .array (items.map joined) := by
  rw [joined, joinedItems_eq]

theorem joined_object (members : Members) :
    (object members).joined = .object (Members.joinedFrom [] (members.mapValues joined)) := by
  rw [joined, joinedMembers_eq]

/-- Being cut is a matter of the member alone. -/
theorem isCut_joined (name : String) (value : Json) :
    isCut (name, value.joined) = isCut (name, value) := by
  cases value <;> rfl

/-- **Joining once is enough.** -/
theorem joined_joined (value : Json) : value.joined.joined = value.joined := by
  induction value using byParts with
  | array items ih =>
      rw [joined_array, joined_array, List.map_map]
      exact congrArg array (List.map_congr_left ih)
  | object members ih =>
      have same : ∀ member ∈ Members.joinedFrom [] (members.mapValues joined),
          member.2.joined = member.2 := by
        intro member mem
        obtain ⟨name, listed⟩ := Members.exists_of_mem_joinedFrom mem
        obtain ⟨own, old, made⟩ := List.mem_map.mp listed
        rw [← (Prod.mk.inj made).2]
        exact ih own old
      rw [joined_object, joined_object, Members.mapValues_eq_self same,
        Members.joinedFrom_eq_self (Members.uncut_joinedFrom endsInQuote_nil)]
  | _ => rfl

theorem nesting_joined_le {value : Json} {levels : Nat} (bound : value.nesting ≤ levels) :
    value.joined.nesting ≤ levels := by
  induction value using byParts generalizing levels with
  | array items ih =>
      obtain ⟨fewer, rfl, parts⟩ := nesting_array_le_iff.mp bound
      rw [joined_array]
      refine nesting_array_le_iff.mpr ⟨fewer, rfl, List.forall_mem_map.mpr ?_⟩
      intro item mem
      exact ih item mem (parts item mem)
  | object members ih =>
      obtain ⟨fewer, rfl, parts⟩ := nesting_object_le_iff.mp bound
      rw [joined_object]
      refine nesting_object_le_iff.mpr ⟨fewer, rfl, ?_⟩
      intro member mem
      obtain ⟨name, listed⟩ := Members.exists_of_mem_joinedFrom mem
      obtain ⟨old, mem, made⟩ := List.mem_map.mp listed
      rw [← (Prod.mk.inj made).2]
      exact ih old mem (parts old mem)
  | _ => exact bound

/-! ### Where subnets lead -/

/-- What holds of all members that have another one behind them. -/
theorem forall_dropLast_cons {first : String × Json} {members : Members}
    {P : String × Json → Prop} :
    (∀ member ∈ (first :: members).dropLast, P member) ↔
      (members ≠ [] → P first) ∧ ∀ member ∈ members.dropLast, P member := by
  cases members <;> simp

/-- Of members of which only the first can be a subnet, only the first can be dropped. -/
theorem settled_cons {first : String × Json} {members : Members}
    (noSubnet : ∀ member ∈ members, isSubnet member = false) :
    Members.settled (first :: members)
      = if isEmptySubnet first ∧ members ≠ [] then members else first :: members := by
  have others : members.filter (!isEmptySubnet ·) = members := by
    refine List.filter_eq_self.mpr ?_
    intro member mem
    rw [isEmptySubnet_of_not_isSubnet (noSubnet member mem)]
    rfl
  cases members with
  | nil => simp [Members.settled]
  | cons second members =>
      cases h : isEmptySubnet first <;> simp [Members.settled, h, others]

/-- Being severed is a matter of the member alone. -/
theorem isSevered_withoutEmptySubnets (name : String) (value : Json) :
    isSevered (name, value.withoutEmptySubnets) = isSevered (name, value) := by
  cases value <;> rfl

/-- Members of which only the first can be a subnet, and none but the last severed, lose an empty
subnet that has company, and nothing else. -/
theorem joinedFrom_eq_settled {members : Members}
    (noSubnet : ∀ member ∈ members.tail, isSubnet member = false)
    (whole : ∀ member ∈ members.dropLast, isSevered member = false) :
    Members.joinedFrom [] members = members.settled := by
  cases members with
  | nil => rfl
  | cons first rest =>
      obtain ⟨name, value⟩ := first
      have others : ∀ member ∈ rest, isSubnet member = false := noSubnet
      obtain ⟨firstWhole, laterWhole⟩ := forall_dropLast_cons.mp whole
      have uncut : ∀ member ∈ rest.dropLast, isCut member = false := by
        intro member mem
        rw [isCut, isEmptySubnet_of_not_isSubnet (others member (List.dropLast_subset _ mem)),
          laterWhole member mem]
        rfl
      have kept := Members.joinedFrom_eq_self uncut
      simp only [settled_cons others, Members.joinedFrom, kept, List.nil_append,
        String.ofList_toList]
      by_cases alone : rest = []
      · simp [alone]
      · rw [isCut, firstWhole alone, Bool.or_false]
        split
        · rename_i empty
          cases isEmptySubnet_iff.mp empty.1
          exact kept
        · rfl

/-- **Where subnets lead and no member is severed, joining drops empty subnets**, those that have
company. -/
theorem joined_eq_withoutEmptySubnets {value : Json} (leads : value.subnetLeads)
    (whole : value.unsevered) : value.joined = value.withoutEmptySubnets := by
  induction value using byParts with
  | array items ih =>
      have leads := (all_array_iff.mp leads).2
      have whole := (all_array_iff.mp whole).2
      rw [joined_array, withoutEmptySubnets_array]
      exact congrArg array (List.map_congr_left fun item mem =>
        ih item mem (leads item mem) (whole item mem))
  | object members ih =>
      obtain ⟨noSubnet, leads⟩ := subnetLeads_object_iff.mp leads
      obtain ⟨names, whole⟩ := unsevered_object_iff.mp whole
      have same : members.mapValues joined = members.mapValues withoutEmptySubnets := by
        refine List.map_congr_left ?_
        intro member mem
        rw [ih member mem (leads member mem) (whole member mem)]
      rw [joined_object, withoutEmptySubnets_object, same, joinedFrom_eq_settled]
      · rw [Members.mapValues, ← List.map_tail]
        exact forall_mapValues.mpr noSubnet
      · rw [Members.mapValues, ← List.map_dropLast]
        refine forall_mapValues.mpr ?_
        intro member mem
        rw [isSevered_withoutEmptySubnets]
        exact names member mem
  | _ => rfl

end Json

end Provision
