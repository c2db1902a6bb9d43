import Provision.Proofs.Json.RoundTrip

/-!
Texts inside a value.

`Json.textAt` is the text that is found by following the names of members from a value. It does
not depend on how floats were read (`textAt_reread`).

Pairs that become the members of an object may have one name; the value of a name is found
whatever the other pairs are, if all pairs of this name have it: `Members.find?_ofPairs`.
-/

namespace Provision

/-! ### Members by name -/

namespace Members

variable {members : Members} {name : String}

theorem find?_eq_none_iff : members.find? name = none ↔ name ∉ members.names := by
  unfold find? names
  rw [Option.map_eq_none_iff, List.find?_eq_none]
  constructor
  · intro none mem
    obtain ⟨member, listed, rfl⟩ := List.mem_map.mp mem
    exact none member listed (beq_self_eq_true _)
  · intro absent member listed same
    exact absent (beq_iff_eq.mp same ▸ List.mem_map_of_mem listed)

theorem find?_mapValues (f : Json → Json) (members : Members) (name : String) :
    (members.mapValues f).find? name = (members.find? name).map f := by
  induction members with
  | nil => rfl
  | cons member members ih =>
      unfold find? mapValues at ih ⊢
      by_cases here : member.1 = name
      · simp [here]
      · simpa [here] using ih

/-- Inserting members forgets no name. -/
theorem names_subset_foldl_insert (pairs : List (String × Json)) (start : Members) :
    start.names ++ names pairs
      ⊆ (pairs.foldl (fun members pair => insert members pair.1 pair.2) start).names := by
  induction pairs generalizing start with
  | nil => simp [names]
  | cons pair pairs ih =>
      intro name mem
      refine ih (start.insert pair.1 pair.2) ?_
      by_cases known : pair.1 ∈ start.names
      · rw [names_insert_of_mem _ known]
        simp only [names, List.map_cons, List.mem_append, List.mem_cons] at mem ⊢
        rcases mem with before | rfl | later
        · exact .inl before
        · exact .inl known
        · exact .inr later
      · rw [insert_of_not_mem _ known]
        simpa [names] using mem

/-- The value of a name that only this value is given for. -/
theorem find?_ofPairs {pairs : List (String × Json)} {value : Json} (mem : (name, value) ∈ pairs)
    (only : ∀ other, (name, other) ∈ pairs → other = value) :
    (ofPairs pairs).find? name = some value := by
  cases found : (ofPairs pairs).find? name with
  | none =>
      have named : name ∈ names pairs := List.mem_map_of_mem mem
      have kept := names_subset_foldl_insert pairs [] (List.mem_append_right _ named)
      exact absurd kept (find?_eq_none_iff.mp found)
  | some other => rw [only other (mem_of_mem_ofPairs (mem_of_find? found))]

end Members

/-! ### Texts -/

namespace Json

def member? (value : Json) (name : String) : Option Json :=
  match value with
  | .object members => Members.find? members name
  | _ => none

/-- The text that the names of members lead to. -/
def textAt (value : Json) : List String → Option String
  | [] =>
      match value with
      | .string text => some text
      | _ => none
  | name :: names =>
      match value.member? name with
      | some part => part.textAt names
      | none => none

theorem textAt_of_member? {value part : Json} {name : String}
    (found : value.member? name = some part) (names : List String) :
    value.textAt (name :: names) = part.textAt names := by
  rw [textAt, found]

theorem member?_reread (value : Json) (name : String) :
    value.reread.member? name = (value.member? name).map reread := by
  cases value with
  | array items => rw [reread_array]; rfl
  | object members =>
      rw [reread_object]
      exact Members.find?_mapValues reread members name
  | _ => rfl

/-- Texts are read as they are. -/
theorem textAt_reread (value : Json) (names : List String) :
    value.reread.textAt names = value.textAt names := by
  induction names generalizing value with
  | nil =>
      cases value with
      | array items => rw [reread_array]; rfl
      | object members => rw [reread_object]; rfl
      | _ => rfl
  | cons name names ih =>
      rw [textAt, textAt, member?_reread]
      cases value.member? name with
      | none => rfl
      | some part => exact ih part

end Json

end Provision
