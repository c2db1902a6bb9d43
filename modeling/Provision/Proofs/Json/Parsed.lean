import Provision.Proofs.Json.Shape
import Provision.Json.Reader

/-!
What a value that was read looks like.

Whatever the text was, no object in its value has two members of one name, and the value
is nested no deeper than the reader allows: `wellRead_of_parse`.
-/

namespace Provision.Json

/-- A value that the reader can return at this number of levels. -/
structure WellRead (levels : Nat) (v : Json) : Prop where
  distinct : v.distinctNames
  bound : v.nesting ≤ levels

theorem wellRead_array {levels : Nat} {items : List Json}
    (each : ∀ v ∈ items, WellRead levels v) : WellRead (levels + 1) (.array items) := by
  constructor
  · refine all_array_iff.mpr ⟨rfl, ?_⟩
    intro v mem
    exact (each v mem).distinct
  · refine Nat.succ_le_succ (nestingItems_le_iff.mpr ?_)
    intro v mem
    exact (each v mem).bound

theorem wellRead_members {levels : Nat} {members : Members} (names : members.names.Nodup)
    (each : ∀ member ∈ members, WellRead levels member.2) :
    WellRead (levels + 1) (.object members) := by
  constructor
  · refine distinctNames_object_iff.mpr ⟨names, ?_⟩
    intro member mem
    exact (each member mem).distinct
  · refine Nat.succ_le_succ (nestingMembers_le_iff.mpr ?_)
    intro member mem
    exact (each member mem).bound

/-- Pairs become members of different names. -/
theorem wellRead_object {levels : Nat} {pairs : List (String × Json)}
    (each : ∀ pair ∈ pairs, WellRead levels pair.2) :
    WellRead (levels + 1) (.object (Members.ofPairs pairs)) := by
  refine wellRead_members (Members.nodup_names_ofPairs pairs) ?_
  intro member mem
  exact each member (Members.mem_of_mem_ofPairs mem)

namespace Reader

theorem Step.map_eq_ok {α β : Type} {f : α → β} {step : Step α} {value : β} {rest : List Char}
    (h : step.map f = .ok (value, rest)) : ∃ x, step = .ok (x, rest) ∧ f x = value := by
  cases step with
  | error failure => cases h
  | ok result =>
      obtain ⟨x, more⟩ := result
      simp only [Step.map, Except.ok.injEq, Prod.mk.injEq] at h
      exact ⟨x, by rw [h.2], h.1⟩

variable {item : List Char → Step Json} {P : Json → Prop}

/-- What holds of everything that the reader of items returns holds of the items. -/
theorem items_forall (each : ∀ text v rest, item text = .ok (v, rest) → P v) {rounds : Nat}
    {text rest : List Char} {vs : List Json} (h : items item rounds text = .ok (vs, rest)) :
    ∀ v ∈ vs, P v := by
  induction rounds generalizing text vs with
  | zero => cases h
  | succ rounds ih =>
      unfold items at h
      split at h
      · cases h
      · rename_i v after read
        have first : P v := each _ _ _ read
        split at h
        · cases h
        · cases h
          exact List.forall_mem_singleton.mpr first
        · split at h
          · cases h
          · cases h
          · obtain ⟨more, loop, rfl⟩ := Step.map_eq_ok h
            exact List.forall_mem_cons.mpr ⟨first, ih loop⟩
        · cases h

/-- What holds of everything that the reader of values returns holds of the values of the
members. -/
theorem members_forall (each : ∀ text v rest, item text = .ok (v, rest) → P v) {rounds : Nat}
    {text rest : List Char} {pairs : List (String × Json)}
    (h : members item rounds text = .ok (pairs, rest)) : ∀ pair ∈ pairs, P pair.2 := by
  induction rounds generalizing text pairs with
  | zero => cases h
  | succ rounds ih =>
      unfold members at h
      split at h
      · cases h
      · split at h
        · cases h
        · split at h
          · cases h
          · rename_i v after read
            have first : P v := each _ _ _ read
            split at h
            · cases h
            · cases h
              exact List.forall_mem_singleton.mpr first
            · split at h
              · cases h
              · obtain ⟨more, loop, rfl⟩ := Step.map_eq_ok h
                exact List.forall_mem_cons.mpr ⟨first, ih loop⟩
              · cases h
              · cases h
            · cases h

theorem word_eq_ok {α : Type} {value v : α} {letters text rest : List Char}
    (h : word value letters text = .ok (v, rest)) : v = value := by
  induction letters generalizing text with
  | nil => cases h; rfl
  | cons letter letters ih =>
      cases text with
      | nil => cases h
      | cons c text =>
          unfold word at h
          split at h
          · exact ih h
          · cases h

/-- One level: a value is well-read if what the reader returns one level below is. -/
theorem wellRead_of_below {levels : Nat} {text rest : List Char} {v : Json}
    (below : ∀ fewer, levels = fewer + 1 →
      ∀ text v rest, value fewer text = .ok (v, rest) → WellRead fewer v)
    (h : value levels text = .ok (v, rest)) : WellRead levels v := by
  rw [value] at h
  split at h
  · cases h
  · cases word_eq_ok h
    exact ⟨rfl, Nat.zero_le _⟩
  · cases word_eq_ok h
    exact ⟨rfl, Nat.zero_le _⟩
  · cases word_eq_ok h
    exact ⟨rfl, Nat.zero_le _⟩
  · obtain ⟨n, _, rfl⟩ := Step.map_eq_ok h
    exact ⟨rfl, Nat.zero_le _⟩
  · obtain ⟨s, _, rfl⟩ := Step.map_eq_ok h
    exact ⟨rfl, Nat.zero_le _⟩
  · -- an array, which needs a level
    cases levels with
    | zero => cases h
    | succ fewer =>
      simp only at h
      split at h
      · cases h
      · cases h
        exact wellRead_array (by simp)
      · obtain ⟨vs, loop, rfl⟩ := Step.map_eq_ok h
        exact wellRead_array (items_forall (below fewer rfl) loop)
  · -- an object, which needs a level
    cases levels with
    | zero => cases h
    | succ fewer =>
      simp only at h
      split at h
      · cases h
      · cases h
        exact @wellRead_object fewer [] (by simp)
      · obtain ⟨pairs, loop, rfl⟩ := Step.map_eq_ok h
        exact wellRead_object (members_forall (below fewer rfl) loop)
      · cases h
  · split at h
    · obtain ⟨n, _, rfl⟩ := Step.map_eq_ok h
      exact ⟨rfl, Nat.zero_le _⟩
    · cases h

/-- Whatever the reader returns is well-read. -/
theorem wellRead_value {levels : Nat} {text rest : List Char} {v : Json}
    (h : value levels text = .ok (v, rest)) : WellRead levels v := by
  induction levels generalizing text v rest with
  | zero =>
      refine wellRead_of_below ?_ h
      intro fewer same
      cases same
  | succ levels ih =>
      refine wellRead_of_below ?_ h
      intro fewer same text v rest read
      cases same
      exact ih read

end Reader

/-- The value of a text is well-read. -/
theorem wellRead_of_parse {text : String} {v : Json} (h : Json.parse text = .ok v) :
    WellRead Reader.maxLevels v := by
  unfold Json.parse at h
  split at h
  · cases h
  · rename_i read
    split at h
    · cases h
    · cases h
      exact Reader.wellRead_value read

end Provision.Json
