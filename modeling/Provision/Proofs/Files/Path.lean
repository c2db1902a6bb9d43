import Provision.Files.Path

/-!
The names of a joined path.

A relative path adds its names to those of the path that it is joined to, whatever the text of
that path, and starts where that path does: `names_join`, `isAbsolute_join`. An absolute path
drops the other one (`join_of_isAbsolute`). A plain file name adds exactly itself, so it is the
last name of the joined path (`getLast?_names_join`), and files with different names are kept at
different locations. It is also the only thing that extends a path by one name and by nothing
else: `extends_join_iff`.
-/

namespace Provision.Path

/-- A name that can be that of a file: no path of several names, and no dots. -/
structure IsFileName (name : String) : Prop where
  nonempty : name.toList ≠ []
  noSlash : '/' ∉ name.toList
  noDot : name ≠ "."
  noDots : name ≠ ".."

instance (name : String) : Decidable (IsFileName name) :=
  decidable_of_iff
    (name.toList ≠ [] ∧ '/' ∉ name.toList ∧ name ≠ "." ∧ name ≠ "..")
    ⟨fun h => ⟨h.1, h.2.1, h.2.2.1, h.2.2.2⟩, fun h => ⟨h.1, h.2, h.3, h.4⟩⟩

/-! ### Joining -/

/-- A slash divides the names of a path. -/
theorem names_of_slash {path front back : String}
    (same : path.toList = front.toList ++ '/' :: back.toList) :
    names path = names front ++ names back := by
  unfold names
  rw [same, List.splitOn_append_cons_self, List.filter_append, List.map_append]

theorem names_join {path : String} (relative : isAbsolute path = false) (base : String) :
    names (join base path) = names base ++ names path := by
  unfold join
  rw [relative, Bool.false_or]
  by_cases empty : base.isEmpty
  · rw [if_pos empty, String.isEmpty_iff.mp empty]
    rfl
  · rw [if_neg empty]
    by_cases slash : endsInSlash base
    · -- the slash at the end of the base is the one between the two
      rw [if_pos slash]
      have last : base.toList.getLast? = some '/' := by simpa [endsInSlash] using slash
      obtain ⟨front, same⟩ := List.getLast?_eq_some_iff.mp last
      have trimmed : names base = names (String.ofList front) := by
        rw [@names_of_slash base (String.ofList front) "" (by simp [same])]
        exact List.append_nil _
      rw [trimmed]
      exact names_of_slash (by simp [same])
    · rw [if_neg slash]
      exact names_of_slash (by simp)

theorem isAbsolute_join {path : String} (relative : isAbsolute path = false) (base : String) :
    isAbsolute (join base path) = isAbsolute base := by
  unfold join
  rw [relative, Bool.false_or]
  by_cases empty : base.isEmpty
  · rw [if_pos empty, relative, String.isEmpty_iff.mp empty]
    rfl
  · have nonempty : base.toList ≠ [] := by simpa using empty
    obtain ⟨first, more, same⟩ := List.exists_cons_of_ne_nil nonempty
    rw [if_neg empty]
    split <;> simp [isAbsolute, same]

theorem join_of_isAbsolute {path : String} (absolute : isAbsolute path = true) (base : String) :
    join base path = path := by
  unfold join
  rw [absolute, Bool.true_or, if_pos rfl]

/-! ### File names -/

theorem IsFileName.relative {name : String} (plain : IsFileName name) :
    isAbsolute name = false := by
  unfold isAbsolute
  rw [Bool.eq_false_iff]
  intro absolute
  exact plain.noSlash (List.mem_of_mem_head? (beq_iff_eq.mp absolute))

theorem IsFileName.names_eq {name : String} (plain : IsFileName name) : names name = [name] := by
  have nonempty := plain.nonempty
  unfold names
  rw [List.splitOn_eq_singleton plain.noSlash]
  simp [nonempty]

theorem IsFileName.names_join {name : String} (plain : IsFileName name) (base : String) :
    names (join base name) = names base ++ [name] := by
  rw [Path.names_join plain.relative, plain.names_eq]

theorem getLast?_names_join {name : String} (plain : IsFileName name) (base : String) :
    (names (join base name)).getLast? = some name := by
  rw [plain.names_join, List.getLast?_concat]

/-! ### Paths that go on by one name -/

theorem notMem_of_mem_splitOn {slash : Char} {text part : List Char}
    (mem : part ∈ text.splitOn slash) : slash ∉ part := by
  induction text generalizing part with
  | nil =>
      rw [List.splitOn_nil, List.mem_singleton] at mem
      rw [mem]
      exact List.not_mem_nil
  | cons first text ih =>
      rw [List.splitOn_cons_eq_if_modifyHead] at mem
      split at mem
      · rcases List.mem_cons.mp mem with rfl | later
        · exact List.not_mem_nil
        · exact ih later
      · rename_i other
        obtain ⟨head, tail, same⟩ := List.exists_cons_of_ne_nil (List.splitOn_ne_nil slash text)
        rw [same] at mem ih
        rcases List.mem_cons.mp mem with rfl | later
        · rw [List.mem_cons, not_or]
          refine ⟨?_, ih List.mem_cons_self⟩
          rintro rfl
          exact other (beq_self_eq_true _)
        · exact ih (List.mem_cons_of_mem _ later)

/-- The names on the way of a path have no slashes and are not empty. -/
theorem noSlash_of_mem_names {name path : String} (mem : name ∈ names path) :
    name.toList ≠ [] ∧ '/' ∉ name.toList := by
  obtain ⟨part, listed, rfl⟩ := List.mem_map.mp mem
  obtain ⟨split, filled⟩ := List.mem_filter.mp listed
  rw [String.toList_ofList]
  exact ⟨by simpa using filled, notMem_of_mem_splitOn split⟩

/-- A path that goes on from another one by one name, which leads neither up nor nowhere. -/
structure Extends (base name path : String) : Prop where
  start : isAbsolute path = isAbsolute base
  names : names path = names base ++ [name]
  noDot : name ≠ "."
  noDots : name ≠ ".."

/-- What is joined to a path extends it by one name exactly if it is a file name. -/
theorem extends_join_iff {base name : String} :
    Extends base name (join base name) ↔ IsFileName name := by
  constructor
  · intro further
    have mem : name ∈ names (join base name) := by
      rw [further.names]
      exact List.mem_concat_self
    obtain ⟨nonempty, noSlash⟩ := noSlash_of_mem_names mem
    exact ⟨nonempty, noSlash, further.noDot, further.noDots⟩
  · intro plain
    exact ⟨isAbsolute_join plain.relative base, plain.names_join base, plain.noDot, plain.noDots⟩

end Provision.Path
