import Provision.Proofs.Files.Operations
import Provision.Proofs.Files.Path

/-!
Where paths lead.

`Leads` says to which location the names of a path lead, whether or not anything is there, and
`OnTheWay` which locations they pass. Both are kept when directories are added
(`Grows.leads`, `Grows.onTheWay`). A path that goes on from another one by a file name leads to
that name in the location of the other (`leads_join_iff`), so the files of one directory are told
apart by their names.

Making a directory with all that contain it adds directories on the way of its path, where
nothing was, and changes nothing else, on whatever disk: `madeAlong_createAll`.
-/

namespace Provision.Files

open Provision.Path (IsFileName)

variable {disk : Disk} {files files' : Files} {path : String} {location : Location}

/-- The names of a path lead to a location. -/
def Leads (files : Files) (path : String) (location : Location) : Prop :=
  files.walk (files.start (Path.isAbsolute path)) (Path.names path) = .ok location

/-- Some of the names of a path, from the first one on, lead to a location. -/
def OnTheWay (files : Files) (path : String) (location : Location) : Prop :=
  ∃ names, names <+: Path.names path ∧
    files.walk (files.start (Path.isAbsolute path)) names = .ok location

theorem Leads.unique {other : Location} (leads : files.Leads path location)
    (leads' : files.Leads path other) : other = location :=
  Except.ok.inj (leads'.symm.trans leads)

theorem Leads.onTheWay (leads : files.Leads path location) : files.OnTheWay path location :=
  ⟨_, List.prefix_rfl, leads⟩

theorem Grows.leads (grows : Grows files files') (leads : files.Leads path location) :
    files'.Leads path location := by
  unfold Leads
  rw [grows.start]
  exact grows.walk leads

theorem Grows.onTheWay (grows : Grows files files') (passed : files.OnTheWay path location) :
    files'.OnTheWay path location := by
  obtain ⟨names, first, walked⟩ := passed
  refine ⟨names, first, ?_⟩
  rw [grows.start]
  exact grows.walk walked

/-- A path that holds a file leads to it. -/
theorem Holds.leads {content : ByteArray} (held : files.Holds path location content) :
    files.Leads path location :=
  walk_of_target held.target

/-- A path that leads to a directory and can be followed is that of a directory. -/
theorem isDirectory_of_leads (followed : refusal? path = none) (leads : files.Leads path location)
    (found : files.lookup location = some .directory) : files.isDirectory path = true := by
  have there : files.walk (files.start (Path.isAbsolute path)) (Path.names path) = .ok location :=
    leads
  simp [isDirectory, resolve, followed, there, found, Entry.isDirectory]

/-- Setting permission bits changes at most the entry that the path leads to. -/
theorem leads_of_setMode {mode : Nat} (h : disk.setMode files path mode = .ok files') :
    ∃ location, files'.Leads path location ∧ Grows files files' ∧
      ∀ other, other ≠ location → files'.lookup other = files.lookup other := by
  obtain ⟨location, entry, resolved, ⟨-, rfl⟩ | ⟨content, old, rfl, rfl⟩⟩ := setMode_eq_ok h
  · exact ⟨location, (resolve_eq_ok resolved).1, Grows.refl _, fun _ _ => rfl⟩
  · obtain ⟨walked, found⟩ := resolve_eq_ok resolved
    have inside : location ≠ [] := by
      rintro rfl
      cases found
    have grows : Grows files (files.set location (.file content mode)) :=
      grows_set inside (by simp [found])
    refine ⟨location, grows.leads walked, grows, ?_⟩
    intro other differs
    rw [lookup_set files inside, if_neg differs]

/-! ### Files in a directory -/

/-- A file name leads on to that name in the location of the directory. -/
theorem leads_join_iff {directory name : String} (plain : IsFileName name) :
    files.Leads (Path.join directory name) location ↔
      ∃ here, files.Leads directory here ∧ files.step here name = .ok location := by
  unfold Leads
  rw [Path.isAbsolute_join plain.relative, plain.names_join, walk_append]
  cases files.walk (files.start (Path.isAbsolute directory)) (Path.names directory) with
  | error fault => simp
  | ok here =>
      simp only [walk, Except.ok.injEq, exists_eq_left']
      cases files.step here name with
      | error fault => simp
      | ok there => simp

theorem location_of_leads_join {directory name : String} (plain : IsFileName name)
    (leads : files.Leads (Path.join directory name) location) :
    ∃ here, files.Leads directory here ∧ location = here ++ [name] := by
  obtain ⟨here, leads, stepped⟩ := (leads_join_iff plain).mp leads
  refine ⟨here, leads, ?_⟩
  rw [enter_of_step stepped, enter, if_neg plain.noDot, if_neg plain.noDots]

/-- What is passed on the way to a name in a directory is that name, or passed on the way to the
directory. -/
theorem onTheWay_join {directory name : String} (plain : IsFileName name)
    (passed : files.OnTheWay (Path.join directory name) location) :
    files.OnTheWay directory location ∨ files.Leads (Path.join directory name) location := by
  obtain ⟨names, first, walked⟩ := passed
  rw [plain.names_join] at first
  rcases List.prefix_concat_iff.mp first with whole | part
  · refine .inr ?_
    rw [whole, ← plain.names_join] at walked
    exact walked
  · refine .inl ⟨names, part, ?_⟩
    rw [Path.isAbsolute_join plain.relative] at walked
    exact walked

/-! ### Directories that are made -/

/-- The directories that contain a path are named by its first names; all are given last name
first. -/
theorem suffix_of_mem_parents {names parent : List String} (mem : parent ∈ Path.parents names) :
    parent <:+ names := by
  induction names with
  | nil => cases mem
  | cons name above ih =>
      unfold Path.parents at mem
      split at mem
      · exact (ih mem).trans (List.suffix_cons _ _)
      · rcases List.mem_cons.mp mem with rfl | mem
        · exact (List.dropWhile_suffix _).trans (List.suffix_cons _ _)
        · exact (ih mem).trans (List.suffix_cons _ _)

/-- Nothing has changed but that directories were made where some of the names lead, from the
first one on, and where nothing was before. -/
structure MadeAlong (absolute : Bool) (names : List String) (files files' : Files) : Prop extends
    Grows files files' where
  entries : ∀ location, files'.lookup location = files.lookup location ∨
    files.lookup location = none ∧ files'.lookup location = some .directory ∧
      ∃ first, first <+: names ∧ files'.walk (files'.start absolute) first = .ok location

section MadeAlong

variable {absolute : Bool} {names : List String}

theorem MadeAlong.refl (files : Files) : MadeAlong absolute names files files where
  toGrows := Grows.refl files
  entries _ := .inl rfl

theorem MadeAlong.trans {later : Files} (first : MadeAlong absolute names files files')
    (second : MadeAlong absolute names files' later) : MadeAlong absolute names files later where
  toGrows := first.toGrows.trans second.toGrows
  entries := by
    intro location
    rcases second.entries location with same | ⟨free, made, way⟩
    · rw [same]
      rcases first.entries location with unchanged | ⟨free, made, part, along, walked⟩
      · exact .inl unchanged
      · refine .inr ⟨free, made, part, along, ?_⟩
        rw [second.toGrows.start]
        exact second.toGrows.walk walked
    · rcases first.entries location with unchanged | ⟨-, there, -⟩
      · exact .inr ⟨unchanged ▸ free, made, way⟩
      · rw [there] at free
        cases free

theorem madeAlong_ensureDirectory {part : List String} (along : part <+: names)
    (h : disk.ensureDirectory files absolute part = .ok files') :
    MadeAlong absolute names files files' := by
  rcases ensureDirectory_eq_ok h with ⟨-, rfl⟩ | ⟨place, target, free, rfl⟩
  · exact MadeAlong.refl _
  · have inside := (getLast?_of_target target).2
    have grows : Grows files (files.set place .directory) := grows_set inside (by simp [free])
    refine ⟨grows, ?_⟩
    intro location
    rw [lookup_set files inside]
    by_cases here : location = place
    · rw [if_pos here, here]
      exact .inr ⟨free, rfl, part, along, walk_of_target (grows.target target)⟩
    · rw [if_neg here]
      exact .inl rfl

/-- The induction is on the directories around the one to be made, as the recursion is; they are
all named by first names. -/
theorem madeAlong_makeThrough (disk : Disk) (files : Files) {part : List String}
    {parents : List (List String)} (along : part.reverse <+: names)
    (around : ∀ parent ∈ parents, parent.reverse <+: names) :
    MadeAlong absolute names files (disk.makeThrough files absolute part parents).2 := by
  induction parents generalizing part with
  | nil =>
      unfold Disk.makeThrough
      split
      · rename_i made
        exact madeAlong_ensureDirectory along made
      · exact MadeAlong.refl _
  | cons parent above ih =>
      obtain ⟨near, far⟩ := List.forall_mem_cons.mp around
      unfold Disk.makeThrough
      split
      · rename_i made
        exact madeAlong_ensureDirectory along made
      · split
        · have before := ih near far
          simp only
          split
          · exact before
          · split
            · rename_i made
              exact before.trans (madeAlong_ensureDirectory along made)
            · exact before
        · exact MadeAlong.refl _

end MadeAlong

/-- **Making a directory** with those that contain it changes nothing but that directories are
made on the way of its path, where nothing was. This is so also when it fails half way. -/
theorem madeAlong_createAll (disk : Disk) (files : Files) (path : String) :
    MadeAlong (Path.isAbsolute path) (Path.names path) files (disk.createAll files path).2 := by
  unfold Disk.createAll
  split
  · exact MadeAlong.refl _
  · split
    · exact MadeAlong.refl _
    · refine madeAlong_makeThrough disk files ?_ ?_
      · simp
      · intro parent mem
        rw [← List.reverse_reverse (Path.names path), List.reverse_prefix]
        exact suffix_of_mem_parents mem

end Provision.Files
