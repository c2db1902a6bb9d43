import Provision.Files.Disk

/-!
What writing leaves for later operations.

No operation turns a directory into anything else (`Grows`), so a path that was once
followed is followed to the same location from then on (`Grows.walk`, `Grows.target`), and
a directory that was made with all that contain it need not be made again, on whatever disk
(`createAll_again`).

`Holds` says that a path leads to a file with some content in such a way that it can be
read and written. A successful write establishes it (`replaces_of_writeFile`); then the content
is what is read (`Holds.readText`), and writing it once more changes nothing at all
(`Holds.writeText`). A write that fails changes nothing, or its file holds what the disk has
left there (`eq_or_replaces_of_writeFile`).
-/

namespace Provision.Files

variable {disk : Disk} {files files' : Files}

/-- Every directory of one file system is a directory of another, which is seen from the
same one. -/
structure Grows (files files' : Files) : Prop where
  home : files'.home = files.home
  directory : ∀ {location}, files.lookup location = some .directory →
    files'.lookup location = some .directory

theorem Grows.refl (files : Files) : Grows files files := ⟨rfl, id⟩

theorem Grows.trans {later : Files} (first : Grows files files') (second : Grows files' later) :
    Grows files later where
  home := second.home.trans first.home
  directory found := second.directory (first.directory found)

/-- An entry can be put wherever there was no directory. -/
theorem grows_set {location : Location} {entry : Entry} (inside : location ≠ [])
    (free : files.lookup location ≠ some .directory) :
    Grows files (files.set location entry) where
  home := rfl
  directory := by
    intro other found
    rw [lookup_set files inside]
    by_cases same : other = location
    · rw [same] at found
      exact absurd found free
    · rw [if_neg same]
      exact found

/-- Putting an entry where it is already changes nothing. -/
theorem set_eq_self {location : Location} {entry : Entry} (inside : location ≠ [])
    (found : files.lookup location = some entry) : files.set location entry = files := by
  have listed : ∀ entries, find location entries = some entry →
      put location entry entries = entries := by
    intro entries found
    induction entries with
    | nil => cases found
    | cons first rest ih =>
        obtain ⟨place, old⟩ := first
        by_cases same : place = location
        · simp only [find, if_pos same, Option.some.injEq] at found
          simp [put, same, found]
        · simp only [find, if_neg same] at found
          simp [put, same, ih found]
  unfold lookup at found
  rw [if_neg inside] at found
  unfold set
  rw [listed _ found]

/-! ### Following names -/

theorem walk_append (files : Files) (here : Location) (names more : List String) :
    files.walk here (names ++ more)
      = match files.walk here names with
        | .error fault => .error fault
        | .ok there => files.walk there more := by
  induction names generalizing here with
  | nil => rfl
  | cons name names ih =>
      simp only [List.cons_append, walk]
      cases files.step here name with
      | error fault => rfl
      | ok there => exact ih there

theorem Grows.step (grows : Grows files files') {here there : Location} {name : String}
    (h : files.step here name = .ok there) : files'.step here name = .ok there := by
  unfold Files.step at h ⊢
  split at h
  · cases h
  · cases h
  · rename_i found
    rw [grows.directory found]
    exact h

theorem Grows.walk (grows : Grows files files') {here there : Location} {names : List String}
    (h : files.walk here names = .ok there) : files'.walk here names = .ok there := by
  induction names generalizing here with
  | nil => exact h
  | cons name names ih =>
      simp only [Files.walk] at h ⊢
      cases next : files.step here name with
      | error fault => simp only [next, reduceCtorEq] at h
      | ok place =>
          simp only [next] at h
          simp only [grows.step next]
          exact ih h

theorem Grows.start (grows : Grows files files') (absolute : Bool) :
    files'.start absolute = files.start absolute := by
  unfold Files.start
  rw [grows.home]

/-- The location for a new entry is named by the last name, in a directory that the names
before it lead to. -/
theorem target_eq_ok_iff {special : FileFault} {absolute : Bool} {names : List String}
    {location : Location} :
    files.target special absolute names = .ok location ↔
      ∃ parent last, names.getLast? = some last ∧ last ≠ "." ∧ last ≠ ".." ∧
        files.walk (files.start absolute) names.dropLast = .ok parent ∧
          files.step parent last = .ok location := by
  unfold target container
  cases names.getLast? with
  | none => simp
  | some last =>
      cases files.walk (files.start absolute) names.dropLast with
      | error fault => simp
      | ok parent =>
          cases found : files.lookup parent with
          | none => simp [Files.step, found]
          | some entry =>
              cases entry with
              | file content mode => simp [Files.step, found]
              | directory =>
                  cases stepped : files.step parent last with
                  | error fault => simp [found, stepped]
                  | ok place =>
                      by_cases dots : last = "." ∨ last = ".."
                      · have refused : ¬ (last ≠ "." ∧ last ≠ "..") := by
                          rintro ⟨noDot, noDots⟩
                          exact dots.elim noDot noDots
                        simp only [found, stepped, if_pos dots, reduceCtorEq, false_iff]
                        rintro ⟨_, _, named, noDot, noDots, -⟩
                        cases named
                        exact refused ⟨noDot, noDots⟩
                      · obtain ⟨noDot, noDots⟩ := not_or.mp dots
                        simp [found, stepped, noDot, noDots]

theorem Grows.target (grows : Grows files files') {special : FileFault} {absolute : Bool}
    {names : List String} {location : Location}
    (h : files.target special absolute names = .ok location) :
    files'.target special absolute names = .ok location := by
  obtain ⟨parent, last, named, noDot, noDots, walked, stepped⟩ := target_eq_ok_iff.mp h
  refine target_eq_ok_iff.mpr ⟨parent, last, named, noDot, noDots, ?_, grows.step stepped⟩
  rw [grows.start]
  exact grows.walk walked

theorem enter_of_step {here there : Location} {name : String}
    (h : files.step here name = .ok there) : there = enter here name := by
  unfold Files.step at h
  split at h
  · cases h
  · cases h
  · split at h
    · cases h
    · cases h
      rfl

theorem directory_of_step {here there : Location} {name : String}
    (h : files.step here name = .ok there) : files.lookup here = some .directory := by
  unfold Files.step at h
  split at h
  · cases h
  · cases h
  · assumption

/-- The location for a new entry ends in the last name. -/
theorem getLast?_of_target {special : FileFault} {absolute : Bool} {names : List String}
    {location : Location} (h : files.target special absolute names = .ok location) :
    location.getLast? = names.getLast? ∧ location ≠ [] := by
  obtain ⟨parent, last, named, noDot, noDots, -, stepped⟩ := target_eq_ok_iff.mp h
  have entered : location = parent ++ [last] := by
    rw [enter_of_step stepped, enter, if_neg noDot, if_neg noDots]
  rw [named, entered]
  constructor
  · exact List.getLast?_concat
  · simp

/-- It is where all the names lead to. -/
theorem walk_of_target {special : FileFault} {absolute : Bool} {names : List String}
    {location : Location} (h : files.target special absolute names = .ok location) :
    files.walk (files.start absolute) names = .ok location := by
  obtain ⟨parent, last, named, -, -, walked, stepped⟩ := target_eq_ok_iff.mp h
  obtain ⟨front, rfl⟩ := List.getLast?_eq_some_iff.mp named
  rw [List.dropLast_concat] at walked
  simp only [walk_append, walked, walk, stepped]

/-- What a path was resolved to is an entry that its names lead to. -/
theorem resolve_eq_ok {path : String} {location : Location} {entry : Entry}
    (h : files.resolve path = .ok (location, entry)) :
    files.walk (files.start (Path.isAbsolute path)) (Path.names path) = .ok location ∧
      files.lookup location = some entry := by
  unfold resolve at h
  split at h
  · cases h
  · split at h
    · cases h
    · rename_i walked
      split at h
      · cases h
      · rename_i found
        split at h
        · cases h
        · cases h
          exact ⟨walked, found⟩

/-! ### Files that were written -/

/-- A path that leads to a file with this content, which can be read and written. -/
structure Holds (files : Files) (path : String) (location : Location) (content : ByteArray) :
    Prop where
  followed : refusal? path = none
  noSlash : Path.endsInSlash path = false
  target : files.target .isDirectory (Path.isAbsolute path) (Path.names path) = .ok location
  entry : ∃ mode, files.lookup location = some (.file content mode)

/-- A file is opened where none of the directories is. -/
theorem openFile_eq_ok {path : String} {location : Location} {mode : Nat}
    (h : files.openFile path = .ok (location, mode)) :
    refusal? path = none ∧ Path.endsInSlash path = false ∧
      files.target .isDirectory (Path.isAbsolute path) (Path.names path) = .ok location ∧
        files.lookup location ≠ some .directory := by
  unfold openFile at h
  split at h
  · cases h
  · rename_i followed
    simp only at h
    split at h
    · split at h <;> cases h
    · rename_i noSlash
      split at h
      · cases h
      · rename_i target
        split at h
        · cases h
        · rename_i found
          cases h
          exact ⟨followed, by simpa using noSlash, target, by simp [found]⟩
        · rename_i found
          cases h
          exact ⟨followed, by simpa using noSlash, target, by simp [found]⟩

/-- The file to which a path leads has this content now, and all other locations are as they
were. -/
structure Replaces (path : String) (location : Location) (content : ByteArray)
    (files files' : Files) : Prop extends Grows files files' where
  held : Holds files' path location content
  others : ∀ other, other ≠ location → files'.lookup other = files.lookup other

/-- What putting a content into an open file does. -/
theorem replaces_set_of_openFile {path : String} {location : Location} {mode : Nat}
    (opened : files.openFile path = .ok (location, mode)) (content : ByteArray) :
    Replaces path location content files (files.set location (.file content mode)) := by
  obtain ⟨followed, noSlash, target, free⟩ := openFile_eq_ok opened
  have inside := (getLast?_of_target target).2
  have grows : Grows files (files.set location (.file content mode)) := grows_set inside free
  refine ⟨grows, ⟨followed, noSlash, grows.target target, mode, ?_⟩, ?_⟩
  · rw [lookup_set files inside, if_pos rfl]
  · intro other differs
    rw [lookup_set files inside, if_neg differs]

/-- What one write does. -/
theorem replaces_of_writeFile {path : String} {content : ByteArray}
    (h : disk.writeFile files path content = (.ok (), files')) :
    ∃ location, Replaces path location content files files' := by
  unfold Disk.writeFile at h
  split at h
  · cases h
  · rename_i location mode opened
    split at h
    · cases h
      exact ⟨location, replaces_set_of_openFile opened content⟩
    · cases h
    · cases h

/-- What a write that fails does: nothing, or the path holds what the disk has left. -/
theorem eq_or_replaces_of_writeFile {path : String} {content : ByteArray} {fault : FileFault}
    (h : disk.writeFile files path content = (.error fault, files')) :
    files' = files ∨ ∃ location left, Replaces path location left files files' := by
  unfold Disk.writeFile at h
  split at h
  · cases h
    exact .inl rfl
  · rename_i location mode opened
    split at h
    · cases h
    · cases h
      exact .inl rfl
    · rename_i left broken
      cases h
      exact .inr ⟨location, left, replaces_set_of_openFile opened left⟩

theorem Holds.resolve {path : String} {location : Location} {content : ByteArray}
    (h : Holds files path location content) :
    ∃ mode, files.resolve path = .ok (location, .file content mode) := by
  obtain ⟨mode, found⟩ := h.entry
  refine ⟨mode, ?_⟩
  simp only [Files.resolve, h.followed, walk_of_target h.target, found, h.noSlash]
  rfl

/-- The bytes of a text are this text. -/
theorem fromUTF8?_toUTF8 (text : String) : String.fromUTF8? text.toUTF8 = some text :=
  dif_pos text.isValidUTF8

theorem readText_of_resolve {path text : String} {location : Location} {mode : Nat}
    (found : files.resolve path = .ok (location, .file text.toUTF8 mode)) :
    files.readText path = .ok text := by
  simp only [Files.readText, found, fromUTF8?_toUTF8]

/-- What was written is read. -/
theorem Holds.readText {path text : String} {location : Location}
    (h : Holds files path location text.toUTF8) : files.readText path = .ok text := by
  obtain ⟨mode, found⟩ := h.resolve
  exact readText_of_resolve found

/-- Writing what is there already changes nothing, the permission bits included. -/
theorem Holds.writeText {path text : String} {location : Location}
    (h : Holds files path location text.toUTF8) :
    Disk.reliable.writeText files path text = (.ok (), files) := by
  obtain ⟨mode, found⟩ := h.entry
  have same := set_eq_self (getLast?_of_target h.target).2 found
  have opened : files.openFile path = .ok (location, mode) := by
    simp only [openFile, h.followed, h.noSlash, h.target, found]
    rfl
  simp only [Disk.writeText, Disk.writeFile, Disk.reliable, opened, same]

/-- Permission bits are set for a file that is there; a directory keeps its own. -/
theorem setMode_eq_ok {path : String} {mode : Nat}
    (h : disk.setMode files path mode = .ok files') :
    ∃ location entry, files.resolve path = .ok (location, entry) ∧
      ((entry = .directory ∧ files' = files) ∨
        ∃ content old, entry = .file content old ∧
          files' = files.set location (.file content mode)) := by
  unfold Disk.setMode at h
  split at h
  · cases h
  · rename_i location entry resolved
    refine ⟨location, entry, resolved, ?_⟩
    split at h
    · cases h
    · split at h
      · cases h
        exact .inl ⟨rfl, rfl⟩
      · rename_i content old
        cases h
        exact .inr ⟨content, old, rfl, rfl⟩

/-- A file that is held is held under any permission bits that are set. -/
theorem Holds.eq_of_setMode {path : String} {location : Location} {content : ByteArray}
    (h : Holds files path location content) {mode : Nat}
    (done : disk.setMode files path mode = .ok files') :
    files' = files.set location (.file content mode) := by
  obtain ⟨old, found⟩ := h.resolve
  obtain ⟨there, entry, resolved, ⟨rfl, -⟩ | ⟨content', old', rfl, rfl⟩⟩ := setMode_eq_ok done
  · cases found.symm.trans resolved
  · cases found.symm.trans resolved
    rfl

/-! ### Directories that were made -/

theorem leadsToDirectory_iff {absolute : Bool} {names : List String} :
    files.leadsToDirectory absolute names = true ↔
      ∃ location, files.walk (files.start absolute) names = .ok location ∧
        files.lookup location = some .directory := by
  unfold leadsToDirectory
  cases files.walk (files.start absolute) names with
  | error fault => simp
  | ok location =>
      cases found : files.lookup location with
      | none => simp [found]
      | some entry => cases entry <;> simp [found, Entry.isDirectory]

theorem Grows.leadsToDirectory (grows : Grows files files') {absolute : Bool}
    {names : List String} (h : files.leadsToDirectory absolute names = true) :
    files'.leadsToDirectory absolute names = true := by
  obtain ⟨location, walked, found⟩ := leadsToDirectory_iff.mp h
  refine leadsToDirectory_iff.mpr ⟨location, ?_, grows.directory found⟩
  rw [grows.start]
  exact grows.walk walked

/-- A directory can be made only where the names lead to nothing. -/
theorem vacancy_eq_ok {absolute : Bool} {names : List String} {location : Location}
    (h : files.vacancy absolute names = .ok location) :
    files.target .alreadyThere absolute names = .ok location ∧
      files.lookup location = none := by
  unfold vacancy at h
  split at h
  · cases h
  · rename_i target
    split at h
    · cases h
    · rename_i found
      cases h
      exact ⟨target, found⟩

/-- Where a directory is ensured, it was there already, or it is made where there was nothing. -/
theorem ensureDirectory_eq_ok {absolute : Bool} {names : List String}
    (h : disk.ensureDirectory files absolute names = .ok files') :
    (files.leadsToDirectory absolute names = true ∧ files' = files) ∨
      ∃ location, files.target .alreadyThere absolute names = .ok location ∧
        files.lookup location = none ∧ files' = files.set location .directory := by
  unfold Disk.ensureDirectory at h
  split at h
  · rename_i location vacant
    obtain ⟨target, free⟩ := vacancy_eq_ok vacant
    split at h
    · cases h
    · cases h
      exact .inr ⟨location, target, free, rfl⟩
  · split at h
    · rename_i there
      cases h
      exact .inl ⟨there, rfl⟩
    · cases h

theorem leadsToDirectory_of_ensureDirectory {absolute : Bool} {names : List String}
    (h : disk.ensureDirectory files absolute names = .ok files') :
    files'.leadsToDirectory absolute names = true := by
  rcases ensureDirectory_eq_ok h with ⟨there, rfl⟩ | ⟨location, target, free, rfl⟩
  · exact there
  · have inside := (getLast?_of_target target).2
    have grows : Grows files (files.set location .directory) :=
      grows_set inside (by simp [free])
    refine leadsToDirectory_iff.mpr ⟨location, walk_of_target (grows.target target), ?_⟩
    rw [lookup_set files inside, if_pos rfl]

/-- A directory that is there is not made again. -/
theorem ensureDirectory_of_leadsToDirectory {absolute : Bool} {names : List String}
    (h : files.leadsToDirectory absolute names = true) :
    disk.ensureDirectory files absolute names = .ok files := by
  unfold Disk.ensureDirectory
  split
  · rename_i vacant
    obtain ⟨target, free⟩ := vacancy_eq_ok vacant
    obtain ⟨there, walked, found⟩ := leadsToDirectory_iff.mp h
    rw [walk_of_target target] at walked
    cases walked
    rw [free] at found
    cases found
  · rw [if_pos h]

theorem leadsToDirectory_of_makeThrough {absolute : Bool} {names : List String}
    {parents : List (List String)}
    (h : disk.makeThrough files absolute names parents = (.ok (), files')) :
    files'.leadsToDirectory absolute names.reverse = true := by
  cases parents with
  | nil =>
      unfold Disk.makeThrough at h
      split at h
      · rename_i made
        cases h
        exact leadsToDirectory_of_ensureDirectory made
      · cases h
  | cons parent above =>
      unfold Disk.makeThrough at h
      split at h
      · rename_i made
        cases h
        exact leadsToDirectory_of_ensureDirectory made
      · split at h
        · simp only at h
          split at h
          · cases h
          · split at h
            · rename_i made
              cases h
              exact leadsToDirectory_of_ensureDirectory made
            · cases h
        · cases h

theorem makeThrough_of_leadsToDirectory {absolute : Bool} {names : List String}
    (h : files.leadsToDirectory absolute names.reverse = true) (parents : List (List String)) :
    disk.makeThrough files absolute names parents = (.ok (), files) := by
  have ensured := @ensureDirectory_of_leadsToDirectory disk _ _ _ h
  cases parents <;> simp only [Disk.makeThrough, ensured]

/-- **A directory need not be made twice**, on whatever disk. -/
theorem createAll_again {path : String} (made : disk.createAll files path = (.ok (), files'))
    {later : Files} (grows : Grows files' later) (other : Disk) :
    other.createAll later path = (.ok (), later) := by
  by_cases empty : path.isEmpty
  · unfold Disk.createAll
    rw [if_pos empty]
  · unfold Disk.createAll at made ⊢
    rw [if_neg empty] at made ⊢
    cases refused : refusal? path with
    | some fault =>
        rw [refused] at made
        cases made
    | none =>
        simp only [refused] at made
        have there := grows.leadsToDirectory (leadsToDirectory_of_makeThrough made)
        exact makeThrough_of_leadsToDirectory there _

/-- A directory that could be made has a path that can be followed. -/
theorem refusal?_of_createAll {path : String}
    (made : disk.createAll files path = (.ok (), files')) (named : path ≠ "") :
    refusal? path = none := by
  unfold Disk.createAll at made
  rw [if_neg (by simpa using named)] at made
  split at made
  · cases made
  · assumption

end Provision.Files
