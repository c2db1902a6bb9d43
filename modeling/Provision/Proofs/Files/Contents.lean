import Provision.Proofs.Files.Reach

/-!
The contents of files, apart from the directories around them and their permission bits.

Two file systems have the same contents if each file of one is a file of the other with the same
content (`SameContents`). Setting permission bits keeps all contents, and so does making
directories, whether or not it comes to its end (`keeps_createAll`): a directory that was made is
no file.
-/

namespace Provision

/-- What a file holds. A directory holds nothing. -/
def Entry.content? : Entry → Option ByteArray
  | directory => none
  | file content _ => some content

namespace Files

variable {disk : Disk} {files files' : Files}

def contentAt (files : Files) (location : Location) : Option ByteArray :=
  (files.lookup location).bind Entry.content?

/-- The same files are there, with the same contents. -/
def SameContents (files files' : Files) : Prop :=
  ∀ location, files'.contentAt location = files.contentAt location

theorem contentAt_eq_some_iff {location : Location} {content : ByteArray} :
    files.contentAt location = some content ↔
      ∃ mode, files.lookup location = some (.file content mode) := by
  unfold contentAt
  cases files.lookup location with
  | none => simp
  | some entry =>
      cases entry with
      | directory => simp [Entry.content?]
      | file other mode => simp [Entry.content?]

theorem contentAt_set (files : Files) {location : Location} (inside : location ≠ [])
    (entry : Entry) (other : Location) :
    (files.set location entry).contentAt other
      = if other = location then entry.content? else files.contentAt other := by
  unfold contentAt
  rw [lookup_set files inside]
  split <;> rfl

theorem contentAt_congr {location : Location}
    (same : files'.lookup location = files.lookup location) :
    files'.contentAt location = files.contentAt location := by
  unfold contentAt
  rw [same]

/-- What a path holds depends on the content at its location only, as long as the directories on
the way are there. -/
theorem Holds.of_contentAt {path : String} {location : Location} {content : ByteArray}
    (h : Holds files path location content) (grows : Grows files files')
    (same : files'.contentAt location = files.contentAt location) :
    Holds files' path location content where
  followed := h.followed
  noSlash := h.noSlash
  target := grows.target h.target
  entry := by
    rw [← contentAt_eq_some_iff, same, contentAt_eq_some_iff]
    exact h.entry

/-- A content has changed at most where the path leads, and there it is the new one. -/
theorem Replaces.contents {path : String} {location : Location} {content : ByteArray}
    (replaces : Replaces path location content files files') (other : Location) :
    files'.contentAt other = files.contentAt other ∨ files'.Holds path other content := by
  by_cases here : other = location
  · exact .inr (here ▸ replaces.held)
  · exact .inl (contentAt_congr (replaces.others other here))

/-! ### Operations that keep contents -/

/-- There may be more directories, and files may have other permission bits, but they are the
same files with the same contents. -/
structure Keeps (files files' : Files) : Prop extends Grows files files' where
  contents : SameContents files files'

theorem Keeps.refl (files : Files) : Keeps files files where
  toGrows := Grows.refl files
  contents _ := rfl

theorem Keeps.trans {later : Files} (first : Keeps files files') (second : Keeps files' later) :
    Keeps files later where
  toGrows := first.toGrows.trans second.toGrows
  contents location := (second.contents location).trans (first.contents location)

theorem keeps_set {location : Location} {entry : Entry} (inside : location ≠ [])
    (free : files.lookup location ≠ some .directory)
    (same : entry.content? = files.contentAt location) :
    Keeps files (files.set location entry) where
  toGrows := grows_set inside free
  contents := by
    intro other
    rw [contentAt_set files inside]
    split
    · rename_i here
      rw [here, same]
    · rfl

theorem keeps_setMode {path : String} {mode : Nat}
    (h : disk.setMode files path mode = .ok files') : Keeps files files' := by
  obtain ⟨location, entry, resolved, ⟨-, rfl⟩ | ⟨content, old, rfl, rfl⟩⟩ := setMode_eq_ok h
  · exact Keeps.refl _
  · obtain ⟨-, found⟩ := resolve_eq_ok resolved
    have inside : location ≠ [] := by
      rintro rfl
      cases found
    refine keeps_set inside ?_ ?_
    · rw [found]
      nofun
    · exact (contentAt_eq_some_iff.mpr ⟨old, found⟩).symm

/-- A directory that was made is no file. -/
theorem MadeAlong.keeps {absolute : Bool} {names : List String}
    (made : MadeAlong absolute names files files') : Keeps files files' where
  toGrows := made.toGrows
  contents := by
    intro location
    rcases made.entries location with same | ⟨free, there, -⟩
    · exact contentAt_congr same
    · unfold contentAt
      rw [free, there]
      rfl

/-- **Making a directory keeps all contents**, also when it fails half way. -/
theorem keeps_createAll (disk : Disk) (files : Files) (path : String) :
    Keeps files (disk.createAll files path).2 :=
  (madeAlong_createAll disk files path).keeps

end Files

end Provision
