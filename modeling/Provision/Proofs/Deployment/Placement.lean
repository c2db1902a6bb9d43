import Provision.Proofs.Deployment.Artifacts
import Provision.Proofs.Files.Reach

/-!
Where artifacts are put.

`Artifacts.texts` are the files that artifacts are written to, by name and content. Writing them
changes nothing but these files in the location of the output directory, whether or not it comes
to its end, and makes directories on the way there, where nothing was: `entries_writeTo`. This is
so on any disk, since a write that is broken off leaves something in its own file only. When
writing does come to its end, each of these files holds its text, and no other content has
changed: `contentAt_of_writeTo`.
-/

namespace Provision.Artifacts

variable {artifacts : Artifacts} {disk : Disk} {catalog : Catalog} {files later : Files}
  {steps : List Step}

/-! ### What steps change -/

/-- The path of the file that a step works on. -/
def Step.path? : Step → Option String
  | write path _ => some path
  | restrict path => some path
  | _ => none

/-- Nothing has changed but the files that steps work on, and that directories were made on the
way to those that steps make, where nothing was. -/
structure Reached (steps : List Step) (files later : Files) : Prop extends
    Files.Grows files later where
  entries : ∀ location, later.lookup location = files.lookup location ∨
    (files.lookup location = none ∧ later.lookup location = some .directory ∧
      ∃ path, .makeDirectory path ∈ steps ∧ later.OnTheWay path location) ∨
    ∃ step ∈ steps, ∃ path, step.path? = some path ∧ later.Leads path location

theorem Reached.refl (files : Files) : Reached steps files files where
  toGrows := Files.Grows.refl files
  entries _ := .inl rfl

theorem Reached.append {more : List Step} {between : Files} (first : Reached steps files between)
    (second : Reached more between later) : Reached (steps ++ more) files later where
  toGrows := first.toGrows.trans second.toGrows
  entries := by
    intro location
    rcases second.entries location with same | ⟨free, made, path, mem, way⟩
        | ⟨step, mem, path, works, leads⟩
    · rw [same]
      rcases first.entries location with unchanged | ⟨free, made, path, mem, way⟩
          | ⟨step, mem, path, works, leads⟩
      · exact .inl unchanged
      · exact .inr (.inl ⟨free, made, path, List.mem_append_left _ mem,
          second.toGrows.onTheWay way⟩)
      · exact .inr (.inr ⟨step, List.mem_append_left _ mem, path, works,
          second.toGrows.leads leads⟩)
    · rcases first.entries location with unchanged | ⟨-, there, -⟩
          | ⟨step, mem', path', works, leads⟩
      · exact .inr (.inl ⟨unchanged ▸ free, made, path, List.mem_append_right _ mem, way⟩)
      · rw [there] at free
        cases free
      · exact .inr (.inr ⟨step, List.mem_append_left _ mem', path', works,
          second.toGrows.leads leads⟩)
    · exact .inr (.inr ⟨step, List.mem_append_right _ mem, path, works, leads⟩)

/-- A step that changes at most the entry to which the path of its file leads. -/
theorem Step.reached_of_others {step : Step} {path : String} {location : Location}
    (works : step.path? = some path) (leads : later.Leads path location)
    (grows : Files.Grows files later)
    (others : ∀ other, other ≠ location → later.lookup other = files.lookup other) :
    Reached [step] files later where
  toGrows := grows
  entries := by
    intro other
    by_cases here : other = location
    · exact .inr (.inr ⟨step, List.mem_singleton_self _, path, works, here ▸ leads⟩)
    · exact .inl (others other here)

/-- One step, whether or not it succeeds. -/
theorem Step.reached (disk : Disk) (catalog : Catalog) (files : Files) (step : Step) :
    Reached [step] files (step.perform disk catalog files).2 := by
  cases step with
  | makeDirectory path =>
      have made := Files.madeAlong_createAll disk files path
      have done : ((makeDirectory path).perform disk catalog files).2
          = (disk.createAll files path).2 := by
        simp only [perform]
        split <;> simp only [*]
      rw [done]
      refine ⟨made.toGrows, ?_⟩
      intro location
      rcases made.entries location with same | ⟨free, there, way⟩
      · exact .inl same
      · exact .inr (.inl ⟨free, there, path, List.mem_singleton_self _, way⟩)
  | write path text =>
      simp only [perform]
      split
      · rename_i later written
        obtain ⟨location, replaces⟩ := Files.replaces_of_writeFile written
        exact reached_of_others rfl replaces.held.leads replaces.toGrows replaces.others
      · rename_i later fault failed
        rcases Files.eq_or_replaces_of_writeFile failed with rfl | ⟨location, left, replaces⟩
        · exact Reached.refl _
        · exact reached_of_others rfl replaces.held.leads replaces.toGrows replaces.others
  | restrict path =>
      simp only [perform]
      split
      · rename_i later restricted
        obtain ⟨location, leads, grows, others⟩ := Files.leads_of_setMode restricted
        exact reached_of_others rfl leads grows others
      · exact Reached.refl _
  | refuse path => exact Reached.refl _

/-- Any number of steps, up to the first that fails. -/
theorem performAll_reached (disk : Disk) (catalog : Catalog) (files : Files)
    (steps : List Step) : Reached steps files (performAll disk catalog files steps).2 := by
  induction steps generalizing files with
  | nil => exact Reached.refl _
  | cons step steps ih =>
      have first := Step.reached disk catalog files step
      unfold performAll
      split
      · rename_i between done
        rw [done] at first
        exact first.append (ih between)
      · rename_i stopped
        rw [stopped] at first
        exact first.append (Reached.refl _)

/-! ### What writing artifacts changes -/

/-- The only directory to make is the output directory. -/
theorem eq_of_makeDirectory_mem_steps {path : String}
    (mem : .makeDirectory path ∈ artifacts.steps) : path = artifacts.outputDirectory := by
  rw [steps_eq_writes] at mem
  rcases List.mem_cons.mp mem with same | rest
  · exact Step.makeDirectory.inj same
  · rcases List.mem_append.mp rest with write | close
    · obtain ⟨file, -, other⟩ := List.mem_map.mp write
      cases other
    · rcases mem_closing close with other | ⟨file, -, other⟩ <;> cases other

/-- The only files to work on are those of the artifacts. -/
theorem exists_of_mem_steps {step : Step} {path : String} (mem : step ∈ artifacts.steps)
    (works : step.path? = some path) : ∃ file ∈ artifacts.texts, path = artifacts.path file.1 := by
  rw [steps_eq_writes] at mem
  rcases List.mem_cons.mp mem with rfl | rest
  · cases works
  · rcases List.mem_append.mp rest with write | close
    · obtain ⟨file, listed, rfl⟩ := List.mem_map.mp write
      exact ⟨file, listed, (Option.some.inj works).symm⟩
    · rcases mem_closing close with rfl | ⟨file, listed, rfl⟩
      · cases works
      · exact ⟨file, listed, (Option.some.inj works).symm⟩

/-- **Writing artifacts** changes their files in the location of the output directory, and makes
directories on the way there where nothing was. Every other entry stays as it was, also when
writing fails half way. -/
theorem entries_writeTo (artifacts : Artifacts) (disk : Disk) (catalog : Catalog) (files : Files)
    (location : Location) :
    let later := (artifacts.writeTo disk catalog files).2
    later.lookup location = files.lookup location ∨
      (files.lookup location = none ∧ later.lookup location = some .directory ∧
        later.OnTheWay artifacts.outputDirectory location) ∨
      ∃ here, later.Leads artifacts.outputDirectory here ∧
        ∃ file ∈ artifacts.texts, location = here ++ [file.1] := by
  intro later
  have reached : Reached artifacts.steps files later := performAll_reached disk catalog files _
  rcases reached.entries location with same | ⟨free, made, path, mem, way⟩
      | ⟨step, mem, path, works, leads⟩
  · exact .inl same
  · rw [eq_of_makeDirectory_mem_steps mem] at way
    exact .inr (.inl ⟨free, made, way⟩)
  · obtain ⟨file, listed, rfl⟩ := exists_of_mem_steps mem works
    obtain ⟨here, leads, same⟩ :=
      Files.location_of_leads_join (isFileName_of_mem_texts listed) leads
    exact .inr (.inr ⟨here, leads, file, listed, same⟩)

/-- **Artifacts that were written** are in the location of the output directory, and hold their
texts. No other content has changed. -/
theorem contentAt_of_writeTo (written : artifacts.writeTo disk catalog files = (.ok (), later)) :
    ∃ here, later.Leads artifacts.outputDirectory here ∧
      (∀ file ∈ artifacts.texts,
        later.Holds (artifacts.path file.1) (here ++ [file.1]) file.2.toUTF8) ∧
      ∀ location, (∀ file ∈ artifacts.texts, location ≠ here ++ [file.1]) →
        later.contentAt location = files.contentAt location := by
  have held : ∀ file ∈ artifacts.texts, ∃ here, later.Leads artifacts.outputDirectory here ∧
      later.Holds (artifacts.path file.1) (here ++ [file.1]) file.2.toUTF8 := by
    intro file mem
    obtain ⟨location, held⟩ :=
      holds_of_performAll artifacts.distinct_steps written (write_mem_steps mem)
    obtain ⟨here, leads, rfl⟩ :=
      Files.location_of_leads_join (isFileName_of_mem_texts mem) held.leads
    exact ⟨here, leads, held⟩
  obtain ⟨here, leads, -⟩ := held _ artifacts.parameters_mem_texts
  refine ⟨here, leads, ?_, ?_⟩
  · intro file mem
    obtain ⟨there, leads', held⟩ := held file mem
    rwa [leads.unique leads'] at held
  · intro location other
    have entries := entries_writeTo artifacts disk catalog files location
    rw [written] at entries
    unfold Files.contentAt
    rcases entries with same | ⟨free, made, -⟩ | ⟨there, leads', file, mem, same⟩
    · rw [same]
    · rw [free, made]
      rfl
    · rw [leads.unique leads'] at same
      exact absurd same (other file mem)

end Provision.Artifacts
