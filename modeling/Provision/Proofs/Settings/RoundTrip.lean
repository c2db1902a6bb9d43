import Provision.CommandLine.Commands
import Provision.Proofs.Deployment.Pipeline
import Provision.Proofs.Files.Operations
import Provision.Proofs.Toml.Sections

/-!
Printed settings load back.

The settings in use are printed as a TOML document that states every one of them, whether or not
the file that they came from did.

* `parse_text` — the printed text, with or without an empty line behind it, stands for the same
  settings, whatever characters are in them, if nothing is wrong with them.
* `load_eq_ok_iff` — settings that were loaded from a file are such settings.
* `respond_saved` — so the settings that a command line prints can be saved as they are, in
  whatever file: they are loaded from there unchanged, and printed as the same text again.
-/

namespace Provision

open Toml (Document Entry)

namespace Settings

/-! ### The document -/

/-- The document in which all settings are stated. -/
def document (settings : Settings) : Document where
  entries := [.ofString "name" settings.name, .ofString "version" settings.version]
  sections :=
    [ ("output", [.ofString "root" settings.output.root]),
      ("generator",
        [ .ofTruth "classic_mode" settings.generator.classic,
          .ofTruth "pretty_print" settings.generator.prettyPrint,
          .ofTruth "parameters_only" settings.generator.parametersOnly ]),
      ("i18n",
        .ofString "language" settings.language.language
          :: settings.language.directory.toList.map (.ofString "translations_dir")),
      ("logging",
        [ .ofString "level" settings.logging.level,
          .ofString "format" settings.logging.format ]) ]

theorem sound_document (settings : Settings) : settings.document.Sound where
  nonempty := List.cons_ne_nil _ _
  entries := by
    simp only [document, List.forall_mem_cons]
    exact ⟨Entry.sound_ofString rfl _, Entry.sound_ofString rfl _, List.forall_mem_nil _⟩
  titles := by
    simp only [document, List.forall_mem_cons]
    exact ⟨rfl, rfl, rfl, rfl, List.forall_mem_nil _⟩
  sections := by
    simp only [document, List.forall_mem_cons, List.forall_mem_map]
    refine ⟨⟨Entry.sound_ofString rfl _, List.forall_mem_nil _⟩,
      ⟨Entry.sound_ofTruth rfl _, Entry.sound_ofTruth rfl _, Entry.sound_ofTruth rfl _,
        List.forall_mem_nil _⟩,
      ⟨Entry.sound_ofString rfl _, ?_⟩,
      ⟨Entry.sound_ofString rfl _, Entry.sound_ofString rfl _, List.forall_mem_nil _⟩,
      List.forall_mem_nil _⟩
    intro directory _
    exact Entry.sound_ofString rfl directory
  distinct := by
    show ["name", "version", "output", "generator", "i18n", "logging"].Nodup
    decide
  inside := by
    simp only [document, List.forall_mem_cons]
    refine ⟨?_, ?_, ?_, ?_, List.forall_mem_nil _⟩
    · exact List.nodup_singleton _
    · show ["classic_mode", "pretty_print", "parameters_only"].Nodup
      decide
    · cases settings.language.directory with
      | none => exact List.nodup_singleton _
      | some directory =>
          show ["language", "translations_dir"].Nodup
          decide
    · show ["level", "format"].Nodup
      decide

theorem toList_textLine (name value : String) :
    (textLine name value).toList = (Entry.ofString name value).line.1 := by
  simp [textLine, settingLine, Entry.line, Entry.ofString, Toml.Reader.memberLine]

theorem toList_truthLine (name : String) (value : Bool) :
    (truthLine name value).toList = (Entry.ofTruth name value).line.1 := by
  simp [truthLine, settingLine, Entry.line, Entry.ofTruth, Toml.Reader.memberLine]

theorem toList_sectionLine (name : String) :
    (sectionLine name).toList = Toml.Reader.sectionStart name := by
  simp [sectionLine, Toml.Reader.sectionStart]

/-- It is what is printed. -/
theorem toList_text (settings : Settings) :
    settings.text.toList = settings.document.lines.flatMap Prod.fst := by
  have directory : (settings.language.directory.elim "" (textLine "translations_dir")).toList
      = (settings.language.directory.toList.map
          (Entry.line ∘ Entry.ofString "translations_dir")).flatMap Prod.fst := by
    cases settings.language.directory with
    | none => rfl
    | some directory => simp [toList_textLine]
  simp only [text, String.toList_append, toList_textLine, toList_truthLine, toList_sectionLine,
    directory, document, Document.lines, Document.sectionLines, List.map_cons, List.map_nil,
    List.map_map, List.flatMap_cons, List.flatMap_nil, List.flatMap_append, List.append_assoc,
    List.cons_append, List.nil_append, List.append_nil]

/-- The members of the document are decoded as the settings that they state. -/
theorem decode_members (settings : Settings) :
    decode (.table .header settings.document.members) = .ok settings := by
  obtain ⟨name, version, output, generator, ⟨language, directory⟩, logging⟩ := settings
  cases directory <;> rfl

/-! ### Reading what is printed -/

variable {settings : Settings}

/-- **Printed settings are read back** if nothing is wrong with them, with blanks and empty lines
behind them. -/
theorem parse_text (sound : settings.objection? = none) {tail : String}
    (blank : Toml.Reader.skipLines tail.toList.length tail.toList = []) :
    parse (settings.text ++ tail) = .ok settings := by
  have whole : (settings.text ++ tail).toList
      = settings.document.lines.flatMap Prod.fst ++ tail.toList := by
    rw [String.toList_append, toList_text]
  have read := Document.parse_lines settings.sound_document blank whole
  simp only [parse, read, decode_members, sound]

theorem objection?_of_parse {text : String} (read : parse text = .ok settings) :
    settings.objection? = none := by
  unfold parse at read
  split at read
  · cases read
  · split at read
    · cases read
    · split at read
      · cases read
      · rename_i sound
        cases read
        exact sound

/-- Settings are loaded from a file exactly if they are read from its text. -/
theorem load_eq_ok_iff {files : Files} {path : String} :
    load files path = .ok settings ↔
      ∃ text, files.readText path = .ok text ∧ parse text = .ok settings := by
  unfold load
  cases stored : files.readText path with
  | error fault => cases there : files.pathExists path <;> simp
  | ok text => simp [pathExists_of_readText stored]

end Settings

namespace CommandLine

/-- Settings that can be loaded are printed. -/
theorem showSettings_of_load {files : Files} {path : String} {settings : Settings}
    (loaded : Settings.load files path = .ok settings) :
    showSettings files path = .ok (settings.text ++ "\n") := by
  obtain ⟨text, stored, -⟩ := Settings.load_eq_ok_iff.mp loaded
  have there := pathExists_of_readText stored
  simp only [showSettings, loadSettings, Settings.loadOrDefault, there, if_true, loaded]

def AsksForSettings (words : List String) (path : String) : Prop :=
  ∃ verbosity,
    Invocation.ofWords words = .ok { settingsPath := path, verbosity, command := .showSettings }

theorem AsksForSettings.respond_eq {issues : Nat → Issue} {disk : Disk} {words : List String}
    {path : String} (asks : AsksForSettings words path) {world : World} {output : String}
    (shown : showSettings world.files path = .ok output) :
    respond issues disk words world = { status := 0, output, complaint := none, world } := by
  obtain ⟨verbosity, understood⟩ := asks
  simp only [respond, understood, Invocation.perform, shown]

/-- **Printed settings load back.** Let a command line print the settings in a file that is there.
Wherever the printed text is saved as it is, these settings are loaded from it, the same in every
field, and a command line that prints the settings in that file prints this text again. -/
theorem respond_saved {issues : Nat → Issue} {disk : Disk} {words : List String} {path : String}
    (asks : AsksForSettings words path) {world : World} {settings : Settings}
    (accepted : Settings.load world.files path = .ok settings) :
    ∃ printed,
      respond issues disk words world
          = { status := 0, output := printed, complaint := none, world } ∧
        ∀ words' path', AsksForSettings words' path' →
          ∀ saved : World, saved.files.readText path' = .ok printed →
            Settings.load saved.files path' = .ok settings ∧
              respond issues disk words' saved
                = { status := 0, output := printed, complaint := none, world := saved } := by
  refine ⟨settings.text ++ "\n", asks.respond_eq (showSettings_of_load accepted), ?_⟩
  intro words' path' asks' saved stored
  obtain ⟨text, -, read⟩ := Settings.load_eq_ok_iff.mp accepted
  have sound := Settings.objection?_of_parse read
  have lineFeed : Toml.Reader.skipLines "\n".toList.length "\n".toList = [] := rfl
  have again : Settings.load saved.files path' = .ok settings :=
    Settings.load_eq_ok_iff.mpr ⟨_, stored, Settings.parse_text sound lineFeed⟩
  exact ⟨again, asks'.respond_eq (showSettings_of_load again)⟩

/-- Settings of which some are stated, with quotes of both kinds, three in a row, a tab and a line
break in them, are printed, and the text is saved in another file. -/
theorem respond_saved_copy :
    let settings : Settings :=
      { name := "a'\"b"
        language := { language := "x\t\n'''\"\"\"", directory := some "c:\\t" } }
    let text := "name = \"a'\\\"b\"\ni18n.language = \"x\\t\\n'''\\\"\\\"\\\"\"\n"
      ++ "i18n.translations_dir = 'c:\\t'\n"
    let files : Files := { entries := [(["forge.toml"], .file text.toUTF8 0)], home := [] }
    ∃ printed saved,
      respond markedIssues .reliable ["config"] { files, issued := 0 }
          = { status := 0, output := printed, complaint := none, world := { files, issued := 0 } } ∧
        Disk.reliable.writeText files "copy.toml" printed = (.ok (), saved) ∧
          Settings.load saved "copy.toml" = .ok settings ∧
            respond markedIssues .reliable ["-ccopy.toml", "config"] { files := saved, issued := 0 }
              = { status := 0, output := printed, complaint := none,
                  world := { files := saved, issued := 0 } } := by
  intro settings text files
  have resolved : files.resolve "forge.toml" = .ok (["forge.toml"], .file text.toUTF8 0) := rfl
  have stored := Files.readText_of_resolve resolved
  have read : Settings.parse text = .ok settings := by
    unfold text settings
    rfl
  have asks : AsksForSettings ["config"] "forge.toml" := ⟨{}, rfl⟩
  have asks' : AsksForSettings ["-ccopy.toml", "config"] "copy.toml" := ⟨{}, rfl⟩
  obtain ⟨printed, shown, again⟩ :=
    @respond_saved markedIssues .reliable _ _ asks { files, issued := 0 } _
      (Settings.load_eq_ok_iff.mpr ⟨text, stored, read⟩)
  have written : Disk.reliable.writeText files "copy.toml" printed
      = (.ok (), files.set ["copy.toml"] (.file printed.toUTF8 Files.newFileMode)) := rfl
  obtain ⟨_, replaces⟩ := Files.replaces_of_writeFile written
  obtain ⟨loaded, shown'⟩ := again _ _ asks' { files := _, issued := 0 } replaces.held.readText
  exact ⟨printed, _, shown, written, loaded, shown'⟩

end CommandLine

end Provision
