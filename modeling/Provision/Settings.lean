import Provision.Error
import Provision.Files.Operations
import Provision.Toml.Decode
import Provision.Toml.Quoted
import Provision.Toml.Reader

/-!
The settings of the program, and settings as TOML documents.

Every setting but the name has a default, and unknown ones are ignored. `Settings.text`
writes a document in which every setting is stated, the directory of catalogs only if
there is one.
-/

namespace Provision

/-- Where derived output directories are made. -/
structure OutputSettings where
  root : String := "_output"
deriving DecidableEq, Repr

structure GeneratorSettings where
  classic : Bool := false
  prettyPrint : Bool := true
  parametersOnly : Bool := false
deriving DecidableEq, Repr

/-- The language of messages, and the directory of message catalogs if there is one. -/
structure LanguageSettings where
  language : String := "en_US"
  directory : Option String := none
deriving DecidableEq, Repr

structure LoggingSettings where
  level : String := "info"
  format : String := "text"
deriving DecidableEq, Repr

structure Settings where
  name : String := "forge"
  version : String := "1.0"
  output : OutputSettings := {}
  generator : GeneratorSettings := {}
  language : LanguageSettings := {}
  logging : LoggingSettings := {}
deriving DecidableEq, Repr

open Decoding (field)

/-! ### Reading -/

def OutputSettings.decode : Toml → Decoded OutputSettings :=
  Toml.Decode.record "OutputConfig"
    [field "root" Toml.Decode.path fun root settings => { settings with root }]
    none {} .ok

def GeneratorSettings.decode : Toml → Decoded GeneratorSettings :=
  Toml.Decode.record "GeneratorConfig"
    [ field "classic_mode" Toml.Decode.boolean fun classic settings => { settings with classic },
      field "pretty_print" Toml.Decode.boolean
        fun prettyPrint settings => { settings with prettyPrint },
      field "parameters_only" Toml.Decode.boolean
        fun parametersOnly settings => { settings with parametersOnly } ]
    none {} .ok

/-- The language section. Written as an array it must name a directory. -/
def LanguageSettings.decode : Toml → Decoded LanguageSettings :=
  Toml.Decode.record "I18nConfig"
    [ field "language" Toml.Decode.string fun language settings => { settings with language },
      field "translations_dir" Toml.Decode.path
        fun directory settings => { settings with directory := some directory } ]
    (some 1) {} .ok

def LoggingSettings.decode : Toml → Decoded LoggingSettings :=
  Toml.Decode.record "LoggingConfig"
    [ field "level" Toml.Decode.string fun level settings => { settings with level },
      field "format" Toml.Decode.string fun format settings => { settings with format } ]
    none {} .ok

def Settings.decode : Toml → Decoded Settings :=
  Toml.Decode.record "Config"
    [ field "name" Toml.Decode.string fun name (_, settings) => (some name, settings),
      field "version" Toml.Decode.string
        fun version (name, settings) => (name, { settings with version }),
      field "output" OutputSettings.decode
        fun output (name, settings) => (name, { settings with output }),
      field "generator" GeneratorSettings.decode
        fun generator (name, settings) => (name, { settings with generator }),
      field "i18n" LanguageSettings.decode
        fun language (name, settings) => (name, { settings with language }),
      field "logging" LoggingSettings.decode
        fun logging (name, settings) => (name, { settings with logging }) ]
    none ((none, {}) : Option String × Settings)
    fun
      | (some name, settings) => .ok { settings with name }
      | (none, _) => .error "name"

/-- What is wrong with settings that are well-formed. -/
def Settings.objection? (settings : Settings) : Option String :=
  if settings.name.isEmpty then some "Forge name cannot be empty"
  else if settings.output.root.isEmpty then some "Output root cannot be empty"
  else if settings.language.language.isEmpty then some "i18n language cannot be empty"
  else if settings.logging.format = "text" ∨ settings.logging.format = "json" then none
  else
    some s!"Unknown logging format '{settings.logging.format}', expected 'text' or 'json'"

def Settings.parse (text : String) : Except Error Settings :=
  match Toml.parse text with
  | none => .error (.toml none)
  | some members =>
      match decode (.table .header members) with
      | .error misfit => .error (.toml (some misfit.mismatch.message))
      | .ok settings =>
          match settings.objection? with
          | some objection => .error (.configuration objection)
          | none => .ok settings

def Settings.load (files : Files) (path : String) : Except Error Settings :=
  if !files.pathExists path then .error (.notFound path)
  else
    match files.readText path with
    | .error fault => .error (.io fault.message)
    | .ok text => parse text

/-- The settings in a file, or the default ones if there is no such file. -/
def Settings.loadOrDefault (files : Files) (path : String) : Except Error Settings :=
  if files.pathExists path then load files path else .ok {}

/-! ### Writing -/

def settingLine (name value : String) : String := name ++ " = " ++ value ++ "\n"

def textLine (name value : String) : String := settingLine name (Toml.quote value)

def truthLine (name : String) (value : Bool) : String :=
  settingLine name (if value then "true" else "false")

/-- The header of a section, behind an empty line. -/
def sectionLine (name : String) : String := "\n[" ++ name ++ "]\n"

def Settings.text (settings : Settings) : String :=
  textLine "name" settings.name
    ++ textLine "version" settings.version
    ++ sectionLine "output"
    ++ textLine "root" settings.output.root
    ++ sectionLine "generator"
    ++ truthLine "classic_mode" settings.generator.classic
    ++ truthLine "pretty_print" settings.generator.prettyPrint
    ++ truthLine "parameters_only" settings.generator.parametersOnly
    ++ sectionLine "i18n"
    ++ textLine "language" settings.language.language
    ++ settings.language.directory.elim "" (textLine "translations_dir")
    ++ sectionLine "logging"
    ++ textLine "level" settings.logging.level
    ++ textLine "format" settings.logging.format

end Provision
