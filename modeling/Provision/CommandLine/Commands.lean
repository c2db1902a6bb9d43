import Provision.CommandLine.Invocation
import Provision.Deployment.Pipeline
import Provision.Localization

/-!
Carrying out command lines.

`respond` is the whole program as a function: from the words of a command line
and the world they are given in to what is printed, the exit status, and the world that
is left.
-/

namespace Provision.CommandLine

inductive Failure where
  | noDefinition
  | settingsThere (path : String)
  | settingsUnwritable (fault : FileFault)
  | settingsUnusable (path : String) (cause : Error)
  | invalid (path : String) (cause : Error)
  | generation (cause : Error)
deriving DecidableEq, Repr

/-- The wording of a failure and of its causes, outermost first. -/
def Failure.trail : Failure → List String
  | noDefinition =>
      ["--api-model was not supplied, nor was one specified as a positional argument"]
  | settingsThere path =>
      [s!"Configuration file already exists: {path}. Use --force to overwrite."]
  | settingsUnwritable fault => [fault.message]
  | settingsUnusable path cause => s!"Failed to load config from {path}" :: cause.trail
  | invalid path cause => s!"error validating {path}" :: cause.trail
  | generation cause => cause.trail

def Failure.complaint (failure : Failure) : String :=
  "Error: " ++ ": ".intercalate failure.trail

/-- A program that has ended: its exit status, what it printed, its complaint if it
failed, and the world it left. -/
structure Ending where
  status : Nat
  output : String
  complaint : Option String
  world : World

/-! ### Arguments -/

namespace DefinitionArguments

/-- The path of the definition: that of the switch, or else the plain one. -/
def path? (arguments : DefinitionArguments) : Option String :=
  nonEmpty arguments.definitionPath <|> arguments.plainPath

/-- The replacements that are asked for. Without a DNS prefix there are none. -/
def overrides? (arguments : DefinitionArguments) : Option Overrides :=
  arguments.dnsPrefix.map fun dnsPrefix =>
    { dnsPrefix
      sshPublicKey := arguments.sshPublicKey.getD ""
      servicePrincipal :=
        match arguments.clientId, arguments.clientSecret with
        | some clientId, some secret => some { clientId, secret }
        | _, _ => none }

def request (arguments : DefinitionArguments) (settings : Settings) :
    Except Failure Request :=
  match arguments.path? with
  | none => .error .noDefinition
  | some definitionPath =>
      .ok
        { options :=
            { definitionPath
              outputDirectory := arguments.outputDirectory
              outputRoot := settings.output.root
              caCertificatePath := arguments.caCertificatePath
              caPrivateKeyPath := arguments.caPrivateKeyPath
              classic := settings.generator.classic
              prettyPrint := settings.generator.prettyPrint
              parametersOnly := settings.generator.parametersOnly }
          overrides := arguments.overrides? }

end DefinitionArguments

/-- The options with the switches of the generating command: they add to what the
settings ask for. -/
def adjust (options : Options) (classic compact parametersOnly : Bool) : Options :=
  { options with
    classic := options.classic || classic
    prettyPrint := options.prettyPrint && !compact
    parametersOnly := options.parametersOnly || parametersOnly }

/-! ### Commands -/

def versionLine : String := "forge 0.1.0\n"

def banner : String := "Kea-Forge v0.1.0\nThe Template Smith for the Kea Ecosystem\n"

def initialSettings : String :=
  "\n".intercalate
    [ "# SPDX-License-Identifier: AGPL-3.0-or-later",
      "# Kea-Forge Configuration",
      "",
      "name = \"forge\"",
      "version = \"1.0\"",
      "",
      "[output]",
      "root = \"_output\"",
      "",
      "[generator]",
      "classic_mode = false",
      "pretty_print = true",
      "parameters_only = false",
      "",
      "[i18n]",
      "language = \"en_US\"",
      "# translations_dir = \"translations\"",
      "",
      "[logging]",
      "level = \"info\"",
      "format = \"text\"",
      "" ]

/-- The settings for a command: those in the file, or the default ones. -/
def loadSettings (files : Files) (path : String) : Except Failure Settings :=
  match Settings.loadOrDefault files path with
  | .ok settings => .ok settings
  | .error cause => .error (.settingsUnusable path cause)

def showSettings (files : Files) (path : String) : Except Failure String :=
  if files.pathExists path then
    match loadSettings files path with
    | .error failure => .error failure
    | .ok settings => .ok (settings.text ++ "\n")
  else .ok ("No configuration file found. Using defaults:\n\n" ++ ({} : Settings).text ++ "\n")

/-- Write settings to start from. Settings that are there are only replaced by force. -/
def createSettings (disk : Disk) (files : Files) (path : String) (force : Bool) :
    Except Failure String × Files :=
  if files.pathExists path && !force then (.error (.settingsThere path), files)
  else
    match disk.writeText files path initialSettings with
    | (.error fault, files) => (.error (.settingsUnwritable fault), files)
    | (.ok (), files) => (.ok s!"Created configuration file: {path}\n", files)

def summary (validated : Validated) : String :=
  let plane := if validated.definition.controlPlane.isHosted then "hosted" else "managed"
  s!"Api model '{validated.source}' is valid\n\n"
    ++ s!"  API version: {validated.definition.version.tag}\n"
    ++ s!"  Control plane: {plane}\n"
    ++ s!"  DNS prefix: {validated.definition.dnsPrefix}\n"
    ++ s!"  Agent pools: {validated.definition.agentPools.length}\n"
    ++ s!"  Output directory: {validated.outputDirectory}\n"

/-- Check a definition without generating anything. -/
def validateCommand (files : Files) (settingsPath : String) (arguments : DefinitionArguments) :
    Except Failure String :=
  match loadSettings files settingsPath with
  | .error failure => .error failure
  | .ok settings =>
      match arguments.request settings with
      | .error failure => .error failure
      | .ok request =>
          match check request files with
          | .error cause => .error (.invalid request.options.definitionPath cause)
          | .ok validated => .ok (summary validated)

def reportText (report : Report) : String :=
  s!"Generated assets into {report.outputDirectory}\n"
    ++ if report.certsGenerated then "  Generated a new cluster CA\n" else ""

/-- Run with the built-in tools under settings. Without a catalog there are no tools, and no run
begins. -/
def runUnder (issues : Nat → Issue) (disk : Disk) (settings : Settings) (request : Request)
    (world : World) : Outcome :=
  match Catalog.load world.files settings.language with
  | .error cause => ⟨.error (.stage .localize "translations" cause), .idle, [], world⟩
  | .ok catalog => run (builtinTools issues disk catalog) request world

def generateCommand (issues : Nat → Issue) (disk : Disk) (world : World) (settingsPath : String)
    (arguments : DefinitionArguments) (classic compact parametersOnly : Bool) :
    Except Failure String × World :=
  match loadSettings world.files settingsPath with
  | .error failure => (.error failure, world)
  | .ok settings =>
      match arguments.request settings with
      | .error failure => (.error failure, world)
      | .ok request =>
          let options := adjust request.options classic compact parametersOnly
          let outcome := runUnder issues disk settings { request with options } world
          match outcome.result with
          | .error cause => (.error (.generation cause), outcome.world)
          | .ok report => (.ok (reportText report), outcome.world)

def Invocation.perform (issues : Nat → Issue) (disk : Disk) (invocation : Invocation)
    (world : World) : Except Failure String × World :=
  match invocation.command with
  | .showVersion => (.ok banner, world)
  | .showSettings => (showSettings world.files invocation.settingsPath, world)
  | .createSettings force =>
      let (result, files) := createSettings disk world.files invocation.settingsPath force
      (result, { world with files })
  | .validate arguments =>
      (validateCommand world.files invocation.settingsPath arguments, world)
  | .generate arguments classic compact parametersOnly =>
      generateCommand issues disk world invocation.settingsPath arguments classic compact
        parametersOnly

/-- The whole program: respond to the words of a command line. The exit status is 2 if
the words cannot be understood, and 1 if a command fails. -/
def respond (issues : Nat → Issue) (disk : Disk) (words : List String) (world : World) :
    Ending :=
  match Invocation.ofWords words with
  | .error .versionAsked => { status := 0, output := versionLine, complaint := none, world }
  | .error .misuse => { status := 2, output := "", complaint := none, world }
  | .ok invocation =>
      match invocation.perform issues disk world with
      | (.ok output, world) => { status := 0, output, complaint := none, world }
      | (.error failure, world) =>
          { status := 1, output := "", complaint := some failure.complaint, world }

end Provision.CommandLine
