import Provision.CommandLine.Switches

/-!
What a command line asks for.

Switches of the program stand in front of the command, those of the command behind it.
`Invocation.ofWords` understands a whole command line.
-/

namespace Provision.CommandLine

structure DefinitionArguments where
  plainPath : Option String := none
  definitionPath : Option String := none
  outputDirectory : Option String := none
  caCertificatePath : Option String := none
  caPrivateKeyPath : Option String := none
  dnsPrefix : Option String := none
  sshPublicKey : Option String := none
  clientId : Option String := none
  clientSecret : Option String := none
deriving DecidableEq, Repr

inductive Command where
  | generate (arguments : DefinitionArguments) (classic compact parametersOnly : Bool)
  | validate (arguments : DefinitionArguments)
  | showSettings
  | createSettings (force : Bool)
  | showVersion
deriving DecidableEq, Repr

structure Verbosity where
  verbose : Bool := false
  debug : Bool := false
deriving DecidableEq, Repr

/-- Where settings are looked for unless the command line says otherwise. -/
def defaultSettingsPath : String := "forge.toml"

/-- A command line that was understood. -/
structure Invocation where
  settingsPath : String
  verbosity : Verbosity := {}
  command : Command
deriving DecidableEq, Repr

/-! ### Switches -/

def programSwitches : List Switch :=
  [ { name := "config", letter := some 'c', takes := .path },
    { name := "verbose", letter := some 'v' },
    { name := "debug" },
    { name := "version", letter := some 'V', terminal := true } ]

def definitionSwitches : List Switch :=
  [ { name := "api-model", takes := .path },
    { name := "output-directory", takes := .path },
    { name := "ca-certificate-path", takes := .path },
    { name := "ca-private-key-path", takes := .path },
    { name := "dns-prefix", takes := .text },
    { name := "ssh-public-key", takes := .text },
    { name := "client-id", takes := .text },
    { name := "client-secret", takes := .text } ]

def generateSwitches : List Switch :=
  definitionSwitches
    ++ [{ name := "classic-mode" }, { name := "no-pretty-print" }, { name := "parameters-only" }]

def createSettingsSwitches : List Switch := [{ name := "force", letter := some 'f' }]

/-- Switches that need another one: if the first is given, the second must be. -/
def needs : List (String × String) :=
  [ ("dns-prefix", "ssh-public-key"), ("ssh-public-key", "dns-prefix"),
    ("client-id", "client-secret"), ("client-id", "dns-prefix"),
    ("client-secret", "client-id") ]

def Reading.meetsNeeds (reading : Reading) : Bool :=
  needs.all fun (name, needed) => !reading.isGiven name || reading.isGiven needed

/-! ### Commands -/

/-- The arguments that were read. At most one plain word can be given, and no empty
one, since it is a path. -/
def DefinitionArguments.ofReading (reading : Reading) : Except Halt DefinitionArguments :=
  if 1 < reading.plain.length ∨ reading.plain.contains "" ∨ !reading.meetsNeeds then
    .error .misuse
  else
    .ok
      { plainPath := reading.plain.head?
        definitionPath := reading.value? "api-model"
        outputDirectory := reading.value? "output-directory"
        caCertificatePath := reading.value? "ca-certificate-path"
        caPrivateKeyPath := reading.value? "ca-private-key-path"
        dnsPrefix := reading.value? "dns-prefix"
        sshPublicKey := reading.value? "ssh-public-key"
        clientId := reading.value? "client-id"
        clientSecret := reading.value? "client-secret" }

def switchesOnly (switches : List Switch) (words : List String) : Except Halt Reading := do
  let reading ← Reading.feedAll switches {} words
  if reading.plain.isEmpty then return reading else throw .misuse

/-- The command with this name, given the words behind it. -/
def Command.ofWords (name : String) (words : List String) : Except Halt Command :=
  match name with
  | "generate" | "gen" => do
      let reading ← Reading.feedAll generateSwitches {} words
      let arguments ← DefinitionArguments.ofReading reading
      return .generate arguments (reading.isGiven "classic-mode")
        (reading.isGiven "no-pretty-print") (reading.isGiven "parameters-only")
  | "validate" => do
      let reading ← Reading.feedAll definitionSwitches {} words
      return .validate (← DefinitionArguments.ofReading reading)
  | "config" => do
      discard (switchesOnly [] words)
      return .showSettings
  | "init" => do
      let reading ← switchesOnly createSettingsSwitches words
      return .createSettings (reading.isGiven "force")
  | "version" => do
      discard (switchesOnly [] words)
      return .showVersion
  | _ => .error .misuse

/-- What the words of a command line ask for. The command is the first plain word, in
front of any `--`. -/
def Invocation.ofWords (words : List String) : Except Halt Invocation := do
  let (reading, rest) ← Reading.feedLeading programSwitches {} words
  match reading.plain with
  | name :: _ =>
      if reading.ended then throw .misuse
      let command ← Command.ofWords name rest
      return {
        settingsPath := (reading.value? "config").getD defaultSettingsPath
        verbosity := { verbose := reading.isGiven "verbose", debug := reading.isGiven "debug" }
        command }
  | [] => throw .misuse

end Provision.CommandLine
