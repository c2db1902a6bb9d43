import Provision.CommandLine.Commands

/-!
The paths that a command is about.

What a command looks at can depend on what it finds: settings name catalogs, and a
definition names its output directory. A footprint lists the paths that follow from the
files that are known; `footprintRounds` rounds of looking reveal all of them.
-/

namespace Provision.CommandLine

def catalogPaths (settings : LanguageSettings) : List String :=
  match settings.directory with
  | none => []
  | some directory => [directory, Path.join directory (settings.language ++ ".toml")]

def artifactPaths (directory : String) : List String :=
  directory :: [ Artifacts.definitionFile, Artifacts.templateFile, Artifacts.parametersFile,
    Artifacts.certificateFile, Artifacts.privateKeyFile ].map (Path.join directory)

/-- The paths of a request, with those of its artifacts once the definition is known. -/
def requestPaths (files : Files) (request : Request) : List String :=
  let options := request.options
  options.definitionPath :: (options.caCertificatePath.toList ++ options.caPrivateKeyPath.toList)
    ++ match check request files with
      | .ok validated => artifactPaths validated.outputDirectory
      | .error _ => []

def definitionPaths (files : Files) (settingsPath : String) (arguments : DefinitionArguments) :
    List String :=
  match loadSettings files settingsPath with
  | .error _ => []
  | .ok settings =>
      catalogPaths settings.language
        ++ match arguments.request settings with
          | .ok request => requestPaths files request
          | .error _ => []

/-- The paths that an invocation is about, as far as the files reveal them. -/
def Invocation.footprint (files : Files) (invocation : Invocation) : List String :=
  invocation.settingsPath
    :: match invocation.command with
      | .generate arguments .. | .validate arguments =>
          definitionPaths files invocation.settingsPath arguments
      | .showSettings | .createSettings _ | .showVersion => []

/-- Settings are found in the first round, the definition in the second, and the output
directory in the third. -/
def footprintRounds : Nat := 3

end Provision.CommandLine
