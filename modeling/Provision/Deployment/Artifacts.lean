import Provision.Cluster.Loading
import Provision.Error
import Provision.Files.Disk
import Provision.Localization

/-!
Writing the artifacts of a run into its output directory.

What is to be done is a list of steps (`Artifacts.steps`), carried out in order up to
the first that fails. Steps that have been carried out before a failure are not undone.
-/

namespace Provision

structure Artifacts where
  definition : Definition
  version : ApiVersion
  template : String
  parameters : String
  outputDirectory : String
  certsGenerated : Bool
  parametersOnly : Bool
  authority : Option CertificateProfile

namespace Artifacts

/-- The names of the artifacts. -/
def definitionFile : String := "apimodel.json"
def templateFile : String := "azuredeploy.json"
def parametersFile : String := "azuredeploy.parameters.json"
def certificateFile : String := "ca.crt"
def privateKeyFile : String := "ca.key"

/-- The permission bits of a file that only its owner may read. -/
def privateMode : Nat := 0o600

def path (artifacts : Artifacts) (name : String) : String :=
  Path.join artifacts.outputDirectory name

/-- The definition as it is kept: under the version of the artifacts, and with a new
certificate authority in place of its own. -/
def keptDefinition (artifacts : Artifacts) : Definition :=
  { artifacts.definition with
    version := artifacts.version
    certificates := artifacts.authority <|> artifacts.definition.certificates }

def definitionText (artifacts : Artifacts) : String :=
  artifacts.keptDefinition.pretty ++ "\n"

inductive Step where
  | makeDirectory (path : String)
  | write (path content : String)
  | restrict (path : String)
  | refuse (path : String)
deriving DecidableEq, Repr

/-- The certificate authority as files, or a refusal if there is none. -/
def authoritySteps (artifacts : Artifacts) : List Step :=
  match artifacts.authority <|> artifacts.definition.certificates with
  | some profile =>
      [ .write (artifacts.path certificateFile) profile.certificate,
        .write (artifacts.path privateKeyFile) profile.privateKey,
        .restrict (artifacts.path privateKeyFile) ]
  | none => [.refuse artifacts.outputDirectory]

def steps (artifacts : Artifacts) : List Step :=
  .makeDirectory artifacts.outputDirectory
    :: (if artifacts.parametersOnly then []
        else
          [ .write (artifacts.path definitionFile) artifacts.definitionText,
            .write (artifacts.path templateFile) artifacts.template ])
    ++ .write (artifacts.path parametersFile) artifacts.parameters
    :: (if artifacts.certsGenerated then artifacts.authoritySteps else [])

/-- The error for a file fault, with a message in the language of a catalog. -/
def faultError (catalog : Catalog) (path message : String) (fault : FileFault) : Error :=
  .persist path s!"{catalog.localize message}: {fault.message}"

/-- Carry out a step on a disk. One that fails can leave directories on the way to the one that
was to be made, or a part of the content that was to be written. -/
def Step.perform (disk : Disk) (catalog : Catalog) (files : Files) :
    Step → Except Error Unit × Files
  | makeDirectory path =>
      match disk.createAll files path with
      | (.ok (), files) => (.ok (), files)
      | (.error fault, files) =>
          (.error (faultError catalog path "error creating output directory" fault), files)
  | write path content =>
      match disk.writeText files path content with
      | (.ok (), files) => (.ok (), files)
      | (.error fault, files) =>
          (.error (faultError catalog path "error writing file" fault), files)
  | restrict path =>
      match disk.setMode files path privateMode with
      | .ok files => (.ok (), files)
      | .error fault =>
          (.error (faultError catalog path "error setting file permissions" fault), files)
  | refuse path =>
      (.error (.persist path
        (catalog.localize "certificates were generated but none were returned")), files)

/-- Carry out steps in order, up to the first that fails. -/
def performAll (disk : Disk) (catalog : Catalog) (files : Files) :
    List Step → Except Error Unit × Files
  | [] => (.ok (), files)
  | step :: steps =>
      match step.perform disk catalog files with
      | (.ok (), files) => performAll disk catalog files steps
      | (.error error, files) => (.error error, files)

def writeTo (artifacts : Artifacts) (disk : Disk) (catalog : Catalog) (files : Files) :
    Except Error Unit × Files :=
  performAll disk catalog files artifacts.steps

end Artifacts

end Provision
