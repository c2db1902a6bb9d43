import Provision.Cluster.Codec
import Provision.Cluster.EmptySubnet
import Provision.Error
import Provision.Json.Reader

/-!
Reading a cluster definition from the text of a document.

`Definition.parse` is the whole way: read the document, bring it into canonical text,
decode that text, and check that the dialect knows the control plane.
-/

namespace Provision

namespace Definition

def documentError (text : String) (failure : Json.Failure) : Error :=
  .schema "<document>" (failure.report text)

def misfitError (misfit : Misfit) : Error :=
  .schema (pathText misfit.path) misfit.mismatch.message

/-- A hosted control plane is refused in dialects that do not know it. -/
def checkVersion (definition : Definition) : Except Error Definition :=
  if definition.controlPlane.isHosted && !definition.version.supportsHosted then
    .error (.schema "properties.hostedMasterProfile"
      s!"hostedMasterProfile is not supported by apiVersion '{definition.version.tag}'")
  else .ok definition

/-- The definition in a canonical text. Canonical text is always JSON, so the second
reading does not fail. -/
def ofCanonicalText (text : String) : Except Error Definition :=
  match Json.parse text with
  | .error failure => .error (.schema (pathText []) failure.problem.message)
  | .ok document =>
      match decode document with
      | .error misfit => .error (misfitError misfit)
      | .ok definition => checkVersion definition

def parse (text : String) : Except Error Definition :=
  match Json.parse text with
  | .error failure => .error (documentError text failure)
  | .ok document => ofCanonicalText document.canonicalText

def compact (definition : Definition) : String := definition.encode.compact

def pretty (definition : Definition) : String := definition.encode.pretty

end Definition

end Provision
