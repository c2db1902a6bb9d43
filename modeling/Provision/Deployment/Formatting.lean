import Provision.Error
import Provision.Json.Printer
import Provision.Json.Reader

/-!
The indented form in which templates and parameters are kept.

A template has its well-known members first, in a fixed order, and all others behind
them in their own order. Parameters are wrapped into a parameters document. Both end
with a line feed.
-/

namespace Provision.Formatting

/-- The well-known members of a template, in the order in which they are written. -/
def memberOrder : List String :=
  ["$schema", "contentVersion", "apiProfile", "parameters", "variables", "resources", "outputs"]

/-- The members that are listed, in the order of the list, then all others. -/
def reorder (members : Members) : Members :=
  memberOrder.filterMap (fun name => (members.find? name).map (name, ·))
    ++ members.filter (!memberOrder.contains ·.1)

/-- The members of the object that a text stands for; `payload` names the text in
errors. -/
def parseObject (payload text : String) : Except Error Members :=
  match Json.parse text with
  | .ok (.object members) => .ok members
  | .ok _ => .error (.format payload "expected a JSON object")
  | .error failure => .error (.format payload (failure.report text))

def parametersDocument (parameters : Members) : Json :=
  .object
    [ ("$schema", .string
        "https://schema.management.azure.com/schemas/2015-01-01/deploymentParameters.json#"),
      ("contentVersion", .string "1.0.0.0"),
      ("parameters", .object parameters) ]

def template (text : String) : Except Error String := do
  let members ← parseObject "template" text
  return (Json.object (reorder members)).pretty ++ "\n"

/-- The indented form of parameters, as a document of their own. -/
def parameters (text : String) : Except Error String := do
  let members ← parseObject "template parameters" text
  return (parametersDocument members).pretty ++ "\n"

end Provision.Formatting
