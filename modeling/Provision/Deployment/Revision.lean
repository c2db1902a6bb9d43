import Provision.Cluster.Loading
import Provision.Deployment.Validation

/-!
Revisions of a definition.

A definition can be revised in parts, be written and read again, and be settled by
validation. A revision that fails leaves the definition as it was.
-/

namespace Provision

/-- The two texts of a definition. -/
inductive Spacing where
  | compact
  | pretty
deriving DecidableEq, Repr

def Definition.text (definition : Definition) : Spacing → String
  | .compact => definition.compact
  | .pretty => definition.pretty

inductive Revision where
  | override (overrides : Overrides)
  | dnsPrefix (name : String)
  | version (dialect : ApiVersion)
  | certificates (profile : Option CertificateProfile)
  | reread (spacing : Spacing)
  | settle (options : Options)
deriving DecidableEq, Repr

def Revision.apply (files : Files) (definition : Definition) :
    Revision → Except Error Definition
  | override overrides => .ok (overrides.apply definition)
  | dnsPrefix name =>
      .ok { definition with controlPlane := definition.controlPlane.withDnsPrefix name }
  | version dialect => .ok { definition with version := dialect }
  | certificates profile => .ok { definition with certificates := profile }
  | reread spacing => Definition.parse (definition.text spacing)
  | settle options => (validate files options definition).map Validated.definition

/-- The outcomes of revisions in order, each made on what the ones before it left. -/
def revise (files : Files) (definition : Definition) :
    List Revision → List (Except Error Definition)
  | [] => []
  | revision :: revisions =>
      match revision.apply files definition with
      | .ok revised => .ok revised :: revise files revised revisions
      | .error error => .error error :: revise files definition revisions

end Provision
