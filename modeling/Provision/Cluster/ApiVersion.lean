/-!
The schema dialects a cluster definition can be written in.

`ApiVersion.ofTag?` and `ApiVersion.tag` are inverse to each other.
-/

namespace Provision

/-- A schema dialect. -/
inductive ApiVersion where
  | v1
  | v20160930
  | v20170701
  | vlabs
deriving DecidableEq, Repr

namespace ApiVersion

/-- The dialects in the order in which they are listed in messages. -/
def all : List ApiVersion := [v1, v20160930, v20170701, vlabs]

/-- The name a dialect has in a document. -/
def tag : ApiVersion → String
  | v1 => "v1"
  | v20160930 => "2016-09-30"
  | v20170701 => "2017-07-01"
  | vlabs => "vlabs"

def ofTag? (tag : String) : Option ApiVersion := all.find? (·.tag == tag)

def supportsHosted : ApiVersion → Bool
  | v1 | v20160930 => false
  | v20170701 | vlabs => true

@[simp] theorem ofTag?_tag (version : ApiVersion) : ofTag? version.tag = some version := by
  cases version <;> decide

theorem ofTag?_eq_some_iff {tag : String} {version : ApiVersion} :
    ofTag? tag = some version ↔ version.tag = tag := by
  constructor
  · intro found
    simpa using List.find?_some found
  · rintro rfl
    exact ofTag?_tag version

end ApiVersion

end Provision
