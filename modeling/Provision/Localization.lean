import Provision.Settings

/-!
Message catalogs.

A catalog gives the messages of a program in one language; a message that it does not
hold is shown as it is. Without a directory of catalogs every message is shown so. With one,
the catalog of the language must be there.
-/

namespace Provision

structure Catalog where
  language : String := "en_US"
  messages : List (String × String) := []
deriving DecidableEq, Repr

def Catalog.localize (catalog : Catalog) (text : String) : String :=
  (catalog.messages.find? (·.1 == text)).elim text Prod.snd

namespace Catalog

/-- A complaint about a catalog that is not there. -/
def complaint (detail : String) : Error :=
  .configuration ("error loading translation files: " ++ detail)

def decode : Toml → Decoded (List (String × String)) :=
  Toml.Decode.record "Catalog"
    [Decoding.field "messages" Toml.Decode.strings fun messages _ => messages] none [] .ok

def parseMessages (path text : String) : Except Error (List (String × String)) :=
  match Toml.parse text with
  | none => .error (.malformedCatalog path)
  | some members =>
      match decode (.table .header members) with
      | .error _ => .error (.malformedCatalog path)
      | .ok messages => .ok messages

def ofDirectory (files : Files) (directory language : String) : Except Error Catalog :=
  if !files.isDirectory directory then
    .error (complaint s!"directory {directory} does not exist")
  else
    let path := Path.join directory (language ++ ".toml")
    if !files.pathExists path then
      .error (complaint s!"no catalog for '{language}' at {path}")
    else
      match files.readText path with
      | .error fault => .error (.readFailure path fault.message)
      | .ok text =>
          match parseMessages path text with
          | .error error => .error error
          | .ok messages => .ok { language, messages }

def load (files : Files) (settings : LanguageSettings) : Except Error Catalog :=
  match settings.directory with
  | none => .ok { language := settings.language }
  | some directory => ofDirectory files directory settings.language

end Catalog

end Provision
