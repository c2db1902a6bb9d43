/-!
Reading the words of a command line against a table of switches.

A switch is given by its name behind two hyphens or by its letter behind one; letters
can be joined in one word. What a switch takes is attached to it, by an equals sign or
directly behind the letter, or is the next word, which then may not look like a switch
itself. A lone `--` ends the switches. `Reading.feed` takes in one word; a `Reading`
holds what was given so far.
-/

namespace Provision.CommandLine

inductive Takes where
  | nothing
  | path
  | text
deriving DecidableEq, Repr

/-- A switch. One that is terminal ends the reading as soon as it is given. -/
structure Switch where
  name : String
  letter : Option Char := none
  takes : Takes := .nothing
  terminal : Bool := false
deriving DecidableEq, Repr

/-- Why the reading of a command line ends early: the words cannot be understood, or
they ask for the version of the program. -/
inductive Halt where
  | misuse
  | versionAsked
deriving DecidableEq, Repr

/-- The words that were read: the switches with what they took, and the plain words. A
switch may still await what it takes, and switches may have been ended. -/
structure Reading where
  given : List (String × String) := []
  awaiting : Option Switch := none
  plain : List String := []
  ended : Bool := false
deriving DecidableEq, Repr

namespace Reading

def value? (reading : Reading) (name : String) : Option String :=
  (reading.given.find? (·.1 == name)).map Prod.snd

def isGiven (reading : Reading) (name : String) : Bool := (reading.value? name).isSome

/-- Note a switch with what it takes. No switch is given twice, and no path is empty. -/
def give (reading : Reading) (switch : Switch) (value : String) : Except Halt Reading :=
  if reading.isGiven switch.name then .error .misuse
  else if switch.takes = .path ∧ value.isEmpty then .error .misuse
  else .ok { reading with given := reading.given ++ [(switch.name, value)], awaiting := none }

/-- Note a switch that takes nothing. -/
def raise (reading : Reading) (switch : Switch) : Except Halt Reading :=
  if switch.terminal then .error .versionAsked else reading.give switch ""

/-- Note a switch with what is attached to it, if anything is. -/
def attach (reading : Reading) (switch : Switch) (attached : Option String) :
    Except Halt Reading :=
  match switch.takes, attached with
  | .nothing, none => reading.raise switch
  | .nothing, some _ => .error .misuse
  | _, some value => reading.give switch value
  | _, none => .ok { reading with awaiting := some switch }

/-- A switch by its name: the characters behind two hyphens, up to an equals sign. -/
def feedName (switches : List Switch) (reading : Reading) (body : List Char) :
    Except Halt Reading :=
  let name := String.ofList (body.takeWhile (· != '='))
  match switches.find? (·.name == name) with
  | none => .error .misuse
  | some switch =>
      match body.dropWhile (· != '=') with
      | [] => reading.attach switch none
      | _ :: value => reading.attach switch (some (String.ofList value))

def attachedText : List Char → Option String
  | [] => none
  | '=' :: value => some (String.ofList value)
  | value => some (String.ofList value)

/-- Switches by their letters: the characters behind one hyphen. -/
def feedLetters (switches : List Switch) (reading : Reading) : List Char → Except Halt Reading
  | [] => .ok reading
  | letter :: letters =>
      match switches.find? (·.letter == some letter) with
      | none => .error .misuse
      | some switch =>
          if switch.takes = .nothing then
            match reading.raise switch with
            | .error halt => .error halt
            | .ok reading => feedLetters switches reading letters
          else reading.attach switch (attachedText letters)

/-- Whether a word starts like a switch. A lone hyphen is a plain word. -/
def looksLikeSwitch (word : String) : Bool := word.startsWith "-" && word != "-"

def feed (switches : List Switch) (reading : Reading) (word : String) : Except Halt Reading :=
  match reading.awaiting with
  | some switch =>
      if looksLikeSwitch word then .error .misuse else reading.give switch word
  | none =>
      let plainer : Reading := { reading with plain := reading.plain ++ [word] }
      if reading.ended then .ok plainer
      else
        match word.toList with
        | ['-', '-'] => .ok { reading with ended := true }
        | '-' :: '-' :: body => reading.feedName switches body
        | '-' :: letter :: letters => reading.feedLetters switches (letter :: letters)
        | _ => .ok plainer

/-- Take in words up to the first plain one. The words behind it are left. -/
def feedLeading (switches : List Switch) (reading : Reading) :
    List String → Except Halt (Reading × List String)
  | [] => .ok (reading, [])
  | word :: words =>
      match reading.feed switches word with
      | .error halt => .error halt
      | .ok reading =>
          if reading.plain.isEmpty then feedLeading switches reading words
          else .ok (reading, words)

def feedAll (switches : List Switch) (reading : Reading) : List String → Except Halt Reading
  | [] => if reading.awaiting.isNone then .ok reading else .error .misuse
  | word :: words =>
      match reading.feed switches word with
      | .error halt => .error halt
      | .ok reading => feedAll switches reading words

end Reading

end Provision.CommandLine
