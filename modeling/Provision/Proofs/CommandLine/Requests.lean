import Provision.CommandLine.Commands
import Provision.Proofs.CommandLine.Reading

/-!
The request of a command line states what is given on it.

A command line that calls a command on a definition is spelled in three parts: switches of the
program, the name of the command, and what is given to the command (`Calls`). The overrides of its
request are exactly the given ones (`Honours`). That nothing given is dropped rests on the switches
that need others (`given_of_meetsNeeds`): a part of the overrides is only accepted with all that it
takes to make them. With it, a call is accepted in every spelling (`accepted_of_calls`).
-/

namespace Provision.CommandLine

/-! ### Command lines -/

def definitionCommands : List (String × List Switch) :=
  [("generate", generateSwitches), ("gen", generateSwitches), ("validate", definitionSwitches)]

/-- Words call a command on a definition. In front of its name stand switches of the program, and
behind it what is given to it: switches with what they take, and plain words. -/
inductive Calls : List String → List (String × String) → List String → Prop
  | call {leading rest plain : List String} {name : String} {switches : List Switch}
      {before given : List (String × String)} (front : Spells programSwitches leading before [])
      (notEnded : "--" ∉ leading) (named : (name, switches) ∈ definitionCommands)
      (behind : Spells switches rest given plain) : Calls (leading ++ name :: rest) given plain

/-- The request that a command makes under settings, if it works on a definition. -/
def Command.request? (settings : Settings) : Command → Option (Except Failure Request)
  | generate arguments classic compact parametersOnly =>
      some ((arguments.request settings).map fun request =>
        { request with options := adjust request.options classic compact parametersOnly })
  | validate arguments => some (arguments.request settings)
  | showSettings | createSettings _ | showVersion => none

def Given (given : List (String × String)) (name : String) : Prop := name ∈ given.map Prod.fst

def overrideSwitches : List String :=
  ["dns-prefix", "ssh-public-key", "client-id", "client-secret"]

/-- A principal is stated by exactly the given id and secret, and there is none if neither is
given. -/
def StatesPrincipal (given : List (String × String)) : Option ServicePrincipal → Prop
  | some principal =>
      ("client-id", principal.clientId) ∈ given ∧ ("client-secret", principal.secret) ∈ given
  | none => ¬ Given given "client-id" ∧ ¬ Given given "client-secret"

/-- A request has the overrides that are given, and the path that is given: that of the switch, or
else the plain one. -/
structure Honours (given : List (String × String)) (plain : List String) (request : Request) :
    Prop where
  unasked : (∀ name ∈ overrideSwitches, ¬ Given given name) → request.overrides = none
  asked : (∃ name ∈ overrideSwitches, Given given name) →
    ∃ overrides, request.overrides = some overrides ∧
      ("dns-prefix", overrides.dnsPrefix) ∈ given ∧
        ("ssh-public-key", overrides.sshPublicKey) ∈ given ∧
          StatesPrincipal given overrides.servicePrincipal
  path : ("api-model", request.options.definitionPath) ∈ given ∨
    ¬ Given given "api-model" ∧ plain = [request.options.definitionPath]

/-! ### The tables -/

theorem unambiguous_programSwitches : Unambiguous programSwitches :=
  ⟨by decide, by decide, by decide, by decide⟩

theorem unambiguous_of_definitionCommands :
    ∀ command ∈ definitionCommands, Unambiguous command.2 := by
  simp only [definitionCommands, List.forall_mem_cons]
  exact ⟨⟨by decide, by decide, by decide, by decide⟩, ⟨by decide, by decide, by decide, by decide⟩,
    ⟨by decide, by decide, by decide, by decide⟩, List.forall_mem_nil _⟩

/-- No path of a definition is empty. -/
theorem nonempty_of_fits {name : String} {switches : List Switch}
    (named : (name, switches) ∈ definitionCommands) {value : String}
    (fits : Reading.Fits switches ("api-model", value)) : value ≠ "" := by
  have path : ∀ command ∈ definitionCommands, ∀ switch ∈ command.2, switch.name = "api-model" →
      switch.takes = .path := by
    decide
  obtain ⟨switch, listed, same, takes | accepts⟩ := fits
  · rw [path _ named switch listed same] at takes
    cases takes
  · simpa [Switch.Accepts, path _ named switch listed same] using accepts

/-! ### Arguments -/

section Arguments

variable {reading : Reading} {arguments : DefinitionArguments}

theorem ofReading_eq_ok (ok : DefinitionArguments.ofReading reading = .ok arguments) :
    reading.plain.length ≤ 1 ∧ reading.meetsNeeds = true ∧
      arguments =
        { plainPath := reading.plain.head?
          definitionPath := reading.value? "api-model"
          outputDirectory := reading.value? "output-directory"
          caCertificatePath := reading.value? "ca-certificate-path"
          caPrivateKeyPath := reading.value? "ca-private-key-path"
          dnsPrefix := reading.value? "dns-prefix"
          sshPublicKey := reading.value? "ssh-public-key"
          clientId := reading.value? "client-id"
          clientSecret := reading.value? "client-secret" } := by
  unfold DefinitionArguments.ofReading at ok
  split at ok
  · cases ok
  · rename_i sound
    simp only [not_or, Nat.not_lt, Bool.not_eq_true', Bool.not_eq_false] at sound
    cases ok
    exact ⟨sound.1, sound.2.2, rfl⟩

/-- What is needed by the switches that are given is given, all the way. -/
theorem given_of_meetsNeeds (met : reading.meetsNeeds = true) :
    ((∃ name ∈ overrideSwitches, Given reading.given name) →
      Given reading.given "dns-prefix" ∧ Given reading.given "ssh-public-key") ∧
    (Given reading.given "client-id" ↔ Given reading.given "client-secret") := by
  simp only [Reading.meetsNeeds, needs, List.all_cons, List.all_nil, Bool.and_true,
    Bool.and_eq_true, Bool.or_eq_true, Bool.not_eq_true', ← Bool.not_eq_true,
    Reading.isGiven_iff, ← imp_iff_not_or] at met
  obtain ⟨prefixNeeds, keyNeeds, idNeeds, idNeedsPrefix, secretNeeds⟩ := met
  refine ⟨?_, idNeeds, secretNeeds⟩
  have both (there : Given reading.given "dns-prefix") :
      Given reading.given "dns-prefix" ∧ Given reading.given "ssh-public-key" :=
    ⟨there, prefixNeeds there⟩
  rintro ⟨name, listed, there⟩
  simp only [overrideSwitches, List.mem_cons, List.not_mem_nil, or_false] at listed
  rcases listed with rfl | rfl | rfl | rfl
  · exact both there
  · exact both (keyNeeds there)
  · exact both (idNeedsPrefix there)
  · exact both (idNeedsPrefix (secretNeeds there))

theorem exists_value?_of_given {name : String} (there : Given reading.given name) :
    ∃ value, reading.value? name = some value :=
  Option.isSome_iff_exists.mp (Reading.isGiven_iff.mpr there)

theorem value?_of_not_given {name : String} (absent : ¬ Given reading.given name) :
    reading.value? name = none :=
  Option.not_isSome_iff_eq_none.mp fun there => absent (Reading.isGiven_iff.mp there)

variable (once : OnceEach reading.given)
  (read : DefinitionArguments.ofReading reading = .ok arguments)
include once read

/-- The principal that arguments ask for is the one that is given. -/
theorem statesPrincipal_of_reading {overrides : Overrides}
    (asked : arguments.overrides? = some overrides) :
    StatesPrincipal reading.given overrides.servicePrincipal := by
  obtain ⟨-, met, rfl⟩ := ofReading_eq_ok read
  obtain ⟨-, together⟩ := given_of_meetsNeeds met
  simp only [DefinitionArguments.overrides?, Option.map_eq_some_iff] at asked
  obtain ⟨-, -, rfl⟩ := asked
  by_cases idGiven : Given reading.given "client-id"
  · obtain ⟨id, idValue⟩ := exists_value?_of_given idGiven
    obtain ⟨secret, secretValue⟩ := exists_value?_of_given (together.mp idGiven)
    simp only [idValue, secretValue]
    exact ⟨(Reading.value?_eq_some_iff once).mp idValue,
      (Reading.value?_eq_some_iff once).mp secretValue⟩
  · simp only [value?_of_not_given idGiven]
    exact ⟨idGiven, fun secretGiven => idGiven (together.mpr secretGiven)⟩

/-- The overrides that arguments ask for are the ones that are given. -/
theorem overrides_of_reading :
    ((∀ name ∈ overrideSwitches, ¬ Given reading.given name) → arguments.overrides? = none) ∧
    ((∃ name ∈ overrideSwitches, Given reading.given name) →
      ∃ overrides, arguments.overrides? = some overrides ∧
        ("dns-prefix", overrides.dnsPrefix) ∈ reading.given ∧
          ("ssh-public-key", overrides.sshPublicKey) ∈ reading.given ∧
            StatesPrincipal reading.given overrides.servicePrincipal) := by
  obtain ⟨-, met, same⟩ := ofReading_eq_ok read
  obtain ⟨both, -⟩ := given_of_meetsNeeds met
  constructor
  · intro none
    have absent := value?_of_not_given (none "dns-prefix" List.mem_cons_self)
    rw [DefinitionArguments.overrides?, same, absent, Option.map_none]
  · intro some
    obtain ⟨prefixGiven, keyGiven⟩ := both some
    obtain ⟨dnsPrefix, prefixValue⟩ := exists_value?_of_given prefixGiven
    obtain ⟨key, keyValue⟩ := exists_value?_of_given keyGiven
    cases asked : arguments.overrides? with
    | none =>
        rw [DefinitionArguments.overrides?, same, prefixValue] at asked
        cases asked
    | some overrides =>
        have principal := statesPrincipal_of_reading once read asked
        refine ⟨overrides, rfl, ?_, ?_, principal⟩
        all_goals
          rw [DefinitionArguments.overrides?, same, prefixValue, keyValue] at asked
          cases asked
          apply (Reading.value?_eq_some_iff once).mp
          assumption

/-- The path of arguments is the given one. There is none only if none is given. -/
theorem path_of_reading (nonempty : ∀ value, ("api-model", value) ∈ reading.given → value ≠ "") :
    match arguments.path? with
    | some path => ("api-model", path) ∈ reading.given ∨
        ¬ Given reading.given "api-model" ∧ reading.plain = [path]
    | none => ¬ Given reading.given "api-model" ∧ reading.plain = [] := by
  obtain ⟨atMostOne, -, rfl⟩ := ofReading_eq_ok read
  by_cases there : Given reading.given "api-model"
  · obtain ⟨path, value⟩ := exists_value?_of_given there
    have mem := (Reading.value?_eq_some_iff once).mp value
    have kept : nonEmpty (some path) = some path := by
      simp [nonEmpty, Option.filter, nonempty path mem]
    simp only [DefinitionArguments.path?, value, kept]
    exact .inl mem
  · simp only [DefinitionArguments.path?, value?_of_not_given there]
    cases plain : reading.plain with
    | nil => exact ⟨there, rfl⟩
    | cons path more =>
        rw [plain] at atMostOne
        obtain rfl : more = [] := List.length_eq_zero_iff.mp (by simpa using atMostOne)
        exact .inr ⟨there, rfl⟩

end Arguments

/-! ### Requests -/

/-- A request is made as it is given, or there is none because no path is given. -/
def AsGiven (given : List (String × String)) (plain : List String) :
    Except Failure Request → Prop
  | .ok request => Honours given plain request
  | .error failure => failure = .noDefinition ∧ ¬ Given given "api-model" ∧ plain = []

/-- The switches of the generating command change nothing of this. -/
theorem AsGiven.adjust {given : List (String × String)} {plain : List String}
    {made : Except Failure Request} (asGiven : AsGiven given plain made)
    (classic compact parametersOnly : Bool) :
    AsGiven given plain (made.map fun request =>
      { request with
        options := CommandLine.adjust request.options classic compact parametersOnly }) := by
  cases made with
  | error failure => exact asGiven
  | ok request => exact ⟨asGiven.unasked, asGiven.asked, asGiven.path⟩

section Commands

variable {name : String} {switches : List Switch} {words : List String} {reading : Reading}

theorem asGiven_of_feedAll (named : (name, switches) ∈ definitionCommands)
    (ok : Reading.feedAll switches {} words = .ok reading) {arguments : DefinitionArguments}
    (read : DefinitionArguments.ofReading reading = .ok arguments) (settings : Settings) :
    AsGiven reading.given reading.plain (arguments.request settings) := by
  obtain ⟨once, spelled⟩ :=
    Reading.spells_iff_of_feedAll (unambiguous_of_definitionCommands _ named) ok
  have fits := Reading.fits_of_spells ((spelled _ _).mpr ⟨rfl, rfl⟩)
  have path := path_of_reading once read fun value mem => nonempty_of_fits named (fits _ mem)
  obtain ⟨unasked, asked⟩ := overrides_of_reading once read
  unfold DefinitionArguments.request
  split at path
  · rename_i path found
    rw [found]
    exact ⟨unasked, asked, path⟩
  · rename_i found
    rw [found]
    exact ⟨rfl, path⟩

theorem exists_of_bind {α β ε : Type} {x : Except ε α} {f : α → Except ε β} {y : β}
    (ok : x >>= f = .ok y) : ∃ a, x = .ok a ∧ f a = .ok y := by
  cases x with
  | error e => cases ok
  | ok a => exact ⟨a, rfl, ok⟩

/-- A command on a definition makes its request as it was read. -/
theorem asGiven_of_command {command : Command} (ok : Command.ofWords name words = .ok command)
    {settings : Settings} {made : Except Failure Request}
    (asked : command.request? settings = some made) :
    ∃ switches reading, (name, switches) ∈ definitionCommands ∧
      Reading.feedAll switches {} words = .ok reading ∧
        AsGiven reading.given reading.plain made := by
  unfold Command.ofWords at ok
  split at ok
  case h_1 | h_2 =>
    obtain ⟨reading, fed, ok⟩ := exists_of_bind ok
    obtain ⟨arguments, read, ok⟩ := exists_of_bind ok
    cases ok
    cases asked
    refine ⟨generateSwitches, reading, by simp [definitionCommands], fed, ?_⟩
    have named : ("generate", generateSwitches) ∈ definitionCommands := List.mem_cons_self
    exact (asGiven_of_feedAll named fed read settings).adjust _ _ _
  case h_3 =>
    obtain ⟨reading, fed, ok⟩ := exists_of_bind ok
    obtain ⟨arguments, read, ok⟩ := exists_of_bind ok
    cases ok
    cases asked
    have named : ("validate", definitionSwitches) ∈ definitionCommands := by
      simp [definitionCommands]
    exact ⟨_, reading, named, fed, asGiven_of_feedAll named fed read settings⟩
  case h_4 | h_5 | h_6 =>
    obtain ⟨_, -, ok⟩ := exists_of_bind ok
    cases ok
    cases asked
  case h_7 => cases ok

end Commands

/-- The words of an accepted command line, in front of the command, its name, and behind it. -/
theorem parts_of_words {words : List String} {invocation : Invocation}
    (accepted : Invocation.ofWords words = .ok invocation) :
    ∃ reading name rest, Reading.feedLeading programSwitches {} words = .ok (reading, rest) ∧
      reading.plain.head? = some name ∧ reading.ended = false ∧
        Command.ofWords name rest = .ok invocation.command := by
  obtain ⟨⟨reading, rest⟩, leading, ok⟩ := exists_of_bind accepted
  simp only at ok
  split at ok
  · rename_i name _ plain
    split at ok
    · cases ok
    · rename_i notEnded
      obtain ⟨command, read, ok⟩ := exists_of_bind ok
      cases ok
      refine ⟨reading, name, rest, leading, ?_, Bool.eq_false_iff.mpr notEnded, read⟩
      rw [plain, List.head?_cons]
  · cases ok

theorem free_of_head? {word : String} (other : word.toList.head? ≠ some '-') :
    Reading.looksLikeSwitch word = false := by
  rw [← Bool.not_eq_true, Reading.looksLikeSwitch_iff]
  rintro ⟨letter, letters, same⟩
  exact other (by rw [same, List.head?_cons])

/-- No name of a command looks like a switch. -/
theorem free_of_definitionCommands : ∀ command ∈ definitionCommands,
    Reading.looksLikeSwitch command.1 = false := by
  have starts : ∀ command ∈ definitionCommands, command.1.toList.head? ≠ some '-' := by decide
  intro command listed
  exact free_of_head? (starts command listed)

theorem switches_of_definitionCommands {name : String} {first second : List Switch}
    (one : (name, first) ∈ definitionCommands) (other : (name, second) ∈ definitionCommands) :
    first = second := by
  have distinct : (definitionCommands.map Prod.fst).Nodup := by decide
  exact congrArg Prod.snd (List.inj_on_of_nodup_map distinct one other rfl)

/-- The name of the command is the first plain word, however the words are spelled. -/
theorem eq_of_leading {words rest start later : List String} {name other : String}
    {front : Reading} {before : List (String × String)}
    (leading : Reading.feedLeading programSwitches {} words = .ok (front, rest))
    (named : front.plain.head? = some name) (same : words = start ++ other :: later)
    (spells : Spells programSwitches start before []) (absent : "--" ∉ start)
    (free : Reading.looksLikeSwitch other = false) : other = name ∧ later = rest := by
  rw [same, Reading.feedLeading_of_spells unambiguous_programSwitches spells rfl absent free
    Reading.isReady_empty rfl] at leading
  cases noted : Reading.note {} before none with
  | error halt =>
      rw [noted] at leading
      cases leading
  | ok next =>
      rw [noted] at leading
      obtain ⟨-, rfl⟩ := Reading.note_eq_ok_iff.mp noted
      cases leading
      exact ⟨Option.some.inj named, rfl⟩

/-- A call is accepted if no switch is given twice, every switch has those it needs, and there is at
most one plain word, which is not empty. -/
theorem accepted_of_calls {leading rest plain : List String} {name : String}
    {switches : List Switch} {before given : List (String × String)}
    (front : Spells programSwitches leading before []) (notEnded : "--" ∉ leading)
    (named : (name, switches) ∈ definitionCommands) (behind : Spells switches rest given plain)
    (onceBefore : OnceEach before) (once : OnceEach given)
    (needed : ∀ need ∈ needs, Given given need.1 → Given given need.2)
    (single : plain.length ≤ 1) (nonempty : "" ∉ plain) :
    ∃ invocation, Invocation.ofWords (leading ++ name :: rest) = .ok invocation ∧
      ∀ settings, ∃ made, invocation.command.request? settings = some made := by
  obtain ⟨ended, read⟩ :=
    Reading.feedAll_of_spells (unambiguous_of_definitionCommands _ named) behind
  let reading : Reading := { given, plain, ended }
  have fed : Reading.feedAll switches {} rest = .ok reading := by
    rw [read {} Reading.isReady_empty, Reading.note_empty once]
    rfl
  have met : reading.meetsNeeds = true := by
    simp only [Reading.meetsNeeds, List.all_eq_true, Bool.or_eq_true, Bool.not_eq_true',
      ← Bool.not_eq_true, Reading.isGiven_iff, ← imp_iff_not_or]
    exact needed
  obtain ⟨arguments, stated⟩ :
      ∃ arguments, DefinitionArguments.ofReading reading = .ok arguments := by
    unfold DefinitionArguments.ofReading
    rw [if_neg (by simp [met, nonempty, reading, single])]
    exact ⟨_, rfl⟩
  obtain ⟨command, understood, asks⟩ : ∃ command, Command.ofWords name rest = .ok command ∧
      ∀ settings, ∃ made, command.request? settings = some made := by
    simp only [definitionCommands, List.mem_cons, Prod.mk.injEq, List.not_mem_nil, or_false]
      at named
    rcases named with ⟨rfl, rfl⟩ | ⟨rfl, rfl⟩ | ⟨rfl, rfl⟩
    all_goals
      simp only [Command.ofWords, bind, Except.bind, fed, stated]
      exact ⟨_, rfl, fun _ => ⟨_, rfl⟩⟩
  have leads : Reading.feedLeading programSwitches {} (leading ++ name :: rest) =
      .ok ({ given := before, plain := [name] }, rest) := by
    rw [Reading.feedLeading_of_spells unambiguous_programSwitches front rfl notEnded
      (free_of_definitionCommands _ named) Reading.isReady_empty rfl,
      Reading.note_empty onceBefore]
    rfl
  simp only [Invocation.ofWords, bind, Except.bind, leads, Bool.false_eq_true, if_false, understood]
  exact ⟨_, rfl, asks⟩

/-- Validation checks the request that was made. -/
theorem validateCommand_of_request {files : Files} {settingsPath : String}
    {arguments : DefinitionArguments} {settings : Settings} {request : Request}
    (loaded : loadSettings files settingsPath = .ok settings)
    (made : (Command.validate arguments).request? settings = some (.ok request)) :
    validateCommand files settingsPath arguments =
      match check request files with
      | .error cause => .error (.invalid request.options.definitionPath cause)
      | .ok validated => .ok (summary validated) := by
  have same : arguments.request settings = .ok request := Option.some.inj made
  unfold validateCommand
  rewrite [loaded]
  dsimp only
  rewrite [same]
  rfl

/-- Generation runs with the request that was made. -/
theorem generateCommand_of_request {issues : Nat → Issue} {disk : Disk} {world : World}
    {settingsPath : String} {arguments : DefinitionArguments}
    {classic compact parametersOnly : Bool} {settings : Settings} {request : Request}
    (loaded : loadSettings world.files settingsPath = .ok settings)
    (made : (Command.generate arguments classic compact parametersOnly).request? settings =
      some (.ok request)) :
    generateCommand issues disk world settingsPath arguments classic compact parametersOnly =
      match (runUnder issues disk settings request world).result with
      | .error cause =>
          (.error (.generation cause), (runUnder issues disk settings request world).world)
      | .ok report =>
          (.ok (reportText report), (runUnder issues disk settings request world).world) := by
  have same := Option.some.inj made
  cases read : arguments.request settings with
  | error failure =>
      rw [read] at same
      cases same
  | ok unadjusted =>
      rw [read] at same
      cases same
      unfold generateCommand
      rewrite [loaded]
      dsimp only
      rewrite [read]
      rfl

/-- **No override on a command line is ignored.** Take a command line that is accepted, and whose
command works on a definition. It is spelled as such a command, and however it is spelled, no switch
is given twice, and the request has exactly the overrides and the path that are given. -/
theorem overrides_as_given {words : List String} {invocation : Invocation}
    (accepted : Invocation.ofWords words = .ok invocation) {settings : Settings}
    {made : Except Failure Request} (asked : invocation.command.request? settings = some made) :
    (∃ given plain, Calls words given plain) ∧
      ∀ given plain, Calls words given plain → OnceEach given ∧ AsGiven given plain made := by
  obtain ⟨front, name, rest, leading, named, notEnded, command⟩ := parts_of_words accepted
  obtain ⟨switches, reading, listed, behind, asGiven⟩ := asGiven_of_command command asked
  obtain ⟨once, spelled⟩ :=
    Reading.spells_iff_of_feedAll (unambiguous_of_definitionCommands _ listed) behind
  constructor
  · have some : front.plain ≠ [] := by
      rintro empty
      rw [empty] at named
      cases named
    obtain ⟨start, other, before, same, spells, absent, free⟩ :=
      Reading.spells_of_feedLeading unambiguous_programSwitches Reading.isReady_empty rfl leading
        some notEnded
    obtain ⟨rfl, -⟩ := eq_of_leading leading named same spells absent free
    rw [same]
    exact ⟨_, _, .call spells absent listed ((spelled _ _).mpr ⟨rfl, rfl⟩)⟩
  · intro given plain calls
    generalize same : words = spelling at calls
    obtain @⟨start, later, _, other, _, _, _, spells, absent, found, more⟩ := calls
    obtain ⟨rfl, rfl⟩ :=
      eq_of_leading leading named same spells absent (free_of_definitionCommands _ found)
    obtain rfl := switches_of_definitionCommands found listed
    obtain ⟨rfl, rfl⟩ := (spelled _ _).mp more
    exact ⟨once, asGiven⟩

/-- All overrides, in another order and in different forms, and two paths. -/
theorem overrides_as_given_all :
    let rest := ["--ssh-public-key=key", "a.json", "--client-secret", "s", "--dns-prefix", "name",
      "--client-id=i", "--api-model", "b.json"]
    let given := [("ssh-public-key", "key"), ("client-secret", "s"), ("dns-prefix", "name"),
      ("client-id", "i"), ("api-model", "b.json")]
    let settings : Settings := {}
    ∃ invocation made, Invocation.ofWords ("-v" :: "gen" :: rest) = .ok invocation ∧
      invocation.command.request? settings = some made ∧
        Calls ("-v" :: "gen" :: rest) given ["a.json"] ∧ AsGiven given ["a.json"] made := by
  intro rest given settings
  have key : Tells generateSwitches ("--ssh-public-key" ++ "=" ++ "key")
      [("ssh-public-key", "key")] none :=
    .joined (by decide : { name := "ssh-public-key", takes := .text } ∈ generateSwitches) trivial
  have secret : Group generateSwitches ["--client-secret", "s"] [("client-secret", "s")] :=
    .valued (.awaiting (by decide : { name := "client-secret", takes := .text } ∈ generateSwitches)
      (by decide)) (free_of_head? (by decide)) trivial
  have dnsPrefix : Group generateSwitches ["--dns-prefix", "name"] [("dns-prefix", "name")] :=
    .valued (.awaiting (by decide : { name := "dns-prefix", takes := .text } ∈ generateSwitches)
      (by decide)) (free_of_head? (by decide)) trivial
  have id : Tells generateSwitches ("--client-id" ++ "=" ++ "i") [("client-id", "i")] none :=
    .joined (by decide : { name := "client-id", takes := .text } ∈ generateSwitches) trivial
  have path : Group generateSwitches ["--api-model", "b.json"] [("api-model", "b.json")] :=
    .valued (.awaiting (by decide : { name := "api-model", takes := .path } ∈ generateSwitches)
      (by decide)) (free_of_head? (by decide)) (show "b.json" ≠ "" by decide)
  have spelled : Spells generateSwitches rest given ["a.json"] :=
    .group (.alone key) <| .plain (free_of_head? (by decide)) <| .group secret <|
      .group dnsPrefix <| .group (.alone id) <| .group path .none
  have verbose : Tells programSwitches "-v" [("verbose", "")] none :=
    .letters rfl (.raised (by decide : { name := "verbose", letter := some 'v' } ∈ programSwitches)
      rfl ⟨rfl, rfl⟩ .none)
  have front : Spells programSwitches ["-v"] [("verbose", "")] [] := .group (.alone verbose) .none
  have listed : ("gen", generateSwitches) ∈ definitionCommands := by simp [definitionCommands]
  have calls : Calls ("-v" :: "gen" :: rest) given ["a.json"] :=
    .call front (by decide) listed spelled
  obtain ⟨invocation, accepted, asks⟩ :=
    accepted_of_calls front (by decide) listed spelled (by decide) (by decide)
      (by unfold Given; decide) (by decide) (by decide)
  obtain ⟨made, asked⟩ := asks settings
  obtain ⟨-, asGiven⟩ := overrides_as_given accepted asked
  exact ⟨invocation, made, accepted, asked, calls, (asGiven _ _ calls).2⟩

end Provision.CommandLine
