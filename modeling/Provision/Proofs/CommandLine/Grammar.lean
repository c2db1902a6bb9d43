import Mathlib.Data.List.Nodup
import Mathlib.Data.List.TakeWhile
import Provision.CommandLine.Invocation

/-!
What the words of a command line give, apart from how they are read.

`Spells` is the grammar of the words that are read against a table of switches: it tells which
switches they give, each with what it takes, and which words are plain. `Tells` is the part for one
word that looks like a switch, `Letters` the part for joined letters.

Reading follows the grammar (`feed_of_tells` for a word, `feedAll_of_spells` for all words,
`feedLeading_of_spells` for those in front of a command): it notes what the words give, in their
order, and fails exactly if a switch is given twice.
-/

namespace Provision.CommandLine

/-! ### The grammar -/

def Switch.Accepts (switch : Switch) (value : String) : Prop :=
  match switch.takes with
  | .nothing => False
  | .path => value ≠ ""
  | .text => True

/-- A switch that takes nothing and does not end the reading. -/
def Switch.IsFlag (switch : Switch) : Prop := switch.takes = .nothing ∧ switch.terminal = false

section Grammar

variable (switches : List Switch)

/-- Joined letters give switches. The last one may await what it takes. -/
inductive Letters : List Char → List (String × String) → Option Switch → Prop
  | none : Letters [] [] none
  | raised {switch : Switch} {letter : Char} {letters : List Char}
      {given : List (String × String)} {awaiting : Option Switch} (listed : switch ∈ switches)
      (own : switch.letter = some letter) (flag : switch.IsFlag)
      (more : Letters letters given awaiting) :
      Letters (letter :: letters) ((switch.name, "") :: given) awaiting
  | joined {switch : Switch} {letter : Char} {letters : List Char} {value : String}
      (listed : switch ∈ switches) (own : switch.letter = some letter)
      (attached : Reading.attachedText letters = some value) (accepts : switch.Accepts value) :
      Letters (letter :: letters) [(switch.name, value)] none
  | awaiting {switch : Switch} {letter : Char} (listed : switch ∈ switches)
      (own : switch.letter = some letter) (takes : switch.takes ≠ .nothing) :
      Letters [letter] [] (some switch)

/-- A word gives switches by their names or by their letters. The last one may await what it
takes. -/
inductive Tells : String → List (String × String) → Option Switch → Prop
  | raised {switch : Switch} (listed : switch ∈ switches) (flag : switch.IsFlag) :
      Tells ("--" ++ switch.name) [(switch.name, "")] none
  | joined {switch : Switch} {value : String} (listed : switch ∈ switches)
      (accepts : switch.Accepts value) :
      Tells ("--" ++ switch.name ++ "=" ++ value) [(switch.name, value)] none
  | awaiting {switch : Switch} (listed : switch ∈ switches) (takes : switch.takes ≠ .nothing) :
      Tells ("--" ++ switch.name) [] (some switch)
  | letters {word : String} {letter : Char} {letters : List Char}
      {given : List (String × String)} {awaiting : Option Switch}
      (behind : word.toList = '-' :: letter :: letters)
      (gives : Letters switches (letter :: letters) given awaiting) : Tells word given awaiting

/-- A word that gives switches, together with the word that is taken by the last one if this awaits
what it takes. -/
inductive Group : List String → List (String × String) → Prop
  | alone {word : String} {given : List (String × String)}
      (told : Tells switches word given none) : Group [word] given
  | valued {word value : String} {given : List (String × String)} {switch : Switch}
      (told : Tells switches word given (some switch))
      (free : Reading.looksLikeSwitch value = false) (accepts : switch.Accepts value) :
      Group [word, value] (given ++ [(switch.name, value)])

/-- Words give switches, each with what it takes, and plain words. Behind a lone `--` all words are
plain. -/
inductive Spells : List String → List (String × String) → List String → Prop
  | none : Spells [] [] []
  | group {group words plain : List String} {given later : List (String × String)}
      (gives : Group switches group given) (more : Spells words later plain) :
      Spells (group ++ words) (given ++ later) plain
  | plain {word : String} {words plain : List String} {given : List (String × String)}
      (free : Reading.looksLikeSwitch word = false) (more : Spells words given plain) :
      Spells (word :: words) given (word :: plain)
  | ended {words : List String} : Spells ("--" :: words) [] words

/-- A table in which every name and every letter leads to one switch. -/
structure Unambiguous : Prop where
  names : ∀ first ∈ switches, ∀ second ∈ switches, first.name = second.name → first = second
  letters : ∀ first ∈ switches, ∀ second ∈ switches, first.letter.isSome →
    first.letter = second.letter → first = second
  spelled : ∀ switch ∈ switches, switch.name ≠ "" ∧ '=' ∉ switch.name.toList
  noHyphen : ∀ switch ∈ switches, switch.letter ≠ some '-'

end Grammar

def OnceEach (given : List (String × String)) : Prop := (given.map Prod.fst).Nodup

instance (given : List (String × String)) : Decidable (OnceEach given) :=
  inferInstanceAs (Decidable (given.map Prod.fst).Nodup)

theorem onceEach_of_append {given later : List (String × String)}
    (once : OnceEach (given ++ later)) : OnceEach given := by
  rw [OnceEach, List.map_append] at once
  exact (List.nodup_append.mp once).1

theorem onceEach_concat_iff {given : List (String × String)} {name value : String}
    (once : OnceEach given) : OnceEach (given ++ [(name, value)]) ↔ name ∉ given.map Prod.fst := by
  have single : ([(name, value)].map Prod.fst).Nodup := List.nodup_singleton name
  rw [OnceEach, List.map_append, List.nodup_append]
  constructor
  · rintro ⟨-, -, apart⟩ mem
    exact apart name mem name List.mem_cons_self rfl
  · intro absent
    refine ⟨once, single, ?_⟩
    rintro other mem _ same rfl
    cases List.mem_singleton.mp same
    exact absent mem

/-! ### Looking up in tables -/

theorem find?_of_unique {α : Type} {p : α → Bool} {xs : List α} {x : α} (mem : x ∈ xs)
    (holds : p x = true) (unique : ∀ y ∈ xs, p y = true → y = x) : xs.find? p = some x := by
  cases found : xs.find? p with
  | none => exact absurd holds (List.find?_eq_none.mp found x mem)
  | some y => rw [unique y (List.mem_of_find?_eq_some found) (List.find?_some found)]

theorem Unambiguous.find?_name {switches : List Switch} {switch : Switch}
    (unambiguous : Unambiguous switches) (listed : switch ∈ switches) :
    switches.find? (·.name == switch.name) = some switch := by
  refine find?_of_unique listed (beq_self_eq_true _) ?_
  intro other mem same
  exact unambiguous.names other mem switch listed (beq_iff_eq.mp same)

theorem Unambiguous.find?_letter {switches : List Switch} {switch : Switch}
    (unambiguous : Unambiguous switches) (listed : switch ∈ switches) {letter : Char}
    (own : switch.letter = some letter) :
    switches.find? (·.letter == some letter) = some switch := by
  refine find?_of_unique listed (beq_iff_eq.mpr own) ?_
  intro other mem same
  have there : other.letter = some letter := beq_iff_eq.mp same
  exact unambiguous.letters other mem switch listed (by rw [there]; rfl) (there.trans own.symm)

theorem Unambiguous.noSign {switches : List Switch} {switch : Switch}
    (unambiguous : Unambiguous switches) (listed : switch ∈ switches) :
    ∀ c ∈ switch.name.toList, (c != '=') = true := by
  obtain ⟨-, absent⟩ := unambiguous.spelled switch listed
  intro c mem
  rw [bne_iff_ne]
  rintro rfl
  exact absent mem

namespace Reading

variable {switches : List Switch} {switch : Switch} {reading next : Reading}
  {word value : String} {words plain : List String} {given later : List (String × String)}
  {awaiting : Option Switch}

/-! ### Noting -/

/-- Nothing is awaited, switches have not been ended, and none was given twice. -/
structure IsReady (reading : Reading) : Prop where
  awaiting : reading.awaiting = none
  ended : reading.ended = false
  once : OnceEach reading.given

theorem isReady_empty : IsReady {} := ⟨rfl, rfl, List.nodup_nil⟩

/-- Note what words give, unless a switch is given twice. -/
def note (reading : Reading) (given : List (String × String)) (awaiting : Option Switch) :
    Except Halt Reading :=
  if OnceEach (reading.given ++ given) then
    .ok { reading with given := reading.given ++ given, awaiting }
  else .error .misuse

theorem note_eq_ok_iff :
    reading.note given awaiting = .ok next ↔ OnceEach (reading.given ++ given) ∧
      { reading with given := reading.given ++ given, awaiting } = next := by
  unfold note
  split <;> simp_all

theorem note_empty (once : OnceEach given) : note {} given none = .ok { given } :=
  note_eq_ok_iff.mpr ⟨once, rfl⟩

/-- Words are noted in parts, whatever is awaited in between. -/
theorem note_append (between : Option Switch) :
    reading.note (given ++ later) awaiting =
      match reading.note given between with
      | .error halt => .error halt
      | .ok next => next.note later awaiting := by
  unfold note
  by_cases once : OnceEach (reading.given ++ given)
  · simp only [once, if_true, List.append_assoc]
  · have twice : ¬ OnceEach (reading.given ++ (given ++ later)) := by
      rw [← List.append_assoc]
      exact fun all => once (onceEach_of_append all)
    simp only [once, twice, if_false]

theorem note_nil (once : OnceEach reading.given) :
    reading.note [] awaiting = .ok { reading with awaiting } := by
  simp [note, once]

theorem IsReady.note_nil (ready : reading.IsReady) : reading.note [] none = .ok reading := by
  rw [Reading.note_nil ready.once, ← ready.awaiting]

/-- After words that await nothing, the reading is ready for more. -/
theorem IsReady.of_note (ready : reading.IsReady) (ok : reading.note given none = .ok next) :
    next.IsReady := by
  obtain ⟨once, rfl⟩ := note_eq_ok_iff.mp ok
  exact ⟨rfl, ready.ended, once⟩

theorem isGiven_iff {name : String} :
    reading.isGiven name = true ↔ name ∈ reading.given.map Prod.fst := by
  simp only [isGiven, value?, Option.isSome_map, List.find?_isSome, beq_iff_eq, List.mem_map]

/-- What is given to a switch is noted, if the switch can take it or is a flag. -/
theorem give_eq_note (once : OnceEach reading.given)
    (fits : switch.takes = .path → value ≠ "") :
    reading.give switch value = reading.note [(switch.name, value)] none := by
  have notEmpty : ¬ (switch.takes = .path ∧ value.isEmpty = true) := by
    rintro ⟨path, empty⟩
    exact fits path (String.isEmpty_iff.mp empty)
  unfold give note
  by_cases before : switch.name ∈ reading.given.map Prod.fst
  · rw [if_pos (isGiven_iff.mpr before),
      if_neg (fun all => (onceEach_concat_iff once).mp all before)]
  · rw [if_neg (fun there => before (isGiven_iff.mp there)), if_neg notEmpty,
      if_pos ((onceEach_concat_iff once).mpr before)]

theorem give_accepted (once : OnceEach reading.given) (accepts : switch.Accepts value) :
    reading.give switch value = reading.note [(switch.name, value)] none := by
  refine give_eq_note once ?_
  intro path empty
  simp only [Switch.Accepts, path] at accepts
  exact accepts empty

theorem raise_flag (once : OnceEach reading.given) (flag : switch.IsFlag) :
    reading.raise switch = reading.note [(switch.name, "")] none := by
  obtain ⟨takes, notTerminal⟩ := flag
  rw [raise, notTerminal, if_neg Bool.false_ne_true]
  refine give_eq_note once ?_
  intro path
  rw [takes] at path
  cases path

/-- A switch that takes something accepts what it was given. -/
theorem accepts_of_give (takes : switch.takes ≠ .nothing)
    (ok : reading.give switch value = .ok next) : switch.Accepts value := by
  unfold give at ok
  split at ok
  · cases ok
  · split at ok
    · cases ok
    · rename_i notEmpty
      unfold Switch.Accepts
      cases kind : switch.takes with
      | nothing => exact takes kind
      | path => exact fun empty => notEmpty ⟨kind, String.isEmpty_iff.mpr empty⟩
      | text => trivial

theorem isFlag_of_raise (takes : switch.takes = .nothing)
    (ok : reading.raise switch = .ok next) : switch.IsFlag := by
  unfold raise at ok
  split at ok
  · cases ok
  · rename_i notTerminal
    exact ⟨takes, Bool.eq_false_iff.mpr notTerminal⟩

/-! ### Attaching -/

theorem attach_flag (flag : switch.IsFlag) : reading.attach switch none = reading.raise switch := by
  simp only [attach, flag.1]

theorem attach_value (takes : switch.takes ≠ .nothing) :
    reading.attach switch (some value) = reading.give switch value := by
  unfold attach
  cases kind : switch.takes with
  | nothing => exact absurd kind takes
  | path => rfl
  | text => rfl

theorem attach_nothing (takes : switch.takes ≠ .nothing) :
    reading.attach switch none = .ok { reading with awaiting := some switch } := by
  unfold attach
  cases kind : switch.takes with
  | nothing => exact absurd kind takes
  | path => rfl
  | text => rfl

theorem takes_of_accepts (accepts : switch.Accepts value) : switch.takes ≠ .nothing := by
  intro nothing
  simp only [Switch.Accepts, nothing] at accepts

/-! ### Reading follows the grammar -/

/-- Letters of the grammar are noted. -/
theorem feedLetters_of_letters (unambiguous : Unambiguous switches) {letters : List Char}
    (gives : Letters switches letters given awaiting) (ready : reading.IsReady) :
    reading.feedLetters switches letters = reading.note given awaiting := by
  induction gives generalizing reading with
  | none => exact ready.note_nil.symm
  | @raised switch _ letters given awaiting listed own flag more ih =>
      rw [feedLetters, unambiguous.find?_letter listed own]
      simp only [flag.1, if_true]
      rw [raise_flag ready.once flag,
        show (switch.name, "") :: given = [(switch.name, "")] ++ given from rfl,
        note_append none]
      cases noted : reading.note [(switch.name, "")] none with
      | error halt => rfl
      | ok next => exact ih (ready.of_note noted)
  | joined listed own attached accepts =>
      have takes := takes_of_accepts accepts
      rw [feedLetters, unambiguous.find?_letter listed own]
      simp only [takes, if_false]
      rw [attached, attach_value takes, give_accepted ready.once accepts]
  | awaiting listed own takes =>
      rw [feedLetters, unambiguous.find?_letter listed own]
      simp only [takes, if_false]
      rw [attachedText, attach_nothing takes, note_nil ready.once]

/-- A name, with or without what is attached to it behind an equals sign. -/
theorem feedName_of_name (unambiguous : Unambiguous switches) (listed : switch ∈ switches) :
    reading.feedName switches switch.name.toList = reading.attach switch none := by
  have all := unambiguous.noSign listed
  rw [feedName, List.takeWhile_eq_self_iff.mpr all, String.ofList_toList,
    unambiguous.find?_name listed, List.dropWhile_eq_nil_iff.mpr all]

theorem feedName_of_joined (unambiguous : Unambiguous switches) (listed : switch ∈ switches) :
    reading.feedName switches (switch.name.toList ++ '=' :: value.toList) =
      reading.attach switch (some value) := by
  have all := unambiguous.noSign listed
  rw [feedName, List.takeWhile_append_of_pos all, List.dropWhile_append_of_pos all]
  simp [unambiguous.find?_name listed]

theorem looksLikeSwitch_iff :
    looksLikeSwitch word = true ↔ ∃ letter letters, word.toList = '-' :: letter :: letters := by
  have hyphen : word = "-" ↔ word.toList = ['-'] := by
    rw [← String.toList_inj]
    rfl
  simp only [looksLikeSwitch, Bool.and_eq_true, String.startsWith_string_iff, bne_iff_ne, ne_eq,
    hyphen]
  cases word.toList with
  | nil => simp
  | cons letter letters =>
      cases letters with
      | nil => simpa using eq_comm.mp
      | cons => simp [eq_comm]

/-- A ready reading takes a word that does not look like a switch as a plain one. -/
theorem feed_of_free (ready : reading.IsReady) (free : looksLikeSwitch word = false) :
    reading.feed switches word = .ok { reading with plain := reading.plain ++ [word] } := by
  have noSwitch : ¬ ∃ letter letters, word.toList = '-' :: letter :: letters := by
    rw [← looksLikeSwitch_iff, free]
    exact Bool.false_ne_true
  simp only [feed, ready.awaiting, ready.ended, Bool.false_eq_true, if_false]
  split
  · rename_i same
    exact absurd ⟨_, _, same⟩ noSwitch
  · rename_i same
    exact absurd ⟨_, _, same⟩ noSwitch
  · rename_i same
    exact absurd ⟨_, _, same⟩ noSwitch
  · rfl

theorem feed_of_name (ready : reading.IsReady) {c : Char} {body : List Char}
    (behind : word.toList = '-' :: '-' :: c :: body) :
    reading.feed switches word = reading.feedName switches (c :: body) := by
  simp only [feed, ready.awaiting, ready.ended, behind, Bool.false_eq_true, if_false]

theorem feed_of_joinedLetters (ready : reading.IsReady) {letter : Char} {letters : List Char}
    (behind : word.toList = '-' :: letter :: letters) (other : letter ≠ '-') :
    reading.feed switches word = reading.feedLetters switches (letter :: letters) := by
  simp only [feed, ready.awaiting, ready.ended, behind, Bool.false_eq_true, if_false]
  split
  · rename_i same
    cases same
    contradiction
  · rename_i same
    cases same
    contradiction
  · rename_i same
    cases same
    rfl
  · rename_i noLetters
    exact absurd rfl (noLetters letter letters)

theorem feed_of_terminator (ready : reading.IsReady) :
    reading.feed switches "--" = .ok { reading with ended := true } := by
  simp only [feed, ready.awaiting, ready.ended, Bool.false_eq_true, if_false]
  rfl

/-- A word that looks like a switch is noted. -/
theorem feed_of_tells (unambiguous : Unambiguous switches) (ready : reading.IsReady)
    (told : Tells switches word given awaiting) :
    reading.feed switches word = reading.note given awaiting := by
  have named {switch : Switch} (listed : switch ∈ switches) (rest : String) :
      reading.feed switches ("--" ++ switch.name ++ rest) =
        reading.feedName switches (switch.name.toList ++ rest.toList) := by
    obtain ⟨c, name, same⟩ : ∃ c name, switch.name.toList = c :: name :=
      List.exists_cons_of_ne_nil fun empty =>
        (unambiguous.spelled switch listed).1 (String.toList_eq_nil_iff.mp empty)
    rw [same]
    exact feed_of_name ready (by simp [same])
  cases told with
  | @raised switch listed flag =>
      have read := named listed ""
      simp only [String.append_empty, String.toList_empty, List.append_nil] at read
      rw [read, feedName_of_name unambiguous listed, attach_flag flag, raise_flag ready.once flag]
  | @joined switch value listed accepts =>
      have read := named listed ("=" ++ value)
      rw [← String.append_assoc] at read
      rw [read, String.toList_append]
      exact (feedName_of_joined unambiguous listed).trans
        ((attach_value (takes_of_accepts accepts)).trans (give_accepted ready.once accepts))
  | @awaiting switch listed takes =>
      have read := named listed ""
      simp only [String.append_empty, String.toList_empty, List.append_nil] at read
      rw [read, feedName_of_name unambiguous listed, attach_nothing takes, note_nil ready.once]
  | @letters _ letter letters _ _ behind gives =>
      have other : letter ≠ '-' := by
        rintro rfl
        cases gives with
        | raised listed own => exact unambiguous.noHyphen _ listed own
        | joined listed own => exact unambiguous.noHyphen _ listed own
        | awaiting listed own => exact unambiguous.noHyphen _ listed own
      rw [feed_of_joinedLetters ready behind other]
      exact feedLetters_of_letters unambiguous gives ready

/-- What was awaited is noted. -/
theorem feed_of_value (waiting : reading.awaiting = some switch) (once : OnceEach reading.given)
    (free : looksLikeSwitch value = false) (accepts : switch.Accepts value) :
    reading.feed switches value = reading.note [(switch.name, value)] none := by
  simp only [feed, waiting, free, Bool.false_eq_true, if_false]
  exact give_accepted once accepts

/-- A group of words is noted, and the words behind it are read next. -/
theorem feedAll_of_group (unambiguous : Unambiguous switches) {group : List String}
    (gives : Group switches group given) (ready : reading.IsReady) :
    reading.feedAll switches (group ++ words) =
      match reading.note given none with
      | .error halt => .error halt
      | .ok next => next.feedAll switches words := by
  cases gives with
  | alone told =>
      rewrite [List.singleton_append, feedAll, feed_of_tells unambiguous ready told]
      rfl
  | @valued word value given switch told free accepts =>
      rw [List.cons_append, feedAll, feed_of_tells unambiguous ready told,
        note_append (some switch)]
      cases noted : reading.note given (some switch) with
      | error halt => rfl
      | ok next =>
          obtain ⟨once, rfl⟩ := note_eq_ok_iff.mp noted
          simp only [List.singleton_append, feedAll]
          rewrite [feed_of_value rfl once free accepts]
          rfl

theorem plain_of_note (ok : reading.note given awaiting = .ok next) :
    next.plain = reading.plain := by
  obtain ⟨-, rfl⟩ := note_eq_ok_iff.mp ok
  rfl

/-- The same, as long as no plain word was read. -/
theorem feedLeading_of_group (unambiguous : Unambiguous switches) {group : List String}
    (gives : Group switches group given) (ready : reading.IsReady) (fresh : reading.plain = []) :
    reading.feedLeading switches (group ++ words) =
      match reading.note given none with
      | .error halt => .error halt
      | .ok next => next.feedLeading switches words := by
  cases gives with
  | alone told =>
      rw [List.singleton_append, feedLeading, feed_of_tells unambiguous ready told]
      cases noted : reading.note given none with
      | error halt => rfl
      | ok next => simp only [plain_of_note noted, fresh, List.isEmpty_nil, if_true]
  | @valued word value given switch told free accepts =>
      rw [List.cons_append, feedLeading, feed_of_tells unambiguous ready told,
        note_append (some switch)]
      cases noted : reading.note given (some switch) with
      | error halt => rfl
      | ok waiting =>
          obtain ⟨once, rfl⟩ := note_eq_ok_iff.mp noted
          simp only [fresh, List.isEmpty_nil, if_true]
          rw [List.singleton_append, feedLeading, feed_of_value rfl once free accepts]
          cases filled : note _ [(switch.name, value)] none with
          | error halt => rfl
          | ok next => simp only [plain_of_note filled, List.isEmpty_nil, if_true]

/-- Behind the end of the switches all words are plain. -/
theorem feedAll_of_ended (waiting : reading.awaiting = none) (ended : reading.ended = true) :
    reading.feedAll switches words = .ok { reading with plain := reading.plain ++ words } := by
  induction words generalizing reading with
  | nil =>
      cases reading
      cases waiting
      simp [feedAll]
  | cons word words ih =>
      rw [feedAll]
      simp only [feed, waiting, ended, if_true]
      rw [ih rfl rfl]
      simp

def withPlain (reading : Reading) (plain : List String) (ended : Bool) : Reading :=
  { reading with plain := reading.plain ++ plain, ended }

/-- Words of the grammar are noted. -/
theorem feedAll_of_spells (unambiguous : Unambiguous switches)
    (spelled : Spells switches words given plain) :
    ∃ ended, ∀ reading : Reading, reading.IsReady → reading.feedAll switches words =
      (reading.note given none).map (·.withPlain plain ended) := by
  induction spelled with
  | none =>
      refine ⟨false, ?_⟩
      intro reading ready
      rw [ready.note_nil, feedAll, ready.awaiting]
      simp [withPlain, Except.map, ← ready.ended]
  | @group group words plain given later gives more ih =>
      obtain ⟨ended, ih⟩ := ih
      refine ⟨ended, ?_⟩
      intro reading ready
      rw [feedAll_of_group unambiguous gives ready, note_append none]
      cases noted : reading.note given none with
      | error halt => rfl
      | ok next => exact ih next (ready.of_note noted)
  | @plain word words plain given free more ih =>
      obtain ⟨ended, ih⟩ := ih
      refine ⟨ended, ?_⟩
      intro reading ready
      rw [feedAll, feed_of_free ready free]
      refine (ih { reading with plain := reading.plain ++ [word] }
        ⟨ready.awaiting, ready.ended, ready.once⟩).trans ?_
      unfold note
      split <;> simp [Except.map, withPlain]
  | ended =>
      refine ⟨true, ?_⟩
      intro reading ready
      rw [feedAll, feed_of_terminator ready, ready.note_nil]
      exact feedAll_of_ended ready.awaiting rfl

/-- Words of the grammar in front of the first plain word are noted, and the words behind it are
left. -/
theorem feedLeading_of_spells (unambiguous : Unambiguous switches)
    (spelled : Spells switches words given plain) (noPlain : plain = [])
    (notEnded : "--" ∉ words) {name : String} (free : looksLikeSwitch name = false)
    {rest : List String} (ready : reading.IsReady) (fresh : reading.plain = []) :
    reading.feedLeading switches (words ++ name :: rest) =
      (reading.note given none).map (·.withPlain [name] false, rest) := by
  induction spelled generalizing reading with
  | none =>
      rw [ready.note_nil, List.nil_append, feedLeading, feed_of_free ready free]
      simp [withPlain, Except.map, ← ready.ended]
  | @group group words plain given later gives more ih =>
      have behind : "--" ∉ words := fun mem => notEnded (List.mem_append_right group mem)
      rw [List.append_assoc, feedLeading_of_group unambiguous gives ready fresh, note_append none]
      cases noted : reading.note given none with
      | error halt => rfl
      | ok next =>
          exact ih noPlain behind (ready.of_note noted) ((plain_of_note noted).trans fresh)
  | plain free more ih => cases noPlain
  | ended => exact absurd List.mem_cons_self notEnded

end Reading

end Provision.CommandLine
