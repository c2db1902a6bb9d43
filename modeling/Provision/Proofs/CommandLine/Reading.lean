import Provision.Proofs.CommandLine.Grammar

/-!
Only words of the grammar are read.

Words that were read spell something (`spells_of_feedAll`, and `spells_of_feedLeading` for the words
in front of the command), and since reading follows the grammar they spell just what was noted
(`spells_iff_of_feedAll`). What they give to a switch is something that the switch can take
(`fits_of_spells`).
-/

namespace Provision.CommandLine.Reading

variable {switches : List Switch} {switch : Switch} {reading next : Reading}
  {word value : String} {words plain : List String} {given : List (String × String)}
  {awaiting : Option Switch}

/-- Letters are only read if they give switches. -/
theorem letters_of_feedLetters {letters : List Char}
    (ok : reading.feedLetters switches letters = .ok next) :
    ∃ given awaiting, Letters switches letters given awaiting := by
  induction letters generalizing reading with
  | nil => exact ⟨[], none, .none⟩
  | cons letter letters ih =>
      rw [feedLetters] at ok
      split at ok
      · cases ok
      · rename_i switch found
        have listed := List.mem_of_find?_eq_some found
        have own : switch.letter = some letter := by simpa using List.find?_some found
        split at ok
        · rename_i takes
          split at ok
          · cases ok
          · rename_i raised
            obtain ⟨given, awaiting, more⟩ := ih ok
            exact ⟨_, _, .raised listed own (isFlag_of_raise takes raised) more⟩
        · rename_i takes
          cases attached : attachedText letters with
          | none =>
              cases letters with
              | nil => exact ⟨_, _, .awaiting listed own takes⟩
              | cons first others =>
                  unfold attachedText at attached
                  split at attached <;> contradiction
          | some value =>
              rw [attached, attach_value takes] at ok
              exact ⟨_, _, .joined listed own attached (accepts_of_give takes ok)⟩

/-- A name is only read if it is that of a switch, with something attached if this takes it. -/
theorem tells_of_feedName {body : List Char} (behind : word.toList = '-' :: '-' :: body)
    (ok : reading.feedName switches body = .ok next) :
    ∃ given awaiting, Tells switches word given awaiting := by
  simp only [feedName] at ok
  split at ok
  · cases ok
  · rename_i switch found
    have listed := List.mem_of_find?_eq_some found
    have named : switch.name = String.ofList (body.takeWhile (· != '=')) := by
      simpa using List.find?_some found
    have parts : body = body.takeWhile (· != '=') ++ body.dropWhile (· != '=') :=
      List.takeWhile_append_dropWhile.symm
    split at ok
    · rename_i rest
      rw [rest] at parts
      have whole : word = "--" ++ switch.name := by
        rw [← String.toList_inj, behind, named]
        simpa using parts
      rw [whole]
      by_cases takes : switch.takes = .nothing
      · simp only [attach, takes] at ok
        exact ⟨_, _, .raised listed (isFlag_of_raise takes ok)⟩
      · exact ⟨_, _, .awaiting listed takes⟩
    · rename_i sign value rest
      have stopped := List.head?_dropWhile_not (· != '=') body
      rw [rest] at stopped
      obtain rfl : sign = '=' := by simpa using stopped
      rw [rest] at parts
      have whole : word = "--" ++ switch.name ++ "=" ++ String.ofList value := by
        rw [← String.toList_inj, behind, named]
        simpa using parts
      rw [whole]
      by_cases takes : switch.takes = .nothing
      · simp only [attach, takes] at ok
        cases ok
      · rw [attach_value takes] at ok
        exact ⟨_, _, .joined listed (accepts_of_give takes ok)⟩

/-- A word that looks like a switch is only read if it gives switches. -/
theorem tells_of_feed (ready : reading.IsReady) (looks : looksLikeSwitch word = true)
    (notEnd : word ≠ "--") (ok : reading.feed switches word = .ok next) :
    ∃ given awaiting, Tells switches word given awaiting := by
  obtain ⟨letter, letters, behind⟩ := looksLikeSwitch_iff.mp looks
  by_cases hyphen : letter = '-'
  · subst hyphen
    cases letters with
    | nil => exact absurd (String.toList_inj.mp behind) notEnd
    | cons c body =>
        rw [feed_of_name ready behind] at ok
        exact tells_of_feedName behind ok
  · rw [feed_of_joinedLetters ready behind hyphen] at ok
    obtain ⟨given, awaiting, gives⟩ := letters_of_feedLetters ok
    exact ⟨given, awaiting, .letters behind gives⟩

/-- A value is only taken if it does not look like a switch, and if it is accepted. -/
theorem accepts_of_feed (waiting : reading.awaiting = some switch) (takes : switch.takes ≠ .nothing)
    (ok : reading.feed switches value = .ok next) :
    looksLikeSwitch value = false ∧ switch.Accepts value := by
  simp only [feed, waiting] at ok
  split at ok
  · cases ok
  · rename_i free
    exact ⟨Bool.eq_false_iff.mpr free, accepts_of_give takes ok⟩

/-- Only a switch of the table that takes something is awaited. -/
theorem awaited_of_letters {letters : List Char}
    (gives : Letters switches letters given (some switch)) :
    switch ∈ switches ∧ switch.takes ≠ .nothing := by
  generalize same : some switch = awaiting at gives
  induction gives with
  | none => cases same
  | raised _ _ _ _ ih => exact ih same
  | joined => cases same
  | awaiting listed _ takes =>
      cases same
      exact ⟨listed, takes⟩

theorem awaited_of_tells (told : Tells switches word given (some switch)) :
    switch ∈ switches ∧ switch.takes ≠ .nothing := by
  cases told with
  | awaiting listed takes => exact ⟨listed, takes⟩
  | letters _ gives => exact awaited_of_letters gives

/-- A word that gives switches begins a group, if it was read together with the next word where it
awaits one. -/
theorem exists_group (unambiguous : Unambiguous switches) (ready : reading.IsReady)
    (told : Tells switches word given awaiting) (fed : reading.feed switches word = .ok next)
    (more : ∀ switch, next.awaiting = some switch → ∃ value behind after,
      words = value :: behind ∧ next.feed switches value = .ok after) :
    ∃ group rest given, word :: words = group ++ rest ∧ Group switches group given ∧
      rest.length < (word :: words).length := by
  cases awaiting with
  | none => exact ⟨[word], words, given, rfl, .alone told, by simp⟩
  | some switch =>
      rw [feed_of_tells unambiguous ready told] at fed
      obtain ⟨-, rfl⟩ := note_eq_ok_iff.mp fed
      obtain ⟨value, behind, after, rfl, taken⟩ := more switch rfl
      obtain ⟨free, accepts⟩ := accepts_of_feed rfl (awaited_of_tells told).2 taken
      refine ⟨[word, value], behind, _, rfl, .valued told free accepts, ?_⟩
      simp only [List.length_cons]
      omega

/-- What is awaited is the next word. -/
theorem exists_of_feedAll (ok : reading.feedAll switches words = .ok next)
    (waiting : reading.awaiting = some switch) :
    ∃ value behind after, words = value :: behind ∧ reading.feed switches value = .ok after := by
  cases words with
  | nil =>
      rw [feedAll, waiting] at ok
      cases ok
  | cons value behind =>
      rw [feedAll] at ok
      split at ok
      · cases ok
      · rename_i after fed
        exact ⟨value, behind, after, rfl, fed⟩

/-- Words that were read are words of the grammar. -/
theorem spells_of_feedAll (unambiguous : Unambiguous switches) (ready : reading.IsReady)
    (ok : reading.feedAll switches words = .ok next) :
    ∃ given plain, Spells switches words given plain := by
  -- A group can have two words, so the induction is on the number of words.
  induction size : words.length using Nat.strong_induction_on generalizing words reading with
  | _ size ih =>
      subst size
      cases words with
      | nil => exact ⟨_, _, .none⟩
      | cons word words =>
          by_cases terminator : word = "--"
          · subst terminator
            exact ⟨_, _, .ended⟩
          · have whole := ok
            rw [feedAll] at ok
            split at ok
            · cases ok
            · rename_i after fed
              cases looks : looksLikeSwitch word with
              | false =>
                  rw [feed_of_free ready looks] at fed
                  cases fed
                  have still : IsReady { reading with plain := reading.plain ++ [word] } :=
                    ⟨ready.awaiting, ready.ended, ready.once⟩
                  obtain ⟨given, plain, more⟩ := ih _ (by simp) still ok rfl
                  exact ⟨_, _, .plain looks more⟩
              | true =>
                  obtain ⟨_, _, told⟩ := tells_of_feed ready looks terminator fed
                  obtain ⟨group, rest, given, same, gives, shorter⟩ :=
                    exists_group unambiguous ready told fed
                      fun _ waiting => exists_of_feedAll ok waiting
                  rw [same, feedAll_of_group unambiguous gives ready] at whole
                  split at whole
                  · cases whole
                  · rename_i later noted
                    obtain ⟨later, plain, more⟩ :=
                      ih _ shorter (ready.of_note noted) whole rfl
                    rw [same]
                    exact ⟨_, _, .group gives more⟩

/-- Once the switches are ended, they stay so. -/
theorem ended_of_feedLeading {rest : List String}
    (ok : reading.feedLeading switches words = .ok (next, rest))
    (waiting : reading.awaiting = none) (ended : reading.ended = true) : next.ended = true := by
  cases words with
  | nil =>
      cases ok
      exact ended
  | cons word words =>
      rw [feedLeading] at ok
      simp only [feed, waiting, ended, if_true, List.isEmpty_iff, List.append_eq_nil_iff,
        List.cons_ne_self, and_false, if_false] at ok
      cases ok
      rfl

/-- As long as the plain word is still to come, there is a next word. -/
theorem exists_of_feedLeading {rest : List String} (fresh : reading.plain = [])
    (ok : reading.feedLeading switches words = .ok (next, rest)) (named : next.plain ≠ []) :
    ∃ value behind after, words = value :: behind ∧ reading.feed switches value = .ok after := by
  cases words with
  | nil =>
      cases ok
      exact absurd fresh named
  | cons value behind =>
      rw [feedLeading] at ok
      split at ok
      · cases ok
      · rename_i after fed
        exact ⟨value, behind, after, rfl, fed⟩

/-- No word of a group ends the switches. -/
theorem terminator_not_mem_group (unambiguous : Unambiguous switches) {group : List String}
    (gives : Group switches group given) : "--" ∉ group := by
  have differs {word : String} {given : List (String × String)} {awaiting : Option Switch}
      (told : Tells switches word given awaiting) : "--" ≠ word := by
    rintro rfl
    -- the lone hyphens would both be noted and end the switches
    have noted := (feed_of_tells unambiguous isReady_empty told).symm.trans
      (feed_of_terminator isReady_empty)
    obtain ⟨-, same⟩ := note_eq_ok_iff.mp noted
    cases congrArg Reading.ended same
  cases gives with
  | alone told => exact fun mem => differs told (List.mem_singleton.mp mem)
  | valued told free accepts =>
      have looks : looksLikeSwitch "--" = true := looksLikeSwitch_iff.mpr ⟨'-', [], rfl⟩
      rw [List.mem_cons, List.mem_singleton]
      rintro (same | rfl)
      · exact differs told same
      · rw [looks] at free
        cases free

/-- Words that were read in front of a plain one are words of the grammar, if the switches were not
ended. -/
theorem spells_of_feedLeading (unambiguous : Unambiguous switches) {rest : List String}
    (ready : reading.IsReady) (fresh : reading.plain = [])
    (ok : reading.feedLeading switches words = .ok (next, rest)) (named : next.plain ≠ [])
    (notEnded : next.ended = false) :
    ∃ leading name given, words = leading ++ name :: rest ∧ Spells switches leading given [] ∧
      "--" ∉ leading ∧ looksLikeSwitch name = false := by
  induction size : words.length using Nat.strong_induction_on generalizing words reading with
  | _ size ih =>
      subst size
      cases words with
      | nil =>
          cases ok
          exact absurd fresh named
      | cons word words =>
          have whole := ok
          rw [feedLeading] at ok
          split at ok
          · cases ok
          · rename_i after fed
            by_cases terminator : word = "--"
            · subst terminator
              rw [feed_of_terminator ready] at fed
              cases fed
              simp only [fresh, List.isEmpty_nil, if_true] at ok
              rw [ended_of_feedLeading ok ready.awaiting rfl] at notEnded
              cases notEnded
            · cases looks : looksLikeSwitch word with
              | false =>
                  rw [feed_of_free ready looks] at fed
                  cases fed
                  simp only [List.append_eq_nil_iff, List.isEmpty_iff, List.cons_ne_self, and_false,
                    if_false] at ok
                  cases ok
                  exact ⟨[], word, [], rfl, .none, List.not_mem_nil, looks⟩
              | true =>
                  obtain ⟨_, _, told⟩ := tells_of_feed ready looks terminator fed
                  have still : after.plain = [] := by
                    have noted := (feed_of_tells unambiguous ready told).symm.trans fed
                    exact (plain_of_note noted).trans fresh
                  simp only [still, List.isEmpty_nil, if_true] at ok
                  obtain ⟨group, behind, given, same, gives, shorter⟩ :=
                    exists_group unambiguous ready told fed
                      fun _ _ => exists_of_feedLeading still ok named
                  rw [same, feedLeading_of_group unambiguous gives ready fresh] at whole
                  split at whole
                  · cases whole
                  · rename_i later noted
                    obtain ⟨leading, name, more, split, spelled, absent, free⟩ :=
                      ih _ shorter (ready.of_note noted) ((plain_of_note noted).trans fresh) whole
                        rfl
                    refine ⟨group ++ leading, name, given ++ more, ?_, .group gives spelled, ?_,
                      free⟩
                    · rw [same, split, List.append_assoc]
                    · rw [List.mem_append]
                      rintro (mem | mem)
                      · exact terminator_not_mem_group unambiguous gives mem
                      · exact absent mem

/-! ### What was read -/

/-- Words that were read spell exactly what was noted. -/
theorem spells_iff_of_feedAll (unambiguous : Unambiguous switches)
    (ok : feedAll switches {} words = .ok reading) :
    OnceEach reading.given ∧
      ∀ given plain, Spells switches words given plain ↔
        given = reading.given ∧ plain = reading.plain := by
  have noted {given : List (String × String)} {plain : List String}
      (spelled : Spells switches words given plain) :
      OnceEach given ∧ given = reading.given ∧ plain = reading.plain := by
    obtain ⟨ended, read⟩ := feedAll_of_spells unambiguous spelled
    rw [read {} isReady_empty] at ok
    cases noted : note {} given none with
    | error halt =>
        rw [noted] at ok
        cases ok
    | ok next =>
        rw [noted] at ok
        obtain ⟨once, rfl⟩ := note_eq_ok_iff.mp noted
        cases ok
        exact ⟨once, rfl, rfl⟩
  obtain ⟨given, plain, spelled⟩ := spells_of_feedAll unambiguous isReady_empty ok
  obtain ⟨once, rfl, rfl⟩ := noted spelled
  refine ⟨once, ?_⟩
  intro given plain
  constructor
  · intro spelled
    exact (noted spelled).2
  · rintro ⟨rfl, rfl⟩
    exact spelled

/-- A switch took what is noted with it. -/
theorem value?_eq_some_iff (once : OnceEach reading.given) {name : String} :
    reading.value? name = some value ↔ (name, value) ∈ reading.given := by
  simp only [value?, Option.map_eq_some_iff]
  constructor
  · rintro ⟨⟨other, value⟩, found, rfl⟩
    obtain rfl : other = name := by simpa using List.find?_some found
    exact List.mem_of_find?_eq_some found
  · intro mem
    refine ⟨(name, value), find?_of_unique mem (beq_self_eq_true name) ?_, rfl⟩
    intro other there same
    exact List.inj_on_of_nodup_map once there mem (beq_iff_eq.mp same)

/-- A switch of this name takes nothing, or accepts what it was given. -/
def Fits (switches : List Switch) (entry : String × String) : Prop :=
  ∃ switch ∈ switches, switch.name = entry.1 ∧ (switch.takes = .nothing ∨ switch.Accepts entry.2)

theorem fits_of_letters {letters : List Char} (gives : Letters switches letters given awaiting) :
    ∀ entry ∈ given, Fits switches entry := by
  induction gives with
  | none => exact List.forall_mem_nil _
  | raised listed own flag more ih =>
      exact List.forall_mem_cons.mpr ⟨⟨_, listed, rfl, .inl flag.1⟩, ih⟩
  | joined listed own attached accepts =>
      exact List.forall_mem_singleton.mpr ⟨_, listed, rfl, .inr accepts⟩
  | awaiting => exact List.forall_mem_nil _

theorem fits_of_tells (told : Tells switches word given awaiting) :
    ∀ entry ∈ given, Fits switches entry := by
  cases told with
  | raised listed flag => exact List.forall_mem_singleton.mpr ⟨_, listed, rfl, .inl flag.1⟩
  | joined listed accepts => exact List.forall_mem_singleton.mpr ⟨_, listed, rfl, .inr accepts⟩
  | awaiting => exact List.forall_mem_nil _
  | letters behind gives => exact fits_of_letters gives

theorem fits_of_group {group : List String} (gives : Group switches group given) :
    ∀ entry ∈ given, Fits switches entry := by
  cases gives with
  | alone told => exact fits_of_tells told
  | valued told free accepts =>
      exact List.forall_mem_append.mpr ⟨fits_of_tells told,
        List.forall_mem_singleton.mpr ⟨_, (awaited_of_tells told).1, rfl, .inr accepts⟩⟩

/-- What words give fits the switches. -/
theorem fits_of_spells (spelled : Spells switches words given plain) :
    ∀ entry ∈ given, Fits switches entry := by
  induction spelled with
  | none => exact List.forall_mem_nil _
  | group gives more ih => exact List.forall_mem_append.mpr ⟨fits_of_group gives, ih⟩
  | plain free more ih => exact ih
  | ended => exact List.forall_mem_nil _

end Provision.CommandLine.Reading
