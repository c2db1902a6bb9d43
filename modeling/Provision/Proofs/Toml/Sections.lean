import Mathlib.Data.List.Nodup
import Provision.Proofs.Toml.Quoted

/-!
Documents of sections.

The documents here have a simple layout: names with their values, each on a line of its own, and
then sections of such lines, each behind an empty line and a header in brackets.

* `build_sections` — statements in this order build a table for each section, if the names of a
  table differ. A step of it is a single statement (`perform_ofMember_root`,
  `perform_ofMember_section`, `perform_header`), and a run performs the statements of a section one
  by one: a section is open for its lines as the last table of the document.
* `statements_lines` — lines are read one by one, each as its statement, whatever follows
  (`States`).
* `parse_lines` — so the text of such a document stands for the members that it lists.
-/

namespace Provision.Toml

/-! ### Tables -/

theorem lookup_eq_none_iff {name : String} {members : Members} :
    lookup name members = none ↔ name ∉ members.map Prod.fst := by
  rw [lookup, Option.map_eq_none_iff, List.find?_eq_none]
  constructor
  · intro other mem
    obtain ⟨member, listed, rfl⟩ := List.mem_map.mp mem
    simpa using other member listed
  · intro absent member listed same
    exact absent (beq_iff_eq.mp same ▸ List.mem_map_of_mem listed)

theorem lookup_concat {name : String} {members : Members}
    (absent : name ∉ members.map Prod.fst) (value : Toml) :
    lookup name (members ++ [(name, value)]) = some value := by
  have none : members.find? (·.1 == name) = none :=
    Option.map_eq_none_iff.mp (lookup_eq_none_iff.mpr absent)
  simp [lookup, List.find?_append, none]

theorem replace_concat {name : String} {members : Members}
    (absent : name ∉ members.map Prod.fst) (value old : Toml) :
    replace name value (members ++ [(name, old)]) = members ++ [(name, value)] := by
  have kept : ∀ member ∈ members,
      (if member.1 == name then (member.1, value) else member) = member := by
    intro member mem
    have differs : member.1 ≠ name := by
      rintro rfl
      exact absent (List.mem_map_of_mem mem)
    simp [differs]
  rw [replace, List.map_append, List.map_congr_left kept, List.map_id']
  simp

/-- Of different names, one is not among those before it. -/
theorem notMem_of_distinct {before after : Members} {member : String × Toml}
    (distinct : ((before ++ member :: after).map Prod.fst).Nodup) :
    member.1 ∉ before.map Prod.fst := by
  rw [List.map_append, List.map_cons, List.nodup_middle, List.nodup_cons] at distinct
  exact fun mem => distinct.1 (List.mem_append_left _ mem)

namespace Statement

def ofMember (member : String × Toml) : Statement := .pair [] member.1 member.2

def ofSection (opened : String × Members) : List Statement :=
  .header [] opened.1 :: opened.2.map ofMember

variable {root inner : Members} {name : String}

theorem perform_ofMember_root {member : String × Toml} (new : member.1 ∉ root.map Prod.fst) :
    (ofMember member).perform (root, []) = some (root ++ [member], []) := by
  have none := lookup_eq_none_iff.mpr new
  simp [ofMember, perform, within, addPair, none]

/-- In the section that was opened last, a member is appended to its table. -/
theorem perform_ofMember_section {member : String × Toml} (absent : name ∉ root.map Prod.fst)
    (new : member.1 ∉ inner.map Prod.fst) :
    (ofMember member).perform (root ++ [(name, .table .header inner)], [name])
      = some (root ++ [(name, .table .header (inner ++ [member]))], [name]) := by
  have none := lookup_eq_none_iff.mpr new
  simp [ofMember, perform, within, addPair, none, lookup_concat absent, replace_concat absent]

theorem perform_header (here : List String) (new : name ∉ root.map Prod.fst) :
    (header [] name).perform (root, here)
      = some (root ++ [(name, .table .header [])], [name]) := by
  have none := lookup_eq_none_iff.mpr new
  simp [perform, openTable, within, none]

/-- New members are added to the document in their order. -/
theorem foldlM_members_root {members : Members}
    (distinct : ((root ++ members).map Prod.fst).Nodup) :
    (members.map ofMember).foldlM perform (root, []) = some (root ++ members, []) := by
  induction members generalizing root with
  | nil => simp
  | cons member members ih =>
      have new := notMem_of_distinct distinct
      rw [List.append_cons] at distinct ⊢
      rw [List.map_cons, List.foldlM_cons, perform_ofMember_root new]
      exact ih distinct

/-- New members are added to the section that was opened last in their order. -/
theorem foldlM_members_section (absent : name ∉ root.map Prod.fst) {members : Members}
    (distinct : ((inner ++ members).map Prod.fst).Nodup) :
    (members.map ofMember).foldlM perform (root ++ [(name, .table .header inner)], [name])
      = some (root ++ [(name, .table .header (inner ++ members))], [name]) := by
  induction members generalizing inner with
  | nil => simp
  | cons member members ih =>
      have new := notMem_of_distinct distinct
      rw [List.append_cons inner] at distinct ⊢
      rw [List.map_cons, List.foldlM_cons, perform_ofMember_section absent new]
      exact ih distinct

end Statement

def sectionMember (opened : String × Members) : String × Toml :=
  (opened.1, .table .header opened.2)

theorem foldlM_sections {root : Members} (here : List String) {sections : List (String × Members)}
    (distinct : ((root ++ sections.map sectionMember).map Prod.fst).Nodup)
    (each : ∀ opened ∈ sections, (opened.2.map Prod.fst).Nodup) :
    ∃ here', (sections.flatMap Statement.ofSection).foldlM Statement.perform (root, here)
      = some (root ++ sections.map sectionMember, here') := by
  induction sections generalizing root here with
  | nil => exact ⟨here, by simp⟩
  | cons opened sections ih =>
      obtain ⟨first, later⟩ := List.forall_mem_cons.mp each
      have new : opened.1 ∉ root.map Prod.fst := notMem_of_distinct distinct
      rw [List.map_cons, List.append_cons] at distinct ⊢
      obtain ⟨here', rest⟩ := ih [opened.1] distinct later
      refine ⟨here', ?_⟩
      rw [List.flatMap_cons, List.foldlM_append, Statement.ofSection, List.foldlM_cons,
        Statement.perform_header here new]
      have filled := @Statement.foldlM_members_section root [] opened.1 new opened.2 first
      rw [List.nil_append] at filled
      simp only [Option.bind_eq_bind, Option.bind_some, filled]
      exact rest

/-- **Sections become tables.** Members of the document itself, and then sections, build these
members and a table for each section, if the names in each table differ. -/
theorem build_sections {members : Members} {sections : List (String × Members)}
    (distinct : ((members ++ sections.map sectionMember).map Prod.fst).Nodup)
    (each : ∀ opened ∈ sections, (opened.2.map Prod.fst).Nodup) :
    build (members.map Statement.ofMember ++ sections.flatMap Statement.ofSection)
      = some (members ++ sections.map sectionMember) := by
  have own : (members.map Prod.fst).Nodup := by
    rw [List.map_append] at distinct
    exact (List.nodup_append.mp distinct).1
  have first := @Statement.foldlM_members_root [] members own
  obtain ⟨here, rest⟩ := foldlM_sections [] distinct each
  rw [List.nil_append] at first
  rw [build, List.foldlM_append, first]
  simp only [Option.bind_eq_bind, Option.bind_some, rest]
  rfl

namespace Reader

/-! ### Names and values -/

/-- Whether a name can be written without quotes. -/
def isBareName (name : String) : Bool := !name.toList.isEmpty && name.toList.all isBare

theorem exists_of_isBareName {name : String} (bare : isBareName name = true) :
    ∃ c more, name.toList = c :: more ∧ ∀ d ∈ c :: more, isBare d = true := by
  unfold isBareName at bare
  cases letters : name.toList with
  | nil => simp [letters] at bare
  | cons c more =>
      rw [letters] at bare
      exact ⟨c, more, rfl, List.all_eq_true.mp bare⟩

theorem ne_of_isBare {c d : Char} (bare : isBare c = true) (other : isBare d = false) : c ≠ d := by
  rintro rfl
  rw [bare] at other
  cases other

theorem skipBlanks_of_head {c : Char} (visible : isBlank c = false) (rest : List Char) :
    skipBlanks (c :: rest) = c :: rest := by
  simp [skipBlanks, visible]

theorem isBlank_of_isBare {c : Char} (bare : isBare c = true) : isBlank c = false := by
  have noSpace : c ≠ ' ' := ne_of_isBare bare rfl
  have noTab : c ≠ '\t' := ne_of_isBare bare rfl
  simp [isBlank, noSpace, noTab]

section Key

variable {name : String} (bare : isBareName name = true)
include bare

/-- A bare name is read as far as it goes. -/
theorem simpleKey_append {c : Char} (ends : isBare c = false) (rest : List Char) :
    simpleKey (name.toList ++ c :: rest) = some (name, c :: rest) := by
  obtain ⟨first, more, letters, all⟩ := exists_of_isBareName bare
  have taken : (name.toList ++ c :: rest).takeWhile isBare = name.toList := by
    rw [letters, List.takeWhile_append_of_pos all, List.takeWhile_cons_of_neg (by simp [ends]),
      List.append_nil]
  have left : (name.toList ++ c :: rest).dropWhile isBare = c :: rest := by
    rw [letters, List.dropWhile_append_of_pos all, List.dropWhile_cons_of_neg (by simp [ends])]
  have same : String.ofList (first :: more) = name := by rw [← letters, String.ofList_toList]
  have head := all first List.mem_cons_self
  rw [letters, List.cons_append] at taken left ⊢
  rw [simpleKey]
  · simp only [taken, left, same]
  · exact fun _ starts => ne_of_isBare head rfl (List.cons.inj starts).1
  · exact fun _ starts => ne_of_isBare head rfl (List.cons.inj starts).1

/-- A bare name with no dot behind it is a key by itself. -/
theorem key_append {c d : Char} (ends : isBare c = false) {rest more : List Char}
    (next : skipBlanks (c :: rest) = d :: more) (noDot : d ≠ '.') (parts : Nat) :
    key (parts + 1) (name.toList ++ c :: rest) = some (([], name), d :: more) := by
  have read := simpleKey_append bare ends rest
  obtain ⟨first, letters, same, all⟩ := exists_of_isBareName bare
  have visible := isBlank_of_isBare (all first List.mem_cons_self)
  have front : skipBlanks (name.toList ++ c :: rest) = name.toList ++ c :: rest := by
    rw [same, List.cons_append, skipBlanks_of_head visible]
  rw [key, front, read]
  simp only [Option.bind_eq_bind, Option.bind_some, next]
  split
  · rename_i dot
    exact absurd (List.cons.inj dot).1 noDot
  · rfl

end Key

/-- A text is read as a value where it ends its line. -/
structure ReadsValue (text : List Char) (v : Toml) : Prop where
  visible : ∃ c more, text = c :: more ∧ isBlank c = false
  read (rest : List Char) : value maxLevels (text ++ '\n' :: rest) = some (v, '\n' :: rest)

theorem endsString_lineBreak (rest : List Char) : EndsString ('\n' :: rest) := by
  rintro c ⟨⟩
  decide

/-- A string starts with a quote of one of two kinds. -/
theorem exists_write (form : Form) (text : List Char) :
    ∃ c more, form.write text = c :: more ∧ (c = '"' ∨ c = '\'') := by
  cases form with
  | basic | longBasic => exact ⟨'"', _, rfl, .inl rfl⟩
  | literal | longLiteral => exact ⟨'\'', _, rfl, .inr rfl⟩

theorem readsValue_quote (s : String) : ReadsValue (quote s).toList (.string s) := by
  obtain ⟨c, more, starts, isQuote⟩ := exists_write (Form.of s.toList) s.toList
  have written : (quote s).toList = c :: more := by rw [quote, String.toList_ofList, starts]
  refine ⟨⟨c, more, written, ?_⟩, ?_⟩
  · rcases isQuote with rfl | rfl <;> rfl
  · intro rest
    have read := string_quote s (endsString_lineBreak rest)
    rw [written, List.cons_append] at read ⊢
    rcases isQuote with rfl | rfl <;>
    · rw [value, read]
      rfl

theorem readsValue_truth (b : Bool) :
    ReadsValue (if b then "true" else "false").toList (.boolean b) := by
  cases b with
  | true => exact ⟨⟨'t', _, rfl, rfl⟩, fun _ => rfl⟩
  | false => exact ⟨⟨'f', _, rfl, rfl⟩, fun _ => rfl⟩

/-! ### Lines -/

/-- A name and the text of its value on a line. -/
def memberLine (name : String) (text : List Char) : List Char :=
  name.toList ++ ' ' :: '=' :: ' ' :: (text ++ ['\n'])

/-- The header of a section, behind an empty line. -/
def sectionStart (name : String) : List Char := '\n' :: '[' :: (name.toList ++ [']', '\n'])

/-- A piece of text makes a statement, whatever follows. -/
structure States (line : List Char) (s : Statement) : Prop where
  nonempty : line ≠ []
  read (rounds : Nat) (rest : List Char) :
    statements (rounds + 1) (line ++ rest) = (statements rounds rest).map (s :: ·)

/-- Where a statement starts, nothing is skipped. -/
theorem skipLines_of_head {c : Char} (visible : isBlank c = false) (noComment : c ≠ '#')
    (noBreak : c ≠ '\n') (noReturn : c ≠ '\r') (rounds : Nat) (rest : List Char) :
    skipLines rounds (c :: rest) = c :: rest := by
  cases rounds with
  | zero => rfl
  | succ rounds =>
      rw [skipLines, skipBlanks_of_head visible]
      split <;> simp_all

theorem statements_of_statement {rounds : Nat} {text rest more : List Char} {c : Char}
    {s : Statement} (skip : skipLines text.length text = c :: more)
    (read : statement (c :: more) = some (s, rest)) :
    statements (rounds + 1) text = (statements rounds rest).map (s :: ·) := by
  rw [statements, skip]
  simp only [read, Option.bind_eq_bind, Option.bind_some]
  cases statements rounds rest <;> rfl

theorem states_memberLine {name : String} (bare : isBareName name = true) {text : List Char}
    {v : Toml} (reads : ReadsValue text v) :
    States (memberLine name text) (Statement.ofMember (name, v)) := by
  obtain ⟨first, letters, same, all⟩ := exists_of_isBareName bare
  obtain ⟨c, more, written, visible⟩ := reads.visible
  have head := all first List.mem_cons_self
  refine ⟨by simp [memberLine], ?_⟩
  intro rounds rest
  have whole : memberLine name text ++ rest
      = first :: (letters ++ ' ' :: '=' :: ' ' :: (text ++ '\n' :: rest)) := by
    simp [memberLine, same]
  have keyRead : key maxKeyParts (first :: (letters ++ ' ' :: '=' :: ' ' :: (text ++ '\n' :: rest)))
      = some (([], name), '=' :: ' ' :: (text ++ '\n' :: rest)) := by
    have read := @key_append name bare ' ' '=' rfl ('=' :: ' ' :: (text ++ '\n' :: rest)) _ rfl
      (by decide) (maxKeyParts - 1)
    rwa [same] at read
  have blanks : skipBlanks (' ' :: (text ++ '\n' :: rest)) = text ++ '\n' :: rest := by
    rw [written]
    exact skipBlanks_of_head visible _
  have pairRead : pair (value maxLevels)
      (first :: (letters ++ ' ' :: '=' :: ' ' :: (text ++ '\n' :: rest)))
        = some (([], name, v), '\n' :: rest) := by
    simp only [pair, keyRead, Option.bind_eq_bind, Option.bind_some, one, if_true, blanks,
      reads.read]
    rfl
  rw [whole]
  refine statements_of_statement (skipLines_of_head (isBlank_of_isBare head)
    (ne_of_isBare head rfl) (ne_of_isBare head rfl) (ne_of_isBare head rfl) _ _) ?_
  rw [statement]
  · simp only [pairRead, Option.bind_eq_bind, Option.bind_some]
    rfl
  · exact fun _ starts => ne_of_isBare head rfl (List.cons.inj starts).1
  · exact fun _ starts => ne_of_isBare head rfl (List.cons.inj starts).1

theorem states_sectionStart {name : String} (bare : isBareName name = true) :
    States (sectionStart name) (.header [] name) := by
  obtain ⟨first, letters, same, all⟩ := exists_of_isBareName bare
  have head := all first List.mem_cons_self
  refine ⟨by simp [sectionStart], ?_⟩
  intro rounds rest
  have whole : sectionStart name ++ rest
      = '\n' :: '[' :: (first :: (letters ++ ']' :: '\n' :: rest)) := by
    simp [sectionStart, same]
  have keyRead : key maxKeyParts (first :: (letters ++ ']' :: '\n' :: rest))
      = some (([], name), ']' :: '\n' :: rest) := by
    have read := @key_append name bare ']' ']' rfl ('\n' :: rest) _ rfl (by decide)
      (maxKeyParts - 1)
    rwa [same] at read
  rw [whole]
  refine statements_of_statement rfl ?_
  rw [statement]
  · simp only [headerLine, keyRead, Option.bind_eq_bind, Option.bind_some, one, if_true]
    rfl
  · exact fun _ starts => ne_of_isBare head rfl (List.cons.inj starts).1

/-- **Lines are read one by one.** -/
theorem statements_lines {lines : List (List Char × Statement)}
    (each : ∀ line ∈ lines, States line.1 line.2) (rounds : Nat) (rest : List Char) :
    statements (rounds + lines.length) (lines.flatMap Prod.fst ++ rest)
      = (statements rounds rest).map (lines.map Prod.snd ++ ·) := by
  induction lines with
  | nil => simp
  | cons line lines ih =>
      obtain ⟨first, later⟩ := List.forall_mem_cons.mp each
      rw [List.flatMap_cons, List.append_assoc, List.length_cons, ← Nat.add_assoc,
        first.read, ih later, Option.map_map]
      rfl

end Reader

/-! ### Documents -/

/-- A member of a table with the text of its value. -/
structure Entry where
  name : String
  text : String
  value : Toml

def Entry.ofString (name value : String) : Entry := ⟨name, quote value, .string value⟩

def Entry.ofTruth (name : String) (value : Bool) : Entry :=
  ⟨name, if value then "true" else "false", .boolean value⟩

def Entry.member (entry : Entry) : String × Toml := (entry.name, entry.value)

def Entry.line (entry : Entry) : List Char × Statement :=
  (Reader.memberLine entry.name entry.text.toList, .ofMember entry.member)

/-- An entry can be written as it is: its name needs no quotes, and its text stands for its
value. -/
structure Entry.Sound (entry : Entry) : Prop where
  bare : Reader.isBareName entry.name = true
  reads : Reader.ReadsValue entry.text.toList entry.value

theorem Entry.sound_ofString {name : String} (bare : Reader.isBareName name = true)
    (value : String) : (ofString name value).Sound :=
  ⟨bare, Reader.readsValue_quote value⟩

theorem Entry.sound_ofTruth {name : String} (bare : Reader.isBareName name = true)
    (value : Bool) : (ofTruth name value).Sound :=
  ⟨bare, Reader.readsValue_truth value⟩

theorem Entry.Sound.states {entry : Entry} (sound : entry.Sound) :
    Reader.States entry.line.1 entry.line.2 :=
  Reader.states_memberLine sound.bare sound.reads

/-- A document with entries of its own, and then sections. -/
structure Document where
  entries : List Entry
  sections : List (String × List Entry)

namespace Document

def sectionLines (opened : String × List Entry) : List (List Char × Statement) :=
  (Reader.sectionStart opened.1, .header [] opened.1) :: opened.2.map Entry.line

def lines (document : Document) : List (List Char × Statement) :=
  document.entries.map Entry.line ++ document.sections.flatMap sectionLines

def tables (document : Document) : List (String × Members) :=
  document.sections.map fun opened => (opened.1, opened.2.map Entry.member)

/-- The members of the document: its own, and a table for each section. -/
def members (document : Document) : Members :=
  document.entries.map Entry.member ++ document.tables.map sectionMember

/-- A document can be written as it is, and no table names a member twice. -/
structure Sound (document : Document) : Prop where
  nonempty : document.entries ≠ []
  entries : ∀ entry ∈ document.entries, entry.Sound
  titles : ∀ opened ∈ document.sections, Reader.isBareName opened.1 = true
  sections : ∀ opened ∈ document.sections, ∀ entry ∈ opened.2, entry.Sound
  distinct : (document.entries.map Entry.name ++ document.sections.map Prod.fst).Nodup
  inside : ∀ opened ∈ document.sections, (opened.2.map Entry.name).Nodup

variable {document : Document}

theorem map_snd_lines (document : Document) :
    document.lines.map Prod.snd
      = (document.entries.map Entry.member).map Statement.ofMember
        ++ document.tables.flatMap Statement.ofSection := by
  simp [lines, tables, sectionLines, Statement.ofSection, Entry.line, List.map_flatMap,
    List.flatMap_map, Function.comp_def]

theorem Sound.states (sound : document.Sound) :
    ∀ line ∈ document.lines, Reader.States line.1 line.2 := by
  intro line mem
  rcases List.mem_append.mp mem with own | inside
  · obtain ⟨entry, listed, rfl⟩ := List.mem_map.mp own
    exact (sound.entries entry listed).states
  · obtain ⟨opened, listed, mem⟩ := List.mem_flatMap.mp inside
    rcases List.mem_cons.mp mem with rfl | mem
    · exact Reader.states_sectionStart (sound.titles opened listed)
    · obtain ⟨entry, inSection, rfl⟩ := List.mem_map.mp mem
      exact (sound.sections opened listed entry inSection).states

theorem Sound.build (sound : document.Sound) :
    build (document.lines.map Prod.snd) = some document.members := by
  rw [map_snd_lines]
  refine build_sections ?_ ?_
  · have distinct := sound.distinct
    simpa [tables, sectionMember, Entry.member, Function.comp_def] using distinct
  · intro table mem
    obtain ⟨opened, listed, rfl⟩ := List.mem_map.mp mem
    have inside := sound.inside opened listed
    simpa [Entry.member, Function.comp_def] using inside

/-- Every line takes up some text, so the text bounds the rounds of the loop. -/
theorem length_lines_le {lines : List (List Char × Statement)}
    (each : ∀ line ∈ lines, Reader.States line.1 line.2) :
    lines.length ≤ (lines.flatMap Prod.fst).length := by
  induction lines with
  | nil => exact Nat.zero_le _
  | cons line lines ih =>
      obtain ⟨first, later⟩ := List.forall_mem_cons.mp each
      have some := List.length_pos_iff.mpr first.nonempty
      have more := ih later
      rw [List.flatMap_cons, List.length_append, List.length_cons]
      omega

/-- A document does not start with a byte order mark. -/
theorem Sound.skipMark (sound : document.Sound) (tail : List Char) :
    Reader.skipMark (document.lines.flatMap Prod.fst ++ tail)
      = document.lines.flatMap Prod.fst ++ tail := by
  obtain ⟨entry, entries, own⟩ := List.exists_cons_of_ne_nil sound.nonempty
  have bare := (sound.entries entry (own ▸ List.mem_cons_self)).bare
  obtain ⟨c, more, letters, all⟩ := Reader.exists_of_isBareName bare
  have noMark : c ≠ '\uFEFF' := Reader.ne_of_isBare (all c List.mem_cons_self) (by decide)
  simp only [lines, own, List.map_cons, List.cons_append, List.flatMap_cons, Entry.line,
    Reader.memberLine, letters]
  unfold Reader.skipMark
  split
  · rename_i starts
    exact absurd (List.cons.inj starts).1 noMark
  · rfl

/-- **The text of a document of sections stands for its members.** Behind it there may be blanks
and empty lines. -/
theorem parse_lines (sound : document.Sound) {tail : List Char}
    (blank : Reader.skipLines tail.length tail = []) {text : String}
    (same : text.toList = document.lines.flatMap Prod.fst ++ tail) :
    parse text = some document.members := by
  have enough := length_lines_le sound.states
  obtain ⟨rounds, count⟩ :
      ∃ rounds, text.toList.length + 1 = rounds + 1 + document.lines.length := by
    refine ⟨text.toList.length - document.lines.length, ?_⟩
    rw [same, List.length_append]
    omega
  have read := Reader.statements_lines sound.states (rounds + 1) tail
  have done : Reader.statements (rounds + 1) tail = some [] := by
    rw [Reader.statements, blank]
  rw [done, ← count, ← same] at read
  have noMark : Reader.skipMark text.toList = text.toList := by rw [same, sound.skipMark]
  simp only [parse, noMark, read, Option.map_some, List.append_nil, Option.bind_eq_bind,
    Option.bind_some]
  exact sound.build

end Document

end Provision.Toml
