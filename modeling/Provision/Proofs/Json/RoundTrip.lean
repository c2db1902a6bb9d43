import Provision.Proofs.Json.Floats
import Provision.Proofs.Json.Shape

/-!
Printed JSON is read back.

* `Reader.isRead` — the text of a value, in either layout and before any text that cannot
  continue a number, is read, provided that it is not nested deeper than the reader allows.
  What is read is `Json.asRead`: every number is the one that its text stands for, since the
  reader rounds floats twice, and of members with one name a single one is left.
* `asRead_of_distinctNames` — if no object has two members of one name, what is read is
  `Json.reread`, which differs in floats only.
* `reread_of_integral`, `reread_of_wholeNumbers` — a value whose numbers are integers is read
  back as it is.
* `parse_render_reread`, `parse_render` — the same for a whole text, with blanks behind it;
  without blanks, `parse_compact_asRead`, `parse_compact` and `parse_pretty`. `parseWithin` reads
  with any bound on the nesting, so that it also reads what is nested deeper than `Json.parse`
  allows.
-/

namespace Provision

def Number.reread (n : Number) : Number :=
  match Json.Reader.value 0 (Json.numberText n) with
  | .ok (.number m, _) => m
  | _ => n

namespace Json

/-! ### Values as they are read again -/

mutual

/-- The same value with every number as it is read again. -/
def reread : Json → Json
  | .number n => .number n.reread
  | .array items => .array (rereadItems items)
  | .object members => .object (rereadMembers members)
  | other => other

def rereadItems : List Json → List Json
  | [] => []
  | item :: items => reread item :: rereadItems items

def rereadMembers : List (String × Json) → List (String × Json)
  | [] => []
  | (name, value) :: members => (name, reread value) :: rereadMembers members

end

theorem rereadItems_eq (items : List Json) : rereadItems items = items.map reread := by
  induction items with
  | nil => rfl
  | cons item items ih => rw [rereadItems, ih, List.map_cons]

theorem rereadMembers_eq (members : Members) :
    rereadMembers members = members.mapValues reread := by
  induction members with
  | nil => rfl
  | cons member members ih =>
      rw [rereadMembers, ih]
      rfl

theorem reread_array (items : List Json) : (array items).reread = .array (items.map reread) := by
  rw [reread, rereadItems_eq]

theorem reread_object (members : Members) :
    (object members).reread = .object (members.mapValues reread) := by
  rw [reread, rereadMembers_eq]

mutual

/-- The value that the text of a value stands for: with every number as it is read again, and with
the members of every object put in one by one. -/
def asRead : Json → Json
  | .number n => .number n.reread
  | .array items => .array (asReadItems items)
  | .object members => .object (Members.ofPairs (asReadMembers members))
  | other => other

def asReadItems : List Json → List Json
  | [] => []
  | item :: items => asRead item :: asReadItems items

def asReadMembers : List (String × Json) → List (String × Json)
  | [] => []
  | (name, value) :: members => (name, asRead value) :: asReadMembers members

end

theorem asReadItems_eq (items : List Json) : asReadItems items = items.map asRead := by
  induction items with
  | nil => rfl
  | cons item items ih => rw [asReadItems, ih, List.map_cons]

theorem asReadMembers_eq (members : Members) :
    asReadMembers members = members.mapValues asRead := by
  induction members with
  | nil => rfl
  | cons member members ih =>
      rw [asReadMembers, ih]
      rfl

theorem asRead_array (items : List Json) : (array items).asRead = .array (items.map asRead) := by
  rw [asRead, asReadItems_eq]

theorem asRead_object (members : Members) :
    (object members).asRead = .object (Members.ofPairs (members.mapValues asRead)) := by
  rw [asRead, asReadMembers_eq]

/-- Members of different names are put in as they are. -/
theorem asRead_of_distinctNames {v : Json} (distinct : v.distinctNames) : v.asRead = v.reread := by
  induction v using byParts with
  | array items ih =>
      have distinct := (all_array_iff.mp distinct).2
      rw [asRead_array, reread_array]
      exact congrArg array (List.map_congr_left fun item mem => ih item mem (distinct item mem))
  | object members ih =>
      obtain ⟨names, distinct⟩ := distinctNames_object_iff.mp distinct
      have same : members.mapValues asRead = members.mapValues reread := by
        refine List.map_congr_left ?_
        intro member mem
        rw [ih member mem (distinct member mem)]
      rw [asRead_object, reread_object, same,
        Members.ofPairs_of_nodup (by rwa [Members.names_mapValues])]
  | _ => rfl

namespace Reader

/-! ### The reader by its first character -/

section FirstCharacter

attribute [local simp] value

variable (levels : Nat) (rest : List Char)

theorem value_blanks {blanks : List Char} (h : ∀ c ∈ blanks, isBlank c) (text : List Char) :
    value levels (blanks ++ text) = value levels text := by
  simp [skipBlanks_append h]

theorem value_quote : value levels ('"' :: rest) = (string rest).map .string := by
  rw [value, skipBlanks_cons_of_not_blank _ rfl]
  rfl

theorem value_minus : value levels ('-' :: rest) = (unsigned true rest).map .number := by
  rw [value, skipBlanks_cons_of_not_blank _ rfl]
  rfl

theorem value_digit {c : Char} (digit : c.isDigit) :
    value levels (c :: rest) = (unsigned false (c :: rest)).map .number := by
  have apart : ∀ d : Char, d.isDigit = false → c ≠ d := by
    intro d other
    exact ne_of_isDigit digit other
  rw [value, skipBlanks_cons_of_not_blank _ (isBlank_of_isDigit digit)]
  split
  case h_9 same =>
    obtain ⟨rfl, rfl⟩ := List.cons.inj same
    rw [if_pos (by rw [digitValue?_of_isDigit digit]; rfl)]
  all_goals simp_all

variable {levels rest}

theorem value_emptyArray : value (levels + 1) ('[' :: ']' :: rest) = .ok (.array [], rest) := by
  rw [value, skipBlanks_cons_of_not_blank _ rfl]
  rfl

theorem value_emptyObject : value (levels + 1) ('{' :: '}' :: rest) = .ok (.object [], rest) := by
  rw [value, skipBlanks_cons_of_not_blank _ rfl]
  rfl

/-- An array whose first item starts here. -/
theorem value_array {text : List Char} {c : Char} (skip : skipBlanks text = c :: rest)
    (notEnd : c ≠ ']') :
    value (levels + 1) ('[' :: text)
      = (items (value levels) (c :: rest).length (c :: rest)).map .array := by
  rw [value, skipBlanks_cons_of_not_blank _ rfl]
  simp only [skip]
  split
  · simp_all
  · simp_all
  · rfl

/-- An object whose first name starts here. -/
theorem value_object {text : List Char} (skip : skipBlanks text = '"' :: rest) :
    value (levels + 1) ('{' :: text)
      = (members (value levels) rest.length rest).map
          fun pairs => .object (Members.ofPairs pairs) := by
  rw [value, skipBlanks_cons_of_not_blank _ rfl]
  simp only [skip]

end FirstCharacter

/-! ### One round of a loop -/

section Rounds

variable {item : List Char → Step Json} {rounds : Nat} {text rest more : List Char} {v : Json}

theorem items_last (read : item text = .ok (v, rest)) (ends : skipBlanks rest = ']' :: more) :
    items item (rounds + 1) text = .ok ([v], more) := by
  simp only [items, read, ends]

theorem items_more {c : Char} {after : List Char} (read : item text = .ok (v, rest))
    (comma : skipBlanks rest = ',' :: more) (next : skipBlanks more = c :: after)
    (notEnd : c ≠ ']') :
    items item (rounds + 1) text = (items item rounds (c :: after)).map (v :: ·) := by
  simp only [items, read, comma, next]
  split
  · simp_all
  · simp_all
  · rfl

variable {name : String} {afterName afterColon : List Char}

theorem members_last (nameRead : string text = .ok (name, afterName))
    (colonRead : colon afterName = .ok ((), afterColon)) (read : item afterColon = .ok (v, rest))
    (ends : skipBlanks rest = '}' :: more) :
    members item (rounds + 1) text = .ok ([(name, v)], more) := by
  simp only [members, nameRead, colonRead, read, ends]

theorem members_more {after : List Char} (nameRead : string text = .ok (name, afterName))
    (colonRead : colon afterName = .ok ((), afterColon)) (read : item afterColon = .ok (v, rest))
    (comma : skipBlanks rest = ',' :: more) (next : skipBlanks more = '"' :: after) :
    members item (rounds + 1) text = (members item rounds after).map ((name, v) :: ·) := by
  simp only [members, nameRead, colonRead, read, comma, next]

end Rounds

/-! ### Printed values -/

variable {layout : Layout} {depth levels : Nat}

theorem colon_layout (layout : Layout) (text : List Char) :
    ∃ blanks : List Char, (∀ c ∈ blanks, isBlank c) ∧
      colon (layout.colon ++ text) = .ok ((), blanks ++ text) := by
  cases layout with
  | compact => exact ⟨[], by simp, rfl⟩
  | indented => exact ⟨[' '], by simp [isBlank], rfl⟩

/-- A number starts with a minus sign or a digit. -/
theorem numberText_head (n : Number) :
    ∃ c more, numberText n = c :: more ∧ (c = '-' ∨ c.isDigit) := by
  cases n with
  | integer value fits =>
      simp only [numberText, integerText]
      split
      · exact ⟨'-', _, rfl, .inl rfl⟩
      · cases same : Decimal.digitsOf value.natAbs with
        | nil => exact absurd same Nat.toDigits_ne_nil
        | cons c ds =>
            exact ⟨c, ds, rfl, .inr (isDigit_of_mem_digitsOf c (same ▸ List.mem_cons_self))⟩
  | float value =>
      obtain ⟨text, _, _, same, -, -, c, more, rfl, digit⟩ := exists_readsAs value
      rw [numberText, same]
      split
      · exact ⟨'-', _, rfl, .inl rfl⟩
      · exact ⟨c, more, rfl, .inr digit⟩

/-- A value starts with a character that is neither a blank nor a closing bracket. -/
theorem render_head (layout : Layout) (depth : Nat) (v : Json) :
    ∃ c more, render layout depth v = c :: more ∧ isBlank c = false ∧ c ≠ ']' := by
  cases v with
  | null => exact ⟨'n', _, rfl, rfl, by decide⟩
  | bool b => cases b <;> exact ⟨_, _, rfl, rfl, by decide⟩
  | string s => exact ⟨'"', _, rfl, rfl, by decide⟩
  | array items => cases items <;> exact ⟨'[', _, rfl, rfl, by decide⟩
  | object members => cases members <;> exact ⟨'{', _, rfl, rfl, by decide⟩
  | number n =>
      obtain ⟨c, more, same, rfl | digit⟩ := numberText_head n
      · exact ⟨'-', more, same, rfl, by decide⟩
      · exact ⟨c, more, same, isBlank_of_isDigit digit, ne_of_isDigit digit rfl⟩

theorem skipBlanks_lineBreak (layout : Layout) (depth : Nat) (text : List Char) :
    skipBlanks (layout.lineBreak depth ++ text) = skipBlanks text :=
  skipBlanks_append isBlank_of_mem_lineBreak text

theorem endsNumber_renderItems (items : List Json) (rest : List Char) :
    endsNumber (renderItems layout depth items ++ rest) := by
  cases items <;> cases layout <;> rfl

theorem endsNumber_renderMembers (members : Members) (rest : List Char) :
    endsNumber (renderMembers layout depth members ++ rest) := by
  cases members <;> cases layout <;> rfl

/-- A value is read where its container has the given depth, as the one that its text stands for,
before any text that cannot continue a number. -/
def IsRead (layout : Layout) (depth levels : Nat) (v : Json) : Prop :=
  ∀ rest, endsNumber rest → value levels (render layout depth v ++ rest) = .ok (v.asRead, rest)

/-- Items that are read one by one are read in a row. -/
theorem items_render {item : Json} {more : List Json} {rounds : Nat} (rest : List Char)
    (each : ∀ v ∈ item :: more, IsRead layout (depth + 1) levels v)
    (enough : more.length < rounds) :
    items (value levels) rounds
        (render layout (depth + 1) item ++ (renderItems layout depth more ++ rest))
      = .ok ((item :: more).map asRead, rest) := by
  induction more generalizing item rounds with
  | nil =>
      obtain ⟨fewer, rfl⟩ : ∃ fewer, rounds = fewer + 1 := ⟨rounds - 1, by omega⟩
      refine items_last (each item List.mem_cons_self _ (endsNumber_renderItems [] rest)) ?_
      rw [renderItems, List.append_assoc, skipBlanks_lineBreak]
      exact skipBlanks_cons_of_not_blank _ rfl
  | cons next more ih =>
      obtain ⟨fewer, rfl⟩ : ∃ fewer, rounds = fewer + 1 := ⟨rounds - 1, by omega⟩
      obtain ⟨c, tail, starts, visible, notEnd⟩ := render_head layout (depth + 1) next
      have comma : skipBlanks (renderItems layout depth (next :: more) ++ rest)
          = ',' :: (layout.lineBreak (depth + 1)
            ++ (render layout (depth + 1) next ++ (renderItems layout depth more ++ rest))) := by
        simp only [renderItems, List.append_assoc, List.cons_append]
        exact skipBlanks_cons_of_not_blank _ rfl
      have onward : skipBlanks (layout.lineBreak (depth + 1)
            ++ (render layout (depth + 1) next ++ (renderItems layout depth more ++ rest)))
          = c :: (tail ++ (renderItems layout depth more ++ rest)) := by
        rw [skipBlanks_lineBreak, starts]
        exact skipBlanks_cons_of_not_blank _ visible
      have later := @ih next fewer (List.forall_mem_cons.mp each).2
        (Nat.lt_of_succ_lt_succ enough)
      rw [starts, List.cons_append] at later
      rw [items_more (each item List.mem_cons_self _ (endsNumber_renderItems _ _)) comma onward
        notEnd, later, Step.map_ok]
      rfl

/-- What stands behind the opening quote of a member's name. -/
theorem member_render (layout : Layout) (depth levels : Nat) (name : String) (v : Json)
    (rest : List Char) :
    ∃ afterName afterColon,
      string (name.toList.flatMap escapeChar ++ '"' :: (layout.colon
          ++ (render layout depth v ++ rest))) = .ok (name, afterName) ∧
        colon afterName = .ok ((), afterColon) ∧
          value levels afterColon = value levels (render layout depth v ++ rest) := by
  obtain ⟨blanks, blank, read⟩ := colon_layout layout (render layout depth v ++ rest)
  exact ⟨_, _, string_quoted name _, read, value_blanks levels blank _⟩

/-- Members whose values are read one by one are read in a row, from behind the opening quote of
the first name. -/
theorem members_render {name : String} {v : Json} {more : Members} {rounds : Nat}
    (rest : List Char)
    (each : ∀ member ∈ (name, v) :: more, IsRead layout (depth + 1) levels member.2)
    (enough : more.length < rounds) :
    members (value levels) rounds
        (name.toList.flatMap escapeChar ++ '"' :: (layout.colon
          ++ (render layout (depth + 1) v ++ (renderMembers layout depth more ++ rest))))
      = .ok (Members.mapValues asRead ((name, v) :: more), rest) := by
  induction more generalizing name v rounds with
  | nil =>
      obtain ⟨fewer, rfl⟩ : ∃ fewer, rounds = fewer + 1 := ⟨rounds - 1, by omega⟩
      obtain ⟨_, _, nameRead, colonRead, same⟩ := member_render layout (depth + 1) levels name v
        (renderMembers layout depth [] ++ rest)
      refine members_last nameRead colonRead
        (same.trans (each _ List.mem_cons_self _ (endsNumber_renderMembers [] rest))) ?_
      rw [renderMembers, List.append_assoc, skipBlanks_lineBreak]
      exact skipBlanks_cons_of_not_blank _ rfl
  | cons next more ih =>
      obtain ⟨fewer, rfl⟩ : ∃ fewer, rounds = fewer + 1 := ⟨rounds - 1, by omega⟩
      obtain ⟨other, w⟩ := next
      obtain ⟨_, _, nameRead, colonRead, same⟩ := member_render layout (depth + 1) levels name v
        (renderMembers layout depth ((other, w) :: more) ++ rest)
      have comma : skipBlanks (renderMembers layout depth ((other, w) :: more) ++ rest)
          = ',' :: (layout.lineBreak (depth + 1) ++ '"' :: (other.toList.flatMap escapeChar
            ++ '"' :: (layout.colon ++ (render layout (depth + 1) w
              ++ (renderMembers layout depth more ++ rest))))) := by
        simp only [renderMembers, quoted, List.append_assoc, List.cons_append, List.nil_append]
        exact skipBlanks_cons_of_not_blank _ rfl
      have onward := skipBlanks_lineBreak layout (depth + 1)
        ('"' :: (other.toList.flatMap escapeChar ++ '"' :: (layout.colon
          ++ (render layout (depth + 1) w ++ (renderMembers layout depth more ++ rest)))))
      rw [skipBlanks_cons_of_not_blank _ rfl] at onward
      have later := @ih other w fewer (List.forall_mem_cons.mp each).2
        (Nat.lt_of_succ_lt_succ enough)
      rw [members_more nameRead colonRead
        (same.trans (each _ List.mem_cons_self _ (endsNumber_renderMembers _ _))) comma onward,
        later, Step.map_ok]
      rfl

/-- Every item takes up some text, so the text bounds the rounds of the loop. -/
theorem length_lt_renderItems (layout : Layout) (depth : Nat) (items : List Json) :
    items.length < (renderItems layout depth items).length := by
  induction items with
  | nil => simp [renderItems]
  | cons item items ih =>
      simp only [renderItems, List.length_append, List.length_cons]
      omega

theorem length_lt_renderMembers (layout : Layout) (depth : Nat) (members : Members) :
    members.length < (renderMembers layout depth members).length := by
  induction members with
  | nil => simp [renderMembers]
  | cons member members ih =>
      simp only [renderMembers, List.length_append, List.length_cons]
      omega

/-- The text of an integer is read as this integer. -/
theorem value_integerText {value : Int} (fits : FitsWord value) {rest : List Char}
    (ends : endsNumber rest) :
    Reader.value levels (integerText value ++ rest)
      = .ok (.number (.integer value fits), rest) := by
  have range : -0x8000000000000000 ≤ value ∧ value < 0x10000000000000000 := fits
  have word : value.natAbs ≤ maxWord := by
    unfold maxWord
    omega
  unfold integerText
  by_cases negative : value < 0
  · rw [if_pos negative, List.cons_append, value_minus, unsigned_digits true word ends,
      wholeNumber_fits fits (by rw [if_pos rfl]; omega) (by omega), Step.map_ok]
  · rw [if_neg negative]
    have read := unsigned_digits false word ends
    rw [wholeNumber_fits fits (by rw [if_neg (by decide)]; omega) (by simp)] at read
    cases same : Decimal.digitsOf value.natAbs with
    | nil => exact absurd same Nat.toDigits_ne_nil
    | cons d ds =>
        have digit : d.isDigit := isDigit_of_mem_digitsOf d (same ▸ List.mem_cons_self)
        rw [same, List.cons_append] at read
        rw [List.cons_append, value_digit levels _ digit, read, Step.map_ok]

/-- The text of a float is read as a float. -/
theorem exists_value_text (x : Decimal.Binary64) :
    ∃ y, ∀ levels rest, endsNumber rest →
      Reader.value levels (x.text decimalText ++ rest) = .ok (.number (.float y), rest) := by
  obtain ⟨text, digits, exponent, same, reads, finite, c, more, rfl, digit⟩ := exists_readsAs x
  refine ⟨⟨x.negative, _, finite⟩, ?_⟩
  intro levels rest ends
  have read := reads x.negative rest ends
  rw [scaled, Decimal.scale?_of_lt x.negative finite] at read
  rw [same]
  cases negative : x.negative with
  | true =>
      rw [negative] at read
      rw [if_pos rfl, List.cons_append, value_minus, read, Step.map_ok]
  | false =>
      rw [negative] at read
      rw [if_neg (by decide), List.cons_append, value_digit levels _ digit, ← List.cons_append,
        read, Step.map_ok]

theorem reread_integer (value : Int) (fits : FitsWord value) :
    Number.reread (.integer value fits) = .integer value fits := by
  have read := @value_integerText 0 value fits [] rfl
  rw [List.append_nil] at read
  rw [Number.reread, numberText, read]

theorem exists_reread_float (x : Decimal.Binary64) :
    ∃ y, Number.reread (.float x) = .float y ∧ ∀ levels rest, endsNumber rest →
      Reader.value levels (x.text decimalText ++ rest) = .ok (.number (.float y), rest) := by
  obtain ⟨y, read⟩ := exists_value_text x
  have alone := read 0 [] rfl
  rw [List.append_nil] at alone
  exact ⟨y, by rw [Number.reread, numberText, alone], read⟩

/-- A zero keeps its sign. -/
theorem reread_signedZero (negative : Bool) :
    (signedZero negative).reread = signedZero negative := by
  have read : Reader.value 0 (numberText (signedZero negative))
      = (scaled negative 0 (-1) []).map .number := by
    cases negative <;> rfl
  have finite : Decimal.scaledMagnitude 0 (-1) < Decimal.infinity := by
    rw [Decimal.scaledMagnitude_zero]
    decide
  rw [Number.reread, read, scaled, Decimal.scale?_of_lt negative finite]
  simp only [Step.map_ok, Decimal.scaledMagnitude_zero, signedZero]

/-- The text of a number is read as this number up to the rounding of floats. -/
theorem value_numberText (n : Number) {rest : List Char} (ends : endsNumber rest) :
    Reader.value levels (numberText n ++ rest) = .ok (.number n.reread, rest) := by
  cases n with
  | integer value fits =>
      rw [reread_integer]
      exact value_integerText fits ends
  | float x =>
      obtain ⟨y, same, read⟩ := exists_reread_float x
      rw [same]
      exact read levels rest ends

/-- An array is read if its items are. -/
theorem isRead_array {items : List Json}
    (each : ∀ v ∈ items, IsRead layout (depth + 1) levels v) :
    IsRead layout depth (levels + 1) (.array items) := by
  intro rest _
  rw [asRead_array]
  cases items with
  | nil => exact value_emptyArray
  | cons item more =>
      obtain ⟨c, tail, starts, visible, notEnd⟩ := render_head layout (depth + 1) item
      have text : render layout depth (.array (item :: more)) ++ rest
          = '[' :: (layout.lineBreak (depth + 1) ++ (render layout (depth + 1) item
            ++ (renderItems layout depth more ++ rest))) := by
        simp only [render, List.append_assoc, List.cons_append]
      have skip : skipBlanks (layout.lineBreak (depth + 1) ++ (render layout (depth + 1) item
            ++ (renderItems layout depth more ++ rest)))
          = c :: (tail ++ (renderItems layout depth more ++ rest)) := by
        rw [skipBlanks_lineBreak, starts]
        exact skipBlanks_cons_of_not_blank _ visible
      have loop := @items_render layout depth levels item more
        (c :: (tail ++ (renderItems layout depth more ++ rest))).length rest each (by
          have := length_lt_renderItems layout depth more
          simp only [List.length_cons, List.length_append]
          omega)
      rw [starts, List.cons_append] at loop
      rw [text, value_array skip notEnd, loop, Step.map_ok]

/-- An object is read if the values of its members are. -/
theorem isRead_object {members : Members}
    (each : ∀ member ∈ members, IsRead layout (depth + 1) levels member.2) :
    IsRead layout depth (levels + 1) (.object members) := by
  intro rest _
  rw [asRead_object]
  cases members with
  | nil => exact value_emptyObject
  | cons member more =>
      obtain ⟨name, v⟩ := member
      have text : render layout depth (.object ((name, v) :: more)) ++ rest
          = '{' :: (layout.lineBreak (depth + 1) ++ '"' :: (name.toList.flatMap escapeChar
            ++ '"' :: (layout.colon ++ (render layout (depth + 1) v
              ++ (renderMembers layout depth more ++ rest))))) := by
        simp only [render, quoted, List.append_assoc, List.cons_append, List.nil_append]
      have skip := skipBlanks_lineBreak layout (depth + 1)
        ('"' :: (name.toList.flatMap escapeChar ++ '"' :: (layout.colon
          ++ (render layout (depth + 1) v ++ (renderMembers layout depth more ++ rest)))))
      rw [skipBlanks_cons_of_not_blank _ rfl] at skip
      rw [text, value_object skip, members_render rest each, Step.map_ok]
      have := length_lt_renderMembers layout depth more
      simp only [List.length_cons, List.length_append]
      omega

/-- **The text of every value is read**, if it is nested no deeper than the reader allows. -/
theorem isRead {v : Json} (bound : v.nesting ≤ levels) :
    IsRead layout depth levels v := by
  induction v using byParts generalizing depth levels with
  | null =>
      intro rest _
      rw [value, render, List.cons_append, skipBlanks_cons_of_not_blank _ rfl]
      rfl
  | bool b =>
      intro rest _
      cases b <;>
      · rw [value, render, List.cons_append, skipBlanks_cons_of_not_blank _ rfl]
        rfl
  | number n =>
      intro rest ends
      exact value_numberText n ends
  | string s =>
      intro rest _
      have text : render layout depth (.string s) ++ rest
          = '"' :: (s.toList.flatMap escapeChar ++ '"' :: rest) := by
        simp only [render, quoted, List.append_assoc, List.cons_append, List.nil_append]
      rw [text, value_quote, string_quoted, Step.map_ok]
      rfl
  | array items ih =>
      obtain ⟨fewer, rfl, parts⟩ := nesting_array_le_iff.mp bound
      exact isRead_array fun v mem => ih v mem (parts v mem)
  | object members ih =>
      obtain ⟨fewer, rfl, parts⟩ := nesting_object_le_iff.mp bound
      exact isRead_object fun member mem => ih member mem (parts member mem)

end Reader

/-! ### Whole texts -/

/-- Integers are read back as they are, and so are zeros with a sign. -/
theorem reread_of_integral {v : Json} (numbers : v.integral) : v.reread = v := by
  induction v using byParts with
  | number n =>
      cases n with
      | integer value fits => rw [reread, Reader.reread_integer]
      | float x =>
          obtain ⟨negative, magnitude, finite⟩ := x
          obtain rfl : magnitude = 0 := beq_iff_eq.mp numbers
          exact congrArg Json.number (Reader.reread_signedZero negative)
  | array items ih =>
      have numbers := (all_array_iff.mp numbers).2
      have same : ∀ item ∈ items, item.reread = item := by
        intro item mem
        exact ih item mem (numbers item mem)
      rw [reread_array, List.map_congr_left same, List.map_id']
  | object members ih =>
      have numbers := integral_object_iff.mp numbers
      have same : ∀ member ∈ members, member.2.reread = member.2 := by
        intro member mem
        exact ih member mem (numbers member mem)
      rw [reread_object, Members.mapValues_eq_self same]
  | _ => rfl

theorem reread_of_wholeNumbers {v : Json} (whole : v.wholeNumbers) : v.reread = v :=
  reread_of_integral (integral_of_wholeNumbers whole)

/-- The value that a whole text stands for, with at most `levels` arrays and objects open at
once. -/
def parseWithin (levels : Nat) (text : String) : Except Failure Json :=
  match Reader.value levels text.toList with
  | .error failure => .error failure
  | .ok (value, rest) =>
      match Reader.finish rest with
      | .error failure => .error failure
      | .ok () => .ok value

theorem parse_eq_parseWithin (text : String) :
    Json.parse text = parseWithin Reader.maxLevels text := rfl

/-- The text of a value, with blanks behind it, can be read, if the reader allows as many levels
as the value has. -/
theorem parseWithin_render_asRead (layout : Layout) {levels : Nat} {v : Json}
    (bound : v.nesting ≤ levels) {blanks : List Char} (blank : ∀ c ∈ blanks, Reader.isBlank c)
    {text : String} (same : text.toList = v.render layout 0 ++ blanks) :
    parseWithin levels text = .ok v.asRead := by
  have ends : Reader.endsNumber blanks := by
    cases blanks with
    | nil => rfl
    | cons c blanks =>
        have := blank c List.mem_cons_self
        unfold Reader.isBlank at this
        split at this <;> first | rfl | cases this
  have finish : Reader.finish blanks = .ok () := by
    have skip := Reader.skipBlanks_append blank []
    rw [List.append_nil] at skip
    simp only [Reader.finish, skip]
    rfl
  unfold parseWithin
  rw [same, Reader.isRead bound blanks ends]
  simp only [finish]

/-- **Every value is read back** up to its floats, if its names are different. -/
theorem parseWithin_render_reread (layout : Layout) {levels : Nat} {v : Json}
    (distinct : v.distinctNames) (bound : v.nesting ≤ levels) {blanks : List Char}
    (blank : ∀ c ∈ blanks, Reader.isBlank c) {text : String}
    (same : text.toList = v.render layout 0 ++ blanks) :
    parseWithin levels text = .ok v.reread := by
  rw [parseWithin_render_asRead layout bound blank same, asRead_of_distinctNames distinct]

theorem parse_render_reread (layout : Layout) {v : Json}
    (distinct : v.distinctNames) (bound : v.nesting ≤ Reader.maxLevels) {blanks : List Char}
    (blank : ∀ c ∈ blanks, Reader.isBlank c) {text : String}
    (same : text.toList = v.render layout 0 ++ blanks) : Json.parse text = .ok v.reread :=
  parseWithin_render_reread layout distinct bound blank same

/-- The compact text of every value can be read. -/
theorem parse_compact_asRead {v : Json} (bound : v.nesting ≤ Reader.maxLevels) :
    Json.parse v.compact = .ok v.asRead :=
  @parseWithin_render_asRead .compact _ v bound [] (by simp) _ (by simp [compact])

/-- The compact text of a value stands for this value up to its floats. -/
theorem parse_compact_reread {v : Json} (distinct : v.distinctNames)
    (bound : v.nesting ≤ Reader.maxLevels) : Json.parse v.compact = .ok v.reread :=
  @parse_render_reread .compact v distinct bound [] (by simp) _ (by simp [compact])

/-- So does its indented text with a line feed at its end. -/
theorem parseWithin_pretty_line_reread {levels : Nat} {v : Json} (distinct : v.distinctNames)
    (bound : v.nesting ≤ levels) : parseWithin levels (v.pretty ++ "\n") = .ok v.reread := by
  have lineFeed : ∀ c ∈ ['\n'], Reader.isBlank c := List.forall_mem_singleton.mpr rfl
  refine parseWithin_render_reread .indented distinct bound lineFeed ?_
  rw [Json.pretty, String.toList_append, String.toList_ofList]
  rfl

theorem parse_pretty_line_reread {v : Json} (distinct : v.distinctNames)
    (bound : v.nesting ≤ Reader.maxLevels) : Json.parse (v.pretty ++ "\n") = .ok v.reread :=
  parseWithin_pretty_line_reread distinct bound

/-- The text of a value of integers, with blanks behind it, stands for this value. -/
theorem parse_render (layout : Layout) {v : Json} (whole : v.wholeNumbers)
    (distinct : v.distinctNames) (bound : v.nesting ≤ Reader.maxLevels) {blanks : List Char}
    (blank : ∀ c ∈ blanks, Reader.isBlank c) {text : String}
    (same : text.toList = v.render layout 0 ++ blanks) : Json.parse text = .ok v := by
  have read := parse_render_reread layout distinct bound blank same
  rwa [reread_of_wholeNumbers whole] at read

section Whole

variable {v : Json} (whole : v.wholeNumbers) (distinct : v.distinctNames)
  (bound : v.nesting ≤ Reader.maxLevels)

include whole distinct bound

theorem parse_compact : Json.parse v.compact = .ok v :=
  @parse_render .compact v whole distinct bound [] (by simp) _ (by simp [compact])

theorem parse_pretty : Json.parse v.pretty = .ok v :=
  @parse_render .indented v whole distinct bound [] (by simp) _ (by simp [pretty])

end Whole

/-! ### Values that are read back -/

/-- A value of integers and different names, nested no deeper than this many levels. -/
structure Faithful (levels : Nat) (v : Json) : Prop where
  whole : v.wholeNumbers
  distinct : v.distinctNames
  bound : v.nesting ≤ levels

namespace Faithful

variable {levels : Nat} {v : Json}

theorem parse_compact (h : v.Faithful Reader.maxLevels) : Json.parse v.compact = .ok v :=
  Json.parse_compact h.whole h.distinct h.bound

theorem parse_pretty_line (h : v.Faithful Reader.maxLevels) :
    Json.parse (v.pretty ++ "\n") = .ok v := by
  have read := parse_pretty_line_reread h.distinct h.bound
  rwa [reread_of_wholeNumbers h.whole] at read

theorem string (text : String) : (Json.string text).Faithful levels :=
  ⟨rfl, rfl, Nat.zero_le _⟩

theorem integer (value : Int) (fits : FitsWord value) :
    (number (.integer value fits)).Faithful levels :=
  ⟨rfl, rfl, Nat.zero_le _⟩

theorem array {items : List Json} (each : ∀ item ∈ items, item.Faithful levels) :
    (Json.array items).Faithful (levels + 1) := by
  constructor
  · exact all_array_iff.mpr ⟨rfl, fun item mem => (each item mem).whole⟩
  · exact all_array_iff.mpr ⟨rfl, fun item mem => (each item mem).distinct⟩
  · exact Nat.succ_le_succ (nestingItems_le_iff.mpr fun item mem => (each item mem).bound)

theorem object {members : Members} (names : members.names.Nodup)
    (each : ∀ member ∈ members, member.2.Faithful levels) :
    (Json.object members).Faithful (levels + 1) := by
  constructor
  · exact wholeNumbers_object_iff.mpr fun member mem => (each member mem).whole
  · exact distinctNames_object_iff.mpr ⟨names, fun member mem => (each member mem).distinct⟩
  · exact Nat.succ_le_succ (nestingMembers_le_iff.mpr fun member mem => (each member mem).bound)

/-- That the names of a record are different can be evaluated. -/
theorem record {members : Members} (names : decide members.names.Nodup = true)
    (each : ∀ member ∈ members, member.2.Faithful levels) :
    (Json.object members).Faithful (levels + 1) :=
  object (of_decide_eq_true names) each

/-- Members from pairs have different names. -/
theorem ofPairs {pairs : List (String × Json)}
    (each : ∀ pair ∈ pairs, pair.2.Faithful levels) :
    (Json.object (Members.ofPairs pairs)).Faithful (levels + 1) :=
  object (Members.nodup_names_ofPairs pairs)
    fun member mem => each member (Members.mem_of_mem_ofPairs mem)

end Faithful

end Json

end Provision
