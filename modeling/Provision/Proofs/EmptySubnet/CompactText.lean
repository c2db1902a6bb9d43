import Provision.Proofs.EmptySubnet.Joining
import Provision.Proofs.Json.Tokens
import Provision.Proofs.Text.Erasure

/-!
Erasing empty subnets from compact text.

`EmptySubnet.strip` knows nothing of JSON: it erases a literal wherever it occurs. On the
compact text of a value, whatever its names and texts are, it does what `Json.joined` does to the
value. Where subnets lead, that is what `Json.withoutEmptySubnets` does, unless the literal starts
within a name. That takes a name that ends in a quote and `subnet`, an empty string as its value,
and another member behind it (`isSevered`, `unsevered`); a value whose names contain no double
quote has none.

* `prefix_escaped_iff` — where a quote opens in printed text, a plain word with its closing
  quote follows exactly if the string printed there is this word. Quotes inside a string
  are preceded by a backslash, so they open words of their own.
* `erase_quoted`, `erase_name`, `erase_member` — the literal is found in the name of a cut
  member and nowhere else: not at a string value, which no colon follows.
* `exists_leads_of_isCut` — from a cut member, the text is erased from the last quote of its stem
  on. The backslash in front of that quote does not occur in the literal, so nothing before it is
  erased, and the name of the next member goes on there (`Leads`).
* `erasedTo_joined` — by induction on the value, the text with the literal erased is the text of
  the joined value; for whole texts, `strip_compact_eq_joined`, `strip_compact_of_unsevered`, and
  `strip_compact_subnetFirst` where no name has a quote.
-/

namespace Provision.Json

open EmptySubnet (literal)

/-! ### Quotes in printed text -/

theorem quote_notMem_digitsOf (n : Nat) : '"' ∉ Decimal.digitsOf n := by
  intro mem
  have digit := Reader.isDigit_of_mem_digitsOf _ mem
  exact absurd rfl (Reader.ne_of_isDigit digit (rfl : Char.isDigit '"' = false))

theorem quote_notMem_decimalText (digits : Decimal.Digits) : '"' ∉ decimalText digits := by
  have value := quote_notMem_digitsOf digits.value
  have power := quote_notMem_digitsOf (digits.point - 1).natAbs
  unfold decimalText
  split
  · unfold Decimal.Digits.positional
    simp only
    split
    · simp [value]
    · split
      · simp only [List.mem_append, List.mem_cons, not_or]
        refine ⟨?_, by decide, ?_⟩
        · intro mem
          exact value (List.mem_of_mem_take mem)
        · intro mem
          exact value (List.mem_of_mem_drop mem)
      · simp [value]
  · have suffix : '"' ∉ 'e' :: (if digits.point - 1 < 0 then '-' else '+')
        :: Decimal.digitsOf (digits.point - 1).natAbs := by
      intro mem
      rcases List.mem_cons.mp mem with same | mem
      · exact absurd same (by decide)
      · rcases List.mem_cons.mp mem with same | mem
        · revert same
          split <;> decide
        · exact power mem
    unfold Decimal.Digits.scientific
    simp only
    split
    · exact suffix
    · rename_i d same
      rw [same] at value
      intro mem
      rcases List.mem_cons.mp mem with rfl | mem
      · exact value List.mem_cons_self
      · exact suffix mem
    · rename_i d more _ same
      rw [same] at value
      intro mem
      rcases List.mem_append.mp mem with mem | mem
      · rcases List.mem_cons.mp mem with rfl | mem
        · exact value List.mem_cons_self
        · rcases List.mem_cons.mp mem with same | mem
          · exact absurd same (by decide)
          · exact value (List.mem_cons_of_mem _ mem)
      · exact suffix mem

/-- The text of a number has no quotes. -/
theorem quote_notMem_numberText (n : Number) : '"' ∉ numberText n := by
  cases n with
  | integer value _ =>
      have digits := quote_notMem_digitsOf value.natAbs
      simp only [numberText, integerText]
      split <;> simp [digits]
  | float value =>
      have digits := quote_notMem_decimalText (Decimal.shortest value.magnitude)
      simp only [numberText, Decimal.Binary64.text]
      split <;> split <;> simp [digits]

/-- A character other than a quote is printed without one. -/
theorem quote_notMem_escapeChar {c : Char} (h : c ≠ '"') : '"' ∉ escapeChar c := by
  unfold escapeChar
  split
  case h_8 =>
    by_cases small : c.toNat < 0x20
    · rw [if_pos small]
      have digits : ∀ n < 0x20,
          '"' ∉ ['\\', 'u', '0', '0', hexDigit (n / 16), hexDigit (n % 16)] := by decide
      exact digits c.toNat small
    · rw [if_neg small]
      intro mem
      exact h (List.mem_singleton.mp mem).symm
  all_goals simp_all

/-- A character is printed as itself or behind a backslash. -/
theorem escapeChar_cases (c : Char) :
    c ≠ '"' ∧ escapeChar c = [c] ∨ ∃ tail, escapeChar c = '\\' :: tail := by
  unfold escapeChar
  split
  case h_8 quote _ _ _ _ _ _ =>
    split
    · exact .inr ⟨_, rfl⟩
    · exact .inl ⟨quote, rfl⟩
  all_goals exact .inr ⟨_, rfl⟩

/-- Where a quote opens, a word that needs no escapes and its closing quote follow exactly
if the string printed there is this word. -/
theorem prefix_escaped_iff {word s tail rest : List Char}
    (plain : ∀ c ∈ word, escapeChar c = [c]) :
    word ++ '"' :: tail <+: s.flatMap escapeChar ++ '"' :: rest ↔ s = word ∧ tail <+: rest := by
  induction word generalizing s with
  | nil =>
      cases s with
      | nil => simp
      | cons c s =>
          rcases escapeChar_cases c with ⟨noQuote, printed⟩ | ⟨more, printed⟩
          · simp [printed, noQuote.symm]
          · simp [printed]
  | cons w word ih =>
      obtain ⟨first, later⟩ := List.forall_mem_cons.mp plain
      have noQuote : w ≠ '"' := by
        rintro rfl
        cases first
      have noBackslash : w ≠ '\\' := by
        rintro rfl
        cases first
      cases s with
      | nil => simp [noQuote]
      | cons c s =>
          rcases escapeChar_cases c with ⟨_, printed⟩ | ⟨more, printed⟩
          · have := ih (s := s) later
            simp [printed, this, and_assoc, eq_comm]
          · have differs : c ≠ w := by
              rintro rfl
              simp [first, noBackslash] at printed
            simp [printed, noBackslash, differs]

/-! ### Where the literal starts -/

theorem literal_eq : literal = '"' :: ("subnet".toList ++ '"' :: [':', '"', '"', ',']) := rfl

theorem literal_ne_nil : literal ≠ [] := by simp [literal_eq]

/-- Where a quote opens, the literal starts exactly if the string is `subnet` and an empty
string with a comma is its value. -/
theorem literal_prefix_iff {s rest : List Char} :
    literal <+: '"' :: (s.flatMap escapeChar ++ '"' :: rest) ↔
      s = "subnet".toList ∧ [':', '"', '"', ','] <+: rest := by
  have plain : ∀ c ∈ "subnet".toList, escapeChar c = [c] := by
    show ∀ c ∈ ['s', 'u', 'b', 'n', 'e', 't'], escapeChar c = [c]
    simp only [List.forall_mem_cons]
    exact ⟨rfl, rfl, rfl, rfl, rfl, rfl, nofun⟩
  rw [literal_eq, List.cons_prefix_cons, prefix_escaped_iff plain]
  exact and_iff_right rfl

theorem erase_cons_of_ne {c : Char} {rest : List Char} (h : c ≠ '"') :
    Text.erase literal (c :: rest) = c :: Text.erase literal rest := by
  refine Text.erase_cons ?_
  intro starts
  exact h (List.cons_prefix_cons.mp starts).1.symm

theorem erase_append_of_quote_notMem {front : List Char} (h : '"' ∉ front) (rest : List Char) :
    Text.erase literal (front ++ rest) = front ++ Text.erase literal rest :=
  Text.erase_append_of_head_notMem h rest

/-- Nothing is erased from a string, if the literal cannot start at its closing quote, nor
at a quote inside it. -/
theorem erase_escaped {s rest : List Char} (closing : rest.head? ≠ some 's')
    (inner : '"' :: "subnet".toList <:+ s → ¬ [':', '"', '"', ','] <+: rest) :
    Text.erase literal (s.flatMap escapeChar ++ '"' :: rest)
      = s.flatMap escapeChar ++ '"' :: Text.erase literal rest := by
  induction s with
  | nil =>
      refine Text.erase_cons ?_
      intro starts
      obtain ⟨-, more, rfl⟩ := List.cons_prefix_cons.mp starts
      exact closing rfl
  | cons c s ih =>
      have ih := ih fun ends => inner (ends.trans (List.suffix_cons c s))
      rw [List.flatMap_cons, List.append_assoc, List.append_assoc]
      by_cases quote : c = '"'
      · -- the quote inside opens a string that ends where `s` ends
        subst quote
        have absent : ¬ literal <+: '"' :: (s.flatMap escapeChar ++ '"' :: rest) := by
          intro starts
          obtain ⟨rfl, value⟩ := literal_prefix_iff.mp starts
          exact inner (List.suffix_refl _) value
        have printed : escapeChar '"' = ['\\', '"'] := rfl
        rw [printed, List.cons_append, List.cons_append, List.nil_append,
          erase_cons_of_ne (by decide), Text.erase_cons absent, ih]
        rfl
      · rw [erase_append_of_quote_notMem (quote_notMem_escapeChar quote), ih]

/-- A text that can only stand behind a value. -/
def EndsValue (rest : List Char) : Prop := ∀ c ∈ rest.head?, c = ',' ∨ c = ']' ∨ c = '}'

theorem endsValue_nil : EndsValue [] := by
  intro c mem
  cases mem

theorem EndsValue.head?_ne {rest : List Char} (ends : EndsValue rest) {c : Char}
    (other : c ≠ ',' ∧ c ≠ ']' ∧ c ≠ '}') : rest.head? ≠ some c := by
  intro same
  rcases ends c same with comma | bracket | brace
  · exact other.1 comma
  · exact other.2.1 bracket
  · exact other.2.2 brace

/-- Nothing is erased from a string value. -/
theorem erase_quoted (s : List Char) {rest : List Char} (ends : EndsValue rest) :
    Text.erase literal (quoted s ++ rest) = quoted s ++ Text.erase literal rest := by
  have value : rest.head? ≠ some ':' := ends.head?_ne (by decide)
  have opening : ¬ literal <+: '"' :: (s.flatMap escapeChar ++ '"' :: rest) := by
    intro starts
    obtain ⟨-, more, rfl⟩ := literal_prefix_iff.mp starts
    exact value rfl
  have whole (rest : List Char) :
      quoted s ++ rest = '"' :: (s.flatMap escapeChar ++ '"' :: rest) := by simp [quoted]
  have inner : '"' :: "subnet".toList <:+ s → ¬ [':', '"', '"', ','] <+: rest := by
    rintro - ⟨more, rfl⟩
    exact value rfl
  rw [whole, Text.erase_cons opening, erase_escaped (ends.head?_ne (by decide)) inner, whole]

/-- Nothing is erased from a name, unless it ends in `subnet` behind a quote, that in front of it
included, and its value is an empty string with a comma. -/
theorem erase_name {name rest : List Char}
    (kept : ['"', '"', ','] <+: rest → ¬ '"' :: "subnet".toList <:+ '"' :: name) :
    Text.erase literal (quoted name ++ ':' :: rest)
      = quoted name ++ ':' :: Text.erase literal rest := by
  have opening : ¬ literal <+: '"' :: (name.flatMap escapeChar ++ '"' :: ':' :: rest) := by
    intro starts
    obtain ⟨rfl, value⟩ := literal_prefix_iff.mp starts
    exact kept (List.cons_prefix_cons.mp value).2 (List.suffix_refl _)
  have inner : '"' :: "subnet".toList <:+ name → ¬ [':', '"', '"', ','] <+: ':' :: rest := by
    intro ends value
    exact kept (List.cons_prefix_cons.mp value).2 (ends.trans (List.suffix_cons '"' name))
  have whole (rest : List Char) :
      quoted name ++ rest = '"' :: (name.flatMap escapeChar ++ '"' :: rest) := by simp [quoted]
  rw [whole, Text.erase_cons opening, erase_escaped (by simp) inner,
    erase_cons_of_ne (by decide), whole]

/-- The text of a string holds no literal up to its closing quote. -/
theorem erase_opened (s : List Char) :
    Text.erase literal ('"' :: s.flatMap escapeChar) = '"' :: s.flatMap escapeChar := by
  have whole := erase_quoted s endsValue_nil
  have none : Text.erase literal [] = [] := rfl
  rw [none, List.append_nil, Text.erase_eq_self_iff literal_ne_nil] at whole
  rw [Text.erase_eq_self_iff literal_ne_nil]
  intro occurs
  exact whole (occurs.trans (List.prefix_append _ ['"']).isInfix)

/-! ### Names that go on -/

/-- What stands in front of the last quote, where a string that starts with `front` is printed so
far. -/
def Leads (lead front : List Char) : Prop := lead ++ ['"'] = '"' :: front.flatMap escapeChar

theorem leads_nil : Leads [] [] := rfl

variable {lead front : List Char}

theorem Leads.append (leads : Leads lead front) {lead' front' : List Char}
    (leads' : Leads lead' front') : Leads (lead ++ lead') (front ++ front') := by
  unfold Leads at leads leads' ⊢
  calc (lead ++ lead') ++ ['"'] = (lead ++ ['"']) ++ front'.flatMap escapeChar := by simp [leads']
    _ = '"' :: (front ++ front').flatMap escapeChar := by simp [leads]

/-- The string that is printed behind it goes on from there. -/
theorem Leads.append_quoted (leads : Leads lead front) (s : List Char) :
    lead ++ quoted s = quoted (front ++ s) := by
  unfold Leads at leads
  calc lead ++ quoted s = (lead ++ ['"']) ++ (s.flatMap escapeChar ++ ['"']) := by simp [quoted]
    _ = quoted (front ++ s) := by simp [leads, quoted]

/-- Where a name can go on, the literal is erased from the last quote on, and what stands before
it stays. -/
theorem exists_leads (ends : EndsInQuote front) :
    ∃ lead, Leads lead front ∧
      ∀ rest, Text.erase literal (lead ++ (literal ++ rest)) = lead ++ Text.erase literal rest := by
  obtain ⟨opened, same⟩ := ends
  cases opened with
  | nil =>
      obtain rfl : [] = front := (List.cons.inj same).2
      exact ⟨[], leads_nil, fun rest => Text.erase_literal_append literal_ne_nil rest⟩
  | cons c s =>
      obtain ⟨rfl, tail⟩ := List.cons.inj same
      obtain rfl : s ++ ['"'] = front := tail
      refine ⟨'"' :: s.flatMap escapeChar ++ ['\\'], ?_, ?_⟩
      · rw [Leads, List.flatMap_append, List.append_assoc]
        rfl
      · -- the backslash before the quote keeps occurrences apart
        intro rest
        have backslash : '\\' ∉ literal := by decide
        rw [List.append_assoc, List.append_assoc, List.singleton_append, List.singleton_append,
          Text.erase_append_cons_of_notMem backslash literal_ne_nil, erase_opened,
          Text.erase_literal_append literal_ne_nil]

/-! ### Values -/

variable {depth : Nat}

/-- Of all values, only the empty string is printed as two quotes in a row. -/
theorem quotes_prefix_render_iff {value : Json} {rest : List Char} (ends : EndsValue rest) :
    ['"', '"', ','] <+: value.render .compact depth ++ rest ↔
      value = .string "" ∧ [','] <+: rest := by
  cases value with
  | null => simp [render]
  | bool value => cases value <;> simp [render]
  | array items => cases items <;> simp [render]
  | object members => cases members <;> simp [render]
  | number n =>
      have noQuote := quote_notMem_numberText n
      rw [render]
      cases same : numberText n with
      | nil =>
          have absent : ¬ ['"', '"', ','] <+: rest := by
            rintro ⟨more, rfl⟩
            exact ends.head?_ne (c := '"') (by decide) rfl
          simpa using absent
      | cons c more =>
          rw [same] at noQuote
          obtain ⟨differs, -⟩ := List.ne_and_not_mem_of_not_mem_cons noQuote
          simp [differs]
  | string s =>
      have whole : render .compact depth (.string s) ++ rest
          = '"' :: (s.toList.flatMap escapeChar ++ '"' :: rest) := by simp [render, quoted]
      rw [whole, List.cons_prefix_cons]
      have closing : '"' :: [','] <+: s.toList.flatMap escapeChar ++ '"' :: rest ↔
          s.toList = [] ∧ [','] <+: rest := @prefix_escaped_iff [] s.toList [','] rest (by simp)
      simp [closing]

/-- What erasing does to the text of a value before a text that can only stand behind it. -/
def ErasedTo (depth : Nat) (value stripped : Json) : Prop :=
  ∀ rest, EndsValue rest →
    Text.erase literal (value.render .compact depth ++ rest)
      = stripped.render .compact depth ++ Text.erase literal rest

theorem endsValue_renderItems (items : List Json) (rest : List Char) :
    EndsValue (renderItems .compact depth items ++ rest) := by
  cases items <;> simp [EndsValue, renderItems, Layout.lineBreak]

theorem endsValue_renderMembers (members : Members) (rest : List Char) :
    EndsValue (renderMembers .compact depth members ++ rest) := by
  cases members <;> simp [EndsValue, renderMembers, Layout.lineBreak]

/-- Items are erased from one by one. -/
theorem erase_renderItems {items : List Json}
    (each : ∀ item ∈ items, ErasedTo (depth + 1) item item.joined) (rest : List Char) :
    Text.erase literal (renderItems .compact depth items ++ rest)
      = renderItems .compact depth (items.map joined) ++ Text.erase literal rest := by
  induction items with
  | nil => exact erase_cons_of_ne (by decide)
  | cons item items ih =>
      obtain ⟨first, later⟩ := List.forall_mem_cons.mp each
      simp only [renderItems, Layout.lineBreak, List.append_assoc, List.cons_append,
        List.nil_append, List.map_cons]
      rw [erase_cons_of_ne (by decide), first _ (endsValue_renderItems items rest), ih later]

/-- A member that is not cut keeps its name, and so does one without a comma behind it. -/
theorem erase_member {name : String} {value stripped : Json} {rest : List Char}
    (erased : ErasedTo depth value stripped) (ends : EndsValue rest)
    (kept : [','] <+: rest → isCut (name, value) = false) :
    Text.erase literal (quoted name.toList ++ ':' :: (value.render .compact depth ++ rest))
      = quoted name.toList
        ++ ':' :: (stripped.render .compact depth ++ Text.erase literal rest) := by
  have notLiteral : ['"', '"', ','] <+: value.render .compact depth ++ rest →
      ¬ '"' :: "subnet".toList <:+ '"' :: name.toList := by
    intro starts named
    obtain ⟨empty, comma⟩ := (quotes_prefix_render_iff ends).mp starts
    exact Bool.eq_false_iff.mp (kept comma) (isCut_iff.mpr ⟨empty, named⟩)
  rw [erase_name notLiteral, erased rest ends]

/-- A comma is a sign of another member. -/
theorem ne_nil_of_comma {members : Members} {rest : List Char}
    (comma : [','] <+: renderMembers .compact depth members ++ rest) : members ≠ [] := by
  rintro rfl
  simp [renderMembers, Layout.lineBreak] at comma

/-- An empty subnet and the comma behind it are the literal. -/
theorem literal_append (rest : List Char) :
    quoted "subnet".toList ++ ':' :: (render .compact depth (.string "") ++ ',' :: rest)
      = literal ++ rest := rfl

/-- The text of the members of an object, from the quote in front of the first name to the closing
brace. -/
def membersText (depth : Nat) : Members → List Char
  | [] => ['}']
  | (name, value) :: members =>
      quoted name.toList ++ ':' :: (value.render .compact (depth + 1)
        ++ renderMembers .compact depth members)

theorem render_object (members : Members) :
    render .compact depth (.object members) = '{' :: membersText depth members := by
  cases members <;> simp [render, membersText, Layout.lineBreak, Layout.colon]

theorem renderMembers_of_ne_nil {members : Members} (nonempty : members ≠ []) :
    renderMembers .compact depth members = ',' :: membersText depth members := by
  cases members with
  | nil => exact absurd rfl nonempty
  | cons member members => simp [renderMembers, membersText, Layout.lineBreak, Layout.colon]

/-- Of a cut member and its comma, the literal is erased, and the text up to it stays. -/
theorem exists_leads_of_isCut {name : String} {value : Json} (cut : isCut (name, value) = true) :
    ∃ lead, Leads lead (stem name) ∧
      ∀ rest, Text.erase literal
          (quoted name.toList ++ ':' :: (value.render .compact depth ++ ',' :: rest))
        = lead ++ Text.erase literal rest := by
  obtain ⟨own, ends⟩ := ends_of_isCut cut
  obtain ⟨lead, leads, erased⟩ := exists_leads ends
  refine ⟨lead, leads, ?_⟩
  intro rest
  obtain rfl := (isCut_iff.mp cut).1
  rw [own, ← leads.append_quoted, List.append_assoc, literal_append, erased]

/-- Members behind another one are erased from as the text of all of them is. -/
theorem erase_renderMembers {members kept : Members} (same : kept = [] ↔ members = [])
    {rest : List Char}
    (erased : members ≠ [] → Text.erase literal (membersText depth members ++ rest)
      = membersText depth kept ++ Text.erase literal rest) :
    Text.erase literal (renderMembers .compact depth members ++ rest)
      = renderMembers .compact depth kept ++ Text.erase literal rest := by
  by_cases others : members = []
  · rw [same.mpr others, others]
    exact erase_cons_of_ne (by decide)
  · rw [renderMembers_of_ne_nil others, renderMembers_of_ne_nil (mt same.mp others),
      List.cons_append, erase_cons_of_ne (by decide), erased others, List.cons_append]

/-- **The text of members is erased from as they are joined.** The induction is on the members,
with any start of a name that the first one goes on from. -/
theorem erase_membersText {members : Members} (nonempty : members ≠ []) (leads : Leads lead front)
    (each : ∀ member ∈ members, ErasedTo (depth + 1) member.2 member.2.joined)
    (rest : List Char) :
    lead ++ Text.erase literal (membersText depth members ++ rest)
      = membersText depth (Members.joinedFrom front (members.mapValues joined))
        ++ Text.erase literal rest := by
  induction members generalizing front lead with
  | nil => exact absurd rfl nonempty
  | cons member members ih =>
      obtain ⟨name, value⟩ := member
      obtain ⟨first, later⟩ := List.forall_mem_cons.mp each
      have alone : Members.mapValues joined members = [] ↔ members = [] := List.map_eq_nil_iff
      have text : membersText depth ((name, value) :: members) ++ rest
          = quoted name.toList ++ ':' :: (value.render .compact (depth + 1)
              ++ (renderMembers .compact depth members ++ rest)) := by
        simp only [membersText, List.append_assoc, List.cons_append]
      rw [text, Members.mapValues, List.map_cons, ← Members.mapValues, Members.joinedFrom,
        isCut_joined]
      by_cases cut : isCut (name, value) ∧ Members.mapValues joined members ≠ []
      · have others : members ≠ [] := mt alone.mpr cut.2
        obtain ⟨inner, own, erased⟩ := @exists_leads_of_isCut (depth + 1) name value cut.1
        rw [if_pos cut, renderMembers_of_ne_nil others, List.cons_append, erased,
          ← List.append_assoc, ih others (leads.append own) later]
      · have behind := @erase_renderMembers depth members
          (Members.joinedFrom [] (Members.mapValues joined members))
          (Members.joinedFrom_eq_nil_iff.trans alone) rest fun others => ih others leads_nil later
        have kept : [','] <+: renderMembers .compact depth members ++ rest →
            isCut (name, value) = false := by
          intro comma
          rw [Bool.eq_false_iff]
          exact fun yes => cut ⟨yes, mt alone.mp (ne_nil_of_comma comma)⟩
        rw [if_neg cut, erase_member first (endsValue_renderMembers members rest) kept, behind,
          ← List.append_assoc, leads.append_quoted]
        simp only [membersText, String.toList_ofList, List.append_assoc, List.cons_append]

/-- The text of an object whose values are erased from one by one. -/
theorem erasedTo_object {members : Members}
    (each : ∀ member ∈ members, ErasedTo (depth + 1) member.2 member.2.joined) :
    ErasedTo depth (.object members) (object members).joined := by
  intro rest _
  rw [joined_object]
  by_cases others : members = []
  · subst others
    have noQuote : '"' ∉ ['{', '}'] := by decide
    exact erase_append_of_quote_notMem noQuote rest
  · rw [render_object, render_object, List.cons_append, erase_cons_of_ne (by decide),
      List.cons_append]
    exact congrArg ('{' :: ·) (erase_membersText others leads_nil each rest)

/-- An array is erased from item by item. -/
theorem erasedTo_array {items : List Json}
    (each : ∀ item ∈ items, ErasedTo (depth + 1) item item.joined) :
    ErasedTo depth (.array items) (array items).joined := by
  intro rest _
  rw [joined_array]
  cases items with
  | nil =>
      have noQuote : '"' ∉ ['[', ']'] := by decide
      exact erase_append_of_quote_notMem noQuote rest
  | cons item items =>
      obtain ⟨first, later⟩ := List.forall_mem_cons.mp each
      simp only [render, Layout.lineBreak, List.map_cons, List.append_assoc, List.cons_append,
        List.nil_append]
      rw [erase_cons_of_ne (by decide), first _ (endsValue_renderItems items rest),
        erase_renderItems later]

/-- **The text of a value is erased from as the value is joined**: the induction is on the value,
with any text behind it. Nothing is asked of its names. -/
theorem erasedTo_joined (value : Json) : ErasedTo depth value value.joined := by
  induction value using byParts generalizing depth with
  | null =>
      intro rest _
      exact @erase_append_of_quote_notMem ['n', 'u', 'l', 'l'] (by decide) rest
  | bool value =>
      intro rest _
      have noQuote : '"' ∉ render .compact depth (.bool value) := by cases value <;> simp [render]
      exact erase_append_of_quote_notMem noQuote rest
  | number n =>
      intro rest _
      exact erase_append_of_quote_notMem (quote_notMem_numberText n) rest
  | string s =>
      intro rest ends
      exact erase_quoted s.toList ends
  | array items ih =>
      exact erasedTo_array fun item mem => ih item mem
  | object members ih =>
      exact erasedTo_object fun member mem => ih member mem

/-! ### Whole texts -/

/-- **Stripping the text of a value joins it.** Nothing is asked of the value. -/
theorem strip_compact_eq_joined (value : Json) :
    EmptySubnet.strip value.compact = value.joined.compact := by
  have erased := @erasedTo_joined 0 value [] endsValue_nil
  rw [List.append_nil] at erased
  rw [EmptySubnet.strip, compact, compact, String.toList_ofList, erased]
  exact congrArg String.ofList (List.append_nil _)

/-- Stripping the text of a value in which subnets lead. -/
theorem strip_compact_of_unsevered {value : Json} (leads : value.subnetLeads)
    (whole : value.unsevered) :
    EmptySubnet.strip value.compact = value.withoutEmptySubnets.compact := by
  rw [strip_compact_eq_joined, joined_eq_withoutEmptySubnets leads whole]

theorem strip_compact {value : Json} (leads : value.subnetLeads) (plain : value.plainNames) :
    EmptySubnet.strip value.compact = value.withoutEmptySubnets.compact :=
  strip_compact_of_unsevered leads (unsevered_of_plainNames plain)

/-- **Stripping text is removing members.** For every value whose objects name each member
once, and whose names contain no double quote, erasing the literal from the compact text with
subnets first gives the compact text of the same value without the empty subnets that have
company. Nothing is asked of the strings in the value, which may contain the literal. -/
theorem strip_compact_subnetFirst {value : Json} (distinct : value.distinctNames)
    (plain : value.plainNames) :
    EmptySubnet.strip value.subnetFirst.compact = value.subnetFirst.withoutEmptySubnets.compact :=
  strip_compact (subnetLeads_subnetFirst distinct) (all_subnetFirst nameTest_hasPlainNames plain)

/-- A string that is the literal and an empty subnet without company stay, an empty subnet
behind another member goes. -/
theorem strip_compact_subnetFirst_nested :
    let value := object
      [ ("text", .string "\"subnet\":\"\","),
        ("pools", .array
          [ .object [("subnet", .string "")],
            .object [("name", .string "subnet"), ("subnet", .string "")] ]),
        ("subnet", .string "") ]
    value.distinctNames ∧ value.plainNames ∧
      EmptySubnet.strip value.subnetFirst.compact
        = value.subnetFirst.withoutEmptySubnets.compact :=
  ⟨by decide, by decide, strip_compact_subnetFirst (by decide) (by decide)⟩

end Provision.Json
