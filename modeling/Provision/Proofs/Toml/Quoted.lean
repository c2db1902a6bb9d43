import Provision.Toml.Quoted
import Provision.Toml.Reader

/-!
Reading back the strings that are written in TOML.

A string is written in one of four forms, with or without escapes. Whatever its characters are, it
is read back as itself, and what follows it is left unread (`string_quote`), provided that no
quote follows: a quote behind the closing ones could be taken for a part of them.

* `ReadsEscapes.escapeChar` — the two forms with escapes differ in their quotes and line breaks
  only; what is written for any other character is read alike in both.
* `longBasicBody_escapeLongBasic`, `longLiteralBody_append` — up to two quotes in a row stand for
  themselves within a multi-line form. Where they end the text, they stand directly before the
  closing quotes, which are the last three of the row.
* `Form.of_shows` — a form without escapes is only taken for a text that it shows.
-/

namespace Provision.Toml

namespace Reader

/-! ### Escapes -/

/-- A reader of the inside of a string to which backslashes are escapes, and which takes any other
character that may stand in a string for itself, quotes apart. -/
structure ReadsEscapes (body : List Char → Option (List Char × List Char)) : Prop where
  unicode (a b c d : Char) (rest : List Char) :
    body ('\\' :: 'u' :: a :: b :: c :: d :: rest) = prepend (unicode? [a, b, c, d]) (body rest)
  letter {e c : Char} (known : escapeValue? e = some c) (rest : List Char) :
    body ('\\' :: e :: rest) = prepend (some c) (body rest)
  plain {c : Char} (plain : isPlain c = true) (noQuote : c ≠ '"') (noBackslash : c ≠ '\\')
    (rest : List Char) : body (c :: rest) = prepend (some c) (body rest)

theorem readsEscapes_basicBody : ReadsEscapes basicBody where
  unicode a b c d rest := by rw [basicBody]
  letter known rest := by
    rw [← known]
    unfold escapeValue? at known
    split at known
    case h_8 => cases known
    all_goals simp [basicBody]
  plain plain noQuote noBackslash rest := by
    rw [basicBody]
    · rw [if_pos plain]
    all_goals simp_all

theorem endsLine_of_escapeValue? {e c : Char} (known : escapeValue? e = some c)
    (rest : List Char) : endsLine (e :: rest) = false := by
  unfold escapeValue? at known
  split at known
  case h_8 => cases known
  all_goals rfl

theorem readsEscapes_longBasicBody : ReadsEscapes (longBasicBody false) where
  unicode a b c d rest := by rw [longBasicBody]
  letter known rest := by
    have sameLine := endsLine_of_escapeValue? known rest
    rw [← known]
    unfold escapeValue? at known
    split at known
    case h_8 => cases known
    all_goals simp [longBasicBody, sameLine]
  plain plain noQuote noBackslash rest := by
    rename_i c
    have noBreak : c ≠ '\n' := by
      rintro rfl
      cases plain
    have noReturn : c ≠ '\r' := by
      rintro rfl
      cases plain
    rw [longBasicBody]
    · simp [plain]
    all_goals simp_all

theorem unicode?_control {n : Nat} (control : n < 0x20 ∨ n = 0x7f) :
    unicode? ['0', '0', hexDigit (n / 16), hexDigit (n % 16)] = some (Char.ofNat n) := by
  have low : ∀ n < 0x20,
      unicode? ['0', '0', hexDigit (n / 16), hexDigit (n % 16)] = some (Char.ofNat n) := by decide
  rcases control with small | rfl
  · exact low n small
  · decide

theorem isPlain_of_not_control {c : Char} (visible : ¬ (c.toNat < 0x20 ∨ c.toNat = 0x7f)) :
    isPlain c = true := by
  simp only [isPlain, Bool.or_eq_true, Bool.and_eq_true, decide_eq_true_eq, bne_iff_ne]
  omega

/-- What is written for a character, quotes and line breaks apart, is read as this character. -/
theorem ReadsEscapes.escapeChar {body : List Char → Option (List Char × List Char)}
    (reads : ReadsEscapes body) {c : Char} (noQuote : c ≠ '"') (rest : List Char) :
    body (escapeChar c ++ rest) = prepend (some c) (body rest) := by
  unfold Toml.escapeChar
  split
  case h_6 noBackslash _ _ _ _ =>
    by_cases control : c.toNat < 0x20 ∨ c.toNat = 0x7f
    · rw [if_pos control]
      simp only [List.cons_append, List.nil_append]
      rw [reads.unicode, unicode?_control control, Char.ofNat_toNat]
    · rw [if_neg control]
      exact reads.plain (isPlain_of_not_control control) noQuote noBackslash rest
  all_goals exact reads.letter rfl rest

/-- A character is written as itself or behind a backslash. -/
theorem escapeChar_cases (c : Char) :
    escapeChar c = [c] ∧ isPlain c = true ∨ ∃ more, escapeChar c = '\\' :: more := by
  unfold escapeChar
  split
  case h_6 =>
    by_cases control : c.toNat < 0x20 ∨ c.toNat = 0x7f
    · rw [if_pos control]
      exact .inr ⟨_, rfl⟩
    · rw [if_neg control]
      exact .inl ⟨rfl, isPlain_of_not_control control⟩
  all_goals exact .inr ⟨_, rfl⟩

/-- A character other than a quote is not written with a quote in front. -/
theorem not_prefix_escapeChar {c : Char} (noQuote : c ≠ '"') (tail rest : List Char) :
    ¬ '"' :: tail <+: escapeChar c ++ rest := by
  rcases escapeChar_cases c with ⟨itself, -⟩ | ⟨more, escaped⟩
  · simp [itself, noQuote.symm]
  · simp [escaped]

/-! ### The inside of each form -/

/-- A text that can stand behind a string: it does not go on with a quote. -/
def EndsString (rest : List Char) : Prop := ∀ c ∈ rest.head?, c ≠ '"' ∧ c ≠ '\''

theorem basicBody_escapeBasic (text rest : List Char) :
    basicBody (escapeBasic text ++ '"' :: rest) = some (text, rest) := by
  induction text with
  | nil => simp [escapeBasic, basicBody]
  | cons c text ih =>
      unfold escapeBasic at ih ⊢
      rw [List.flatMap_cons, List.append_assoc]
      split
      · rw [List.cons_append, List.singleton_append, readsEscapes_basicBody.letter rfl, ih]
        rfl
      · rw [List.cons_append, List.singleton_append, readsEscapes_basicBody.letter rfl, ih]
        rfl
      · rename_i noQuote _
        rw [readsEscapes_basicBody.escapeChar noQuote, ih]
        rfl

/-- A quote within a multi-line basic string that does not end it. -/
theorem longBasicBody_quote {rest : List Char} (goesOn : ¬ ['"', '"'] <+: rest) :
    longBasicBody false ('"' :: rest) = prepend (some '"') (longBasicBody false rest) := by
  rw [longBasicBody]
  · rfl
  all_goals (intros; simp_all)

/-- A quote at the front is one of the text, if the text is not at its end. -/
theorem quote_prefix_escapeLongBasic {run : Nat} {text rest : List Char}
    (starts : ['"'] <+: escapeLongBasic run text ++ rest) :
    text = [] ∨ ∃ more, text = '"' :: more ∧ run < 2 := by
  cases text with
  | nil => exact .inl rfl
  | cons c text =>
      refine .inr ⟨text, ?_⟩
      unfold escapeLongBasic at starts
      split at starts
      · split at starts
        · rename_i room
          exact ⟨rfl, room⟩
        · simp at starts
      · simp at starts
      · rename_i noQuote _
        rw [List.append_assoc] at starts
        exact absurd starts (not_prefix_escapeChar noQuote _ _)

/-- Two quotes behind another one are those that end the text. -/
theorem quotes_prefix_escapeLongBasic {run : Nat} {text rest : List Char}
    (starts : ['"', '"'] <+: escapeLongBasic (run + 1) text ++ rest) :
    text = [] ∨ text = ['"'] ∧ run = 0 := by
  have first : ['"'] <+: escapeLongBasic (run + 1) text ++ rest :=
    (List.prefix_append ['"'] ['"']).trans starts
  rcases quote_prefix_escapeLongBasic first with none | ⟨more, rfl, room⟩
  · exact .inl none
  · simp only [escapeLongBasic, if_pos room, List.cons_append, List.cons_prefix_cons] at starts
    rcases quote_prefix_escapeLongBasic starts.2 with rfl | ⟨_, _, room⟩
    · exact .inr ⟨rfl, by omega⟩
    · omega

/-- The inside of a multi-line basic string is read back. The induction is on the text, behind
`run` quotes that are already written. -/
theorem longBasicBody_escapeLongBasic {run : Nat} (text : List Char) {rest : List Char}
    (ends : EndsString rest) :
    longBasicBody false (escapeLongBasic run text ++ '"' :: '"' :: '"' :: rest)
      = some (text, rest) := by
  have noQuote : ∀ more, rest ≠ '"' :: more := by
    rintro more rfl
    exact (ends '"' rfl).1 rfl
  induction text generalizing run with
  | nil =>
      rw [escapeLongBasic, List.nil_append, longBasicBody]
      all_goals simp_all
  | cons c text ih =>
      unfold escapeLongBasic
      split
      · split
        · by_cases closes : ['"', '"'] <+: escapeLongBasic (run + 1) text
            ++ '"' :: '"' :: '"' :: rest
          · -- the closing quotes follow directly, or behind one more quote
            rcases quotes_prefix_escapeLongBasic closes with rfl | ⟨rfl, rfl⟩
            · rw [escapeLongBasic, List.cons_append, List.nil_append, longBasicBody]
              simp_all
            · simp [escapeLongBasic, longBasicBody]
          · rw [List.cons_append, longBasicBody_quote closes, ih]
            rfl
        · rw [List.cons_append, List.cons_append, readsEscapes_longBasicBody.letter rfl, ih]
          rfl
      · rw [List.cons_append, longBasicBody, if_neg (by decide), ih]
        rfl
      · rename_i noQuote _
        rw [List.append_assoc, readsEscapes_longBasicBody.escapeChar noQuote, ih]
        rfl

theorem literalBody_append {text : List Char} (plain : ∀ c ∈ text, isPlain c = true)
    (noQuote : '\'' ∉ text) (rest : List Char) :
    literalBody (text ++ '\'' :: rest) = some (text, rest) := by
  induction text with
  | nil => simp [literalBody]
  | cons c text ih =>
      obtain ⟨first, later⟩ := List.forall_mem_cons.mp plain
      obtain ⟨differs, absent⟩ := List.ne_and_not_mem_of_not_mem_cons noQuote
      rw [List.cons_append, literalBody, if_pos first, ih later absent]
      · rfl
      · exact fun same => differs same.symm

/-- A quote within a multi-line literal string that does not end it. -/
theorem longLiteralBody_quote {rest : List Char} (goesOn : ¬ ['\'', '\''] <+: rest) :
    longLiteralBody ('\'' :: rest) = prepend (some '\'') (longLiteralBody rest) := by
  rw [longLiteralBody]
  · rfl
  all_goals (intros; simp_all)

theorem le_longestRun (c : Char) (run : Nat) (text : List Char) : run ≤ longestRun c run text := by
  induction text generalizing run with
  | nil => exact Nat.le_refl run
  | cons other text ih =>
      unfold longestRun
      split
      · exact Nat.le_trans (Nat.le_succ run) (ih (run + 1))
      · exact Nat.le_max_left ..

/-- Of a text without three quotes in a row, two behind another one are those that end it. -/
theorem quotes_prefix_append {run : Nat} {text rest : List Char}
    (few : longestRun '\'' (run + 1) text ≤ 2) (starts : ['\'', '\''] <+: text ++ rest) :
    text = [] ∨ text = ['\''] ∧ run = 0 := by
  cases text with
  | nil => exact .inl rfl
  | cons c text =>
      obtain ⟨rfl, next⟩ := List.cons_prefix_cons.mp starts
      rw [longestRun, if_pos rfl] at few
      have short := le_longestRun '\'' (run + 1 + 1) text
      cases text with
      | nil => exact .inr ⟨rfl, by omega⟩
      | cons d text =>
          obtain ⟨rfl, -⟩ := List.cons_prefix_cons.mp next
          rw [longestRun, if_pos rfl] at few
          have long := le_longestRun '\'' (run + 1 + 1 + 1) text
          omega

/-- The inside of a multi-line literal string is read back, behind `run` quotes of it. -/
theorem longLiteralBody_append {run : Nat} {text : List Char}
    (plain : ∀ c ∈ text, c = '\n' ∨ isPlain c = true) (few : longestRun '\'' run text ≤ 2)
    {rest : List Char} (ends : EndsString rest) :
    longLiteralBody (text ++ '\'' :: '\'' :: '\'' :: rest) = some (text, rest) := by
  have noQuote : ∀ more, rest ≠ '\'' :: more := by
    rintro more rfl
    exact (ends '\'' rfl).2 rfl
  induction text generalizing run with
  | nil =>
      rw [List.nil_append, longLiteralBody]
      all_goals simp_all
  | cons c text ih =>
      obtain ⟨first, later⟩ := List.forall_mem_cons.mp plain
      rw [longestRun] at few
      split at few
      · rename_i quote
        subst quote
        by_cases closes : ['\'', '\''] <+: text ++ '\'' :: '\'' :: '\'' :: rest
        · -- the closing quotes follow directly, or behind one more quote
          rcases quotes_prefix_append few closes with rfl | ⟨rfl, rfl⟩
          · rw [List.cons_append, List.nil_append, longLiteralBody]
            simp_all
          · simp [longLiteralBody]
        · rw [List.cons_append, longLiteralBody_quote closes, ih later few]
          rfl
      · rename_i noQuote
        have fewer := Nat.le_trans (Nat.le_max_right ..) few
        rcases first with rfl | visible
        · rw [List.cons_append, longLiteralBody, ih later fewer]
          rfl
        · have noReturn : c ≠ '\r' := by
            rintro rfl
            cases visible
          have noBreak : c ≠ '\n' := by
            rintro rfl
            cases visible
          rw [List.cons_append, longLiteralBody, if_pos visible, ih later fewer]
          · rfl
          all_goals simp_all

/-! ### Whole strings -/

/-- Nothing is skipped where no line break stands. -/
theorem skipFirstBreak_of_head {c : Char} (noBreak : c ≠ '\n') (noReturn : c ≠ '\r')
    (rest : List Char) : skipFirstBreak (c :: rest) = c :: rest := by
  have none : lineBreak? (c :: rest) = .none := by
    unfold lineBreak?
    split <;> simp_all
  rw [skipFirstBreak, none]
  rfl

/-- The first line break of a multi-line form is no part of its inside. -/
theorem skipFirstBreak_open {text body : List Char}
    (sameLine : '\n' ∉ text → ∀ c ∈ body.head?, c ≠ '\n' ∧ c ≠ '\r') :
    skipFirstBreak ((if text.contains '\n' then ['\n'] else []) ++ body) = body := by
  split
  · rfl
  · rename_i oneLine
    have sameLine := sameLine (by simpa using oneLine)
    cases body with
    | nil => rfl
    | cons c body =>
        obtain ⟨noBreak, noReturn⟩ := sameLine c rfl
        exact skipFirstBreak_of_head noBreak noReturn body

theorem head?_escapeLongBasic {text : List Char} (oneLine : '\n' ∉ text) (rest : List Char) :
    ∀ c ∈ (escapeLongBasic 0 text ++ '"' :: rest).head?, c ≠ '\n' ∧ c ≠ '\r' := by
  intro c mem
  cases text with
  | nil =>
      cases mem
      decide
  | cons d text =>
      obtain ⟨noBreak, -⟩ := List.ne_and_not_mem_of_not_mem_cons oneLine
      unfold escapeLongBasic at mem
      split at mem
      · cases mem
        decide
      · exact absurd rfl noBreak
      · rcases escapeChar_cases d with ⟨itself, visible⟩ | ⟨more, escaped⟩
        · rw [itself] at mem
          cases mem
          refine ⟨Ne.symm noBreak, ?_⟩
          rintro rfl
          cases visible
        · rw [escaped] at mem
          cases mem
          decide

theorem head?_append_of_plain {text : List Char} (plain : ∀ c ∈ text, c = '\n' ∨ isPlain c = true)
    (oneLine : '\n' ∉ text) (rest : List Char) :
    ∀ c ∈ (text ++ '\'' :: rest).head?, c ≠ '\n' ∧ c ≠ '\r' := by
  intro c mem
  cases text with
  | nil =>
      cases mem
      decide
  | cons d text =>
      cases mem
      obtain ⟨noBreak, -⟩ := List.ne_and_not_mem_of_not_mem_cons oneLine
      rcases plain c List.mem_cons_self with same | visible
      · exact absurd same.symm noBreak
      · refine ⟨noBreak.symm, ?_⟩
        rintro rfl
        cases visible

end Reader

/-! ### Forms -/

/-- Every character of a text that needs no escapes may stand in a string, or is a line break. -/
theorem plain_of_not_control {text : List Char} (visible : text.any isControl = false) :
    ∀ c ∈ text, c = '\n' ∨ Reader.isPlain c = true := by
  intro c mem
  have visible := List.any_eq_false.mp visible c mem
  simp only [isControl, Bool.or_eq_true, Bool.and_eq_true, decide_eq_true_eq, bne_iff_ne,
    beq_iff_eq] at visible
  simp only [Reader.isPlain, Bool.or_eq_true, Bool.and_eq_true, decide_eq_true_eq, bne_iff_ne,
    beq_iff_eq]
  by_cases lineBreak : c = '\n'
  · exact .inl lineBreak
  · by_cases tab : c = '\t'
    · exact .inr (.inl tab)
    · obtain ⟨low, delete⟩ := not_or.mp visible
      have high : ¬ c.toNat < 0x20 := fun small => low ⟨⟨small, tab⟩, lineBreak⟩
      exact .inr (.inr ⟨Nat.le_of_not_lt high, delete⟩)

namespace Form

/-- Whether a form can show any text, with escapes. -/
def escapes : Form → Bool
  | basic | longBasic => true
  | literal | longLiteral => false

/-- A form without escapes is only taken for a text that it shows. -/
theorem of_shows {text : List Char} (noEscapes : (Form.of text).escapes = false) :
    (Form.of text).shows text = true := by
  unfold Form.of at noEscapes ⊢
  split
  · rename_i form found
    have shown := List.find?_some found
    exact shown
  · rename_i none
    rw [none] at noEscapes
    simp only at noEscapes
    split at noEscapes <;> cases noEscapes

end Form

namespace Reader

/-- A quote with no two others behind it opens a form of one line. -/
theorem string_basic {tail : List Char} (single : ¬ ['"', '"'] <+: tail) :
    string ('"' :: tail) = apply String.ofList (basicBody tail) := by
  unfold string
  split <;> simp_all

theorem string_literal {tail : List Char} (single : ¬ ['\'', '\''] <+: tail) :
    string ('\'' :: tail) = apply String.ofList (literalBody tail) := by
  unfold string
  split <;> simp_all

theorem not_quotes_prefix_escapeBasic (text : List Char) {rest : List Char}
    (ends : EndsString rest) : ¬ ['"', '"'] <+: escapeBasic text ++ '"' :: rest := by
  intro starts
  cases text with
  | nil =>
      obtain ⟨-, more, rfl⟩ := List.cons_prefix_cons.mp starts
      exact (ends '"' rfl).1 rfl
  | cons c text =>
      unfold escapeBasic at starts
      rw [List.flatMap_cons] at starts
      split at starts
      · simp at starts
      · simp at starts
      · rename_i noQuote _
        rw [List.append_assoc] at starts
        exact not_prefix_escapeChar noQuote _ _ starts

theorem not_quotes_prefix_literal {text : List Char} (noQuote : '\'' ∉ text) {rest : List Char}
    (ends : EndsString rest) : ¬ ['\'', '\''] <+: text ++ '\'' :: rest := by
  intro starts
  cases text with
  | nil =>
      obtain ⟨-, more, rfl⟩ := List.cons_prefix_cons.mp starts
      exact (ends '\'' rfl).2 rfl
  | cons c text =>
      obtain ⟨rfl, -⟩ := List.cons_prefix_cons.mp starts
      exact noQuote List.mem_cons_self

/-- A text is read back from every form that can show it. -/
theorem string_write {form : Form} {text : List Char}
    (able : form.escapes = true ∨ form.shows text = true) {rest : List Char}
    (ends : EndsString rest) :
    string (form.write text ++ rest) = some (String.ofList text, rest) := by
  have shown (noEscapes : form.escapes = false) : form.shows text = true := by
    rcases able with escapes | shows
    · rw [noEscapes] at escapes
      cases escapes
    · exact shows
  cases form with
  | basic =>
      have whole : Form.basic.write text ++ rest = '"' :: (escapeBasic text ++ '"' :: rest) := by
        simp [Form.write, Form.quotes, Form.isLong, Form.body]
      rw [whole, string_basic (not_quotes_prefix_escapeBasic text ends),
        basicBody_escapeBasic text rest]
      rfl
  | literal =>
      have shown := shown rfl
      simp only [Form.shows, Bool.and_eq_true, Bool.not_eq_true', List.contains_eq_mem,
        decide_eq_false_iff_not] at shown
      obtain ⟨visible, noQuote, noBreak⟩ := shown
      have plain : ∀ c ∈ text, isPlain c = true := by
        intro c mem
        rcases plain_of_not_control visible c mem with rfl | plain
        · exact absurd mem noBreak
        · exact plain
      have whole : Form.literal.write text ++ rest = '\'' :: (text ++ '\'' :: rest) := by
        simp [Form.write, Form.quotes, Form.isLong, Form.body]
      rw [whole, string_literal (not_quotes_prefix_literal noQuote ends),
        literalBody_append plain noQuote rest]
      rfl
  | longBasic =>
      have whole : Form.longBasic.write text ++ rest
          = '"' :: '"' :: '"' :: ((if text.contains '\n' then ['\n'] else [])
            ++ (escapeLongBasic 0 text ++ '"' :: '"' :: '"' :: rest)) := by
        simp [Form.write, Form.quotes, Form.isLong, Form.body]
      rw [whole, string, skipFirstBreak_open fun oneLine => head?_escapeLongBasic oneLine _,
        longBasicBody_escapeLongBasic text ends]
      rfl
  | longLiteral =>
      have shown := shown rfl
      simp only [Form.shows, Bool.and_eq_true, Bool.not_eq_true', decide_eq_true_eq] at shown
      obtain ⟨visible, few⟩ := shown
      have plain := plain_of_not_control visible
      have whole : Form.longLiteral.write text ++ rest
          = '\'' :: '\'' :: '\'' :: ((if text.contains '\n' then ['\n'] else [])
            ++ (text ++ '\'' :: '\'' :: '\'' :: rest)) := by
        simp [Form.write, Form.quotes, Form.isLong, Form.body]
      rw [whole, string, skipFirstBreak_open fun oneLine => head?_append_of_plain plain oneLine _,
        longLiteralBody_append plain few ends]
      rfl

/-- **A string is read back as it was written**, whatever its characters are. -/
theorem string_quote (s : String) {rest : List Char} (ends : EndsString rest) :
    string ((quote s).toList ++ rest) = some (s, rest) := by
  have able : (Form.of s.toList).escapes = true ∨ (Form.of s.toList).shows s.toList = true := by
    cases escapes : (Form.of s.toList).escapes with
    | true => exact .inl rfl
    | false => exact .inr (Form.of_shows escapes)
  rw [quote, String.toList_ofList, string_write able ends, String.ofList_toList]

end Reader

end Provision.Toml
