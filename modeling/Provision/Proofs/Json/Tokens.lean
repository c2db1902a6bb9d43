import Provision.Json.Printer
import Provision.Json.Reader

/-!
Reading back the tokens that the printer writes.

A quoted string is read back as the string it quotes (`string_quoted`), whatever its
characters and whatever follows it. An integer is read back as itself
(`unsigned_digits`, `wholeNumber_fits`) if what follows cannot be a part of a number
(`endsNumber`).
-/

namespace Provision.Json.Reader

/-! ### Blanks -/

theorem skipBlanks_cons_of_not_blank {c : Char} (text : List Char) (h : isBlank c = false) :
    skipBlanks (c :: text) = c :: text := by
  simp [skipBlanks, h]

theorem skipBlanks_append {blanks : List Char} (h : ∀ c ∈ blanks, isBlank c)
    (text : List Char) : skipBlanks (blanks ++ text) = skipBlanks text := by
  unfold skipBlanks
  rw [List.dropWhile_append_of_pos h]

theorem isBlank_of_mem_lineBreak {layout : Layout} {depth : Nat} :
    ∀ c ∈ layout.lineBreak depth, isBlank c := by
  cases layout with
  | compact => simp [Layout.lineBreak]
  | indented =>
      intro c mem
      rcases List.mem_cons.mp mem with rfl | mem
      · rfl
      · rw [(List.mem_replicate.mp mem).2]
        rfl

/-! ### Strings -/

theorem Step.map_ok {α β : Type} (f : α → β) (value : α) (rest : List Char) :
    Step.map f (.ok (value, rest)) = .ok (f value, rest) := rfl

theorem hexQuad?_control {n : Nat} (small : n < 0x20) :
    hexQuad? '0' '0' (hexDigit (n / 16)) (hexDigit (n % 16)) = some n := by
  have all : ∀ n < 0x20,
      hexQuad? '0' '0' (hexDigit (n / 16)) (hexDigit (n % 16)) = some n := by decide
  exact all n small

/-- What is written for a character is read as this character. -/
theorem stringBody_escapeChar (c : Char) (rest : List Char) :
    stringBody (escapeChar c ++ rest) = (stringBody rest).map (c :: ·) := by
  unfold escapeChar
  split
  case h_8 quote backslash _ _ _ _ _ =>
    by_cases small : c.toNat < 0x20
    · rw [if_pos small]
      have unit : hexQuad? '0' '0' (hexDigit (c.toNat / 16)) (hexDigit (c.toNat % 16))
          = some c.toNat := hexQuad?_control small
      have noTrail : ¬ (0xDC00 ≤ c.toNat ∧ c.toNat ≤ 0xDFFF) := by omega
      have noLead : ¬ (0xD800 ≤ c.toNat ∧ c.toNat ≤ 0xDBFF) := by omega
      simp only [List.cons_append, List.nil_append, stringBody, unit, noTrail, noLead, if_false,
        Char.ofNat_toNat]
    · rw [if_neg small]
      have notQuote : c ≠ '"' := quote
      have notBackslash : c ≠ '\\' := backslash
      rw [List.singleton_append, stringBody]
      · rw [if_neg small]
      all_goals simp_all
  all_goals simp [stringBody, escapeValue?]

theorem stringBody_escaped (s rest : List Char) :
    stringBody (s.flatMap escapeChar ++ '"' :: rest) = .ok (s, rest) := by
  induction s with
  | nil => simp [stringBody]
  | cons c s ih =>
      rw [List.flatMap_cons, List.append_assoc, stringBody_escapeChar, ih, Step.map_ok]

/-- A quoted string is read back, from behind its opening quote. -/
theorem string_quoted (s : String) (rest : List Char) :
    string (s.toList.flatMap escapeChar ++ '"' :: rest) = .ok (s, rest) := by
  rw [string, stringBody_escaped, Step.map_ok, String.ofList_toList]

/-! ### Digits -/

theorem digitValue?_of_isDigit {c : Char} (h : c.isDigit) :
    digitValue? c = some (c.toNat - 48) := by
  obtain ⟨low, high⟩ := Char.isDigit_iff_toNat.mp h
  exact if_pos ⟨low, high⟩

theorem isDigit_of_mem_digitsOf {n : Nat} : ∀ c ∈ Decimal.digitsOf n, c.isDigit := by
  intro c mem
  exact Nat.isDigit_of_mem_toDigits (by omega) (by omega) mem

theorem ne_of_isDigit {c d : Char} (digit : c.isDigit) (other : d.isDigit = false) : c ≠ d := by
  rintro rfl
  rw [other] at digit
  cases digit

theorem isBlank_of_isDigit {c : Char} (digit : c.isDigit) : isBlank c = false := by
  unfold isBlank
  split <;> first | rfl | exact absurd rfl (ne_of_isDigit digit rfl)

/-- Digits only ever make a number larger. -/
theorem le_ofDigitChars (digits : List Char) (start : Nat) :
    start ≤ Nat.ofDigitChars 10 digits start := by
  induction digits generalizing start with
  | nil => simp
  | cons c digits ih =>
      rw [Nat.ofDigitChars_cons]
      exact Nat.le_trans (by omega) (ih _)

/-- Digits whose number stays within the limit are read to their end. -/
theorem gather_digits {limit start : Nat} {digits rest : List Char}
    (decimal : ∀ c ∈ digits, c.isDigit) (ends : startsWithDigit rest = false)
    (within : Nat.ofDigitChars 10 digits start ≤ limit) :
    gather limit start (digits ++ rest)
      = (Nat.ofDigitChars 10 digits start, digits.length, rest) := by
  induction digits generalizing start with
  | nil =>
      cases rest with
      | nil => simp [gather]
      | cons c rest =>
          have none : digitValue? c = none := by simpa [startsWithDigit] using ends
          simp [gather, none]
  | cons c digits ih =>
      rw [Nat.ofDigitChars_cons] at within
      have first : digitValue? c = some (c.toNat - 48) :=
        digitValue?_of_isDigit (decimal c List.mem_cons_self)
      have fits : start * 10 + (c.toNat - 48) ≤ limit := by
        have := le_ofDigitChars digits (10 * start + (c.toNat - '0'.toNat))
        have zero : '0'.toNat = 48 := rfl
        omega
      have rest := @ih (start * 10 + (c.toNat - 48))
        (fun d mem => decimal d (List.mem_cons_of_mem _ mem))
        (by rw [Nat.mul_comm start]; exact within)
      simp only [List.cons_append, gather, first, if_pos fits, rest, List.length_cons,
        Nat.ofDigitChars_cons]
      rw [Nat.mul_comm start]
      rfl

/-- A positive number starts with a digit other than zero. -/
theorem digitsOf_pos {n : Nat} (positive : 0 < n) :
    ∃ d ds, Decimal.digitsOf n = d :: ds ∧ d.isDigit ∧ d ≠ '0' := by
  induction n using Nat.strongRecOn with
  | _ n ih =>
      unfold Decimal.digitsOf at ih ⊢
      rw [Nat.toDigits_eq_if (by omega)]
      by_cases small : n < 10
      · rw [if_pos small]
        refine ⟨n.digitChar, [], rfl, by simpa using small, ?_⟩
        intro zero
        have := Nat.toNat_digitChar_of_lt_ten small
        rw [zero] at this
        have : '0'.toNat = 48 := rfl
        omega
      · rw [if_neg small]
        obtain ⟨d, ds, same, digit, nonzero⟩ := ih (n / 10) (by omega) (by omega)
        exact ⟨d, ds ++ [(n % 10).digitChar], by rw [same]; rfl, digit, nonzero⟩

/-! ### Integers -/

/-- Whether a text cannot continue an integer. -/
def endsNumber : List Char → Bool
  | [] => true
  | c :: _ => !c.isDigit && c != '.' && c != 'e' && c != 'E'

theorem startsWithDigit_of_endsNumber {rest : List Char} (h : endsNumber rest) :
    startsWithDigit rest = false := by
  cases rest with
  | nil => rfl
  | cons c rest =>
      have notDigit : c.isDigit = false := by
        simp only [endsNumber, Bool.and_eq_true, Bool.not_eq_true'] at h
        exact h.1.1.1
      have outside : ¬ ('0' ≤ c ∧ c ≤ '9') := by
        intro inside
        have : c.isDigit := Char.isDigit_iff_toNat.mpr inside
        simp [notDigit] at this
      simp [startsWithDigit, digitValue?, outside]

theorem skipDigits_of_not_digit {rest : List Char} (h : startsWithDigit rest = false) :
    skipDigits rest = rest := by
  cases rest with
  | nil => rfl
  | cons c rest =>
      simp only [startsWithDigit] at h
      simp [skipDigits, h]

/-- The digits of a number that fits a word are read as that number. -/
theorem unsigned_digits (negative : Bool) {n : Nat} {rest : List Char} (word : n ≤ maxWord)
    (ends : endsNumber rest) :
    unsigned negative (Decimal.digitsOf n ++ rest) = wholeNumber negative n rest := by
  have noDigit := startsWithDigit_of_endsNumber ends
  have plain : ∀ c more, rest = c :: more → c ≠ '.' ∧ c ≠ 'e' ∧ c ≠ 'E' := by
    rintro c more rfl
    simp only [endsNumber, Bool.and_eq_true, bne_iff_ne, ne_eq] at ends
    exact ⟨ends.1.1.2, ends.1.2, ends.2⟩
  rcases Nat.eq_zero_or_pos n with rfl | positive
  · have zero : Decimal.digitsOf 0 = ['0'] := by simp [Decimal.digitsOf]
    rw [zero, List.singleton_append, unsigned, if_neg (by simp [noDigit])]
    · intro more same
      exact (plain _ _ same).1 rfl
    · intro more same
      exact (plain _ _ same).2.1 rfl
    · intro more same
      exact (plain _ _ same).2.2 rfl
  · obtain ⟨d, ds, same, digit, nonzero⟩ := digitsOf_pos positive
    have number : Nat.ofDigitChars 10 (Decimal.digitsOf n) 0 = n :=
      Nat.ofDigitChars_ten_toDigits
    have gathered := @gather_digits maxWord 0 (Decimal.digitsOf n) rest
      isDigit_of_mem_digitsOf noDigit (by rw [number]; exact word)
    have noneLeft : rest.takeWhile (fun c => (digitValue? c).isSome) = [] := by
      cases rest with
      | nil => rfl
      | cons c rest =>
          simp only [startsWithDigit] at noDigit
          simp [noDigit]
    rw [number, same, List.cons_append] at gathered
    rw [same, List.cons_append, unsigned]
    · rw [if_neg (by simp [digitValue?_of_isDigit digit])]
      simp only [gathered, skipDigits_of_not_digit noDigit, noneLeft, List.length_nil, if_true]
      split
      · exact absurd rfl (plain _ _ rfl).1
      · exact absurd rfl (plain _ _ rfl).2.1
      · exact absurd rfl (plain _ _ rfl).2.2
      · rfl
    · intro zero
      exact nonzero zero

/-- An integer that fits a word is kept as an integer. -/
theorem wholeNumber_fits {negative : Bool} {n : Nat} {value : Int} (fits : FitsWord value)
    (signed : value = if negative then -(n : Int) else n) (nonzero : ¬ (negative ∧ n = 0))
    (rest : List Char) : wholeNumber negative n rest = .ok (.integer value fits, rest) := by
  subst signed
  unfold wholeNumber
  rw [if_neg nonzero]
  exact dif_pos fits

end Provision.Json.Reader
