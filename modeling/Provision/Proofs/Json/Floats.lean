import Provision.Proofs.Decimal.Shortest
import Provision.Proofs.Json.Tokens

/-!
Reading back the floats that the printer writes.

A float is written by its shortest digits, with a point among them, behind zeros or with an
exponent. `ReadsAs` says which digits and which power of ten the reader gathers from such a
text; the digits never exceed a word, and scaling them never leaves the finite numbers
(`exists_readsAs`). So every float is read back as a float, though not always as the same
one: the reader rounds twice.
-/

namespace Provision.Json.Reader

open Decimal (Digits digitsOf scaledMagnitude)

/-! ### Runs of digits -/

/-- Digits that can stand before a point or an exponent: a zero alone, or some that do not
start with a zero. -/
def IsWhole (digits : List Char) : Prop :=
  digits = ['0'] ∨ ∃ d ds, digits = d :: ds ∧ d ≠ '0'

theorem ofDigitChars_lt {digits : List Char} (decimal : ∀ c ∈ digits, c.isDigit) (start : Nat) :
    Nat.ofDigitChars 10 digits start < 10 ^ digits.length * (start + 1) := by
  induction digits generalizing start with
  | nil => simp
  | cons c digits ih =>
      have digit := Char.isDigit_iff_toNat.mp (decimal c List.mem_cons_self)
      have later := ih (fun d mem => decimal d (List.mem_cons_of_mem _ mem))
        (10 * start + (c.toNat - '0'.toNat))
      have zero : '0'.toNat = 48 := rfl
      have nine : '9'.toNat = 57 := rfl
      rw [Nat.ofDigitChars_cons]
      calc Nat.ofDigitChars 10 digits (10 * start + (c.toNat - '0'.toNat))
          < 10 ^ digits.length * (10 * start + (c.toNat - '0'.toNat) + 1) := later
        _ ≤ 10 ^ digits.length * (10 * (start + 1)) := Nat.mul_le_mul_left _ (by omega)
        _ = 10 ^ (c :: digits).length * (start + 1) := by
          rw [List.length_cons, Nat.pow_succ, Nat.mul_assoc]

variable {negative : Bool} {whole digits tail : List Char}

/-- Digits before a point or an exponent. -/
theorem unsigned_whole (shape : IsWhole whole) (decimal : ∀ c ∈ whole, c.isDigit)
    (word : Nat.ofDigitChars 10 whole 0 ≤ maxWord) {mark : Char} (isMark : mark = '.' ∨ mark = 'e')
    (tail : List Char) :
    unsigned negative (whole ++ mark :: tail) =
      if mark = '.' then fraction negative (Nat.ofDigitChars 10 whole 0) 0 tail
      else exponentPart negative (Nat.ofDigitChars 10 whole 0) 0 tail := by
  rcases shape with rfl | ⟨d, ds, rfl, nonzero⟩
  · rcases isMark with rfl | rfl <;> rfl
  · have digit : d.isDigit := decimal d List.mem_cons_self
    have noDigit : startsWithDigit (mark :: tail) = false := by
      rcases isMark with rfl | rfl <;> rfl
    have gathered := gather_digits decimal noDigit word
    rw [List.cons_append] at gathered ⊢
    rw [unsigned]
    · rw [if_neg (by simp [digitValue?_of_isDigit digit])]
      simp only [gathered]
      rcases isMark with rfl | rfl <;> rfl
    · intro zero
      exact nonzero zero

/-- Digits behind a point. -/
theorem fraction_digits {value : Nat} {exponent : Int} (some : digits ≠ [])
    (decimal : ∀ c ∈ digits, c.isDigit)
    (word : Nat.ofDigitChars 10 digits value ≤ maxWord) (ends : startsWithDigit tail = false) :
    fraction negative value exponent (digits ++ tail)
      = optionalExponent negative (Nat.ofDigitChars 10 digits value) (exponent - digits.length)
          tail := by
  have length : digits.length ≠ 0 := by simpa using some
  simp [fraction, gather_digits decimal ends word, length, skipDigits_of_not_digit ends]

/-- A signed exponent at the end of a number. -/
theorem exponentPart_digits {value : Nat} {exponent power : Int}
    (within : power.natAbs ≤ maxExponent) (ends : startsWithDigit tail = false) :
    exponentPart negative value exponent
        ((if power < 0 then '-' else '+') :: (digitsOf power.natAbs ++ tail))
      = scaled negative value (exponent + power) tail := by
  have number : Nat.ofDigitChars 10 (digitsOf power.natAbs) 0 = power.natAbs :=
    Nat.ofDigitChars_ten_toDigits
  have gathered := @gather_digits maxExponent 0 (digitsOf power.natAbs) tail
    isDigit_of_mem_digitsOf ends (by rw [number]; exact within)
  rw [number] at gathered
  cases same : digitsOf power.natAbs with
  | nil => exact absurd same Nat.toDigits_ne_nil
  | cons c more =>
      have digit : c.isDigit := isDigit_of_mem_digitsOf c (same ▸ List.mem_cons_self)
      rw [same, List.cons_append] at gathered
      have found : (digitValue? c).isNone = false := by
        rw [digitValue?_of_isDigit digit]
        rfl
      by_cases down : power < 0
      · have signed : exponent + power = exponent - power.natAbs := by omega
        rw [signed]
        simp [exponentPart, down, found, gathered, ends]
      · have signed : exponent + power = exponent + power.natAbs := by omega
        rw [signed]
        simp [exponentPart, down, found, gathered, ends]

/-! ### Decimals -/

/-- The digits and the power of ten that are read from a text before any other that cannot
continue a number. -/
def ReadsAs (text : List Char) (digits : Nat) (exponent : Int) : Prop :=
  ∀ negative rest, endsNumber rest →
    unsigned negative (text ++ rest) = scaled negative digits exponent rest

theorem optionalExponent_of_endsNumber {value : Nat} {exponent : Int} {rest : List Char}
    (ends : endsNumber rest) :
    optionalExponent negative value exponent rest = scaled negative value exponent rest := by
  unfold optionalExponent
  split
  · cases ends
  · cases ends
  · rfl

/-- Digits around a point. -/
theorem readsAs_point {fraction : List Char} (shape : IsWhole whole) (some : fraction ≠ [])
    (decimal : ∀ c ∈ whole ++ fraction, c.isDigit)
    (word : Nat.ofDigitChars 10 (whole ++ fraction) 0 ≤ maxWord) :
    ReadsAs (whole ++ '.' :: fraction) (Nat.ofDigitChars 10 (whole ++ fraction) 0)
      (-fraction.length) := by
  intro negative rest ends
  obtain ⟨before, behind⟩ := List.forall_mem_append.mp decimal
  rw [Nat.ofDigitChars_append] at word ⊢
  rw [List.append_assoc, List.cons_append,
    unsigned_whole shape before (Nat.le_trans (le_ofDigitChars _ _) word) (.inl rfl), if_pos rfl,
    fraction_digits some behind word (startsWithDigit_of_endsNumber ends),
    optionalExponent_of_endsNumber ends, Int.zero_sub]

section Text

variable {digits : Digits}

theorem isDigit_of_mem_zeros {count : Nat} : ∀ c ∈ List.replicate count '0', c.isDigit := by
  intro c mem
  rw [(List.mem_replicate.mp mem).2]
  rfl

/-- The digits of a word, with a point behind some of them. -/
theorem readsAs_split (word : digits.value ≤ maxWord) (nonzero : digits.value ≠ 0)
    (negative : digits.exponent < 0) (point : 0 < digits.point) :
    ReadsAs ((digitsOf digits.value).take digits.point.toNat
        ++ '.' :: (digitsOf digits.value).drop digits.point.toNat)
      digits.value digits.exponent := by
  have length : digits.point = (digitsOf digits.value).length + digits.exponent := rfl
  obtain ⟨d, ds, same, -, notZero⟩ := digitsOf_pos (Nat.pos_of_ne_zero nonzero)
  have number : Nat.ofDigitChars 10 (digitsOf digits.value) 0 = digits.value :=
    Nat.ofDigitChars_ten_toDigits
  have all := List.take_append_drop digits.point.toNat (digitsOf digits.value)
  have shape : IsWhole ((digitsOf digits.value).take digits.point.toNat) := by
    obtain ⟨more, positive⟩ : ∃ more, digits.point.toNat = more + 1 :=
      ⟨digits.point.toNat - 1, by omega⟩
    right
    exact ⟨d, ds.take more, by rw [same, positive, List.take_succ_cons], notZero⟩
  have behind : ((digitsOf digits.value).drop digits.point.toNat).length
      = (-digits.exponent).toNat := by
    rw [List.length_drop]
    omega
  have some : (digitsOf digits.value).drop digits.point.toNat ≠ [] := by
    intro none
    rw [none, List.length_nil] at behind
    omega
  have reads := readsAs_point shape some (by rw [all]; exact isDigit_of_mem_digitsOf)
    (by rw [all, number]; exact word)
  rw [all, number, behind] at reads
  have exponent : -((-digits.exponent).toNat : Int) = digits.exponent := by omega
  rwa [exponent] at reads

/-- The digits of a word behind a zero, a point and more zeros. -/
theorem readsAs_zeros (word : digits.value ≤ maxWord) (point : digits.point ≤ 0) :
    ReadsAs ('0' :: '.' :: List.replicate (-digits.point).toNat '0' ++ digitsOf digits.value)
      digits.value digits.exponent := by
  have length : digits.point = (digitsOf digits.value).length + digits.exponent := rfl
  have number : Nat.ofDigitChars 10
      (['0'] ++ (List.replicate (-digits.point).toNat '0' ++ digitsOf digits.value)) 0
        = digits.value := by
    rw [Nat.ofDigitChars_append, Nat.ofDigitChars_append, Nat.ofDigitChars_replicate_zero]
    exact Nat.ofDigitChars_ten_toDigits
  have some : List.replicate (-digits.point).toNat '0' ++ digitsOf digits.value ≠ [] := by
    simp [digitsOf, Nat.toDigits_ne_nil]
  have reads := @readsAs_point ['0'] _ (.inl rfl) some
    (by
      simp only [List.forall_mem_append]
      exact ⟨List.forall_mem_singleton.mpr rfl, isDigit_of_mem_zeros, isDigit_of_mem_digitsOf⟩)
    (by rw [number]; exact word)
  have exponent : -((List.replicate (-digits.point).toNat '0'
      ++ digitsOf digits.value).length : Int) = digits.exponent := by
    rw [List.length_append, List.length_replicate]
    omega
  rwa [number, exponent] at reads

/-- A small number of digits, zeros and a zero behind the point. -/
theorem readsAs_whole (nonzero : digits.value ≠ 0) (natural : 0 ≤ digits.exponent)
    (point : digits.point ≤ 16) :
    ∃ value ≤ 2 ^ 64, ReadsAs (digitsOf digits.value
      ++ List.replicate digits.exponent.toNat '0' ++ ['.', '0']) value (-1) := by
  have length : digits.point = (digitsOf digits.value).length + digits.exponent := rfl
  obtain ⟨d, ds, same, -, notZero⟩ := digitsOf_pos (Nat.pos_of_ne_zero nonzero)
  have shape : IsWhole (digitsOf digits.value ++ List.replicate digits.exponent.toNat '0') := by
    right
    exact ⟨d, _, by rw [same]; rfl, notZero⟩
  have decimal : ∀ c ∈ digitsOf digits.value ++ List.replicate digits.exponent.toNat '0' ++ ['0'],
      c.isDigit := by
    simp only [List.forall_mem_append]
    exact ⟨⟨isDigit_of_mem_digitsOf, isDigit_of_mem_zeros⟩, List.forall_mem_singleton.mpr rfl⟩
  have small := ofDigitChars_lt decimal 0
  have count : (digitsOf digits.value ++ List.replicate digits.exponent.toNat '0'
      ++ ['0']).length ≤ 17 := by
    rw [List.length_append, List.length_append, List.length_replicate, List.length_singleton]
    omega
  have powers := Nat.pow_le_pow_right (show 0 < 10 by decide) count
  have word : Nat.ofDigitChars 10
      (digitsOf digits.value ++ List.replicate digits.exponent.toNat '0' ++ ['0']) 0 < 10 ^ 17 := by
    omega
  refine ⟨_, ?_, readsAs_point shape (List.cons_ne_nil _ _) decimal ?_⟩
  · omega
  · unfold maxWord
    omega

/-- One digit, more behind a point if there are any, and an exponent. -/
theorem readsAs_scientific (word : digits.value ≤ maxWord) (nonzero : digits.value ≠ 0)
    (near : (digits.point - 1).natAbs ≤ maxExponent) :
    ReadsAs digits.scientific digits.value digits.exponent := by
  have length : digits.point = (digitsOf digits.value).length + digits.exponent := rfl
  have number : Nat.ofDigitChars 10 (digitsOf digits.value) 0 = digits.value :=
    Nat.ofDigitChars_ten_toDigits
  have decimal := @isDigit_of_mem_digitsOf digits.value
  obtain ⟨d, ds, same, -, notZero⟩ := digitsOf_pos (Nat.pos_of_ne_zero nonzero)
  intro negative rest ends
  have ends := startsWithDigit_of_endsNumber ends
  rw [same] at number decimal length
  have first : ∀ c ∈ [d], c.isDigit := List.forall_mem_singleton.mpr (decimal d List.mem_cons_self)
  have shape : IsWhole [d] := .inr ⟨d, [], rfl, notZero⟩
  unfold Digits.scientific
  simp only [same]
  cases ds with
  | nil =>
      have exponent : 0 + (digits.point - 1) = digits.exponent := by
        rw [List.length_singleton] at length
        omega
      rw [List.cons_append, List.cons_append, List.cons_append, ← List.singleton_append,
        unsigned_whole shape first (by rw [number]; exact word) (.inr rfl), if_neg (by decide),
        exponentPart_digits near ends, number, exponent]
  | cons next more =>
      have behind : ∀ c ∈ next :: more, c.isDigit := fun c mem =>
        decimal c (List.mem_cons_of_mem _ mem)
      have exponent : 0 - ((next :: more).length : Int) + (digits.point - 1) = digits.exponent := by
        rw [List.length_cons] at length
        omega
      rw [← List.singleton_append, Nat.ofDigitChars_append] at number
      have small : Nat.ofDigitChars 10 [d] 0 ≤ maxWord :=
        (le_ofDigitChars (next :: more) _).trans (number.trans_le word)
      have text (power : List Char) : d :: '.' :: (next :: more) ++ 'e' :: power ++ rest
          = [d] ++ '.' :: ((next :: more) ++ 'e' :: (power ++ rest)) := by simp
      rw [text, unsigned_whole shape first small (.inl rfl), if_pos rfl,
        fraction_digits (List.cons_ne_nil _ _) behind (by rw [number]; exact word) rfl,
        number, List.cons_append, optionalExponent, exponentPart_digits near ends, exponent]

/-- However digits are written, what is read are these digits, or others of a word with a
negative power of ten. -/
theorem readsAs_decimalText (nonzero : digits.value ≠ 0) (few : digits.value ≤ 10 * 2 ^ 55)
    (low : -348 ≤ digits.exponent) (high : digits.exponent ≤ 330) :
    ∃ value exponent, ReadsAs (decimalText digits) value exponent ∧
      (value = digits.value ∧ exponent = digits.exponent ∨ value ≤ 2 ^ 64 ∧ exponent < 0) := by
  have length : digits.point = (digitsOf digits.value).length + digits.exponent := rfl
  have word : digits.value ≤ maxWord := few.trans (by decide)
  have short : (digitsOf digits.value).length ≤ 18 :=
    (Nat.length_toDigits_le_iff (by decide) (by decide)).mpr (few.trans_lt (by decide))
  unfold decimalText
  split
  · rename_i near
    unfold Digits.positional
    simp only
    split
    · rename_i natural
      obtain ⟨value, small, reads⟩ := readsAs_whole nonzero natural near.2
      exact ⟨value, -1, reads, .inr ⟨small, by decide⟩⟩
    · rename_i negative
      split
      · rename_i point
        exact ⟨_, _, readsAs_split word nonzero (by omega) point, .inl ⟨rfl, rfl⟩⟩
      · exact ⟨_, _, readsAs_zeros word (by omega), .inl ⟨rfl, rfl⟩⟩
  · refine ⟨_, _, readsAs_scientific word nonzero ?_, .inl ⟨rfl, rfl⟩⟩
    unfold maxExponent
    omega

/-- A written number starts with a digit. -/
theorem decimalText_head (nonzero : digits.value ≠ 0) :
    ∃ c more, decimalText digits = c :: more ∧ c.isDigit := by
  obtain ⟨d, ds, same, digit, -⟩ := digitsOf_pos (Nat.pos_of_ne_zero nonzero)
  unfold decimalText
  split
  · unfold Digits.positional
    simp only [same]
    split
    · exact ⟨d, _, rfl, digit⟩
    · split
      · rename_i point
        obtain ⟨more, positive⟩ : ∃ more, digits.point.toNat = more + 1 :=
          ⟨digits.point.toNat - 1, by omega⟩
        rw [positive, List.take_succ_cons]
        exact ⟨d, _, rfl, digit⟩
      · exact ⟨'0', _, rfl, rfl⟩
  · unfold Digits.scientific
    simp only [same]
    cases ds with
    | nil => exact ⟨d, _, rfl, digit⟩
    | cons next more => exact ⟨d, _, rfl, digit⟩

end Text

/-! ### Floats -/

/-- The text of a magnitude: it starts with a digit, and what is read is finite. -/
theorem exists_readsAs (magnitude : Decimal.Binary64) :
    ∃ text value exponent,
      magnitude.text decimalText = (if magnitude.negative then '-' :: text else text) ∧
        ReadsAs text value exponent ∧ scaledMagnitude value exponent < Decimal.infinity ∧
          ∃ c more, text = c :: more ∧ c.isDigit := by
  obtain ⟨negative, magnitude, finite⟩ := magnitude
  rcases Nat.eq_zero_or_pos magnitude with rfl | positive
  · have reads := @readsAs_point ['0'] ['0'] (.inl rfl) (List.cons_ne_nil _ _)
      (List.forall_mem_cons.mpr ⟨rfl, List.forall_mem_singleton.mpr rfl⟩) (by decide)
    refine ⟨_, _, _, rfl, reads, ?_, '0', _, rfl, rfl⟩
    exact Decimal.scaledMagnitude_neg (by decide) (by decide)
  · have found := Decimal.found_shortest positive finite
    obtain ⟨low, high⟩ := Decimal.shortest_exponent positive finite
    obtain ⟨value, exponent, reads, which⟩ :=
      readsAs_decimalText found.nonzero found.few low high
    have text : Decimal.Binary64.text decimalText ⟨negative, magnitude, finite⟩
        = if negative then '-' :: decimalText (Decimal.shortest magnitude)
          else decimalText (Decimal.shortest magnitude) := by
      simp [Decimal.Binary64.text, Nat.ne_of_gt positive]
    refine ⟨_, value, exponent, text, reads, ?_, decimalText_head found.nonzero⟩
    rcases which with ⟨rfl, rfl⟩ | ⟨word, down⟩
    · exact Decimal.scaledMagnitude_shortest positive finite
    · exact Decimal.scaledMagnitude_neg word down

end Provision.Json.Reader
