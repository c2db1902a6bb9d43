import Mathlib.Data.List.Basic
import Mathlib.Data.List.Induction
import Provision.Cluster.Subnet
import Provision.Proofs.Json.Tokens

/-!
Which texts are subnets.

* `eq_digitsOf` — decimal digits without superfluous zeros are the digits of their value, so that
  `isOctet`, `isAddress` and `isLength` can be told by what is written (`isOctet_iff`,
  `isAddress_iff`, `isLength_iff`).
* `Subnet.Written` — four octets and a length in CIDR notation, with something in front of the
  length. Where nothing is, this is the notation itself.
* `parse_iff_written` — the texts that are read are exactly those that are written with nothing in
  front of the length, or with zeros, perhaps after a plus sign. With these they are no CIDR
  notation (`read_beyond_notation`): superfluous zeros are refused in an octet, but not here.
-/

namespace Provision.Subnet

open Decimal (digitsOf)
open Json.Reader (digitsOf_pos isDigit_of_mem_digitsOf)

/-! ### Decimal numbers -/

theorem isDecimal_iff {text : List Char} :
    isDecimal text ↔ text ≠ [] ∧ ∀ c ∈ text, c.isDigit := by
  simp [isDecimal, Char.isDigit, Char.le_def]

theorem isDecimal_digitsOf (n : Nat) : isDecimal (digitsOf n) :=
  isDecimal_iff.mpr ⟨Nat.toDigits_ne_nil, isDigit_of_mem_digitsOf⟩

theorem decimalValue_eq (text : List Char) : decimalValue text = Nat.ofDigitChars 10 text 0 := by
  simp only [decimalValue, Nat.ofDigitChars, Nat.mul_comm]
  rfl

theorem decimalValue_digitsOf (n : Nat) : decimalValue (digitsOf n) = n := by
  rw [decimalValue_eq, digitsOf, Nat.ofDigitChars_ten_toDigits]

theorem decimalValue_concat (front : List Char) (c : Char) :
    decimalValue (front ++ [c]) = 10 * decimalValue front + (c.toNat - 48) := by
  simp only [decimalValue, List.foldl_append, List.foldl_cons, List.foldl_nil, Nat.mul_comm]

theorem decimalValue_zeros (count : Nat) (text : List Char) :
    decimalValue (List.replicate count '0' ++ text) = decimalValue text := by
  rw [decimalValue_eq, Nat.ofDigitChars_append, Nat.ofDigitChars_replicate_zero, Nat.mul_zero,
    ← decimalValue_eq]

/-- The digits of a number have no superfluous zero in front. -/
theorem length_of_head?_digitsOf {n : Nat} (zero : (digitsOf n).head? = some '0') :
    (digitsOf n).length = 1 := by
  rcases Nat.eq_zero_or_pos n with rfl | positive
  · rfl
  · obtain ⟨d, ds, same, -, nonzero⟩ := digitsOf_pos positive
    rw [same, List.head?_cons, Option.some.injEq] at zero
    exact absurd zero nonzero

/-- Digits without superfluous zeros are those of the number that they stand for. -/
theorem eq_digitsOf {text : List Char} (decimal : isDecimal text)
    (lead : text.head? = some '0' → text.length = 1) : text = digitsOf (decimalValue text) := by
  induction text using List.reverseRecOn with
  | nil => cases decimal
  | append_singleton front c ih =>
      obtain ⟨-, digits⟩ := isDecimal_iff.mp decimal
      have last : 48 ≤ c.toNat ∧ c.toNat ≤ 57 := Char.isDigit_iff_toNat.mp (digits c (by simp))
      have small : c.toNat - 48 < 10 := by omega
      have single : [c] = digitsOf (c.toNat - 48) := by
        have same : Nat.digitChar (c.toNat - 48) = c := by
          apply Char.toNat_inj.mp
          rw [Nat.toNat_digitChar_of_lt_ten small]
          omega
        rw [digitsOf, Nat.toDigits_of_lt_base small, same]
      rw [decimalValue_concat]
      by_cases alone : front = []
      · rw [alone, List.nil_append, single, decimalValue, List.foldl_nil, Nat.mul_zero,
          Nat.zero_add]
      · have before : isDecimal front :=
          isDecimal_iff.mpr ⟨alone, fun d mem => digits d (List.mem_append_left _ mem)⟩
        -- with a digit behind it, the front must not start with a zero
        have noZero : front.head? ≠ some '0' := by
          intro zero
          have short := lead (by rw [List.head?_append, zero]; rfl)
          rw [List.length_append, List.length_singleton] at short
          exact alone (List.eq_nil_of_length_eq_zero (by omega))
        have same := ih before (fun zero => absurd zero noZero)
        have positive : 0 < decimalValue front := by
          refine Nat.pos_of_ne_zero ?_
          intro zero
          rw [zero] at same
          rw [same] at noZero
          exact noZero rfl
        calc front ++ [c]
            = digitsOf (decimalValue front) ++ digitsOf (c.toNat - 48) := by
              rw [← same, ← single]
          _ = digitsOf (10 * decimalValue front + (c.toNat - 48)) :=
              Nat.toDigits_append_toDigits (by omega) positive small

/-- Any digits are those of the number that they stand for, behind zeros. -/
theorem exists_eq_zeros_append {text : List Char} (decimal : isDecimal text) :
    ∃ count, text = List.replicate count '0' ++ digitsOf (decimalValue text) := by
  induction text with
  | nil => cases decimal
  | cons c text ih =>
      obtain ⟨-, digits⟩ := isDecimal_iff.mp decimal
      by_cases superfluous : c = '0' ∧ text ≠ []
      · obtain ⟨rfl, more⟩ := superfluous
        have later : isDecimal text :=
          isDecimal_iff.mpr ⟨more, fun d mem => digits d (List.mem_cons_of_mem _ mem)⟩
        obtain ⟨count, same⟩ := ih later
        have value : decimalValue ('0' :: text) = decimalValue text := decimalValue_zeros 1 text
        refine ⟨count + 1, ?_⟩
        rw [value, List.replicate_succ, List.cons_append, ← same]
      · refine ⟨0, eq_digitsOf decimal ?_⟩
        intro zero
        have alone : text = [] := by
          by_contra more
          exact superfluous ⟨Option.some.inj zero, more⟩
        rw [alone]
        rfl

/-! ### Addresses and lengths -/

/-- An octet is written with the digits of a number up to 255. -/
theorem isOctet_iff {text : List Char} : isOctet text ↔ ∃ n ≤ 255, text = digitsOf n := by
  have split : isOctet text ↔ isDecimal text ∧ text.length ≤ 3 ∧
      (text.head? = some '0' → text.length = 1) ∧ decimalValue text ≤ 255 := by
    simp only [isOctet, Bool.and_eq_true, Bool.or_eq_true, decide_eq_true_eq, bne_iff_ne,
      beq_iff_eq, ne_eq, ← imp_iff_not_or, and_assoc]
  rw [split]
  constructor
  · rintro ⟨decimal, -, lead, bound⟩
    exact ⟨_, bound, eq_digitsOf decimal lead⟩
  · rintro ⟨n, bound, rfl⟩
    refine ⟨isDecimal_digitsOf n, ?_, length_of_head?_digitsOf, ?_⟩
    · exact (Nat.length_toDigits_le_iff (by omega) (by omega)).mpr (by omega)
    · rw [decimalValue_digitsOf]
      exact bound

def addressText (a b c d : Nat) : List Char :=
  ['.'].intercalate [digitsOf a, digitsOf b, digitsOf c, digitsOf d]

theorem not_mem_digitsOf {c : Char} (other : c.isDigit = false) (n : Nat) : c ∉ digitsOf n := by
  intro mem
  have digit := isDigit_of_mem_digitsOf c mem
  rw [other] at digit
  cases digit

theorem isAddress_iff {text : List Char} :
    isAddress text ↔
      ∃ a ≤ 255, ∃ b ≤ 255, ∃ c ≤ 255, ∃ d ≤ 255, text = addressText a b c d := by
  have split : isAddress text ↔
      (text.splitOn '.').length = 4 ∧ ∀ octet ∈ text.splitOn '.', isOctet octet := by
    simp only [isAddress, Bool.and_eq_true, beq_iff_eq, List.all_eq_true]
  rw [split]
  constructor
  · rintro ⟨four, octets⟩
    have whole : ['.'].intercalate (text.splitOn '.') = text := List.intercalate_splitOn '.'
    obtain ⟨p, others, parts⟩ := List.exists_cons_of_length_eq_add_one four
    rw [parts] at four octets whole
    obtain ⟨q, r, s, rfl⟩ := List.length_eq_three.mp (Nat.succ.inj four)
    simp only [List.forall_mem_cons] at octets
    obtain ⟨first, second, third, fourth, -⟩ := octets
    obtain ⟨a, aBound, rfl⟩ := isOctet_iff.mp first
    obtain ⟨b, bBound, rfl⟩ := isOctet_iff.mp second
    obtain ⟨c, cBound, rfl⟩ := isOctet_iff.mp third
    obtain ⟨d, dBound, rfl⟩ := isOctet_iff.mp fourth
    exact ⟨a, aBound, b, bBound, c, cBound, d, dBound, whole.symm⟩
  · rintro ⟨a, aBound, b, bBound, c, cBound, d, dBound, rfl⟩
    have parts : (addressText a b c d).splitOn '.'
        = [digitsOf a, digitsOf b, digitsOf c, digitsOf d] := by
      refine List.splitOn_intercalate '.' ?_ (List.cons_ne_nil _ _)
      simp only [List.forall_mem_cons]
      exact ⟨not_mem_digitsOf rfl a, not_mem_digitsOf rfl b, not_mem_digitsOf rfl c,
        not_mem_digitsOf rfl d, nofun⟩
    rw [parts]
    refine ⟨rfl, ?_⟩
    simp only [List.forall_mem_cons]
    exact ⟨isOctet_iff.mpr ⟨a, aBound, rfl⟩, isOctet_iff.mpr ⟨b, bBound, rfl⟩,
      isOctet_iff.mpr ⟨c, cBound, rfl⟩, isOctet_iff.mpr ⟨d, dBound, rfl⟩, nofun⟩

/-- What is let pass in front of a length: zeros, perhaps after a plus sign. -/
inductive Lead : List Char → Prop
  | zeros (count : Nat) : Lead (List.replicate count '0')
  | plus (count : Nat) : Lead ('+' :: List.replicate count '0')

theorem isLength_plus_iff {number : List Char} :
    isLength ('+' :: number) ↔ isDecimal number ∧ decimalValue number ≤ 32 := by
  simp only [isLength, Bool.and_eq_true, decide_eq_true_eq]

theorem isLength_iff_of_ne {number : List Char} (noPlus : number.head? ≠ some '+') :
    isLength number ↔ isDecimal number ∧ decimalValue number ≤ 32 := by
  unfold isLength
  split
  · exact absurd rfl noPlus
  · simp only [Bool.and_eq_true, decide_eq_true_eq]

/-- Digits of a number up to 32, behind zeros. -/
theorem isDecimal_le_iff {number : List Char} :
    isDecimal number ∧ decimalValue number ≤ 32 ↔
      ∃ count, ∃ n ≤ 32, number = List.replicate count '0' ++ digitsOf n := by
  constructor
  · rintro ⟨decimal, bound⟩
    obtain ⟨count, same⟩ := exists_eq_zeros_append decimal
    exact ⟨count, _, bound, same⟩
  · rintro ⟨count, n, bound, rfl⟩
    refine ⟨isDecimal_iff.mpr ⟨by simp [digitsOf, Nat.toDigits_ne_nil], ?_⟩, ?_⟩
    · refine List.forall_mem_append.mpr ⟨?_, isDigit_of_mem_digitsOf⟩
      intro c mem
      rw [List.eq_of_mem_replicate mem]
      rfl
    · rw [decimalValue_zeros, decimalValue_digitsOf]
      exact bound

/-- A length is written with the digits of a number up to 32, behind a lead. -/
theorem isLength_iff {text : List Char} :
    isLength text ↔ ∃ lead, Lead lead ∧ ∃ n ≤ 32, text = lead ++ digitsOf n := by
  constructor
  · intro h
    by_cases plus : text.head? = some '+'
    · obtain ⟨number, rfl⟩ := List.head?_eq_some_iff.mp plus
      obtain ⟨count, n, bound, rfl⟩ := isDecimal_le_iff.mp (isLength_plus_iff.mp h)
      exact ⟨_, .plus count, n, bound, rfl⟩
    · obtain ⟨count, n, bound, rfl⟩ := isDecimal_le_iff.mp ((isLength_iff_of_ne plus).mp h)
      exact ⟨_, .zeros count, n, bound, rfl⟩
  · rintro ⟨_, ⟨count⟩ | ⟨count⟩, n, bound, rfl⟩
    · have number := isDecimal_le_iff.mpr ⟨count, n, bound, rfl⟩
      refine (isLength_iff_of_ne ?_).mpr number
      intro plus
      -- the first character is a digit
      have digit := (isDecimal_iff.mp number.1).2 '+' (List.mem_of_head? plus)
      cases digit
    · exact isLength_plus_iff.mpr (isDecimal_le_iff.mpr ⟨count, n, bound, rfl⟩)

/-! ### Subnets -/

theorem slash_notMem_addressText (a b c d : Nat) : '/' ∉ addressText a b c d := by
  simp [addressText, List.intercalate_cons_cons, not_mem_digitsOf]

theorem ne_slash_of_mem {address : List Char} (sound : isAddress address) :
    ∀ x ∈ address, (x != '/') = true := by
  obtain ⟨a, -, b, -, c, -, d, -, rfl⟩ := isAddress_iff.mp sound
  intro x mem
  rw [bne_iff_ne]
  rintro rfl
  exact slash_notMem_addressText a b c d mem

theorem takeWhile_address {address : List Char} (sound : isAddress address) (length : List Char) :
    (address ++ '/' :: length).takeWhile (· != '/') = address := by
  rw [List.takeWhile_append_of_pos (ne_slash_of_mem sound), List.takeWhile_cons_of_neg (by simp),
    List.append_nil]

theorem dropWhile_address {address : List Char} (sound : isAddress address) (length : List Char) :
    (address ++ '/' :: length).dropWhile (· != '/') = '/' :: length := by
  rw [List.dropWhile_append_of_pos (ne_slash_of_mem sound), List.dropWhile_cons_of_neg (by simp)]

/-- A subnet is an address and a length with a slash between them. -/
theorem fault?_eq_none_iff {text : String} :
    fault? text = none ↔ ∃ address length, text.toList = address ++ '/' :: length ∧
      isAddress address ∧ isLength length := by
  constructor
  · intro sound
    have whole : text.toList.takeWhile (· != '/') ++ text.toList.dropWhile (· != '/')
        = text.toList := List.takeWhile_append_dropWhile
    unfold fault? at sound
    cases behind : text.toList.dropWhile (· != '/') with
    | nil =>
        rw [behind] at sound
        cases sound
    | cons slash length =>
        have first := List.head?_dropWhile_not (· != '/') text.toList
        simp only [behind, List.head?_cons, bne_eq_false_iff_eq] at first
        simp only [behind] at sound
        split at sound
        · cases sound
        · rename_i address
          split at sound
          · cases sound
          · rename_i sized
            rw [behind, first] at whole
            exact ⟨_, length, whole.symm, by simpa using address, by simpa using sized⟩
  · rintro ⟨address, length, same, sound, sized⟩
    simp only [fault?, same, takeWhile_address sound, dropWhile_address sound, sound, sized,
      Bool.not_true, Bool.false_eq_true, if_false]

theorem parse_eq_ok_iff {text : String} {subnet : Subnet} :
    parse text = .ok subnet ↔ subnet.text = text ∧ fault? text = none := by
  unfold parse
  split
  · rename_i sound
    constructor
    · intro same
      cases same
      exact ⟨rfl, sound⟩
    · rintro ⟨rfl, -⟩
      rfl
  · rename_i fault faulty
    simp [faulty]

/-! ### What is written -/

/-- A text in which four octets and a length are written in CIDR notation, with something in
front of the length. -/
def Written (lead text : String) : Prop :=
  ∃ a b c d n : Nat, a ≤ 255 ∧ b ≤ 255 ∧ c ≤ 255 ∧ d ≤ 255 ∧ n ≤ 32 ∧
    text = s!"{a}.{b}.{c}.{d}/{lead}{n}"

theorem toList_written (a b c d n : Nat) (lead : String) :
    (s!"{a}.{b}.{c}.{d}/{lead}{n}").toList
      = addressText a b c d ++ '/' :: (lead.toList ++ digitsOf n) := by
  have parts : s!"{a}.{b}.{c}.{d}/{lead}{n}"
      = toString a ++ "." ++ toString b ++ "." ++ toString c ++ "." ++ toString d ++ "/" ++ lead
        ++ toString n := rfl
  rw [parts]
  simp [addressText, List.intercalate_cons_cons, digitsOf]

theorem written_iff {lead text : String} :
    Written lead text ↔ ∃ address, isAddress address ∧
      ∃ n ≤ 32, text.toList = address ++ '/' :: (lead.toList ++ digitsOf n) := by
  constructor
  · rintro ⟨a, b, c, d, n, aBound, bBound, cBound, dBound, bound, rfl⟩
    exact ⟨_, isAddress_iff.mpr ⟨a, aBound, b, bBound, c, cBound, d, dBound, rfl⟩, n, bound,
      toList_written a b c d n lead⟩
  · rintro ⟨_, address, n, bound, same⟩
    obtain ⟨a, aBound, b, bBound, c, cBound, d, dBound, rfl⟩ := isAddress_iff.mp address
    refine ⟨a, b, c, d, n, aBound, bBound, cBound, dBound, bound, String.toList_inj.mp ?_⟩
    rw [same, toList_written]

/-- What is written with a lead cannot be written without one. -/
theorem not_written_of_lead {lead text : String} (front : Lead lead.toList) (some : lead ≠ "")
    (written : Written lead text) : ¬ Written "" text := by
  intro plain
  obtain ⟨address, sound, n, -, same⟩ := written_iff.mp written
  obtain ⟨other, sound', m, -, same'⟩ := written_iff.mp plain
  have lengths : lead.toList ++ digitsOf n = digitsOf m := by
    have behind := congrArg (List.dropWhile (· != '/')) (same.symm.trans same')
    rw [dropWhile_address sound, dropWhile_address sound'] at behind
    exact (List.cons.inj behind).2
  generalize shape : lead.toList = front at *
  cases front with
  | zeros count =>
      rcases count with _ | count
      · exact some (String.toList_eq_nil_iff.mp shape)
      · have single : (digitsOf m).length = 1 := by
          refine length_of_head?_digitsOf ?_
          rw [← lengths]
          rfl
        rw [← lengths, List.length_append, List.length_replicate] at single
        have more := Nat.length_toDigits_pos (n := n) (b := 10)
        unfold digitsOf at single
        omega
  | plus count =>
      refine not_mem_digitsOf (c := '+') rfl m ?_
      rw [← lengths]
      exact List.mem_cons_self

/-- **A text is read as a subnet exactly if it is written like one**: four octets and a length in
CIDR notation, where the length, unlike the octets, may have superfluous zeros and a plus sign in
front; with these it is not in the notation. The subnet keeps the text as it was written. -/
theorem parse_iff_written (text : String) (subnet : Subnet) :
    (parse text = .ok subnet ↔ subnet.text = text ∧
      ∃ lead : String, Lead lead.toList ∧ Written lead text) ∧
    ∀ lead : String, Lead lead.toList → lead ≠ "" → Written lead text → ¬ Written "" text := by
  refine ⟨?_, fun _ => not_written_of_lead⟩
  rw [parse_eq_ok_iff, and_congr_right_iff]
  intro same
  rw [fault?_eq_none_iff]
  constructor
  · rintro ⟨address, length, parts, sound, sized⟩
    obtain ⟨lead, front, n, bound, rfl⟩ := isLength_iff.mp sized
    refine ⟨String.ofList lead, ?_, written_iff.mpr ⟨address, sound, n, bound, ?_⟩⟩
    · rw [String.toList_ofList]
      exact front
    · rw [String.toList_ofList]
      exact parts
  · rintro ⟨lead, front, written⟩
    obtain ⟨address, sound, n, bound, parts⟩ := written_iff.mp written
    exact ⟨address, _, parts, sound, isLength_iff.mpr ⟨lead.toList, front, n, bound, rfl⟩⟩

/-- A length with a superfluous zero. -/
theorem parse_iff_written_zero :
    (∃ subnet, parse "10.1.0.255/08" = .ok subnet) ∧ ¬ Written "" "10.1.0.255/08" := by
  have front : Lead "0".toList := .zeros 1
  have written : Written "0" "10.1.0.255/08" :=
    ⟨10, 1, 0, 255, 8, by decide, by decide, by decide, by decide, by decide, by decide⟩
  let subnet : Subnet := ⟨"10.1.0.255/08", by decide⟩
  obtain ⟨read, beyond⟩ := parse_iff_written "10.1.0.255/08" subnet
  exact ⟨⟨subnet, read.mpr ⟨rfl, "0", front, written⟩⟩, beyond "0" front (by decide) written⟩

/-- A length with a sign is read, but is not written in the notation. -/
theorem read_beyond_notation :
    (∃ subnet, parse "10.0.0.0/+8" = .ok subnet) ∧ ¬ Written "" "10.0.0.0/+8" := by
  have front : Lead "+".toList := .plus 0
  have written : Written "+" "10.0.0.0/+8" :=
    ⟨10, 0, 0, 0, 8, by decide, by decide, by decide, by decide, by decide, by decide⟩
  refine ⟨?_, not_written_of_lead front (by decide) written⟩
  exact ⟨⟨"10.0.0.0/+8", by decide⟩, parse_eq_ok_iff.mpr ⟨rfl, by decide⟩⟩

end Provision.Subnet
