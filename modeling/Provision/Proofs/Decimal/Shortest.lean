import Provision.Decimal.Notation
import Provision.Proofs.Decimal.Rounding

/-!
What the search for the shortest digits finds.

The search goes from a coarse grid to finer ones. A grid is *fine* for a neighbourhood if
its step is no more than one part in `2 ^ 55` of the centre; then the nearest grid point lies
in the neighbourhood (`onGrid?_of_fine`). The first grid is not much too coarse and the last
one is fine, so the search ends, and it ends before the digits grow large (`search_spec`):
`found_shortest` says that the digits of every magnitude but zero are not zero, fit a 64-bit
word, and stand for no more than the upper end of its neighbourhood. Scaling them gives a
finite magnitude again (`scaledMagnitude_shortest`).
-/

namespace Provision.Decimal

theorem powerOfTen_eq (exponent : Nat) : powerOfTen exponent = 10 ^ exponent := rfl

theorem powerOfTen_le {exponent larger : Nat} (h : exponent ≤ larger) :
    powerOfTen exponent ≤ powerOfTen larger :=
  Nat.pow_le_pow_right (by decide) h

/-! ### Neighbourhoods -/

namespace Neighbourhood

/-- A neighbourhood that reaches at least one part in `2 ^ 55` of its centre to each side. -/
structure Wide (around : Neighbourhood) : Prop where
  denominator : 0 < around.denominator
  lower : 2 ^ 55 * around.low + around.centre ≤ 2 ^ 55 * around.centre
  upper : 2 ^ 55 * around.centre + around.centre ≤ 2 ^ 55 * around.high

/-- The two ends are at least half a unit of the last place away, or a quarter below a
power of two. -/
theorem wide_of {magnitude : Nat} (positive : 0 < magnitude) : (of magnitude).Wide := by
  obtain ⟨significand, shift, found, nonzero, below⟩ : ∃ significand shift,
      parts magnitude = (significand, shift) ∧ 0 < significand ∧ significand < 2 ^ 53 := by
    rcases parts_cases magnitude with
      ⟨subnormal, found⟩ | ⟨shift, significand, -, low, below, found⟩
    · exact ⟨_, _, found, positive, by omega⟩
    · exact ⟨_, _, found, by omega, below⟩
  constructor
  · exact Nat.mul_pos (by decide) unitsPerOne_pos
  · have apart (step : Nat) (low : 1 ≤ step) (high : step ≤ 2) :
        2 ^ 55 * ((4 * significand - step) * powerOfTwo shift)
            + 4 * significand * powerOfTwo shift
          ≤ 2 ^ 55 * (4 * significand * powerOfTwo shift) :=
      calc _ = (2 ^ 55 * (4 * significand - step) + 4 * significand) * powerOfTwo shift := by ring
        _ ≤ 2 ^ 55 * (4 * significand) * powerOfTwo shift := Nat.mul_le_mul_right _ (by omega)
        _ = _ := by ring
    simp only [of, found]
    split
    · exact apart 1 (Nat.le_refl 1) (by decide)
    · exact apart 2 (by decide) (Nat.le_refl 2)
  · simp only [of, found]
    calc 2 ^ 55 * (4 * significand * powerOfTwo shift) + 4 * significand * powerOfTwo shift
        = (2 ^ 55 * (4 * significand) + 4 * significand) * powerOfTwo shift := by ring
      _ ≤ 2 ^ 55 * (4 * significand + 2) * powerOfTwo shift :=
        Nat.mul_le_mul_right _ (by omega)
      _ = 2 ^ 55 * ((4 * significand + 2) * powerOfTwo shift) := by ring

/-- The step of a grid is no more than one part in `2 ^ 55` of the centre. -/
def Fine (around : Neighbourhood) (exponent : Int) : Prop :=
  2 ^ 55 * (around.denominator * powerOfTen exponent.toNat)
    ≤ around.centre * powerOfTen (-exponent).toNat

/-- A decimal is no larger than the upper end of a neighbourhood. -/
def Reaches (around : Neighbourhood) (digits : Digits) : Prop :=
  digits.value * powerOfTen digits.exponent.toNat * around.denominator
    ≤ around.high * powerOfTen (-digits.exponent).toNat

variable {around : Neighbourhood}

theorem reaches_of_holds {value : Nat} {exponent : Int} (h : around.holds value exponent) :
    around.Reaches ⟨value, exponent⟩ := by
  unfold holds at h
  unfold Reaches
  simp only at h ⊢
  split at h
  · simp only [Bool.and_eq_true, decide_eq_true_eq] at h
    exact h.2
  · simp only [Bool.and_eq_true, decide_eq_true_eq] at h
    exact h.2.le

/-- On a fine grid, the point nearest to the centre lies in the neighbourhood. -/
theorem onGrid?_of_fine (wide : around.Wide) {exponent : Int} (fine : around.Fine exponent) :
    ∃ digits, around.onGrid? exponent = some digits ∧ digits.value ≠ 0 := by
  unfold Fine at fine
  have positive : 0 < around.denominator * powerOfTen exponent.toNat :=
    Nat.mul_pos wide.denominator (powerOfTen_pos _)
  have lower := Nat.mul_le_mul_right (powerOfTen (-exponent).toNat) wide.lower
  have upper := Nat.mul_le_mul_right (powerOfTen (-exponent).toNat) wide.upper
  have close := roundHalfEven_near (around.centre * powerOfTen (-exponent).toNat) positive
  have close' := near_roundHalfEven (around.centre * powerOfTen (-exponent).toNat) positive
  have many : 1 ≤ roundHalfEven (around.centre * powerOfTen (-exponent).toNat)
      (around.denominator * powerOfTen exponent.toNat) :=
    le_roundHalfEven positive (by omega)
  simp only [Nat.add_mul, Nat.mul_assoc] at lower upper
  have held : around.holds (roundHalfEven (around.centre * powerOfTen (-exponent).toNat)
      (around.denominator * powerOfTen exponent.toNat)) exponent := by
    have order (near : Nat) : near * powerOfTen exponent.toNat * around.denominator
        = near * (around.denominator * powerOfTen exponent.toNat) := by ring
    unfold holds
    simp only [order]
    split
    · rw [Bool.and_eq_true, decide_eq_true_eq, decide_eq_true_eq]
      omega
    · rw [Bool.and_eq_true, decide_eq_true_eq, decide_eq_true_eq]
      omega
  refine ⟨⟨roundHalfEven (around.centre * powerOfTen (-exponent).toNat)
    (around.denominator * powerOfTen exponent.toNat), exponent⟩, ?_, Nat.ne_of_gt many⟩
  exact if_pos held

theorem roundHalfEven_le_succ (num den : Nat) : roundHalfEven num den ≤ num / den + 1 := by
  unfold roundHalfEven
  simp only
  repeat' split
  all_goals omega

/-- What lies in the neighbourhood on a grid is one of the two points beside the centre. -/
theorem onGrid?_eq_some {exponent : Int} {digits : Digits}
    (h : around.onGrid? exponent = some digits) :
    around.Reaches digits ∧ digits.exponent = exponent ∧ digits.value
      ≤ around.centre * powerOfTen (-exponent).toNat
        / (around.denominator * powerOfTen exponent.toNat) + 1 := by
  have beside (near below : Nat) : (if near = below then below + 1 else below) ≤ below + 1 := by
    split <;> omega
  unfold onGrid? at h
  simp only at h
  split at h
  · rename_i held
    obtain rfl := Option.some.inj h
    exact ⟨reaches_of_holds held, rfl, roundHalfEven_le_succ _ _⟩
  · rw [Option.ite_none_right_eq_some] at h
    obtain ⟨held, same⟩ := h
    obtain rfl := Option.some.inj same
    exact ⟨reaches_of_holds held, rfl, beside _ _⟩

/-! ### The search -/

/-- One step from a grid to the next finer one: ten times as many points. -/
theorem powerOfTen_step (exponent : Int) :
    (powerOfTen (exponent + 1).toNat = 10 * powerOfTen exponent.toNat
        ∧ powerOfTen (-(exponent + 1)).toNat = powerOfTen (-exponent).toNat) ∨
      (powerOfTen (exponent + 1).toNat = powerOfTen exponent.toNat
        ∧ powerOfTen (-exponent).toNat = 10 * powerOfTen (-(exponent + 1)).toNat) := by
  have succ (n : Nat) : powerOfTen (n + 1) = 10 * powerOfTen n := Nat.pow_succ'
  rcases Int.lt_or_le exponent 0 with negative | natural
  · right
    obtain ⟨n, rfl⟩ : ∃ n : Nat, exponent = -(n + 1 : Int) := ⟨(-exponent - 1).toNat, by omega⟩
    have small : (-(n + 1 : Int) + 1).toNat = 0 := by omega
    have small' : (-(n + 1 : Int)).toNat = 0 := by omega
    have large : (- -(n + 1 : Int)).toNat = n + 1 := by omega
    have large' : (-(-(n + 1 : Int) + 1)).toNat = n := by omega
    rw [small, small', large, large', succ]
    exact ⟨rfl, rfl⟩
  · left
    obtain ⟨n, rfl⟩ := Int.eq_ofNat_of_zero_le natural
    have large : ((n : Int) + 1).toNat = n + 1 := by omega
    have small : (-((n : Int) + 1)).toNat = 0 := by omega
    have small' : (-(n : Int)).toNat = 0 := by omega
    rw [large, small, small', succ]
    exact ⟨rfl, rfl⟩

/-- Digits that stand for something up to the upper end of a neighbourhood and are not too
many for a word. -/
structure Found (around : Neighbourhood) (digits : Digits) : Prop where
  nonzero : digits.value ≠ 0
  few : digits.value ≤ 10 * 2 ^ 55
  reaches : around.Reaches digits

/-- Where the next coarser grid is not fine, a grid has few points up to the centre. -/
theorem found_of_onGrid? (wide : around.Wide) {exponent : Int}
    (coarse : ¬ around.Fine (exponent + 1)) {digits : Digits}
    (h : around.onGrid? exponent = some digits) (nonzero : digits.value ≠ 0) :
    around.Found digits := by
  obtain ⟨reaches, -, beside⟩ := onGrid?_eq_some h
  refine ⟨nonzero, ?_, reaches⟩
  have positive : 0 < around.denominator * powerOfTen exponent.toNat :=
    Nat.mul_pos wide.denominator (powerOfTen_pos _)
  have below : around.centre * powerOfTen (-exponent).toNat
      < 10 * 2 ^ 55 * (around.denominator * powerOfTen exponent.toNat) := by
    unfold Fine at coarse
    rcases powerOfTen_step exponent with ⟨up, same⟩ | ⟨same, down⟩
    · rw [up, same, Nat.mul_left_comm around.denominator] at coarse
      omega
    · rw [down, Nat.mul_left_comm around.centre]
      rw [same] at coarse
      omega
  have := (Nat.div_lt_iff_lt_mul positive).mpr below
  omega

/-- **The search ends**, if the next coarser grid than its first one is not fine and its last
one is: the induction is on the number of steps, with the grid before the current one not
fine. -/
theorem search_spec (wide : around.Wide) {exponent : Int} {steps : Nat}
    (coarse : ¬ around.Fine (exponent + 1)) (last : around.Fine (exponent + 1 - steps)) :
    around.Found (around.search exponent steps) := by
  induction steps generalizing exponent with
  | zero =>
      rw [Int.ofNat_zero, Int.sub_zero] at last
      exact absurd last coarse
  | succ steps ih =>
      have onward (nothing : ∀ digits, around.onGrid? exponent = some digits → digits.value = 0) :
          around.Found (around.search (exponent - 1) steps) := by
        refine ih ?_ ?_
        · rw [Int.sub_add_cancel]
          intro fine
          obtain ⟨digits, found, nonzero⟩ := onGrid?_of_fine wide fine
          exact nonzero (nothing digits found)
        · have same : exponent - 1 + 1 - (steps : Int) = exponent + 1 - (steps + 1 : Nat) := by
            omega
          rwa [same]
      unfold search
      split
      · rename_i digits found
        split
        · rename_i zero
          refine onward ?_
          intro other again
          rw [found] at again
          exact Option.some.inj again ▸ zero
        · rename_i nonzero
          exact found_of_onGrid? wide coarse found nonzero
      · rename_i none
        refine onward ?_
        intro digits found
        rw [none] at found
        cases found

/-- Trailing zeros can be moved into the power of ten. -/
theorem found_trim {digits : Digits} (found : around.Found digits) (steps : Nat) :
    around.Found (digits.trim steps) := by
  induction steps generalizing digits with
  | zero => exact found
  | succ steps ih =>
      unfold Digits.trim
      split
      · rename_i zeros
        have whole : digits.value = 10 * (digits.value / 10) := by omega
        have reaches := found.reaches
        unfold Reaches at reaches
        refine ih ⟨?_, ?_, ?_⟩
        · show digits.value / 10 ≠ 0
          omega
        · have few := found.few
          show digits.value / 10 ≤ 10 * 2 ^ 55
          omega
        · show digits.value / 10 * powerOfTen (digits.exponent + 1).toNat * around.denominator
            ≤ around.high * powerOfTen (-(digits.exponent + 1)).toNat
          rw [whole] at reaches
          generalize digits.value / 10 = fewer at *
          rcases powerOfTen_step digits.exponent with ⟨up, same⟩ | ⟨same, down⟩
          · rw [up, same]
            calc fewer * (10 * powerOfTen digits.exponent.toNat) * around.denominator
                = 10 * fewer * powerOfTen digits.exponent.toNat * around.denominator := by ring
              _ ≤ _ := reaches
          · rw [same]
            rw [down] at reaches
            refine Nat.le_of_mul_le_mul_left ?_ (show 0 < 10 by decide)
            calc 10 * (fewer * powerOfTen digits.exponent.toNat * around.denominator)
                = 10 * fewer * powerOfTen digits.exponent.toNat * around.denominator := by ring
              _ ≤ _ := reaches
              _ = 10 * (around.high * powerOfTen (-(digits.exponent + 1)).toNat) := by ring
      · exact found

/-! ### Where the search starts -/

/-- The power of ten at which the search starts for a whole number of this binary length. -/
def wholeStart (log : Nat) : Nat := (log + 1) * 30103 / 100000 + 1

/-- The power of one tenth at which it starts for a fraction this far below one. -/
def fractionStart (log : Nat) : Nat := log * 30103 / 100000

theorem wholeStart_fine : ∀ log < 1024,
    2 ^ (log + 1) ≤ 2 ^ 55 * 10 ^ (wholeStart log + 1) ∧
      2 ^ 55 * 10 ^ (wholeStart log - 23) ≤ 2 ^ log * 10 ^ (23 - wholeStart log) := by
  decide +kernel

theorem fractionStart_fine : ∀ log < 1075,
    10 ^ (fractionStart log - 1) < 2 ^ log * (2 ^ 55 * 10 ^ (1 - fractionStart log)) ∧
      2 ^ 55 * 2 ^ (log + 1) ≤ 10 ^ (fractionStart log + 23) := by
  decide +kernel

/-- A power of ten that is a difference is a fraction of two powers. -/
theorem fine_sub_iff (up down : Nat) :
    around.Fine (up - down) ↔
      2 ^ 55 * (around.denominator * 10 ^ (up - down)) ≤ around.centre * 10 ^ (down - up) := by
  have positive : ((up : Int) - down).toNat = up - down := by omega
  have negative : (-((up : Int) - down)).toNat = down - up := by omega
  rw [Fine, positive, negative]
  rfl

/-- The search finds digits, if the grid before its first one is not fine and its last one
is. -/
theorem found_search (wide : around.Wide) {up down : Nat}
    (coarse : around.centre * 10 ^ (down - (up + 1))
      < 2 ^ 55 * (around.denominator * 10 ^ (up + 1 - down)))
    (fine : 2 ^ 55 * (around.denominator * 10 ^ (up - (down + 23)))
      ≤ around.centre * 10 ^ (down + 23 - up)) :
    around.Found (around.search (up - down) 24) := by
  have before : (up : Int) - down + 1 = (up + 1 : Nat) - (down : Nat) := by omega
  have last : (up : Int) - down + 1 - (24 : Nat) = (up : Nat) - (down + 23 : Nat) := by omega
  refine search_spec wide ?_ ?_
  · rw [before, fine_sub_iff]
    exact Nat.not_le_of_lt coarse
  · rw [last, fine_sub_iff]
    exact fine

/-- From one up, the search starts right. -/
theorem found_search_whole (wide : around.Wide)
    (nonzero : around.centre / around.denominator ≠ 0)
    (finite : (around.centre / around.denominator).log2 < 1024) :
    around.Found
      (around.search (wholeStart (around.centre / around.denominator).log2 : Nat) 24) := by
  obtain ⟨coarse, fine⟩ := wholeStart_fine _ finite
  have above := (Nat.div_lt_iff_lt_mul wide.denominator).mp
    (Nat.lt_log2_self (n := around.centre / around.denominator))
  have below := (Nat.le_div_iff_mul_le wide.denominator).mp (Nat.log2_self_le nonzero)
  generalize (around.centre / around.denominator).log2 = log at *
  have start : (wholeStart log : Int) = wholeStart log - (0 : Nat) := (Int.sub_zero _).symm
  rw [start]
  refine found_search wide ?_ ?_
  · calc around.centre * 10 ^ (0 - (wholeStart log + 1)) = around.centre := by simp
      _ < 2 ^ (log + 1) * around.denominator := above
      _ ≤ 2 ^ 55 * 10 ^ (wholeStart log + 1) * around.denominator :=
        Nat.mul_le_mul_right _ coarse
      _ = 2 ^ 55 * (around.denominator * 10 ^ (wholeStart log + 1 - 0)) := by
        rw [Nat.sub_zero]
        ring
  · rw [Nat.zero_add]
    calc 2 ^ 55 * (around.denominator * 10 ^ (wholeStart log - 23))
        = 2 ^ 55 * 10 ^ (wholeStart log - 23) * around.denominator := by ring
      _ ≤ 2 ^ log * 10 ^ (23 - wholeStart log) * around.denominator :=
        Nat.mul_le_mul_right _ fine
      _ = 2 ^ log * around.denominator * 10 ^ (23 - wholeStart log) := by ring
      _ ≤ around.centre * 10 ^ (23 - wholeStart log) := Nat.mul_le_mul_right _ below

/-- Below one, the search starts right. -/
theorem found_search_fraction (wide : around.Wide) (positive : 0 < around.centre)
    (small : around.centre / around.denominator = 0)
    (finite : (around.denominator / around.centre).log2 < 1075) :
    around.Found
      (around.search (-(fractionStart (around.denominator / around.centre).log2 : Nat)) 24) := by
  have less : around.centre < around.denominator :=
    (Nat.div_eq_zero_iff_lt wide.denominator).mp small
  have nonzero : around.denominator / around.centre ≠ 0 :=
    Nat.ne_of_gt (Nat.div_pos less.le positive)
  obtain ⟨coarse, fine⟩ := fractionStart_fine _ finite
  have above := (Nat.div_lt_iff_lt_mul positive).mp
    (Nat.lt_log2_self (n := around.denominator / around.centre))
  have below := (Nat.le_div_iff_mul_le positive).mp (Nat.log2_self_le nonzero)
  generalize (around.denominator / around.centre).log2 = log at *
  have start : -(fractionStart log : Int) = (0 : Nat) - (fractionStart log : Nat) :=
    (Int.zero_sub _).symm
  rw [start]
  refine found_search wide ?_ ?_
  · calc around.centre * 10 ^ (fractionStart log - (0 + 1))
        < around.centre * (2 ^ log * (2 ^ 55 * 10 ^ (1 - fractionStart log))) :=
          Nat.mul_lt_mul_of_pos_left coarse positive
      _ = 2 ^ log * around.centre * (2 ^ 55 * 10 ^ (1 - fractionStart log)) := by ring
      _ ≤ around.denominator * (2 ^ 55 * 10 ^ (1 - fractionStart log)) :=
        Nat.mul_le_mul_right _ below
      _ = 2 ^ 55 * (around.denominator * 10 ^ (0 + 1 - fractionStart log)) := by ring
  · calc 2 ^ 55 * (around.denominator * 10 ^ (0 - (fractionStart log + 23)))
        = 2 ^ 55 * around.denominator := by simp
      _ ≤ 2 ^ 55 * (2 ^ (log + 1) * around.centre) := Nat.mul_le_mul_left _ above.le
      _ = 2 ^ 55 * 2 ^ (log + 1) * around.centre := by ring
      _ ≤ 10 ^ (fractionStart log + 23) * around.centre := Nat.mul_le_mul_right _ fine
      _ = around.centre * 10 ^ (fractionStart log + 23 - 0) := Nat.mul_comm _ _

end Neighbourhood

open Neighbourhood (Found Reaches found_search_whole found_search_fraction found_trim wide_of)

theorem centre_of_parts {magnitude significand shift : Nat}
    (found : parts magnitude = (significand, shift)) :
    (Neighbourhood.of magnitude).centre = 4 * significand * powerOfTwo shift := by
  simp only [Neighbourhood.of, found]

/-- A finite magnitude lies below `2 ^ 1024`. -/
theorem centre_lt {magnitude : Nat} (finite : magnitude < infinity) :
    (Neighbourhood.of magnitude).centre
      < powerOfTwo 1024 * (Neighbourhood.of magnitude).denominator := by
  have last : infinity = 2047 * 2 ^ 52 := rfl
  obtain ⟨significand, shift, found, below, small⟩ : ∃ significand shift,
      parts magnitude = (significand, shift) ∧ significand < 2 ^ 53 ∧ shift ≤ 2045 := by
    rcases parts_cases magnitude with
      ⟨subnormal, found⟩ | ⟨shift, significand, same, low, below, found⟩
    · exact ⟨_, _, found, by omega, Nat.zero_le _⟩
    · exact ⟨_, _, found, below, by omega⟩
  have unit : (Neighbourhood.of magnitude).denominator = 4 * unitsPerOne := rfl
  rw [centre_of_parts found, unit]
  calc 4 * significand * powerOfTwo shift ≤ 4 * significand * powerOfTwo 2045 :=
        Nat.mul_le_mul_left _ (powerOfTwo_le small)
    _ < 4 * powerOfTwo 53 * powerOfTwo 2045 := by
        refine Nat.mul_lt_mul_of_pos_right ?_ (powerOfTwo_pos 2045)
        exact Nat.mul_lt_mul_of_pos_left below (by decide)
    _ = 4 * (powerOfTwo 53 * powerOfTwo 2045) := Nat.mul_assoc ..
    _ = 4 * (powerOfTwo 1024 * unitsPerOne) := by
        have sum : 53 + 2045 = 1024 + 1074 := rfl
        rw [← powerOfTwo_add, sum, powerOfTwo_add, unitsPerOne]
    _ = powerOfTwo 1024 * (4 * unitsPerOne) := Nat.mul_left_comm ..

theorem le_centre {magnitude : Nat} (positive : 0 < magnitude) :
    4 ≤ (Neighbourhood.of magnitude).centre := by
  obtain ⟨significand, shift, found, nonzero⟩ : ∃ significand shift,
      parts magnitude = (significand, shift) ∧ 0 < significand := by
    rcases parts_cases magnitude with
      ⟨subnormal, found⟩ | ⟨shift, significand, same, low, below, found⟩
    · exact ⟨_, _, found, positive⟩
    · exact ⟨_, _, found, by omega⟩
  rw [centre_of_parts found]
  calc 4 = 4 * 1 * 1 := rfl
    _ ≤ 4 * significand * powerOfTwo shift :=
      Nat.mul_le_mul (Nat.mul_le_mul_left 4 nonzero) (powerOfTwo_pos shift)

theorem log2_lt_of_lt {n exponent : Nat} (positive : 0 < exponent) (h : n < powerOfTwo exponent) :
    n.log2 < exponent := by
  rcases Nat.eq_zero_or_pos n with rfl | nonzero
  · exact positive
  · exact (Nat.log2_lt (Nat.ne_of_gt nonzero)).mpr h

/-- The search for the shortest digits starts near the power of ten of the magnitude. -/
theorem exists_start {magnitude : Nat} (positive : 0 < magnitude) (finite : magnitude < infinity) :
    ∃ start : Int, shortest magnitude = ((Neighbourhood.of magnitude).search start 24).trim 20 ∧
      (Neighbourhood.of magnitude).Found ((Neighbourhood.of magnitude).search start 24) ∧
        -324 ≤ start ∧ start ≤ 310 := by
  have wide := wide_of positive
  have most := centre_lt finite
  have least := le_centre positive
  refine ⟨_, rfl, ?_⟩
  split
  · rename_i small
    have finite : ((Neighbourhood.of magnitude).denominator
        / (Neighbourhood.of magnitude).centre).log2 < 1075 := by
      refine log2_lt_of_lt (by decide) ?_
      calc (Neighbourhood.of magnitude).denominator / (Neighbourhood.of magnitude).centre
          ≤ 4 * unitsPerOne / 4 := Nat.div_le_div_left least (by decide)
        _ = unitsPerOne := Nat.mul_div_cancel_left _ (by decide)
        _ < powerOfTwo 1075 := powerOfTwo_lt (by decide)
    exact ⟨found_search_fraction wide (by omega) small finite, by omega, by omega⟩
  · rename_i nonzero
    have finite : ((Neighbourhood.of magnitude).centre
        / (Neighbourhood.of magnitude).denominator).log2 < 1024 :=
      log2_lt_of_lt (by decide) ((Nat.div_lt_iff_lt_mul wide.denominator).mpr most)
    exact ⟨found_search_whole wide nonzero finite, by omega, by omega⟩

/-! ### How far the power of ten goes -/

theorem search_exponent (around : Neighbourhood) (exponent : Int) (steps : Nat) :
    exponent - steps ≤ (around.search exponent steps).exponent ∧
      (around.search exponent steps).exponent ≤ exponent := by
  induction steps generalizing exponent with
  | zero =>
      show exponent - (0 : Nat) ≤ exponent ∧ exponent ≤ exponent
      omega
  | succ steps ih =>
      have later := ih (exponent - 1)
      unfold Neighbourhood.search
      split
      · rename_i digits found
        have same := (Neighbourhood.onGrid?_eq_some found).2.1
        split <;> omega
      · omega

theorem trim_exponent (digits : Digits) (steps : Nat) :
    digits.exponent ≤ (digits.trim steps).exponent ∧
      (digits.trim steps).exponent ≤ digits.exponent + steps := by
  induction steps generalizing digits with
  | zero =>
      show digits.exponent ≤ digits.exponent ∧ digits.exponent ≤ digits.exponent + (0 : Nat)
      omega
  | succ steps ih =>
      unfold Digits.trim
      split
      · have later := ih ⟨digits.value / 10, digits.exponent + 1⟩
        simp only at later
        omega
      · omega

section Shortest

variable {magnitude : Nat} (positive : 0 < magnitude) (finite : magnitude < infinity)

include positive finite

/-- **The shortest digits of a magnitude** are not zero, are not too many for a word, and
stand for no more than the upper end of its neighbourhood. -/
theorem found_shortest : (Neighbourhood.of magnitude).Found (shortest magnitude) := by
  obtain ⟨start, same, found, -, -⟩ := exists_start positive finite
  rw [same]
  exact found_trim found 20

theorem shortest_exponent :
    -348 ≤ (shortest magnitude).exponent ∧ (shortest magnitude).exponent ≤ 330 := by
  obtain ⟨start, same, -, low, high⟩ := exists_start positive finite
  have search := search_exponent (Neighbourhood.of magnitude) start 24
  have trim := trim_exponent ((Neighbourhood.of magnitude).search start 24) 20
  rw [same]
  omega

end Shortest

/-! ### Scaling the digits again -/

/-- What a number is scaled to before its size is checked. -/
def scaledMagnitude (digits : Nat) (exponent : Int) : Nat :=
  if exponent < 0 then scaleDown (ofNat digits) exponent.natAbs
  else if exponent.natAbs ≤ maxPower then
    product (ofNat digits) (ofNat (powerOfTen exponent.natAbs))
  else if ofNat digits = 0 then 0
  else infinity

theorem scale?_of_lt {digits : Nat} {exponent : Int} (negative : Bool)
    (finite : scaledMagnitude digits exponent < infinity) :
    scale? negative digits exponent = some ⟨negative, scaledMagnitude digits exponent, finite⟩ :=
  dif_pos finite

/-- Scaling a word down never leaves the finite numbers. -/
theorem scaledMagnitude_neg {digits : Nat} {exponent : Int} (word : digits ≤ 2 ^ 64)
    (negative : exponent < 0) : scaledMagnitude digits exponent < infinity := by
  have small : digits * unitsPerOne ≤ powerOfTwo 1138 * 1 :=
    calc digits * unitsPerOne ≤ powerOfTwo 64 * unitsPerOne := Nat.mul_le_mul_right _ word
      _ = powerOfTwo 1138 * 1 := by rw [unitsPerOne, ← powerOfTwo_add, Nat.mul_one]
  rw [scaledMagnitude, if_pos negative]
  exact lt_infinity_of_units_le (by decide)
    (units_scaleDown_le (units_nearest_le Nat.one_pos small))

/-- Scaling zero down leaves it zero. -/
theorem scaledMagnitude_zero : scaledMagnitude 0 (-1) = 0 := by
  have nothing : ∀ den, nearest 0 den = 0 := by
    intro den
    simp [nearest, roundHalfEven]
  have none : units 0 = 0 := rfl
  have one : (-1 : Int).natAbs ≤ maxPower := by decide
  rw [scaledMagnitude, if_pos (by decide), ofNat, Nat.zero_mul, nothing, scaleDown, if_pos one,
    quotient, none, Nat.zero_mul, nothing]

/-- The largest two magnitudes are scaled to finite numbers, as an evaluation shows. -/
theorem scaledMagnitude_largest : ∀ below < 3, 0 < below →
    scaledMagnitude (shortest (infinity - below)).value (shortest (infinity - below)).exponent
      < infinity := by
  decide +kernel

/-- Every other magnitude has an upper end that leaves room for rounding. -/
theorem high_le {magnitude : Nat} (room : magnitude + 3 ≤ infinity) :
    (Neighbourhood.of magnitude).high ≤ (2 ^ 55 - 10) * powerOfTwo 2045 := by
  have last : infinity = 2047 * 2 ^ 52 := rfl
  obtain ⟨significand, shift, found, below⟩ : ∃ significand shift,
      parts magnitude = (significand, shift) ∧
        (shift ≤ 2044 ∧ significand < 2 ^ 53 ∨ shift = 2045 ∧ significand + 3 ≤ 2 ^ 53) := by
    rcases parts_cases magnitude with
      ⟨subnormal, found⟩ | ⟨shift, significand, same, low, below, found⟩
    · exact ⟨_, _, found, .inl ⟨by decide, by omega⟩⟩
    · exact ⟨_, _, found, by omega⟩
  have high : (Neighbourhood.of magnitude).high = (4 * significand + 2) * powerOfTwo shift := by
    simp only [Neighbourhood.of, found]
  rw [high]
  rcases below with ⟨lower, below⟩ | ⟨rfl, below⟩
  · have sum : 2045 = 1 + 2044 := rfl
    calc (4 * significand + 2) * powerOfTwo shift ≤ (4 * significand + 2) * powerOfTwo 2044 :=
          Nat.mul_le_mul_left _ (powerOfTwo_le lower)
      _ ≤ (2 ^ 55 - 10) * powerOfTwo 1 * powerOfTwo 2044 := by
        refine Nat.mul_le_mul_right _ ?_
        rw [powerOfTwo_eq]
        omega
      _ = (2 ^ 55 - 10) * powerOfTwo 2045 := by rw [sum, powerOfTwo_add, Nat.mul_assoc]
  · exact Nat.mul_le_mul_right _ (by omega)

theorem powerOfTwo_lt_powerOfTen : powerOfTwo 1024 < powerOfTen (maxPower + 1) := by
  decide +kernel

/-- Below the upper end of all neighbourhoods, powers of ten are those that are near some
number. -/
theorem le_maxPower {value power : Nat} (positive : 0 < value)
    (below : 4 * (value * powerOfTen power * unitsPerOne) ≤ (2 ^ 55 - 10) * powerOfTwo 2045) :
    power ≤ maxPower := by
  by_contra far
  have larger : powerOfTen (maxPower + 1) ≤ powerOfTen power :=
    powerOfTen_le (Nat.lt_of_not_le far)
  have four : powerOfTwo 2 = 4 := rfl
  have sum : 55 + 2045 = 2 + (1024 + 1074) := rfl
  have small : 4 * (powerOfTen power * unitsPerOne) ≤ 4 * (powerOfTwo 1024 * unitsPerOne) :=
    calc 4 * (powerOfTen power * unitsPerOne)
        ≤ 4 * (value * powerOfTen power * unitsPerOne) :=
          Nat.mul_le_mul_left 4 (Nat.mul_le_mul_right _ (Nat.le_mul_of_pos_left _ positive))
      _ ≤ (2 ^ 55 - 10) * powerOfTwo 2045 := below
      _ ≤ powerOfTwo 55 * powerOfTwo 2045 := Nat.mul_le_mul_right _ (by decide)
      _ = powerOfTwo 2 * (powerOfTwo 1024 * unitsPerOne) := by
        rw [← powerOfTwo_add, sum, powerOfTwo_add, powerOfTwo_add, unitsPerOne]
      _ = 4 * (powerOfTwo 1024 * unitsPerOne) := by rw [four]
  have small := Nat.le_of_mul_le_mul_left small (by decide)
  have small := Nat.le_of_mul_le_mul_right small unitsPerOne_pos
  exact absurd (larger.trans small) (Nat.not_le_of_lt powerOfTwo_lt_powerOfTen)

/-- **The shortest digits of a finite magnitude are scaled to a finite magnitude.** -/
theorem scaledMagnitude_shortest {magnitude : Nat} (positive : 0 < magnitude)
    (finite : magnitude < infinity) :
    scaledMagnitude (shortest magnitude).value (shortest magnitude).exponent < infinity := by
  have found := found_shortest positive finite
  rcases Int.lt_or_le (shortest magnitude).exponent 0 with negative | natural
  · exact scaledMagnitude_neg (Nat.le_trans found.few (by decide)) negative
  · rcases Nat.lt_or_ge infinity (magnitude + 3) with large | room
    · have last : magnitude = infinity - (infinity - magnitude) := by omega
      rw [last]
      exact scaledMagnitude_largest _ (by omega) (by omega)
    · obtain ⟨power, same⟩ := Int.eq_ofNat_of_zero_le natural
      have below : 4 * ((shortest magnitude).value * powerOfTen power * unitsPerOne)
          ≤ (2 ^ 55 - 10) * powerOfTwo 2045 := by
        have reaches := found.reaches
        have unit : (Neighbourhood.of magnitude).denominator = 4 * unitsPerOne := rfl
        have one : (-(power : Int)).toNat = 0 := by omega
        rw [Reaches, same, Int.toNat_natCast, one, powerOfTen_eq 0, Nat.pow_zero, Nat.mul_one,
          unit, Nat.mul_left_comm] at reaches
        exact Nat.le_trans reaches (high_le room)
      have near : power ≤ maxPower :=
        le_maxPower (Nat.pos_of_ne_zero found.nonzero) below
      rw [scaledMagnitude, same, if_neg (by omega), Int.natAbs_natCast, if_pos near]
      exact product_lt_infinity (Nat.pos_of_ne_zero found.nonzero) below

end Provision.Decimal
