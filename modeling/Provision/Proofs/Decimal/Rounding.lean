import Mathlib.Tactic.Linarith
import Mathlib.Tactic.Ring
import Provision.Decimal.Binary64

/-!
How far rounding can go.

`nearest` rounds a fraction of units to the grid of its *binade*: multiples of `2 ^ binade`
units. The magnitude that comes out is the rounded multiple (`units_nearest`), whatever
binade it ends up in, so bounds on the fraction become bounds on the magnitude.

* `units_nearest_le`, `le_units_nearest` — rounding does not step over a power of two.
* `units_nearest_near` — above the subnormal numbers, rounding up adds at most one part in
  `2 ^ 53`.
* `nearest_lt_infinity` — what lies below the midpoint between the largest finite number and
  the next power of two is rounded to a finite number.
* `scaleDown_lt_infinity`, `product_lt_infinity` — dividing by a power of ten never leaves
  the finite numbers, and multiplying by one does not where the exact product, with room for
  three roundings, lies below that midpoint.
-/

namespace Provision.Decimal

variable {num den bound : Nat}

/-! ### Rounding to a whole number -/

theorem roundHalfEven_le (positive : 0 < den) (h : num ≤ bound * den) :
    roundHalfEven num den ≤ bound := by
  have below : num / den ≤ bound := Nat.div_le_of_le_mul (by rwa [Nat.mul_comm])
  have parts := Nat.div_add_mod' num den
  have last : num / den = bound → num % den = 0 := by
    intro same
    rw [same] at parts
    omega
  unfold roundHalfEven
  simp only
  split
  · exact below
  · have up : num / den + 1 ≤ bound := by
      rcases Nat.lt_or_eq_of_le below with less | same
      · exact less
      · have := last same
        omega
    repeat' split
    all_goals omega

theorem le_roundHalfEven (positive : 0 < den) (h : bound * den ≤ num) :
    bound ≤ roundHalfEven num den := by
  have below : bound ≤ num / den := (Nat.le_div_iff_mul_le positive).mpr h
  unfold roundHalfEven
  simp only
  repeat' split
  all_goals omega

/-- Rounding up adds at most a half. -/
theorem roundHalfEven_near (num : Nat) {den : Nat} (positive : 0 < den) :
    2 * (roundHalfEven num den * den) ≤ 2 * num + den := by
  have parts := Nat.div_add_mod' num den
  have rest := Nat.mod_lt num positive
  have up : (num / den + 1) * den = num / den * den + den := Nat.succ_mul _ _
  unfold roundHalfEven
  simp only
  repeat' split
  all_goals omega

/-- Rounding down takes at most a half. -/
theorem near_roundHalfEven (num : Nat) {den : Nat} (positive : 0 < den) :
    2 * num ≤ 2 * (roundHalfEven num den * den) + den := by
  have parts := Nat.div_add_mod' num den
  have rest := Nat.mod_lt num positive
  have up : (num / den + 1) * den = num / den * den + den := Nat.succ_mul _ _
  unfold roundHalfEven
  simp only
  repeat' split
  all_goals omega

/-! ### Powers of two -/

theorem powerOfTwo_eq (exponent : Nat) : powerOfTwo exponent = 2 ^ exponent := rfl

theorem powerOfTwo_pos (exponent : Nat) : 0 < powerOfTwo exponent := Nat.two_pow_pos exponent

theorem powerOfTwo_add (exponent more : Nat) :
    powerOfTwo (exponent + more) = powerOfTwo exponent * powerOfTwo more :=
  Nat.pow_add 2 exponent more

theorem powerOfTwo_le {exponent larger : Nat} (h : exponent ≤ larger) :
    powerOfTwo exponent ≤ powerOfTwo larger :=
  Nat.pow_le_pow_right (by decide) h

theorem powerOfTwo_lt {exponent larger : Nat} (h : exponent < larger) :
    powerOfTwo exponent < powerOfTwo larger :=
  Nat.pow_lt_pow_right (by decide) h

/-! ### The binade of a fraction -/

/-- The power of two whose multiples a fraction is rounded to. -/
def binade (num den : Nat) : Nat := (num / den).log2 - 52

theorem nearest_eq (num den : Nat) :
    nearest num den
      = binade num den * 2 ^ 52 + roundHalfEven num (den * 2 ^ binade num den) := rfl

theorem scale_pos (positive : 0 < den) (shift : Nat) : 0 < den * 2 ^ shift :=
  Nat.mul_pos positive (Nat.two_pow_pos shift)

/-- A fraction is below `2 ^ 53` multiples of its binade. -/
theorem lt_binade (num : Nat) {den : Nat} (positive : 0 < den) :
    num < 2 ^ 53 * (den * 2 ^ binade num den) := by
  have quotient : num / den < 2 ^ (53 + binade num den) :=
    calc num / den < 2 ^ ((num / den).log2 + 1) := Nat.lt_log2_self
      _ ≤ 2 ^ (53 + binade num den) :=
        Nat.pow_le_pow_right (by decide) (by unfold binade; omega)
  have whole := (Nat.div_lt_iff_lt_mul positive).mp quotient
  rw [Nat.pow_add] at whole
  calc num < 2 ^ 53 * 2 ^ binade num den * den := whole
    _ = 2 ^ 53 * (den * 2 ^ binade num den) := by ring

/-- Except in the lowest binade, a fraction has `2 ^ 52` multiples of its binade. -/
theorem binade_le (positive : 0 < den) :
    binade num den = 0 ∨ 2 ^ 52 * (den * 2 ^ binade num den) ≤ num := by
  rcases Nat.eq_zero_or_pos (binade num den) with lowest | higher
  · exact .inl lowest
  · right
    have nonzero : num / den ≠ 0 := by
      intro zero
      simp [binade, zero] at higher
    have exponent : (num / den).log2 = 52 + binade num den := by
      unfold binade at higher ⊢
      omega
    have quotient : 2 ^ (52 + binade num den) ≤ num / den := exponent ▸ Nat.log2_self_le nonzero
    have whole := (Nat.le_div_iff_mul_le positive).mp quotient
    rw [Nat.pow_add] at whole
    calc 2 ^ 52 * (den * 2 ^ binade num den)
        = 2 ^ 52 * 2 ^ binade num den * den := by ring
      _ ≤ num := whole

/-! ### Bit patterns -/

/-- Bit patterns below `2 ^ 52` are those of the subnormal numbers. -/
theorem parts_subnormal {significand : Nat} (below : significand < 2 ^ 52) :
    parts significand = (significand, 0) :=
  if_pos (Nat.div_eq_of_lt below)

/-- The bit pattern of a normal number stands for its significand and its power of two. -/
theorem parts_normal {significand shift : Nat} (low : 2 ^ 52 ≤ significand)
    (below : significand < 2 ^ 53) :
    parts (shift * 2 ^ 52 + significand) = (significand, shift) := by
  have quotient : (shift * 2 ^ 52 + significand) / powerOfTwo 52 = shift + 1 := by
    rw [powerOfTwo_eq]
    omega
  have rest : powerOfTwo 52 + (shift * 2 ^ 52 + significand) % powerOfTwo 52 = significand := by
    rw [powerOfTwo_eq]
    omega
  unfold parts
  simp only
  rw [rest, if_neg (by rw [quotient]; exact Nat.succ_ne_zero shift), quotient]
  rfl

/-- A bit pattern is that of a subnormal or of a normal number. -/
theorem parts_cases (magnitude : Nat) :
    magnitude < 2 ^ 52 ∧ parts magnitude = (magnitude, 0) ∨
      ∃ shift significand, magnitude = shift * 2 ^ 52 + significand ∧ 2 ^ 52 ≤ significand ∧
        significand < 2 ^ 53 ∧ parts magnitude = (significand, shift) := by
  rcases Nat.lt_or_ge magnitude (2 ^ 52) with subnormal | normal
  · exact .inl ⟨subnormal, parts_subnormal subnormal⟩
  · right
    have low : 2 ^ 52 ≤ 2 ^ 52 + magnitude % 2 ^ 52 := Nat.le_add_right _ _
    have below : 2 ^ 52 + magnitude % 2 ^ 52 < 2 ^ 53 := by omega
    have same : magnitude = (magnitude / 2 ^ 52 - 1) * 2 ^ 52 + (2 ^ 52 + magnitude % 2 ^ 52) := by
      omega
    have found := @parts_normal _ (magnitude / 2 ^ 52 - 1) low below
    rw [← same] at found
    exact ⟨_, _, same, low, below, found⟩

theorem units_of_parts {magnitude significand shift : Nat}
    (h : parts magnitude = (significand, shift)) : units magnitude = significand * 2 ^ shift := by
  unfold units
  rw [h]
  rfl

/-- A significand has its place behind those of the binades below, one beyond the last at
the start of the next binade. -/
theorem units_place {significand shift : Nat} (high : significand ≤ 2 ^ 53)
    (normal : shift = 0 ∨ 2 ^ 52 ≤ significand) :
    units (shift * 2 ^ 52 + significand) = significand * 2 ^ shift := by
  have apart : significand < 2 ^ 52 ∨ (2 ^ 52 ≤ significand ∧ significand < 2 ^ 53)
      ∨ significand = 2 ^ 53 := by omega
  rcases apart with subnormal | ⟨low, below⟩ | rfl
  · obtain rfl : shift = 0 := by omega
    rw [Nat.zero_mul, Nat.zero_add]
    exact units_of_parts (parts_subnormal subnormal)
  · exact units_of_parts (parts_normal low below)
  · have next : shift * 2 ^ 52 + 2 ^ 53 = (shift + 1) * 2 ^ 52 + 2 ^ 52 := by omega
    rw [next, units_of_parts (parts_normal (Nat.le_refl _) (by decide))]
    ring

/-- **The magnitude of a rounded fraction** is the multiple of the binade it was rounded to,
also where rounding up reached the next binade. -/
theorem units_nearest (num : Nat) {den : Nat} (positive : 0 < den) :
    units (nearest num den)
      = roundHalfEven num (den * 2 ^ binade num den) * 2 ^ binade num den := by
  have scale := scale_pos positive (binade num den)
  rw [nearest_eq]
  refine units_place (roundHalfEven_le scale (lt_binade num positive).le) ?_
  refine (binade_le positive).imp_right ?_
  intro normal
  exact le_roundHalfEven scale normal

/-! ### Bounds on a rounded fraction -/

theorem units_nearest_le (positive : 0 < den) {exponent : Nat}
    (h : num ≤ powerOfTwo exponent * den) : units (nearest num den) ≤ powerOfTwo exponent := by
  rw [powerOfTwo_eq] at h ⊢
  have small : binade num den ≤ exponent := by
    rcases @binade_le num den positive with lowest | normal
    · rw [lowest]
      exact Nat.zero_le _
    · have powers : 2 ^ binade num den * den ≤ 2 ^ exponent * den :=
        calc 2 ^ binade num den * den ≤ 2 ^ 52 * (den * 2 ^ binade num den) := by
              rw [Nat.mul_comm]
              exact Nat.le_mul_of_pos_left _ (by decide)
          _ ≤ num := normal
          _ ≤ 2 ^ exponent * den := h
      exact (Nat.pow_le_pow_iff_right (by decide)).mp (Nat.le_of_mul_le_mul_right powers positive)
  obtain ⟨more, rfl⟩ := Nat.exists_eq_add_of_le small
  have rounded : roundHalfEven num (den * 2 ^ binade num den) ≤ 2 ^ more := by
    refine roundHalfEven_le (scale_pos positive _) ?_
    calc num ≤ 2 ^ (binade num den + more) * den := h
      _ = 2 ^ more * (den * 2 ^ binade num den) := by ring
  rw [units_nearest num positive, Nat.pow_add, Nat.mul_comm (2 ^ binade num den)]
  exact Nat.mul_le_mul_right _ rounded

theorem le_units_nearest (positive : 0 < den) {exponent : Nat}
    (h : powerOfTwo exponent * den ≤ num) : powerOfTwo exponent ≤ units (nearest num den) := by
  rw [powerOfTwo_eq] at h ⊢
  -- the larger of the two powers of two is below the fraction and on the grid
  have larger : 2 ^ max exponent (binade num den) * den ≤ num := by
    rcases Nat.le_total (binade num den) exponent with coarse | fine
    · rwa [Nat.max_eq_left coarse]
    · rw [Nat.max_eq_right fine]
      rcases @binade_le num den positive with lowest | normal
      · obtain rfl : exponent = 0 := by omega
        rwa [lowest]
      · calc 2 ^ binade num den * den ≤ 2 ^ 52 * (den * 2 ^ binade num den) := by
              rw [Nat.mul_comm]
              exact Nat.le_mul_of_pos_left _ (by decide)
          _ ≤ num := normal
  obtain ⟨more, same⟩ := Nat.exists_eq_add_of_le (Nat.le_max_right exponent (binade num den))
  have rounded : 2 ^ more ≤ roundHalfEven num (den * 2 ^ binade num den) := by
    refine le_roundHalfEven (scale_pos positive _) ?_
    calc 2 ^ more * (den * 2 ^ binade num den) = 2 ^ (binade num den + more) * den := by ring
      _ ≤ num := same ▸ larger
  rw [units_nearest num positive]
  calc 2 ^ exponent ≤ 2 ^ (binade num den + more) :=
        Nat.pow_le_pow_right (by decide) (same ▸ Nat.le_max_left ..)
    _ = 2 ^ more * 2 ^ binade num den := by ring
    _ ≤ _ := Nat.mul_le_mul_right _ rounded

/-- A fraction of many units is rounded up by at most one part in `2 ^ 53`. -/
theorem units_nearest_near (positive : 0 < den) (large : 2 ^ 52 * den ≤ num) :
    2 ^ 53 * (units (nearest num den) * den) ≤ (2 ^ 53 + 1) * num := by
  have near := roundHalfEven_near num (scale_pos positive (binade num den))
  have grid : 2 ^ 52 * (den * 2 ^ binade num den) ≤ num := by
    rcases @binade_le num den positive with lowest | normal
    · simpa [lowest] using large
    · exact normal
  rw [units_nearest num positive]
  calc 2 ^ 53 * (roundHalfEven num (den * 2 ^ binade num den) * 2 ^ binade num den * den)
      = 2 ^ 52 * (2 * (roundHalfEven num (den * 2 ^ binade num den)
          * (den * 2 ^ binade num den))) := by ring
    _ ≤ 2 ^ 52 * (2 * num + den * 2 ^ binade num den) := Nat.mul_le_mul_left _ near
    _ ≤ (2 ^ 53 + 1) * num := by omega

/-- Below the midpoint behind the largest finite number, a fraction is rounded to a finite
one. -/
theorem nearest_lt_infinity (positive : 0 < den)
    (below : 2 * num < (2 ^ 54 - 1) * (den * powerOfTwo 2045)) : nearest num den < infinity := by
  have last : infinity = 2045 * 2 ^ 52 + 2 ^ 53 := rfl
  have small : binade num den ≤ 2045 := by
    by_contra large
    rcases @binade_le num den positive with lowest | normal
    · omega
    · obtain ⟨more, same⟩ : ∃ more, binade num den = more + 1 :=
        ⟨binade num den - 1, by omega⟩
      have power : powerOfTwo 2045 ≤ 2 ^ more := powerOfTwo_le (by omega)
      have scaled := Nat.mul_le_mul_left den power
      have double : den * 2 ^ (more + 1) = 2 * (den * 2 ^ more) := by ring
      rw [same, double] at normal
      omega
  have rounded := roundHalfEven_le (scale_pos positive (binade num den)) (lt_binade num positive).le
  rw [nearest_eq, last]
  rcases Nat.lt_or_eq_of_le small with lower | top
  · omega
  · have near := roundHalfEven_near num (scale_pos positive (binade num den))
    rw [← powerOfTwo_eq (binade num den), top] at near ⊢
    have less : roundHalfEven num (den * powerOfTwo 2045) < 2 ^ 53 := by
      by_contra many
      have multiple := Nat.mul_le_mul_right (den * powerOfTwo 2045) (Nat.le_of_not_lt many)
      omega
    omega

/-! ### Scaling by powers of ten -/

theorem unitsPerOne_pos : 0 < unitsPerOne := powerOfTwo_pos 1074

theorem powerOfTen_pos (exponent : Nat) : 0 < powerOfTen exponent := Nat.pow_pos (by decide)

/-- A whole number is rounded up by at most one part in `2 ^ 53`. -/
theorem units_ofNat_near {n : Nat} (positive : 0 < n) :
    2 ^ 53 * units (ofNat n) ≤ (2 ^ 53 + 1) * (n * unitsPerOne) := by
  have large : powerOfTwo 52 * 1 ≤ n * unitsPerOne :=
    calc powerOfTwo 52 * 1 = powerOfTwo 52 := Nat.mul_one _
      _ ≤ unitsPerOne := powerOfTwo_le (by decide)
      _ ≤ n * unitsPerOne := Nat.le_mul_of_pos_left _ positive
  have near := units_nearest_near Nat.one_pos large
  rwa [Nat.mul_one] at near

/-- Nothing but zero is rounded below one. -/
theorem unitsPerOne_le_ofNat {n : Nat} (positive : 0 < n) : unitsPerOne ≤ units (ofNat n) := by
  refine le_units_nearest Nat.one_pos ?_
  rw [Nat.mul_one]
  exact Nat.le_mul_of_pos_left _ positive

/-- A quotient by at least one stays below a power of two. -/
theorem units_quotient_le {x y exponent : Nat} (one : unitsPerOne ≤ units y)
    (small : units x ≤ powerOfTwo exponent) : units (quotient x y) ≤ powerOfTwo exponent :=
  units_nearest_le (Nat.lt_of_lt_of_le unitsPerOne_pos one) (Nat.mul_le_mul small one)

theorem units_scaleDown_le {magnitude power exponent : Nat}
    (small : units magnitude ≤ powerOfTwo exponent) :
    units (scaleDown magnitude power) ≤ powerOfTwo exponent := by
  fun_induction scaleDown magnitude power with
  | case1 magnitude power near =>
      exact units_quotient_le (unitsPerOne_le_ofNat (powerOfTen_pos power)) small
  | case2 power far => exact Nat.zero_le _
  | case3 magnitude power far nonzero ih =>
      exact ih (units_quotient_le (unitsPerOne_le_ofNat (powerOfTen_pos maxPower)) small)

/-- What is not finite has more units than any power of two that is. -/
theorem lt_infinity_of_units_le {magnitude exponent : Nat} (finite : exponent < 2098)
    (small : units magnitude ≤ powerOfTwo exponent) : magnitude < infinity := by
  by_contra beyond
  have last : infinity = 2047 * 2 ^ 52 := rfl
  rcases parts_cases magnitude with ⟨subnormal, -⟩ | ⟨shift, significand, same, low, below, found⟩
  · omega
  have high : 2046 ≤ shift := by omega
  rw [units_of_parts found] at small
  have more : powerOfTwo 2098 ≤ powerOfTwo exponent :=
    calc powerOfTwo 2098 ≤ powerOfTwo (52 + shift) := powerOfTwo_le (by omega)
      _ = 2 ^ 52 * 2 ^ shift := Nat.pow_add 2 52 shift
      _ ≤ significand * 2 ^ shift := Nat.mul_le_mul_right _ low
      _ ≤ powerOfTwo exponent := small
  exact absurd more (Nat.not_le_of_lt (powerOfTwo_lt finite))

/-- The product of a whole number and a power of ten is finite, if the exact product is some
units away from the midpoint behind the largest finite number: the factors are rounded up by
one part in `2 ^ 53` each. -/
theorem product_lt_infinity {n power : Nat} (positive : 0 < n)
    (below : 4 * (n * powerOfTen power * unitsPerOne) ≤ (2 ^ 55 - 10) * powerOfTwo 2045) :
    product (ofNat n) (ofNat (powerOfTen power)) < infinity := by
  refine nearest_lt_infinity unitsPerOne_pos ?_
  have factors := Nat.mul_le_mul (units_ofNat_near positive)
    (units_ofNat_near (powerOfTen_pos power))
  have room := Nat.mul_le_mul_right unitsPerOne below
  have nonzero : 0 < unitsPerOne * powerOfTwo 2045 :=
    Nat.mul_pos unitsPerOne_pos (powerOfTwo_pos 2045)
  generalize units (ofNat n) = x at *
  generalize units (ofNat (powerOfTen power)) = y at *
  generalize unitsPerOne = unit at *
  generalize powerOfTwo 2045 = top at *
  have factors : 2 ^ 106 * (x * y) ≤ (2 ^ 53 + 1) ^ 2 * (n * powerOfTen power * unit * unit) :=
    calc 2 ^ 106 * (x * y) = 2 ^ 53 * x * (2 ^ 53 * y) := by ring
      _ ≤ _ := factors
      _ = (2 ^ 53 + 1) ^ 2 * (n * powerOfTen power * unit * unit) := by ring
  have room : 4 * (n * powerOfTen power * unit * unit) ≤ (2 ^ 55 - 10) * (unit * top) :=
    calc 4 * (n * powerOfTen power * unit * unit)
        = 4 * (n * powerOfTen power * unit) * unit := by ring
      _ ≤ (2 ^ 55 - 10) * top * unit := room
      _ = (2 ^ 55 - 10) * (unit * top) := by ring
  generalize n * powerOfTen power * unit * unit = exact at *
  omega

end Provision.Decimal
