import Mathlib.Data.Rat.Floor
import ColumnScan.Proofs.Decimal.Order

/-!
# The parts of a decimal

A decimal is its integer part and the digits after its point, and both have its sign. Rounding it
gives the nearest integer, and a smaller scale drops digits. None of this computes a word beyond 128
bits.
-/

set_option autoImplicit false

namespace ColumnScan

/-- The integer that remains of a number when its fraction is dropped. -/
def towardZero (number : ℚ) : ℤ := if 0 ≤ number then ⌊number⌋ else ⌈number⌉

/-- No integer is closer to the number, and none that is as close is farther from zero. -/
structure IsNearest (number : ℚ) (integer : ℤ) : Prop where
  nearest : ∀ other : ℤ, |number - integer| ≤ |number - other|
  away : ∀ other : ℤ, |number - other| = |number - integer| → |other| ≤ |integer|

theorem towardZero_div (value : ℤ) (divisor : Nat) :
    towardZero (value / divisor) = value.tdiv divisor := by
  unfold towardZero
  rcases le_or_gt 0 value with nonneg | negative
  · have number : (0 : ℚ) ≤ value / divisor :=
      div_nonneg (Int.cast_nonneg nonneg) (Nat.cast_nonneg divisor)
    rw [if_pos number, Rat.floor_intCast_div_natCast, Int.tdiv_eq_ediv_of_nonneg nonneg]
  · have opposite : -(value / divisor : ℚ) = ((-value : ℤ) : ℚ) / divisor := by
      rw [Int.cast_neg, neg_div]
    have ceiling : ⌈(value / divisor : ℚ)⌉ = value.tdiv divisor := by
      rw [← neg_inj, ← Int.floor_neg, opposite, Rat.floor_intCast_div_natCast,
        ← Int.tdiv_eq_ediv_of_nonneg (by omega), Int.neg_tdiv]
    split
    next number =>
      -- Only a zero divisor makes the quotient of a negative value nonnegative.
      have zero : (value / divisor : ℚ) = 0 :=
        le_antisymm (div_nonpos_of_nonpos_of_nonneg (Int.cast_nonpos.mpr negative.le)
          (Nat.cast_nonneg divisor)) number
      rw [← ceiling, zero, Int.floor_zero, Int.ceil_zero]
    next => exact ceiling

namespace IsNearest

variable {number : ℚ} {integer other : ℤ}

/-- Two integers are at least one apart, and so are their distances from a number in sum. -/
theorem one_le_add_distances (number : ℚ) (different : other ≠ integer) :
    1 ≤ |number - other| + |number - integer| := by
  have apart : (1 : ℚ) ≤ |(other : ℚ) - integer| := by
    exact_mod_cast Int.one_le_abs (sub_ne_zero.mpr different)
  have triangle := abs_sub_le (other : ℚ) number integer
  rw [abs_sub_comm (other : ℚ) number] at triangle
  exact apart.trans triangle

theorem of_close (close : |number - integer| ≤ 1 / 2)
    (tie : |number - integer| = 1 / 2 → |(integer : ℚ)| = |number| + 1 / 2) :
    IsNearest number integer := by
  constructor
  · intro other
    rcases eq_or_ne other integer with rfl | different
    · exact le_rfl
    · linarith [one_le_add_distances number different]
  · intro other same
    rcases eq_or_ne other integer with rfl | different
    · exact le_rfl
    · have half : |number - integer| = 1 / 2 := by
        linarith [one_le_add_distances number different]
      have triangle := abs_sub_abs_le_abs_sub (other : ℚ) number
      rw [abs_sub_comm (other : ℚ) number, same, half] at triangle
      have farther : |(other : ℚ)| ≤ |(integer : ℚ)| := by linarith [tie half]
      exact_mod_cast farther

theorem unique (first : IsNearest number integer) (second : IsNearest number other) :
    other = integer := by
  have distance := le_antisymm (second.nearest integer) (first.nearest other)
  have magnitude := le_antisymm (first.away other distance) (second.away integer distance.symm)
  rcases abs_eq_abs.mp magnitude with same | opposite
  · exact same
  · -- A number as close to an integer as to its opposite is zero, and so is the integer.
    have zero : integer = 0 := by
      by_contra nonzero
      rw [opposite, Int.cast_neg, sub_neg_eq_add, abs_eq_abs] at distance
      have nearest := first.nearest 0
      rcases distance with equal | equal
      · have cast : (integer : ℚ) ≠ 0 := Int.cast_ne_zero.mpr nonzero
        exact cast (by linarith)
      · have origin : number = 0 := by linarith
        rw [origin, Int.cast_zero, sub_zero, abs_zero, zero_sub, abs_neg] at nearest
        exact nonzero (by exact_mod_cast abs_nonpos_iff.mp nearest)
    rw [opposite, zero, neg_zero]

end IsNearest

namespace Decimal

variable {decimal : Decimal}

theorem mul_value_fractionalPart_nonneg (decimal : Decimal) :
    0 ≤ decimal.fractionalPart * decimal.value := by
  rcases le_total 0 decimal.value with nonneg | nonpos
  · exact mul_nonneg (Int.tmod_nonneg _ nonneg) nonneg
  · have opposite := Int.tmod_nonneg (powerOfTen decimal.scale : Int)
      (Int.neg_nonneg_of_nonpos nonpos)
    rw [Int.neg_tmod] at opposite
    exact mul_nonneg_of_nonpos_of_nonpos (Int.neg_nonneg.mp opposite) nonpos

section Rounding

/-- A power of ten is even unless it is one. -/
theorem powerOfTen_eq_two_mul {exponent : Nat} (positive : exponent ≠ 0) :
    (powerOfTen exponent : Int) = 2 * (powerOfTen exponent / 2) := by
  obtain ⟨less, rfl⟩ := Nat.exists_eq_add_one_of_ne_zero positive
  rw [powerOfTen_succ]
  omega

/-- With a digit after the point the digits are compared with half of their scale. -/
theorem half_le_fraction_iff (positive : decimal.scale ≠ 0) :
    (1 / 2 ≤ decimal.fraction ↔ (powerOfTen decimal.scale / 2 : Int) ≤ decimal.fractionalPart) ∧
    (decimal.fraction ≤ -(1 / 2) ↔
      decimal.fractionalPart ≤ -(powerOfTen decimal.scale / 2 : Int)) := by
  have even : (powerOfTen decimal.scale : ℚ) = 2 * ((powerOfTen decimal.scale / 2 : Int) : ℚ) := by
    exact_mod_cast congrArg (Int.cast : ℤ → ℚ) (powerOfTen_eq_two_mul positive)
  have denominator := denominator_pos decimal
  have half : (1 : ℚ) / 2 * powerOfTen decimal.scale =
      ((powerOfTen decimal.scale / 2 : Int) : ℚ) := by
    rw [even]
    ring
  constructor
  · rw [fraction, le_div_iff₀ denominator, half, Int.cast_le]
  · rw [fraction, div_le_iff₀ denominator, neg_mul, half, ← Int.cast_neg, Int.cast_le]

theorem toRat_sign (decimal : Decimal) : 0 ≤ decimal.fraction * decimal.toRat := by
  have digits : (0 : ℚ) ≤ decimal.fractionalPart * decimal.value := by
    exact_mod_cast mul_value_fractionalPart_nonneg decimal
  rw [fraction, toRat_eq_div, div_mul_div_comm]
  exact div_nonneg digits (mul_nonneg (denominator_pos decimal).le (denominator_pos decimal).le)

theorem isNearest_roundedIntegralPart (decimal : Decimal) :
    IsNearest decimal.toRat decimal.roundedIntegralPart := by
  unfold roundedIntegralPart
  split
  next integral =>
    have number : decimal.toRat = decimal.value := by
      rw [toRat, integral, pow_zero, div_one]
    refine IsNearest.of_close ?_ fun tie => ?_
    · rw [number, sub_self, abs_zero]
      norm_num
    · rw [number, sub_self, abs_zero] at tie
      norm_num at tie
  next positive =>
    obtain ⟨upper, lower⟩ := half_le_fraction_iff positive
    have parts := toRat_eq_parts decimal
    have sign := toRat_sign decimal
    dsimp only
    split
    next high =>
      have digits := upper.mpr high
      have below := fraction_lt_one decimal
      have nonneg : 0 ≤ decimal.toRat := nonneg_of_mul_nonneg_right sign (by linarith)
      have distance : |decimal.toRat - (decimal.integralPart + 1 : ℤ)| = 1 - decimal.fraction := by
        rw [parts, Int.cast_add, Int.cast_one, abs_of_neg (by linarith)]
        ring
      refine IsNearest.of_close (by linarith) fun tie => ?_
      rw [Int.cast_add, Int.cast_one, abs_of_nonneg nonneg, abs_of_nonneg (by linarith)]
      linarith
    next notHigh =>
      split
      next low =>
        have digits := lower.mpr low
        have above := neg_one_lt_fraction decimal
        have nonpos : decimal.toRat ≤ 0 := by
          by_contra positive
          have product := mul_neg_of_neg_of_pos (by linarith : decimal.fraction < 0)
            (lt_of_not_ge positive)
          linarith
        have distance :
            |decimal.toRat - (decimal.integralPart - 1 : ℤ)| = decimal.fraction + 1 := by
          rw [parts, Int.cast_sub, Int.cast_one, abs_of_pos (by linarith)]
          ring
        refine IsNearest.of_close (by linarith) fun tie => ?_
        rw [Int.cast_sub, Int.cast_one, abs_of_nonpos nonpos, abs_of_nonpos (by linarith)]
        linarith
      next notLow =>
        have below : decimal.fraction < 1 / 2 :=
          lt_of_not_ge fun digits => notHigh (upper.mp digits)
        have above : -(1 / 2) < decimal.fraction :=
          lt_of_not_ge fun digits => notLow (lower.mp digits)
        have close : |decimal.toRat - decimal.integralPart| < 1 / 2 := by
          rw [parts, add_sub_cancel_left]
          exact abs_lt.mpr ⟨above, below⟩
        exact IsNearest.of_close close.le fun tie => absurd tie close.ne

end Rounding

section Words

/-- What taking a decimal apart and rounding it computes: the power of ten and its halves, and the
results. -/
def partWords (decimal : Decimal) : List Int :=
  [powerOfTen decimal.scale, decimal.integralPart, decimal.fractionalPart,
    powerOfTen decimal.scale / 2, -(powerOfTen decimal.scale / 2), decimal.roundedIntegralPart]

/-- What dropping digits computes: the power of ten and the quotient. -/
def shrunkWords (decimal : Decimal) (scale : Nat) : List Int :=
  [powerOfTen (decimal.scale - scale), decimal.value.tdiv (powerOfTen (decimal.scale - scale))]

theorem rescale_of_lt {scale : Nat} (allowed : decimal.scale ≤ maxDigits)
    (shrinks : scale < decimal.scale) :
    decimal.rescale scale =
      .ok { decimal with
        value := towardZero (decimal.value / 10 ^ (decimal.scale - scale))
        scale } := by
  have quotient := towardZero_div decimal.value (powerOfTen (decimal.scale - scale))
  rw [cast_powerOfTen] at quotient
  unfold rescale
  rw [if_neg (by omega), if_neg (by omega), quotient]

theorem fits_half {exponent : Nat} (allowed : exponent ≤ maxDigits) :
    DecimalStorage.wide.Fits (powerOfTen exponent) ∧
      DecimalStorage.wide.Fits (powerOfTen exponent / 2) ∧
      DecimalStorage.wide.Fits (-(powerOfTen exponent / 2)) := by
  have bound := powerOfTen_le allowed
  have greatest : powerOfTen maxDigits = 100000000000000000000000000000000000000 := rfl
  simp only [DecimalStorage.Fits, DecimalStorage.null, DecimalStorage.greatest]
  omega

/-- Rounding adds at most one to the magnitude of a quotient by ten or more. -/
theorem fits_roundedIntegralPart (fits : DecimalStorage.wide.Fits decimal.value) :
    DecimalStorage.wide.Fits decimal.roundedIntegralPart := by
  unfold roundedIntegralPart
  split
  next => exact fits
  next positive =>
    have divisor : 10 ≤ powerOfTen decimal.scale := powerOfTen_le (Nat.pos_of_ne_zero positive)
    have magnitude : decimal.integralPart.natAbs ≤ decimal.value.natAbs / 10 := by
      rw [integralPart, Int.natAbs_tdiv, Int.natAbs_natCast]
      exact Nat.div_le_div_left divisor (by decide)
    simp only [DecimalStorage.Fits, DecimalStorage.null, DecimalStorage.greatest] at fits ⊢
    split
    next => omega
    next => split <;> omega

theorem fits_partWords (fits : DecimalStorage.wide.Fits decimal.value)
    (allowed : decimal.scale ≤ maxDigits) :
    ∀ word ∈ decimal.partWords, DecimalStorage.wide.Fits word := by
  obtain ⟨power, half, opposite⟩ := fits_half allowed
  have digits : decimal.fractionalPart.natAbs < powerOfTen maxDigits :=
    Nat.lt_of_lt_of_le (natAbs_fractionalPart_lt decimal) (powerOfTen_le allowed)
  simp only [partWords, List.forall_mem_cons]
  exact ⟨power, fits_integralPart fits, fits_of_natAbs_lt digits, half, opposite,
    fits_roundedIntegralPart fits, nofun⟩

theorem fits_shrunkWords (fits : DecimalStorage.wide.Fits decimal.value)
    (allowed : decimal.scale ≤ maxDigits) (scale : Nat) :
    ∀ word ∈ decimal.shrunkWords scale, DecimalStorage.wide.Fits word := by
  obtain ⟨power, _⟩ := fits_half (Nat.le_trans (Nat.sub_le decimal.scale scale) allowed)
  -- Dropping digits is taking the integer part at the scale of these digits.
  let dropped : Decimal := { decimal with scale := decimal.scale - scale }
  have quotient : DecimalStorage.wide.Fits dropped.integralPart := fits_integralPart fits
  simp only [shrunkWords, List.forall_mem_cons]
  exact ⟨power, quotient, nofun⟩

end Words

/-- The value is its integer part at the scale of the decimal and its fractional part, which is a
fraction and never has the opposite sign. The rounded integer part is the nearest integer, and of
two such integers the one farther from zero. A smaller scale truncates toward zero. From a value of
128 bits and a scale that is allowed, nothing is computed beyond 128 bits. -/
theorem parts_exact (fits : DecimalStorage.wide.Fits decimal.value)
    (allowed : decimal.scale ≤ maxDigits) :
    decimal.integralPart * powerOfTen decimal.scale + decimal.fractionalPart = decimal.value ∧
    decimal.fractionalPart.natAbs < powerOfTen decimal.scale ∧
    0 ≤ decimal.fractionalPart * decimal.value ∧
    (∀ integer, IsNearest decimal.toRat integer ↔ integer = decimal.roundedIntegralPart) ∧
    (∀ scale < decimal.scale, decimal.rescale scale =
      .ok { decimal with
        value := towardZero (decimal.value / 10 ^ (decimal.scale - scale))
        scale }) ∧
    (∀ word ∈ decimal.partWords, DecimalStorage.wide.Fits word) ∧
    ∀ scale < decimal.scale, ∀ word ∈ decimal.shrunkWords scale, DecimalStorage.wide.Fits word := by
  refine ⟨(value_eq_parts decimal).symm, natAbs_fractionalPart_lt decimal,
    mul_value_fractionalPart_nonneg decimal, fun integer => ?_, fun scale shrinks => ?_,
    fits_partWords fits allowed, fun scale _ => fits_shrunkWords fits allowed scale⟩
  · have rounded := isNearest_roundedIntegralPart decimal
    constructor
    · exact rounded.unique
    · rintro rfl
      exact rounded
  · exact rescale_of_lt allowed shrinks

/-- The least word is rounded away from zero, and so is a negative tie. -/
theorem parts_exact_least :
    let least : Decimal := ⟨DecimalStorage.wide.null, 1, 38⟩
    let tie : Decimal := ⟨-125, 1, 3⟩
    (DecimalStorage.wide.Fits least.value ∧ least.scale ≤ maxDigits) ∧
    (DecimalStorage.wide.Fits tie.value ∧ tie.scale ≤ maxDigits) ∧
    least.integralPart * 10 + least.fractionalPart = least.value ∧ least.fractionalPart = -8 ∧
    IsNearest least.toRat (-17014118346046923173168730371588410573) ∧
    IsNearest tie.toRat (-13) ∧ ¬IsNearest tie.toRat (-12) ∧
    tie.rescale 0 = .ok ⟨towardZero (-125 / 10 ^ 1), 0, 3⟩ ∧
    ∀ word ∈ least.partWords, DecimalStorage.wide.Fits word := by
  intro least tie
  have leastFits : DecimalStorage.wide.Fits least.value ∧ least.scale ≤ maxDigits := by decide
  have tieFits : DecimalStorage.wide.Fits tie.value ∧ tie.scale ≤ maxDigits := by decide
  obtain ⟨parts, _, _, nearest, _, words, _⟩ := parts_exact leastFits.1 leastFits.2
  obtain ⟨_, _, _, rounds, shrinks, _, _⟩ := parts_exact tieFits.1 tieFits.2
  refine ⟨leastFits, tieFits, parts, by decide, (nearest _).mpr (by decide),
    (rounds _).mpr (by decide), fun wrong => absurd ((rounds _).mp wrong) (by decide), ?_, words⟩
  exact_mod_cast shrinks 0 (by decide)

end Decimal

end ColumnScan
