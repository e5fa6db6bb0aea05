import Mathlib.Algebra.Order.Field.Basic
import Mathlib.Algebra.Order.Field.Rat
import Mathlib.Algebra.Order.Ring.Cast
import Mathlib.Order.Compare
import Mathlib.Tactic.Linarith
import ColumnScan.Decimal.Basic

/-!
# The numeric order of decimals

A decimal denotes a rational number, and comparison is the order of these numbers. It works on
integer parts and fractional digits, so no word that it computes leaves 128 bits.
-/

set_option autoImplicit false

namespace ColumnScan

theorem powerOfTen_zero : powerOfTen 0 = 1 := rfl

theorem powerOfTen_pos (exponent : Nat) : 0 < powerOfTen exponent := Nat.pow_pos (by decide)

theorem powerOfTen_le {exponent bound : Nat} (below : exponent ≤ bound) :
    powerOfTen exponent ≤ powerOfTen bound := Nat.pow_le_pow_right (by decide) below

theorem powerOfTen_add (first second : Nat) :
    powerOfTen (first + second) = powerOfTen first * powerOfTen second := Nat.pow_add 10 first second

theorem powerOfTen_succ (exponent : Nat) : powerOfTen (exponent + 1) = 10 * powerOfTen exponent := by
  rw [Nat.add_comm, powerOfTen_add]
  rfl

theorem cast_powerOfTen (exponent : Nat) : (powerOfTen exponent : ℚ) = 10 ^ exponent := by
  unfold powerOfTen
  exact_mod_cast rfl

namespace Decimal

def toRat (decimal : Decimal) : ℚ := decimal.value / 10 ^ decimal.scale

def fraction (decimal : Decimal) : ℚ := decimal.fractionalPart / powerOfTen decimal.scale

section Parts

variable (decimal : Decimal)

theorem denominator_pos : (0 : ℚ) < powerOfTen decimal.scale :=
  Nat.cast_pos.mpr (powerOfTen_pos decimal.scale)

theorem value_eq_parts :
    decimal.value = decimal.integralPart * powerOfTen decimal.scale + decimal.fractionalPart :=
  (Int.tdiv_mul_add_tmod decimal.value (powerOfTen decimal.scale)).symm

theorem toRat_eq_div : decimal.toRat = decimal.value / powerOfTen decimal.scale := by
  rw [toRat, cast_powerOfTen]

theorem toRat_eq_parts : decimal.toRat = decimal.integralPart + decimal.fraction := by
  have denominator := (denominator_pos decimal).ne'
  have parts : (decimal.value : ℚ) =
      decimal.integralPart * powerOfTen decimal.scale + decimal.fractionalPart := by
    exact_mod_cast value_eq_parts decimal
  rw [toRat_eq_div, fraction, parts, add_div, mul_div_cancel_right₀ _ denominator]

theorem natAbs_fractionalPart_lt : decimal.fractionalPart.natAbs < powerOfTen decimal.scale := by
  rw [fractionalPart, Int.natAbs_tmod, Int.natAbs_natCast]
  exact Nat.mod_lt _ (powerOfTen_pos decimal.scale)

theorem fraction_lt_one : decimal.fraction < 1 := by
  have below : decimal.fractionalPart < powerOfTen decimal.scale := by
    have magnitude := natAbs_fractionalPart_lt decimal
    omega
  rw [fraction, div_lt_one (denominator_pos decimal)]
  exact_mod_cast below

theorem neg_one_lt_fraction : -1 < decimal.fraction := by
  have above : -(powerOfTen decimal.scale : Int) < decimal.fractionalPart := by
    have magnitude := natAbs_fractionalPart_lt decimal
    omega
  rw [fraction, lt_div_iff₀ (denominator_pos decimal), neg_one_mul]
  exact_mod_cast above

end Parts

section Signs

variable {decimal : Decimal}

/-- A negative value has no positive integer part. -/
theorem fraction_nonneg_of_integralPart_pos (positive : 0 < decimal.integralPart) :
    0 ≤ decimal.fraction := by
  have value : 0 ≤ decimal.value := by
    by_contra negative
    have opposite := Int.tdiv_nonneg (a := -decimal.value) (by omega)
      (Int.natCast_nonneg (powerOfTen decimal.scale))
    rw [Int.neg_tdiv] at opposite
    simp only [integralPart] at positive
    omega
  have digits : 0 ≤ decimal.fractionalPart := Int.tmod_nonneg _ value
  exact div_nonneg (Int.cast_nonneg digits) (denominator_pos decimal).le

theorem fraction_nonpos_of_integralPart_neg (negative : decimal.integralPart < 0) :
    decimal.fraction ≤ 0 := by
  have value : 0 ≤ -decimal.value := by
    by_contra positive
    have quotient := Int.tdiv_nonneg (a := decimal.value) (by omega)
      (Int.natCast_nonneg (powerOfTen decimal.scale))
    simp only [integralPart] at negative
    omega
  have digits : decimal.fractionalPart ≤ 0 := by
    have opposite := Int.tmod_nonneg (powerOfTen decimal.scale : Int) value
    rw [Int.neg_tmod] at opposite
    exact Int.neg_nonneg.mp opposite
  exact div_nonpos_of_nonpos_of_nonneg (Int.cast_nonpos.mpr digits) (denominator_pos decimal).le

end Signs

variable {left right : Decimal}

/-- Integer parts that differ decide, although a fraction may be negative. -/
theorem toRat_lt_of_integralPart_lt (less : left.integralPart < right.integralPart) :
    left.toRat < right.toRat := by
  have apart : (left.integralPart : ℚ) + 1 ≤ right.integralPart := by exact_mod_cast less
  rw [toRat_eq_parts left, toRat_eq_parts right]
  rcases lt_or_ge 0 right.integralPart with positive | nonpositive
  · have fraction := fraction_nonneg_of_integralPart_pos positive
    linarith [fraction_lt_one left]
  · have fraction := fraction_nonpos_of_integralPart_neg (lt_of_lt_of_le less nonpositive)
    linarith [neg_one_lt_fraction right]

/-- The fractional digits, filled up to the larger scale, stand in the order of the fractions. -/
theorem cmp_fraction :
    cmp left.fraction right.fraction =
      cmp (left.fractionalPart * powerOfTen (right.scale - left.scale))
        (right.fractionalPart * powerOfTen (left.scale - right.scale)) := by
  have scales : left.scale + (right.scale - left.scale) =
      right.scale + (left.scale - right.scale) := by omega
  have filled : ∀ (decimal : Decimal) (zeros : Nat),
      decimal.fraction * powerOfTen (decimal.scale + zeros) =
        ((decimal.fractionalPart * powerOfTen zeros : Int) : ℚ) := by
    intro decimal zeros
    have denominator := (denominator_pos decimal).ne'
    rw [fraction, powerOfTen_add, Nat.cast_mul, ← mul_assoc, div_mul_cancel₀ _ denominator]
    push_cast
    rfl
  have positive : (0 : ℚ) < powerOfTen (left.scale + (right.scale - left.scale)) :=
    Nat.cast_pos.mpr (powerOfTen_pos _)
  have digits := cmp_mul_pos_right positive left.fraction right.fraction
  rw [filled, scales, filled, Int.cast_strictMono.cmp_map_eq] at digits
  exact digits.symm

/-- Comparison is the order of the numbers denoted, whatever the scales. -/
theorem compare_eq_cmp (left right : Decimal) : left.compare right = cmp left.toRat right.toRat := by
  unfold compare
  by_cases scales : left.scale = right.scale
  · rw [if_pos scales]
    have values := (Int.cast_strictMono (R := ℚ)).cmp_map_eq left.value right.value
    have positive := inv_pos.mpr (denominator_pos left)
    rw [toRat_eq_div, toRat_eq_div, ← scales, div_eq_mul_inv, div_eq_mul_inv,
      cmp_mul_pos_right positive, values, cmp_eq_compare]
  · rw [if_neg scales, ← cmp_eq_compare left.integralPart, ← cmp_eq_compare]
    rcases lt_trichotomy left.integralPart right.integralPart with less | same | greater
    · have order := (cmp_eq_lt_iff _ _).mpr (toRat_lt_of_integralPart_lt less)
      rw [(cmp_eq_lt_iff _ _).mpr less, order]
    · rw [(cmp_eq_eq_iff _ _).mpr same]
      change cmp _ _ = _
      rw [← cmp_fraction, toRat_eq_parts left, toRat_eq_parts right, same, cmp_add_left]
    · have order := (cmp_eq_gt_iff _ _).mpr (toRat_lt_of_integralPart_lt greater)
      rw [(cmp_eq_gt_iff _ _).mpr greater, order]

section Words

/-- What a comparison computes from its operands: the integer parts and the fractional digits, bare
and filled up to the larger scale. -/
def comparedWords (left right : Decimal) : List Int :=
  [left.integralPart, right.integralPart, left.fractionalPart, right.fractionalPart,
    left.fractionalPart * powerOfTen (right.scale - left.scale),
    right.fractionalPart * powerOfTen (left.scale - right.scale)]

theorem fits_integralPart {decimal : Decimal} (fits : DecimalStorage.wide.Fits decimal.value) :
    DecimalStorage.wide.Fits decimal.integralPart := by
  obtain ⟨lower, upper⟩ := fits
  have magnitude := Int.natAbs_tdiv_le_natAbs decimal.value (powerOfTen decimal.scale)
  have denominator := Int.natCast_nonneg (powerOfTen decimal.scale)
  simp only [DecimalStorage.null, DecimalStorage.greatest] at lower upper
  simp only [DecimalStorage.Fits, DecimalStorage.null, DecimalStorage.greatest, integralPart]
  rcases Int.le_total 0 decimal.value with nonneg | nonpos
  · omega
  · -- The quotient of the least word has its sign, so it is not the one magnitude too large.
    have opposite := Int.tdiv_nonneg (Int.neg_nonneg_of_nonpos nonpos) denominator
    rw [Int.neg_tdiv] at opposite
    omega

theorem fits_of_natAbs_lt {word : Int} (small : word.natAbs < powerOfTen maxDigits) :
    DecimalStorage.wide.Fits word := by
  have bound : powerOfTen maxDigits = 100000000000000000000000000000000000000 := rfl
  simp only [DecimalStorage.Fits, DecimalStorage.null, DecimalStorage.greatest]
  omega

/-- Fractional digits filled up to a scale that is allowed are digits of that scale. -/
theorem fits_filledDigits {decimal : Decimal} {zeros : Nat}
    (allowed : decimal.scale + zeros ≤ maxDigits) :
    DecimalStorage.wide.Fits (decimal.fractionalPart * powerOfTen zeros) := by
  refine fits_of_natAbs_lt (Nat.lt_of_lt_of_le ?_ (powerOfTen_le allowed))
  rw [Int.natAbs_mul, Int.natAbs_natCast, powerOfTen_add]
  exact Nat.mul_lt_mul_of_pos_right (natAbs_fractionalPart_lt decimal) (powerOfTen_pos zeros)

theorem fits_comparedWords {left right : Decimal} (leftScale : left.scale ≤ maxDigits)
    (rightScale : right.scale ≤ maxDigits) (leftFits : DecimalStorage.wide.Fits left.value)
    (rightFits : DecimalStorage.wide.Fits right.value) {word : Int}
    (computed : word ∈ left.comparedWords right) : DecimalStorage.wide.Fits word := by
  have bare : ∀ decimal : Decimal, decimal.scale ≤ maxDigits →
      DecimalStorage.wide.Fits decimal.fractionalPart := fun decimal allowed =>
    fits_of_natAbs_lt (Nat.lt_of_lt_of_le (natAbs_fractionalPart_lt decimal) (powerOfTen_le allowed))
  simp only [comparedWords, List.mem_cons, List.not_mem_nil, or_false] at computed
  rcases computed with rfl | rfl | rfl | rfl | rfl | rfl
  · exact fits_integralPart leftFits
  · exact fits_integralPart rightFits
  · exact bare left leftScale
  · exact bare right rightScale
  · exact fits_filledDigits (by omega)
  · exact fits_filledDigits (by omega)

end Words

/-- Comparison decides the order of the denoted numbers, and only equal numbers are equal. It is
therefore a total preorder. Operands of 128 bits and of scales that are allowed never make it compute
a word beyond 128 bits. -/
theorem compare_exact (left right : Decimal) :
    left.compare right = cmp left.toRat right.toRat ∧
    (left.compare right = .eq ↔ left.toRat = right.toRat) ∧
    right.compare left = (left.compare right).swap ∧
    (∀ middle : Decimal, left.compare middle ≠ .gt → middle.compare right ≠ .gt →
      left.compare right ≠ .gt) ∧
    (left.scale ≤ maxDigits → right.scale ≤ maxDigits → DecimalStorage.wide.Fits left.value →
      DecimalStorage.wide.Fits right.value →
        ∀ word ∈ left.comparedWords right, DecimalStorage.wide.Fits word) := by
  have notGreater : ∀ first second : Decimal,
      first.compare second ≠ .gt ↔ first.toRat ≤ second.toRat := by
    intro first second
    rw [compare_eq_cmp, ne_eq, cmp_eq_gt_iff, not_lt]
  refine ⟨compare_eq_cmp left right, ?_, ?_, ?_, ?_⟩
  · rw [compare_eq_cmp, cmp_eq_eq_iff]
  · rw [compare_eq_cmp, compare_eq_cmp, cmp_swap]
  · intro middle first second
    rw [notGreater] at first second ⊢
    exact le_trans first second
  · intro leftScale rightScale leftFits rightFits word computed
    exact fits_comparedWords leftScale rightScale leftFits rightFits computed

theorem compare_exact_least :
    let least : Decimal := ⟨DecimalStorage.wide.null, 38, 38⟩
    let middle : Decimal := ⟨-17, 1, 2⟩
    let greatest : Decimal := ⟨-170, 2, 3⟩
    (least.scale ≤ maxDigits ∧ middle.scale ≤ maxDigits ∧
      DecimalStorage.wide.Fits least.value ∧ DecimalStorage.wide.Fits middle.value) ∧
    least.toRat < middle.toRat ∧ middle.toRat = greatest.toRat ∧
    (least.compare middle ≠ .gt ∧ middle.compare greatest ≠ .gt ∧ least.compare greatest ≠ .gt) ∧
    ∀ word ∈ least.comparedWords middle, DecimalStorage.wide.Fits word := by
  intro least middle greatest
  have scales : least.scale ≤ maxDigits ∧ middle.scale ≤ maxDigits := by decide
  have fits : DecimalStorage.wide.Fits least.value ∧ DecimalStorage.wide.Fits middle.value := by
    decide
  -- Both share the integer part minus one, so the filled fractional digits decide.
  have less : least.compare middle = .lt := by decide
  have same : middle.compare greatest = .eq := by decide
  have first : least.compare middle ≠ .gt := by rw [less]; decide
  have second : middle.compare greatest ≠ .gt := by rw [same]; decide
  obtain ⟨order, _, _, _, words⟩ := compare_exact least middle
  obtain ⟨_, equal, _⟩ := compare_exact middle greatest
  obtain ⟨_, _, _, transitive, _⟩ := compare_exact least greatest
  exact ⟨⟨scales.1, scales.2, fits.1, fits.2⟩, (cmp_eq_lt_iff _ _).mp (order ▸ less), equal.mp same,
    ⟨first, second, transitive middle first second⟩, words scales.1 scales.2 fits.1 fits.2⟩

end Decimal

end ColumnScan
