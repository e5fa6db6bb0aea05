import ColumnScan.Proofs.Decimal.Order
import ColumnScan.Proofs.Decimal.StorageArithmetic
import ColumnScan.Proofs.Sequencing

/-!
# Arithmetic on decimals is exact

Sums, differences, products and larger scales are computed in the storage of the larger precision.
What succeeds there is the exact rational number at the expected scale and precision, and never one
of the two reserved words. A quotient is truncated, and it is EMPTY for exactly one pair of
operands.
-/

set_option autoImplicit false

namespace ColumnScan

namespace Decimal

/-- A decimal that was built from parts and is neither NULL nor EMPTY. -/
structure IsNumber (decimal : Decimal) : Prop where
  built : ∃ value scale precision, ofParts value scale precision = .ok decimal
  notNull : decimal.isNull = false
  notEmpty : decimal.isEmpty = false

/-- A result denotes a number at a scale and a precision, by a word of the storage of that precision
that is not reserved. -/
structure Represents (result : Decimal) (number : ℚ) (scale precision : Nat) : Prop where
  toRat_eq : result.toRat = number
  scale_eq : result.scale = scale
  precision_eq : result.precision = precision
  fits : (DecimalStorage.ofPrecision precision).Fits result.value
  notNull : result.isNull = false
  notEmpty : result.isEmpty = false

section Numbers

variable {decimal result left right : Decimal} {scale : Nat}

theorem ofParts_eq_ok_iff {value : Int} {scale precision : Nat} :
    ofParts value scale precision = .ok decimal ↔
      precision ≠ 0 ∧ precision ≤ maxDigits ∧ scale ≤ maxDigits ∧
        (DecimalStorage.ofPrecision precision).Fits value ∧ decimal = ⟨value, scale, precision⟩ := by
  unfold ofParts
  split
  next => exact iff_of_false nofun (by omega)
  next precisionAllowed =>
    split
    next => exact iff_of_false nofun (by omega)
    next scaleAllowed =>
      split
      next fits =>
        rw [Except.ok.injEq, and_iff_right fits, and_iff_right (Nat.le_of_not_lt scaleAllowed)]
        constructor
        · rintro rfl
          exact ⟨by omega, by omega, rfl⟩
        · rintro ⟨_, _, same⟩
          exact same.symm
      next unfit => exact iff_of_false nofun fun all => unfit all.2.2.2.1

theorem ordinary_iff_notReserved (decimal : Decimal) : decimal.storage.Ordinary decimal.value ↔
    decimal.storage.Fits decimal.value ∧ decimal.isNull = false ∧ decimal.isEmpty = false := by
  rw [DecimalStorage.ordinary_iff, isNull, isEmpty, beq_eq_false_iff_ne, beq_eq_false_iff_ne]

theorem isNull_of_isEmpty (empty : decimal.isEmpty = true) : decimal.isNull = false := by
  rw [isNull, beq_eq_false_iff_ne, beq_iff_eq.mp empty, DecimalStorage.empty]
  omega

theorem IsNumber.ordinary (number : decimal.IsNumber) :
    decimal.storage.Ordinary decimal.value := by
  obtain ⟨value, scale, precision, built⟩ := number.built
  obtain ⟨_, _, _, fits, rfl⟩ := ofParts_eq_ok_iff.mp built
  exact (ordinary_iff_notReserved _).mpr ⟨fits, number.notNull, number.notEmpty⟩

theorem IsNumber.scale_le (number : decimal.IsNumber) : decimal.scale ≤ maxDigits := by
  obtain ⟨value, scale, precision, built⟩ := number.built
  obtain ⟨_, _, allowed, _, rfl⟩ := ofParts_eq_ok_iff.mp built
  exact allowed

theorem Represents.of_ordinary {number : ℚ} {precision : Nat}
    (scale_eq : result.scale = scale) (precision_eq : result.precision = precision)
    (ordinary : (DecimalStorage.ofPrecision precision).Ordinary result.value)
    (toRat_eq : result.toRat = number) : result.Represents number scale precision := by
  subst precision_eq
  obtain ⟨fits, notNull, notEmpty⟩ := (ordinary_iff_notReserved result).mp ordinary
  exact ⟨toRat_eq, scale_eq, rfl, fits, notNull, notEmpty⟩

/-- More digits after the point denote the same number. -/
theorem toRat_eq_of_le (grows : decimal.scale ≤ scale) :
    decimal.toRat =
      ((decimal.value * powerOfTen (scale - decimal.scale) : Int) : ℚ) / 10 ^ scale := by
  have denominator : (10 : ℚ) ^ (scale - decimal.scale) ≠ 0 := pow_ne_zero _ (by norm_num)
  have filled : (10 : ℚ) ^ scale = 10 ^ decimal.scale * 10 ^ (scale - decimal.scale) := by
    rw [← pow_add, Nat.add_sub_cancel' grows]
  rw [toRat, filled, Int.cast_mul, Int.cast_natCast, cast_powerOfTen,
    mul_div_mul_right _ _ denominator]

end Numbers

section Scales

variable {result left right : Decimal} {scale : Nat}

/-- Growing to a scale multiplies by a power of ten, and succeeds only if the product is not
reserved either. -/
theorem rescale_of_le (decimal : Decimal) (grows : decimal.scale ≤ scale)
    (ordinary : decimal.storage.Ordinary decimal.value)
    (rescaled : decimal.rescale scale = .ok result) :
    result = { decimal with value := decimal.value * powerOfTen (scale - decimal.scale), scale } ∧
      decimal.storage.Ordinary result.value := by
  unfold rescale at rescaled
  split at rescaled
  next => cases rescaled
  next =>
    split at rescaled
    next =>
      obtain ⟨value, multiplied, shape⟩ := bind_eq_ok rescaled
      cases shape
      obtain ⟨first, second, product⟩ := DecimalStorage.within_eq_ok_iff.mp multiplied
      obtain ⟨kept, rfl⟩ := (DecimalStorage.multiply_eq_ok_iff first second).mp product
      exact ⟨rfl, kept⟩
    next notLarger =>
      have same : decimal.scale = scale := Nat.le_antisymm grows (Nat.le_of_not_lt notLarger)
      cases rescaled
      subst same
      simpa only [Nat.sub_self, powerOfTen_zero, Nat.cast_one, mul_one, Int.tdiv_one, true_and] using ordinary

theorem aligned_eq_ok {first second : Int} (leftOrdinary : left.storage.Ordinary left.value)
    (rightOrdinary : right.storage.Ordinary right.value)
    (aligned : left.aligned right = .ok (first, second)) :
    let scale := max left.scale right.scale
    let storage := DecimalStorage.ofPrecision (max left.precision right.precision)
    first = left.value * powerOfTen (scale - left.scale) ∧ storage.Ordinary first ∧
      second = right.value * powerOfTen (scale - right.scale) := by
  intro scale storage
  let precision := max left.precision right.precision
  obtain ⟨leftScaled, leftRescaled, rest⟩ := bind_eq_ok aligned
  obtain ⟨rightScaled, rightRescaled, shape⟩ := bind_eq_ok rest
  cases shape
  have leftWidened : storage.Ordinary left.value := leftOrdinary.mono (Nat.le_max_left _ _)
  have rightWidened : storage.Ordinary right.value := rightOrdinary.mono (Nat.le_max_right _ _)
  obtain ⟨rfl, leftKept⟩ := rescale_of_le { left with precision } (Nat.le_max_left _ _) leftWidened
    leftRescaled
  obtain ⟨rfl, _⟩ := rescale_of_le { right with precision } (Nat.le_max_right _ _) rightWidened
    rightRescaled
  exact ⟨rfl, leftKept, rfl⟩

end Scales

section Exactness

variable {left right result : Decimal}

theorem add_represents (leftNumber : left.IsNumber) (rightNumber : right.IsNumber)
    (added : left.add right = .ok result) :
    result.Represents (left.toRat + right.toRat) (max left.scale right.scale)
      (max left.precision right.precision) := by
  obtain ⟨⟨first, second⟩, aligned, rest⟩ := bind_eq_ok added
  obtain ⟨value, computed, shape⟩ := bind_eq_ok rest
  cases shape
  obtain ⟨rfl, firstOrdinary, rfl⟩ := aligned_eq_ok leftNumber.ordinary rightNumber.ordinary aligned
  obtain ⟨_, word, sum⟩ := DecimalStorage.within_eq_ok_iff.mp computed
  obtain ⟨kept, rfl⟩ := (DecimalStorage.add_eq_ok_iff firstOrdinary word).mp sum
  refine Represents.of_ordinary rfl rfl kept ?_
  rw [toRat_eq_of_le (Nat.le_max_left left.scale right.scale),
    toRat_eq_of_le (Nat.le_max_right left.scale right.scale), ← add_div, ← Int.cast_add, toRat]

theorem subtract_represents (leftNumber : left.IsNumber) (rightNumber : right.IsNumber)
    (subtracted : left.subtract right = .ok result) :
    result.Represents (left.toRat - right.toRat) (max left.scale right.scale)
      (max left.precision right.precision) := by
  obtain ⟨⟨first, second⟩, aligned, rest⟩ := bind_eq_ok subtracted
  obtain ⟨value, computed, shape⟩ := bind_eq_ok rest
  cases shape
  obtain ⟨rfl, firstOrdinary, rfl⟩ := aligned_eq_ok leftNumber.ordinary rightNumber.ordinary aligned
  obtain ⟨_, word, difference⟩ := DecimalStorage.within_eq_ok_iff.mp computed
  obtain ⟨kept, rfl⟩ := (DecimalStorage.subtract_eq_ok_iff firstOrdinary word).mp difference
  refine Represents.of_ordinary rfl rfl kept ?_
  rw [toRat_eq_of_le (Nat.le_max_left left.scale right.scale),
    toRat_eq_of_le (Nat.le_max_right left.scale right.scale), ← sub_div, ← Int.cast_sub, toRat]

/-- The product of the values stands at the sum of the scales, so nothing has to be aligned. -/
theorem multiply_represents (multiplied : left.multiply right = .ok result) :
    result.Represents (left.toRat * right.toRat) (left.scale + right.scale)
      (max left.precision right.precision) := by
  unfold multiply at multiplied
  dsimp only at multiplied
  split at multiplied
  next => cases multiplied
  next =>
    obtain ⟨value, computed, shape⟩ := bind_eq_ok multiplied
    cases shape
    obtain ⟨first, second, product⟩ := DecimalStorage.within_eq_ok_iff.mp computed
    obtain ⟨kept, rfl⟩ := (DecimalStorage.multiply_eq_ok_iff first second).mp product
    refine Represents.of_ordinary rfl rfl kept ?_
    rw [toRat, toRat, toRat, div_mul_div_comm, ← pow_add, ← Int.cast_mul]

theorem rescale_represents {scale : Nat} (number : left.IsNumber) (grows : left.scale < scale)
    (rescaled : left.rescale scale = .ok result) :
    result.Represents left.toRat scale left.precision := by
  obtain ⟨rfl, kept⟩ := rescale_of_le left (Nat.le_of_lt grows) number.ordinary rescaled
  refine Represents.of_ordinary rfl rfl kept ?_
  rw [toRat_eq_of_le (Nat.le_of_lt grows), toRat]

/-- Whatever checked addition, subtraction, multiplication or growing to a larger scale give for
numbers is exact, at the expected scale and precision, and is a number again. -/
theorem arithmetic_exact (leftNumber : left.IsNumber) (rightNumber : right.IsNumber) :
    (∀ result, left.add right = .ok result →
      result.Represents (left.toRat + right.toRat) (max left.scale right.scale)
        (max left.precision right.precision)) ∧
    (∀ result, left.subtract right = .ok result →
      result.Represents (left.toRat - right.toRat) (max left.scale right.scale)
        (max left.precision right.precision)) ∧
    (∀ result, left.multiply right = .ok result →
      result.Represents (left.toRat * right.toRat) (left.scale + right.scale)
        (max left.precision right.precision)) ∧
    ∀ scale result, left.scale < scale → left.rescale scale = .ok result →
      result.Represents left.toRat scale left.precision := by
  refine ⟨?_, ?_, ?_, ?_⟩
  · intro result added
    exact add_represents leftNumber rightNumber added
  · intro result subtracted
    exact subtract_represents leftNumber rightNumber subtracted
  · intro result multiplied
    exact multiply_represents multiplied
  · intro scale result grows rescaled
    exact rescale_represents leftNumber grows rescaled

/-- A narrow and a wide operand of different scales, and a difference that is the least value above
the reserved ones. -/
theorem arithmetic_exact_mixed :
    let narrow : Decimal := ⟨-15, 1, 2⟩
    let wide : Decimal := ⟨DecimalStorage.wide.greatest - 151, 2, 20⟩
    let difference : Decimal := ⟨DecimalStorage.wide.least, 2, 20⟩
    (∃ sum, narrow.add wide = .ok sum ∧ sum.Represents (narrow.toRat + wide.toRat) 2 20) ∧
    (narrow.subtract wide = .ok difference ∧
      difference.Represents (narrow.toRat - wide.toRat) 2 20) ∧
    (∃ product, narrow.multiply narrow = .ok product ∧
      product.Represents (narrow.toRat * narrow.toRat) 2 2) ∧
    ∃ grown, narrow.rescale 9 = .ok grown ∧ grown.Represents narrow.toRat 9 2 := by
  have narrowNumber : IsNumber ⟨-15, 1, 2⟩ := ⟨⟨-15, 1, 2, rfl⟩, rfl, rfl⟩
  have wideNumber : IsNumber ⟨DecimalStorage.wide.greatest - 151, 2, 20⟩ :=
    ⟨⟨DecimalStorage.wide.greatest - 151, 2, 20, rfl⟩, rfl, rfl⟩
  obtain ⟨added, subtracted, _, _⟩ := arithmetic_exact narrowNumber wideNumber
  obtain ⟨_, _, multiplied, grown⟩ := arithmetic_exact narrowNumber narrowNumber
  exact ⟨⟨_, rfl, added _ rfl⟩, ⟨rfl, subtracted _ rfl⟩, ⟨_, rfl, multiplied _ rfl⟩,
    ⟨_, rfl, grown 9 _ (by decide) rfl⟩⟩

end Exactness

section Quotients

variable {left right result : Decimal}

/-- The dividend is the greatest word of the result's storage and the divisor is the integer minus
one, so that the quotient has one magnitude too many. -/
def NegatesGreatest (left right : Decimal) : Prop :=
  left.value = (DecimalStorage.ofPrecision (max left.precision right.precision)).greatest ∧
    right.value = -1 ∧ right.scale = 0

/-- The greatest words are odd, so none ends in zeros. -/
theorem mul_powerOfTen_eq_greatest_iff {storage : DecimalStorage} {value : Int} {exponent : Nat} :
    value * powerOfTen exponent = storage.greatest ↔
      value = storage.greatest ∧ exponent = 0 := by
  cases exponent with
  | zero =>
      rw [powerOfTen_zero, Nat.cast_one, mul_one, and_iff_left rfl]
  | succ zeros =>
      refine iff_of_false (fun product => ?_) nofun
      have ten : powerOfTen 1 = 10 := rfl
      rw [powerOfTen_add, ten, Nat.cast_mul, ← mul_assoc] at product
      cases storage <;> simp only [DecimalStorage.greatest] at product <;> omega

theorem divide_eq_ok (divided : left.divide right = .ok result) :
    let precision := max left.precision right.precision
    let numerator := left.value * powerOfTen right.scale
    (DecimalStorage.ofPrecision precision).Ordinary numerator ∧
      result = ⟨numerator.tdiv right.value, left.scale, precision⟩ := by
  intro precision numerator
  obtain ⟨scaled, multiplied, rest⟩ := bind_eq_ok divided
  obtain ⟨value, computed, shape⟩ := bind_eq_ok rest
  cases shape
  obtain ⟨first, second, product⟩ := DecimalStorage.within_eq_ok_iff.mp multiplied
  obtain ⟨kept, rfl⟩ := (DecimalStorage.multiply_eq_ok_iff first second).mp product
  obtain ⟨_, _, quotient⟩ := DecimalStorage.within_eq_ok_iff.mp computed
  obtain ⟨_, _, rfl⟩ := DecimalStorage.divide_eq_ok_iff.mp quotient
  exact ⟨kept, rfl⟩

/-- A quotient is the truncated one at the dividend's scale. It is a number except where the greatest
word is negated, and there it is EMPTY. -/
theorem divide_truncates (divided : left.divide right = .ok result) :
    result.value = (left.value * powerOfTen right.scale).tdiv right.value ∧
    result.scale = left.scale ∧
    result.precision = max left.precision right.precision ∧
    result.isNull = false ∧
    (result.storage.Ordinary result.value ↔ ¬left.NegatesGreatest right) ∧
    (result.isEmpty = true ↔ left.NegatesGreatest right) := by
  obtain ⟨ordinary, rfl⟩ := divide_eq_ok divided
  refine ⟨rfl, rfl, rfl, ?_⟩
  by_cases negates : left.NegatesGreatest right
  · have ⟨greatest, minusOne, integral⟩ := negates
    have quotient : (left.value * powerOfTen right.scale).tdiv right.value =
        (DecimalStorage.ofPrecision (max left.precision right.precision)).empty := by
      rw [mul_powerOfTen_eq_greatest_iff.mpr ⟨greatest, integral⟩, minusOne,
        DecimalStorage.tdiv_greatest]
    have empty := beq_iff_eq.mpr quotient
    refine ⟨isNull_of_isEmpty empty, ?_, iff_of_true empty negates⟩
    refine iff_of_false (fun kept => ?_) (not_not_intro negates)
    exact Bool.eq_false_iff.mp ((ordinary_iff_notReserved _).mp kept).2.2 empty
  · have kept := DecimalStorage.ordinary_tdiv ordinary <| by
      rintro ⟨product, minusOne⟩
      obtain ⟨greatest, integral⟩ := mul_powerOfTen_eq_greatest_iff.mp product
      exact negates ⟨greatest, minusOne, integral⟩
    obtain ⟨_, notNull, notEmpty⟩ := (ordinary_iff_notReserved ⟨_, left.scale, _⟩).mp kept
    exact ⟨notNull, iff_of_true kept negates, iff_of_false (Bool.eq_false_iff.mp notEmpty) negates⟩

/-- In the wider storage the negative of the greatest narrow word is a number. -/
theorem divide_truncates_mixed :
    let left : Decimal := ⟨DecimalStorage.narrow.greatest, 0, 18⟩
    let right : Decimal := ⟨-1, 0, 19⟩
    ∃ result, left.divide right = .ok result ∧
      result.value = DecimalStorage.narrow.empty ∧ result.isEmpty = false := by
  have divided : divide ⟨DecimalStorage.narrow.greatest, 0, 18⟩ ⟨-1, 0, 19⟩ = .ok _ := rfl
  obtain ⟨value, _, _, _, _, empty⟩ := divide_truncates divided
  refine ⟨_, divided, value, Bool.eq_false_iff.mpr fun isEmpty => ?_⟩
  exact absurd (empty.mp isEmpty).1 (by decide)

theorem isEmpty_divide_greatest :
    let left : Decimal := ⟨DecimalStorage.narrow.greatest, 0, 18⟩
    let right : Decimal := ⟨-1, 0, 18⟩
    left.IsNumber ∧ right.IsNumber ∧
      ∃ result, left.divide right = .ok result ∧ result.isEmpty = true ∧
        ¬result.storage.Ordinary result.value :=
  ⟨⟨⟨DecimalStorage.narrow.greatest, 0, 18, rfl⟩, rfl, rfl⟩, ⟨⟨-1, 0, 18, rfl⟩, rfl, rfl⟩,
    _, rfl, rfl, by decide⟩

end Quotients

end Decimal

end ColumnScan
