import ColumnScan.Proofs.Decimal.Arithmetic

/-!
# When decimal arithmetic overflows

Checked arithmetic on numbers fails if an operand at the larger scale, or the exact result, is no
ordinary value of the storage. It fails in one other case only: a zero is brought to a larger scale
by a power of ten that is no word of the storage itself.
-/

set_option autoImplicit false

namespace ColumnScan

namespace DecimalStorage

/-- The greatest power of ten among the words of a storage has this many zeros. -/
def greatestExponent : DecimalStorage → Nat
  | .narrow => 18
  | .wide => 38

/-- A zero that cannot grow by so many digits, because the power of ten is no word. -/
def StuckZero (storage : DecimalStorage) (value : Int) (growth : Nat) : Prop :=
  value = 0 ∧ storage.greatestExponent < growth

instance (storage : DecimalStorage) (value : Int) (growth : Nat) :
    Decidable (storage.StuckZero value growth) :=
  inferInstanceAs (Decidable (_ ∧ _))

/-- A value can grow by so many digits. -/
def Scales (storage : DecimalStorage) (value : Int) (growth : Nat) : Prop :=
  storage.Ordinary (value * powerOfTen growth) ∧ ¬storage.StuckZero value growth

variable {storage : DecimalStorage} {value : Int} {growth : Nat}

theorem fits_powerOfTen_iff :
    storage.Fits (powerOfTen growth) ↔ growth ≤ storage.greatestExponent := by
  have bounds : powerOfTen storage.greatestExponent ≤ storage.greatest ∧
      storage.greatest < powerOfTen (storage.greatestExponent + 1) ∧ storage.null < 0 := by
    cases storage <;> decide
  constructor
  · rintro ⟨_, upper⟩
    by_contra larger
    have power : powerOfTen (storage.greatestExponent + 1) ≤ powerOfTen growth :=
      powerOfTen_le (Nat.lt_of_not_le larger)
    omega
  · intro smaller
    have power := powerOfTen_le smaller
    constructor <;> omega

/-- Only the product with zero is smaller than the power of ten. -/
theorem scales_iff : storage.Scales value growth ↔
    storage.Fits (powerOfTen growth) ∧ storage.Ordinary (value * powerOfTen growth) := by
  rw [Scales, StuckZero, fits_powerOfTen_iff, and_comm, and_congr_left_iff]
  rintro ⟨lower, upper⟩
  constructor
  · intro notStuck
    by_contra larger
    have nonzero : value ≠ 0 := fun zero => notStuck ⟨zero, Nat.lt_of_not_le larger⟩
    have magnitude : powerOfTen growth ≤ (value * powerOfTen growth).natAbs := by
      rw [Int.natAbs_mul, Int.natAbs_natCast]
      exact Nat.le_mul_of_pos_left _ (Int.natAbs_pos.mpr nonzero)
    rw [least_eq_neg] at lower
    have negative : storage.null < 0 := by cases storage <;> decide
    exact larger (fits_powerOfTen_iff.mp ⟨by omega, by omega⟩)
  · exact fun smaller stuck => Nat.not_lt.mpr smaller stuck.2

theorem scales_zero (ordinary : storage.Ordinary value) : storage.Scales value 0 := by
  refine ⟨?_, fun stuck => Nat.not_lt_zero _ stuck.2⟩
  rwa [powerOfTen_zero, Nat.cast_one, mul_one]

theorem exists_add_eq_ok_iff {left right : Int} (ordinary : storage.Ordinary left)
    (word : storage.Fits right) :
    (∃ result, storage.add .checked left right = .ok result) ↔ storage.Ordinary (left + right) := by
  simp only [add_eq_ok_iff ordinary word, exists_eq_right]

theorem exists_subtract_eq_ok_iff {left right : Int} (ordinary : storage.Ordinary left)
    (word : storage.Fits right) :
    (∃ result, storage.subtract .checked left right = .ok result) ↔
      storage.Ordinary (left - right) := by
  simp only [subtract_eq_ok_iff ordinary word, exists_eq_right]

end DecimalStorage

namespace Decimal

variable {left right : Decimal} {scale : Nat}

theorem rescale_eq_ok_iff (decimal result : Decimal)
    (ordinary : decimal.storage.Ordinary decimal.value)
    (grows : decimal.scale ≤ scale) (allowed : scale ≤ maxDigits) :
    decimal.rescale scale = .ok result ↔
      decimal.storage.Scales decimal.value (scale - decimal.scale) ∧
        result = { decimal with
          value := decimal.value * powerOfTen (scale - decimal.scale), scale } := by
  constructor
  · intro rescaled
    refine ⟨?_, (rescale_of_le decimal grows ordinary rescaled).1⟩
    unfold rescale at rescaled
    rw [if_neg (Nat.not_lt.mpr allowed)] at rescaled
    split at rescaled
    next =>
      obtain ⟨value, multiplied, _⟩ := bind_eq_ok rescaled
      obtain ⟨word, power, product⟩ := DecimalStorage.within_eq_ok_iff.mp multiplied
      have kept := ((DecimalStorage.multiply_eq_ok_iff word power).mp product).1
      exact DecimalStorage.scales_iff.mpr ⟨power, kept⟩
    next notLarger =>
      rw [Nat.sub_eq_zero_of_le (Nat.le_of_not_lt notLarger)]
      exact DecimalStorage.scales_zero ordinary
  · rintro ⟨scales, rfl⟩
    obtain ⟨power, product⟩ := DecimalStorage.scales_iff.mp scales
    unfold rescale
    rw [if_neg (Nat.not_lt.mpr allowed)]
    split
    next =>
      have computed :=
        (DecimalStorage.multiply_eq_ok_iff ordinary.fits power).mpr ⟨product, rfl⟩
      dsimp only
      rw [DecimalStorage.within_eq_ok_iff.mpr ⟨ordinary.fits, power, computed⟩]
      rfl
    next notLarger =>
      have same : decimal.scale = scale := Nat.le_antisymm grows (Nat.le_of_not_lt notLarger)
      subst same
      simp only [Nat.sub_self, powerOfTen_zero, Nat.cast_one, mul_one, Int.tdiv_one]

/-- The storage in which two decimals are combined. -/
def sharedStorage (left right : Decimal) : DecimalStorage :=
  .ofPrecision (max left.precision right.precision)

/-- The value of a decimal at the larger one of its scale and another. -/
def grown (decimal other : Decimal) : Int :=
  decimal.value * powerOfTen (other.scale - decimal.scale)

theorem rescale_larger_eq_ok_iff {decimal other : Decimal} (number : decimal.IsNumber)
    (otherNumber : other.IsNumber) {precision : Nat} (wider : decimal.precision ≤ precision)
    (larger : scale = max decimal.scale other.scale) (result : Decimal) :
    { decimal with precision }.rescale scale = .ok result ↔
      (DecimalStorage.ofPrecision precision).Scales decimal.value (other.scale - decimal.scale) ∧
        result = ⟨decimal.grown other, scale, precision⟩ := by
  have allowed : scale ≤ maxDigits :=
    larger ▸ Nat.max_le.mpr ⟨number.scale_le, otherNumber.scale_le⟩
  have growth : scale - decimal.scale = other.scale - decimal.scale := by omega
  have rescales := rescale_eq_ok_iff { decimal with precision } result
    (number.ordinary.mono wider) (by dsimp only; omega) allowed
  rwa [growth] at rescales

section Pairs

variable (leftNumber : left.IsNumber) (rightNumber : right.IsNumber)

include leftNumber rightNumber

theorem aligned_eq_ok_iff {pair : Int × Int} :
    left.aligned right = .ok pair ↔
      (left.sharedStorage right).Scales left.value (right.scale - left.scale) ∧
      (left.sharedStorage right).Scales right.value (left.scale - right.scale) ∧
      pair = (left.grown right, right.grown left) := by
  have leftRescales := rescale_larger_eq_ok_iff leftNumber rightNumber
    (Nat.le_max_left left.precision right.precision) rfl
  have rightRescales := rescale_larger_eq_ok_iff rightNumber leftNumber
    (Nat.le_max_right left.precision right.precision) (Nat.max_comm left.scale right.scale)
  constructor
  · intro aligned
    obtain ⟨first, leftGrows, rest⟩ := bind_eq_ok aligned
    obtain ⟨second, rightGrows, shape⟩ := bind_eq_ok rest
    obtain ⟨leftScales, rfl⟩ := (leftRescales first).mp leftGrows
    obtain ⟨rightScales, rfl⟩ := (rightRescales second).mp rightGrows
    exact ⟨leftScales, rightScales, (Except.ok.inj shape).symm⟩
  · rintro ⟨leftScales, rightScales, rfl⟩
    unfold aligned
    dsimp only
    rw [(leftRescales _).mpr ⟨leftScales, rfl⟩, (rightRescales _).mpr ⟨rightScales, rfl⟩]
    rfl

/-- An operation on two numbers succeeds if both can be brought to the larger scale and it succeeds
there. -/
theorem exists_aligned_bind_eq_ok_iff {operation : ArithmeticOperation}
    {compute : Int → Int → Except ScanError Int} {build : Int → Decimal} :
    (∃ result, (left.aligned right >>= fun (first, second) =>
      (left.sharedStorage right).within operation compute first second >>=
        fun value => pure (build value)) = .ok result) ↔
      (left.sharedStorage right).Scales left.value (right.scale - left.scale) ∧
      (left.sharedStorage right).Scales right.value (left.scale - right.scale) ∧
      ∃ value, compute (left.grown right) (right.grown left) = .ok value := by
  constructor
  · rintro ⟨result, succeeded⟩
    obtain ⟨pair, aligned, rest⟩ := bind_eq_ok succeeded
    obtain ⟨value, computed, _⟩ := bind_eq_ok rest
    obtain ⟨leftScales, rightScales, rfl⟩ := (aligned_eq_ok_iff leftNumber rightNumber).mp aligned
    exact ⟨leftScales, rightScales, value, (DecimalStorage.within_eq_ok_iff.mp computed).2.2⟩
  · rintro ⟨leftScales, rightScales, value, computed⟩
    have aligned := (aligned_eq_ok_iff leftNumber rightNumber).mpr ⟨leftScales, rightScales, rfl⟩
    have within : (left.sharedStorage right).within operation compute (left.grown right)
        (right.grown left) = .ok value :=
      DecimalStorage.within_eq_ok_iff.mpr ⟨leftScales.1.fits, rightScales.1.fits, computed⟩
    refine ⟨build value, ?_⟩
    rw [aligned]
    dsimp only [bind, Except.bind]
    rw [within]
    rfl

theorem exists_add_eq_ok_iff :
    (∃ result, left.add right = .ok result) ↔
      (left.sharedStorage right).Scales left.value (right.scale - left.scale) ∧
      (left.sharedStorage right).Scales right.value (left.scale - right.scale) ∧
      (left.sharedStorage right).Ordinary (left.grown right + right.grown left) := by
  refine (exists_aligned_bind_eq_ok_iff leftNumber rightNumber).trans ?_
  refine and_congr_right fun leftScales => and_congr_right fun rightScales => ?_
  exact DecimalStorage.exists_add_eq_ok_iff leftScales.1 rightScales.1.fits

theorem exists_subtract_eq_ok_iff :
    (∃ result, left.subtract right = .ok result) ↔
      (left.sharedStorage right).Scales left.value (right.scale - left.scale) ∧
      (left.sharedStorage right).Scales right.value (left.scale - right.scale) ∧
      (left.sharedStorage right).Ordinary (left.grown right - right.grown left) := by
  refine (exists_aligned_bind_eq_ok_iff leftNumber rightNumber).trans ?_
  refine and_congr_right fun leftScales => and_congr_right fun rightScales => ?_
  exact DecimalStorage.exists_subtract_eq_ok_iff leftScales.1 rightScales.1.fits

theorem exists_multiply_eq_ok_iff :
    (∃ result, left.multiply right = .ok result) ↔
      left.scale + right.scale ≤ maxDigits ∧
      (left.sharedStorage right).Ordinary (left.value * right.value) := by
  have leftWidened := leftNumber.ordinary.mono (Nat.le_max_left left.precision right.precision)
  have rightWidened := rightNumber.ordinary.mono (Nat.le_max_right left.precision right.precision)
  constructor
  · rintro ⟨result, multiplied⟩
    unfold multiply at multiplied
    dsimp only at multiplied
    split at multiplied
    next => cases multiplied
    next allowed =>
      obtain ⟨value, computed, _⟩ := bind_eq_ok multiplied
      obtain ⟨first, second, product⟩ := DecimalStorage.within_eq_ok_iff.mp computed
      exact ⟨Nat.le_of_not_lt allowed,
        ((DecimalStorage.multiply_eq_ok_iff first second).mp product).1⟩
  · rintro ⟨allowed, ordinary⟩
    have product := (DecimalStorage.multiply_eq_ok_iff leftWidened.fits rightWidened.fits).mpr
      ⟨ordinary, rfl⟩
    unfold multiply
    dsimp only
    rw [if_neg (Nat.not_lt.mpr allowed),
      DecimalStorage.within_eq_ok_iff.mpr ⟨leftWidened.fits, rightWidened.fits, product⟩]
    exact ⟨_, rfl⟩

/-- Checked addition, subtraction, multiplication and growing to a larger scale fail for numbers
exactly if an operand at the larger scale or the exact result is no ordinary value of the storage,
or if a product has too large a scale, or if a zero is stuck at its scale. -/
theorem overflows_iff :
    let storage := left.sharedStorage right
    let stuck := storage.StuckZero left.value (right.scale - left.scale) ∨
      storage.StuckZero right.value (left.scale - right.scale)
    ((∃ error, left.add right = .error error) ↔
      ¬(storage.Ordinary (left.grown right) ∧ storage.Ordinary (right.grown left) ∧
        storage.Ordinary (left.grown right + right.grown left)) ∨ stuck) ∧
    ((∃ error, left.subtract right = .error error) ↔
      ¬(storage.Ordinary (left.grown right) ∧ storage.Ordinary (right.grown left) ∧
        storage.Ordinary (left.grown right - right.grown left)) ∨ stuck) ∧
    ((∃ error, left.multiply right = .error error) ↔
      maxDigits < left.scale + right.scale ∨ ¬storage.Ordinary (left.value * right.value)) ∧
    ∀ scale, left.scale < scale → scale ≤ maxDigits →
      ((∃ error, left.rescale scale = .error error) ↔
        ¬left.storage.Ordinary (left.value * powerOfTen (scale - left.scale)) ∨
          left.storage.StuckZero left.value (scale - left.scale)) := by
  intro storage stuck
  refine ⟨?_, ?_, ?_, fun scale grows allowed => ?_⟩
  · rw [exists_error_iff, exists_add_eq_ok_iff leftNumber rightNumber]
    simp only [DecimalStorage.Scales, storage, stuck, grown]
    tauto
  · rw [exists_error_iff, exists_subtract_eq_ok_iff leftNumber rightNumber]
    simp only [DecimalStorage.Scales, storage, stuck, grown]
    tauto
  · rw [exists_error_iff, exists_multiply_eq_ok_iff leftNumber rightNumber, not_and_or, Nat.not_le]
  · simp only [exists_error_iff, left.rescale_eq_ok_iff _ leftNumber.ordinary grows.le allowed,
      exists_eq_right, DecimalStorage.Scales, not_and_or, not_not]

end Pairs

/-- A sum that is an ordinary value and a difference that is EMPTY, and a scale that only the wide
storage has room for. -/
theorem overflows_iff_edge :
    let left : Decimal := ⟨-922337203685477580, 0, 18⟩
    let right : Decimal := ⟨7, 1, 18⟩
    let wide : Decimal := ⟨-922337203685477580, 0, 19⟩
    (¬∃ error, left.add right = .error error) ∧ (∃ error, left.subtract right = .error error) ∧
    (¬∃ error, left.multiply right = .error error) ∧
    (∃ error, left.rescale 2 = .error error) ∧ ¬∃ error, wide.rescale 2 = .error error := by
  intro left right wide
  have leftNumber : left.IsNumber := ⟨⟨-922337203685477580, 0, 18, rfl⟩, rfl, rfl⟩
  have rightNumber : right.IsNumber := ⟨⟨7, 1, 18, rfl⟩, rfl, rfl⟩
  have wideNumber : wide.IsNumber := ⟨⟨-922337203685477580, 0, 19, rfl⟩, rfl, rfl⟩
  obtain ⟨added, subtracted, multiplied, rescaled⟩ := overflows_iff leftNumber rightNumber
  obtain ⟨_, _, _, widened⟩ := overflows_iff wideNumber rightNumber
  exact ⟨mt added.mp (by decide), subtracted.mpr (by decide), mt multiplied.mp (by decide),
    (rescaled 2 (by decide) (by decide)).mpr (by decide),
    mt (widened 2 (by decide) (by decide)).mp (by decide)⟩

/-- A zero overflows although its product with any power of ten is zero. The wide storage has the
power of ten among its words. -/
theorem rescale_zero_overflows :
    let zero : Decimal := ⟨0, 0, 18⟩
    let small : Decimal := ⟨1, 19, 18⟩
    (zero.IsNumber ∧ small.IsNumber) ∧
    (zero.storage.Ordinary (zero.value * powerOfTen 19) ∧
      zero.rescale 19 = .error (.overflow .multiply .narrow .narrow)) ∧
    (zero.storage.Ordinary (zero.grown small) ∧ zero.storage.Ordinary (small.grown zero) ∧
      zero.storage.Ordinary (zero.grown small + small.grown zero) ∧
      zero.add small = .error (.overflow .multiply .narrow .narrow)) ∧
    { zero with precision := 19 }.rescale 19 = .ok ⟨0, 19, 19⟩ :=
  ⟨⟨⟨⟨0, 0, 18, rfl⟩, rfl, rfl⟩, ⟨⟨1, 19, 18, rfl⟩, rfl, rfl⟩⟩, ⟨by decide, rfl⟩,
    ⟨by decide, by decide, by decide, rfl⟩, rfl⟩

end Decimal

end ColumnScan
