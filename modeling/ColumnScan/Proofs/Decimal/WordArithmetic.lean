import Mathlib.Data.Int.ModEq
import ColumnScan.Proofs.Decimal.StorageArithmetic

/-!
# Exact words up to the reserved ones

Sums, differences and products of two words. A wrapping operation gives the one word that is
congruent to the exact result. A checked operation on ordinary values gives the exact result, and
the same as the wrapping one, as long as that is an ordinary value; down to the two reserved words
and beyond the greatest one it reports an overflow that names the operation.
-/

set_option autoImplicit false

namespace ColumnScan

namespace DecimalStorage

def bits (storage : DecimalStorage) : Nat := 8 * storage.width

/-- The outcome is the word that is congruent to the exact result. -/
def WrapsTo (storage : DecimalStorage) (outcome : Except ScanError Int) (exact : Int) : Prop :=
  ∃ result, outcome = .ok result ∧ storage.Fits result ∧ result ≡ exact [ZMOD 2 ^ storage.bits]

/-- How an operation on two words answers whose exact result is given. -/
structure IsExact (storage : DecimalStorage) (operation : ArithmeticOperation)
    (compute : OverflowPolicy → Except ScanError Int) (exact : Int) : Prop where
  ok_iff : ∀ result, compute .checked = .ok result ↔ storage.Ordinary exact ∧ result = exact
  wrapping : ∀ result, compute .checked = .ok result → compute .wrapping = .ok result
  overflows : ¬storage.Ordinary exact → compute .checked = .error (storage.overflow operation)

variable {storage : DecimalStorage} {left right exact : Int}

theorem capacity_eq (storage : DecimalStorage) : (storage.capacity : Int) = 2 ^ storage.bits := by
  cases storage <;> rfl

theorem wrapsTo_wrap (storage : DecimalStorage) (exact : Int) :
    storage.WrapsTo (.ok (storage.wrap exact)) exact := by
  refine ⟨storage.wrap exact, rfl, storage.fits_wrap exact, ?_⟩
  rw [← capacity_eq]
  exact Int.bmod_emod

/-- An operation whose checked form answers for the exact result, and whose wrapping form reduces
it. -/
theorem isExact_of_eq {operation : ArithmeticOperation}
    {compute : OverflowPolicy → Except ScanError Int}
    (checked : compute .checked = storage.answer operation exact)
    (wrapping : compute .wrapping = .ok (storage.wrap exact)) :
    storage.IsExact operation compute exact where
  ok_iff result := by rw [checked, answer_eq_ok_iff]
  wrapping result succeeded := by
    rw [checked, answer_eq_ok_iff] at succeeded
    obtain ⟨ordinary, rfl⟩ := succeeded
    rw [wrapping, wrap_of_fits ordinary.fits]
  overflows outside := by rw [checked, answer, if_neg outside]

/-- Wrapping sums, differences and products are right modulo the number of words, for all words.
Checked ones of ordinary values are exact as far as the storage reaches. -/
theorem operations_exact (storage : DecimalStorage) (left right : Int) :
    (storage.WrapsTo (storage.add .wrapping left right) (left + right) ∧
      storage.WrapsTo (storage.subtract .wrapping left right) (left - right) ∧
      storage.WrapsTo (storage.multiply .wrapping left right) (left * right)) ∧
    (storage.Ordinary left → storage.Ordinary right →
      storage.IsExact .add (storage.add · left right) (left + right) ∧
      storage.IsExact .subtract (storage.subtract · left right) (left - right) ∧
      storage.IsExact .multiply (storage.multiply · left right) (left * right)) := by
  refine ⟨⟨wrapsTo_wrap .., wrapsTo_wrap .., wrapsTo_wrap ..⟩, ?_⟩
  intro leftOrdinary rightOrdinary
  refine ⟨isExact_of_eq ?_ rfl, isExact_of_eq ?_ rfl, isExact_of_eq ?_ rfl⟩
  · exact add_checked_eq leftOrdinary rightOrdinary.fits
  · exact subtract_checked_eq leftOrdinary rightOrdinary.fits
  · exact multiply_checked_eq leftOrdinary.fits rightOrdinary.fits

/-- Below the least ordinary value lies EMPTY, which only the wrapping sum gives. The difference and
the product lie above it. -/
theorem operations_exact_least :
    let least := wide.least
    (wide.Ordinary least ∧ wide.Ordinary (-1)) ∧
    wide.add .checked least (-1) = .error (.overflow .add .wide .wide) ∧
    wide.WrapsTo (wide.add .wrapping least (-1)) wide.empty ∧
    (wide.subtract .checked least (-1) = .ok (least + 1) ∧
      wide.subtract .wrapping least (-1) = .ok (least + 1)) ∧
    wide.multiply .checked least (-1) = .ok (wide.greatest - 1) := by
  intro least
  have ordinary : wide.Ordinary least ∧ wide.Ordinary (-1) := by decide
  obtain ⟨⟨sumWraps, _, _⟩, exact⟩ := operations_exact wide least (-1)
  obtain ⟨sum, difference, product⟩ := exact ordinary.1 ordinary.2
  have subtracted := (difference.ok_iff (least + 1)).mpr ⟨by decide, by decide⟩
  refine ⟨ordinary, sum.overflows (by decide), sumWraps, ?_, ?_⟩
  · exact ⟨subtracted, difference.wrapping _ subtracted⟩
  · exact (product.ok_iff (wide.greatest - 1)).mpr ⟨by decide, by decide⟩

example : (wide.overflow .multiply).message = "overflow in multiply: operands i128 and i128" := rfl

end DecimalStorage

end ColumnScan
