import ColumnScan.Proofs.Filter.Equality

/-!
# Equality of floats

Equal floats have one lane, the two zeros apart, and a word that is not a number equals nothing. So a
set of lanes can be searched by hashing for floats too.
-/

set_option autoImplicit false

namespace ColumnScan

namespace FloatFormat

variable {format : FloatFormat} {lane left right : Int}

/-- The lane is a signed word of the format. -/
def Fits (format : FloatFormat) (lane : Int) : Prop :=
  -(format.signBit : Int) ≤ lane ∧ lane < format.signBit

instance (format : FloatFormat) (lane : Int) : Decidable (format.Fits lane) :=
  inferInstanceAs (Decidable (_ ∧ _))

theorem signBit_add_signBit (format : FloatFormat) :
    format.signBit + format.signBit = LittleEndian.capacity format.width := by
  cases format <;> rfl

theorem word_injective (leftFits : format.Fits left) (rightFits : format.Fits right)
    (same : format.word left = format.word right) : left = right := by
  have capacity := format.signBit_add_signBit
  have positive := LittleEndian.capacity_pos format.width
  have leftWord : 0 ≤ left % LittleEndian.capacity format.width := Int.emod_nonneg _ (by omega)
  have rightWord : 0 ≤ right % LittleEndian.capacity format.width := Int.emod_nonneg _ (by omega)
  have sameWord : left % LittleEndian.capacity format.width =
      right % LittleEndian.capacity format.width := by
    unfold word at same
    omega
  have sameBalanced := congrArg (Int.bmod · (LittleEndian.capacity format.width)) sameWord
  simp only [Int.emod_bmod] at sameBalanced
  unfold Fits at leftFits rightFits
  rwa [Int.bmod_eq_of_le (by omega) (by omega), Int.bmod_eq_of_le (by omega) (by omega)]
    at sameBalanced

theorem rank_eq_zero_iff : format.rank lane = 0 ↔ format.magnitude lane = 0 := by
  unfold rank
  split <;> omega

theorem word_lt (format : FloatFormat) (lane : Int) :
    format.word lane < format.signBit + format.signBit := by
  have capacity := format.signBit_add_signBit
  have positive := LittleEndian.capacity_pos format.width
  have below : lane % LittleEndian.capacity format.width < LittleEndian.capacity format.width :=
    Int.emod_lt_of_pos lane (by omega)
  unfold word
  omega

/-- A word is its magnitude, with the sign bit if it is negative. -/
theorem word_eq (format : FloatFormat) (lane : Int) :
    format.word lane =
      format.magnitude lane + if format.isNegative lane then format.signBit else 0 := by
  have below := format.word_lt lane
  simp only [isNegative, magnitude, decide_eq_true_eq]
  split
  next negative =>
    rw [Nat.mod_eq_sub_mod negative, Nat.mod_eq_of_lt (by omega)]
    omega
  next positive => rw [Nat.mod_eq_of_lt (by omega), Nat.add_zero]

theorem eq_of_rank_eq (leftFits : format.Fits left) (rightFits : format.Fits right)
    (nonzero : format.magnitude left ≠ 0) (same : format.rank left = format.rank right) :
    left = right := by
  refine word_injective leftFits rightFits ?_
  rw [word_eq, word_eq]
  unfold rank at same
  -- Ranks are negative exactly for negative numbers, so equal ranks have equal signs.
  cases leftSign : format.isNegative left <;> cases rightSign : format.isNegative right <;>
    simp only [leftSign, rightSign, Bool.false_eq_true, ↓reduceIte] at same ⊢ <;> omega

theorem magnitude_eq_zero_iff (fits : format.Fits lane) :
    format.magnitude lane = 0 ↔ lane = 0 ∨ lane = format.negativeZero := by
  have positiveZero : format.Fits 0 ∧ format.magnitude 0 = 0 ∧ format.isNegative 0 = false := by
    cases format <;> decide
  have negativeZero : format.Fits format.negativeZero ∧ format.magnitude format.negativeZero = 0 ∧
      format.isNegative format.negativeZero = true := by
    cases format <;> decide
  constructor
  · intro zero
    cases sign : format.isNegative lane with
    | false =>
        refine .inl (word_injective fits positiveZero.1 ?_)
        rw [word_eq, word_eq, sign, zero, positiveZero.2.1, positiveZero.2.2]
    | true =>
        refine .inr (word_injective fits negativeZero.1 ?_)
        rw [word_eq, word_eq, sign, zero, negativeZero.2.1, negativeZero.2.2]
  · rintro (rfl | rfl)
    · exact positiveZero.2.1
    · exact negativeZero.2.1

theorem not_isNaN_of_magnitude_eq_zero (zero : format.magnitude lane = 0) :
    format.isNaN lane = false := by
  unfold isNaN
  rw [zero]
  exact decide_eq_false (Nat.not_lt_zero _)

end FloatFormat

namespace Comparator

variable {comparator : Comparator} {lane member : Int}

theorem equal_of_kind_float (isFloat : comparator.kind = .float) (left right : Int) :
    comparator.equal left right =
      (!comparator.floatFormat.isNaN left && !comparator.floatFormat.isNaN right &&
        comparator.floatFormat.rank left == comparator.floatFormat.rank right) := by
  unfold equal holds FloatFormat.compare?
  simp only [isFloat]
  cases comparator.floatFormat.isNaN left <;> cases comparator.floatFormat.isNaN right <;>
    simp only [Bool.or_false, Bool.or_true, Bool.false_eq_true, ↓reduceIte, Bool.not_false,
      Bool.not_true, Bool.true_and, Bool.false_and, Bool.and_false, Operator.holdsOf]
  · rw [Bool.eq_iff_iff, beq_iff_eq, beq_iff_eq]
    exact Std.LawfulEqCmp.compare_eq_iff_eq
  all_goals rfl

section Float

variable (isFloat : comparator.kind = .float)

include isFloat

theorem equal_of_isNaN (noNumber : comparator.floatFormat.isNaN lane = true) (member : Int) :
    comparator.equal lane member = false := by
  rw [equal_of_kind_float isFloat, noNumber]
  rfl

theorem equal_of_magnitude_eq_zero (fits : comparator.floatFormat.Fits member)
    (zero : comparator.floatFormat.magnitude lane = 0) :
    comparator.equal lane member =
      (0 == member || comparator.floatFormat.negativeZero == member) := by
  have ranks : comparator.floatFormat.rank lane = 0 := FloatFormat.rank_eq_zero_iff.mpr zero
  rw [equal_of_kind_float isFloat, FloatFormat.not_isNaN_of_magnitude_eq_zero zero, ranks,
    Bool.eq_iff_iff]
  simp only [Bool.not_false, Bool.true_and, Bool.and_eq_true, Bool.not_eq_true', beq_iff_eq,
    Bool.or_eq_true, eq_comm (a := (0 : Int)), eq_comm (b := member)]
  rw [FloatFormat.rank_eq_zero_iff, ← FloatFormat.magnitude_eq_zero_iff fits]
  exact and_iff_right_of_imp FloatFormat.not_isNaN_of_magnitude_eq_zero

theorem equal_of_magnitude_ne_zero (laneFits : comparator.floatFormat.Fits lane)
    (fits : comparator.floatFormat.Fits member)
    (number : comparator.floatFormat.isNaN lane = false)
    (nonzero : comparator.floatFormat.magnitude lane ≠ 0) :
    comparator.equal lane member = (lane == member) := by
  rw [equal_of_kind_float isFloat, number, Bool.eq_iff_iff]
  simp only [Bool.not_false, Bool.true_and, Bool.and_eq_true, Bool.not_eq_true', beq_iff_eq]
  constructor
  · rintro ⟨_, ranks⟩
    exact FloatFormat.eq_of_rank_eq laneFits fits nonzero ranks
  · rintro rfl
    exact ⟨number, rfl⟩

end Float

end Comparator

theorem ColumnDescriptor.HasLane.fits {column : ColumnDescriptor} {pair : SentinelPair} {lane : Int}
    (hasLane : column.HasLane lane) (wellFormed : pair.WellFormed column.width)
    (isFloat : column.comparator.kind = .float) : column.comparator.floatFormat.Fits lane := by
  obtain ⟨stored, length, rfl⟩ := hasLane
  -- Floats are never compared at width 16, and up to 8 bytes their lanes are signed.
  have narrow : column.width ≠ 16 := by
    intro wide
    rw [comparator_of_wide wide] at isFloat
    cases isFloat
  rw [comparator_of_narrow narrow] at isFloat ⊢
  have lane : laneOf column.kind stored = LittleEndian.intValue stored :=
    (laneOf_eq _ _).trans (if_neg fun both => ValueKind.noConfusion (isFloat.symm.trans both.1))
  rw [lane, LittleEndian.intValue, length]
  have positive := LittleEndian.capacity_pos column.width
  have least := Int.le_bmod (x := LittleEndian.natValue stored) positive
  have greatest := Int.bmod_lt (x := LittleEndian.natValue stored) positive
  have widths : ∀ width ∈ [1, 2, 4, 8],
      LittleEndian.capacity width ≤ 2 * (FloatFormat.ofWidth width).signBit ∧
        LittleEndian.capacity width % 2 = 0 := by decide
  have layout := wellFormed.width_mem
  obtain ⟨room, even⟩ := widths column.width (by
    simp only [List.mem_cons, List.not_mem_nil, or_false] at layout ⊢
    omega)
  simp only [FloatFormat.Fits, Comparator.floatFormat]
  omega

end ColumnScan
