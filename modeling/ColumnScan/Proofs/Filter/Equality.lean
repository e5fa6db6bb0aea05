import ColumnScan.Filter.Evaluation
import ColumnScan.Proofs.Filter.Compilation

/-!
# Equality of values

Filters compare lanes in several ways: through a comparator, as integers, or by hashing. For integer
columns and for text under the binary collation all of them agree on the lanes of a column. A flag
decides equality and inequality without looking at the values, except for floats, which ignore it.
-/

set_option autoImplicit false

namespace ColumnScan

namespace Collation

theorem eq_replicate_takeWhile_binary (bytes : Bytes) :
    bytes.takeWhile binary.isPadding =
      List.replicate (bytes.takeWhile binary.isPadding).length 0 := by
  rw [List.eq_replicate_iff]
  refine ⟨rfl, fun byte member => ?_⟩
  have padding : binary.isPadding byte = true := List.all_eq_true.mp List.all_takeWhile byte member
  simpa only [isPadding, beq_iff_eq] using padding

/-- Only NUL is padding under the binary collation, so the width of a column tells how much of it
was trimmed. -/
theorem trim_binary_injective {left right : Bytes} (sameLength : left.length = right.length)
    (sameTrimmed : binary.trim left = binary.trim right) : left = right := by
  have sameKept : left.reverse.dropWhile binary.isPadding =
      right.reverse.dropWhile binary.isPadding := List.reverse_inj.mp sameTrimmed
  have leftSplit := List.takeWhile_append_dropWhile (p := binary.isPadding) (l := left.reverse)
  have rightSplit := List.takeWhile_append_dropWhile (p := binary.isPadding) (l := right.reverse)
  rw [eq_replicate_takeWhile_binary] at leftSplit rightSplit
  have leftLength := congrArg List.length leftSplit
  have rightLength := congrArg List.length rightSplit
  simp only [List.length_append, List.length_replicate, List.length_reverse] at leftLength rightLength
  rw [sameKept] at leftLength leftSplit
  have samePadding : (left.reverse.takeWhile binary.isPadding).length =
      (right.reverse.takeWhile binary.isPadding).length := by omega
  rw [samePadding, rightSplit] at leftSplit
  exact (List.reverse_inj.mp leftSplit).symm

theorem compare_binary_eq_iff {left right : Bytes} (sameLength : left.length = right.length) :
    binary.compare left right = .eq ↔ left = right := by
  have keys : ∀ bytes : Bytes, binary.sortKey bytes = binary.trim bytes := fun bytes => List.map_id _
  rw [compare, keys, keys, Std.LawfulEqCmp.compare_eq_iff_eq]
  constructor
  · exact trim_binary_injective sameLength
  · rintro rfl
    rfl

end Collation

namespace Comparator

variable {comparator : Comparator} {flag : UInt8} {left right : Int}

/-- Without a flag, inequality is the negation of equality, also for words that are no numbers. -/
theorem holds_notEqual (comparator : Comparator) (left right : Int) :
    comparator.holds .notEqual 0 left right = !comparator.equal left right := by
  unfold equal holds
  split
  · simp [flaggedComparison, bne]
  · simp [flaggedComparison, bne]
  · cases comparator.floatFormat.compare? left right with
    | none => rfl
    | some order => simp only [Operator.holdsOf, bne]
  · simp [holdsText, Operator.isLike, Operator.holdsOf, bne]

theorem holds_equal_of_flag (notFloat : comparator.kind ≠ .float) (flagged : flag ≠ 0) :
    comparator.holds .equal flag left right = false := by
  unfold holds
  split
  · simp [flaggedComparison, flagged]
  · simp [flaggedComparison, flagged]
  next isFloat => exact absurd isFloat notFloat
  · simp [holdsText, Operator.isLike, flaggedTextComparison, flagged]

theorem holds_notEqual_of_flag (notFloat : comparator.kind ≠ .float) (flagged : flag ≠ 0) :
    comparator.holds .notEqual flag left right = true := by
  unfold holds
  split
  · simp [flaggedComparison, flagged]
  · simp [flaggedComparison, flagged]
  next isFloat => exact absurd isFloat notFloat
  · simp [holdsText, Operator.isLike, flaggedTextComparison, flagged]

end Comparator

namespace ColumnDescriptor

variable {column : ColumnDescriptor} {pair : SentinelPair} {left right : Int}

theorem comparator_of_narrow (narrow : column.width ≠ 16) :
    column.comparator = { kind := column.kind, width := column.width, collation := column.collation } := by
  simp only [comparator, Comparator.ofKind, LaneSize.ofWidth, narrow, ↓reduceIte, Comparator.onLanes]

theorem comparator_of_wide (wide : column.width = 16) :
    column.comparator = { kind := .signed, width := 16, collation := column.collation } := by
  simp only [comparator, Comparator.ofKind, LaneSize.ofWidth, wide, ↓reduceIte, Comparator.onLanes]

theorem width_le_of_kind_unsigned (unsigned : column.kind = .unsigned)
    (wellFormed : pair.WellFormed column.width) : column.width ≤ 8 := by
  have narrow : column.width ≠ 16 := by
    intro wide
    rw [kind, LogicalType.kindAt] at unsigned
    split at unsigned
    next => cases unsigned
    next notBoth => exact notBoth ⟨unsigned, wide⟩
  have layout := wellFormed.width_mem
  simp only [List.mem_cons, List.not_mem_nil, or_false] at layout
  omega

/-- Integers are equal to a comparator exactly when their lanes are. -/
theorem comparator_equal_of_isNullAware (aware : column.comparator.isNullAware = true)
    (wellFormed : pair.WellFormed column.width) (leftLane : column.HasLane left)
    (rightLane : column.HasLane right) : column.comparator.equal left right = (left == right) := by
  obtain ⟨leftBytes, leftLength, rfl⟩ := leftLane
  obtain ⟨rightBytes, rightLength, rfl⟩ := rightLane
  by_cases wide : column.width = 16
  · rw [comparator_of_wide wide]
    simp [Comparator.equal, Comparator.holds, flaggedComparison]
  rw [comparator_of_narrow wide] at aware ⊢
  simp only [Comparator.isNullAware, Bool.or_eq_true, beq_iff_eq] at aware
  rcases aware with signed | unsigned
  · simp [Comparator.equal, Comparator.holds, flaggedComparison, signed]
  · have narrow := width_le_of_kind_unsigned unsigned wellFormed
    simp only [Comparator.equal, Comparator.holds, flaggedComparison, unsigned, BEq.rfl,
      Bool.and_true]
    rw [Bool.eq_iff_iff, beq_iff_eq, beq_iff_eq]
    constructor
    · intro same
      rw [unsignedLane_injective (leftLength ▸ narrow) (leftLength.trans rightLength.symm) same]
    · intro same
      rw [same]

theorem comparator_stored_laneOf {stored : Bytes} (length : stored.length = column.width) :
    column.comparator.stored (laneOf column.kind stored) = stored := by
  have width : column.comparator.width = stored.length := by
    by_cases wide : column.width = 16
    · rw [comparator_of_wide wide, length, wide]
    · rw [comparator_of_narrow wide, length]
  rw [Comparator.stored, width, ofInt_laneOf]

theorem comparator_equal_of_binary (text : column.comparator.kind = .text)
    (binary : column.comparator.collation = .binary) (leftLane : column.HasLane left)
    (rightLane : column.HasLane right) : column.comparator.equal left right = (left == right) := by
  obtain ⟨leftBytes, leftLength, rfl⟩ := leftLane
  obtain ⟨rightBytes, rightLength, rfl⟩ := rightLane
  have sameLength := leftLength.trans rightLength.symm
  simp only [Comparator.equal, Comparator.holds, text, Comparator.holdsText, Operator.isLike,
    bne_self_eq_false, Bool.false_eq_true, ↓reduceIte, Operator.holdsOf, binary,
    comparator_stored_laneOf leftLength, comparator_stored_laneOf rightLength]
  rw [Bool.eq_iff_iff, beq_iff_eq, beq_iff_eq, Collation.compare_binary_eq_iff sameLength]
  constructor
  · rintro rfl
    rfl
  · exact laneOf_injective sameLength

end ColumnDescriptor

end ColumnScan
