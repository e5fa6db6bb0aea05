import ColumnScan.Filter.Comparator

/-!
# The order of lanes

Bounds are sought in one order and predicates are decided by another function. The order is total
and transitive for every comparator. Predicates without a flag follow it for integers and for text
of more than one byte. One-byte text is ordered by its lanes, where the bytes from 0x80 on come
first, while predicates go by the collation.
-/

set_option autoImplicit false

namespace ColumnScan

namespace Comparator

instance transCmp_order (comparator : Comparator) : Std.TransCmp comparator.order := by
  cases kind : comparator.kind with
  | signed =>
      have same : comparator.order = compareOn id := by
        funext left right
        simp only [order, kind, compareOn, id]
      rw [same]
      infer_instance
  | unsigned =>
      have same : comparator.order = compareOn unsignedLane := by
        funext left right
        simp only [order, kind, compareOn]
      rw [same]
      infer_instance
  | float =>
      have same : comparator.order = compareOn comparator.floatFormat.totalRank := by
        funext left right
        simp only [order, kind, compareOn, FloatFormat.totalCompare]
      rw [same]
      infer_instance
  | text =>
      by_cases byte : comparator.width = 1
      · have same : comparator.order = compareOn id := by
          funext left right
          simp only [order, kind, byte, ↓reduceIte, compareOn, id]
        rw [same]
        infer_instance
      · have same : comparator.order =
            compareOn fun lane => comparator.collation.sortKey (comparator.stored lane) := by
          funext left right
          simp only [order, kind, byte, ↓reduceIte, compareOn]
          rfl
        rw [same]
        infer_instance

/-- Predicates without a flag hold of what stands in the order of the comparator. -/
structure FollowsOrder (comparator : Comparator) : Prop where
  less : ∀ left right, comparator.holds .less 0 left right = (comparator.order left right == .lt)
  greater : ∀ left right,
    comparator.holds .greater 0 left right = (comparator.order left right == .gt)

theorem flaggedComparison_less (left right : Int) :
    flaggedComparison .less 0 left right = (Ord.compare left right == .lt) := by
  rw [Bool.eq_iff_iff]
  simp [flaggedComparison, Int.compare_eq_lt]

theorem flaggedComparison_greater (left right : Int) :
    flaggedComparison .greater 0 left right = (Ord.compare left right == .gt) := by
  rw [Bool.eq_iff_iff]
  simp [flaggedComparison, Int.compare_eq_gt]

theorem followsOrder {comparator : Comparator} (notFloat : comparator.kind ≠ .float)
    (notByte : comparator.kind = .text → comparator.width ≠ 1) : comparator.FollowsOrder := by
  cases kind : comparator.kind with
  | signed =>
      constructor <;> intro left right <;> simp only [holds, order, kind]
      · exact flaggedComparison_less left right
      · exact flaggedComparison_greater left right
  | unsigned =>
      constructor <;> intro left right <;> simp only [holds, order, kind]
      · exact flaggedComparison_less _ _
      · exact flaggedComparison_greater _ _
  | float => exact absurd kind notFloat
  | text =>
      have width := notByte kind
      constructor <;> intro left right <;> simp only [holds, order, kind, width, ↓reduceIte] <;> rfl

end Comparator

end ColumnScan
