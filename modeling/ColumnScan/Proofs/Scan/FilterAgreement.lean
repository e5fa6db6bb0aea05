import ColumnScan.Proofs.Scan.NullRows

/-!
# Filters that agree

Two filters of one column are compared value by value. Where they agree on every value that is not NULL,
scans report the same rows apart from NULL rows; where one accepts less than the other, a scan reports
the rows of what is left.
-/

set_option autoImplicit false

namespace ColumnScan

variable {column : ColumnDescriptor} {pair : SentinelPair} {left right : CompiledFilter}
  {block : Array UInt8} {rowCount : Nat} {rows : List RowIndex}
  (scannable : Scannable column left block rowCount rows)
  (wellFormed : pair.WellFormed column.width)

section Narrower

variable {selected : Bytes → Bool}
  (narrower : ∀ stored : Bytes, stored.length = column.width →
    pair.isNull (LittleEndian.natValue stored) = false →
    left.accepts column.comparator (laneOf column.kind stored) false =
      (right.accepts column.comparator (laneOf column.kind stored) false && selected stored))

include scannable wellFormed narrower

theorem Scannable.qualifies_eq_and {row : RowIndex} (visited : row ∈ rowsToVisit rowCount rows)
    (notNull : pair.isNull (LittleEndian.natValue (cell block column.width row.toNat)) = false) :
    column.qualifies pair left rows (cell block column.width row.toNat) =
      (column.qualifies pair right rows (cell block column.width row.toNat) &&
        selected (cell block column.width row.toNat)) := by
  have length := scannable.length_cell_of_visited visited
  rw [ColumnDescriptor.qualifies_of_not_isNull left rows wellFormed length notNull,
    ColumnDescriptor.qualifies_of_not_isNull right rows wellFormed length notNull,
    narrower _ length notNull, Bool.and_assoc]

theorem Scannable.qualifyingRows_eq_filter
    (ordinary : ∀ row ∈ requestedRows rowCount rows,
      pair.isNull (LittleEndian.natValue (cell block column.width row.toNat)) = false) :
    qualifyingRows column pair left block rowCount rows =
      (qualifyingRows column pair right block rowCount rows).filter fun row =>
        selected (cell block column.width row.toNat) := by
  rw [qualifyingRows, qualifyingRows, List.filter_filter]
  refine List.filter_congr fun row visited => ?_
  have notNull := ordinary row (rowsToVisit_perm.mem_iff.mp visited)
  rw [scannable.qualifies_eq_and wellFormed narrower visited notNull, Bool.and_comm]

end Narrower

section Agreement

variable
  (agree : ∀ stored : Bytes, stored.length = column.width →
    pair.isNull (LittleEndian.natValue stored) = false →
    left.accepts column.comparator (laneOf column.kind stored) false =
      right.accepts column.comparator (laneOf column.kind stored) false)

include scannable wellFormed agree

theorem Scannable.qualifies_eq {row : RowIndex} (visited : row ∈ rowsToVisit rowCount rows)
    (notNull : pair.isNull (LittleEndian.natValue (cell block column.width row.toNat)) = false) :
    column.qualifies pair left rows (cell block column.width row.toNat) =
      column.qualifies pair right rows (cell block column.width row.toNat) := by
  have narrowed := scannable.qualifies_eq_and wellFormed
    (fun stored length ordinary => (agree stored length ordinary).trans (Bool.and_true _).symm)
    visited notNull
  exact narrowed.trans (Bool.and_true _)

theorem Scannable.filter_not_isNull_eq :
    ((qualifyingRows column pair left block rowCount rows).filter fun row =>
        !pair.isNull (LittleEndian.natValue (cell block column.width row.toNat))) =
      (qualifyingRows column pair right block rowCount rows).filter fun row =>
        !pair.isNull (LittleEndian.natValue (cell block column.width row.toNat)) := by
  rw [qualifyingRows, qualifyingRows, List.filter_filter, List.filter_filter]
  refine List.filter_congr fun row visited => ?_
  cases isNull : pair.isNull (LittleEndian.natValue (cell block column.width row.toNat)) with
  | true => rfl
  | false => rw [scannable.qualifies_eq wellFormed agree visited isNull]

/-- NULL rows all pass as the first pattern, so one value decides whether they are reported alike. -/
theorem Scannable.qualifyingRows_eq_iff :
    qualifyingRows column pair left block rowCount rows =
        qualifyingRows column pair right block rowCount rows ↔
      left.accepts column.comparator (laneOf column.kind pair.nullBytes) true =
          right.accepts column.comparator (laneOf column.kind pair.nullBytes) true ∨
        ∀ row ∈ requestedRows rowCount rows,
          pair.isNull (LittleEndian.natValue (cell block column.width row.toNat)) = false := by
  constructor
  · intro reported
    by_cases ordinary : ∀ row ∈ requestedRows rowCount rows,
        pair.isNull (LittleEndian.natValue (cell block column.width row.toNat)) = false
    · exact .inr ordinary
    · simp only [not_forall, Bool.not_eq_false] at ordinary
      obtain ⟨row, requested, isNull⟩ := ordinary
      have visited : row ∈ rowsToVisit rowCount rows := rowsToVisit_perm.mem_iff.mpr requested
      have members := congrArg (row ∈ ·) reported
      simp only [qualifyingRows, List.mem_filter, visited, true_and,
        ColumnDescriptor.qualifies_of_isNull _ rows wellFormed isNull] at members
      exact .inl (Bool.eq_iff_iff.mpr (Iff.of_eq members))
  · intro decided
    refine List.filter_congr fun row visited => ?_
    cases isNull : pair.isNull (LittleEndian.natValue (cell block column.width row.toNat)) with
    | false => exact scannable.qualifies_eq wellFormed agree visited isNull
    | true =>
        rw [ColumnDescriptor.qualifies_of_isNull _ rows wellFormed isNull,
          ColumnDescriptor.qualifies_of_isNull _ rows wellFormed isNull]
        refine decided.resolve_right fun ordinary => ?_
        rw [ordinary row (rowsToVisit_perm.mem_iff.mp visited)] at isNull
        cases isNull

end Agreement

end ColumnScan
