import ColumnScan.Proofs.Filter.Compilation
import ColumnScan.Scan.Block

/-!
# The rows that a scan visits

The visited rows are the listed ones, or all, in ascending order and each as often as it is listed.
Every visited row holds a value of the column's full width.
-/

set_option autoImplicit false

namespace ColumnScan

theorem ColumnDescriptor.validate_eq_ok_iff {column : ColumnDescriptor} :
    column.validate = .ok () ↔ column.isSupported = true := by
  unfold validate
  cases column.isSupported with
  | true => exact iff_of_true rfl rfl
  | false => exact iff_of_false nofun Bool.false_ne_true

section Checks

variable {width rowCount : Nat} {block : Array UInt8} {rows : List RowIndex}

theorem blockRows_eq_ok (accepted : blockRows width block = .ok rowCount) :
    block.size = rowCount * width ∧ rowCount ≤ maxRows := by
  unfold blockRows at accepted
  split at accepted
  next => cases accepted
  next whole =>
    split at accepted
    next => cases accepted
    next addressable =>
      cases accepted
      have exactly : block.size % width = 0 := Decidable.not_not.mp whole
      exact ⟨(Nat.div_mul_cancel (Nat.dvd_of_mod_eq_zero exactly)).symm, Nat.le_of_not_lt addressable⟩

theorem blockRows_of_size (positive : 0 < width) (size : block.size = rowCount * width)
    (addressable : rowCount ≤ maxRows) : blockRows width block = .ok rowCount := by
  have whole : block.size % width = 0 := by rw [size, Nat.mul_mod_left]
  have count : block.size / width = rowCount := by rw [size, Nat.mul_div_cancel _ positive]
  simp only [blockRows, whole, count, Nat.not_lt.mpr addressable, ne_eq, not_true_eq_false,
    ↓reduceIte]

theorem checkRows_eq_ok_iff :
    checkRows rowCount rows = .ok () ↔ ∀ row ∈ rows, row.toNat < rowCount := by
  unfold checkRows
  cases outside : rows.find? fun row => decide (rowCount ≤ row.toNat) with
  | none =>
      rw [List.find?_eq_none] at outside
      simp only [decide_eq_true_eq, Nat.not_le] at outside
      exact iff_of_true rfl outside
  | some row =>
      have found := List.find?_some outside
      have member := List.mem_of_find?_eq_some outside
      simp only [decide_eq_true_eq] at found
      refine iff_of_false (fun equal => by cases equal) fun inside => ?_
      exact Nat.not_lt.mpr found (inside row member)

end Checks

/-- The rows that a scan has to consider. -/
def requestedRows (rowCount : Nat) (listed : List RowIndex) : List RowIndex :=
  if listed.isEmpty then (List.range rowCount).map UInt16.ofNat else listed

section Visited

variable {rowCount : Nat} {listed : List RowIndex}

theorem rowsToVisit_perm : (rowsToVisit rowCount listed).Perm (requestedRows rowCount listed) := by
  unfold rowsToVisit requestedRows
  split
  · exact List.Perm.refl _
  · exact List.mergeSort_perm _ _

/-- Rows of a list are the only ones that are visited for it. -/
theorem mem_of_mem_rowsToVisit (nonempty : listed ≠ []) {row : RowIndex}
    (visited : row ∈ rowsToVisit rowCount listed) : row ∈ listed := by
  have requested := rowsToVisit_perm.mem_iff.mp visited
  rwa [requestedRows, if_neg (by simpa only [List.isEmpty_iff] using nonempty)] at requested

theorem toNat_ofNat_of_lt {index : Nat} (addressable : rowCount ≤ maxRows)
    (inside : index < rowCount) : (UInt16.ofNat index).toNat = index := by
  have bound : index < UInt16.size := by
    simp only [maxRows] at addressable
    simp only [UInt16.size]
    omega
  exact UInt16.toNat_ofNat_of_lt' bound

theorem pairwise_lt_range_rows (addressable : rowCount ≤ maxRows) :
    ((List.range rowCount).map UInt16.ofNat).Pairwise (· < ·) := by
  rw [List.pairwise_map]
  refine List.pairwise_lt_range.imp_of_mem fun {left right} leftMember rightMember below => ?_
  rwa [UInt16.lt_iff_toNat_lt, toNat_ofNat_of_lt addressable (List.mem_range.mp leftMember),
    toNat_ofNat_of_lt addressable (List.mem_range.mp rightMember)]

theorem mem_range_rows_iff (addressable : rowCount ≤ maxRows) {row : RowIndex} :
    row ∈ (List.range rowCount).map UInt16.ofNat ↔ row.toNat < rowCount := by
  rw [List.mem_map]
  constructor
  · rintro ⟨index, member, rfl⟩
    have below := List.mem_range.mp member
    rwa [toNat_ofNat_of_lt addressable below]
  · intro below
    exact ⟨row.toNat, List.mem_range.mpr below, UInt16.ofNat_toNat⟩

theorem rowsToVisit_sorted (addressable : rowCount ≤ maxRows) :
    (rowsToVisit rowCount listed).Pairwise (· ≤ ·) := by
  unfold rowsToVisit
  split
  · exact (pairwise_lt_range_rows addressable).imp UInt16.le_of_lt
  · have sorted : (listed.mergeSort fun left right => left ≤ right).Pairwise
        fun left right => decide (left ≤ right) = true := by
      apply List.pairwise_mergeSort
      · intro left middle right
        simpa only [decide_eq_true_eq] using UInt16.le_trans
      · intro left right
        simpa only [Bool.or_eq_true, decide_eq_true_eq] using UInt16.le_total left right
    exact sorted.imp decide_eq_true_eq.mp

theorem lt_of_mem_rowsToVisit (addressable : rowCount ≤ maxRows)
    (inside : ∀ row ∈ listed, row.toNat < rowCount) {row : RowIndex}
    (member : row ∈ rowsToVisit rowCount listed) : row.toNat < rowCount := by
  have requested := rowsToVisit_perm.mem_iff.mp member
  unfold requestedRows at requested
  split at requested
  · exact (mem_range_rows_iff addressable).mp requested
  · exact inside row requested

theorem length_rowsToVisit_le (addressable : rowCount ≤ maxRows) (few : listed.length ≤ maxRows) :
    (rowsToVisit rowCount listed).length ≤ maxRows := by
  rw [rowsToVisit_perm.length_eq, requestedRows]
  split
  · simpa only [List.length_map, List.length_range] using addressable
  · exact few

end Visited

namespace BlockView

/-- A view compares and classifies as its column does, and its lanes are those of stored values. -/
structure Reads (column : ColumnDescriptor) (pair : SentinelPair) (view : BlockView) : Prop where
  comparator_eq : view.comparator = column.comparator
  sentinels_eq : view.sentinels = column.laneSentinels pair
  hasLane : ∀ candidate ∈ view.candidates, column.HasLane candidate.lane

section OfBlock

variable {column : ColumnDescriptor} {pair : SentinelPair} {block : Array UInt8} {rowCount : Nat}
  {rows : List RowIndex} {config : ScanConfig} (size : block.size = rowCount * column.width)
  (addressable : rowCount ≤ maxRows) (inside : ∀ row ∈ rows, row.toNat < rowCount)

include size addressable inside

theorem length_stored {candidate : Candidate}
    (member : candidate ∈ (ofBlock column pair block rowCount rows config).candidates) :
    candidate.stored.length = column.width := by
  obtain ⟨row, visited, rfl⟩ := List.mem_map.mp member
  exact length_cell (Nat.le_of_eq size.symm) (lt_of_mem_rowsToVisit addressable inside visited)

theorem reads_ofBlock : (ofBlock column pair block rowCount rows config).Reads column pair := by
  refine ⟨rfl, rfl, ?_⟩
  intro candidate member
  have length := length_stored size addressable inside member
  obtain ⟨row, _, rfl⟩ := List.mem_map.mp member
  exact ⟨cell block column.width row.toNat, length, rfl⟩

end OfBlock

end BlockView

end ColumnScan
