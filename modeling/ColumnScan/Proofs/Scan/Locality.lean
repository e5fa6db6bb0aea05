import ColumnScan.Proofs.Scan.Candidates

/-!
# What a scan looks at

A scan of listed rows depends on no value of the block but those of the listed rows.
-/

set_option autoImplicit false

namespace ColumnScan

variable {column : ColumnDescriptor} {left right : Array UInt8} {rows : List RowIndex}

theorem BlockView.ofBlock_congr (pair : SentinelPair) (rowCount : Nat) (config : ScanConfig)
    (listed : rows ≠ [])
    (agree : ∀ row ∈ rows, cell left column.width row.toNat = cell right column.width row.toNat) :
    ofBlock column pair left rowCount rows config = ofBlock column pair right rowCount rows config := by
  have candidates : (rowsToVisit rowCount rows).map (Candidate.ofBlock column.kind column.width left) =
      (rowsToVisit rowCount rows).map (Candidate.ofBlock column.kind column.width right) := by
    refine List.map_congr_left fun row member => ?_
    simp only [Candidate.ofBlock, agree row (mem_of_mem_rowsToVisit listed member)]
  simp only [ofBlock, candidates]

theorem scanBlock_congr (filter : CompiledFilter) (capacity : Nat) (config : ScanConfig)
    (size : left.size = right.size) (listed : rows ≠ [])
    (agree : ∀ row ∈ rows, cell left column.width row.toNat = cell right column.width row.toNat) :
    scanBlock column filter left rows capacity config =
      scanBlock column filter right rows capacity config := by
  simp only [scanBlock, blockRows, size, BlockView.ofBlock_congr _ _ _ listed agree]

end ColumnScan
