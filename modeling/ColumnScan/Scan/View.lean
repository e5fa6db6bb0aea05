import ColumnScan.Filter.Evaluation
import ColumnScan.Scan.RowMap

/-!
# The candidate rows of a block

A scan looks at every row of a block, or only at listed rows. Either way it visits them in
ascending order, and a row that is listed twice is visited twice.
-/

set_option autoImplicit false

namespace ColumnScan

/-- A row that a scan visits. -/
structure Candidate where
  row : RowIndex
  stored : Bytes
  lane : Int
deriving DecidableEq

namespace Candidate

/-- The row with the given index in a block of values of the given kind and width. -/
def ofBlock (kind : ValueKind) (width : Nat) (block : Array UInt8) (row : RowIndex) : Candidate :=
  let stored := cell block width row.toNat
  { row, stored, lane := laneOf kind stored }

end Candidate

/-- The rows that a scan visits: those listed, in ascending order, or all if none is listed. -/
def rowsToVisit (rowCount : Nat) (listed : List RowIndex) : List RowIndex :=
  if listed.isEmpty then (List.range rowCount).map UInt16.ofNat
  else listed.mergeSort fun left right => left ≤ right

/-- What a scan of one block needs to know besides its filter. -/
structure BlockView where
  comparator : Comparator
  sentinels : LaneSentinels
  candidates : List Candidate
  skipsEmpty : Bool
  tracksExtent : Bool

namespace BlockView

def isOrdinary (view : BlockView) (lane : Int) : Bool :=
  !view.sentinels.isEmpty lane && !view.sentinels.isNull lane

end BlockView

end ColumnScan
