import ColumnScan.Scan.Answer
import ColumnScan.Scan.Strategy

/-!
# Scanning a block

`scanBlock` applies a compiled filter to one block of values and encodes the matching rows.
-/

set_option autoImplicit false

namespace ColumnScan

/-- The settings of a scan. -/
structure ScanConfig where
  batches : Bool := true
  /-- The widest column whose scans report the least and the greatest value. -/
  maxExtentWidth : Nat := 16
  checksCapacity : Bool := true
deriving DecidableEq

/-- The most bytes that the matches among `rows` candidate rows can take. -/
def worstCaseSize (rows : Nat) (mask : OutputMask) (width : Nat) : Nat :=
  rows * mask.entrySize width

def maxRows : Nat := 65535

/-- The number of values in a block, if it is a whole number that row indexes can address. -/
def blockRows (width : Nat) (block : Array UInt8) : Except ScanError Nat :=
  if block.size % width ≠ 0 then
    .error (.invalidArgument (.partialValues block.size width))
  else if maxRows < block.size / width then
    .error (.invalidArgument (.tooManyRows (block.size / width)))
  else
    .ok (block.size / width)

/-- Refuse a list of rows of which one is not in the block. -/
def checkRows (rowCount : Nat) (rows : List RowIndex) : Except ScanError Unit :=
  match rows.find? fun row => decide (rowCount ≤ row.toNat) with
  | some row => .error (.invalidArgument (.rowOutside row.toNat rowCount))
  | none => .ok ()

/-- Refuse a filter whose lanes are not those of the column. -/
def checkLanes (width : Nat) (lanes : LaneSize) : Except ScanError Unit :=
  match LaneSize.ofWidth width, lanes with
  | .wide, .narrow => .error (.invalidArgument .filterTooNarrow)
  | .narrow, .wide => .error (.invalidArgument (.filterTooWide width))
  | .narrow, .narrow | .wide, .wide => .ok ()

/-- The view of a block with `rowCount` rows under a list of rows. -/
def BlockView.ofBlock (column : ColumnDescriptor) (pair : SentinelPair) (block : Array UInt8)
    (rowCount : Nat) (rows : List RowIndex) (config : ScanConfig) : BlockView where
  comparator := column.comparator
  sentinels := .ofPair column.kind pair
  candidates :=
    (rowsToVisit rowCount rows).map (Candidate.ofBlock column.kind column.width block)
  skipsEmpty := !rows.isEmpty || column.output.emitsRow
  tracksExtent := column.tracksExtent rows.length config.maxExtentWidth

/-- Scan a view in the way that suits the filter and the settings. -/
def BlockView.scan (view : BlockView) (filter : CompiledFilter) (buffer : MatchBuffer)
    (config : ScanConfig) : Except ScanError (MatchBuffer × Extent) :=
  if view.comparator.isBatchable && config.batches && filter.flagsAllZero then
    Batch.scan view filter buffer
  else
    RowByRow.scan view filter buffer

/-- Scan one block for the rows that pass a filter. An empty list of rows scans all of them; matches
come in ascending order of their rows in any case. If the settings ask for it, `capacity` limits
the encoded matches. -/
def scanBlock (column : ColumnDescriptor) (filter : CompiledFilter) (block : Array UInt8)
    (rows : List RowIndex) (capacity : Nat) (config : ScanConfig) :
    Except ScanError ScanAnswer := do
  column.validate
  let rowCount ← blockRows column.width block
  checkRows rowCount rows
  let pair ← column.sentinels
  checkLanes column.width filter.lanes
  let view := BlockView.ofBlock column pair block rowCount rows config
  let buffer : MatchBuffer :=
    { entrySize := column.output.entrySize column.width
      limit := if config.checksCapacity then some capacity else none }
  let (buffer, extent) ← view.scan filter buffer config
  let found := buffer.found.toList
  let (least, greatest) := extent.bounds column.comparator
  return {
    header :=
      { matched := UInt16.ofNat found.length
        rowMap := if column.output.emitsRow then RowMap.ofRows (found.map Candidate.row) else 0
        extentValid := view.tracksExtent
        least
        greatest }
    payload := found.flatMap (Candidate.entry column.output) }

end ColumnScan
