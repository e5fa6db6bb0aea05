import ColumnScan.Scan.Extent
import ColumnScan.Scan.MatchBuffer

/-!
# The two ways to scan a block

Row by row, every candidate is classified and passed through the filter on its own. In a batch, the
candidates are gathered first, the filter is applied predicate by predicate to all of them, and the
matches are emitted at the end. A batch needs a filter without flags and a comparator that allows
it; then both ways find the same matches and the same extent.

EMPTY rows match if the filter accepts EMPTY as an ordinary value, unless they are passed over. NULL
rows match if the filter accepts the primary NULL pattern as NULL. Only other rows count for the
extent.
-/

set_option autoImplicit false

namespace ColumnScan

namespace RowByRow

def accepts (view : BlockView) (filter : CompiledFilter) (emptyMatches nullMatches : Bool)
    (candidate : Candidate) : Bool :=
  if view.sentinels.isEmpty candidate.lane then !view.skipsEmpty && emptyMatches
  else if view.sentinels.isNull candidate.lane then nullMatches
  else filter.accepts view.comparator candidate.lane false

def visit (view : BlockView) (filter : CompiledFilter) (emptyMatches nullMatches : Bool)
    (state : MatchBuffer × Extent) (candidate : Candidate) :
    Except ScanError (MatchBuffer × Extent) := do
  let (buffer, extent) := state
  let buffer ← buffer.pushIf (accepts view filter emptyMatches nullMatches candidate) candidate
  let extent :=
    if view.tracksExtent && view.isOrdinary candidate.lane then
      extent.insert view.comparator candidate.lane
    else
      extent
  return (buffer, extent)

def scan (view : BlockView) (filter : CompiledFilter) (buffer : MatchBuffer) :
    Except ScanError (MatchBuffer × Extent) :=
  let emptyMatches := filter.accepts view.comparator view.sentinels.empty false
  let nullMatches := filter.accepts view.comparator view.sentinels.null true
  view.candidates.foldlM (visit view filter emptyMatches nullMatches) (buffer, Extent.empty)

end RowByRow

namespace Batch

def gather (view : BlockView) : List Candidate :=
  view.candidates.filter fun candidate =>
    !(view.skipsEmpty && view.sentinels.isEmpty candidate.lane)

def extent (view : BlockView) (gathered : List Candidate) : Extent :=
  if view.tracksExtent then
    ((gathered.map Candidate.lane).filter view.isOrdinary).foldl (Extent.insert view.comparator)
      Extent.empty
  else
    Extent.empty

/-- Emit one gathered candidate if it is a match; `accepted` is the filter's answer for its value
as an ordinary value. -/
def emit (view : BlockView) (nullMatches : Bool) (buffer : MatchBuffer)
    (answer : Candidate × Bool) : Except ScanError MatchBuffer :=
  let (candidate, accepted) := answer
  let isMatch := if view.sentinels.isNull candidate.lane then nullMatches else accepted
  buffer.pushIf isMatch candidate

def scan (view : BlockView) (filter : CompiledFilter) (buffer : MatchBuffer) :
    Except ScanError (MatchBuffer × Extent) := do
  let nullMatches := filter.accepts view.comparator view.sentinels.null true
  let gathered := gather view
  let answers := filter.acceptsEach view.comparator (gathered.map Candidate.lane)
  let buffer ← (gathered.zip answers).foldlM (emit view nullMatches) buffer
  return (buffer, extent view gathered)

end Batch

end ColumnScan
