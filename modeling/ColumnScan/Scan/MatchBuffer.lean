import ColumnScan.Column.OutputMask
import ColumnScan.Scan.View

/-!
# Collecting matches

Matches are collected in order. The caller may limit the bytes that they take once encoded; the
first match that does not fit ends the scan.
-/

set_option autoImplicit false

namespace ColumnScan

/-- The matches found so far. -/
structure MatchBuffer where
  entrySize : Nat
  /-- The greatest number of encoded bytes, if there is a limit. -/
  limit : Option Nat
  found : Array Candidate := #[]

namespace MatchBuffer

/-- Add one match, unless it exceeds the limit. -/
def push (buffer : MatchBuffer) (candidate : Candidate) : Except ScanError MatchBuffer :=
  let needed := (buffer.found.size + 1) * buffer.entrySize
  match buffer.limit with
  | some limit =>
      if limit < needed then .error (.outputTooSmall needed limit)
      else .ok { buffer with found := buffer.found.push candidate }
  | none => .ok { buffer with found := buffer.found.push candidate }

def pushIf (condition : Bool) (buffer : MatchBuffer) (candidate : Candidate) :
    Except ScanError MatchBuffer :=
  if condition then buffer.push candidate else .ok buffer

end MatchBuffer

/-- The bytes of one match: its row index if rows are emitted, then its value if values are. -/
def Candidate.entry (mask : OutputMask) (candidate : Candidate) : Bytes :=
  (if mask.emitsRow then LittleEndian.ofNat 2 candidate.row.toNat else []) ++
    (if mask.emitsValue then candidate.stored else [])

end ColumnScan
