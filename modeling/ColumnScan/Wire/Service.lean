import ColumnScan.Scan.Block
import ColumnScan.Wire.Request

/-!
# Answering scan requests

`answerRequest` decodes a request, compiles its filter, scans a block and encodes the answer. A
caller that already holds the compiled filter of the step passes it along.
-/

set_option autoImplicit false

namespace ColumnScan

/-- The filter of a request, compiled for the request's column. -/
def ScanRequest.compile (request : ScanRequest) : Except ScanError CompiledFilter :=
  CompiledFilter.compile request.filter request.column.width request.column.logicalType
    request.predicateCount request.combinator

def answerRequest (request : Bytes) (block : Array UInt8) (compiled : Option CompiledFilter)
    (capacity : Nat) (config : ScanConfig) : Except ScanError Bytes := do
  let request ← ScanRequest.decode request
  let filter ← match compiled with
    | some filter => pure filter
    | none => request.compile
  let answer ← scanBlock request.column filter block request.rows capacity config
  return answer.encode

end ColumnScan
