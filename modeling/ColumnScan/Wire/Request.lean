import ColumnScan.Bytes.Reader
import ColumnScan.Column.Descriptor
import ColumnScan.Filter.Predicate
import ColumnScan.Scan.RowMap

/-!
# Scan requests

A request is a header of twelve bytes, predicate records and row indexes. The header holds, in this
order: the width (1), the type (1), the scale (1, signed), the precision (1), the output mask (1),
the combinator (1), the number of predicates (2), whether the rows are sorted (1), the number of
rows (2) and the collation (1). A request without rows asks for a scan of all rows.
-/

set_option autoImplicit false

namespace ColumnScan

/-- What a client asks of a block. -/
structure ScanRequest where
  column : ColumnDescriptor
  combinator : Combinator
  predicateCount : UInt16
  filter : Bytes
  /-- Whether the client lists the rows in ascending order. Scans do not rely on it. -/
  isSorted : Bool
  rows : List RowIndex
deriving DecidableEq

namespace ScanRequest

/-- A request for all rows. The count of predicates is kept in sixteen bits. -/
def ofPredicates (column : ColumnDescriptor) (combinator : Combinator)
    (predicates : List Predicate) : ScanRequest where
  column
  combinator
  predicateCount := UInt16.ofNat predicates.length
  filter := predicateRecords predicates
  isSorted := true
  rows := []

def withRows (request : ScanRequest) (rows : List RowIndex) (isSorted : Bool) : ScanRequest :=
  { request with rows, isSorted, column := { request.column with isScan := false } }

/-- The header of a request. Width and number of rows must fit their fields. -/
def header (request : ScanRequest) : Bytes :=
  let column := request.column
  [UInt8.ofNat column.width, column.logicalType.code, column.scale.toUInt8, column.precision,
    column.output.bits, request.combinator.code] ++
    word16Bytes request.predicateCount ++
    [if request.isSorted then 1 else 0] ++
    word16Bytes (UInt16.ofNat request.rows.length) ++
    [column.collation.code]

def encode (request : ScanRequest) : Except ScanError Bytes :=
  if 255 < request.column.width then
    .error (.invalidArgument (.columnWidth request.column.width))
  else if 65535 < request.rows.length then
    .error (.invalidArgument (.tooManyRowIndexes request.rows.length))
  else
    .ok (request.header ++ request.filter ++ request.rows.flatMap word16Bytes)

def readType (code : UInt8) : Except ScanError LogicalType :=
  match LogicalType.ofCode? code with
  | some logicalType => .ok logicalType
  | none => .error (.malformed (.unknownType code))

def readCollation (code : UInt8) : Except ScanError Collation :=
  match Collation.ofCode? code with
  | some collation => .ok collation
  | none => .error (.malformed (.unknownCollation code))

def readRows (count : Nat) : Reading (List RowIndex) :=
  (List.range count).mapM fun _ => Reader.word16

def reading : Reading ScanRequest := do
  let width ← Reader.byte
  let typeCode ← Reader.byte
  let logicalType ← readType typeCode
  let scale ← Reader.byte
  let precision ← Reader.byte
  let mask ← Reader.byte
  let output ← OutputMask.ofBits mask
  let combinatorCode ← Reader.byte
  let combinator ← Combinator.ofCode combinatorCode
  let predicateCount ← Reader.word16
  let sorted ← Reader.byte
  let rowCount ← Reader.word16
  let collationCode ← Reader.byte
  let collation ← readCollation collationCode
  let filter ← Reader.take (predicateCount.toNat * (recordOverhead + width.toNat))
  let rows ← readRows rowCount.toNat
  return {
    column :=
      { width := width.toNat, logicalType, scale := scale.toInt8, precision, output
        isScan := rowCount == 0, collation }
    combinator
    predicateCount
    filter
    isSorted := sorted != 0
    rows }

/-- Read a request. Bytes after the last row index are ignored. -/
def decode (bytes : Bytes) : Except ScanError ScanRequest := (reading (Reader.ofBytes bytes)).1

end ScanRequest

end ColumnScan
