import ColumnScan.Catalog.Sentinel
import ColumnScan.Column.Collation
import ColumnScan.Column.OutputMask

/-!
# Column descriptors

A descriptor says how a column is stored, how it is compared and what a scan of it emits. It is
built once per step and used for every block.
-/

set_option autoImplicit false

namespace ColumnScan

/-- A column and what to emit for its matches. -/
structure ColumnDescriptor where
  width : Nat
  logicalType : LogicalType
  scale : Int8 := 0
  precision : UInt8 := 0
  output : OutputMask := .value
  /-- A scan considers every row; otherwise only the rows that the previous step left. -/
  isScan : Bool := true
  collation : Collation := .binary
deriving DecidableEq

namespace ColumnDescriptor

def kind (column : ColumnDescriptor) : ValueKind :=
  column.logicalType.kindAt column.width

def sentinels (column : ColumnDescriptor) : Except ScanError SentinelPair :=
  column.logicalType.sentinels column.width

/-- Whether values of this kind and width can be scanned. -/
def scannable : ValueKind → Nat → Bool
  | .signed, width => width ∈ [1, 2, 4, 8, 16]
  | .unsigned, width => width ∈ [1, 2, 4, 8]
  | .float, width => width ∈ [4, 8]
  | .text, width => width ∈ [1, 2, 4, 8]

def isSupported (column : ColumnDescriptor) : Bool :=
  scannable column.kind column.width

def validate (column : ColumnDescriptor) : Except ScanError Unit :=
  if column.isSupported then .ok ()
  else .error (.unsupportedColumn column.width column.logicalType)

/-- Whether scans of this type and width report the least and the greatest value. Floats and wide
text do not. -/
def hasExtent (column : ColumnDescriptor) : Bool :=
  match column.logicalType with
  | .char => column.width ≤ 8
  | .varChar | .blob | .text => column.width < 8
  | .tinyInt | .smallInt | .medInt | .int | .bigInt => true
  | .date | .dateTime | .time | .timestamp => true
  | .uTinyInt | .uSmallInt | .uMedInt | .uInt | .uBigInt => true
  | .decimal | .uDecimal => true
  | .bit | .float | .uFloat | .double | .uDouble | .varBinary | .clob => false

/-- Whether a scan reports the least and the greatest value. Only scans of all rows do, and only of
columns up to the given width. -/
def tracksExtent (column : ColumnDescriptor) (listedRows maxWidth : Nat) : Bool :=
  listedRows == 0 && column.width ≤ maxWidth && column.hasExtent

end ColumnDescriptor

end ColumnScan
