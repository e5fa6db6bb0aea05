/-!
# Logical column types

The catalog numbers every column type with one byte. A type decides how the values of a column
are compared, and that comparison family is its `ValueKind`.
-/

set_option autoImplicit false

namespace ColumnScan

/-- How the stored values of a column are compared. -/
inductive ValueKind where
  | signed
  | unsigned
  /-- Floating-point numbers, read from their stored bits. -/
  | float
  | text
deriving DecidableEq

def ValueKind.name : ValueKind → String
  | .signed => "Signed"
  | .unsigned => "Unsigned"
  | .float => "Float"
  | .text => "Text"

/-- A column type of the catalog. -/
inductive LogicalType where
  | bit
  | tinyInt
  | char
  | smallInt
  | decimal
  | medInt
  | int
  | float
  | date
  | bigInt
  | double
  | dateTime
  | varChar
  | varBinary
  | clob
  | blob
  | uTinyInt
  | uSmallInt
  | uDecimal
  | uMedInt
  | uInt
  | uFloat
  | uBigInt
  | uDouble
  | text
  | time
  | timestamp
deriving DecidableEq

namespace LogicalType

/-- Every type, in the order of the catalog's codes. -/
def all : List LogicalType :=
  [.bit, .tinyInt, .char, .smallInt, .decimal, .medInt, .int, .float, .date, .bigInt, .double,
    .dateTime, .varChar, .varBinary, .clob, .blob, .uTinyInt, .uSmallInt, .uDecimal, .uMedInt,
    .uInt, .uFloat, .uBigInt, .uDouble, .text, .time, .timestamp]

/-- The catalog's code of a type. Codes are stable: they travel in scan requests. -/
def code : LogicalType → UInt8
  | .bit => 0
  | .tinyInt => 1
  | .char => 2
  | .smallInt => 3
  | .decimal => 4
  | .medInt => 5
  | .int => 6
  | .float => 7
  | .date => 8
  | .bigInt => 9
  | .double => 10
  | .dateTime => 11
  | .varChar => 12
  | .varBinary => 13
  | .clob => 14
  | .blob => 15
  | .uTinyInt => 16
  | .uSmallInt => 17
  | .uDecimal => 18
  | .uMedInt => 19
  | .uInt => 20
  | .uFloat => 21
  | .uBigInt => 22
  | .uDouble => 23
  | .text => 24
  | .time => 25
  | .timestamp => 26

/-- The type with the given code, if the catalog has one. -/
def ofCode? (code : UInt8) : Option LogicalType :=
  all.find? fun logicalType => logicalType.code == code

/-- Reading a code gives back the type it was written for. -/
theorem ofCode?_code (logicalType : LogicalType) :
    ofCode? logicalType.code = some logicalType := by
  cases logicalType <;> rfl

def name : LogicalType → String
  | .bit => "Bit"
  | .tinyInt => "TinyInt"
  | .char => "Char"
  | .smallInt => "SmallInt"
  | .decimal => "Decimal"
  | .medInt => "MedInt"
  | .int => "Int"
  | .float => "Float"
  | .date => "Date"
  | .bigInt => "BigInt"
  | .double => "Double"
  | .dateTime => "DateTime"
  | .varChar => "VarChar"
  | .varBinary => "VarBinary"
  | .clob => "Clob"
  | .blob => "Blob"
  | .uTinyInt => "UTinyInt"
  | .uSmallInt => "USmallInt"
  | .uDecimal => "UDecimal"
  | .uMedInt => "UMedInt"
  | .uInt => "UInt"
  | .uFloat => "UFloat"
  | .uBigInt => "UBigInt"
  | .uDouble => "UDouble"
  | .text => "Text"
  | .time => "Time"
  | .timestamp => "Timestamp"

/-- The comparison family of a type. Dates and times compare as natural numbers, and large
objects and binary strings as signed integers. -/
def kind : LogicalType → ValueKind
  | .float | .uFloat | .double | .uDouble => .float
  | .char | .varChar | .text => .text
  | .uTinyInt | .uSmallInt | .uMedInt | .uInt | .uBigInt | .uDecimal => .unsigned
  | .date | .dateTime | .time | .timestamp => .unsigned
  | .bit | .tinyInt | .smallInt | .medInt | .int | .bigInt | .decimal => .signed
  | .varBinary | .blob | .clob => .signed

/-- Scaled decimals, signed or not. -/
def isDecimal : LogicalType → Bool
  | .decimal | .uDecimal => true
  | _ => false

def isTemporal : LogicalType → Bool
  | .date | .dateTime | .time | .timestamp => true
  | _ => false

def isText (logicalType : LogicalType) : Bool :=
  logicalType.kind == .text

/-- The comparison family of a column `width` bytes wide. Sixteen-byte columns have no unsigned
reading: there an unsigned type compares as signed. -/
def kindAt (logicalType : LogicalType) (width : Nat) : ValueKind :=
  if logicalType.kind = .unsigned ∧ width = 16 then .signed else logicalType.kind

end LogicalType

end ColumnScan
