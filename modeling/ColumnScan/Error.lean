import ColumnScan.Catalog.LogicalType
import ColumnScan.Text.Hex

/-!
# Errors

A `ScanError` names the cause of a failure. Causes that share a family and its wording (a refused
argument, a malformed message, a failed read) have a type of their own, and the text of every
cause is written by one `message` function per type. Each family also has a cause that is only
stated in words, for failures that are reported from outside the library.
-/

set_option autoImplicit false

namespace ColumnScan

/-- The arithmetic operation that an overflow names. -/
inductive ArithmeticOperation where
  | add
  | subtract
  | multiply
  | divide
deriving DecidableEq

def ArithmeticOperation.name : ArithmeticOperation → String
  | .add => "add"
  | .subtract => "subtract"
  | .multiply => "multiply"
  | .divide => "divide"

/-- What kind of operand overflowed: a number in one of the two storages, or a scale. -/
inductive OperandKind where
  | narrow
  | wide
  | scale
deriving DecidableEq

def OperandKind.name : OperandKind → String
  | .narrow => "i64"
  | .wide => "i128"
  | .scale => "scale"

/-- Why an argument was refused. -/
inductive ArgumentFault where
  | precisionOutOfRange (precision : Nat)
  | scaleOutOfRange (scale : Nat)
  /-- A value that the storage of its precision does not hold. -/
  | valueTooLarge (value : Int) (precision : Nat)
  | divisionByZero
  | decimalLiteral (text : String)
  | unknownCombinator (byte : UInt8)
  | outputMask (byte : UInt8)
  | missingCombinator (count : Nat)
  /-- A block that does not divide into values of the column's width. -/
  | partialValues (size width : Nat)
  | tooManyRows (rows : Nat)
  | rowOutside (row rows : Nat)
  /-- A filter over narrow values applied to a sixteen-byte column. -/
  | filterTooNarrow
  /-- A filter over sixteen-byte values applied to a narrower column. -/
  | filterTooWide (width : Nat)
  /-- A command whose filter was compiled for values of another size. -/
  | filterMismatch (width : Nat)
  | columnWidth (width : Nat)
  | tooManyRowIndexes (count : Nat)
  | tooManyPredicates (count : Nat)
  | noLayout (width : Nat)
  | blockSize (block size expected : Nat)
  | partialBlocks (size : Nat)
  | bufferSize (size expected : Nat)
  | stated (reason : String)
deriving DecidableEq

def ArgumentFault.message : ArgumentFault → String
  | .precisionOutOfRange precision => s!"decimal precision {precision} outside 1..=38"
  | .scaleOutOfRange scale => s!"decimal scale {scale} outside 0..=38"
  | .valueTooLarge value precision => s!"value {value} does not fit precision {precision}"
  | .divisionByZero => "decimal division by zero"
  | .decimalLiteral text => s!"invalid decimal literal '{text}'"
  | .unknownCombinator byte => s!"unknown combinator {byte}"
  | .outputMask byte => s!"output type mask 0x{Hex.byteText byte} selects nothing valid"
  | .missingCombinator count => s!"{count} predicates require a combinator"
  | .partialValues size width =>
      s!"block of {size} bytes is not a whole number of {width}-byte values"
  | .tooManyRows rows => s!"block holds {rows} rows, row indexes are 16-bit"
  | .rowOutside row rows => s!"row index {row} outside block of {rows} rows"
  | .filterTooNarrow => "16-byte column given a narrow filter"
  | .filterTooWide width => s!"{width}-byte column given a 16-byte filter"
  | .filterMismatch width => s!"filter compiled for another width than {width}"
  | .columnWidth width => s!"column width {width}"
  | .tooManyRowIndexes count => s!"{count} row indexes exceed u16"
  | .tooManyPredicates count => s!"{count} predicates exceed u16"
  | .noLayout width => s!"no physical block layout for width {width}"
  | .blockSize block size expected => s!"block {block} is {size} bytes, expected {expected}"
  | .partialBlocks size => s!"column of {size} bytes is not a whole number of blocks"
  | .bufferSize size expected => s!"load buffer of {size} bytes for a {expected}-byte block"
  | .stated reason => reason

/-- Why a message could not be decoded. -/
inductive FormatFault where
  | truncated (needed position remaining : Nat)
  /-- Fewer bytes of predicate records than the count of predicates asks for. -/
  | shortFilter (size count width needed : Nat)
  | unknownType (code : UInt8)
  | unknownCollation (code : UInt8)
  | stated (reason : String)
deriving DecidableEq

def FormatFault.message : FormatFault → String
  | .truncated needed position remaining =>
      s!"need {needed} bytes at offset {position}, only {remaining} remain"
  | .shortFilter size count width needed =>
      s!"filter holds {size} bytes, {count} predicates of width {width} need {needed}"
  | .unknownType code => s!"unknown logical type {code}"
  | .unknownCollation code => s!"unknown collation {code}"
  | .stated reason => reason

/-- Why a read failed. -/
inductive ReadFault where
  | blockMissing (block : Nat)
  | stated (reason : String)
deriving DecidableEq

def ReadFault.message : ReadFault → String
  | .blockMissing block => s!"block {block} not found"
  | .stated reason => reason

/-- A failure of filtering, scanning, decimal arithmetic or scheduling. -/
inductive ScanError where
  | readFailed (fault : ReadFault)
  | invalidArgument (fault : ArgumentFault)
  | unknownOperator (byte : UInt8)
  | unsupportedColumn (width : Nat) (logicalType : LogicalType)
  | outputTooSmall (needed capacity : Nat)
  | overflow (operation : ArithmeticOperation) (left right : OperandKind)
  | malformed (fault : FormatFault)
  | jobFailed (reason : String)
  | internal (reason : String)
deriving DecidableEq

namespace ScanError

def message : ScanError → String
  | .readFailed fault => s!"I/O error: {fault.message}"
  | .invalidArgument fault => s!"Invalid argument: {fault.message}"
  | .unknownOperator byte => s!"unknown comparison operator 0x{Hex.byteText byte}"
  | .unsupportedColumn width logicalType =>
      s!"column width {width} is not implemented for type {logicalType.name}"
  | .outputTooSmall needed capacity =>
      s!"output buffer overflow: need {needed} bytes, capacity is {capacity}"
  | .overflow operation left right =>
      s!"overflow in {operation.name}: operands {left.name} and {right.name}"
  | .malformed fault => s!"decode error: {fault.message}"
  | .jobFailed reason => s!"job failed: {reason}"
  | .internal reason => s!"An internal operation failed: {reason}"

/-- Errors that can only come from a broken plan or a broken scanner; they end the whole step. -/
def isInvariantViolation : ScanError → Bool
  | .unknownOperator _ | .unsupportedColumn _ _ | .outputTooSmall _ _ | .internal _ => true
  | _ => false

end ScanError

end ColumnScan
