import ColumnScan.Bytes.LittleEndian
import ColumnScan.Error

/-!
# Reserved NULL and EMPTY patterns

Two bit patterns of every column stand for NULL and for EMPTY, a slot that was never filled. Which
two depends on the width and the type of the column. Character patterns are a family of their own:
they follow the type and not its comparison family, so dates and binary strings carry them too.
Eight-byte character patterns have a second NULL.
-/

set_option autoImplicit false

namespace ColumnScan

/-- The reserved patterns of a column, as numbers of `width` bytes. -/
structure SentinelPair where
  width : Nat
  null : Nat
  empty : Nat
  alternateNull : Option Nat := none
deriving DecidableEq

namespace SentinelPair

def nullBytes (pair : SentinelPair) : Bytes := LittleEndian.ofNat pair.width pair.null

def emptyBytes (pair : SentinelPair) : Bytes := LittleEndian.ofNat pair.width pair.empty

def isNull (pair : SentinelPair) (pattern : Nat) : Bool :=
  pattern == pair.null || pair.alternateNull == some pattern

def isEmpty (pair : SentinelPair) (pattern : Nat) : Bool :=
  pattern == pair.empty

end SentinelPair

namespace LogicalType

/-- Whether columns of this type and width carry the character patterns. Dates and times do at
every width but four, and binary strings at eight bytes only. -/
def charPatterned (logicalType : LogicalType) (width : Nat) : Bool :=
  match logicalType with
  | .char | .varChar | .text | .blob => true
  | .varBinary => width == 8
  | .date | .dateTime | .time | .timestamp => width != 4
  | _ => false

def charSentinels? : Nat → Option SentinelPair
  | 1 => some { width := 1, null := 0xFE, empty := 0xFF }
  | 2 => some { width := 2, null := 0xFEFF, empty := 0xFFFF }
  | 4 => some { width := 4, null := 0xFEFFFFFF, empty := 0xFFFFFFFF }
  | 8 => some { width := 8, null := 0xFEFFFFFFFFFFFFFF, empty := 0xFFFFFFFFFFFFFFFF,
                alternateNull := some 0xFFFFFFFFFFFFFFFE }
  | _ => none

/-- The patterns of a comparison family at a width below sixteen: the least two integers for
signed columns, the greatest two numbers for unsigned ones, two unused not-a-number values for
floats. Text has none of its own. -/
def kindSentinels? : ValueKind → Nat → Option SentinelPair
  | .signed, 1 => some { width := 1, null := 0x80, empty := 0x81 }
  | .signed, 2 => some { width := 2, null := 0x8000, empty := 0x8001 }
  | .signed, 4 => some { width := 4, null := 0x80000000, empty := 0x80000001 }
  | .signed, 8 => some { width := 8, null := 0x8000000000000000, empty := 0x8000000000000001 }
  | .unsigned, 1 => some { width := 1, null := 0xFE, empty := 0xFF }
  | .unsigned, 2 => some { width := 2, null := 0xFFFE, empty := 0xFFFF }
  | .unsigned, 4 => some { width := 4, null := 0xFFFFFFFE, empty := 0xFFFFFFFF }
  | .unsigned, 8 => some { width := 8, null := 0xFFFFFFFFFFFFFFFE, empty := 0xFFFFFFFFFFFFFFFF }
  | .float, 4 => some { width := 4, null := 0xFFAAAAAA, empty := 0xFFAAAAAB }
  | .float, 8 => some { width := 8, null := 0xFFFAAAAAAAAAAAAA, empty := 0xFFFAAAAAAAAAAAAB }
  | _, _ => none

/-- The patterns of a type at a width, if that layout exists. All sixteen-byte columns share the
least two 128-bit integers. -/
def sentinels? (logicalType : LogicalType) (width : Nat) : Option SentinelPair :=
  if width = 16 then
    some { width := 16, null := 0x80000000000000000000000000000000,
           empty := 0x80000000000000000000000000000001 }
  else if logicalType.charPatterned width then
    charSentinels? width
  else
    kindSentinels? logicalType.kind width

/-- The patterns of a type at a width, or the error that there is no such column. -/
def sentinels (logicalType : LogicalType) (width : Nat) : Except ScanError SentinelPair :=
  match logicalType.sentinels? width with
  | some pair => .ok pair
  | none => .error (.unsupportedColumn width logicalType)

end LogicalType

end ColumnScan
