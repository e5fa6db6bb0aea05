import ColumnScan.Error

/-!
# What a scan emits

Every match is emitted as its row index, its stored value, or both.
-/

set_option autoImplicit false

namespace ColumnScan

/-- Which parts of a match are emitted. -/
inductive OutputMask where
  | row
  | value
  | both
deriving DecidableEq

namespace OutputMask

/-- The mask as bits: one for the row index, two for the value. -/
def bits : OutputMask → UInt8
  | .row => 1
  | .value => 2
  | .both => 3

/-- The mask with the given bits. Masks that emit nothing, or more than there is, are refused. -/
def ofBits : UInt8 → Except ScanError OutputMask
  | 1 => .ok .row
  | 2 => .ok .value
  | 3 => .ok .both
  | bits => .error (.invalidArgument (.outputMask bits))

def emitsRow : OutputMask → Bool
  | .row | .both => true
  | .value => false

def emitsValue : OutputMask → Bool
  | .value | .both => true
  | .row => false

/-- The bytes of one match in a column `width` bytes wide. -/
def entrySize (mask : OutputMask) (width : Nat) : Nat :=
  (if mask.emitsRow then 2 else 0) + (if mask.emitsValue then width else 0)

end OutputMask

end ColumnScan
