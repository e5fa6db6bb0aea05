import ColumnScan.Bytes.LittleEndian
import ColumnScan.Filter.Operator

/-!
# Predicate records

A filter travels as a sequence of records. A record is the operator's byte, a flag byte and the
value in the column's width.
-/

set_option autoImplicit false

namespace ColumnScan

/-- One comparison with a stored value. -/
structure Predicate where
  operator : Operator
  flag : UInt8 := 0
  value : Bytes
deriving DecidableEq

namespace Predicate

/-- The comparison with an integer stored in `width` bytes. -/
def ofInt (operator : Operator) (value : Int) (width : Nat) : Predicate :=
  { operator, value := narrow width value }

def record (predicate : Predicate) : Bytes :=
  predicate.operator.code :: predicate.flag :: predicate.value

end Predicate

/-- The records of a list of predicates, one after the other. -/
def predicateRecords (predicates : List Predicate) : Bytes :=
  predicates.flatMap Predicate.record

def recordOverhead : Nat := 2

end ColumnScan
