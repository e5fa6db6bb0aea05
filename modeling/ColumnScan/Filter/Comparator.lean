import Std.Data.HashSet
import ColumnScan.Column.Descriptor
import ColumnScan.Column.LikePattern
import ColumnScan.Filter.FloatFormat
import ColumnScan.Filter.Lane
import ColumnScan.Filter.Operator

/-!
# Comparing lanes

A `Comparator` fixes what the lanes of a column mean. Only narrow lanes have a meaning of their own
for each kind of column; wide lanes are always signed integers. A predicate's flag byte says on
which side of the predicate's value an equal value lies; integers and text give it a meaning of
their own and floats ignore it.
-/

set_option autoImplicit false

namespace ColumnScan

/-- The comparison of values of one kind and width. -/
structure Comparator where
  kind : ValueKind
  width : Nat
  collation : Collation := .binary
deriving DecidableEq

/-- The comparator for lanes of a size. Wide lanes are sixteen bytes long and compare as signed
integers whatever the kind of the column. -/
def Comparator.onLanes (comparator : Comparator) : LaneSize → Comparator
  | .narrow => comparator
  | .wide => { comparator with kind := .signed, width := 16 }

def Comparator.ofKind (kind : ValueKind) (width : Nat) (collation : Collation) : Comparator :=
  Comparator.onLanes { kind, width, collation } (.ofWidth width)

def ColumnDescriptor.comparator (column : ColumnDescriptor) : Comparator :=
  .ofKind column.kind column.width column.collation

/-- Integer comparison with a flag. A flag makes a strict comparison hold of equal values, or an
inclusive one fail, and it makes equality fail. -/
def flaggedComparison (operator : Operator) (flag : UInt8) (left right : Int) : Bool :=
  match operator with
  | .never | .like | .notLike => false
  | .less => left < right || (left == right && flag &&& 0x01 != 0)
  | .lessOrEqual => left < right || (left == right && flag ^^^ 0x80 != 0)
  | .equal => left == right && flag == 0
  | .notEqual => left != right || flag != 0
  | .greaterOrEqual => right < left || (left == right && flag ^^^ 0x01 != 0)
  | .greater => right < left || (left == right && flag &&& 0x80 != 0)

/-- Text comparison with a non-zero flag, on values read as natural numbers with the first byte as
the most significant. -/
def flaggedTextComparison (operator : Operator) (flag : UInt8) (left right : Nat) : Bool :=
  match operator with
  | .never | .like | .notLike => false
  | .less => left < right || (left == right && flag != 0)
  | .lessOrEqual => left ≤ right
  | .equal => left == right && flag == 0
  | .notEqual => left != right || flag != 0
  | .greaterOrEqual => right < left || (left == right && flag == 0)
  | .greater => right < left

namespace Comparator

/-- Integers compare with a NULL predicate value only for inequality. -/
def isNullAware (comparator : Comparator) : Bool :=
  comparator.kind == .signed || comparator.kind == .unsigned

/-- Kinds whose predicates may be evaluated one after the other over a whole block. -/
def isBatchable (comparator : Comparator) : Bool :=
  comparator.kind != .text

def signExtends (comparator : Comparator) : Bool :=
  comparator.kind != .unsigned

def stored (comparator : Comparator) (lane : Int) : Bytes :=
  LittleEndian.ofInt comparator.width lane

/-- The stored bytes of a lane as a natural number, the first byte most significant. -/
def bigEndian (comparator : Comparator) (lane : Int) : Nat :=
  LittleEndian.natValue (comparator.stored lane).reverse

def floatFormat (comparator : Comparator) : FloatFormat := .ofWidth comparator.width

/-- Text comparison: pattern operators match, a flag selects the bytewise comparison, and all else
follows the collation. -/
def holdsText (comparator : Comparator) (operator : Operator) (flag : UInt8) (left right : Int) :
    Bool :=
  if operator.isLike then
    let matched := comparator.collation.like (comparator.stored left) (comparator.stored right)
    matched != (operator == .notLike)
  else if flag != 0 then
    flaggedTextComparison operator flag (comparator.bigEndian left) (comparator.bigEndian right)
  else
    operator.holdsOf
      (comparator.collation.compare (comparator.stored left) (comparator.stored right))

/-- Whether an ordinary value `left` stands in the relation to the predicate's value `right`. -/
def holds (comparator : Comparator) (operator : Operator) (flag : UInt8) (left right : Int) :
    Bool :=
  match comparator.kind with
  | .signed => flaggedComparison operator flag left right
  | .unsigned => flaggedComparison operator flag (unsignedLane left) (unsignedLane right)
  | .float =>
      match comparator.floatFormat.compare? left right with
      | some order => operator.holdsOf order
      | none => operator == .notEqual
  | .text => comparator.holdsText operator flag left right

def equal (comparator : Comparator) (left right : Int) : Bool :=
  comparator.holds .equal 0 left right

/-- Whether an ordinary value is in a set, given also as the list of its members. Integers and
binary text are compared by their lanes, floats too except that the zeros are one value and that
nothing equals a word that is not a number. -/
def inSet (comparator : Comparator) (set : Std.HashSet Int) (members : List Int) (lane : Int) :
    Bool :=
  match comparator.kind with
  | .signed | .unsigned => set.contains lane
  | .float =>
      let format := comparator.floatFormat
      if format.isNaN lane then false
      else if format.magnitude lane == 0 then set.contains 0 || set.contains format.negativeZero
      else set.contains lane
  | .text =>
      match comparator.collation with
      | .binary => set.contains lane
      | .caseInsensitive => members.any fun member => comparator.equal lane member

/-- The order in which the least and the greatest value of a block are sought. -/
def order (comparator : Comparator) (left right : Int) : Ordering :=
  match comparator.kind with
  | .signed => Ord.compare left right
  | .unsigned => Ord.compare (unsignedLane left) (unsignedLane right)
  | .float => comparator.floatFormat.totalCompare left right
  | .text =>
      if comparator.width = 1 then Ord.compare left right
      else comparator.collation.compare (comparator.stored left) (comparator.stored right)

def reported (comparator : Comparator) (lane : Int) : Int :=
  match comparator.kind with
  | .unsigned => unsignedLane lane
  | .signed | .float | .text => lane

/-- The least and greatest value reported for a block without ordinary values: the greatest and the
least that the lanes can hold, so that the range is empty. -/
def emptyRange (comparator : Comparator) : Int × Int :=
  match comparator.kind with
  | .unsigned => (0xFFFFFFFFFFFFFFFF, 0)
  | .signed =>
      if comparator.width = 16 then
        (0x7FFFFFFFFFFFFFFFFFFFFFFFFFFFFFFF, -0x80000000000000000000000000000000)
      else
        (0x7FFFFFFFFFFFFFFF, -0x8000000000000000)
  | .float | .text => (0x7FFFFFFFFFFFFFFF, -0x8000000000000000)

end Comparator

end ColumnScan
