import ColumnScan.Bytes.LittleEndian

/-!
# Floating-point words

The two interchange formats, read from their bits without any arithmetic. A word is a sign and a
magnitude; magnitudes above infinity are not numbers. Both orders used here are orders of integers
computed from sign and magnitude: the numeric one, where the two zeros are equal, and the total
one, which ranks every word.
-/

set_option autoImplicit false

namespace ColumnScan

/-- A binary floating-point format. -/
inductive FloatFormat where
  | single
  | double
deriving DecidableEq

namespace FloatFormat

def ofWidth (width : Nat) : FloatFormat := if width = 4 then .single else .double

def width : FloatFormat → Nat
  | .single => 4
  | .double => 8

def signBit : FloatFormat → Nat
  | .single => 0x80000000
  | .double => 0x8000000000000000

def infinity : FloatFormat → Nat
  | .single => 0x7F800000
  | .double => 0x7FF0000000000000

def word (format : FloatFormat) (lane : Int) : Nat :=
  (lane % LittleEndian.capacity format.width).toNat

def isNegative (format : FloatFormat) (lane : Int) : Bool :=
  decide (format.signBit ≤ format.word lane)

def magnitude (format : FloatFormat) (lane : Int) : Nat :=
  format.word lane % format.signBit

def isNaN (format : FloatFormat) (lane : Int) : Bool :=
  decide (format.infinity < format.magnitude lane)

/-- A number's place in the numeric order. The two zeros share one. -/
def rank (format : FloatFormat) (lane : Int) : Int :=
  if format.isNegative lane then -(format.magnitude lane : Int) else format.magnitude lane

/-- The numeric order of two words, if both are numbers. -/
def compare? (format : FloatFormat) (left right : Int) : Option Ordering :=
  if format.isNaN left || format.isNaN right then none
  else some (Ord.compare (format.rank left) (format.rank right))

/-- The magnitude after conversion to the double format. A single-format word that is not a number
becomes a quiet one; the conversion keeps the order of magnitudes otherwise, so they stay as they
are here. -/
def convertedMagnitude (format : FloatFormat) (lane : Int) : Nat :=
  let magnitude := format.magnitude lane
  match format with
  | .single => if format.isNaN lane then magnitude ||| 0x400000 else magnitude
  | .double => magnitude

/-- A word's place in the total order: negative words below positive ones, with larger magnitudes
further out. -/
def totalRank (format : FloatFormat) (lane : Int) : Int :=
  let magnitude : Int := format.convertedMagnitude lane
  if format.isNegative lane then -magnitude - 1 else magnitude

def totalCompare (format : FloatFormat) (left right : Int) : Ordering :=
  Ord.compare (format.totalRank left) (format.totalRank right)

def negativeZero (format : FloatFormat) : Int := -(format.signBit : Int)

end FloatFormat

end ColumnScan
