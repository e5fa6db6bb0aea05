import ColumnScan.Decimal.Digits
import ColumnScan.Decimal.Storage

/-!
# Scaled decimals

A `Decimal` denotes `value / 10 ^ scale`. Its declared precision chooses the storage of the value.
Comparison is numeric and needs no common scale; sums and differences are taken at the larger
scale, in the storage of the larger precision.
-/

set_option autoImplicit false

namespace ColumnScan

/-- A decimal number with a declared precision. -/
structure Decimal where
  value : Int
  scale : Nat
  precision : Nat
deriving DecidableEq

namespace Decimal

def maxDigits : Nat := 38

def storage (decimal : Decimal) : DecimalStorage := .ofPrecision decimal.precision

/-- A decimal from its parts. The value must be a word of its precision's storage. -/
def ofParts (value : Int) (scale precision : Nat) : Except ScanError Decimal :=
  if precision = 0 ∨ maxDigits < precision then
    .error (.invalidArgument (.precisionOutOfRange precision))
  else if maxDigits < scale then
    .error (.invalidArgument (.scaleOutOfRange scale))
  else if (DecimalStorage.ofPrecision precision).Fits value then
    .ok ⟨value, scale, precision⟩
  else
    .error (.invalidArgument (.valueTooLarge value precision))

/-- A 64-bit integer, declared one digit wider than the narrow storage. -/
def ofInt64 (value : Int) : Decimal := ⟨value, 0, 19⟩

def null (scale precision : Nat) : Decimal :=
  ⟨(DecimalStorage.ofPrecision precision).null, scale, precision⟩

def isNull (decimal : Decimal) : Bool := decimal.value == decimal.storage.null

def isEmpty (decimal : Decimal) : Bool := decimal.value == decimal.storage.empty

/-- The integer part, truncated toward zero. -/
def integralPart (decimal : Decimal) : Int := decimal.value.tdiv (powerOfTen decimal.scale)

/-- The digits after the point, as an integer with the sign of the value. -/
def fractionalPart (decimal : Decimal) : Int := decimal.value.tmod (powerOfTen decimal.scale)

/-- The nearest integer; halves go away from zero. -/
def roundedIntegralPart (decimal : Decimal) : Int :=
  if decimal.scale = 0 then
    decimal.value
  else
    let half : Int := powerOfTen decimal.scale / 2
    if half ≤ decimal.fractionalPart then decimal.integralPart + 1
    else if decimal.fractionalPart ≤ -half then decimal.integralPart - 1
    else decimal.integralPart

/-- The numeric order of two decimals. At different scales the integer parts decide, and between
equal integer parts the fractional digits at the larger scale. -/
def compare (left right : Decimal) : Ordering :=
  if left.scale = right.scale then
    Ord.compare left.value right.value
  else
    match Ord.compare left.integralPart right.integralPart with
    | .eq =>
        Ord.compare (left.fractionalPart * powerOfTen (right.scale - left.scale))
          (right.fractionalPart * powerOfTen (left.scale - right.scale))
    | order => order

/-- The greater of two decimals, and the second of equal ones. -/
def greater (left right : Decimal) : Decimal :=
  if left.compare right = .gt then left else right

/-- The same number at another scale. A larger scale multiplies and may overflow; a smaller one
truncates toward zero. -/
def rescale (decimal : Decimal) (scale : Nat) : Except ScanError Decimal :=
  if maxDigits < scale then
    .error (.invalidArgument (.scaleOutOfRange scale))
  else if decimal.scale < scale then do
    let storage := decimal.storage
    let value ← storage.within .multiply (storage.multiply .checked) decimal.value
      (powerOfTen (scale - decimal.scale))
    return { decimal with value, scale }
  else
    let value := decimal.value.tdiv (powerOfTen (decimal.scale - scale))
    .ok { decimal with value, scale }

/-- The values of two decimals at the larger scale, in the storage of the larger precision. -/
def aligned (left right : Decimal) : Except ScanError (Int × Int) := do
  let precision := max left.precision right.precision
  let scale := max left.scale right.scale
  let first ← { left with precision }.rescale scale
  let second ← { right with precision }.rescale scale
  return (first.value, second.value)

def add (left right : Decimal) : Except ScanError Decimal := do
  let precision := max left.precision right.precision
  let storage := DecimalStorage.ofPrecision precision
  let (first, second) ← left.aligned right
  let value ← storage.within .add (storage.add .checked) first second
  return ⟨value, max left.scale right.scale, precision⟩

def subtract (left right : Decimal) : Except ScanError Decimal := do
  let precision := max left.precision right.precision
  let storage := DecimalStorage.ofPrecision precision
  let (first, second) ← left.aligned right
  let value ← storage.within .subtract (storage.subtract .checked) first second
  return ⟨value, max left.scale right.scale, precision⟩

def multiply (left right : Decimal) : Except ScanError Decimal := do
  let scale := left.scale + right.scale
  if maxDigits < scale then
    throw (.overflow .multiply .scale .scale)
  let precision := max left.precision right.precision
  let storage := DecimalStorage.ofPrecision precision
  let value ← storage.within .multiply (storage.multiply .checked) left.value right.value
  return ⟨value, scale, precision⟩

/-- The quotient at the dividend's scale, truncated toward zero. -/
def divide (left right : Decimal) : Except ScanError Decimal := do
  let precision := max left.precision right.precision
  let storage := DecimalStorage.ofPrecision precision
  let numerator ← storage.within .divide (storage.multiply .checked) left.value
    (powerOfTen right.scale)
  let value ← storage.within .divide (storage.divide .checked) numerator right.value
  return ⟨value, left.scale, precision⟩

end Decimal

end ColumnScan
