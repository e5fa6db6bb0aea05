import ColumnScan.Decimal.Basic

/-!
# Decimals as floating-point numbers

An estimate of a decimal in binary floating point: the value, rounded to the nearest number with
fifty-three significant bits and to the even one of two, divided by a power of ten. The power is
computed by repeated squaring, with the rounding of each multiplication.
-/

set_option autoImplicit false

namespace ColumnScan

/-- The number with at most fifty-three significant bits nearest to `magnitude`, as a factor of at
most fifty-three bits and a power of two; of two such numbers the even one. -/
def nearestBinary (magnitude : Nat) : Nat × Nat :=
  let excess := magnitude.log2 - 52
  let unit := 1 <<< excess
  let quotient := magnitude / unit
  let twice := 2 * (magnitude % unit)
  if unit < twice ∨ unit = twice ∧ quotient % 2 = 1 then (quotient + 1, excess)
  else (quotient, excess)

def nearestFloat (value : Int) : Float :=
  let (factor, exponent) := nearestBinary value.natAbs
  let magnitude := factor.toUInt64.toFloat.scaleB exponent
  if value < 0 then -magnitude else magnitude

/-- The product of `result` and the given power of `base`, by repeated squaring. -/
def scaleByPower (result base : Float) (exponent : Nat) : Float :=
  let next := if exponent % 2 = 1 then result * base else result
  if exponent / 2 = 0 then next else scaleByPower next (base * base) (exponent / 2)
termination_by exponent
decreasing_by omega

/-- The decimal as a floating-point number, within the error of its three roundings. -/
def Decimal.toFloat (decimal : Decimal) : Float :=
  nearestFloat decimal.value / scaleByPower 1.0 10.0 decimal.scale

end ColumnScan
