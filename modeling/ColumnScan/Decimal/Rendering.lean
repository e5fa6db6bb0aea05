import ColumnScan.Decimal.Basic
import ColumnScan.Decimal.Digits

/-!
# Decimals as text

A value with scale `s` is written as a minus sign if it is negative, the digits of its integer
part, and, if `s` is positive, a point and exactly `s` digits. The two reserved words are written
by name.
-/

set_option autoImplicit false

namespace ColumnScan

/-- The characters of `value / 10 ^ scale`. -/
def scaledDigits (value : Int) (scale : Nat) : List Char :=
  let magnitude := value.natAbs
  let sign := if value < 0 then ['-'] else []
  let fraction :=
    if scale = 0 then []
    else '.' :: List.leftpad scale '0' (Digits.limbs (magnitude % powerOfTen scale))
  sign ++ Digits.limbs (magnitude / powerOfTen scale) ++ fraction

/-- The text of a 128-bit word with `scale` digits after the point. -/
def wideText (value : Int) (scale : Nat) : String :=
  if value = DecimalStorage.wide.null then "NULL"
  else if value = DecimalStorage.wide.empty then "EMPTY"
  else String.ofList (scaledDigits value scale)

/-- The text of a 128-bit word with `scale` digits after the point, for scales up to
thirty-eight. -/
def wideTextScaled (value : Int) (scale : Nat) : Except ScanError String :=
  if Decimal.maxDigits < scale then .error (.invalidArgument (.scaleOutOfRange scale))
  else .ok (wideText value scale)

def Decimal.text (decimal : Decimal) : String :=
  if decimal.isNull then "NULL"
  else if decimal.isEmpty then "EMPTY"
  else wideText decimal.value decimal.scale

end ColumnScan
