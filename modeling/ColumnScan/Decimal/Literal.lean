import ColumnScan.Decimal.Basic
import ColumnScan.Decimal.Digits
import ColumnScan.Text.Blank

/-!
# Decimal literals

A literal is an optional sign, digits, and an optional point with more digits, with at least one
digit in all. Blanks around it are ignored. The digits after the point are the scale, and the
precision is the least that covers the scale and the digits from the first non-zero one on; both
are at most thirty-eight.
-/

set_option autoImplicit false

namespace ColumnScan

/-- The parts of a decimal literal, before its digits are checked. -/
structure DecimalLiteral where
  negative : Bool
  whole : List Char
  fraction : List Char
deriving DecidableEq

namespace DecimalLiteral

/-- Take a text apart at its sign and at its first point. -/
def ofText (text : List Char) : DecimalLiteral :=
  let (negative, body) := match text with
    | '-' :: rest => (true, rest)
    | '+' :: rest => (false, rest)
    | _ => (false, text)
  { negative
    whole := body.takeWhile (· != '.')
    fraction := (body.dropWhile (· != '.')).drop 1 }

/-- The digits on both sides of the point, if there is one at all and all are digits. -/
def digits? (literal : DecimalLiteral) : Option (List Nat) :=
  let characters := literal.whole ++ literal.fraction
  if characters.isEmpty then none else characters.mapM Digits.value?

/-- The decimal that a literal denotes, if it is one and is not too long. -/
def decimal? (literal : DecimalLiteral) : Option Decimal := do
  let digits ← literal.digits?
  let scale := literal.fraction.length
  let significant := (digits.dropWhile (· == 0)).length
  if Decimal.maxDigits < scale ∨ Decimal.maxDigits < significant then none
  let magnitude : Int := Digits.number digits
  let value := if literal.negative then -magnitude else magnitude
  return ⟨value, scale, max (max significant scale) 1⟩

end DecimalLiteral

def Decimal.ofText (text : String) : Except ScanError Decimal :=
  match (DecimalLiteral.ofText (trimBlank text.toList)).decimal? with
  | some decimal => Decimal.ofParts decimal.value decimal.scale decimal.precision
  | none => .error (.invalidArgument (.decimalLiteral text))

end ColumnScan
