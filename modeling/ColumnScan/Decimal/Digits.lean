/-!
# Decimal digits

The digits of a natural number, bare or padded to a fixed count, also when they are written in limbs
of several digits each, the number that a sequence of digits denotes, and the weight of a digit.
-/

set_option autoImplicit false

namespace ColumnScan

/-- One followed by `exponent` zeros. -/
def powerOfTen (exponent : Nat) : Nat := Nat.pow 10 exponent

namespace Digits

def char (digit : Nat) : Char := Char.ofNat ('0'.toNat + digit)

/-- The value of a digit character; other characters have none. -/
def value? (character : Char) : Option Nat :=
  if '0' ≤ character ∧ character ≤ '9' then some (character.toNat - '0'.toNat) else none

/-- The digits of a number, without leading zeros; zero has one digit. -/
def ofNat (number : Nat) : List Char :=
  if number < 10 then [char number] else ofNat (number / 10) ++ [char (number % 10)]
termination_by number
decreasing_by omega

/-- The last `count` digits of a number, with leading zeros where it has fewer. -/
def padded : (count : Nat) → Nat → List Char
  | 0, _ => []
  | count + 1, number => padded count (number / 10) ++ [char (number % 10)]

def limbDigits : Nat := 19

/-- The digits of a number, written in limbs of nineteen. The most significant limb is bare and
those below it are padded; three of them hold every 128-bit magnitude. -/
def limbs (number : Nat) : List Char :=
  let limb := powerOfTen limbDigits
  let low := number % limb
  let middle := number / limb % limb
  let high := number / limb / limb
  if high ≠ 0 then ofNat high ++ padded limbDigits middle ++ padded limbDigits low
  else if middle ≠ 0 then ofNat middle ++ padded limbDigits low
  else ofNat low

/-- The number that a sequence of digit values denotes, the most significant first. -/
def number (digits : List Nat) : Nat :=
  digits.foldl (fun value digit => 10 * value + digit) 0

@[simp] theorem length_padded (count number : Nat) : (padded count number).length = count := by
  induction count generalizing number with
  | zero => rfl
  | succ count ih => simp [padded, ih]

/-- Reading a digit's character gives the digit. -/
theorem value?_char {digit : Nat} (small : digit < 10) : value? (char digit) = some digit := by
  have cases : digit = 0 ∨ digit = 1 ∨ digit = 2 ∨ digit = 3 ∨ digit = 4 ∨ digit = 5 ∨ digit = 6 ∨
      digit = 7 ∨ digit = 8 ∨ digit = 9 := by omega
  rcases cases with h | h | h | h | h | h | h | h | h | h <;> subst h <;> decide

end Digits

end ColumnScan
