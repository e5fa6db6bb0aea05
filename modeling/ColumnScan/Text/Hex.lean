/-!
# Hexadecimal text of bytes

A byte is written as two lower-case hexadecimal digits, the more significant one first. Reading
accepts digits of either case.
-/

set_option autoImplicit false

namespace ColumnScan.Hex

/-- The digit of a number below sixteen; larger numbers are reduced modulo sixteen. -/
def digit (value : Nat) : Char :=
  let value := value % 16
  if value < 10 then Char.ofNat ('0'.toNat + value) else Char.ofNat ('a'.toNat + (value - 10))

def digits (byte : UInt8) : List Char :=
  [digit (byte.toNat / 16), digit byte.toNat]

/-- The two digits of a byte, as text. -/
def byteText (byte : UInt8) : String :=
  String.ofList (digits byte)

def text (bytes : List UInt8) : String :=
  String.ofList (bytes.flatMap digits)

/-- The value of a digit; other characters have none. -/
def value? (character : Char) : Option Nat :=
  if '0' ≤ character ∧ character ≤ '9' then some (character.toNat - '0'.toNat)
  else if 'a' ≤ character ∧ character ≤ 'f' then some (character.toNat - 'a'.toNat + 10)
  else if 'A' ≤ character ∧ character ≤ 'F' then some (character.toNat - 'A'.toNat + 10)
  else none

/-- The number that a sequence of digits denotes, if all are digits. -/
def number? (text : String) : Option Nat :=
  text.toList.foldlM (fun number character => (value? character).map (16 * number + ·)) 0

def readPairs (bytes : Array UInt8) : List Char → Option (Array UInt8)
  | [] => some bytes
  | [_] => none
  | high :: low :: rest => do
      let byte := 16 * (← value? high) + (← value? low)
      readPairs (bytes.push (UInt8.ofNat byte)) rest

/-- The bytes of a sequence of digit pairs, if it is one. -/
def bytes? (text : String) : Option (Array UInt8) := readPairs #[] text.toList

end ColumnScan.Hex
