import ColumnScan.Bytes.LittleEndian

/-!
# Collations

Text columns store byte strings padded to a fixed width. A collation says which trailing bytes are
padding and which bytes count as the same letter.
-/

set_option autoImplicit false

namespace ColumnScan

/-- The order and equality of a text column. -/
inductive Collation where
  /-- Bytewise, with trailing NUL bytes as padding. -/
  | binary
  /-- ASCII letters of either case are equal; trailing NUL bytes and spaces are padding. -/
  | caseInsensitive
deriving DecidableEq

namespace Collation

def code : Collation → UInt8
  | .binary => 0
  | .caseInsensitive => 1

def ofCode? : UInt8 → Option Collation
  | 0 => some .binary
  | 1 => some .caseInsensitive
  | _ => none

def name : Collation → String
  | .binary => "Binary"
  | .caseInsensitive => "CaseInsensitive"

def isPadding (collation : Collation) (byte : UInt8) : Bool :=
  match collation with
  | .binary => byte == 0
  | .caseInsensitive => byte == 0 || byte == 0x20

def trim (collation : Collation) (bytes : Bytes) : Bytes :=
  (bytes.reverse.dropWhile collation.isPadding).reverse

/-- The byte that stands for all bytes equal to the given one. -/
def fold (collation : Collation) (byte : UInt8) : UInt8 :=
  match collation with
  | .binary => byte
  | .caseInsensitive => if 0x41 ≤ byte ∧ byte ≤ 0x5A then byte + 0x20 else byte

def sortKey (collation : Collation) (bytes : Bytes) : Bytes :=
  (collation.trim bytes).map collation.fold

/-- The order of two values: lexicographic on their sort keys. -/
def compare (collation : Collation) (left right : Bytes) : Ordering :=
  (collation.sortKey left).compareLex Ord.compare (collation.sortKey right)

end Collation

end ColumnScan
