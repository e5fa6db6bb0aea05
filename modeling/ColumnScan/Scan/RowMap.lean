/-!
# Row indexes and row maps

A logical block addresses its rows with 16-bit indexes. A row map summarises a set of rows in
sixteen bits, one for every run of 512 rows; the last bit also covers all rows beyond.
-/

set_option autoImplicit false

namespace ColumnScan

abbrev RowIndex := UInt16

abbrev RowMap := UInt16

namespace RowMap

def rowsPerBit : Nat := 512

def bitOf (row : RowIndex) : Nat := min (row.toNat / rowsPerBit) 15

def single (bit : Nat) : RowMap := 1 <<< UInt16.ofNat bit

def ofRows (rows : List RowIndex) : RowMap :=
  rows.foldl (fun map row => map ||| single (bitOf row)) 0

def hasBit (map : RowMap) (bit : Nat) : Bool := map.toNat.testBit bit

end RowMap

end ColumnScan
