/-!
# Zone maps

A zone map remembers the least and the greatest value of blocks, so that a later scan can pass over
a block whose values cannot match. It lists each block once, in ascending order of block numbers.
-/

set_option autoImplicit false

namespace ColumnScan

/-- The least and the greatest value of one block, in the column's own words. -/
inductive ZoneEntry where
  /-- Columns up to eight bytes; both bounds are signed 64-bit words. -/
  | narrow (least greatest : Int)
  | wide (least greatest : Int)
deriving DecidableEq

abbrev ZoneMap := List (Nat × ZoneEntry)

namespace ZoneMap

def insert (block : Nat) (entry : ZoneEntry) : ZoneMap → ZoneMap
  | [] => [(block, entry)]
  | (other, kept) :: rest =>
      if block < other then (block, entry) :: (other, kept) :: rest
      else if block = other then (block, entry) :: rest
      else (other, kept) :: insert block entry rest

def entry? (zones : ZoneMap) (block : Nat) : Option ZoneEntry :=
  (zones.find? (·.1 == block)).map Prod.snd

end ZoneMap

end ColumnScan
