import ColumnScan.Filter.Comparator

/-!
# The least and the greatest value of a block

Both bounds are sought in the order of the column's comparator, each on its own; of equal values
the first one is kept.
-/

set_option autoImplicit false

namespace ColumnScan

/-- The least and the greatest lane seen so far. -/
structure Extent where
  least : Option Int := none
  greatest : Option Int := none
deriving DecidableEq

namespace Extent

def empty : Extent := {}

def insert (comparator : Comparator) (extent : Extent) (lane : Int) : Extent where
  least := match extent.least with
    | none => some lane
    | some least => some (if comparator.order lane least = .lt then lane else least)
  greatest := match extent.greatest with
    | none => some lane
    | some greatest => some (if comparator.order lane greatest = .gt then lane else greatest)

/-- The bounds as they are reported; those of no values are an empty range. -/
def bounds (comparator : Comparator) (extent : Extent) : Int × Int :=
  (extent.least.elim comparator.emptyRange.1 comparator.reported,
    extent.greatest.elim comparator.emptyRange.2 comparator.reported)

end Extent

end ColumnScan
