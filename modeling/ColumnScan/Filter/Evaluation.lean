import ColumnScan.Filter.Comparator
import ColumnScan.Filter.Compiled

/-!
# Evaluating a filter

One value passes a filter according to the filter's mode. A list of ordinary values can also be
passed through a filter without flags predicate by predicate, which gives the same answers.
-/

set_option autoImplicit false

namespace ColumnScan

/-- Whether a value satisfies a condition; `isNull` says that the value is a NULL of the column.
NULL values, and every value of an integer column, compare as integers, and only where both sides
or neither are NULL. The one exception is inequality with NULL, which holds of other values. -/
def Condition.holds (condition : Condition) (comparator : Comparator) (lane : Int)
    (isNull : Bool) : Bool :=
  if condition.operator == .never then
    false
  else if isNull || comparator.isNullAware then
    if isNull == condition.isNull || (condition.isNull && condition.operator == .notEqual) then
      if comparator.isNullAware then
        comparator.holds condition.operator condition.flag lane condition.value
      else
        flaggedComparison condition.operator condition.flag lane condition.value
    else
      false
  else
    comparator.holds condition.operator condition.flag lane condition.value

namespace CompiledFilter

/-- Membership in the list of values. NULL is a member if its lane is. -/
def inArray (filter : CompiledFilter) (comparator : Comparator) (lane : Int) (isNull : Bool) :
    Bool :=
  if isNull then filter.members.contains lane
  else filter.members.any fun member => comparator.equal lane member

def inSet (filter : CompiledFilter) (comparator : Comparator) (lane : Int) (isNull : Bool) :
    Bool :=
  match filter.memberSet with
  | none => false
  | some set =>
      if isNull then set.contains lane else comparator.inSet set filter.members lane

/-- Whether a value passes the filter. NULL never passes a list of inequalities. -/
def accepts (filter : CompiledFilter) (comparator : Comparator) (lane : Int) (isNull : Bool) :
    Bool :=
  match filter.mode with
  | .alwaysTrue => true
  | .single => filter.conditions.head?.any fun condition => condition.holds comparator lane isNull
  | .anyTrue => filter.conditions.any fun condition => condition.holds comparator lane isNull
  | .allTrue => filter.conditions.all fun condition => condition.holds comparator lane isNull
  | .oddTrue =>
      filter.conditions.foldl
        (fun parity condition => parity != condition.holds comparator lane isNull) false
  | .oneOfArray => filter.inArray comparator lane isNull
  | .noneOfArray => !isNull && !filter.inArray comparator lane false
  | .oneOfSet => filter.inSet comparator lane isNull
  | .noneOfSet => !isNull && !filter.inSet comparator lane false

end CompiledFilter

/-- Whether an ordinary value satisfies a condition without a flag. -/
def Condition.holdsOrdinary (condition : Condition) (comparator : Comparator) (lane : Int) : Bool :=
  if condition.operator == .never ||
      (comparator.isNullAware && condition.isNull && condition.operator != .notEqual) then
    false
  else
    comparator.holds condition.operator 0 lane condition.value

namespace CompiledFilter

/-- Combine one more answer per value into the answers so far. -/
def combinePass (combine : Bool → Bool → Bool) (comparator : Comparator) (lanes : List Int)
    (answers : List Bool) (condition : Condition) : List Bool :=
  List.zipWith (fun answer lane => combine answer (condition.holdsOrdinary comparator lane))
    answers lanes

/-- Combine the answers of all conditions, starting from `start`. -/
def combinePasses (filter : CompiledFilter) (combine : Bool → Bool → Bool) (start : Bool)
    (comparator : Comparator) (lanes : List Int) : List Bool :=
  filter.conditions.foldl (combinePass combine comparator lanes) (lanes.map fun _ => start)

/-- For each of a list of values whether it passes the filter as an ordinary value, one predicate
after the other. The filter must have no flags. -/
def acceptsEach (filter : CompiledFilter) (comparator : Comparator) (lanes : List Int) :
    List Bool :=
  match filter.mode with
  | .alwaysTrue => lanes.map fun _ => true
  | .oneOfSet => lanes.map fun lane => filter.inSet comparator lane false
  | .noneOfSet => lanes.map fun lane => !filter.inSet comparator lane false
  | .single | .anyTrue | .allTrue | .oddTrue | .oneOfArray | .noneOfArray =>
      match filter.combinator with
      | .and => filter.combinePasses (· && ·) true comparator lanes
      | .xor => filter.combinePasses (· != ·) false comparator lanes
      | .or | .none => filter.combinePasses (· || ·) false comparator lanes

end CompiledFilter

end ColumnScan
