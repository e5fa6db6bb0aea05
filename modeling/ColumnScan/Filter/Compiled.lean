import Std.Data.HashSet
import ColumnScan.Filter.Lane
import ColumnScan.Filter.Predicate

/-!
# Compiled filters

A filter is compiled once per step. Compilation decodes the predicate records into conditions on
lanes and chooses how they are evaluated:

* no predicate: every value passes;
* one predicate: that comparison;
* several equalities joined by OR, or inequalities joined by AND: membership in a list of values,
  searched one by one up to eight and by hashing above;
* otherwise: all comparisons, joined by the combinator.

A predicate with a flag never joins a list of values: flagged equality holds of nothing and flagged
inequality of everything.
-/

set_option autoImplicit false

namespace ColumnScan

/-- How a compiled filter is evaluated. -/
inductive FilterMode where
  | alwaysTrue
  | single
  | anyTrue
  | allTrue
  | oddTrue
  | oneOfArray
  | noneOfArray
  | oneOfSet
  | noneOfSet
deriving DecidableEq

namespace FilterMode

def name : FilterMode → String
  | .alwaysTrue => "AlwaysTrue"
  | .single => "SingleComparison"
  | .anyTrue => "AnyComparisonTrue"
  | .allTrue => "AllComparisonsTrue"
  | .oddTrue => "XorComparisons"
  | .oneOfArray => "OneOfValuesInArray"
  | .noneOfArray => "NoneOfValuesInArray"
  | .oneOfSet => "OneOfValuesInSet"
  | .noneOfSet => "NoneOfValuesInSet"

/-- The longest list of values that is searched one by one. -/
def maxArrayLength : Nat := 8

/-- The mode for the operators of a filter with at least one predicate. -/
def select (combinator : Combinator) (operators : List Operator) : FilterMode :=
  if operators.length = 1 then
    .single
  else
    let short := operators.length ≤ maxArrayLength
    match combinator with
    | .or =>
        if operators.all (· == .equal) then (if short then .oneOfArray else .oneOfSet)
        else .anyTrue
    | .and =>
        if operators.all (· == .notEqual) then (if short then .noneOfArray else .noneOfSet)
        else .allTrue
    | .none | .xor => .oddTrue

def isValueList : FilterMode → Bool
  | .oneOfArray | .noneOfArray | .oneOfSet | .noneOfSet => true
  | _ => false

def isSet : FilterMode → Bool
  | .oneOfSet | .noneOfSet => true
  | _ => false

end FilterMode

/-- A predicate on lanes. -/
structure Condition where
  operator : Operator
  flag : UInt8
  value : Int
  isNull : Bool
deriving DecidableEq

def Condition.ofRecord (kind : ValueKind) (sentinels : LaneSentinels) (record : Bytes) :
    Except ScanError Condition := do
  let operator ← Operator.ofCode (record.headD 0)
  let value := laneOf kind (record.drop recordOverhead)
  return { operator
           flag := (record.drop 1).headD 0
           value
           isNull := sentinels.isNull value }

/-- A filter ready to be evaluated. -/
structure CompiledFilter where
  lanes : LaneSize
  mode : FilterMode
  combinator : Combinator
  conditions : List Condition
  /-- The values of the conditions without a flag, in the modes that test membership. -/
  members : List Int
  /-- The same values, in the modes that test membership by hashing. -/
  memberSet : Option (Std.HashSet Int)

namespace CompiledFilter

/-- The filter that every value of a column `width` bytes wide passes. -/
def alwaysTrue (width : Nat) : CompiledFilter where
  lanes := .ofWidth width
  mode := .alwaysTrue
  combinator := .none
  conditions := []
  members := []
  memberSet := none

def ofConditions (lanes : LaneSize) (combinator : Combinator) (conditions : List Condition) :
    CompiledFilter :=
  let mode := FilterMode.select combinator (conditions.map Condition.operator)
  let members :=
    if mode.isValueList then (conditions.filter (·.flag == 0)).map Condition.value else []
  { lanes, mode, combinator, conditions, members
    memberSet := if mode.isSet then some (Std.HashSet.ofList members) else none }

def length (filter : CompiledFilter) : Nat := filter.conditions.length

def flagsAllZero (filter : CompiledFilter) : Bool := filter.conditions.all (·.flag == 0)

/-- The first `count` records of a filter for a column `width` bytes wide. -/
def records (filter : Bytes) (width count : Nat) : List Bytes :=
  let bytes := filter.toArray
  (List.range count).map (cell bytes (recordOverhead + width))

/-- Compile the first `count` predicate records of a filter for a column of the given width and
type. Bytes after them are ignored. -/
def compile (filter : Bytes) (width : Nat) (logicalType : LogicalType) (count : UInt16)
    (combinator : Combinator) : Except ScanError CompiledFilter := do
  let pair ← logicalType.sentinels width
  if count = 0 then
    return alwaysTrue width
  let count := count.toNat
  if 1 < count ∧ combinator = .none then
    throw (.invalidArgument (.missingCombinator count))
  let needed := count * (recordOverhead + width)
  if filter.length < needed then
    throw (.malformed (.shortFilter filter.length count width needed))
  let kind := logicalType.kindAt width
  let sentinels := LaneSentinels.ofPair kind pair
  let conditions ← (records filter width count).mapM (Condition.ofRecord kind sentinels)
  return ofConditions (.ofWidth width) combinator conditions

end CompiledFilter

end ColumnScan
