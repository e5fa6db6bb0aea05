import ColumnScan.Error

/-!
# Operators and combinators

The operators of predicates and the combinators that join predicates, with the bytes that stand
for them in filters and scan requests.
-/

set_option autoImplicit false

namespace ColumnScan

/-- The comparison that a predicate makes. -/
inductive Operator where
  | never
  | less
  | equal
  | lessOrEqual
  | greater
  | notEqual
  | greaterOrEqual
  | like
  | notLike
deriving DecidableEq

namespace Operator

/-- Every operator, in the order of their bytes in a report. -/
def all : List Operator :=
  [.never, .less, .equal, .lessOrEqual, .greater, .notEqual, .greaterOrEqual, .like, .notLike]

def code : Operator → UInt8
  | .never => 0
  | .less => 1
  | .equal => 2
  | .lessOrEqual => 3
  | .greater => 4
  | .notEqual => 5
  | .greaterOrEqual => 6
  | .like => 0x10
  | .notLike => 0x18

/-- The operator of a byte. An unknown byte means that the filter is corrupted. -/
def ofCode : UInt8 → Except ScanError Operator
  | 0 => .ok .never
  | 1 => .ok .less
  | 2 => .ok .equal
  | 3 => .ok .lessOrEqual
  | 4 => .ok .greater
  | 5 => .ok .notEqual
  | 6 => .ok .greaterOrEqual
  | 0x10 => .ok .like
  | 0x18 => .ok .notLike
  | byte => .error (.unknownOperator byte)

def name : Operator → String
  | .never => "Nil"
  | .less => "Lt"
  | .equal => "Eq"
  | .lessOrEqual => "Le"
  | .greater => "Gt"
  | .notEqual => "Ne"
  | .greaterOrEqual => "Ge"
  | .like => "Like"
  | .notLike => "NotLike"

/-- Pattern matching, negated or not. -/
def isLike : Operator → Bool
  | .like | .notLike => true
  | _ => false

/-- Whether the operator holds of two values in the given order. Pattern operators hold of none. -/
def holdsOf (operator : Operator) (order : Ordering) : Bool :=
  match operator with
  | .never | .like | .notLike => false
  | .less => order == .lt
  | .equal => order == .eq
  | .lessOrEqual => order != .gt
  | .greater => order == .gt
  | .notEqual => order != .eq
  | .greaterOrEqual => order != .lt

/-- Reading an operator's byte gives the operator back. -/
theorem ofCode_code (operator : Operator) : ofCode operator.code = .ok operator := by
  cases operator <;> rfl

end Operator

/-- What joins the predicates of a filter. -/
inductive Combinator where
  | none
  | and
  | or
  | xor
deriving DecidableEq

namespace Combinator

def code : Combinator → UInt8
  | .none => 0
  | .and => 1
  | .or => 2
  | .xor => 3

def ofCode : UInt8 → Except ScanError Combinator
  | 0 => .ok .none
  | 1 => .ok .and
  | 2 => .ok .or
  | 3 => .ok .xor
  | byte => .error (.invalidArgument (.unknownCombinator byte))

def name : Combinator → String
  | .none => "None"
  | .and => "And"
  | .or => "Or"
  | .xor => "Xor"

/-- Reading a combinator's byte gives the combinator back. -/
theorem ofCode_code (combinator : Combinator) : ofCode combinator.code = .ok combinator := by
  cases combinator <;> rfl

end Combinator

end ColumnScan
