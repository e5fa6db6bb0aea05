import ColumnScan.Bytes.LittleEndian
import ColumnScan.Error

/-!
# Decimal storages and their arithmetic

A decimal keeps its digits in a signed word of 64 or 128 bits. The least two words of a storage
are reserved for NULL and EMPTY. Checked operations report an overflow where the exact result is
not an ordinary value, and wrapping operations reduce the exact result modulo the storage.

Checked addition and subtraction compare the first operand with a bound before they compute, and
the bound is itself a word that may wrap. They look only at the side towards which the second
operand moves the first, so a reserved first operand is refused when it moves further down and
passes otherwise. A checked product is computed in a word of twice the width.
-/

set_option autoImplicit false

namespace ColumnScan

/-- The word that keeps the digits of a decimal. -/
inductive DecimalStorage where
  /-- 64 bits, for precisions up to eighteen. -/
  | narrow
  /-- 128 bits, for precisions up to thirty-eight. -/
  | wide
deriving DecidableEq

/-- What an operation does with a result that its storage does not hold. -/
inductive OverflowPolicy where
  | checked
  | wrapping
deriving DecidableEq

namespace DecimalStorage

def ofPrecision (precision : Nat) : DecimalStorage :=
  if precision ≤ 18 then .narrow else .wide

def name : DecimalStorage → String
  | .narrow => "Narrow"
  | .wide => "Wide"

def width : DecimalStorage → Nat
  | .narrow => 8
  | .wide => 16

def capacity (storage : DecimalStorage) : Nat := LittleEndian.capacity storage.width

/-- The least word, which means NULL. -/
def null : DecimalStorage → Int
  | .narrow => -0x8000000000000000
  | .wide => -0x80000000000000000000000000000000

/-- The word above NULL, which means EMPTY. -/
def empty (storage : DecimalStorage) : Int := storage.null + 1

def least (storage : DecimalStorage) : Int := storage.null + 2

def greatest : DecimalStorage → Int
  | .narrow => 0x7FFFFFFFFFFFFFFF
  | .wide => 0x7FFFFFFFFFFFFFFFFFFFFFFFFFFFFFFF

/-- A word of the storage, reserved or not. -/
def Fits (storage : DecimalStorage) (value : Int) : Prop :=
  storage.null ≤ value ∧ value ≤ storage.greatest

def Ordinary (storage : DecimalStorage) (value : Int) : Prop :=
  storage.least ≤ value ∧ value ≤ storage.greatest

instance (storage : DecimalStorage) (value : Int) : Decidable (storage.Fits value) :=
  inferInstanceAs (Decidable (_ ∧ _))

instance (storage : DecimalStorage) (value : Int) : Decidable (storage.Ordinary value) :=
  inferInstanceAs (Decidable (_ ∧ _))

theorem null_eq_neg (storage : DecimalStorage) : storage.null = -(storage.greatest + 1) := by
  cases storage <;> rfl

theorem capacity_eq_greatest (storage : DecimalStorage) :
    (storage.capacity : Int) = 2 * (storage.greatest + 1) := by
  cases storage <;> rfl

def wrap (storage : DecimalStorage) (value : Int) : Int := value.bmod storage.capacity

theorem fits_wrap (storage : DecimalStorage) (value : Int) :
    storage.Fits (storage.wrap value) := by
  have positive : 0 < storage.capacity := LittleEndian.capacity_pos storage.width
  have lower : -(storage.capacity / 2 : Int) ≤ storage.wrap value := Int.le_bmod positive
  have upper : storage.wrap value < (storage.capacity + 1) / 2 := Int.bmod_lt positive
  have half := storage.capacity_eq_greatest
  have bottom := storage.null_eq_neg
  constructor <;> omega

/-- A word of the storage is its own remainder. -/
theorem wrap_of_fits {storage : DecimalStorage} {value : Int} (fits : storage.Fits value) :
    storage.wrap value = value := by
  obtain ⟨lower, upper⟩ := fits
  have half := storage.capacity_eq_greatest
  have bottom := storage.null_eq_neg
  apply Int.bmod_eq_of_le <;> omega

theorem fits_intValue (storage : DecimalStorage) {bytes : Bytes}
    (length : bytes.length = storage.width) : storage.Fits (LittleEndian.intValue bytes) := by
  rw [LittleEndian.intValue, length]
  exact storage.fits_wrap (LittleEndian.natValue bytes)

/-- A word of the storage is read back from its bytes. -/
theorem intValue_ofInt (storage : DecimalStorage) {value : Int} (fits : storage.Fits value) :
    LittleEndian.intValue (LittleEndian.ofInt storage.width value) = value := by
  rw [LittleEndian.intValue_ofInt]
  exact wrap_of_fits fits

/-- The error of an operation whose operands are words of this storage. -/
def overflow (storage : DecimalStorage) (operation : ArithmeticOperation) : ScanError :=
  match storage with
  | .narrow => .overflow operation .narrow .narrow
  | .wide => .overflow operation .wide .wide

def add (storage : DecimalStorage) (policy : OverflowPolicy) (left right : Int) :
    Except ScanError Int :=
  if policy = .checked ∧
      (0 < right ∧ storage.wrap (storage.greatest - right) < left ∨
        right < 0 ∧ left < storage.wrap (storage.least - right)) then
    .error (storage.overflow .add)
  else
    .ok (storage.wrap (left + right))

def subtract (storage : DecimalStorage) (policy : OverflowPolicy) (left right : Int) :
    Except ScanError Int :=
  if policy = .checked ∧
      (right < 0 ∧ storage.wrap (storage.greatest + right) < left ∨
        0 < right ∧ left < storage.wrap (storage.least + right)) then
    .error (storage.overflow .subtract)
  else
    .ok (storage.wrap (left - right))

/-- The product of two words, computed in a word of twice the width, if the storage holds it. -/
def product? (storage : DecimalStorage) (left right : Int) : Option Int :=
  let product := (left * right).bmod (LittleEndian.capacity (2 * storage.width))
  if storage.Fits product then some product else none

def multiply (storage : DecimalStorage) (policy : OverflowPolicy) (left right : Int) :
    Except ScanError Int :=
  match policy with
  | .wrapping => .ok (storage.wrap (left * right))
  | .checked =>
      match storage.product? left right with
      | some product =>
          if storage.least ≤ product then .ok product else .error (storage.overflow .multiply)
      | none => .error (storage.overflow .multiply)

/-- The quotient of two words, truncated toward zero. Only the least word divided by minus one
leaves the storage. -/
def divide (storage : DecimalStorage) (policy : OverflowPolicy) (left right : Int) :
    Except ScanError Int :=
  if right = 0 then
    .error (.invalidArgument .divisionByZero)
  else
    let quotient := left.tdiv right
    match policy with
    | .wrapping => .ok (storage.wrap quotient)
    | .checked =>
        if quotient ≤ storage.greatest then .ok quotient else .error (storage.overflow .divide)

/-- Apply an operation to two numbers that must be words of the storage. Operands that are not are
reported as an overflow of `operation`. -/
def within (storage : DecimalStorage) (operation : ArithmeticOperation)
    (compute : Int → Int → Except ScanError Int) (left right : Int) : Except ScanError Int :=
  if storage.Fits left ∧ storage.Fits right then compute left right
  else .error (storage.overflow operation)

end DecimalStorage

end ColumnScan
