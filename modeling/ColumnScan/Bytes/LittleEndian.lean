/-!
# Little-endian words

A word of any width is a list of bytes, the least significant first. It is read as a natural
number or as a two's-complement integer, and written from either. Reading undoes writing for the
numbers that fit the width, and writing undoes reading always.

A narrow word is widened to 64 bits by moving it to the top of the wide one and back, so that the
sign follows it down. That gives the integer that the narrow word denotes.
-/

set_option autoImplicit false

namespace ColumnScan

abbrev Bytes := List UInt8

namespace LittleEndian

/-- The number of words of `width` bytes. -/
def capacity (width : Nat) : Nat := Nat.pow 256 width

def natValue : Bytes → Nat
  | [] => 0
  | byte :: rest => byte.toNat + 256 * natValue rest

/-- The low `width` bytes of a natural number. -/
def ofNat : (width : Nat) → Nat → Bytes
  | 0, _ => []
  | width + 1, value => UInt8.ofNat value :: ofNat width (value / 256)

def intValue (bytes : Bytes) : Int :=
  Int.bmod (natValue bytes) (capacity bytes.length)

/-- The low `width` bytes of an integer in two's complement. -/
def ofInt (width : Nat) (value : Int) : Bytes :=
  ofNat width (value % capacity width).toNat

/-- One more byte makes 256 times as many words. -/
theorem capacity_succ (width : Nat) : capacity (width + 1) = 256 * capacity width :=
  Nat.mul_comm (Nat.pow 256 width) 256

/-- There is a word of every width. -/
theorem capacity_pos (width : Nat) : 0 < capacity width := by
  induction width with
  | zero => decide
  | succ width ih =>
      rw [capacity_succ]
      omega

@[simp] theorem length_ofNat (width value : Nat) : (ofNat width value).length = width := by
  induction width generalizing value with
  | zero => rfl
  | succ width ih => simp [ofNat, ih]

@[simp] theorem length_ofInt (width : Nat) (value : Int) : (ofInt width value).length = width :=
  length_ofNat _ _

/-- A word denotes a number below the capacity of its width. -/
theorem natValue_lt (bytes : Bytes) : natValue bytes < capacity bytes.length := by
  induction bytes with
  | nil => decide
  | cons byte rest ih =>
      have below := byte.toNat_lt
      simp only [natValue, List.length_cons, capacity_succ]
      omega

/-- The first bytes of a number are its low bytes. -/
theorem take_ofNat {width larger : Nat} (le : width ≤ larger) (value : Nat) :
    (ofNat larger value).take width = ofNat width value := by
  induction width generalizing larger value with
  | zero => rfl
  | succ width ih =>
      cases larger with
      | zero => exact absurd le (Nat.not_succ_le_zero width)
      | succ larger =>
          rw [ofNat, ofNat, List.take_succ_cons, ih (Nat.le_of_succ_le_succ le)]

/-- Writing keeps a number modulo the capacity of the width. -/
theorem natValue_ofNat (width value : Nat) :
    natValue (ofNat width value) = value % capacity width := by
  induction width generalizing value with
  | zero => exact (Nat.mod_one value).symm
  | succ width ih =>
      have parts : value % (256 * capacity width) =
          value % 256 + 256 * (value / 256 % capacity width) := Nat.mod_mul
      rw [capacity_succ, parts, ofNat, natValue, ih, UInt8.toNat_ofNat']

/-- A word is determined by its length and the number it denotes. -/
theorem ofNat_natValue (bytes : Bytes) : ofNat bytes.length (natValue bytes) = bytes := by
  induction bytes with
  | nil => rfl
  | cons byte rest ih =>
      have below := byte.toNat_lt
      have quotient : (byte.toNat + 256 * natValue rest) / 256 = natValue rest := by omega
      have low : UInt8.ofNat (byte.toNat + 256 * natValue rest) = byte := by
        apply UInt8.toNat_inj.mp
        simp only [UInt8.toNat_ofNat']
        omega
      simp only [List.length_cons, natValue, ofNat, quotient, low, ih]

/-- The bytes above the width make no difference to the low ones. -/
theorem ofNat_mod (width value : Nat) :
    ofNat width (value % capacity width) = ofNat width value := by
  have written := ofNat_natValue (ofNat width value)
  rwa [length_ofNat, natValue_ofNat] at written

/-- Writing the integer that a word denotes gives the word back. -/
theorem ofInt_intValue (bytes : Bytes) : ofInt bytes.length (intValue bytes) = bytes := by
  have below := natValue_lt bytes
  have same : (intValue bytes % capacity bytes.length).toNat = natValue bytes := by
    rw [intValue, Int.bmod_emod, ← Int.natCast_emod, Int.toNat_natCast, Nat.mod_eq_of_lt below]
  rw [ofInt, same, ofNat_natValue]

/-- Reading an integer written in `width` bytes gives its balanced remainder. -/
theorem intValue_ofInt (width : Nat) (value : Int) :
    intValue (ofInt width value) = value.bmod (capacity width) := by
  have positive := capacity_pos width
  have nonneg : 0 ≤ value % capacity width := Int.emod_nonneg _ (by omega)
  have bound : value % capacity width < capacity width := Int.emod_lt_of_pos _ (by omega)
  have small : (value % capacity width).toNat < capacity width := by omega
  rw [intValue, length_ofInt, ofInt, natValue_ofNat, Nat.mod_eq_of_lt small,
    Int.toNat_of_nonneg nonneg, Int.emod_bmod]

/-- A word in the low `width` bytes of a 64-bit word, with its sign in all the bits above. -/
def extendSign (width : Nat) (word : BitVec 64) : BitVec 64 :=
  let unused := 64 - 8 * width
  (word <<< unused).sshiftRight unused

/-- What is moved up loses its upper bits, and moving back divides again. -/
theorem toInt_extendSign {width : Nat} (positive : 0 < width) (narrow : width ≤ 8)
    (word : BitVec 64) : (extendSign width word).toInt = Int.bmod word.toNat (capacity width) := by
  let factor := 2 ^ (64 - 8 * width)
  have factorPos : 0 < factor := Nat.two_pow_pos _
  have power : capacity width = 2 ^ (8 * width) := (Nat.pow_mul 2 8 width).symm
  have whole : 2 ^ 64 = factor * capacity width := by
    rw [power, ← Nat.pow_add]
    congr 1
    omega
  have even : 2 ∣ capacity width := by
    rw [power]
    exact Nat.pow_dvd_pow 2 (show 1 ≤ 8 * width by omega)
  have moved : ((word.toNat <<< (64 - 8 * width) : Nat) : Int) = factor * word.toNat := by
    rw [Nat.shiftLeft_eq, Nat.mul_comm, Int.natCast_mul]
  rw [extendSign, BitVec.toInt_sshiftRight, BitVec.toInt_shiftLeft, Int.shiftRight_eq_div_pow,
    moved, whole, Int.mod_bmod_mul_of_pos word.toNat (capacity width) factorPos even]
  exact Int.mul_ediv_cancel_left _ (by omega)

/-- The 64-bit word whose low bytes are given and whose other bytes are zero. -/
def word64 (bytes : Bytes) : BitVec 64 := BitVec.ofNat 64 (natValue bytes)

theorem toNat_word64 {bytes : Bytes} (narrow : bytes.length ≤ 8) :
    (word64 bytes).toNat = natValue bytes := by
  have below := natValue_lt bytes
  have room : capacity bytes.length ≤ capacity 8 := Nat.pow_le_pow_right (by decide) narrow
  exact Nat.mod_eq_of_lt (Nat.lt_of_lt_of_le below room)

theorem toInt_word64 {bytes : Bytes} (narrow : bytes.length ≤ 8) :
    (word64 bytes).toInt = Int.bmod (natValue bytes) (capacity 8) := by
  rw [BitVec.toInt_eq_toNat_bmod, toNat_word64 narrow]
  rfl

/-- Up to seven bytes leave the sign bit of the word clear. -/
theorem bmod_natValue_of_short {bytes : Bytes} (short : bytes.length < 8) :
    Int.bmod (natValue bytes) (capacity 8) = natValue bytes := by
  have below := natValue_lt bytes
  have room : capacity bytes.length ≤ capacity 7 :=
    Nat.pow_le_pow_right (by decide) (Nat.le_of_lt_succ short)
  have half : capacity 8 = 256 * capacity 7 := capacity_succ 7
  apply Int.bmod_eq_of_le <;> omega

theorem toInt_extendSign_word64 {bytes : Bytes} (narrow : bytes.length ≤ 8) :
    (extendSign bytes.length (word64 bytes)).toInt = intValue bytes := by
  cases bytes with
  | nil => rfl
  | cons byte rest =>
      have positive : 0 < (byte :: rest).length := Nat.succ_pos _
      rw [toInt_extendSign positive narrow, toNat_word64 narrow, intValue]

end LittleEndian

/-- The low bytes of a word, at most eight, widened to a signed 64-bit word: sign-extended when
`signed`, zero-extended otherwise. A word of eight bytes or more is taken as it is. -/
def widen (signed : Bool) (bytes : Bytes) : Int :=
  let low := bytes.take 8
  let word := LittleEndian.word64 low
  if !signed || low.length == 8 || low.length == 0 then word.toInt
  else (LittleEndian.extendSign low.length word).toInt

theorem widen_true (bytes : Bytes) : widen true bytes = LittleEndian.intValue (bytes.take 8) := by
  have narrow : (bytes.take 8).length ≤ 8 := List.length_take_le 8 bytes
  unfold widen
  generalize bytes.take 8 = low at *
  simp only [Bool.not_true, Bool.false_or, Bool.or_eq_true, beq_iff_eq]
  split
  next whole =>
    rw [LittleEndian.toInt_word64 narrow]
    rcases whole with full | none
    · rw [LittleEndian.intValue, full]
    · rw [List.length_eq_zero_iff.mp none]
      rfl
  next => exact LittleEndian.toInt_extendSign_word64 narrow

theorem widen_false (bytes : Bytes) : widen false bytes =
    Int.bmod (LittleEndian.natValue (bytes.take 8)) (LittleEndian.capacity 8) :=
  LittleEndian.toInt_word64 (List.length_take_le 8 bytes)

/-- The low `width` bytes of a 128-bit integer, at most sixteen. -/
def narrow (width : Nat) (value : Int) : Bytes :=
  (LittleEndian.ofInt 16 value).take width

theorem narrow_eq_ofInt {width : Nat} (le : width ≤ 16) (value : Int) :
    narrow width value = LittleEndian.ofInt width value := by
  have divides : (LittleEndian.capacity width : Int) ∣ LittleEndian.capacity 16 :=
    Int.natCast_dvd_natCast.mpr (Nat.pow_dvd_pow 256 le)
  have positive := LittleEndian.capacity_pos 16
  have nonneg : 0 ≤ value % LittleEndian.capacity 16 := Int.emod_nonneg _ (by omega)
  unfold narrow LittleEndian.ofInt
  rw [LittleEndian.take_ofNat le, ← LittleEndian.ofNat_mod, ← Int.emod_emod_of_dvd value divides,
    Int.toNat_emod nonneg (Int.natCast_nonneg _), Int.toNat_natCast]

/-- The value with the given index in an array of values `width` bytes wide. Bytes past the end of
the array are missing from the result. -/
def cell (bytes : Array UInt8) (width index : Nat) : Bytes :=
  (bytes.extract (index * width) (index * width + width)).toList

end ColumnScan
