import ColumnScan.Catalog.Sentinel

/-!
# Lanes

Before a value is compared it is widened to an integer, its lane: a signed 64-bit word for columns
up to eight bytes and a signed 128-bit word for sixteen. Values of unsigned columns are
zero-extended. At eight bytes nothing is left to extend, so there an unsigned lane is the signed
word with the same bits, and comparators read it back as a natural number.

Equal bytes of one column give equal lanes and different bytes different ones, so a stored value is
a reserved pattern exactly when its lane is the lane of that pattern.
-/

set_option autoImplicit false

namespace ColumnScan

/-- The word that keeps the lanes of a filter. -/
inductive LaneSize where
  | narrow
  | wide
deriving DecidableEq

namespace LaneSize

def ofWidth (width : Nat) : LaneSize := if width = 16 then .wide else .narrow

end LaneSize

def laneOf (kind : ValueKind) (stored : Bytes) : Int :=
  if 8 < stored.length then
    LittleEndian.intValue stored
  else
    let word := LittleEndian.word64 stored
    if stored.length == 8 || kind == .unsigned then word.toInt
    else (LittleEndian.extendSign stored.length word).toInt

/-- The lane of the low `width` bytes of a bit pattern. -/
def laneOfPattern (kind : ValueKind) (width pattern : Nat) : Int :=
  if 8 < width then Int.bmod pattern (LittleEndian.capacity width)
  else widen (kind != .unsigned) ((LittleEndian.ofNat 16 pattern).take width)

theorem laneOf_eq_widen (kind : ValueKind) {stored : Bytes} (narrow : stored.length ≤ 8) :
    laneOf kind stored = widen (kind != .unsigned) stored := by
  cases stored with
  | nil => cases kind <;> rfl
  | cons byte rest =>
      have nonempty : ((byte :: rest).length == 0) = false := rfl
      unfold laneOf widen
      simp only [Nat.not_lt.mpr narrow, if_false, List.take_of_length_le narrow, bne, Bool.not_not,
        nonempty, Bool.or_false]
      rw [Bool.or_comm]

/-- A lane is the number that the stored bytes denote, without a sign for an unsigned column that
has bits to spare. -/
theorem laneOf_eq (kind : ValueKind) (stored : Bytes) : laneOf kind stored =
    if kind = .unsigned ∧ stored.length < 8 then (LittleEndian.natValue stored : Int)
    else LittleEndian.intValue stored := by
  by_cases wide : 8 < stored.length
  · rw [laneOf, if_pos wide, if_neg fun short => Nat.lt_asymm wide short.2]
  · have narrow := Nat.le_of_not_lt wide
    rw [laneOf_eq_widen kind narrow]
    by_cases unsigned : kind = .unsigned
    · have kept : (kind != .unsigned) = false := by
        rw [unsigned]
        rfl
      rw [kept, widen_false, List.take_of_length_le narrow]
      split
      next short => exact LittleEndian.bmod_natValue_of_short short.2
      next full =>
        have eight : stored.length = 8 :=
          Nat.le_antisymm narrow (Nat.le_of_not_lt fun short => full ⟨unsigned, short⟩)
        rw [LittleEndian.intValue, eight]
    · rw [bne_iff_ne.mpr unsigned, widen_true, List.take_of_length_le narrow,
        if_neg fun short => unsigned short.1]

/-- The natural number with the bits of a 64-bit lane. -/
def unsignedLane (lane : Int) : Int := lane % LittleEndian.capacity 8

/-- The lane of a pattern is the lane of its bytes. -/
theorem laneOf_ofNat (kind : ValueKind) (width pattern : Nat) :
    laneOf kind (LittleEndian.ofNat width pattern) = laneOfPattern kind width pattern := by
  have length := LittleEndian.length_ofNat width pattern
  unfold laneOfPattern
  split
  next wide =>
    rw [laneOf, if_pos (Nat.lt_of_lt_of_eq wide length.symm), LittleEndian.intValue, length,
      LittleEndian.natValue_ofNat, Int.natCast_emod, Int.emod_bmod]
  next notWide =>
    have narrow := Nat.le_of_not_lt notWide
    rw [LittleEndian.take_ofNat (Nat.le_trans narrow (by decide)),
      laneOf_eq_widen kind (Nat.le_trans (Nat.le_of_eq length) narrow)]

/-- The reserved patterns of a column as lanes. -/
structure LaneSentinels where
  null : Int
  alternateNull : Option Int
  empty : Int
deriving DecidableEq

namespace LaneSentinels

def ofPair (kind : ValueKind) (pair : SentinelPair) : LaneSentinels where
  null := laneOfPattern kind pair.width pair.null
  alternateNull := pair.alternateNull.map (laneOfPattern kind pair.width)
  empty := laneOfPattern kind pair.width pair.empty

def isNull (sentinels : LaneSentinels) (lane : Int) : Bool :=
  lane == sentinels.null || sentinels.alternateNull == some lane

def isEmpty (sentinels : LaneSentinels) (lane : Int) : Bool :=
  lane == sentinels.empty

end LaneSentinels

end ColumnScan
