import ColumnScan.Filter.Lane

/-!
# Lanes keep values apart

Widening loses nothing: two values of one width with the same lane are the same bytes. A stored
value is therefore a reserved pattern exactly when its lane is that pattern's lane, which is how
scans and filters recognise NULL and EMPTY.
-/

set_option autoImplicit false

namespace ColumnScan

namespace LittleEndian

theorem capacity_le {width bound : Nat} (narrow : width ≤ bound) :
    capacity width ≤ capacity bound :=
  Nat.pow_le_pow_right (by decide) narrow

theorem natValue_injective {left right : Bytes} (sameLength : left.length = right.length)
    (sameValue : natValue left = natValue right) : left = right := by
  rw [← ofNat_natValue left, ← ofNat_natValue right, sameLength, sameValue]

theorem intValue_injective {left right : Bytes} (sameLength : left.length = right.length)
    (sameValue : intValue left = intValue right) : left = right := by
  rw [← ofInt_intValue left, ← ofInt_intValue right, sameLength, sameValue]

theorem eq_ofNat_iff {bytes : Bytes} {width value : Nat} (length : bytes.length = width)
    (fits : value < capacity width) : bytes = ofNat width value ↔ natValue bytes = value := by
  constructor
  · rintro rfl
    rw [natValue_ofNat, Nat.mod_eq_of_lt fits]
  · rintro rfl
    rw [← length, ofNat_natValue]

end LittleEndian

theorem laneOf_injective {kind : ValueKind} {left right : Bytes}
    (sameLength : left.length = right.length) (sameLane : laneOf kind left = laneOf kind right) :
    left = right := by
  rw [laneOf_eq, laneOf_eq, sameLength] at sameLane
  split at sameLane
  · exact LittleEndian.natValue_injective sameLength (Int.ofNat_inj.mp sameLane)
  · exact LittleEndian.intValue_injective sameLength sameLane

/-- A stored value has the lane of a pattern exactly when it is the low bytes of that pattern. -/
theorem laneOf_eq_laneOfPattern_iff {kind : ValueKind} {stored : Bytes} {width : Nat}
    (length : stored.length = width) (pattern : Nat) :
    laneOf kind stored = laneOfPattern kind width pattern ↔
      stored = LittleEndian.ofNat width pattern := by
  rw [← laneOf_ofNat]
  constructor
  · exact laneOf_injective (length.trans (LittleEndian.length_ofNat width pattern).symm)
  · rintro rfl
    rfl

theorem ofInt_laneOf (kind : ValueKind) (stored : Bytes) :
    LittleEndian.ofInt stored.length (laneOf kind stored) = stored := by
  rw [laneOf_eq]
  split
  · have below := LittleEndian.natValue_lt stored
    rw [LittleEndian.ofInt, ← Int.natCast_emod, Int.toNat_natCast, Nat.mod_eq_of_lt below,
      LittleEndian.ofNat_natValue]
  · exact LittleEndian.ofInt_intValue stored

/-- At up to eight bytes, reading a lane of an unsigned column back gives the stored number. -/
theorem unsignedLane_laneOf {stored : Bytes} (narrow : stored.length ≤ 8) :
    unsignedLane (laneOf .unsigned stored) = LittleEndian.natValue stored := by
  have below := LittleEndian.natValue_lt stored
  rw [laneOf_eq, unsignedLane]
  split
  next short =>
    have room := LittleEndian.capacity_le narrow
    exact Int.emod_eq_of_lt (Int.natCast_nonneg _) (by omega)
  next long =>
    have full : stored.length = 8 := by
      simp only [true_and] at long
      omega
    rw [LittleEndian.intValue, full, Int.bmod_emod]
    rw [full] at below
    exact Int.emod_eq_of_lt (Int.natCast_nonneg _) (by omega)

theorem unsignedLane_injective {left right : Bytes} (narrow : left.length ≤ 8)
    (sameLength : left.length = right.length)
    (sameLane : unsignedLane (laneOf .unsigned left) = unsignedLane (laneOf .unsigned right)) :
    left = right := by
  rw [unsignedLane_laneOf narrow, unsignedLane_laneOf (sameLength ▸ narrow)] at sameLane
  exact LittleEndian.natValue_injective sameLength (Int.ofNat_inj.mp sameLane)

namespace SentinelPair

/-- What the patterns of every column of the catalog satisfy: they fit one of the five widths, and
EMPTY is none of the NULL patterns. -/
structure WellFormed (pair : SentinelPair) (width : Nat) : Prop where
  width_mem : width ∈ [1, 2, 4, 8, 16]
  width_eq : pair.width = width
  null_lt : pair.null < LittleEndian.capacity width
  empty_lt : pair.empty < LittleEndian.capacity width
  alternate_lt : ∀ pattern ∈ pair.alternateNull, pattern < LittleEndian.capacity width
  empty_ne_null : pair.isNull pair.empty = false

theorem WellFormed.width_pos {pair : SentinelPair} {width : Nat}
    (wellFormed : pair.WellFormed width) : 0 < width := by
  have layout := wellFormed.width_mem
  simp only [List.mem_cons, List.not_mem_nil, or_false] at layout
  omega

namespace WellFormed

variable {pair : SentinelPair} {width : Nat} (wellFormed : pair.WellFormed width)

include wellFormed

theorem length_nullBytes : pair.nullBytes.length = width := by
  rw [nullBytes, LittleEndian.length_ofNat, wellFormed.width_eq]

theorem natValue_nullBytes : LittleEndian.natValue pair.nullBytes = pair.null := by
  rw [nullBytes, LittleEndian.natValue_ofNat, wellFormed.width_eq,
    Nat.mod_eq_of_lt wellFormed.null_lt]

theorem isNull_nullBytes : pair.isNull (LittleEndian.natValue pair.nullBytes) = true := by
  rw [wellFormed.natValue_nullBytes, isNull, BEq.rfl, Bool.true_or]

/-- A value that is NULL is one of the NULL patterns. -/
theorem eq_of_isNull {value : Bytes} (length : value.length = width)
    (isNull : pair.isNull (LittleEndian.natValue value) = true) :
    value = pair.nullBytes ∨
      ∃ pattern ∈ pair.alternateNull, value = LittleEndian.ofNat width pattern := by
  rw [SentinelPair.isNull, Bool.or_eq_true, beq_iff_eq, beq_iff_eq] at isNull
  rcases isNull with primary | alternate
  · refine .inl (LittleEndian.natValue_injective (length.trans wellFormed.length_nullBytes.symm) ?_)
    rw [primary, wellFormed.natValue_nullBytes]
  · exact .inr ⟨_, alternate, by rw [← length, LittleEndian.ofNat_natValue]⟩

theorem length_emptyBytes : pair.emptyBytes.length = width := by
  rw [emptyBytes, LittleEndian.length_ofNat, wellFormed.width_eq]

theorem natValue_emptyBytes : LittleEndian.natValue pair.emptyBytes = pair.empty := by
  rw [emptyBytes, LittleEndian.natValue_ofNat, wellFormed.width_eq,
    Nat.mod_eq_of_lt wellFormed.empty_lt]

theorem isNull_emptyBytes : pair.isNull (LittleEndian.natValue pair.emptyBytes) = false := by
  rw [wellFormed.natValue_emptyBytes, wellFormed.empty_ne_null]

theorem isNull_of_isEmpty {pattern : Nat} (isEmpty : pair.isEmpty pattern = true) :
    pair.isNull pattern = false := by
  rw [beq_iff_eq.mp isEmpty, wellFormed.empty_ne_null]

end WellFormed

end SentinelPair

theorem LogicalType.wellFormed_of_sentinels? {logicalType : LogicalType} {width : Nat}
    {pair : SentinelPair} (found : logicalType.sentinels? width = some pair) :
    pair.WellFormed width := by
  unfold LogicalType.sentinels? at found
  split at found
  next wide =>
    cases found
    subst wide
    constructor <;> decide
  split at found
  next =>
    unfold LogicalType.charSentinels? at found
    split at found <;> cases found <;> constructor <;> decide
  next =>
    unfold LogicalType.kindSentinels? at found
    split at found <;> cases found <;> constructor <;> decide

namespace LaneSentinels

variable {kind : ValueKind} {pair : SentinelPair} {width : Nat} {stored : Bytes}

/-- Lanes are classified as EMPTY and as NULL as the stored bytes are. -/
theorem isEmpty_ofPair (wellFormed : pair.WellFormed width) (length : stored.length = width) :
    (ofPair kind pair).isEmpty (laneOf kind stored) =
      pair.isEmpty (LittleEndian.natValue stored) := by
  rw [Bool.eq_iff_iff]
  simp only [isEmpty, ofPair, SentinelPair.isEmpty, beq_iff_eq, wellFormed.width_eq,
    laneOf_eq_laneOfPattern_iff length]
  exact LittleEndian.eq_ofNat_iff length wellFormed.empty_lt

theorem isNull_ofPair (wellFormed : pair.WellFormed width) (length : stored.length = width) :
    (ofPair kind pair).isNull (laneOf kind stored) =
      pair.isNull (LittleEndian.natValue stored) := by
  rw [Bool.eq_iff_iff]
  simp only [isNull, ofPair, SentinelPair.isNull, Bool.or_eq_true, beq_iff_eq,
    wellFormed.width_eq]
  apply or_congr
  · rw [laneOf_eq_laneOfPattern_iff length]
    exact LittleEndian.eq_ofNat_iff length wellFormed.null_lt
  · cases alternate : pair.alternateNull with
    | none => simp only [Option.map_none, reduceCtorEq]
    | some pattern =>
        simp only [Option.map_some, Option.some.injEq]
        rw [eq_comm, eq_comm (a := pattern)]
        rw [laneOf_eq_laneOfPattern_iff length]
        exact LittleEndian.eq_ofNat_iff length (wellFormed.alternate_lt pattern alternate)

theorem isNull_empty (wellFormed : pair.WellFormed width) :
    (ofPair kind pair).isNull (ofPair kind pair).empty = false := by
  have lane : (ofPair kind pair).empty = laneOf kind pair.emptyBytes := by
    rw [SentinelPair.emptyBytes, laneOf_ofNat, ofPair]
  rw [lane, isNull_ofPair wellFormed wellFormed.length_emptyBytes, wellFormed.isNull_emptyBytes]

end LaneSentinels

end ColumnScan
