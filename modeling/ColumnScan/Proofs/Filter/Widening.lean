import ColumnScan.Proofs.Filter.Lanes

/-!
# Widening loses nothing

A stored value is widened on its own, as the lane that predicates compare, and as the lane of a
reserved bit pattern. The three agree at every width, and the bytes can be got back from what they
give, so a lane meets the lane of a pattern only where the bytes are those of the pattern.
-/

set_option autoImplicit false

namespace ColumnScan

theorem narrow_laneOf (kind : ValueKind) {stored : Bytes} (size : stored.length ≤ 16) :
    narrow stored.length (laneOf kind stored) = stored := by
  rw [narrow_eq_ofInt size, ofInt_laneOf]

/-- A widened word is the lane of a column of that signedness. -/
theorem narrow_widen (signed : Bool) {bytes : Bytes} (short : bytes.length ≤ 8) :
    narrow bytes.length (widen signed bytes) = bytes := by
  have size : bytes.length ≤ 16 := Nat.le_trans short (by decide)
  cases signed with
  | false =>
      have lane : laneOf .unsigned bytes = widen false bytes := laneOf_eq_widen .unsigned short
      rw [← lane, narrow_laneOf .unsigned size]
  | true =>
      have lane : laneOf .signed bytes = widen true bytes := laneOf_eq_widen .signed short
      rw [← lane, narrow_laneOf .signed size]

theorem laneOf_of_wide (kind : ValueKind) {stored : Bytes} (wide : 8 < stored.length) :
    laneOf kind stored = LittleEndian.intValue stored := by
  rw [laneOf, if_pos wide]

namespace LaneSentinels

variable {kind : ValueKind} {pair : SentinelPair} {stored : Bytes}
  (length : stored.length = pair.width)

include length

theorem isNull_ofPair_iff : (ofPair kind pair).isNull (laneOf kind stored) = true ↔
    stored = pair.nullBytes ∨
      ∃ alternate ∈ pair.alternateNull, stored = LittleEndian.ofNat pair.width alternate := by
  simp only [isNull, ofPair, Bool.or_eq_true, beq_iff_eq, laneOf_eq_laneOfPattern_iff length,
    SentinelPair.nullBytes]
  refine or_congr_right ?_
  cases pair.alternateNull with
  | none => simp
  | some alternate =>
      simp only [Option.map_some, Option.some.injEq, Option.mem_def, exists_eq_left']
      rw [eq_comm, laneOf_eq_laneOfPattern_iff length]

theorem isEmpty_ofPair_iff : (ofPair kind pair).isEmpty (laneOf kind stored) = true ↔
    stored = pair.emptyBytes := by
  simp only [isEmpty, ofPair, beq_iff_eq, laneOf_eq_laneOfPattern_iff length,
    SentinelPair.emptyBytes]

end LaneSentinels

/-- Up to eight bytes are widened to the number that they denote, as a signed 64-bit word, and they
are the low bytes of that word. -/
structure KeptByWidening (bytes : Bytes) : Prop where
  signed : widen true bytes = LittleEndian.intValue bytes
  unsigned : widen false bytes =
    Int.bmod (LittleEndian.natValue bytes) (LittleEndian.capacity 8)
  narrowed : ∀ extended, narrow bytes.length (widen extended bytes) = bytes

/-- The lane of a value is what widening gives, and at sixteen bytes the number that they denote.
The lane of a pattern is the lane of its low bytes, so a value is taken for NULL or EMPTY just where
its bytes are. -/
structure KeptByLane (kind : ValueKind) (stored : Bytes) : Prop where
  eq_widen : stored.length ≠ 16 → laneOf kind stored = widen (kind != .unsigned) stored
  eq_intValue : stored.length = 16 → laneOf kind stored = LittleEndian.intValue stored
  narrowed : narrow stored.length (laneOf kind stored) = stored
  ofPattern : ∀ pattern, laneOfPattern kind stored.length pattern =
    laneOf kind (LittleEndian.ofNat stored.length pattern)
  eq_pattern_iff : ∀ pattern, laneOf kind stored = laneOfPattern kind stored.length pattern ↔
    stored = LittleEndian.ofNat stored.length pattern
  isEmpty_iff : ∀ pair : SentinelPair, stored.length = pair.width →
    ((LaneSentinels.ofPair kind pair).isEmpty (laneOf kind stored) = true ↔
      stored = pair.emptyBytes)
  isNull_iff : ∀ pair : SentinelPair, stored.length = pair.width →
    ((LaneSentinels.ofPair kind pair).isNull (laneOf kind stored) = true ↔
      stored = pair.nullBytes ∨
        ∃ alternate ∈ pair.alternateNull, stored = LittleEndian.ofNat pair.width alternate)

/-- Widening keeps up to eight bytes, and lanes keep a value of any width that a column has. -/
theorem lanes_agree :
    (∀ bytes : Bytes, 1 ≤ bytes.length → bytes.length ≤ 8 → KeptByWidening bytes) ∧
      ∀ (kind : ValueKind) (stored : Bytes), stored.length ∈ [1, 2, 4, 8, 16] →
        KeptByLane kind stored := by
  constructor
  · intro bytes _ short
    have whole := List.take_of_length_le short
    exact {
      signed := by rw [widen_true, whole]
      unsigned := by rw [widen_false, whole]
      narrowed := fun extended => narrow_widen extended short }
  · intro kind stored layout
    simp only [List.mem_cons, List.not_mem_nil, or_false] at layout
    exact {
      eq_widen := fun narrow => laneOf_eq_widen kind (by omega)
      eq_intValue := fun wide => laneOf_of_wide kind (by omega)
      narrowed := narrow_laneOf kind (by omega)
      ofPattern := fun pattern => (laneOf_ofNat kind stored.length pattern).symm
      eq_pattern_iff := fun pattern => laneOf_eq_laneOfPattern_iff rfl pattern
      isEmpty_iff := fun pair width => LaneSentinels.isEmpty_ofPair_iff width
      isNull_iff := fun pair width => LaneSentinels.isNull_ofPair_iff width }

/-- The sign bit of three bytes, and two bytes that are the low ones of a longer pattern. -/
theorem lanes_agree_signs :
    let bytes : Bytes := [0x01, 0x00, 0x80]
    let stored : Bytes := [0xFE, 0xFF]
    (1 ≤ bytes.length ∧ bytes.length ≤ 8 ∧ stored.length ∈ [1, 2, 4, 8, 16]) ∧
    (widen true bytes = -8388607 ∧ widen false bytes = 8388609 ∧
      narrow 3 (-8388607) = bytes ∧ narrow 3 8388609 = bytes) ∧
    (laneOf .signed stored = -2 ∧ laneOf .unsigned stored = 65534) ∧
    laneOf .signed stored = laneOfPattern .signed 2 0xAAFFFE ∧
    laneOf .signed stored ≠ laneOfPattern .signed 2 0xFEFF := by
  intro bytes stored
  have widened := lanes_agree.1 bytes (by decide) (by decide)
  have lane := fun kind => lanes_agree.2 kind stored (by decide)
  have negative : widen true bytes = -8388607 := widened.signed.trans (by decide)
  have positive : widen false bytes = 8388609 := widened.unsigned.trans (by decide)
  refine ⟨by decide, ⟨negative, positive, ?_, ?_⟩, ⟨?_, ?_⟩, ?_, ?_⟩
  · rw [← negative]
    exact widened.narrowed true
  · rw [← positive]
    exact widened.narrowed false
  · exact ((lane .signed).eq_widen (by decide)).trans (by decide)
  · exact ((lane .unsigned).eq_widen (by decide)).trans (by decide)
  · exact ((lane .signed).eq_pattern_iff 0xAAFFFE).mpr (by decide)
  · exact fun same => absurd (((lane .signed).eq_pattern_iff 0xFEFF).mp same) (by decide)

end ColumnScan
