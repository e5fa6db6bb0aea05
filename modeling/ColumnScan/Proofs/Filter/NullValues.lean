import Mathlib.Data.List.TakeWhile
import ColumnScan.Proofs.Filter.ValueList

/-!
# NULL and filters

NULL meets a predicate as an integer and only if the value of the predicate is NULL too, so a filter
without such values accepts no NULL in any mode. The NULL pattern in turn equals no other value of
its column: integers by their lanes, floats because it is not a number, and text because no collation
trims or folds it.
-/

set_option autoImplicit false

namespace ColumnScan

namespace Collation

variable {collation : Collation}

theorem fold_high {byte : UInt8} (high : 0x80 ≤ byte) : collation.fold byte = byte := by
  cases collation with
  | binary => rfl
  | caseInsensitive =>
      have noLetter : ¬byte ≤ 0x5A := UInt8.not_le.mpr (UInt8.lt_of_lt_of_le (by decide) high)
      exact if_neg fun letter => noLetter letter.2

/-- A folded letter is a letter, so nothing else becomes a byte from 0x80 on. -/
theorem eq_of_fold_eq {byte plain : UInt8} (high : 0x80 ≤ plain)
    (same : collation.fold byte = plain) : byte = plain := by
  cases collation with
  | binary => exact same
  | caseInsensitive =>
      unfold fold at same
      dsimp only at same
      split at same
      next letter =>
        have upper := UInt8.le_iff_toNat_le.mp letter.2
        have sum := congrArg UInt8.toNat same
        rw [UInt8.le_iff_toNat_le] at high
        rw [UInt8.toNat_add] at sum
        simp only [UInt8.reduceToNat] at high upper sum
        omega
      next => exact same

theorem trim_high {bytes : Bytes} (high : ∀ byte ∈ bytes, 0x80 ≤ byte) :
    collation.trim bytes = bytes := by
  have kept : bytes.reverse.dropWhile collation.isPadding = bytes.reverse := by
    refine List.dropWhile_eq_self_iff.mpr fun nonempty padding => ?_
    have last := high _ (List.mem_reverse.mp (List.getElem_mem nonempty))
    have blank : ∀ byte, collation.isPadding byte = true → byte ≤ 0x20 := by
      intro byte padding
      cases collation <;> simp only [isPadding, Bool.or_eq_true, beq_iff_eq] at padding
      · subst padding
        decide
      · rcases padding with rfl | rfl <;> decide
    exact absurd (UInt8.le_trans last (blank _ padding)) (by decide)
  rw [trim, kept, List.reverse_reverse]

/-- A value of bytes that are neither padding nor letters equals no other value of its width. -/
theorem eq_of_compare_high {bytes plain : Bytes} (sameLength : bytes.length = plain.length)
    (high : ∀ byte ∈ plain, 0x80 ≤ byte) (same : collation.compare bytes plain = .eq) :
    bytes = plain := by
  have keys : collation.sortKey bytes = collation.sortKey plain :=
    Std.LawfulEqCmp.eq_of_compare same
  have plainKey : collation.sortKey plain = plain := by
    rw [sortKey, trim_high high]
    exact (List.map_congr_left fun byte member => fold_high (high byte member)).trans (List.map_id _)
  rw [plainKey, sortKey] at keys
  have untrimmed : collation.trim bytes = bytes := by
    have suffix := List.dropWhile_suffix (l := bytes.reverse) collation.isPadding
    have length := congrArg List.length keys
    rw [List.length_map, ← sameLength, trim, List.length_reverse] at length
    rw [trim, suffix.eq_of_length (length.trans (List.length_reverse).symm), List.reverse_reverse]
  rw [untrimmed] at keys
  refine List.ext_getElem sameLength fun index inside other => ?_
  have mapped := List.getElem_of_eq keys (by rwa [List.length_map])
  rw [List.getElem_map] at mapped
  exact eq_of_fold_eq (high _ (List.getElem_mem other)) mapped

end Collation

namespace LogicalType

variable {logicalType : LogicalType} {width : Nat} {pair : SentinelPair}

/-- NULL patterns of text have no padding and no letters. -/
theorem high_of_isNull (text : logicalType.kind = .text) (narrow : width ≠ 16)
    (found : logicalType.sentinels? width = some pair) {value : Bytes} (length : value.length = width)
    (isNull : pair.isNull (LittleEndian.natValue value) = true) :
    ∀ byte ∈ value, 0x80 ≤ byte := by
  have patterned : logicalType.charPatterned width = true := by
    cases logicalType <;> first | rfl | cases text
  have wellFormed := wellFormed_of_sentinels? found
  have patterns := wellFormed.eq_of_isNull length isNull
  unfold sentinels? at found
  rw [if_neg narrow, if_pos patterned] at found
  have high : (value.all fun byte => decide (0x80 ≤ byte)) = true := by
    unfold charSentinels? at found
    rcases patterns with rfl | ⟨pattern, known, rfl⟩
    · split at found <;> cases found <;> rfl
    · split at found <;> cases found <;> cases known
      rfl
  exact fun byte member => of_decide_eq_true (List.all_eq_true.mp high byte member)

theorem isNaN_of_isNull (isFloat : logicalType.kind = .float) (narrow : width ≠ 16)
    (found : logicalType.sentinels? width = some pair) {value : Bytes} (length : value.length = width)
    (isNull : pair.isNull (LittleEndian.natValue value) = true) :
    (FloatFormat.ofWidth width).isNaN (laneOf .float value) = true := by
  have unpatterned : ¬logicalType.charPatterned width = true := by
    cases logicalType <;> first | exact Bool.false_ne_true | cases isFloat
  have patterns := (wellFormed_of_sentinels? found).eq_of_isNull length isNull
  unfold sentinels? at found
  rw [if_neg narrow, if_neg unpatterned, isFloat] at found
  unfold kindSentinels? at found
  rcases patterns with rfl | ⟨pattern, known, rfl⟩
  · split at found <;> first | contradiction | (cases found; decide)
  · split at found <;> cases found <;> cases known

end LogicalType

namespace ColumnDescriptor

variable {column : ColumnDescriptor} {pair : SentinelPair}

theorem equal_null_of_isNullAware (aware : column.comparator.isNullAware = true)
    (wellFormed : pair.WellFormed column.width) :
    column.comparator.equal (laneOf column.kind pair.nullBytes)
      (laneOf column.kind pair.nullBytes) = true := by
  have hasLane : column.HasLane (laneOf column.kind pair.nullBytes) :=
    ⟨pair.nullBytes, wellFormed.length_nullBytes, rfl⟩
  rw [comparator_equal_of_isNullAware aware wellFormed hasLane hasLane, BEq.rfl]

/-- No other value of a column is equal to one of its NULL patterns. -/
theorem equal_eq_false_of_isNull
    (found : column.logicalType.sentinels? column.width = some pair) {stored value : Bytes}
    (length : stored.length = column.width) (valueLength : value.length = column.width)
    (isNull : pair.isNull (LittleEndian.natValue value) = true) (different : stored ≠ value) :
    column.comparator.equal (laneOf column.kind stored) (laneOf column.kind value) = false := by
  have wellFormed := LogicalType.wellFormed_of_sentinels? found
  by_cases aware : column.comparator.isNullAware = true
  · rw [comparator_equal_of_isNullAware aware wellFormed ⟨stored, length, rfl⟩
      ⟨value, valueLength, rfl⟩]
    refine beq_eq_false_iff_ne.mpr fun sameLane => different ?_
    exact laneOf_injective (length.trans valueLength.symm) sameLane
  have narrow : column.width ≠ 16 := by
    intro wide
    rw [comparator_of_wide wide] at aware
    exact aware rfl
  have kind : column.kind = column.logicalType.kind := by
    rw [ColumnDescriptor.kind, LogicalType.kindAt, if_neg fun both => narrow both.2]
  have ofStored := comparator_stored_laneOf length
  have ofValue := comparator_stored_laneOf valueLength
  rw [comparator_of_narrow narrow] at aware ofStored ofValue ⊢
  cases compared : column.kind with
  | signed | unsigned => rw [compared] at aware; exact absurd rfl aware
  | float =>
      have noNumber :=
        LogicalType.isNaN_of_isNull (kind ▸ compared) narrow found valueLength isNull
      simp only [Comparator.equal, Comparator.holds, Comparator.floatFormat,
        FloatFormat.compare?, noNumber, Bool.or_true, ↓reduceIte]
      rfl
  | text =>
      rw [compared] at ofStored ofValue
      simp only [Comparator.equal, Comparator.holds, Comparator.holdsText, Operator.isLike,
        bne_self_eq_false, Bool.false_eq_true, ↓reduceIte, Operator.holdsOf, ofStored, ofValue]
      refine beq_eq_false_iff_ne.mpr fun same => different ?_
      refine Collation.eq_of_compare_high (length.trans valueLength.symm) ?_ same
      exact LogicalType.high_of_isNull (kind ▸ compared) narrow found valueLength isNull

end ColumnDescriptor

namespace Condition

variable {column : ColumnDescriptor} {pair : SentinelPair} {stored : Bytes} {isNull : Bool}

/-- The comparison with the NULL pattern of a column. -/
def withNull (column : ColumnDescriptor) (pair : SentinelPair) (operator : Operator) : Condition :=
  ofPredicate column.kind (column.laneSentinels pair) { operator, value := pair.nullBytes }

theorem isNull_withNull (wellFormed : pair.WellFormed column.width) (operator : Operator) :
    (withNull column pair operator).isNull = true :=
  (LaneSentinels.isNull_ofPair wellFormed wellFormed.length_nullBytes).trans
    wellFormed.isNull_nullBytes

section Holds

variable (found : column.logicalType.sentinels? column.width = some pair)
  (length : stored.length = column.width) (classified : isNull = decide (stored = pair.nullBytes))

include found length classified

theorem holds_equal_null :
    (withNull column pair .equal).holds column.comparator (laneOf column.kind stored) isNull =
      isNull := by
  have wellFormed := LogicalType.wellFormed_of_sentinels? found
  have ofNull := isNull_withNull wellFormed .equal
  unfold holds
  rw [ofNull]
  cases isNull with
  | true =>
      obtain rfl : stored = pair.nullBytes := of_decide_eq_true classified.symm
      cases aware : column.comparator.isNullAware with
      | false => simp [withNull, ofPredicate, flaggedComparison]
      | true =>
          have equal := ColumnDescriptor.equal_null_of_isNullAware aware wellFormed
          rw [Comparator.equal] at equal
          simpa [withNull, ofPredicate] using equal
  | false =>
      have different : stored ≠ pair.nullBytes := of_decide_eq_false classified.symm
      have unequal := ColumnDescriptor.equal_eq_false_of_isNull found length
        wellFormed.length_nullBytes wellFormed.isNull_nullBytes different
      rw [Comparator.equal] at unequal
      cases column.comparator.isNullAware with
      | false => simpa [withNull, ofPredicate] using unequal
      | true => simp [withNull, ofPredicate]

theorem holds_notEqual_null :
    (withNull column pair .notEqual).holds column.comparator (laneOf column.kind stored) isNull =
      !isNull := by
  have wellFormed := LogicalType.wellFormed_of_sentinels? found
  have ofNull := isNull_withNull wellFormed .notEqual
  have negates := column.comparator.holds_notEqual (laneOf column.kind stored)
    (laneOf column.kind pair.nullBytes)
  unfold holds
  rw [ofNull]
  cases isNull with
  | true =>
      obtain rfl : stored = pair.nullBytes := of_decide_eq_true classified.symm
      cases aware : column.comparator.isNullAware with
      | false => simp [withNull, ofPredicate, flaggedComparison]
      | true =>
          rw [ColumnDescriptor.equal_null_of_isNullAware aware wellFormed] at negates
          simpa [withNull, ofPredicate] using negates
  | false =>
      have different : stored ≠ pair.nullBytes := of_decide_eq_false classified.symm
      rw [ColumnDescriptor.equal_eq_false_of_isNull found length wellFormed.length_nullBytes
        wellFormed.isNull_nullBytes different] at negates
      cases column.comparator.isNullAware <;> simpa [withNull, ofPredicate] using negates

end Holds

end Condition

namespace CompiledFilter

variable {column : ColumnDescriptor} {pair : SentinelPair} {conditions : List Condition}
  {lanes : LaneSize} {combinator : Combinator} {lane : Int}

theorem accepts_single (condition : Condition) (comparator : Comparator) (isNull : Bool) :
    (ofConditions lanes combinator [condition]).accepts comparator lane isNull =
      condition.holds comparator lane isNull :=
  rfl

theorem foldl_odd_eq_false {answer : Condition → Bool}
    (none : ∀ condition ∈ conditions, answer condition = false) :
    conditions.foldl (fun parity condition => parity != answer condition) false = false := by
  induction conditions with
  | nil => rfl
  | cons condition rest ih =>
      rw [List.foldl_cons, none condition List.mem_cons_self]
      exact ih fun other member => none other (List.mem_cons_of_mem condition member)

theorem mem_listedValues_of_mem_members
    (member : lane ∈ (ofConditions lanes combinator conditions).members) :
    lane ∈ listedValues conditions := by
  unfold ofConditions at member
  dsimp only at member
  split at member
  · exact member
  · exact absurd member List.not_mem_nil

/-- NULL passes no filter whose values are all ordinary. -/
theorem accepts_null_eq_false (comparator : Comparator) (nonempty : conditions ≠ [])
    (decoded : ∀ condition ∈ conditions, condition.DecodedFor column pair)
    (ordinary : ∀ condition ∈ conditions, condition.isNull = false)
    (isNull : (column.laneSentinels pair).isNull lane = true) :
    (ofConditions lanes combinator conditions).accepts comparator lane true = false := by
  have fails : ∀ condition ∈ conditions, condition.holds comparator lane true = false :=
    fun condition member => Condition.holds_null_eq_false comparator (ordinary condition member)
  have unlisted : lane ∉ (ofConditions lanes combinator conditions).members := by
    intro member
    obtain ⟨condition, kept, rfl⟩ := List.mem_map.mp (mem_listedValues_of_mem_members member)
    have known := (List.mem_filter.mp kept).1
    have notNull := (decoded condition known).isNull_eq
    rw [ordinary condition known, isNull] at notNull
    cases notNull
  unfold accepts
  cases mode : (ofConditions lanes combinator conditions).mode with
  | alwaysTrue =>
      -- Only a filter without predicates lets everything pass.
      have selected : FilterMode.select combinator (conditions.map Condition.operator) =
        .alwaysTrue := mode
      have spec := FilterMode.select_spec combinator (conditions.map Condition.operator)
      rw [selected] at spec
      exact spec.elim
  | single =>
      obtain ⟨first, rest, rfl⟩ := List.exists_cons_of_ne_nil nonempty
      exact fails first List.mem_cons_self
  | anyTrue =>
      refine List.any_eq_false.mpr fun condition member => ?_
      rw [fails condition member]
      exact Bool.false_ne_true
  | allTrue =>
      obtain ⟨condition, member⟩ := List.exists_mem_of_ne_nil conditions nonempty
      refine List.all_eq_false.mpr ⟨condition, member, ?_⟩
      rw [fails condition member]
      exact Bool.false_ne_true
  | oddTrue => exact foldl_odd_eq_false fails
  | oneOfArray => exact Bool.eq_false_iff.mpr fun listed => unlisted (List.contains_iff_mem.mp listed)
  | oneOfSet =>
      have hashed : (ofConditions lanes combinator conditions).mode.isSet = true := by
        rw [mode]
        rfl
      simp only [inSet, memberSet_ofConditions hashed, ↓reduceIte, Std.HashSet.contains_ofList]
      exact Bool.eq_false_iff.mpr fun listed => unlisted (List.contains_iff_mem.mp listed)
  -- A list of inequalities rejects NULL before it looks at its values.
  | noneOfArray | noneOfSet => rfl

theorem accepts_null_of_compile {records : Bytes} {count : UInt16} {filter : CompiledFilter}
    (found : column.logicalType.sentinels? column.width = some pair)
    (compiled : compile records column.width column.logicalType count combinator = .ok filter)
    (counted : count ≠ 0)
    (ordinary : ∀ record ∈ CompiledFilter.records records column.width count.toNat,
      pair.isNull (LittleEndian.natValue (record.drop recordOverhead)) = false) :
    filter.accepts column.comparator (laneOf column.kind pair.nullBytes) true = false := by
  have wellFormed := LogicalType.wellFormed_of_sentinels? found
  obtain ⟨other, foundOther, ⟨zero, _⟩ | ⟨_, joined, enough, conditions, decoded, rfl⟩⟩ :=
    compile_eq_ok compiled
  · exact absurd zero counted
  cases Option.some.inj (found.symm.trans foundOther)
  have conditionsFor := conditionsFor_of_decode counted joined enough decoded
  refine accepts_null_eq_false column.comparator conditionsFor.nonempty conditionsFor.decoded ?_ ?_
  · intro condition member
    obtain ⟨record, recordMember, ofRecord⟩ := exists_of_mem_of_mapM_eq_ok decoded member
    obtain ⟨_, _, shape⟩ := bind_eq_ok ofRecord
    cases shape
    have length : (record.drop recordOverhead).length = column.width := by
      rw [List.length_drop, length_record_of_mem enough recordMember, Nat.add_sub_cancel_left]
    exact (LaneSentinels.isNull_ofPair wellFormed length).trans (ordinary record recordMember)
  · exact (LaneSentinels.isNull_ofPair wellFormed wellFormed.length_nullBytes).trans
      wellFormed.isNull_nullBytes

end CompiledFilter

end ColumnScan
