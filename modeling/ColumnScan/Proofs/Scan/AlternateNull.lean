import Mathlib.Data.List.Forall2
import ColumnScan.Proofs.Scan.FilterAgreement

/-!
# The second NULL pattern in filters

Character patterns of eight bytes have two NULL patterns, and both scans and compilations recognise
either. A NULL row however passes a filter as the first pattern, whatever is stored, and its predicates
compare patterns: equality with the second one holds of no NULL row and inequality with it of every.
Nothing else depends on which of the two stands in a predicate.
-/

set_option autoImplicit false

namespace ColumnScan

theorem map_eq_map_of_forall₂ {α β : Type} {relation : α → α → Prop} {left right : List α}
    (related : List.Forall₂ relation left right) {value : α → β}
    (agree : ∀ first ∈ left, ∀ second ∈ right, relation first second → value first = value second) :
    left.map value = right.map value := by
  induction related with
  | nil => rfl
  | cons head _ ih =>
      rw [List.map_cons, List.map_cons, agree _ List.mem_cons_self _ List.mem_cons_self head,
        ih fun first member second other => agree first (List.mem_cons_of_mem _ member) second
          (List.mem_cons_of_mem _ other)]

/-- Two predicates are the same, except that one tests for NULL with another NULL pattern. -/
inductive Predicate.SameUpToNull (pair : SentinelPair) : Predicate → Predicate → Prop where
  | refl (predicate : Predicate) : SameUpToNull pair predicate predicate
  | null {operator : Operator} {flag : UInt8} {left right : Bytes} :
      operator = .equal ∨ operator = .notEqual →
      pair.isNull (LittleEndian.natValue left) = true →
      pair.isNull (LittleEndian.natValue right) = true →
      SameUpToNull pair { operator, flag, value := left } { operator, flag, value := right }

namespace Condition

variable {column : ColumnDescriptor} {pair : SentinelPair} {operator : Operator} {value : Bytes}
  (tests : operator = .equal ∨ operator = .notEqual)
  (found : column.logicalType.sentinels? column.width = some pair)
  (width : value.length = column.width)
  (isNull : pair.isNull (LittleEndian.natValue value) = true)

include tests found width isNull

/-- A test for NULL with any of the patterns tells a value that is not NULL from it. -/
theorem holds_nullTest {stored : Bytes} (length : stored.length = column.width)
    (notNull : pair.isNull (LittleEndian.natValue stored) = false) :
    (ofPredicate column.kind (column.laneSentinels pair) { operator, value }).holds
        column.comparator (laneOf column.kind stored) false = (operator == .notEqual) := by
  have wellFormed := LogicalType.wellFormed_of_sentinels? found
  have unequal := ColumnDescriptor.equal_eq_false_of_isNull found length width isNull fun same => by
    rw [same, isNull] at notNull
    cases notNull
  rw [← holdsOrdinary_eq_holds rfl]
  rcases tests with rfl | rfl
  · rw [holdsOrdinary_of_equal (decodedFor_ofPredicate pair width) wellFormed rfl
      ⟨stored, length, rfl⟩ ((LaneSentinels.isNull_ofPair wellFormed length).trans notNull)]
    exact unequal
  · rw [holdsOrdinary_of_notEqual rfl]
    exact congrArg not unequal

/-- NULL rows have the first pattern, so a test with the second one tells them from NULL too. -/
theorem holds_null_nullTest (second : value ≠ pair.nullBytes) :
    (ofPredicate column.kind (column.laneSentinels pair) { operator, value }).holds
        column.comparator (laneOf column.kind pair.nullBytes) true = (operator == .notEqual) := by
  have wellFormed := LogicalType.wellFormed_of_sentinels? found
  have nullLength := wellFormed.length_nullBytes
  have valueIsNull : (column.laneSentinels pair).isNull (laneOf column.kind value) = true :=
    (LaneSentinels.isNull_ofPair wellFormed width).trans isNull
  have different : laneOf column.kind pair.nullBytes ≠ laneOf column.kind value := fun same =>
    second (laneOf_injective (nullLength.trans width.symm) same).symm
  have unequal : column.comparator.holds .equal 0 (laneOf column.kind pair.nullBytes)
      (laneOf column.kind value) = false :=
    ColumnDescriptor.equal_eq_false_of_isNull found nullLength width isNull second.symm
  have negates := column.comparator.holds_notEqual (laneOf column.kind pair.nullBytes)
    (laneOf column.kind value)
  rw [Comparator.equal, unequal] at negates
  rcases tests with rfl | rfl <;> cases aware : column.comparator.isNullAware <;>
    simp [holds, ofPredicate, valueIsNull, aware, flaggedComparison, different, unequal, negates]

end Condition

namespace Predicate.SameUpToNull

variable {pair : SentinelPair} {left right : Predicate} (same : SameUpToNull pair left right)

include same

theorem operator_eq : left.operator = right.operator := by
  cases same <;> rfl

theorem flag_eq : left.flag = right.flag := by
  cases same <;> rfl

variable {column : ColumnDescriptor}
  (found : column.logicalType.sentinels? column.width = some pair)
  (leftWidth : left.value.length = column.width) (rightWidth : right.value.length = column.width)
  {stored : Bytes} (length : stored.length = column.width)
  (notNull : pair.isNull (LittleEndian.natValue stored) = false)

include found leftWidth rightWidth length notNull

theorem equals_eq : column.equals stored left = column.equals stored right := by
  have unequal : ∀ value : Bytes, value.length = column.width →
      pair.isNull (LittleEndian.natValue value) = true →
      column.comparator.equal (laneOf column.kind stored) (laneOf column.kind value) = false := by
    intro value width isNull
    refine ColumnDescriptor.equal_eq_false_of_isNull found length width isNull fun equal => ?_
    rw [equal, isNull] at notNull
    cases notNull
  cases same with
  | refl => rfl
  | null _ leftNull rightNull =>
      exact (unequal _ leftWidth leftNull).trans (unequal _ rightWidth rightNull).symm

theorem holds_eq (unflagged : left.flag = 0) :
    (Condition.ofPredicate column.kind (column.laneSentinels pair) left).holds column.comparator
        (laneOf column.kind stored) false =
      (Condition.ofPredicate column.kind (column.laneSentinels pair) right).holds column.comparator
        (laneOf column.kind stored) false := by
  cases same with
  | refl => rfl
  | null tests leftNull rightNull =>
      cases unflagged
      have leftHolds := Condition.holds_nullTest tests found leftWidth leftNull length notNull
      have rightHolds := Condition.holds_nullTest tests found rightWidth rightNull length notNull
      exact leftHolds.trans rightHolds.symm

end Predicate.SameUpToNull

/-- Two lists of predicates without flags, the same up to the NULL patterns in tests for NULL. -/
structure SameUpToNull (column : ColumnDescriptor) (pair : SentinelPair)
    (left right : List Predicate) : Prop where
  related : List.Forall₂ (Predicate.SameUpToNull pair) left right
  unflagged : ∀ predicate ∈ left, predicate.flag = 0
  leftWidths : ∀ predicate ∈ left, predicate.value.length = column.width
  rightWidths : ∀ predicate ∈ right, predicate.value.length = column.width

namespace SameUpToNull

variable {column : ColumnDescriptor} {pair : SentinelPair} {left right : List Predicate}
  (same : SameUpToNull column pair left right) {combinator : Combinator}

include same

theorem length_eq : right.length = left.length :=
  same.related.length_eq.symm

theorem operators_eq : left.map Predicate.operator = right.map Predicate.operator :=
  map_eq_map_of_forall₂ same.related fun _ _ _ _ related => related.operator_eq

theorem operator_eq_of_forall {operator : Operator}
    (each : ∀ predicate ∈ left, predicate.operator = operator) :
    ∀ predicate ∈ right, predicate.operator = operator := by
  have operators : ∀ other ∈ left.map Predicate.operator, other = operator :=
    List.forall_mem_map.mpr each
  rw [same.operators_eq] at operators
  exact List.forall_mem_map.mp operators

section Ordinary

variable (found : column.logicalType.sentinels? column.width = some pair) {stored : Bytes}
  (length : stored.length = column.width)
  (notNull : pair.isNull (LittleEndian.natValue stored) = false)

include found length notNull

theorem equalsListed_eq : column.equalsListed left stored = column.equalsListed right stored := by
  have answers : (left.map fun predicate => predicate.flag == 0 && column.equals stored predicate) =
      right.map fun predicate => predicate.flag == 0 && column.equals stored predicate := by
    refine map_eq_map_of_forall₂ same.related fun first member second other related => ?_
    rw [related.flag_eq, related.equals_eq found (same.leftWidths first member)
      (same.rightWidths second other) length notNull]
  have some := congrArg (fun found => found.any id) answers
  simp only [List.any_map, Function.comp_def, id] at some
  exact some

theorem accepts_eq (nonempty : left ≠ []) :
    (CompiledFilter.ofPredicates column pair combinator left).accepts column.comparator
        (laneOf column.kind stored) false =
      (CompiledFilter.ofPredicates column pair combinator right).accepts column.comparator
        (laneOf column.kind stored) false := by
  have wellFormed := LogicalType.wellFormed_of_sentinels? found
  have listed := same.equalsListed_eq found length notNull
  -- Value lists search for the stored value, all other filters evaluate their predicates on it.
  by_cases list : 1 < left.length ∧ CompiledFilter.FormsValueList combinator left
  · obtain ⟨several, ⟨rfl, equalities⟩ | ⟨rfl, inequalities⟩⟩ := list
    · rw [CompiledFilter.accepts_equalities wellFormed same.leftWidths several length equalities,
        CompiledFilter.accepts_equalities wellFormed same.rightWidths
          (same.length_eq ▸ several) length (same.operator_eq_of_forall equalities), listed]
    · rw [CompiledFilter.accepts_inequalities wellFormed same.leftWidths several length inequalities,
        CompiledFilter.accepts_inequalities wellFormed same.rightWidths
          (same.length_eq ▸ several) length (same.operator_eq_of_forall inequalities), listed]
  · refine CompiledFilter.accepts_ofPredicates_congr nonempty list same.operators_eq ?_
    exact map_eq_map_of_forall₂ same.related fun first member second other related =>
      related.holds_eq found (same.leftWidths first member) (same.rightWidths second other) length
        notNull (same.unflagged first member)

end Ordinary

theorem accepts_null_eq (found : column.logicalType.sentinels? column.width = some pair)
    (several : 1 < left.length)
    (inequalities : ∀ predicate ∈ left, predicate.operator = .notEqual) :
    (CompiledFilter.ofPredicates column pair .and left).accepts column.comparator
        (laneOf column.kind pair.nullBytes) true =
      (CompiledFilter.ofPredicates column pair .and right).accepts column.comparator
        (laneOf column.kind pair.nullBytes) true := by
  have wellFormed := LogicalType.wellFormed_of_sentinels? found
  rw [CompiledFilter.accepts_inequalities wellFormed same.leftWidths several
      wellFormed.length_nullBytes inequalities,
    CompiledFilter.accepts_inequalities wellFormed same.rightWidths (same.length_eq ▸ several)
      wellFormed.length_nullBytes (same.operator_eq_of_forall inequalities),
    Bool.not_true, Bool.false_and, Bool.false_and]

end SameUpToNull

/-- Equality with the second NULL pattern reports no row, and inequality with it reports NULL rows
like all others. -/
theorem exists_selects_alternate_null {column : ColumnDescriptor} {pair : SentinelPair}
    (found : column.logicalType.sentinels? column.width = some pair) {operator : Operator}
    (tests : operator = .equal ∨ operator = .notEqual) {value : Bytes}
    (width : value.length = column.width)
    (isNull : pair.isNull (LittleEndian.natValue value) = true) (second : value ≠ pair.nullBytes)
    (combinator : Combinator) (rest : Bytes) : ∃ filter,
    CompiledFilter.compile (Predicate.record { operator, value } ++ rest) column.width
        column.logicalType 1 combinator = .ok filter ∧
      filter.Selects column fun rows stored =>
        operator == .notEqual &&
          !(pair.isEmpty (LittleEndian.natValue stored) && column.skipsEmpty rows) := by
  refine ⟨_, CompiledFilter.compile_record_append found width combinator rest, ?_⟩
  refine CompiledFilter.selects_of_qualifies found fun rows stored length => ?_
  let answer : Bool → Bool := fun _ => operator == .notEqual
  have ofNull : _ = answer true := Condition.holds_null_nullTest tests found width isNull second
  refine ColumnDescriptor.qualifies_single (LogicalType.wellFormed_of_sentinels? found) ofNull ?_ length
  exact fun _ valueLength notNull =>
    Condition.holds_nullTest tests found width isNull valueLength notNull

/-- A filter without flags reports the same rows whichever NULL patterns stand in its tests for NULL,
except for NULL rows: these pass as the first pattern, so the two filters report the same rows exactly
if both accept that pattern, or neither does, or no NULL row is requested. Several inequalities joined
by AND never accept it. -/
theorem scanBlock_null_patterns {column : ColumnDescriptor} {pair : SentinelPair}
    (patterns : column.sentinels = .ok pair) {left right : List Predicate}
    (same : SameUpToNull column pair left right) (countable : left.length < UInt16.size)
    {combinator : Combinator} {filter : CompiledFilter}
    (compiled : CompiledFilter.compile (predicateRecords left) column.width column.logicalType
      (UInt16.ofNat left.length) combinator = .ok filter) :
    ∃ other,
      CompiledFilter.compile (predicateRecords right) column.width column.logicalType
        (UInt16.ofNat right.length) combinator = .ok other ∧
      ∀ (block : Array UInt8) (rowCount : Nat) (rows : List RowIndex),
        Scannable column filter block rowCount rows →
        let isNull : RowIndex → Bool := fun row =>
          pair.isNull (LittleEndian.natValue (cell block column.width row.toNat))
        ∃ emitted others,
          ScanReports column filter block rows emitted ∧
          ScanReports column other block rows others ∧
          (emitted.filter fun row => !isNull row) = (others.filter fun row => !isNull row) ∧
          (emitted = others ↔
            filter.accepts column.comparator (laneOf column.kind pair.nullBytes) true =
                other.accepts column.comparator (laneOf column.kind pair.nullBytes) true ∨
              ∀ row ∈ requestedRows rowCount rows, isNull row = false) ∧
          (combinator = .and → 1 < left.length →
            (∀ predicate ∈ left, predicate.operator = .notEqual) → emitted = others) := by
  have found := LogicalType.sentinels_eq_ok_iff.mp patterns
  have wellFormed := LogicalType.wellFormed_of_sentinels? found
  obtain ⟨rfl, rfl⟩ | ⟨nonempty, joined, rfl⟩ :=
    CompiledFilter.compile_ofPredicates_cases found countable same.leftWidths compiled
  -- Without predicates there is nothing to exchange.
  · obtain rfl : right = [] := List.length_eq_zero_iff.mp same.length_eq
    refine ⟨_, compiled, fun block rowCount rows scannable => ?_⟩
    exact ⟨_, _, scannable.reports found, scannable.reports found, rfl,
      iff_of_true rfl (.inl rfl), fun _ _ _ => rfl⟩
  have others : right ≠ [] := fun none =>
    nonempty (List.length_eq_zero_iff.mp (same.length_eq.symm.trans (none ▸ rfl)))
  have compiles := CompiledFilter.compile_ofPredicates found (same.length_eq ▸ countable)
    same.rightWidths others (same.length_eq ▸ joined)
  refine ⟨_, compiles, ?_⟩
  intro block rowCount rows scannable isNull
  have agree : ∀ stored : Bytes, stored.length = column.width →
      pair.isNull (LittleEndian.natValue stored) = false →
      (CompiledFilter.ofPredicates column pair combinator left).accepts column.comparator
          (laneOf column.kind stored) false =
        (CompiledFilter.ofPredicates column pair combinator right).accepts column.comparator
          (laneOf column.kind stored) false :=
    fun stored length notNull => same.accepts_eq found length notNull nonempty
  have decided := scannable.qualifyingRows_eq_iff wellFormed agree
  refine ⟨_, _, scannable.reports found, (scannable.with_filter (.compiled compiles)).reports found,
    scannable.filter_not_isNull_eq wellFormed agree, decided, ?_⟩
  rintro rfl several inequalities
  exact decided.mpr (.inl (same.accepts_null_eq found several inequalities))

/-- A list of inequalities with either pattern and a text reports the same rows of a block with NULL,
the second NULL and another text. -/
theorem scanBlock_null_patterns_listed :
    let column : ColumnDescriptor := { width := 8, logicalType := .char, output := .both }
    let text : Predicate := { operator := .notEqual, value := [0x63, 0x64, 0, 0, 0, 0, 0, 0] }
    let first : Bytes := [0xFF, 0xFF, 0xFF, 0xFF, 0xFF, 0xFF, 0xFF, 0xFE]
    let second : Bytes := [0xFE, 0xFF, 0xFF, 0xFF, 0xFF, 0xFF, 0xFF, 0xFF]
    let block : Array UInt8 := (first ++ second ++ [0x61, 0x62, 0, 0, 0, 0, 0, 0]).toArray
    ∃ filter other emitted,
      CompiledFilter.compile (predicateRecords [{ operator := .notEqual, value := second }, text]) 8
        .char 2 .and = .ok filter ∧
      CompiledFilter.compile (predicateRecords [{ operator := .notEqual, value := first }, text]) 8
        .char 2 .and = .ok other ∧
      ScanReports column filter block [] emitted ∧ ScanReports column other block [] emitted := by
  intro column text first second block
  let pair : SentinelPair :=
    { width := 8, null := 0xFEFFFFFFFFFFFFFF, empty := 0xFFFFFFFFFFFFFFFF,
      alternateNull := some 0xFFFFFFFFFFFFFFFE }
  have patterns : column.sentinels = .ok pair := rfl
  have same : SameUpToNull column pair [{ operator := .notEqual, value := second }, text]
      [{ operator := .notEqual, value := first }, text] :=
    ⟨.cons (.null (.inr rfl) rfl rfl) (.cons (.refl text) .nil), by decide, by decide,
      by decide⟩
  have joined : 1 < 2 → Combinator.and ≠ .none := nofun
  have compiled := CompiledFilter.compile_ofPredicates (LogicalType.sentinels_eq_ok_iff.mp patterns)
    (by decide) same.leftWidths nofun joined
  obtain ⟨other, compiles, reported⟩ :=
    scanBlock_null_patterns patterns same (show 2 < UInt16.size by decide) compiled
  have scannable : Scannable column _ block 3 [] :=
    ⟨by decide, .compiled compiled, rfl, by decide, nofun, by decide⟩
  obtain ⟨emitted, others, reports, othersReport, _, _, listed⟩ := reported block 3 [] scannable
  obtain rfl := listed rfl (by decide) (by decide)
  exact ⟨_, other, emitted, compiled, compiles, reports, othersReport⟩

/-- Equality with the second NULL pattern finds none of two NULL rows, and with the first one both. -/
theorem scanBlock_null_patterns_equal :
    let column : ColumnDescriptor := { width := 8, logicalType := .char, output := .both }
    let first : Bytes := [0xFF, 0xFF, 0xFF, 0xFF, 0xFF, 0xFF, 0xFF, 0xFE]
    let second : Bytes := [0xFE, 0xFF, 0xFF, 0xFF, 0xFF, 0xFF, 0xFF, 0xFF]
    let block : Array UInt8 := (second ++ first ++ [0x61, 0x62, 0, 0, 0, 0, 0, 0]).toArray
    ∃ filter other,
      CompiledFilter.compile (predicateRecords [{ operator := .equal, value := second }]) 8 .char 1
        .none = .ok filter ∧
      CompiledFilter.compile (predicateRecords [{ operator := .equal, value := first }]) 8 .char 1
        .none = .ok other ∧
      (scanBlock column filter block [] 30 {}).map ScanAnswer.matchedRows = .ok 0 ∧
      (scanBlock column other block [] 30 {}).map ScanAnswer.matchedRows = .ok 2 :=
  ⟨_, _, rfl, rfl, rfl, rfl⟩

end ColumnScan
