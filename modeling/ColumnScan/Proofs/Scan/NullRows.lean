import ColumnScan.Proofs.Filter.NullValues
import ColumnScan.Proofs.Scan.Exactness

/-!
# NULL rows

A scan never reports a NULL row unless a predicate of its filter has a NULL value. Equality with the
NULL pattern reports the NULL rows and inequality with it the others, except that EMPTY rows are left
out wherever the scan passes over them.
-/

set_option autoImplicit false

namespace ColumnScan

section Reports

variable {column : ColumnDescriptor} {filter : CompiledFilter} {block : Array UInt8}
  {rowCount : Nat} {rows : List RowIndex}

/-- Whatever the settings, a scan succeeds if there is room for these rows, and they are what it
reports. -/
structure ScanReports (column : ColumnDescriptor) (filter : CompiledFilter) (block : Array UInt8)
    (rows emitted : List RowIndex) : Prop where
  succeeds : ∀ capacity (config : ScanConfig),
    (config.checksCapacity = true →
      emitted.length * column.output.entrySize column.width ≤ capacity) →
    ∃ answer, scanBlock column filter block rows capacity config = .ok answer
  emits : ∀ {capacity : Nat} {config : ScanConfig} {answer : ScanAnswer},
    scanBlock column filter block rows capacity config = .ok answer →
      answer.Emits column block emitted

/-- What can be scanned does not depend on which of the column's filters is used. -/
theorem Scannable.with_filter (scannable : Scannable column filter block rowCount rows)
    {other : CompiledFilter} (compiledFor : other.CompiledFor column) :
    Scannable column other block rowCount rows :=
  { scannable with compiledFor }

theorem Scannable.reports (scannable : Scannable column filter block rowCount rows)
    {pair : SentinelPair} (found : column.logicalType.sentinels? column.width = some pair) :
    ScanReports column filter block rows
      (qualifyingRows column pair filter block rowCount rows) := by
  refine ⟨fun capacity config room => ⟨_, scannable.scanBlock_eq_ok found capacity config room⟩, ?_⟩
  intro capacity config answer scanned
  have room := scannable.room_of_scanBlock found scanned
  cases (scannable.scanBlock_eq_ok found capacity config room).symm.trans scanned
  exact scannable.emits_answer found config

/-- Scans report the requested rows whose values are selected: in ascending order, each as often as it
was requested. -/
def CompiledFilter.Selects (filter : CompiledFilter) (column : ColumnDescriptor)
    (selected : List RowIndex → Bytes → Bool) : Prop :=
  ∀ (block : Array UInt8) (rowCount : Nat) (rows : List RowIndex),
    Scannable column filter block rowCount rows →
    ∃ emitted, emitted.Pairwise (· ≤ ·) ∧
      emitted.Perm ((requestedRows rowCount rows).filter fun row =>
        selected rows (cell block column.width row.toNat)) ∧
      ScanReports column filter block rows emitted

theorem CompiledFilter.selects_of_qualifies {pair : SentinelPair}
    (found : column.logicalType.sentinels? column.width = some pair)
    {selected : List RowIndex → Bytes → Bool}
    (qualifies : ∀ rows stored, stored.length = column.width →
      column.qualifies pair filter rows stored = selected rows stored) :
    filter.Selects column selected := by
  intro block rowCount rows scannable
  have same : qualifyingRows column pair filter block rowCount rows =
      (rowsToVisit rowCount rows).filter fun row =>
        selected rows (cell block column.width row.toNat) := by
    exact List.filter_congr fun row visited =>
      qualifies rows _ (scannable.length_cell_of_visited visited)
  refine ⟨_, ?_, ?_, scannable.reports found⟩
  · exact (rowsToVisit_sorted scannable.addressable).filter _
  · rw [same]
    exact rowsToVisit_perm.filter _

theorem CompiledFilter.Selects.exists_emits {selected : List RowIndex → Bytes → Bool}
    (selects : filter.Selects column selected)
    (scannable : Scannable column filter block rowCount rows) (emitted : List RowIndex)
    (sorted : emitted.Pairwise (· ≤ ·))
    (perm : emitted.Perm ((requestedRows rowCount rows).filter fun row =>
      selected rows (cell block column.width row.toNat)))
    (capacity : Nat) (room : emitted.length * column.output.entrySize column.width ≤ capacity)
    (config : ScanConfig) :
    ∃ answer, scanBlock column filter block rows capacity config = .ok answer ∧
      answer.Emits column block emitted := by
  obtain ⟨reported, reportedSorted, reportedPerm, reports⟩ := selects block rowCount rows scannable
  obtain rfl := (reportedPerm.trans perm.symm).eq_of_pairwise
    (fun _ _ _ _ => UInt16.le_antisymm) reportedSorted sorted
  obtain ⟨answer, scanned⟩ := reports.succeeds capacity config fun _ => room
  exact ⟨answer, scanned, reports.emits scanned⟩

end Reports

namespace ColumnDescriptor

variable {column : ColumnDescriptor} {pair : SentinelPair} {rows : List RowIndex} {stored : Bytes}

/-- Every NULL row passes if the filter accepts the first NULL pattern. -/
theorem qualifies_of_isNull (filter : CompiledFilter) (rows : List RowIndex)
    (wellFormed : pair.WellFormed column.width)
    (isNull : pair.isNull (LittleEndian.natValue stored) = true) :
    column.qualifies pair filter rows stored =
      filter.accepts column.comparator (laneOf column.kind pair.nullBytes) true := by
  have notEmpty : pair.isEmpty (LittleEndian.natValue stored) ≠ true := fun isEmpty =>
    Bool.false_ne_true ((wellFormed.isNull_of_isEmpty isEmpty).symm.trans isNull)
  simp only [qualifies, notEmpty, Bool.false_eq_true, ↓reduceIte, isNull]

/-- A value that is not NULL passes the filter as it is, unless it is passed over as EMPTY. -/
theorem qualifies_of_not_isNull (filter : CompiledFilter) (rows : List RowIndex)
    (wellFormed : pair.WellFormed column.width) (length : stored.length = column.width)
    (notNull : pair.isNull (LittleEndian.natValue stored) = false) :
    column.qualifies pair filter rows stored =
      (!(pair.isEmpty (LittleEndian.natValue stored) && column.skipsEmpty rows) &&
        filter.accepts column.comparator (laneOf column.kind stored) false) := by
  unfold qualifies
  dsimp only
  cases isEmpty : pair.isEmpty (LittleEndian.natValue stored) with
  | true =>
      have empty : stored = pair.emptyBytes :=
        LittleEndian.natValue_injective (length.trans wellFormed.length_emptyBytes.symm)
          ((beq_iff_eq.mp isEmpty).trans wellFormed.natValue_emptyBytes.symm)
      rw [if_pos rfl, Bool.true_and, ← empty]
  | false =>
      rw [if_neg Bool.false_ne_true, notNull, if_neg Bool.false_ne_true, Bool.false_and,
        Bool.not_false, Bool.true_and]

variable {lanes : LaneSize} {combinator : Combinator} {condition : Condition} {answer : Bool → Bool}

/-- A comparison that has one answer for NULL and one for everything else only asks whether a row is
NULL. -/
theorem qualifies_single (wellFormed : pair.WellFormed column.width)
    (ofNull : condition.holds column.comparator (laneOf column.kind pair.nullBytes) true =
      answer true)
    (ofOrdinary : ∀ value : Bytes, value.length = column.width →
      pair.isNull (LittleEndian.natValue value) = false →
      condition.holds column.comparator (laneOf column.kind value) false = answer false)
    (length : stored.length = column.width) :
    column.qualifies pair (.ofConditions lanes combinator [condition]) rows stored =
      (answer (pair.isNull (LittleEndian.natValue stored)) &&
        !(pair.isEmpty (LittleEndian.natValue stored) && column.skipsEmpty rows)) := by
  cases isNull : pair.isNull (LittleEndian.natValue stored) with
  | true =>
      have notEmpty : pair.isEmpty (LittleEndian.natValue stored) = false :=
        Bool.eq_false_iff.mpr fun isEmpty =>
          Bool.false_ne_true ((wellFormed.isNull_of_isEmpty isEmpty).symm.trans isNull)
      rw [qualifies_of_isNull _ rows wellFormed isNull, CompiledFilter.accepts_single, ofNull,
        notEmpty, Bool.false_and, Bool.not_false, Bool.and_true]
  | false =>
      rw [qualifies_of_not_isNull _ rows wellFormed length isNull, CompiledFilter.accepts_single,
        ofOrdinary stored length isNull, Bool.and_comm]

/-- A comparison with the first NULL pattern. -/
theorem qualifies_withNull (wellFormed : pair.WellFormed column.width) {operator : Operator}
    (holds : ∀ {value : Bytes} {isNull : Bool}, value.length = column.width →
      isNull = decide (value = pair.nullBytes) →
      (Condition.withNull column pair operator).holds column.comparator (laneOf column.kind value)
        isNull = answer isNull)
    (length : stored.length = column.width) :
    column.qualifies pair
        (.ofConditions lanes combinator [.withNull column pair operator]) rows stored =
      (answer (pair.isNull (LittleEndian.natValue stored)) &&
        !(pair.isEmpty (LittleEndian.natValue stored) && column.skipsEmpty rows)) := by
  refine qualifies_single wellFormed (holds wellFormed.length_nullBytes (decide_eq_true rfl).symm)
    (fun value valueLength notNull => holds valueLength (decide_eq_false fun same => ?_).symm) length
  rw [same, wellFormed.isNull_nullBytes] at notNull
  cases notNull

end ColumnDescriptor

section Predicates

variable {column : ColumnDescriptor} {pair : SentinelPair}
  (found : column.logicalType.sentinels? column.width = some pair) (combinator : Combinator)
  (rest : Bytes)

include found

theorem compile_withNull (operator : Operator) :
    CompiledFilter.compile (Predicate.record { operator, value := pair.nullBytes } ++ rest)
        column.width column.logicalType 1 combinator =
      .ok (.ofConditions (.ofWidth column.width) combinator
        [Condition.withNull column pair operator]) :=
  CompiledFilter.compile_record_append found
    (LogicalType.wellFormed_of_sentinels? found).length_nullBytes combinator rest

theorem exists_selects_null : ∃ filter,
    CompiledFilter.compile
        (Predicate.record { operator := .equal, value := pair.nullBytes } ++ rest)
        column.width column.logicalType 1 combinator = .ok filter ∧
      filter.Selects column fun _ stored => pair.isNull (LittleEndian.natValue stored) := by
  have wellFormed := LogicalType.wellFormed_of_sentinels? found
  refine ⟨_, compile_withNull found combinator rest .equal, ?_⟩
  refine CompiledFilter.selects_of_qualifies found fun rows stored length => ?_
  rw [ColumnDescriptor.qualifies_withNull wellFormed (Condition.holds_equal_null found) length]
  -- No row is NULL and EMPTY, so it does not matter whether EMPTY rows are passed over.
  cases isEmpty : pair.isEmpty (LittleEndian.natValue stored) with
  | true => rw [wellFormed.isNull_of_isEmpty isEmpty, Bool.false_and]
  | false => rw [Bool.false_and, Bool.not_false, Bool.and_true]

theorem exists_selects_notNull : ∃ filter,
    CompiledFilter.compile
        (Predicate.record { operator := .notEqual, value := pair.nullBytes } ++ rest)
        column.width column.logicalType 1 combinator = .ok filter ∧
      filter.Selects column fun rows stored =>
        !pair.isNull (LittleEndian.natValue stored) &&
          !(pair.isEmpty (LittleEndian.natValue stored) && column.skipsEmpty rows) := by
  have wellFormed := LogicalType.wellFormed_of_sentinels? found
  refine ⟨_, compile_withNull found combinator rest .notEqual, ?_⟩
  refine CompiledFilter.selects_of_qualifies found fun rows stored length => ?_
  exact ColumnDescriptor.qualifies_withNull wellFormed (Condition.holds_notEqual_null found) length

end Predicates

/-- On a column of any kind, width and collation, and with any settings: no scan reports a NULL row if
none of its predicates has a NULL value; equality with the NULL pattern reports the NULL rows that were
requested, and inequality the others, less the EMPTY rows that a scan passes over. -/
theorem scanBlock_null_rows {column : ColumnDescriptor} (supported : column.isSupported = true) :
    ∃ pair, column.sentinels = .ok pair ∧
      (∀ (records : Bytes) (count : UInt16) (combinator : Combinator) (filter : CompiledFilter),
        CompiledFilter.compile records column.width column.logicalType count combinator =
          .ok filter →
        count ≠ 0 →
        (∀ record ∈ CompiledFilter.records records column.width count.toNat,
          pair.isNull (LittleEndian.natValue (record.drop recordOverhead)) = false) →
        ∀ (block : Array UInt8) (rowCount : Nat) (rows : List RowIndex),
          Scannable column filter block rowCount rows →
          ∃ emitted, ScanReports column filter block rows emitted ∧
            ∀ row ∈ emitted,
              pair.isNull (LittleEndian.natValue (cell block column.width row.toNat)) = false) ∧
      (∀ (combinator : Combinator) (rest : Bytes), ∃ filter,
        CompiledFilter.compile
            (Predicate.record { operator := .equal, value := pair.nullBytes } ++ rest)
            column.width column.logicalType 1 combinator = .ok filter ∧
          filter.Selects column fun _ stored => pair.isNull (LittleEndian.natValue stored)) ∧
      ∀ (combinator : Combinator) (rest : Bytes), ∃ filter,
        CompiledFilter.compile
            (Predicate.record { operator := .notEqual, value := pair.nullBytes } ++ rest)
            column.width column.logicalType 1 combinator = .ok filter ∧
          filter.Selects column fun rows stored =>
            !pair.isNull (LittleEndian.natValue stored) &&
              !(pair.isEmpty (LittleEndian.natValue stored) && column.skipsEmpty rows) := by
  obtain ⟨pair, found⟩ := Option.isSome_iff_exists.mp (LogicalType.isSome_sentinels? supported)
  have wellFormed := LogicalType.wellFormed_of_sentinels? found
  refine ⟨pair, LogicalType.sentinels_eq_ok_iff.mpr found, ?_, exists_selects_null found,
    exists_selects_notNull found⟩
  intro records count combinator filter compiled counted ordinary block rowCount rows scannable
  have rejects := CompiledFilter.accepts_null_of_compile found compiled counted ordinary
  refine ⟨_, scannable.reports found, fun row reported => Bool.eq_false_iff.mpr fun isNull => ?_⟩
  have qualifies := (List.mem_filter.mp reported).2
  rw [ColumnDescriptor.qualifies_of_isNull _ _ wellFormed isNull, rejects] at qualifies
  cases qualifies

/-- A block of NULL, the alternate NULL, EMPTY and a text: each of the two comparisons with NULL finds
its rows, and a pattern that everything matches finds no NULL. -/
theorem scanBlock_null_rows_char :
    let column : ColumnDescriptor :=
      { width := 8, logicalType := .char, output := .both, collation := .caseInsensitive }
    let null : Bytes := [0xFF, 0xFF, 0xFF, 0xFF, 0xFF, 0xFF, 0xFF, 0xFE]
    let block : Array UInt8 := (null ++ [0xFE, 0xFF, 0xFF, 0xFF, 0xFF, 0xFF, 0xFF, 0xFF] ++
      [0xFF, 0xFF, 0xFF, 0xFF, 0xFF, 0xFF, 0xFF, 0xFF] ++ [0x61, 0x62, 0, 0, 0, 0, 0, 0]).toArray
    let anything : Predicate := { operator := .like, value := [0x25, 0, 0, 0, 0, 0, 0, 0] }
    ∃ isNull notNull like nulls others,
      CompiledFilter.compile (Predicate.record { operator := .equal, value := null } ++ []) 8 .char 1
          .none = .ok isNull ∧
        scanBlock column isNull block [] 20 {} = .ok nulls ∧ nulls.Emits column block [0, 1] ∧
      CompiledFilter.compile (Predicate.record { operator := .notEqual, value := null } ++ []) 8 .char
          1 .none = .ok notNull ∧
        scanBlock column notNull block [] 10 {} = .ok others ∧ others.Emits column block [3] ∧
      CompiledFilter.compile anything.record 8 .char 1 .none = .ok like ∧
        ∃ emitted, ScanReports column like block [] emitted ∧ 0 ∉ emitted ∧ 1 ∉ emitted := by
  intro column null block anything
  obtain ⟨pair, patterns, never, isNull, notNull⟩ :=
    scanBlock_null_rows (show column.isSupported = true by decide)
  cases patterns
  have scannable : ∀ {filter : CompiledFilter}, filter.CompiledFor column →
      Scannable column filter block 4 [] := fun compiledFor =>
    ⟨by decide, compiledFor, by decide, by decide, nofun, by decide⟩
  obtain ⟨equal, equalCompiled, selectsNull⟩ := isNull .none []
  obtain ⟨nulls, nullsScanned, nullsEmitted⟩ := selectsNull.exists_emits
    (scannable (.compiled equalCompiled)) [0, 1] (by decide) (by decide) 20 (by decide) {}
  obtain ⟨unequal, unequalCompiled, selectsNotNull⟩ := notNull .none []
  obtain ⟨others, othersScanned, othersEmitted⟩ := selectsNotNull.exists_emits
    (scannable (.compiled unequalCompiled)) [3] (by decide) (by decide) 10 (by decide) {}
  have likeCompiled : CompiledFilter.compile anything.record 8 .char 1 .none = .ok _ := rfl
  obtain ⟨emitted, reports, ordinary⟩ := never _ _ _ _ likeCompiled (by decide) (by decide) block 4 []
    (scannable (.compiled likeCompiled))
  refine ⟨equal, unequal, _, nulls, others, equalCompiled, nullsScanned, nullsEmitted,
    unequalCompiled, othersScanned, othersEmitted, likeCompiled, emitted, reports, ?_, ?_⟩
  · exact fun reported => absurd (ordinary 0 reported) (by decide)
  · exact fun reported => absurd (ordinary 1 reported) (by decide)

end ColumnScan
