import ColumnScan.Proofs.Scan.FilterAgreement

/-!
# Flags on float columns

A comparison of floats ignores the flag of its predicate, so a filter reports the same rows with its
flags and without, NULL rows apart. Lists of values are an exception: a predicate with a flag never
joins one, so that its value counts for nothing.
-/

set_option autoImplicit false

namespace ColumnScan

/-- The same comparison without a flag. -/
def Predicate.unflagged (predicate : Predicate) : Predicate :=
  { predicate with flag := 0 }

theorem Condition.holds_unflagged {comparator : Comparator} (isFloat : comparator.kind = .float)
    (kind : ValueKind) (sentinels : LaneSentinels) (predicate : Predicate) (lane : Int) :
    (ofPredicate kind sentinels predicate.unflagged).holds comparator lane false =
      (ofPredicate kind sentinels predicate).holds comparator lane false := by
  have unaware : comparator.isNullAware = false := by
    rw [Comparator.isNullAware, isFloat]
    rfl
  simp only [holds, ofPredicate, Predicate.unflagged, unaware, Bool.or_self, Bool.false_eq_true,
    ↓reduceIte, Comparator.holds, isFloat]

/-- Whether a stored value equals that of a predicate with a flag. -/
def ColumnDescriptor.equalsFlagged (column : ColumnDescriptor) (predicates : List Predicate)
    (stored : Bytes) : Bool :=
  predicates.any fun predicate => predicate.flag != 0 && column.equals stored predicate

theorem ColumnDescriptor.equalsListed_unflagged (column : ColumnDescriptor)
    (predicates : List Predicate) (stored : Bytes) :
    column.equalsListed (predicates.map Predicate.unflagged) stored =
      (column.equalsListed predicates stored || column.equalsFlagged predicates stored) := by
  have either : ∀ predicate : Predicate, column.equals stored predicate =
      (predicate.flag == 0 && column.equals stored predicate ||
        predicate.flag != 0 && column.equals stored predicate) := by
    intro predicate
    rw [← Bool.and_or_distrib_right, bne, Bool.or_not_self, Bool.true_and]
  have all : column.equalsListed (predicates.map Predicate.unflagged) stored =
      predicates.any (column.equals stored) := List.any_map
  rw [all, any_congr_of_mem fun predicate _ => either predicate, Bool.eq_iff_iff]
  simp only [equalsListed, equalsFlagged, Bool.or_eq_true, List.any_eq_true, and_or_left, exists_or]

namespace CompiledFilter

variable {column : ColumnDescriptor} {pair : SentinelPair} {predicates : List Predicate}
  {lanes : LaneSize} {combinator : Combinator}

theorem accepts_ofPredicates_unflagged (isFloat : column.comparator.kind = .float)
    (nonempty : predicates ≠ [])
    (evaluated : ¬(1 < predicates.length ∧ FormsValueList combinator predicates)) (lane : Int) :
    (ofPredicates column pair combinator predicates).accepts column.comparator lane false =
      (ofPredicates column pair combinator (predicates.map Predicate.unflagged)).accepts
        column.comparator lane false := by
  refine accepts_ofPredicates_congr nonempty evaluated ?_ ?_
  · rw [List.map_map]
    rfl
  · rw [List.map_map]
    exact List.map_congr_left fun predicate _ =>
      (Condition.holds_unflagged isFloat _ _ predicate lane).symm

section ListedFlags

variable (wellFormed : pair.WellFormed column.width)
  (widths : ∀ predicate ∈ predicates, predicate.value.length = column.width)
  (several : 1 < predicates.length) {stored : Bytes} (length : stored.length = column.width)

include wellFormed widths several length

/-- A list of equalities loses the values with a flag. -/
theorem accepts_equalities_flagged
    (equalities : ∀ predicate ∈ predicates, predicate.operator = .equal) :
    (ofPredicates column pair .or predicates).accepts column.comparator
        (laneOf column.kind stored) false =
      ((ofPredicates column pair .or (predicates.map Predicate.unflagged)).accepts column.comparator
        (laneOf column.kind stored) false && column.equalsListed predicates stored) := by
  have plainWidths : ∀ predicate ∈ predicates.map Predicate.unflagged,
      predicate.value.length = column.width := List.forall_mem_map.mpr widths
  have plainSeveral : 1 < (predicates.map Predicate.unflagged).length := by rwa [List.length_map]
  rw [accepts_equalities wellFormed widths several length equalities,
    accepts_equalities wellFormed plainWidths plainSeveral length (List.forall_mem_map.mpr equalities),
    column.equalsListed_unflagged]
  cases column.equalsListed predicates stored <;> simp

theorem accepts_inequalities_flagged
    (inequalities : ∀ predicate ∈ predicates, predicate.operator = .notEqual) :
    (ofPredicates column pair .and (predicates.map Predicate.unflagged)).accepts column.comparator
        (laneOf column.kind stored) false =
      ((ofPredicates column pair .and predicates).accepts column.comparator
        (laneOf column.kind stored) false && !column.equalsFlagged predicates stored) := by
  have plainWidths : ∀ predicate ∈ predicates.map Predicate.unflagged,
      predicate.value.length = column.width := List.forall_mem_map.mpr widths
  have plainSeveral : 1 < (predicates.map Predicate.unflagged).length := by rwa [List.length_map]
  rw [accepts_inequalities wellFormed widths several length inequalities,
    accepts_inequalities wellFormed plainWidths plainSeveral length
      (List.forall_mem_map.mpr inequalities),
    column.equalsListed_unflagged, Bool.not_or, Bool.not_false, Bool.true_and, Bool.true_and]

end ListedFlags

end CompiledFilter

theorem ColumnDescriptor.comparator_kind_of_float {column : ColumnDescriptor}
    (supported : column.isSupported = true) (isFloat : column.kind = .float) :
    column.comparator.kind = .float := by
  have narrow : column.width ≠ 16 := by
    intro wide
    rw [isSupported, isFloat, wide] at supported
    cases supported
  rwa [comparator_of_narrow narrow]

/-- On float columns, and wherever no NULL row is requested: a filter reports the same rows with the
flags of its predicates and without, unless it is a list of values. Of a list of equalities it reports
the rows that equal a value without a flag, and of a list of inequalities it also reports the rows that
equal a value with one. -/
theorem scanBlock_float_flags {column : ColumnDescriptor} (isFloat : column.kind = .float)
    (supported : column.isSupported = true) {predicates : List Predicate}
    (countable : predicates.length < UInt16.size)
    (widths : ∀ predicate ∈ predicates, predicate.value.length = column.width)
    {combinator : Combinator} {filter : CompiledFilter}
    (compiled : CompiledFilter.compile (predicateRecords predicates) column.width
      column.logicalType (UInt16.ofNat predicates.length) combinator = .ok filter) :
    ∃ pair plain, column.sentinels = .ok pair ∧
      CompiledFilter.compile (predicateRecords (predicates.map Predicate.unflagged)) column.width
        column.logicalType (UInt16.ofNat predicates.length) combinator = .ok plain ∧
      ∀ (block : Array UInt8) (rowCount : Nat) (rows : List RowIndex),
        Scannable column filter block rowCount rows →
        (∀ row ∈ requestedRows rowCount rows,
          pair.isNull (LittleEndian.natValue (cell block column.width row.toNat)) = false) →
        ∃ emitted plainly,
          ScanReports column filter block rows emitted ∧
          ScanReports column plain block rows plainly ∧
          (¬(1 < predicates.length ∧ CompiledFilter.FormsValueList combinator predicates) →
            emitted = plainly) ∧
          (1 < predicates.length → combinator = .or →
            (∀ predicate ∈ predicates, predicate.operator = .equal) →
            emitted = plainly.filter fun row =>
              column.equalsListed predicates (cell block column.width row.toNat)) ∧
          (1 < predicates.length → combinator = .and →
            (∀ predicate ∈ predicates, predicate.operator = .notEqual) →
            plainly = emitted.filter fun row =>
              !column.equalsFlagged predicates (cell block column.width row.toNat)) := by
  obtain ⟨pair, found⟩ := Option.isSome_iff_exists.mp (LogicalType.isSome_sentinels? supported)
  have wellFormed := LogicalType.wellFormed_of_sentinels? found
  have kind := ColumnDescriptor.comparator_kind_of_float supported isFloat
  obtain ⟨rfl, rfl⟩ | ⟨nonempty, joined, rfl⟩ :=
    CompiledFilter.compile_ofPredicates_cases found countable widths compiled
  · refine ⟨pair, _, LogicalType.sentinels_eq_ok_iff.mpr found, compiled, ?_⟩
    intro block rowCount rows scannable _
    exact ⟨_, _, scannable.reports found, scannable.reports found, fun _ => rfl, nofun, nofun⟩
  have plainWidths : ∀ predicate ∈ predicates.map Predicate.unflagged,
      predicate.value.length = column.width := List.forall_mem_map.mpr widths
  have plainly := CompiledFilter.compile_ofPredicates found (by rwa [List.length_map]) plainWidths
    (fun none => nonempty (List.map_eq_nil_iff.mp none)) (by rwa [List.length_map])
  rw [List.length_map] at plainly
  refine ⟨pair, _, LogicalType.sentinels_eq_ok_iff.mpr found, plainly, ?_⟩
  intro block rowCount rows scannable ordinary
  have plainScannable := scannable.with_filter (.compiled plainly)
  refine ⟨_, _, scannable.reports found, plainScannable.reports found,
    fun evaluated => ?_, fun several disjoined equalities => ?_, fun several conjoined inequalities => ?_⟩
  -- A filter that evaluates its predicates goes by their answers, and those ignore the flags.
  · have agree := scannable.qualifyingRows_eq_iff wellFormed fun stored _ _ =>
      CompiledFilter.accepts_ofPredicates_unflagged kind nonempty evaluated (laneOf column.kind stored)
    exact agree.mpr (.inr ordinary)
  · subst disjoined
    exact scannable.qualifyingRows_eq_filter wellFormed (fun stored length _ =>
      CompiledFilter.accepts_equalities_flagged wellFormed widths several length equalities) ordinary
  · subst conjoined
    exact plainScannable.qualifyingRows_eq_filter wellFormed (fun stored length _ =>
      CompiledFilter.accepts_inequalities_flagged wellFormed widths several length inequalities) ordinary

/-- Two comparisons joined by XOR find the same rows of 1.0, 2.0 and 3.0 with their flags and without. -/
theorem scanBlock_float_flags_xor :
    let column : ColumnDescriptor := { width := 4, logicalType := .float, output := .both }
    let predicates : List Predicate :=
      [{ operator := .equal, flag := 1, value := [0, 0, 0x80, 0x3F] },
        { operator := .lessOrEqual, flag := 0x80, value := [0, 0, 0, 0x40] }]
    let block : Array UInt8 := #[0, 0, 0x80, 0x3F, 0, 0, 0, 0x40, 0, 0, 0x40, 0x40]
    ∃ filter plain emitted,
      CompiledFilter.compile (predicateRecords predicates) 4 .float 2 .xor = .ok filter ∧
      CompiledFilter.compile (predicateRecords (predicates.map Predicate.unflagged)) 4 .float 2
        .xor = .ok plain ∧
      ScanReports column filter block [] emitted ∧ ScanReports column plain block [] emitted := by
  intro column predicates block
  have compiled : CompiledFilter.compile (predicateRecords predicates) 4 .float 2 .xor = .ok _ := rfl
  obtain ⟨pair, plain, patterns, plainly, reported⟩ := scanBlock_float_flags
    (show column.kind = .float by decide) (show column.isSupported = true by decide)
    (show predicates.length < UInt16.size by decide) (by decide) compiled
  cases patterns
  have scannable : Scannable column _ block 3 [] :=
    ⟨by decide, .compiled compiled, rfl, by decide, nofun, by decide⟩
  have requested : requestedRows 3 [] = [0, 1, 2] := rfl
  obtain ⟨emitted, others, reports, plainReports, same, _⟩ := reported block 3 [] scannable (by
    simp only [requested, List.forall_mem_cons]
    exact ⟨by decide, by decide, by decide, nofun⟩)
  have evaluated : ¬(1 < predicates.length ∧ CompiledFilter.FormsValueList .xor predicates) := by
    rintro ⟨_, ⟨disjoined, _⟩ | ⟨conjoined, _⟩⟩
    · cases disjoined
    · cases conjoined
  obtain rfl := same evaluated
  exact ⟨_, plain, emitted, compiled, plainly, reports, plainReports⟩

/-- In a list of values, a flag takes the row of its value out of the answer. -/
theorem scanBlock_float_flags_listed :
    let column : ColumnDescriptor := { width := 4, logicalType := .float, output := .both }
    let predicates : List Predicate :=
      [{ operator := .equal, flag := 1, value := [0, 0, 0x80, 0x3F] },
        { operator := .equal, value := [0, 0, 0, 0x40] }]
    let block : Array UInt8 := #[0, 0, 0x80, 0x3F, 0, 0, 0, 0x40, 0, 0, 0x40, 0x40]
    ∃ filter plain,
      CompiledFilter.compile (predicateRecords predicates) 4 .float 2 .or = .ok filter ∧
      CompiledFilter.compile (predicateRecords (predicates.map Predicate.unflagged)) 4 .float 2
        .or = .ok plain ∧
      (scanBlock column filter block [] 18 {}).map ScanAnswer.matchedRows = .ok 1 ∧
      (scanBlock column plain block [] 18 {}).map ScanAnswer.matchedRows = .ok 2 :=
  ⟨_, _, rfl, rfl, rfl, rfl⟩

end ColumnScan
