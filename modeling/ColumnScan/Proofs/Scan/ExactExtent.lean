import Mathlib.Order.Bounds.Basic
import ColumnScan.Proofs.Scan.ReportedExtent

/-!
# The extent of integer columns

A scan of all rows reports the least and the greatest number among the ordinary values of an integer
column, whether they match or not, and an empty range if there is none. Other scans report no extent.
-/

set_option autoImplicit false

namespace ColumnScan

/-- Columns that compare as integers. Besides the integer and decimal types these are dates and
times, bits and large objects. -/
def ColumnDescriptor.IsInteger (column : ColumnDescriptor) : Prop :=
  column.kind = .signed ∨ column.kind = .unsigned

/-- The number that a value of an integer column stands for. -/
def ColumnDescriptor.number (column : ColumnDescriptor) (stored : Bytes) : Int :=
  if column.kind = .unsigned then LittleEndian.natValue stored else LittleEndian.intValue stored

/-- The numbers that a block holds besides NULL and EMPTY. -/
def ColumnDescriptor.ordinaryNumbers (column : ColumnDescriptor) (pair : SentinelPair)
    (block : Array UInt8) : Set Int :=
  { number | ∃ index < block.size / column.width,
      let stored := cell block column.width index
      pair.isEmpty (LittleEndian.natValue stored) = false ∧
        pair.isNull (LittleEndian.natValue stored) = false ∧ column.number stored = number }

/-- The bounds of a header are the least and the greatest of some numbers, and empty if there are
none. -/
structure ScanHeader.Bounds (header : ScanHeader) (numbers : Set Int) : Prop where
  inverted_iff : header.greatest < header.least ↔ numbers = ∅
  isLeast : numbers.Nonempty → IsLeast numbers header.least
  isGreatest : numbers.Nonempty → IsGreatest numbers header.greatest

namespace ColumnDescriptor

variable {column : ColumnDescriptor} {pair : SentinelPair}

theorem reported_laneOf (supported : column.isSupported = true) (integer : column.IsInteger)
    (wellFormed : pair.WellFormed column.width) {stored : Bytes}
    (length : stored.length = column.width) :
    column.comparator.reported (laneOf column.kind stored) = column.number stored := by
  unfold Comparator.reported number
  rw [comparator_kind supported]
  rcases integer with signed | unsigned
  · rw [signed]
    exact laneOf_eq .signed stored
  · have narrow := width_le_of_kind_unsigned unsigned wellFormed
    rw [unsigned]
    exact unsignedLane_laneOf (length ▸ narrow)

theorem order_eq_compare (supported : column.isSupported = true) (integer : column.IsInteger)
    (left right : Int) :
    column.comparator.order left right =
      Ord.compare (column.comparator.reported left) (column.comparator.reported right) := by
  unfold Comparator.order Comparator.reported
  rw [comparator_kind supported]
  rcases integer with signed | unsigned
  · rw [signed]
  · rw [unsigned]

theorem emptyRange_lt (supported : column.isSupported = true) (integer : column.IsInteger) :
    column.comparator.emptyRange.2 < column.comparator.emptyRange.1 := by
  unfold Comparator.emptyRange
  rw [comparator_kind supported]
  rcases integer with signed | unsigned
  · rw [signed]
    dsimp only
    split <;> decide
  · rw [unsigned]
    dsimp only
    decide

theorem tracksExtent_iff (column : ColumnDescriptor) (rows : List RowIndex) (maxWidth : Nat) :
    column.tracksExtent rows.length maxWidth = true ↔
      rows = [] ∧ column.width ≤ maxWidth ∧ column.hasExtent = true := by
  simp only [tracksExtent, Bool.and_eq_true, beq_iff_eq, decide_eq_true_eq, List.length_eq_zero_iff,
    and_assoc]

end ColumnDescriptor

section View

variable {column : ColumnDescriptor} {pair : SentinelPair} {block : Array UInt8} {rowCount : Nat}
  {config : ScanConfig}

theorem exists_of_mem_ordinaryLanes (wellFormed : pair.WellFormed column.width)
    (size : block.size = rowCount * column.width) (addressable : rowCount ≤ maxRows) {lane : Int}
    (member : lane ∈ (BlockView.ofBlock column pair block rowCount [] config).ordinaryLanes) :
    ∃ index < rowCount,
      let stored := cell block column.width index
      pair.isEmpty (LittleEndian.natValue stored) = false ∧
        pair.isNull (LittleEndian.natValue stored) = false ∧ laneOf column.kind stored = lane := by
  obtain ⟨read, ordinary⟩ := List.mem_filter.mp member
  obtain ⟨candidate, present, rfl⟩ := List.mem_map.mp read
  obtain ⟨row, visited, rfl⟩ := List.mem_map.mp present
  have inside : row.toNat < rowCount :=
    lt_of_mem_rowsToVisit addressable (fun _ absent => absurd absent List.not_mem_nil) visited
  have length := length_cell (Nat.le_of_eq size.symm) inside
  change (!(column.laneSentinels pair).isEmpty _ && !(column.laneSentinels pair).isNull _) = true
    at ordinary
  rw [Bool.and_eq_true, Bool.not_eq_true', Bool.not_eq_true'] at ordinary
  refine ⟨row.toNat, inside, ?_, ?_, rfl⟩
  · exact (LaneSentinels.isEmpty_ofPair wellFormed length).symm.trans ordinary.1
  · exact (LaneSentinels.isNull_ofPair wellFormed length).symm.trans ordinary.2

/-- The ordinary lanes of a block stand for the ordinary numbers in it. -/
theorem ordinaryNumbers_eq_image (supported : column.isSupported = true)
    (integer : column.IsInteger) (wellFormed : pair.WellFormed column.width)
    (size : block.size = rowCount * column.width) (addressable : rowCount ≤ maxRows)
    (config : ScanConfig) :
    column.ordinaryNumbers pair block = column.comparator.reported ''
      { lane | lane ∈ (BlockView.ofBlock column pair block rowCount [] config).ordinaryLanes } := by
  have count : block.size / column.width = rowCount := by
    rw [size, Nat.mul_div_cancel rowCount wellFormed.width_pos]
  have length : ∀ index < rowCount, (cell block column.width index).length = column.width :=
    fun index inside => length_cell (Nat.le_of_eq size.symm) inside
  ext number
  unfold ColumnDescriptor.ordinaryNumbers
  rw [Set.mem_ofPred_eq, count]
  constructor
  · rintro ⟨index, inside, notEmpty, notNull, rfl⟩
    refine ⟨laneOf column.kind (cell block column.width index), ?_, ?_⟩
    · apply mem_ordinaryLanes addressable inside
      · exact (LaneSentinels.isEmpty_ofPair wellFormed (length index inside)).trans notEmpty
      · exact (LaneSentinels.isNull_ofPair wellFormed (length index inside)).trans notNull
    · exact column.reported_laneOf supported integer wellFormed (length index inside)
  · rintro ⟨lane, member, rfl⟩
    obtain ⟨index, inside, notEmpty, notNull, rfl⟩ :=
      exists_of_mem_ordinaryLanes wellFormed size addressable member
    refine ⟨index, inside, notEmpty, notNull, ?_⟩
    exact (column.reported_laneOf supported integer wellFormed (length index inside)).symm

/-- If lanes are ordered as the numbers they stand for, the reported bounds of a view are those of
its numbers. -/
theorem ScanHeader.bounds_of_extent {view : BlockView} {header : ScanHeader}
    (tracks : view.tracksExtent = true)
    (ordered : ∀ left right, view.comparator.order left right =
      Ord.compare (view.comparator.reported left) (view.comparator.reported right))
    (inverted : view.comparator.emptyRange.2 < view.comparator.emptyRange.1)
    (reported : (header.least, header.greatest) = view.extent.bounds view.comparator) :
    header.Bounds (view.comparator.reported '' { lane | lane ∈ view.ordinaryLanes }) := by
  obtain ⟨none, extent⟩ | ⟨least, leastMember, greatest, greatestMember, extent, encloses⟩ :=
    BlockView.extent_cases tracks
  · rw [extent] at reported
    obtain ⟨leastReported, greatestReported⟩ := Prod.mk.inj reported
    have empty : view.comparator.reported '' { lane | lane ∈ view.ordinaryLanes } = ∅ := by
      simp only [none, List.not_mem_nil, Set.ofPred_false, Set.image_empty]
    rw [empty]
    constructor
    · rw [leastReported, greatestReported]
      exact iff_of_true inverted rfl
    · exact fun nonempty => absurd rfl nonempty.ne_empty
    · exact fun nonempty => absurd rfl nonempty.ne_empty
  · rw [extent] at reported
    obtain ⟨leastReported, greatestReported⟩ := Prod.mk.inj reported
    have isLeast : IsLeast (view.comparator.reported '' { lane | lane ∈ view.ordinaryLanes })
        header.least := by
      rw [leastReported]
      refine ⟨⟨least, leastMember, rfl⟩, ?_⟩
      rintro number ⟨lane, ordinary, rfl⟩
      have notBelow := (encloses lane ordinary).1
      rwa [ordered, Ne, compare_lt_iff_lt, not_lt] at notBelow
    have isGreatest : IsGreatest (view.comparator.reported '' { lane | lane ∈ view.ordinaryLanes })
        header.greatest := by
      rw [greatestReported]
      refine ⟨⟨greatest, greatestMember, rfl⟩, ?_⟩
      rintro number ⟨lane, ordinary, rfl⟩
      have notAbove := (encloses lane ordinary).2
      rwa [ordered, Ne, compare_gt_iff_gt, not_lt] at notAbove
    constructor
    · apply iff_of_false
      · exact not_lt.mpr (isLeast.2 isGreatest.1)
      · exact Set.Nonempty.ne_empty ⟨_, isLeast.1⟩
    · exact fun _ => isLeast
    · exact fun _ => isGreatest

end View

section Scan

variable {column : ColumnDescriptor} {filter : CompiledFilter} {block : Array UInt8}
  {rows : List RowIndex} {capacity : Nat} {config : ScanConfig} {answer : ScanAnswer}

theorem bounds_of_scanBlock (integer : column.IsInteger)
    (scanned : scanBlock column filter block rows capacity config = .ok answer)
    (valid : answer.header.extentValid = true) :
    ∃ pair, column.sentinels = .ok pair ∧
      answer.header.Bounds (column.ordinaryNumbers pair block) := by
  obtain ⟨rowCount, pair, supported, size, addressable, patterns, tracks, bounds⟩ :=
    extent_of_scanBlock scanned
  have tracked := tracks.symm.trans valid
  obtain ⟨rfl, _, _⟩ := (column.tracksExtent_iff rows config.maxExtentWidth).mp tracked
  have wellFormed := column.wellFormed_of_sentinels patterns
  refine ⟨pair, patterns, ?_⟩
  rw [ordinaryNumbers_eq_image supported integer wellFormed size addressable config]
  exact ScanHeader.bounds_of_extent tracked (column.order_eq_compare supported integer)
    (column.emptyRange_lt supported integer) bounds

end Scan

/-- A scan with room for its matches succeeds. Its bounds are valid exactly if it goes over all rows
of a column whose type and width have them, and those of an integer column are then exact, whatever
the filter and the settings. -/
theorem scanBlock_extent_exact (column : ColumnDescriptor) (filter : CompiledFilter)
    (block : Array UInt8) (rows : List RowIndex) (capacity : Nat) (config : ScanConfig) :
    (∀ rowCount pair, Scannable column filter block rowCount rows → column.sentinels = .ok pair →
      (config.checksCapacity = true →
        (qualifyingRows column pair filter block rowCount rows).length *
          column.output.entrySize column.width ≤ capacity) →
      ∃ answer, scanBlock column filter block rows capacity config = .ok answer) ∧
    ∀ answer, scanBlock column filter block rows capacity config = .ok answer →
      (answer.header.extentValid = true ↔
        rows = [] ∧ column.width ≤ config.maxExtentWidth ∧ column.hasExtent = true) ∧
      (column.IsInteger → answer.header.extentValid = true →
        ∃ pair, column.sentinels = .ok pair ∧
          answer.header.Bounds (column.ordinaryNumbers pair block)) := by
  refine ⟨fun rowCount pair scannable patterns room => ?_, fun answer scanned => ⟨?_, ?_⟩⟩
  · have found := LogicalType.sentinels_eq_ok_iff.mp patterns
    exact ⟨_, scannable.scanBlock_eq_ok found capacity config room⟩
  · obtain ⟨_, _, _, _, _, _, tracks, _⟩ := extent_of_scanBlock scanned
    rw [tracks]
    exact column.tracksExtent_iff rows config.maxExtentWidth
  · exact fun integer valid => bounds_of_scanBlock integer scanned valid

/-- The least and the greatest number that a signed byte can hold beside NULL and EMPTY are not
mistaken for them. -/
theorem scanBlock_extent_exact_tinyInt :
    let column : ColumnDescriptor := { width := 1, logicalType := .tinyInt }
    let block := #[0x80, 0x82, 0x81, 0x7F, 0]
    ∃ pair answer, column.sentinels = .ok pair ∧
      scanBlock column (.alwaysTrue 1) block [] 5 {} = .ok answer ∧
      answer.header.least = -126 ∧ answer.header.greatest = 127 ∧
      IsLeast (column.ordinaryNumbers pair block) answer.header.least ∧
      IsGreatest (column.ordinaryNumbers pair block) answer.header.greatest := by
  have scanned : scanBlock { width := 1, logicalType := .tinyInt } (.alwaysTrue 1)
      #[0x80, 0x82, 0x81, 0x7F, 0] [] 5 {} = .ok
        { header := { matched := 5, extentValid := true, least := -126, greatest := 127 }
          payload := [0x80, 0x82, 0x81, 0x7F, 0] } := by
    rfl
  intro column block
  obtain ⟨pair, patterns, bounds⟩ :=
    ((scanBlock_extent_exact column (.alwaysTrue 1) block [] 5 {}).2 _ scanned).2 (.inl rfl) rfl
  have nonempty : (column.ordinaryNumbers pair block).Nonempty := by
    apply Set.nonempty_iff_ne_empty.mpr
    intro empty
    exact absurd (bounds.inverted_iff.mpr empty) (by decide)
  exact ⟨pair, _, patterns, scanned, rfl, rfl, bounds.isLeast nonempty, bounds.isGreatest nonempty⟩

end ColumnScan
