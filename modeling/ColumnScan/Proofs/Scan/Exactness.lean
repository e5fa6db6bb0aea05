import ColumnScan.Proofs.Scan.Checks
import ColumnScan.Proofs.Scan.Entries

/-!
# Scans are exact

A scan of whole, addressable values with room for its matches succeeds, and its matches are the
requested rows whose stored values qualify: in ascending order, each as often as it was requested.
What qualifies is said of stored bytes here, without lanes.
-/

set_option autoImplicit false

namespace ColumnScan

theorem LogicalType.isSome_sentinels? {logicalType : LogicalType} {width : Nat}
    (scannable : ColumnDescriptor.scannable (logicalType.kindAt width) width = true) :
    (logicalType.sentinels? width).isSome = true := by
  have layout : width ∈ [1, 2, 4, 8, 16] := by
    simp only [List.mem_cons, List.not_mem_nil, or_false]
    cases kind : logicalType.kindAt width <;>
      simp only [kind, ColumnDescriptor.scannable, List.mem_cons, List.not_mem_nil, or_false,
        decide_eq_true_eq] at scannable <;>
      omega
  simp only [List.mem_cons, List.not_mem_nil, or_false] at layout
  -- The layouts that no scan supports contradict the hypothesis; the catalog has all others.
  rcases layout with rfl | rfl | rfl | rfl | rfl <;> cases logicalType <;>
    first | rfl | cases scannable

/-- Whether a scan with a list of rows passes over EMPTY rows. -/
def ColumnDescriptor.skipsEmpty (column : ColumnDescriptor) (rows : List RowIndex) : Bool :=
  !rows.isEmpty || column.output.emitsRow

/-- Whether a row with the given stored value is a match. -/
def ColumnDescriptor.qualifies (column : ColumnDescriptor) (pair : SentinelPair)
    (filter : CompiledFilter) (rows : List RowIndex) (stored : Bytes) : Bool :=
  let pattern := LittleEndian.natValue stored
  let accepts := fun value => filter.accepts column.comparator (laneOf column.kind value)
  if pair.isEmpty pattern then !column.skipsEmpty rows && accepts pair.emptyBytes false
  else if pair.isNull pattern then accepts pair.nullBytes true
  else accepts stored false

theorem checkLanes_ofWidth (width : Nat) : checkLanes width (.ofWidth width) = .ok () := by
  unfold checkLanes
  cases LaneSize.ofWidth width <;> rfl

section Scan

variable {column : ColumnDescriptor} {filter : CompiledFilter} {block : Array UInt8}
  {rowCount : Nat} {rows : List RowIndex}

theorem ScanChecked.of_size {pair : SentinelPair} (supported : column.isSupported = true)
    (lanes_eq : filter.lanes = .ofWidth column.width)
    (size : block.size = rowCount * column.width) (addressable : rowCount ≤ maxRows)
    (inside : ∀ row ∈ rows, row.toNat < rowCount)
    (found : column.logicalType.sentinels? column.width = some pair) :
    ScanChecked column filter block rows rowCount pair where
  supported := supported
  counted :=
    blockRows_of_size (LogicalType.wellFormed_of_sentinels? found).width_pos size addressable
  inside := inside
  patterns := LogicalType.sentinels_eq_ok_iff.mpr found
  lanes := lanes_eq ▸ checkLanes_ofWidth column.width

/-- A scan cannot fail if there is room for every requested row, whatever filter it is given. -/
theorem exists_scanBlock_eq_ok (supported : column.isSupported = true)
    (lanes_eq : filter.lanes = .ofWidth column.width)
    (size : block.size = rowCount * column.width) (addressable : rowCount ≤ maxRows)
    (inside : ∀ row ∈ rows, row.toNat < rowCount) {capacity : Nat}
    (room : worstCaseSize (requestedRows rowCount rows).length column.output column.width ≤ capacity)
    (config : ScanConfig) :
    ∃ answer, scanBlock column filter block rows capacity config = .ok answer := by
  obtain ⟨pair, found⟩ := Option.isSome_iff_exists.mp (LogicalType.isSome_sentinels? supported)
  have checked : ScanChecked column filter block rows rowCount pair :=
    .of_size supported lanes_eq size addressable inside found
  exact ⟨_, checked.scanBlock_eq_report_of_worstCase capacity config fun _ => room⟩

/-- What a scan can be asked for: a column that can be scanned, a filter for it, a block of whole
values with at most as many rows as can be addressed, and a list of them of at most that length. -/
structure Scannable (column : ColumnDescriptor) (filter : CompiledFilter) (block : Array UInt8)
    (rowCount : Nat) (rows : List RowIndex) : Prop where
  supported : column.isSupported = true
  compiledFor : filter.CompiledFor column
  size : block.size = rowCount * column.width
  addressable : rowCount ≤ maxRows
  inside : ∀ row ∈ rows, row.toNat < rowCount
  listed : rows.length ≤ maxRows

theorem Scannable.length_cell_of_visited {filter : CompiledFilter} {block : Array UInt8}
    {rowCount : Nat} {rows : List RowIndex} (scannable : Scannable column filter block rowCount rows)
    {row : RowIndex} (visited : row ∈ rowsToVisit rowCount rows) :
    (cell block column.width row.toNat).length = column.width :=
  length_cell (Nat.le_of_eq scannable.size.symm)
    (lt_of_mem_rowsToVisit scannable.addressable scannable.inside visited)

def qualifyingRows (column : ColumnDescriptor) (pair : SentinelPair) (filter : CompiledFilter)
    (block : Array UInt8) (rowCount : Nat) (rows : List RowIndex) : List RowIndex :=
  (rowsToVisit rowCount rows).filter fun row =>
    column.qualifies pair filter rows (cell block column.width row.toNat)

/-- Classifying and comparing lanes finds the values that qualify. -/
theorem BlockView.matchesOf_ofBlock {pair : SentinelPair} (filter : CompiledFilter)
    (config : ScanConfig) (wellFormed : pair.WellFormed column.width)
    (size : block.size = rowCount * column.width) (addressable : rowCount ≤ maxRows)
    (inside : ∀ row ∈ rows, row.toNat < rowCount) :
    (ofBlock column pair block rowCount rows config).matchesOf filter =
      (qualifyingRows column pair filter block rowCount rows).map
        (Candidate.ofBlock column.kind column.width block) := by
  have nullLane : (LaneSentinels.ofPair column.kind pair).null =
      laneOf column.kind pair.nullBytes := (laneOf_ofNat _ _ _).symm
  have emptyLane : (LaneSentinels.ofPair column.kind pair).empty =
      laneOf column.kind pair.emptyBytes := (laneOf_ofNat _ _ _).symm
  simp only [matchesOf, ofBlock, List.filter_map, qualifyingRows]
  refine congrArg _ (List.filter_congr fun row visited => ?_)
  have length := length_cell (Nat.le_of_eq size.symm)
    (lt_of_mem_rowsToVisit addressable inside visited)
  simp only [Function.comp_apply, RowByRow.accepts, Candidate.ofBlock,
    LaneSentinels.isEmpty_ofPair wellFormed length, LaneSentinels.isNull_ofPair wellFormed length,
    nullLane, emptyLane]
  rfl

def BlockView.answer (view : BlockView) (column : ColumnDescriptor) (filter : CompiledFilter) :
    ScanAnswer :=
  let found := view.matchesOf filter
  let bounds := view.extent.bounds column.comparator
  { header :=
      { matched := UInt16.ofNat found.length
        rowMap := if column.output.emitsRow then RowMap.ofRows (found.map Candidate.row) else 0
        extentValid := view.tracksExtent
        least := bounds.1
        greatest := bounds.2 }
    payload := found.flatMap (Candidate.entry column.output) }

section Found

variable (scannable : Scannable column filter block rowCount rows) {pair : SentinelPair}
  (found : column.logicalType.sentinels? column.width = some pair)

include scannable found

theorem Scannable.checked : ScanChecked column filter block rows rowCount pair :=
  .of_size scannable.supported (scannable.compiledFor.lanes_eq found) scannable.size
    scannable.addressable scannable.inside found

theorem Scannable.matched_eq_matchesOf (config : ScanConfig) :
    let view := BlockView.ofBlock column pair block rowCount rows config
    view.matched filter config = view.matchesOf filter :=
  BlockView.matched_eq_matchesOf
    (BlockView.reads_ofBlock scannable.size scannable.addressable scannable.inside)
    scannable.compiledFor found config

theorem Scannable.length_matched (config : ScanConfig) :
    ((BlockView.ofBlock column pair block rowCount rows config).matched filter config).length =
      (qualifyingRows column pair filter block rowCount rows).length := by
  have matchesOf := BlockView.matchesOf_ofBlock filter config
    (LogicalType.wellFormed_of_sentinels? found) scannable.size scannable.addressable
    scannable.inside
  rw [scannable.matched_eq_matchesOf found, matchesOf, List.length_map]

theorem Scannable.scanBlock_eq_ok (capacity : Nat) (config : ScanConfig)
    (room : config.checksCapacity = true →
      (qualifyingRows column pair filter block rowCount rows).length *
        column.output.entrySize column.width ≤ capacity) :
    scanBlock column filter block rows capacity config =
      .ok ((BlockView.ofBlock column pair block rowCount rows config).answer column filter) := by
  rw [← scannable.length_matched found config] at room
  rw [(scannable.checked found).scanBlock_eq_report capacity config room, scannable.matched_eq_matchesOf found]
  rfl

/-- A scan succeeds only if there was room for its matches. -/
theorem Scannable.room_of_scanBlock {capacity : Nat} {config : ScanConfig} {answer : ScanAnswer}
    (scanned : scanBlock column filter block rows capacity config = .ok answer)
    (checks : config.checksCapacity = true) :
    (qualifyingRows column pair filter block rowCount rows).length *
      column.output.entrySize column.width ≤ capacity := by
  refine Nat.le_of_not_lt fun full => ?_
  rw [← scannable.length_matched found config] at full
  cases ((scannable.checked found).scanBlock_eq_error capacity config checks full).symm.trans scanned

end Found

theorem Scannable.length_qualifyingRows (scannable : Scannable column filter block rowCount rows)
    (pair : SentinelPair) :
    (qualifyingRows column pair filter block rowCount rows).length ≤ maxRows :=
  Nat.le_trans (List.length_filter_le _ _)
    (length_rowsToVisit_le scannable.addressable scannable.listed)

end Scan

/-- The answer reports these rows of a block, each with its own index and stored value. -/
structure ScanAnswer.Emits (answer : ScanAnswer) (column : ColumnDescriptor)
    (block : Array UInt8) (emitted : List RowIndex) : Prop where
  entries_eq : answer.entries column.output column.width = emitted.map fun row =>
    { row := if column.output.emitsRow then some row else none
      value :=
        if column.output.emitsValue then some (cell block column.width row.toNat) else none }
  matchedRows_eq : answer.matchedRows = emitted.length
  hasBit_iff : ∀ bit, answer.header.rowMap.hasBit bit = true ↔
    column.output.emitsRow = true ∧ ∃ row ∈ emitted, RowMap.bitOf row = bit

section Exactness

variable {column : ColumnDescriptor} {filter : CompiledFilter} {block : Array UInt8}
  {rowCount : Nat} {rows : List RowIndex}

theorem Scannable.emits_answer (scannable : Scannable column filter block rowCount rows)
    {pair : SentinelPair} (found : column.logicalType.sentinels? column.width = some pair)
    (config : ScanConfig) :
    ((BlockView.ofBlock column pair block rowCount rows config).answer column filter).Emits
      column block (qualifyingRows column pair filter block rowCount rows) := by
  have wellFormed := LogicalType.wellFormed_of_sentinels? found
  have positive := wellFormed.width_pos
  have matchesOf := BlockView.matchesOf_ofBlock filter config wellFormed scannable.size
    scannable.addressable scannable.inside
  have few := scannable.length_qualifyingRows pair
  have stored : ∀ candidate ∈ (qualifyingRows column pair filter block rowCount rows).map
      (Candidate.ofBlock column.kind column.width block), candidate.stored.length = column.width := by
    intro candidate member
    obtain ⟨row, qualified, rfl⟩ := List.mem_map.mp member
    exact scannable.length_cell_of_visited (List.mem_filter.mp qualified).1
  constructor
  · simp only [BlockView.answer, matchesOf]
    rw [ScanAnswer.entries_flatMap_entry positive stored, List.map_map]
    rfl
  · have counted : (qualifyingRows column pair filter block rowCount rows).length < UInt16.size :=
      Nat.lt_succ_of_le few
    simp only [ScanAnswer.matchedRows, BlockView.answer, matchesOf, List.length_map,
      UInt16.toNat_ofNat_of_lt' counted]
  · intro bit
    have rowsOf : ((qualifyingRows column pair filter block rowCount rows).map
        (Candidate.ofBlock column.kind column.width block)).map Candidate.row =
          qualifyingRows column pair filter block rowCount rows := by
      rw [List.map_map]
      exact List.map_id _
    simp only [BlockView.answer, matchesOf, rowsOf]
    cases emitsRow : column.output.emitsRow with
    | false =>
        simp only [Bool.false_eq_true, ↓reduceIte, false_and, iff_false]
        exact Bool.eq_false_iff.mp (Nat.zero_testBit bit)
    | true => simp only [↓reduceIte, RowMap.hasBit_ofRows, true_and]

end Exactness

end ColumnScan
