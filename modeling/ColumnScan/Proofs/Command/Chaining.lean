import ColumnScan.Proofs.Command.StoredBlocks
import ColumnScan.Proofs.Scan.EmittedRows

/-!
# Chains of commands

A chain runs one column as a scan and gives its rows to another column as a step. While the blocks
are stored it finds the rows that both columns select, whichever column comes first.
-/

set_option autoImplicit false

namespace ColumnScan

section Rows

variable {column : ColumnDescriptor}

/-- All rows of a logical block, in ascending order. -/
def logicalRows : List RowIndex := (List.range logicalBlockRows).map UInt16.ofNat

theorem logicalBlockRows_le_maxRows : logicalBlockRows ≤ maxRows := by decide

/-- Whether a row with the given stored value is not EMPTY and passes the filter; a NULL row passes
if the primary NULL pattern does. -/
def ColumnDescriptor.selects (column : ColumnDescriptor) (pair : SentinelPair)
    (filter : CompiledFilter) (stored : Bytes) : Bool :=
  let pattern := LittleEndian.natValue stored
  let accepts := fun value => filter.accepts column.comparator (laneOf column.kind value)
  !pair.isEmpty pattern &&
    if pair.isNull pattern then accepts pair.nullBytes true else accepts stored false

theorem ColumnDescriptor.qualifies_eq_selects {rows : List RowIndex}
    (skipsEmpty : column.skipsEmpty rows = true) (pair : SentinelPair) (filter : CompiledFilter)
    (stored : Bytes) :
    column.qualifies pair filter rows stored = column.selects pair filter stored := by
  unfold qualifies selects
  rw [skipsEmpty]
  cases pair.isEmpty (LittleEndian.natValue stored) <;> simp

/-- The row map of rows of a logical block has the run of each. -/
theorem RowMap.hasBit_of_mem {rows : List RowIndex} {row : RowIndex} (member : row ∈ rows)
    (inside : row.toNat < logicalBlockRows) :
    (ofRows rows).hasBit (row.toNat / rowsPerBit) = true :=
  (hasBit_ofRows rows _).mpr ⟨row, member, bitOf_eq_div inside⟩

/-- Rows that are visited in ascending order already are visited as listed. -/
theorem rowsToVisit_eq_of_sorted {rowCount : Nat} {listed : List RowIndex} (nonempty : listed ≠ [])
    (sorted : listed.Pairwise (· ≤ ·)) : rowsToVisit rowCount listed = listed := by
  unfold rowsToVisit
  rw [if_neg (by simpa only [List.isEmpty_iff] using nonempty)]
  refine List.mergeSort_of_pairwise (sorted.imp fun le => ?_)
  exact decide_eq_true le

end Rows

theorem CompiledFilter.CompiledFor.withRole {filter : CompiledFilter} {column : ColumnDescriptor}
    (compiledFor : filter.CompiledFor column) (isScan : Bool) :
    filter.CompiledFor { column with isScan } := by
  cases compiledFor with
  | alwaysTrue => exact .alwaysTrue
  | compiled compiled => exact .compiled compiled

namespace ColumnCommand

variable {σ : Type}

/-- The command as the scan or as a step of a chain. -/
def withRole (command : ColumnCommand) (isScan : Bool) : ColumnCommand :=
  { command with column := { command.column with isScan } }

/-- The output of a command can be passed on: its row map is that of its rows. -/
theorem asInput_of_execute (command : ColumnCommand) (source : BlockSource σ) (state : σ)
    (block : BlockRef) (input : Option StepInput) {output : StepOutput}
    (executed : (command.execute source state block input).1 = .ok output) :
    output.asInput = StepInput.ofRows output.rows := by
  obtain ⟨_, rfl⟩ | ⟨rows, _, _, bytes, answer, _, _, scanned, rfl⟩ :=
    exists_answer_of_execute executed
  · rfl
  · exact congrArg (StepInput.mk _) (rowMap_of_scanBlock scanned)

/-- Whether the column selects a row of a logical block. -/
def selects (command : ColumnCommand) (content : Nat → PhysicalBlock) (block : BlockRef)
    (row : RowIndex) : Bool :=
  let column := command.column
  match column.sentinels with
  | .error _ => false
  | .ok pair =>
      column.selects pair command.filter
        (cell (logicalBlock content block.firstBlock column.width) column.width row.toNat)

theorem scanLoaded_selects (command : ColumnCommand)
    (emitsRow : command.column.output.emitsRow = true)
    (compiledFor : command.filter.CompiledFor command.column) (content : Nat → PhysicalBlock)
    (block : BlockRef) {rows : List RowIndex} {loaded : Loaded}
    (inside : ∀ row ∈ rows, row.toNat < logicalBlockRows) (listed : rows.length ≤ maxRows)
    (whole : scanBlock command.column command.filter loaded.bytes rows (command.capacity rows)
      command.scanConfig = command.scanWhole content block rows) :
    ∃ output, command.scanLoaded block rows loaded = .ok output ∧
      output.rows = (rowsToVisit logicalBlockRows rows).filter (command.selects content block) := by
  obtain ⟨pair, found⟩ :=
    Option.isSome_iff_exists.mp (LogicalType.isSome_sentinels? command.supported)
  have patterns : command.column.sentinels = .ok pair := LogicalType.sentinels_eq_ok_iff.mpr found
  let bytes := logicalBlock content block.firstBlock command.column.width
  have scannable : Scannable command.column command.filter bytes logicalBlockRows rows := by
    exact ⟨command.supported, compiledFor, size_logicalBlock _ _ _, by decide, inside, listed⟩
  have room :
      (qualifyingRows command.column pair command.filter bytes logicalBlockRows rows).length *
        command.column.output.entrySize command.column.width ≤ command.capacity rows := by
    rw [command.capacity_eq rows, ← rowsToVisit_perm.length_eq]
    exact Nat.mul_le_mul_right _ (List.length_filter_le _ _)
  have answered := scannable.scanBlock_eq_ok found (command.capacity rows) command.scanConfig
    fun _ => room
  have emits := scannable.emits_answer found command.scanConfig
  rw [scanWhole, answered] at whole
  refine ⟨_, by rw [scanLoaded, whole]; rfl, ?_⟩
  refine (emits.rows_eq emitsRow).trans ?_
  refine List.filter_congr fun row _ => ?_
  have skips : command.column.skipsEmpty rows = true := by
    rw [ColumnDescriptor.skipsEmpty, emitsRow, Bool.or_true]
  rw [ColumnDescriptor.qualifies_eq_selects skips, selects, patterns]

section Stored

variable {command : ColumnCommand} (emitsRow : command.column.output.emitsRow = true)
  (compiledFor : command.filter.CompiledFor command.column) {source : BlockSource σ}
  {good : σ → Prop} {content : Nat → PhysicalBlock} {block : BlockRef}
  (serves : source.Serves good content
    ((List.range command.column.width).map (block.firstBlock + ·)))
  {state : σ} (valid : good state)

include serves valid in
theorem served_loadPlan {rowMap : RowMap} (full : command.column.isScan = true → rowMap = 0xFFFF) :
    (command.loadPlan block rowMap (source.lastBlock state)).Served source good content where
  layout := ColumnDescriptor.width_mem_layoutWidths command.supported
  serves := serves
  le_lastBlock _ inside :=
    serves.le_lastBlock state valid _ (List.mem_map_of_mem (List.mem_range.mpr inside))
  full_of_scan := full

include emitsRow compiledFor serves valid

/-- A scan of stored blocks gives the selected rows. -/
theorem execute_scan_selects (scan : command.column.isScan = true) (input : Option StepInput) :
    ∃ output next, command.execute source state block input = (.ok output, next) ∧ good next ∧
      output.rows = logicalRows.filter (command.selects content block) := by
  have served := served_loadPlan serves valid fun _ => rfl
  obtain ⟨loaded, next, loads, remains, bytes⟩ := served.run valid
  have whole : loaded.bytes = logicalBlock content block.firstBlock command.column.width :=
    Array.toList_inj.mp (bytes.trans (served.flatMap_piece rfl))
  have scannedWhole : scanBlock command.column command.filter loaded.bytes [] (command.capacity [])
      command.scanConfig = command.scanWhole content block [] := by
    rw [whole]
    rfl
  obtain ⟨output, scanned, rows⟩ := command.scanLoaded_selects emitsRow compiledFor content block
    (List.forall_mem_nil _) (by decide) scannedWhole
  refine ⟨output, next, ?_, remains, rows⟩
  rw [execute_of_loads (candidates?_of_scan scan input) loads, scanned]

/-- A step over stored blocks gives the selected rows of its input. -/
theorem execute_step_selects (step : command.column.isScan = false) {rows : List RowIndex}
    (inside : ∀ row ∈ rows, row.toNat < logicalBlockRows) (listed : rows.length ≤ maxRows)
    (sorted : rows.Pairwise (· ≤ ·)) :
    ∃ output next,
      command.execute source state block (some (.ofRows rows)) = (.ok output, next) ∧
      good next ∧ output.rows = rows.filter (command.selects content block) := by
  by_cases empty : rows = []
  · subst empty
    exact ⟨{ block }, state, execute_of_none (if_neg (Bool.eq_false_iff.mp step)), valid, rfl⟩
  · have notFull : command.column.isScan = true → RowMap.ofRows rows = 0xFFFF :=
      fun scan => absurd (step.symm.trans scan) Bool.false_ne_true
    have served := served_loadPlan serves valid notFull
    obtain ⟨loaded, next, loads, remains, bytes⟩ := served.run valid
    have whole := scanBlock_loaded served.layout rfl empty inside
      (fun row member => RowMap.hasBit_of_mem member (inside row member)) bytes
    obtain ⟨output, scanned, selected⟩ :=
      command.scanLoaded_selects emitsRow compiledFor content block inside listed whole
    rw [rowsToVisit_eq_of_sorted empty sorted] at selected
    refine ⟨output, next, ?_, remains, selected⟩
    rw [execute_of_loads (candidates?_of_step step empty) loads]
    exact congrArg (·, next) scanned

end Stored

end ColumnCommand

/-- A column in a chain: its command, the logical block and where to read it. -/
structure ChainLink (σ : Type) where
  command : ColumnCommand
  source : BlockSource σ
  block : BlockRef

namespace ChainLink

variable {σ : Type}

/-- Run the command over all rows. -/
def scan (link : ChainLink σ) (state : σ) : Except ScanError StepOutput × σ :=
  (link.command.withRole true).execute link.source state link.block none

/-- Run the command over the rows of the input. -/
def step (link : ChainLink σ) (state : σ) (input : StepInput) : Except ScanError StepOutput × σ :=
  (link.command.withRole false).execute link.source state link.block (some input)

/-- Scan the first column and give what it leaves to the second. -/
def feed (first second : ChainLink σ) (state : σ) : Except ScanError StepOutput × σ :=
  match first.scan state with
  | (.error error, state) => (.error error, state)
  | (.ok output, state) => second.step state output.asInput

/-- The blocks of the column are stored, its filter is one that was compiled for it, and its rows are
emitted. -/
structure Stored (link : ChainLink σ) (good : σ → Prop) (content : Nat → PhysicalBlock) : Prop where
  emitsRow : link.command.column.output.emitsRow = true
  compiledFor : link.command.filter.CompiledFor link.command.column
  serves : link.source.Serves good content
    ((List.range link.command.column.width).map (link.block.firstBlock + ·))

/-- Whether the column selects a row. -/
def selects (link : ChainLink σ) (content : Nat → PhysicalBlock) (row : RowIndex) : Bool :=
  link.command.selects content link.block row

section Stored

variable {first second : ChainLink σ} {good : σ → Prop}
  {firstContent secondContent : Nat → PhysicalBlock}

theorem feed_selects (firstStored : first.Stored good firstContent)
    (secondStored : second.Stored good secondContent) {state : σ} (valid : good state) :
    ∃ output next, first.feed second state = (.ok output, next) ∧
      output.rows = logicalRows.filter fun row =>
        first.selects firstContent row && second.selects secondContent row := by
  obtain ⟨left, between, scanned, stays, leftRows⟩ :=
    (first.command.withRole true).execute_scan_selects firstStored.emitsRow
      (firstStored.compiledFor.withRole true) firstStored.serves valid rfl none
  have input : left.asInput = .ofRows left.rows :=
    ColumnCommand.asInput_of_execute _ _ _ _ _ (congrArg Prod.fst scanned)
  have some : left.rows.Sublist logicalRows := by
    rw [leftRows]
    exact List.filter_sublist
  have inside : ∀ row ∈ left.rows, row.toNat < logicalBlockRows := fun row member =>
    (mem_range_rows_iff logicalBlockRows_le_maxRows).mp (some.subset member)
  have listed : left.rows.length ≤ maxRows := by
    have fewer := some.length_le
    rw [logicalRows, List.length_map, List.length_range] at fewer
    exact Nat.le_trans fewer logicalBlockRows_le_maxRows
  have sorted : left.rows.Pairwise (· ≤ ·) :=
    ((pairwise_lt_range_rows logicalBlockRows_le_maxRows).sublist some).imp UInt16.le_of_lt
  obtain ⟨output, next, stepped, _, rows⟩ :=
    (second.command.withRole false).execute_step_selects secondStored.emitsRow
      (secondStored.compiledFor.withRole false) secondStored.serves stays rfl inside listed sorted
  refine ⟨output, next, ?_, ?_⟩
  · simp only [feed, scan, scanned, input]
    exact stepped
  · rw [rows, leftRows, List.filter_filter]
    exact List.filter_congr fun row _ => Bool.and_comm _ _

/-- A chain of two columns whose blocks are stored, whose filters were compiled for them and whose
rows are emitted finds, in ascending order, the rows that both columns select, and the other chain
finds the same rows. What is passed on between commands always
has the row map of its rows. -/
theorem feed_intersects (firstStored : first.Stored good firstContent)
    (secondStored : second.Stored good secondContent) {state otherState : σ} (valid : good state)
    (otherValid : good otherState) :
    (∃ output next otherOutput otherNext,
      first.feed second state = (.ok output, next) ∧
      second.feed first otherState = (.ok otherOutput, otherNext) ∧
      otherOutput.rows = output.rows ∧
      output.rows.Pairwise (· < ·) ∧
      ∀ row, row ∈ output.rows ↔ row.toNat < logicalBlockRows ∧
        first.selects firstContent row = true ∧ second.selects secondContent row = true) ∧
    ∀ (command : ColumnCommand) (source : BlockSource σ) (before : σ) (block : BlockRef)
      (input : Option StepInput) (output : StepOutput),
      (command.execute source before block input).1 = .ok output →
        output.asInput = .ofRows output.rows := by
  constructor
  · obtain ⟨output, next, fed, rows⟩ := feed_selects firstStored secondStored valid
    obtain ⟨otherOutput, otherNext, otherFed, otherRows⟩ :=
      feed_selects secondStored firstStored otherValid
    refine ⟨output, next, otherOutput, otherNext, fed, otherFed, ?_, ?_, fun row => ?_⟩
    · rw [rows, otherRows]
      exact List.filter_congr fun row _ => Bool.and_comm _ _
    · rw [rows]
      exact (pairwise_lt_range_rows logicalBlockRows_le_maxRows).filter _
    · rw [rows, List.mem_filter, Bool.and_eq_true, logicalRows,
        mem_range_rows_iff logicalBlockRows_le_maxRows]
  · exact fun command source before block input _ executed =>
      command.asInput_of_execute source before block input executed

/-- The order of two columns of one store does not matter, nor what is cached. -/
theorem feed_intersects_zeros :
    let zeros : PhysicalBlock := ⟨Array.replicate physicalBlockSize 0, Array.size_replicate⟩
    let store : MemoryStore := { blocks := [(0, zeros), (100, zeros), (101, zeros)] }
    let warmed := { store with warm := [0] }
    ∃ filter, CompiledFilter.compile (predicateRecords [{ operator := .less, value := [9] }]) 1
        .tinyInt 1 .none = .ok filter ∧ ∃ lanes_eq,
      let narrow : ChainLink MemoryStore :=
        { command :=
            { column := { width := 1, logicalType := .tinyInt, output := .row }
              filter
              config := {}
              scanConfig := {}
              supported := rfl
              lanes_eq }
          source := MemoryStore.source
          block := ⟨0, 0⟩ }
      let wide : ChainLink MemoryStore :=
        { command :=
            { column := { width := 2, logicalType := .smallInt, output := .both }
              filter := .alwaysTrue 2
              config := {}
              scanConfig := {}
              supported := rfl
              lanes_eq := rfl }
          source := MemoryStore.source
          block := ⟨100, 0⟩ }
      ∃ output next otherOutput otherNext,
        narrow.feed wide store = (.ok output, next) ∧
        wide.feed narrow warmed = (.ok otherOutput, otherNext) ∧
        otherOutput.rows = output.rows ∧ 7 ∈ output.rows := by
  intro zeros store warmed
  have compiled : CompiledFilter.compile
      (predicateRecords [{ operator := .less, value := [9] }]) 1 .tinyInt 1 .none = .ok _ := rfl
  refine ⟨_, compiled, rfl, ?_⟩
  intro narrow wide
  have narrowStored : narrow.Stored (fun state => state.blocks = store.blocks) store.content :=
    ⟨rfl, .compiled compiled, store.serves (by decide)⟩
  have wideStored : wide.Stored (fun state => state.blocks = store.blocks) store.content :=
    ⟨rfl, .alwaysTrue, store.serves (by decide)⟩
  have valid : store.blocks = store.blocks := rfl
  have otherValid : warmed.blocks = store.blocks := rfl
  obtain ⟨⟨output, next, otherOutput, otherNext, fed, otherFed, same, _, mem⟩, _⟩ :=
    feed_intersects narrowStored wideStored valid otherValid
  refine ⟨output, next, otherOutput, otherNext, fed, otherFed, same, ?_⟩
  refine (mem 7).mpr ⟨by decide, ?_, ?_⟩
  · decide +kernel
  · decide +kernel

end Stored

end ChainLink

end ColumnScan
