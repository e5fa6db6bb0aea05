import ColumnScan.Proofs.Command.DecodedOutput
import ColumnScan.Proofs.Command.LoadedBlocks
import ColumnScan.Proofs.Scan.Locality

/-!
# Steps read only the blocks of their rows

A step reads the physical blocks that its row map touches and leaves zeros for the others. Its scan
looks at listed rows only, and the blocks of these are all touched, so it finds what it would find in
the whole logical block.
-/

set_option autoImplicit false

namespace ColumnScan

variable {σ : Type}

namespace LoadPlan

/-- The blocks to read among those at some positions, by number. -/
def neededBlocks (plan : LoadPlan) (indices : List Nat) : List Nat :=
  (indices.filter (plan.rowMap.touches plan.width)).map (plan.firstBlock + ·)

/-- What is loaded for the block at a position. -/
def piece (plan : LoadPlan) (content : Nat → PhysicalBlock) (index : Nat) : Bytes :=
  if plan.rowMap.touches plan.width index then (content (plan.firstBlock + index)).bytes.toList
  else List.replicate physicalBlockSize 0

theorem length_piece (plan : LoadPlan) (content : Nat → PhysicalBlock) (index : Nat) :
    (plan.piece content index).length = physicalBlockSize := by
  unfold piece
  split
  · rw [Array.length_toList, PhysicalBlock.size_eq]
  · exact List.length_replicate

/-- A plan that reads by its row map. -/
structure ForStep (plan : LoadPlan) : Prop where
  not_scan : plan.isScan = false
  layout : plan.width ∈ layoutWidths

section Step

variable {plan : LoadPlan} (forStep : plan.ForStep)

include forStep

theorem ForStep.passesOver_eq (index : Nat) :
    plan.passesOver index = !plan.rowMap.touches plan.width index :=
  if_neg (Bool.eq_false_iff.mp forStep.not_scan)

theorem ForStep.readBlocks_eq (indices : List Nat) :
    plan.readBlocks indices = plan.neededBlocks indices := by
  simp only [readBlocks, neededBlocks, forStep.passesOver_eq, Bool.not_not]

theorem ForStep.bytes_given {pair : SentinelPair} (wellFormed : pair.WellFormed plan.width)
    (content : Nat → PhysicalBlock) (index : Nat) :
    (plan.given wellFormed content index).bytes.toList = plan.piece content index := by
  unfold given piece standIn
  rw [forStep.passesOver_eq, forStep.not_scan]
  cases plan.rowMap.touches plan.width index with
  | false => exact Array.toList_replicate
  | true => rfl

end Step

end LoadPlan

theorem LoadPlan.nodup_neededBlocks (plan : LoadPlan) :
    (plan.neededBlocks (List.range plan.width)).Nodup :=
  nodup_map_filter_range plan.firstBlock plan.width _

namespace ColumnCommand

section Step

variable {command : ColumnCommand} {rows : List RowIndex} {rowMap : RowMap}

/-- The rows of a step have the same values in what was loaded as in the whole logical block. -/
theorem scanBlock_loaded {plan : LoadPlan} (layout : plan.width ∈ layoutWidths)
    (width : plan.width = command.column.width) (nonempty : rows ≠ [])
    (inside : ∀ row ∈ rows, row.toNat < logicalBlockRows)
    (mapped : ∀ row ∈ rows, plan.rowMap.hasBit (row.toNat / RowMap.rowsPerBit) = true)
    {content : Nat → PhysicalBlock} {loaded : Loaded}
    (bytes : loaded.bytes.toList = (List.range plan.width).flatMap (plan.piece content)) :
    scanBlock command.column command.filter loaded.bytes rows (command.capacity rows)
        command.scanConfig =
      scanBlock command.column command.filter
        (logicalBlock content plan.firstBlock command.column.width) rows (command.capacity rows)
        command.scanConfig := by
  have whole : ∀ index,
      (content (plan.firstBlock + index)).bytes.toList.length = physicalBlockSize :=
    fun index => PhysicalBlock.size_eq _
  have array : loaded.bytes = ((List.range plan.width).flatMap (plan.piece content)).toArray :=
    Array.toList_inj.mp bytes
  refine scanBlock_congr command.filter _ command.scanConfig ?_ nonempty fun row member => ?_
  · rw [array, logicalBlock, ← width, List.size_toArray, List.size_toArray,
      length_flatMap_pieces (plan.length_piece content), length_flatMap_pieces whole]
  · have touched := RowMap.touches_of_hasBit layout (inside row member) (mapped row member)
    rw [array, logicalBlock, ← width,
      cell_flatMap_pieces layout (plan.length_piece content) (inside row member),
      cell_flatMap_pieces layout whole (inside row member), LoadPlan.piece, if_pos touched]

/-- The numbers of the physical blocks that hold a row run of the map, in ascending order. -/
def neededBlocks (command : ColumnCommand) (block : BlockRef) (rowMap : RowMap) : List Nat :=
  ((List.range command.column.width).filter (rowMap.touches command.column.width)).map
    (block.firstBlock + ·)

/-- What the scan of a whole logical block would answer to a step. -/
def scanWhole (command : ColumnCommand) (content : Nat → PhysicalBlock) (block : BlockRef)
    (rows : List RowIndex) : Except ScanError ScanAnswer :=
  scanBlock command.column command.filter
    (logicalBlock content block.firstBlock command.column.width) rows (command.capacity rows)
    command.scanConfig

/-- A step fails with a needed block, or reads all of them and then scans as if it had the whole
logical block. -/
theorem execute_step_cases (source : BlockSource σ) (state : σ) (block : BlockRef)
    (input : StepInput) (step : command.column.isScan = false) (nonempty : input.rows ≠ [])
    (inside : ∀ row ∈ input.rows, row.toNat < logicalBlockRows)
    (mapped : ∀ row ∈ input.rows,
      input.rowMap.hasBit (row.toNat / RowMap.rowsPerBit) = true) :
    ∃ next reads, (∀ read ∈ reads, source.Gives read) ∧
      ((∃ error, command.execute source.logging (state, []) block (some input) =
          (.error error, next, reads) ∧
        ∃ failed ∈ reads, failed.number ∈ command.neededBlocks block input.rowMap ∧
          failed.answer = .error error) ∨
      ∃ loaded, command.execute source.logging (state, []) block (some input) =
          (command.scanLoaded block input.rows loaded, next, reads) ∧
        reads.map BlockRead.number = command.neededBlocks block input.rowMap ∧
        (∀ read ∈ reads, ∃ fetched, read.answer = .ok fetched) ∧
        ∀ content, Delivers reads content →
          scanBlock command.column command.filter loaded.bytes input.rows
              (command.capacity input.rows) command.scanConfig =
            command.scanWhole content block input.rows) := by
  let plan := command.loadPlan block input.rowMap (source.logging.lastBlock (state, []))
  have forStep : plan.ForStep :=
    ⟨step, ColumnDescriptor.width_mem_layoutWidths command.supported⟩
  have candidates := candidates?_of_step step nonempty
  obtain ⟨pair, found⟩ :=
    Option.isSome_iff_exists.mp (LogicalType.isSome_sentinels? command.supported)
  have walk := plan.loadBlocks_cases found source (List.range plan.width)
    (fun index member => List.mem_range.mp member) {} state []
  simp only [forStep.readBlocks_eq, forStep.bytes_given, List.nil_append] at walk
  obtain ⟨next, reads, gives,
    ⟨error, loads, failed⟩ | ⟨loaded, loads, numbers, answers, bytes⟩⟩ := walk
  · exact ⟨next, reads, gives, .inl ⟨error, execute_of_loads_failed candidates loads, failed⟩⟩
  · refine ⟨next, reads, gives, .inr ⟨loaded, execute_of_loads candidates loads, numbers, answers,
      fun content delivers => ?_⟩⟩
    exact scanBlock_loaded forStep.layout rfl nonempty inside mapped (bytes content delivers)

/-- A step with rows runs as it does without the log of its reads. If it succeeds, it has read every
block that its row map touches once and no other, and it answers what a scan of the whole logical
block answers, the counts of reads apart: its rows and values are those of the matches of this
answer. If it fails, a touched block could not be read, or all of
them were and the scan of the whole logical block fails. -/
theorem execute_selective (command : ColumnCommand) (source : BlockSource σ) (state : σ)
    (block : BlockRef) (input : StepInput) (step : command.column.isScan = false)
    (nonempty : input.rows ≠ []) (inside : ∀ row ∈ input.rows, row.toNat < logicalBlockRows)
    (mapped : ∀ row ∈ input.rows,
      input.rowMap.hasBit (row.toNat / RowMap.rowsPerBit) = true) :
    let run := command.execute source.logging (state, []) block (some input)
    let reads := run.2.2
    let needed := command.neededBlocks block input.rowMap
    command.execute source state block (some input) = (run.1, run.2.1) ∧
    (∀ read ∈ reads, source.Gives read) ∧
    (∀ output, run.1 = .ok output →
      reads.map BlockRead.number = needed ∧
      (∃ content, Delivers reads content) ∧
      ∀ content, Delivers reads content →
        ∃ answer, command.scanWhole content block input.rows = .ok answer ∧
          output.Shows command answer ∧
          output = command.decodeAnswer block
            { answer with
              header :=
                { answer.header with
                  cacheReads := output.header.cacheReads
                  physicalReads := output.header.physicalReads } }) ∧
    ∀ error, run.1 = .error error →
      (∃ failed ∈ reads, failed.number ∈ needed ∧ failed.answer = .error error) ∨
      reads.map BlockRead.number = needed ∧
        (∀ read ∈ reads, ∃ fetched, read.answer = .ok fetched) ∧
        ∀ content, Delivers reads content →
          command.scanWhole content block input.rows = .error error := by
  intro run reads needed
  have transparent := command.execute_logging source (state, []) block (some input)
  refine ⟨transparent.symm, ?_⟩
  obtain ⟨next, log, gives, ⟨error, executed, failed⟩ | ⟨loaded, executed, numbers, answers, whole⟩⟩ :=
    execute_step_cases source state block input step nonempty inside mapped
  · simp only [run, reads, executed]
    refine ⟨gives, nofun, fun other same => .inl ?_⟩
    cases same
    exact failed
  · simp only [run, reads, executed]
    refine ⟨gives, fun output succeeded => ⟨numbers, ?_, fun content delivers => ?_⟩,
      fun error failed => .inr ⟨numbers, answers, fun content delivers => ?_⟩⟩
    · have distinct := (command.loadPlan block input.rowMap none).nodup_neededBlocks
      exact exists_delivers (numbers ▸ distinct)
    · obtain ⟨answer, scanned, decoded⟩ := bind_eq_ok succeeded
      cases decoded
      exact ⟨answer, (whole content delivers).symm.trans scanned,
        command.shows_decodeAnswer block answer _ _, rfl⟩
    · rw [← whole content delivers]
      unfold scanLoaded at failed
      cases scanned : scanBlock command.column command.filter loaded.bytes input.rows
          (command.capacity input.rows) command.scanConfig with
      | error other =>
          rw [scanned] at failed
          cases failed
          rfl
      | ok answer =>
          rw [scanned] at failed
          cases failed

end Step

end ColumnCommand

end ColumnScan
