import ColumnScan.Proofs.Command.Chaining

/-!
# Outputs are aligned

A command decodes the entries of an answer into lists. All of them speak of the same rows in the same
order: a row index, its place in the column and its stored value stand at the same position, and the
row map has the runs of these rows.
-/

set_option autoImplicit false

namespace ColumnScan

variable {σ : Type}

/-- The output is about these rows of a logical block. -/
structure StepOutput.Aligned (output : StepOutput) (command : ColumnCommand) (bytes : Array UInt8)
    (emitted : List RowIndex) : Prop where
  length_eq : output.length = emitted.length
  rows_eq : output.rows = if command.column.output.emitsRow then emitted else []
  absoluteRows_eq : output.absoluteRows =
    if command.config.absoluteRows then
      output.rows.map fun row => output.block.firstRow + row.toNat
    else []
  values_eq : output.values =
    if command.column.output.emitsValue ∧ command.column.width ≠ 16 then
      emitted.map fun row => command.column.word (cell bytes command.column.width row.toNat)
    else []
  wideValues_eq : output.wideValues =
    if command.column.output.emitsValue ∧ command.column.width = 16 then
      emitted.map fun row => LittleEndian.intValue (cell bytes command.column.width row.toNat)
    else []
  hasBit_iff : ∀ bit, output.rowMap.hasBit bit = true ↔
    ∃ row ∈ output.rows, row.toNat / RowMap.rowsPerBit = bit

namespace ColumnCommand

section Decoded

variable {command : ColumnCommand} {bytes : Array UInt8} {answer : ScanAnswer}
  {emitted : List RowIndex} (emits : answer.Emits command.column bytes emitted)
  (inside : ∀ row ∈ emitted, row.toNat < logicalBlockRows)

include emits inside

/-- Rows and values that are those of the matches of an answer are aligned like these. -/
theorem aligned_of_shows {output : StepOutput} (shows : output.Shows command answer) :
    output.Aligned command bytes emitted := by
  have rows : (answer.entries command.column.output command.column.width).filterMap Entry.row =
      if command.column.output.emitsRow then emitted else [] := by
    rw [emits.entries_eq]
    exact filterMap_row_ofRow command.column bytes emitted
  have values : (answer.entries command.column.output command.column.width).filterMap Entry.value =
      if command.column.output.emitsValue then
        emitted.map fun row => cell bytes command.column.width row.toNat
      else [] := by
    rw [emits.entries_eq]
    exact filterMap_value_ofRow command.column bytes emitted
  -- In the order of the fields; of the two lists of values the width decides which is filled.
  constructor
  · rw [StepOutput.length, shows.header_eq]
    exact emits.matchedRows_eq
  · rw [shows.rows_eq, rows]
  · exact shows.absoluteRows_eq
  · rw [shows.values_eq, values]
    by_cases wide : command.column.width = 16
    · simp only [wide, ne_eq, not_true_eq_false, and_false, ↓reduceIte]
    · cases command.column.output.emitsValue with
      | false => simp only [wide, ↓reduceIte, List.map_nil, Bool.false_eq_true, false_and]
      | true =>
          simp only [wide, ↓reduceIte, ne_eq, not_false_eq_true, and_self, List.map_map,
            Function.comp_def]
  · rw [shows.wideValues_eq, values]
    by_cases wide : command.column.width = 16
    · cases command.column.output.emitsValue with
      | false => simp only [wide, ↓reduceIte, List.map_nil, Bool.false_eq_true, false_and]
      | true => simp only [wide, ↓reduceIte, and_self, List.map_map, Function.comp_def]
    · simp only [wide, and_false, ↓reduceIte]
  · intro bit
    rw [shows.rowMap_eq, shows.rows_eq, rows]
    refine (emits.hasBit_iff bit).trans ?_
    cases command.column.output.emitsRow with
    | false => simp only [Bool.false_eq_true, ↓reduceIte, false_and, List.not_mem_nil, exists_const]
    | true =>
        simp only [↓reduceIte, true_and]
        refine exists_congr fun row => and_congr_right fun member => ?_
        rw [RowMap.bitOf_eq_div (inside row member)]

end Decoded

theorem aligned_nothing (command : ColumnCommand) (block : BlockRef) (bytes : Array UInt8) :
    StepOutput.Aligned { block } command bytes [] := by
  refine ⟨rfl, ?_, ?_, ?_, ?_, fun bit => ?_⟩
  · exact (ite_self []).symm
  · exact (ite_self []).symm
  · exact (ite_self []).symm
  · exact (ite_self []).symm
  · refine iff_of_false (Bool.eq_false_iff.mp (Nat.zero_testBit bit)) ?_
    rintro ⟨row, member, _⟩
    cases member

theorem exists_emits_of_scanLoaded {command : ColumnCommand} {block : BlockRef}
    {rows : List RowIndex} {loaded : Loaded} {output : StepOutput}
    (size : loaded.bytes.size = logicalBlockRows * command.column.width)
    (listed : rows.length ≤ maxRows)
    (scanned : command.scanLoaded block rows loaded = .ok output) :
    ∃ answer emitted, output.block = block ∧
      scanBlock command.column command.filter loaded.bytes rows (command.capacity rows)
        command.scanConfig = .ok answer ∧
      answer.Emits command.column loaded.bytes emitted ∧ output.Shows command answer ∧
      emitted.Sublist (rowsToVisit logicalBlockRows rows) ∧
      ∀ row ∈ emitted, row.toNat < logicalBlockRows := by
  obtain ⟨answer, answered, decoded⟩ := bind_eq_ok scanned
  cases decoded
  obtain ⟨rowCount, emitted, counted, below, visited, emits⟩ :=
    exists_emits_of_scanBlock answered listed
  have positive : 0 < command.column.width := command.width_pos
  obtain rfl : logicalBlockRows = rowCount :=
    Nat.eq_of_mul_eq_mul_right positive (size.symm.trans counted)
  exact ⟨answer, emitted, rfl, answered, emits, command.shows_decodeAnswer block answer _ _, visited,
    below⟩

/-- The rows that a command visits in a logical block. -/
def visitedRows (command : ColumnCommand) (input : Option StepInput) : List RowIndex :=
  match command.candidates? input with
  | none => []
  | some (rows, _) => rowsToVisit logicalBlockRows rows

/-- An output is about the rows that a scan of the given bytes emits, or about none if the command has
nothing to scan. -/
def Finds (command : ColumnCommand) (input : Option StepInput) (bytes : Array UInt8)
    (emitted : List RowIndex) (output : StepOutput) : Prop :=
  match command.candidates? input with
  | none => emitted = []
  | some (rows, _) => ∃ answer,
      scanBlock command.column command.filter bytes rows (command.capacity rows)
        command.scanConfig = .ok answer ∧
      answer.Emits command.column bytes emitted ∧ output.Shows command answer

theorem cell_zeros {width place : Nat} (layout : width ∈ layoutWidths)
    (inside : place < physicalBlockRows width) :
    cell PhysicalBlock.zeros.bytes width place = List.replicate width 0 := by
  have size := physicalBlockRows_mul_width layout
  have before : (place + 1) * width ≤ physicalBlockRows width * width :=
    Nat.mul_le_mul_right width inside
  rw [Nat.succ_mul] at before
  rw [cell_eq_take_drop]
  simp only [PhysicalBlock.zeros, List.drop_replicate, List.take_replicate]
  rw [Nat.min_eq_left (by omega)]

/-- A row that is not in a block that was read is EMPTY if it lies behind the last block, in a scan;
in a step it is zero, and none of the row map. -/
theorem stored_of_passesOver {command : ColumnCommand} {block : BlockRef}
    {input : Option StepInput} {rows : List RowIndex} {rowMap : RowMap} {lastBlock : Option Nat}
    (candidates : command.candidates? input = some (rows, rowMap)) {pair : SentinelPair}
    (wellFormed : pair.WellFormed command.column.width) {row : RowIndex}
    (inside : row.toNat < logicalBlockRows)
    (passed : (command.loadPlan block rowMap lastBlock).passesOver
      (row.toNat / physicalBlockRows command.column.width) = true) :
    let plan := command.loadPlan block rowMap lastBlock
    let index := row.toNat / physicalBlockRows command.column.width
    (command.column.isScan = true ∧ (∃ last ∈ lastBlock, last < block.firstBlock + index) ∧
      cell (plan.standIn wellFormed).bytes command.column.width
        (row.toNat % physicalBlockRows command.column.width) = pair.emptyBytes) ∨
    command.column.isScan = false ∧
      cell (plan.standIn wellFormed).bytes command.column.width
        (row.toNat % physicalBlockRows command.column.width) =
          List.replicate command.column.width 0 ∧
      ∀ given ∈ input, given.rowMap.hasBit (row.toNat / RowMap.rowsPerBit) = false := by
  intro plan index
  have place := Nat.mod_lt row.toNat (physicalBlockRows_pos wellFormed.width_mem)
  cases scan : command.column.isScan with
  | true =>
      have behind : plan.isPastLast index = true := by
        rw [← passed]
        exact (if_pos scan).symm
      refine .inl ⟨rfl, ?_, ?_⟩
      · unfold LoadPlan.isPastLast at behind
        split at behind
        · cases behind
        next last known =>
          simp only [Bool.and_eq_true, decide_eq_true_eq] at behind
          exact ⟨last, known, behind.2⟩
      · have standIn : plan.standIn wellFormed = wellFormed.emptyBlock := if_pos scan
        rw [standIn]
        exact wellFormed.cell_emptyBlock place
  | false =>
      have standIn : plan.standIn wellFormed = .zeros := if_neg (Bool.eq_false_iff.mp scan)
      refine .inr ⟨rfl, ?_, fun given member => ?_⟩
      · rw [standIn]
        exact cell_zeros wellFormed.width_mem place
      obtain ⟨other, _⟩ | ⟨_, _, rfl⟩ := candidates?_cases candidates
      · cases scan.symm.trans other
      · cases member
        have untouched : (!rowMap.touches command.column.width index) = true := by
          rw [← passed]
          exact (if_neg (Bool.eq_false_iff.mp scan)).symm
        refine Bool.eq_false_iff.mpr fun mapped => ?_
        rw [RowMap.touches_of_hasBit wellFormed.width_mem inside mapped] at untouched
        cases untouched

/-- A command runs as it does without the log of its reads. If a scan succeeds, or a step with a list
of rows that can be counted, all parts of the output are about the same rows in the same order: those
that the scan emits, which are some of those that the command visits. Their stored values are in
blocks that the source gave; only a scan past the last block finds EMPTY rows without a read, and only
a step whose row map lacks the row looks at a block that it did not read, which is all zeros. -/
theorem execute_aligned (command : ColumnCommand) (source : BlockSource σ) (state : σ)
    (block : BlockRef) (input : Option StepInput)
    (listed : command.column.isScan = false → ∀ given ∈ input, given.rows.length ≤ maxRows) :
    let run := command.execute source.logging (state, []) block input
    let reads := run.2.2
    let width := command.column.width
    command.execute source state block input = (run.1, run.2.1) ∧
    (∀ read ∈ reads, source.Gives read) ∧
    ∀ output, run.1 = .ok output →
      ∃ bytes emitted, output.block = block ∧ emitted.Sublist (command.visitedRows input) ∧
        command.Finds input bytes emitted output ∧ output.Aligned command bytes emitted ∧
        ∀ row ∈ emitted,
          let number := block.firstBlock + row.toNat / physicalBlockRows width
          let stored := cell bytes width row.toNat
          row.toNat < logicalBlockRows ∧
          ((∃ fetched, ⟨number, .ok fetched⟩ ∈ reads ∧
              stored = cell fetched.block.bytes width (row.toNat % physicalBlockRows width)) ∨
            (command.column.isScan = true ∧ (∃ last ∈ source.lastBlock state, last < number) ∧
              ∃ pair, command.column.sentinels = .ok pair ∧ stored = pair.emptyBytes) ∨
            command.column.isScan = false ∧ stored = List.replicate width 0 ∧
              ∀ given ∈ input, given.rowMap.hasBit (row.toNat / RowMap.rowsPerBit) = false) := by
  intro run reads width
  have transparent := command.execute_logging source (state, []) block input
  refine ⟨transparent.symm, ?_⟩
  obtain ⟨pair, found⟩ :=
    Option.isSome_iff_exists.mp (LogicalType.isSome_sentinels? command.supported)
  have layout := ColumnDescriptor.width_mem_layoutWidths command.supported
  cases candidates : command.candidates? input with
  | none =>
      simp only [run, reads, execute_of_none candidates]
      refine ⟨nofun, fun output succeeded => ?_⟩
      cases succeeded
      refine ⟨#[], [], rfl, List.nil_sublist _, ?_, command.aligned_nothing block _, nofun⟩
      rw [Finds, candidates]
  | some pieces =>
      obtain ⟨rows, rowMap⟩ := pieces
      have visits : command.visitedRows input = rowsToVisit logicalBlockRows rows := by
        rw [visitedRows, candidates]
      obtain ⟨next, log, gives, ⟨error, executed, _⟩ |
        ⟨loaded, content, executed, numbers, answers, delivers, bytes, stands⟩⟩ :=
        command.execute_cases source state block candidates found
      · simp only [run, reads, executed]
        exact ⟨gives, nofun⟩
      · simp only [run, reads, executed]
        refine ⟨gives, fun output succeeded => ?_⟩
        have few : rows.length ≤ maxRows := by
          obtain ⟨_, rfl⟩ | ⟨step, _, rfl⟩ := candidates?_cases candidates
          · decide
          · exact listed step _ rfl
        have size := size_logicalBlock content block.firstBlock command.column.width
        rw [← bytes] at size
        obtain ⟨answer, emitted, same, answered, emits, shows, visited, below⟩ :=
          exists_emits_of_scanLoaded size few succeeded
        have finds : command.Finds input loaded.bytes emitted output := by
          rw [Finds, candidates]
          exact ⟨answer, answered, emits, shows⟩
        refine ⟨loaded.bytes, emitted, same, visits ▸ visited, finds,
          aligned_of_shows emits below shows, fun row member => ?_⟩
        have inside := below row member
        refine ⟨inside, ?_⟩
        have wellFormed := LogicalType.wellFormed_of_sentinels? found
        obtain read | ⟨passed, stored⟩ :=
          LoadPlan.stored_cases wellFormed numbers answers delivers stands inside
        · rw [bytes]
          exact .inl read
        · rw [bytes]
          obtain ⟨scan, behind, empty⟩ | ⟨step, zero, unmapped⟩ :=
            stored_of_passesOver candidates wellFormed inside passed
          · exact .inr (.inl ⟨scan, behind, pair, LogicalType.sentinels_eq_ok_iff.mpr found,
              stored.trans empty⟩)
          · exact .inr (.inr ⟨step, stored.trans zero, unmapped⟩)

/-- A step over two rows in the second half of a logical block of zeros. -/
theorem execute_aligned_smallInt :
    let column : ColumnDescriptor :=
      { width := 2, logicalType := .smallInt, output := .both, isScan := false }
    let command : ColumnCommand :=
      { column
        filter := .alwaysTrue 2
        config := {}
        scanConfig := {}
        supported := rfl
        lanes_eq := rfl }
    let store : MemoryStore := { blocks := [(1, .zeros), (0, .zeros)] }
    let block : BlockRef := { firstBlock := 0, firstRow := 70000 }
    let input := StepInput.ofRows [4096, 5000]
    let run := command.execute MemoryStore.source.logging (store, []) block (some input)
    input.rows.length ≤ maxRows ∧ ∃ output, run.1 = .ok output ∧
      output.rows = [4096, 5000] ∧ output.length = 2 ∧
      output.absoluteRows = [74096, 75000] := by
  intro column command store block input run
  have few : input.rows.length ≤ maxRows := by decide
  have inside : ∀ row ∈ input.rows, row.toNat < logicalBlockRows :=
    List.forall_mem_cons.mpr ⟨by decide, List.forall_mem_singleton.mpr (by decide)⟩
  have serves : MemoryStore.source.Serves (fun state => state.blocks = store.blocks) store.content
      ((List.range command.column.width).map (block.firstBlock + ·)) :=
    store.serves (by decide)
  obtain ⟨output, next, executed, _, selected⟩ := command.execute_step_selects rfl .alwaysTrue
    serves rfl rfl inside few (by decide)
  obtain ⟨transparent, _, aligns⟩ := command.execute_aligned MemoryStore.source store block
    (some input) fun _ given member => by cases member; exact few
  have succeeded : run.1 = .ok output := by
    rw [← congrArg Prod.fst transparent]
    exact congrArg Prod.fst executed
  obtain ⟨bytes, emitted, same, _, _, aligned, _⟩ := aligns output succeeded
  have second : ∀ row ∈ input.rows, row.toNat / physicalBlockRows 2 = 1 :=
    List.forall_mem_cons.mpr ⟨by decide, List.forall_mem_singleton.mpr (by decide)⟩
  have both : ∀ row ∈ input.rows, command.selects store.content block row = true := by
    intro row member
    have zeros : store.content (0 + row.toNat / physicalBlockRows 2) = .zeros := by
      rw [second row member]
      rfl
    have stored : cell (logicalBlock store.content 0 2) 2 row.toNat = [0, 0] := by
      rw [cell_logicalBlock (by decide) store.content 0 (inside row member), zeros]
      exact cell_zeros (by decide) (Nat.mod_lt _ (by decide))
    change column.selects _ _ (cell (logicalBlock store.content 0 2) 2 row.toNat) = true
    rw [stored]
    rfl
  have rows : output.rows = [4096, 5000] := selected.trans (List.filter_eq_self.mpr both)
  have shown : emitted = [4096, 5000] := aligned.rows_eq.symm.trans rows
  refine ⟨few, output, succeeded, rows, ?_, ?_⟩
  · rw [aligned.length_eq, shown]
    rfl
  · rw [aligned.absoluteRows_eq, same, rows]
    rfl

end ColumnCommand

end ColumnScan
