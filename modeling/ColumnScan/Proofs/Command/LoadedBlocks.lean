import ColumnScan.Proofs.Scan.Exactness
import ColumnScan.Proofs.Storage.ReadLog
import ColumnScan.Proofs.Storage.RowRuns

/-!
# What loading gives

A scan passes over the blocks behind the last one and a step over those without rows of its row map.
Loading reads all other blocks one after the other, and only a failed read can stop it. What it has
loaded is then a block for every position: the one that was read, or the one that stands for it.
-/

set_option autoImplicit false

namespace ColumnScan

variable {σ : Type}

section EmptyBlock

variable {pair : SentinelPair} {width : Nat}

def SentinelPair.WellFormed.emptyBlock (wellFormed : pair.WellFormed width) : PhysicalBlock where
  bytes := (List.replicate (physicalBlockRows width) pair.emptyBytes).flatten.toArray
  size_eq := by
    rw [List.size_toArray, length_flatten_uniform fun piece member =>
      List.eq_of_mem_replicate member ▸ wellFormed.length_emptyBytes, List.length_replicate]
    exact physicalBlockRows_mul_width wellFormed.width_mem

theorem SentinelPair.WellFormed.cell_emptyBlock (wellFormed : pair.WellFormed width) {row : Nat}
    (inside : row < physicalBlockRows width) :
    cell wellFormed.emptyBlock.bytes width row = pair.emptyBytes := by
  have uniform : ∀ piece ∈ List.replicate (physicalBlockRows width) pair.emptyBytes,
      piece.length = width :=
    fun piece member => List.eq_of_mem_replicate member ▸ wellFormed.length_emptyBytes
  have stored := cell_flatten uniform [] row (by rwa [List.length_replicate])
  rwa [List.append_nil, List.getElem_replicate] at stored

theorem emptyRows_eq_ok {logicalType : LogicalType}
    (found : logicalType.sentinels? width = some pair) :
    emptyRows width logicalType (physicalBlockRows width) =
      .ok (LogicalType.wellFormed_of_sentinels? found).emptyBlock.bytes.toList := by
  rw [emptyRows, LogicalType.sentinels_eq_ok_iff.mpr found]
  rfl

end EmptyBlock

def PhysicalBlock.zeros : PhysicalBlock :=
  ⟨(List.replicate physicalBlockSize 0).toArray, List.length_replicate⟩

namespace LoadPlan

/-- Whether the block at a position is not read. -/
def passesOver (plan : LoadPlan) (index : Nat) : Bool :=
  if plan.isScan then plan.isPastLast index else !plan.rowMap.touches plan.width index

/-- The blocks to read among those at some positions, by number. -/
def readBlocks (plan : LoadPlan) (indices : List Nat) : List Nat :=
  (indices.filter fun index => !plan.passesOver index).map (plan.firstBlock + ·)

section ReadBlocks

variable {plan : LoadPlan} {index : Nat}

theorem readBlocks_cons_of_passed (passed : plan.passesOver index = true) (rest : List Nat) :
    plan.readBlocks (index :: rest) = plan.readBlocks rest := by
  simp only [readBlocks, List.filter_cons, passed, Bool.not_true, Bool.false_eq_true, ↓reduceIte]

theorem readBlocks_cons_of_needed (needed : plan.passesOver index = false) (rest : List Nat) :
    plan.readBlocks (index :: rest) = (plan.firstBlock + index) :: plan.readBlocks rest := by
  simp only [readBlocks, List.filter_cons, needed, Bool.not_false, ↓reduceIte, List.map_cons]

end ReadBlocks

theorem nodup_map_filter_range (first count : Nat) (condition : Nat → Bool) :
    (((List.range count).filter condition).map (first + ·)).Nodup := by
  rw [List.Nodup, List.pairwise_map]
  refine (List.nodup_range.filter _).imp fun {left right} different same => different ?_
  exact Nat.add_left_cancel same

/-- What stands for a block that is not read: EMPTY rows in a scan and zeros in a step. -/
def standIn {pair : SentinelPair} (plan : LoadPlan) (wellFormed : pair.WellFormed plan.width) :
    PhysicalBlock :=
  if plan.isScan then wellFormed.emptyBlock else .zeros

/-- What is loaded for the block at a position. -/
def given {pair : SentinelPair} (plan : LoadPlan) (wellFormed : pair.WellFormed plan.width)
    (content : Nat → PhysicalBlock) (index : Nat) : PhysicalBlock :=
  if plan.passesOver index then plan.standIn wellFormed else content (plan.firstBlock + index)

section Found

variable (plan : LoadPlan) {pair : SentinelPair}
  (found : plan.logicalType.sentinels? plan.width = some pair)

include found

theorem loadBlock_eq (source : BlockSource σ) (loaded : Loaded) (state : σ) {index : Nat}
    (inside : index < plan.width) :
    plan.loadBlock source loaded state index =
      if plan.passesOver index then
        let standIn := plan.standIn (LogicalType.wellFormed_of_sentinels? found)
        (.ok { loaded with bytes := loaded.bytes ++ standIn.bytes }, state)
      else (source.load state (plan.firstBlock + index)).map (Except.map loaded.addFetched) id := by
  have wellFormed := LogicalType.wellFormed_of_sentinels? found
  have selected := blockSelected_eq_ok wellFormed.width_mem inside plan.rowMap
  cases scan : plan.isScan with
  | true =>
      simp only [loadBlock, passesOver, standIn, scan, Bool.true_and, ↓reduceIte,
        emptyRows_eq_ok found, Array.toArray_toList]
      cases plan.isPastLast index with
      | true => rfl
      | false => rcases source.load state (plan.firstBlock + index) with ⟨_ | _, next⟩ <;> rfl
  | false =>
      simp only [loadBlock, passesOver, standIn, scan, Bool.false_and, Bool.false_eq_true,
        ↓reduceIte, selected]
      cases plan.rowMap.touches plan.width index with
      | false => rfl
      | true => rcases source.load state (plan.firstBlock + index) with ⟨_ | _, next⟩ <;> rfl

theorem loadBlock_cases (source : BlockSource σ) (loaded : Loaded) (state : σ)
    (log : List BlockRead) {index : Nat} (inside : index < plan.width) :
    (plan.passesOver index = true ∧
      let standIn := plan.standIn (LogicalType.wellFormed_of_sentinels? found)
      plan.loadBlock source.logging loaded (state, log) index =
        (.ok { loaded with bytes := loaded.bytes ++ standIn.bytes }, state, log)) ∨
    (plan.passesOver index = false ∧ ∃ next answer,
      source.Gives ⟨plan.firstBlock + index, answer⟩ ∧
      plan.loadBlock source.logging loaded (state, log) index =
        (answer.map loaded.addFetched, next, log ++ [⟨plan.firstBlock + index, answer⟩])) := by
  rw [plan.loadBlock_eq found source.logging loaded (state, log) inside]
  cases plan.passesOver index with
  | true => exact .inl ⟨rfl, rfl⟩
  | false =>
      rcases read : source.load state (plan.firstBlock + index) with ⟨answer, next⟩
      refine .inr ⟨rfl, next, answer, ⟨state, congrArg Prod.fst read⟩, ?_⟩
      simp only [Bool.false_eq_true, ↓reduceIte, BlockSource.logging, read]
      rfl

/-- Loading reads its blocks one after the other. It fails with the first read that does, and
otherwise has every block. -/
theorem loadBlocks_cases (source : BlockSource σ) (indices : List Nat)
    (inside : ∀ index ∈ indices, index < plan.width) (loaded : Loaded) (state : σ)
    (log : List BlockRead) :
    ∃ next reads, (∀ read ∈ reads, source.Gives read) ∧
      ((∃ error, plan.loadBlocks source.logging indices loaded (state, log) =
          (.error error, next, log ++ reads) ∧
        ∃ failed ∈ reads, failed.number ∈ plan.readBlocks indices ∧
          failed.answer = .error error) ∨
      ∃ result, plan.loadBlocks source.logging indices loaded (state, log) =
          (.ok result, next, log ++ reads) ∧
        reads.map BlockRead.number = plan.readBlocks indices ∧
        (∀ read ∈ reads, ∃ fetched, read.answer = .ok fetched) ∧
        ∀ content, Delivers reads content →
          result.bytes.toList = loaded.bytes.toList ++ indices.flatMap fun index =>
            (plan.given (LogicalType.wellFormed_of_sentinels? found) content index).bytes.toList) := by
  -- The log is the list of all reads so far, so each case adds at most one read to its end.
  induction indices generalizing loaded state log with
  | nil =>
      refine ⟨state, [], nofun, .inr ⟨loaded, ?_, rfl, nofun, ?_⟩⟩
      · rw [List.append_nil]
        rfl
      · intro content _
        rw [List.flatMap_nil, List.append_nil]
  | cons index rest ih =>
      rw [List.forall_mem_cons] at inside
      rw [loadBlocks]
      obtain ⟨passed, stands⟩ | ⟨needed, next, error | fetched, gives, read⟩ :=
        plan.loadBlock_cases found source loaded state log inside.1
      · rw [stands, readBlocks_cons_of_passed passed]
        obtain ⟨last, reads, others, failed | ⟨result, loads, numbers, answers, bytes⟩⟩ :=
          ih inside.2 _ state log
        · exact ⟨last, reads, others, .inl failed⟩
        · refine ⟨last, reads, others,
            .inr ⟨result, loads, numbers, answers, fun content delivers => ?_⟩⟩
          rw [bytes content delivers, List.flatMap_cons, given, if_pos passed,
            Array.toList_append, List.append_assoc]
      · rw [read, readBlocks_cons_of_needed needed]
        exact ⟨next, _, List.forall_mem_singleton.mpr gives,
          .inl ⟨error, rfl, _, List.mem_singleton_self _, List.mem_cons_self, rfl⟩⟩
      · rw [read, readBlocks_cons_of_needed needed]
        obtain ⟨last, reads, others, ⟨error, loads, failed, member, number, answer⟩ |
          ⟨result, loads, numbers, answers, bytes⟩⟩ := ih inside.2 (loaded.addFetched fetched) next _
        · rw [← List.append_cons] at loads
          refine ⟨last, _, List.forall_mem_cons.mpr ⟨gives, others⟩,
            .inl ⟨error, loads, failed, ?_, ?_, answer⟩⟩
          · exact List.mem_cons_of_mem _ member
          · exact List.mem_cons_of_mem _ number
        · rw [← List.append_cons] at loads
          refine ⟨last, _, List.forall_mem_cons.mpr ⟨gives, others⟩,
            .inr ⟨result, loads, ?_, ?_, fun content delivers => ?_⟩⟩
          · rw [List.map_cons, numbers]
          · exact List.forall_mem_cons.mpr ⟨⟨fetched, rfl⟩, answers⟩
          · unfold Delivers at delivers
            rw [List.forall_mem_cons] at delivers
            obtain ⟨block, rest⟩ := delivers
            rw [bytes content rest, List.flatMap_cons, given, needed, if_neg Bool.false_ne_true,
              ← block fetched rfl, Loaded.addFetched, Array.toList_append, List.append_assoc]

end Found

end LoadPlan

/-- Rows of a logical block have a run of their own, unlike those beyond. -/
theorem RowMap.bitOf_eq_div {row : RowIndex} (inside : row.toNat < logicalBlockRows) :
    bitOf row = row.toNat / rowsPerBit := by
  refine Nat.min_eq_left ?_
  simp only [logicalBlockRows, rowsPerBit] at inside ⊢
  omega

/-- A logical block of which every physical block was read. -/
def logicalBlock (content : Nat → PhysicalBlock) (firstBlock width : Nat) : Array UInt8 :=
  ((List.range width).flatMap fun index => (content (firstBlock + index)).bytes.toList).toArray

section LogicalBlocks

variable {width : Nat} (layout : width ∈ layoutWidths) {pieces : Nat → Bytes}
  (uniform : ∀ index, (pieces index).length = physicalBlockSize)

include uniform

theorem length_flatMap_pieces :
    ((List.range width).flatMap pieces).length = width * physicalBlockSize := by
  have each : ∀ piece ∈ (List.range width).map pieces, piece.length = physicalBlockSize := by
    intro piece member
    obtain ⟨index, _, rfl⟩ := List.mem_map.mp member
    exact uniform index
  rw [List.flatMap_def, length_flatten_uniform each, List.length_map, List.length_range]

include layout

/-- The value of a row lies within one physical block. -/
theorem cell_flatMap_pieces {row : Nat} (inside : row < logicalBlockRows) :
    cell ((List.range width).flatMap pieces).toArray width row =
      cell (pieces (row / physicalBlockRows width)).toArray width (row % physicalBlockRows width) := by
  have size := physicalBlockRows_mul_width layout
  have index := div_physicalBlockRows_lt layout inside
  have each : ∀ piece ∈ (List.range width).map pieces,
      piece.length = physicalBlockRows width * width := by
    intro piece member
    obtain ⟨index, _, rfl⟩ := List.mem_map.mp member
    rw [uniform, size]
  have whole := cell_flatten each [] (row / physicalBlockRows width) (by simpa using index)
  rw [List.append_nil, ← List.flatMap_def, List.getElem_map, List.getElem_range] at whole
  have within := cell_cell ((List.range width).flatMap pieces).toArray width
    (row / physicalBlockRows width) (Nat.mod_lt row (physicalBlockRows_pos layout))
  rw [whole, Nat.div_add_mod'] at within
  exact within.symm

end LogicalBlocks

theorem cell_logicalBlock {width row : Nat} (layout : width ∈ layoutWidths)
    (content : Nat → PhysicalBlock) (firstBlock : Nat) (inside : row < logicalBlockRows) :
    cell (logicalBlock content firstBlock width) width row =
      cell (content (firstBlock + row / physicalBlockRows width)).bytes width
        (row % physicalBlockRows width) :=
  cell_flatMap_pieces layout (fun _ => PhysicalBlock.size_eq _) inside

theorem size_logicalBlock (content : Nat → PhysicalBlock) (firstBlock width : Nat) :
    (logicalBlock content firstBlock width).size = logicalBlockRows * width := by
  rw [logicalBlock, List.size_toArray, length_flatMap_pieces fun _ => PhysicalBlock.size_eq _]
  exact Nat.mul_comm _ _

namespace LoadPlan

section Found

variable {plan : LoadPlan} {pair : SentinelPair}

/-- What is loaded, by the number of the block. -/
def whole (plan : LoadPlan) (wellFormed : pair.WellFormed plan.width)
    (content : Nat → PhysicalBlock) (number : Nat) : PhysicalBlock :=
  plan.given wellFormed content (number - plan.firstBlock)

theorem whole_add (wellFormed : pair.WellFormed plan.width) (content : Nat → PhysicalBlock)
    (index : Nat) :
    plan.whole wellFormed content (plan.firstBlock + index) = plan.given wellFormed content index := by
  rw [whole, Nat.add_sub_cancel_left]

/-- What stands for unread blocks does not contradict the reads. -/
theorem delivers_whole (wellFormed : pair.WellFormed plan.width) {reads : List BlockRead}
    {indices : List Nat} (numbers : reads.map BlockRead.number = plan.readBlocks indices)
    {content : Nat → PhysicalBlock} (delivers : Delivers reads content) :
    Delivers reads (plan.whole wellFormed content) := by
  intro read member fetched answered
  have listed : read.number ∈ plan.readBlocks indices := numbers ▸ List.mem_map_of_mem member
  obtain ⟨index, needed, number⟩ := List.mem_map.mp listed
  have notPassed : plan.passesOver index = false := by
    simpa only [Bool.not_eq_true'] using (List.mem_filter.mp needed).2
  rw [delivers read member fetched answered, ← number, whole_add, given, notPassed]
  rfl

/-- Loading fails with a read, or it gives a logical block in which a block that was not read is the
one that stands for it. -/
theorem run_cases (plan : LoadPlan) (found : plan.logicalType.sentinels? plan.width = some pair)
    (source : BlockSource σ) (state : σ) :
    ∃ next reads, (∀ read ∈ reads, source.Gives read) ∧
      ((∃ error, plan.run source.logging (state, []) = (.error error, next, reads) ∧
        ∃ failed ∈ reads, failed.answer = .error error) ∨
      ∃ loaded content, plan.run source.logging (state, []) = (.ok loaded, next, reads) ∧
        reads.map BlockRead.number = plan.readBlocks (List.range plan.width) ∧
        (∀ read ∈ reads, ∃ fetched, read.answer = .ok fetched) ∧
        Delivers reads content ∧
        loaded.bytes = logicalBlock content plan.firstBlock plan.width ∧
        ∀ index, plan.passesOver index = true → content (plan.firstBlock + index) =
          plan.standIn (LogicalType.wellFormed_of_sentinels? found)) := by
  have wellFormed := LogicalType.wellFormed_of_sentinels? found
  obtain ⟨next, reads, gives,
    ⟨error, loads, failed, member, _, answer⟩ | ⟨loaded, loads, numbers, answers, bytes⟩⟩ :=
    plan.loadBlocks_cases found source (List.range plan.width)
      (fun index member => List.mem_range.mp member) {} state []
  · exact ⟨next, reads, gives, .inl ⟨error, loads, failed, member, answer⟩⟩
  · have distinct : (reads.map BlockRead.number).Nodup :=
      numbers ▸ nodup_map_filter_range plan.firstBlock plan.width _
    -- No block is read twice, so the answers of the source agree on one content.
    obtain ⟨content, delivers⟩ := exists_delivers distinct
    refine ⟨next, reads, gives, .inr ⟨loaded, plan.whole wellFormed content, loads, numbers,
      answers, delivers_whole wellFormed numbers delivers, ?_, fun index passed => ?_⟩⟩
    · refine Array.toList_inj.mp ((bytes content delivers).trans ?_)
      simp only [logicalBlock, whole_add]
      rfl
    · rw [whole_add, given, if_pos passed]

/-- A stored value lies in the block that was read for it, or in the one that stands for that. -/
theorem stored_cases (wellFormed : pair.WellFormed plan.width) {reads : List BlockRead}
    (numbers : reads.map BlockRead.number = plan.readBlocks (List.range plan.width))
    (answers : ∀ read ∈ reads, ∃ fetched, read.answer = .ok fetched)
    {content : Nat → PhysicalBlock} (delivers : Delivers reads content)
    (stands : ∀ index, plan.passesOver index = true →
      content (plan.firstBlock + index) = plan.standIn wellFormed)
    {row : Nat} (inside : row < logicalBlockRows) :
    let index := row / physicalBlockRows plan.width
    let place := row % physicalBlockRows plan.width
    let stored := cell (logicalBlock content plan.firstBlock plan.width) plan.width row
    (∃ fetched, ⟨plan.firstBlock + index, .ok fetched⟩ ∈ reads ∧
      stored = cell fetched.block.bytes plan.width place) ∨
    plan.passesOver index = true ∧
      stored = cell (plan.standIn wellFormed).bytes plan.width place := by
  intro index place stored
  have lies : stored = cell (content (plan.firstBlock + index)).bytes plan.width place :=
    cell_logicalBlock wellFormed.width_mem content plan.firstBlock inside
  cases passed : plan.passesOver index with
  | true => exact .inr ⟨rfl, stands index passed ▸ lies⟩
  | false =>
      have position : index ∈ List.range plan.width :=
        List.mem_range.mpr (div_physicalBlockRows_lt wellFormed.width_mem inside)
      have listed : plan.firstBlock + index ∈ reads.map BlockRead.number := by
        rw [numbers]
        exact List.mem_map_of_mem (List.mem_filter.mpr ⟨position, by rw [passed]; rfl⟩)
      obtain ⟨⟨number, answer⟩, member, rfl⟩ := List.mem_map.mp listed
      obtain ⟨fetched, rfl⟩ := answers _ member
      rw [← delivers _ member fetched rfl] at lies
      exact .inl ⟨fetched, member, lies⟩

end Found

end LoadPlan

namespace ColumnCommand

section Loading

variable {command : ColumnCommand} {source : BlockSource σ} {state next : σ} {block : BlockRef}
  {rows : List RowIndex} {rowMap : RowMap}

theorem width_pos (command : ColumnCommand) : 0 < command.column.width := by
  have layout := ColumnDescriptor.width_mem_layoutWidths command.supported
  exact Nat.pos_of_ne_zero fun zero => absurd (zero ▸ layout) (by decide)

theorem capacity_eq (command : ColumnCommand) (rows : List RowIndex) :
    command.capacity rows = worstCaseSize (requestedRows logicalBlockRows rows).length
      command.column.output command.column.width := by
  rw [capacity, requestedRows]
  cases rows.isEmpty with
  | true => simp only [↓reduceIte, List.length_map, List.length_range]
  | false => rfl

theorem candidates?_of_scan (scan : command.column.isScan = true) (input : Option StepInput) :
    command.candidates? input = some ([], 0xFFFF) :=
  if_pos scan

theorem candidates?_of_step (step : command.column.isScan = false) {input : StepInput}
    (nonempty : input.rows ≠ []) :
    command.candidates? (some input) = some (input.rows, input.rowMap) := by
  simp only [candidates?, step, Bool.false_eq_true, ↓reduceIte, List.isEmpty_iff, nonempty]

theorem execute_of_none {input : Option StepInput} (nothing : command.candidates? input = none) :
    command.execute source state block input = (.ok { block }, state) := by
  simp only [execute, nothing]

variable {input : Option StepInput} (candidates : command.candidates? input = some (rows, rowMap))

include candidates

/-- A scan visits all rows; a step has some, and they are those of its input. -/
theorem candidates?_cases :
    (command.column.isScan = true ∧ rows = []) ∨
      command.column.isScan = false ∧ rows ≠ [] ∧ input = some ⟨rows, rowMap⟩ := by
  unfold candidates? at candidates
  cases scan : command.column.isScan with
  | true =>
      rw [if_pos scan] at candidates
      cases candidates
      exact .inl ⟨rfl, rfl⟩
  | false =>
      rw [if_neg (Bool.eq_false_iff.mp scan)] at candidates
      cases input with
      | none => cases candidates
      | some given =>
          obtain ⟨listed, same⟩ := Option.ite_none_left_eq_some.mp candidates
          cases same
          exact .inr ⟨rfl, fun none => listed (List.isEmpty_iff.mpr none), rfl⟩

theorem execute_of_loads {loaded : Loaded}
    (loads : (command.loadPlan block rowMap (source.lastBlock state)).run source state =
      (.ok loaded, next)) :
    command.execute source state block input = (command.scanLoaded block rows loaded, next) := by
  simp only [execute, candidates, loads]

theorem execute_of_loads_failed {error : ScanError}
    (loads : (command.loadPlan block rowMap (source.lastBlock state)).run source state =
      (.error error, next)) :
    command.execute source state block input = (.error error, next) := by
  simp only [execute, candidates, loads]

end Loading

/-- Every output is that of a step without input rows, or it is decoded from the answer of a scan. -/
theorem exists_answer_of_execute {command : ColumnCommand} {source : BlockSource σ} {state : σ}
    {block : BlockRef} {input : Option StepInput} {output : StepOutput}
    (executed : (command.execute source state block input).1 = .ok output) :
    (command.candidates? input = none ∧ output = { block }) ∨
      ∃ rows rowMap, command.candidates? input = some (rows, rowMap) ∧
        ∃ (bytes : Array UInt8) (answer : ScanAnswer) (cacheReads physicalReads : UInt32),
          scanBlock command.column command.filter bytes rows (command.capacity rows)
            command.scanConfig = .ok answer ∧
          output = command.decodeAnswer block
            { answer with header := { answer.header with cacheReads, physicalReads } } := by
  unfold execute at executed
  split at executed
  next none =>
    cases executed
    exact .inl ⟨none, rfl⟩
  next rows rowMap candidates =>
    split at executed
    · cases executed
    next loaded next _ =>
      obtain ⟨answer, scanned, decoded⟩ := bind_eq_ok executed
      cases decoded
      exact .inr ⟨rows, rowMap, candidates, loaded.bytes, answer, _, _, scanned, rfl⟩

/-- A command fails with a read, or has a whole logical block to scan, in which a block that it did
not read is the one that stands for it. -/
theorem execute_cases (command : ColumnCommand) (source : BlockSource σ) (state : σ)
    (block : BlockRef) {input : Option StepInput} {rows : List RowIndex} {rowMap : RowMap}
    (candidates : command.candidates? input = some (rows, rowMap)) {pair : SentinelPair}
    (found : command.column.logicalType.sentinels? command.column.width = some pair) :
    let plan := command.loadPlan block rowMap (source.lastBlock state)
    ∃ next reads, (∀ read ∈ reads, source.Gives read) ∧
      ((∃ error, command.execute source.logging (state, []) block input =
          (.error error, next, reads) ∧
        ∃ failed ∈ reads, failed.answer = .error error) ∨
      ∃ loaded content, command.execute source.logging (state, []) block input =
          (command.scanLoaded block rows loaded, next, reads) ∧
        reads.map BlockRead.number = plan.readBlocks (List.range command.column.width) ∧
        (∀ read ∈ reads, ∃ fetched, read.answer = .ok fetched) ∧
        Delivers reads content ∧
        loaded.bytes = logicalBlock content block.firstBlock command.column.width ∧
        ∀ index, plan.passesOver index = true → content (block.firstBlock + index) =
          plan.standIn (LogicalType.wellFormed_of_sentinels? found)) := by
  intro plan
  obtain ⟨next, reads, gives, ⟨error, loads, failed⟩ | ⟨loaded, content, loads, complete⟩⟩ :=
    plan.run_cases found source state
  · exact ⟨next, reads, gives, .inl ⟨error, execute_of_loads_failed candidates loads, failed⟩⟩
  · exact ⟨next, reads, gives,
      .inr ⟨loaded, content, execute_of_loads candidates loads, complete⟩⟩

end ColumnCommand

end ColumnScan
