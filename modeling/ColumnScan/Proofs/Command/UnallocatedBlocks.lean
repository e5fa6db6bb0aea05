import ColumnScan.Proofs.Command.StoredBlocks

/-!
# Scans at the end of a column

The last logical block of a column may be allocated in part. A scan reads its physical blocks up to
the last one of the column, and the rows of the others are EMPTY. The end is noticed on the way past
the last block, so a logical block that starts behind it is read like any other.
-/

set_option autoImplicit false

namespace ColumnScan

variable {σ : Type}

/-- In a good state the source knows the last block of its column and has every block up to it. -/
structure BlockSource.Allocates (source : BlockSource σ) (good : σ → Prop)
    (content : Nat → PhysicalBlock) (last : Nat) : Prop
    extends source.Serves good content (List.range (last + 1)) where
  lastBlock_eq : ∀ state, good state → source.lastBlock state = some last

theorem MemoryStore.allocates (store : MemoryStore) {last : Nat}
    (stored : ∀ number ≤ last, (store.block? number).isSome = true)
    (ends : store.lastBlock = some last) :
    source.Allocates (fun state => state.blocks = store.blocks) store.content last where
  toServes := store.serves fun number member =>
    stored number (Nat.le_of_lt_succ (List.mem_range.mp member))
  lastBlock_eq := by
    intro state same
    change state.lastBlock = some last
    rw [MemoryStore.lastBlock, same]
    exact ends

/-- The blocks of a column up to the last one, and the same block in the place of all others. -/
def endingWith (content : Nat → PhysicalBlock) (last : Nat) (empty : PhysicalBlock)
    (number : Nat) : PhysicalBlock :=
  if number ≤ last then content number else empty

/-- The rows of a logical block that lie behind the last physical block are EMPTY. -/
theorem cell_logicalBlock_endingWith {pair : SentinelPair} {width : Nat}
    (wellFormed : pair.WellFormed width) (content : Nat → PhysicalBlock) {last firstBlock row : Nat}
    (inside : row < logicalBlockRows) (behind : last < firstBlock + row / physicalBlockRows width) :
    cell (logicalBlock (endingWith content last wellFormed.emptyBlock) firstBlock width) width row =
      pair.emptyBytes := by
  rw [cell_logicalBlock wellFormed.width_mem _ firstBlock inside, endingWith,
    if_neg (Nat.not_le.mpr behind)]
  exact wellFormed.cell_emptyBlock (Nat.mod_lt row (physicalBlockRows_pos wellFormed.width_mem))

namespace LoadPlan

/-- A plan for a scan of a logical block that starts at or before the last block of the column. -/
structure StartsWithin (plan : LoadPlan) (last : Nat) : Prop where
  isScan : plan.isScan = true
  lastBlock_eq : plan.lastBlock = some last
  start : plan.firstBlock ≤ last

section StartsWithin

variable {plan : LoadPlan} {last : Nat} (within : plan.StartsWithin last) {pair : SentinelPair}
  (found : plan.logicalType.sentinels? plan.width = some pair) {source : BlockSource σ}
  {good : σ → Prop} {content : Nat → PhysicalBlock} (allocates : source.Allocates good content last)

include within

theorem StartsWithin.isPastLast_eq (index : Nat) :
    plan.isPastLast index = decide (last < plan.firstBlock + index) := by
  simp only [isPastLast, within.lastBlock_eq, within.start, decide_true, Bool.true_and]

include found allocates

/-- A block up to the last one is read; the others are EMPTY and are not. -/
theorem StartsWithin.loadBlock_cases (loaded : Loaded) {state : σ} (valid : good state)
    (log : List BlockRead) (index : Nat) :
    (plan.firstBlock + index ≤ last ∧ ∃ cacheHit next, good next ∧
      let fetched : Fetched := { block := content (plan.firstBlock + index), cacheHit }
      plan.loadBlock source.logging loaded (state, log) index =
        (.ok (loaded.addFetched fetched), next, log ++ [⟨plan.firstBlock + index, .ok fetched⟩])) ∨
    (last < plan.firstBlock + index ∧
      plan.loadBlock source.logging loaded (state, log) index =
        (.ok { loaded with
          bytes := loaded.bytes ++ (LogicalType.wellFormed_of_sentinels? found).emptyBlock.bytes },
          state, log)) := by
  rcases Nat.lt_or_ge last (plan.firstBlock + index) with behind | before
  · refine .inr ⟨behind, ?_⟩
    simp only [loadBlock, within.isScan, within.isPastLast_eq, behind, decide_true, Bool.and_self,
      ↓reduceIte, emptyRows_eq_ok found, Array.toArray_toList]
  · obtain ⟨cacheHit, next, remains, read⟩ := allocates.load state valid _
      (List.mem_range.mpr (Nat.lt_succ_of_le before))
    refine .inl ⟨before, cacheHit, next, remains, ?_⟩
    simp only [loadBlock, within.isScan, within.isPastLast_eq, Nat.not_lt.mpr before, decide_false,
      Bool.and_false, Bool.false_eq_true, ↓reduceIte, BlockSource.logging, read]

/-- A scan reads the allocated blocks one after the other and succeeds. -/
theorem StartsWithin.loadBlocks (indices : List Nat) (loaded : Loaded) {state : σ}
    (valid : good state) (log : List BlockRead) :
    let whole := endingWith content last (LogicalType.wellFormed_of_sentinels? found).emptyBlock
    ∃ result next reads,
      plan.loadBlocks source.logging indices loaded (state, log) =
        (.ok result, next, log ++ reads) ∧
      reads.map BlockRead.number = (indices.map (plan.firstBlock + ·)).filter (· ≤ last) ∧
      (∀ read ∈ reads, ∃ cacheHit, read.answer = .ok { block := content read.number, cacheHit }) ∧
      result.bytes.toList = loaded.bytes.toList ++
        indices.flatMap fun index => (whole (plan.firstBlock + index)).bytes.toList := by
  intro whole
  induction indices generalizing loaded state log with
  | nil =>
      refine ⟨loaded, state, [], ?_, rfl, nofun, (List.append_nil _).symm⟩
      rw [List.append_nil]
      rfl
  | cons index rest ih =>
      rw [LoadPlan.loadBlocks, List.map_cons, List.flatMap_cons]
      obtain ⟨before, cacheHit, between, stays, loads⟩ | ⟨behind, loads⟩ :=
        within.loadBlock_cases found allocates loaded valid log index
      · obtain ⟨result, next, reads, others, numbers, answers, bytes⟩ := ih _ stays _
        rw [← List.append_cons] at others
        refine ⟨result, next, _, by rw [loads]; exact others, ?_, ?_, ?_⟩
        · rw [List.map_cons, numbers, List.filter_cons_of_pos (by simpa using before)]
        · exact List.forall_mem_cons.mpr ⟨⟨cacheHit, rfl⟩, answers⟩
        · rw [bytes, Loaded.addFetched, Array.toList_append, List.append_assoc]
          simp only [whole, endingWith, if_pos before]
      -- Nothing is read behind the end, so the source and the log stay as they were.
      · obtain ⟨result, next, reads, others, numbers, answers, bytes⟩ := ih _ valid log
        refine ⟨result, next, reads, by rw [loads]; exact others, ?_, answers, ?_⟩
        · rw [numbers, List.filter_cons_of_neg (by simpa using behind)]
        · rw [bytes, Array.toList_append, List.append_assoc]
          simp only [whole, endingWith, if_neg (Nat.not_le.mpr behind)]

end StartsWithin

/-- The end is not noticed behind it, so the first read decides whether the loading goes on. -/
theorem loadBlocks_of_failed {plan : LoadPlan} {source : BlockSource σ} {state next : σ}
    {error : ScanError} (isScan : plan.isScan = true)
    (behind : ∀ last ∈ plan.lastBlock, last < plan.firstBlock)
    (failed : source.load state plan.firstBlock = (.error error, next)) (indices : List Nat)
    (loaded : Loaded) (log : List BlockRead) :
    plan.loadBlocks source.logging (0 :: indices) loaded (state, log) =
      (.error error, next, log ++ [⟨plan.firstBlock, .error error⟩]) := by
  have unnoticed : plan.isPastLast 0 = false := by
    unfold isPastLast
    cases known : plan.lastBlock with
    | none => rfl
    | some last => simp only [Nat.not_le.mpr (behind last known), decide_false, Bool.false_and]
  simp only [loadBlocks, loadBlock, isScan, unnoticed, Bool.and_false, Bool.false_eq_true,
    ↓reduceIte, BlockSource.logging, Nat.add_zero, failed]

end LoadPlan

namespace ColumnCommand

/-- A scan has room for all of its rows, so it cannot fail once it has loaded its logical block. -/
theorem exists_scanWhole_eq_ok (command : ColumnCommand) (content : Nat → PhysicalBlock)
    (block : BlockRef) : ∃ answer, command.scanWhole content block [] = .ok answer := by
  exact exists_scanBlock_eq_ok command.supported command.lanes_eq
    (size_logicalBlock content block.firstBlock command.column.width) (by decide)
    (List.forall_mem_nil _) (Nat.le_of_eq (command.capacity_eq []).symm) command.scanConfig

section Allocated

variable {command : ColumnCommand} {source : BlockSource σ} {good : σ → Prop}
  {content : Nat → PhysicalBlock} {last : Nat} {state : σ} (block : BlockRef)
  (input : Option StepInput)

theorem execute_of_start_le (allocates : source.Allocates good content last) (valid : good state)
    (scan : command.column.isScan = true) (start : block.firstBlock ≤ last) {pair : SentinelPair}
    (found : command.column.logicalType.sentinels? command.column.width = some pair) :
    let whole := endingWith content last (LogicalType.wellFormed_of_sentinels? found).emptyBlock
    ∃ (loaded : Loaded) (next : σ) (reads : List BlockRead) (answer : ScanAnswer),
      reads.map BlockRead.number =
        ((List.range command.column.width).map (block.firstBlock + ·)).filter (· ≤ last) ∧
      Delivers reads content ∧
      command.scanWhole whole block [] = .ok answer ∧
      command.execute source.logging (state, []) block input =
        (.ok (command.decodeAnswer block
          { answer with
            header :=
              { answer.header with
                cacheReads := UInt32.ofNat loaded.cacheReads
                physicalReads := UInt32.ofNat loaded.physicalReads } }), next, reads) := by
  intro whole
  let plan := command.loadPlan block 0xFFFF (source.logging.lastBlock (state, []))
  have within : plan.StartsWithin last := ⟨scan, allocates.lastBlock_eq state valid, start⟩
  obtain ⟨loaded, next, reads, loads, numbers, answers, bytes⟩ :=
    within.loadBlocks found allocates (List.range plan.width) {} valid []
  rw [List.nil_append] at loads
  obtain ⟨answer, scanned⟩ := command.exists_scanWhole_eq_ok whole block
  have array : loaded.bytes = logicalBlock whole block.firstBlock command.column.width :=
    Array.toList_inj.mp bytes
  refine ⟨loaded, next, reads, answer, numbers, ?_, scanned, ?_⟩
  · intro read member fetched answered
    obtain ⟨cacheHit, given⟩ := answers read member
    cases answered.symm.trans given
    rfl
  · rw [execute_of_loads (candidates?_of_scan scan input) loads, scanLoaded, array]
    rw [scanWhole] at scanned
    rw [scanned]
    rfl

theorem execute_of_lt_start (ends : source.lastBlock state = some last)
    (scan : command.column.isScan = true) (behind : last < block.firstBlock) {error : ScanError}
    {next : σ} (failed : source.load state block.firstBlock = (.error error, next)) :
    command.execute source.logging (state, []) block input =
      (.error error, next, [⟨block.firstBlock, .error error⟩]) := by
  let plan := command.loadPlan block 0xFFFF (source.logging.lastBlock (state, []))
  have known : ∀ number ∈ plan.lastBlock, number < plan.firstBlock := by
    intro number same
    cases ends.symm.trans same
    exact behind
  -- The walk has a first physical block, with the number of the logical one.
  obtain ⟨others, width⟩ := Nat.exists_eq_add_one_of_ne_zero (Nat.ne_of_gt command.width_pos)
  have loads := plan.loadBlocks_of_failed scan known failed ((List.range others).map Nat.succ) {} []
  rw [← List.range_succ_eq_map, ← width, List.nil_append] at loads
  exact execute_of_loads_failed (candidates?_of_scan scan input) loads

/-- A scan runs as it does without the log of its reads. If its logical block starts at or before the
last block of the column, it succeeds: it reads the physical blocks up to the last one, each once and
no other, and answers what a scan of the whole logical block answers in which the rows behind the
last block are EMPTY, the counts of reads apart: its rows and values are those of the matches of this
answer. If it starts behind the last block, the end is not
noticed, and the scan fails if the first physical block cannot be read. -/
theorem execute_allocated (allocates : source.Allocates good content last) (valid : good state)
    (scan : command.column.isScan = true) :
    let run := command.execute source.logging (state, []) block input
    let reads := run.2.2
    let width := command.column.width
    command.execute source state block input = (run.1, run.2.1) ∧
    (block.firstBlock ≤ last →
      reads.map BlockRead.number =
        ((List.range width).map (block.firstBlock + ·)).filter (· ≤ last) ∧
      Delivers reads content ∧
      ∃ pair whole answer output,
        command.column.sentinels = .ok pair ∧
        (∀ number ≤ last, whole number = content number) ∧
        (∀ row < logicalBlockRows, last < block.firstBlock + row / physicalBlockRows width →
          cell (logicalBlock whole block.firstBlock width) width row = pair.emptyBytes) ∧
        command.scanWhole whole block [] = .ok answer ∧
        run.1 = .ok output ∧
        output.Shows command answer ∧
        output = command.decodeAnswer block
          { answer with
            header :=
              { answer.header with
                cacheReads := output.header.cacheReads
                physicalReads := output.header.physicalReads } }) ∧
    (last < block.firstBlock →
      ∀ error next, source.load state block.firstBlock = (.error error, next) →
        run = (.error error, next, [⟨block.firstBlock, .error error⟩])) := by
  intro run reads width
  have transparent := command.execute_logging source (state, []) block input
  refine ⟨transparent.symm, fun start => ?_, fun behind error next failed => ?_⟩
  · obtain ⟨pair, found⟩ :=
      Option.isSome_iff_exists.mp (LogicalType.isSome_sentinels? command.supported)
    obtain ⟨loaded, next, log, answer, numbers, delivers, scanned, executed⟩ :=
      execute_of_start_le block input allocates valid scan start found
    simp only [run, reads, executed]
    refine ⟨numbers, delivers, pair, _, answer, _, LogicalType.sentinels_eq_ok_iff.mpr found,
      fun number before => if_pos before, fun row inside behind => ?_, scanned, rfl,
      command.shows_decodeAnswer block answer _ _, rfl⟩
    exact cell_logicalBlock_endingWith _ content inside behind
  · exact execute_of_lt_start block input (allocates.lastBlock_eq state valid) scan behind failed

end Allocated

/-- The logical block starts with the last block of the column, and its second half is EMPTY. -/
theorem execute_allocated_smallInt :
    let column : ColumnDescriptor := { width := 2, logicalType := .smallInt }
    let command : ColumnCommand :=
      { column
        filter := .alwaysTrue 2
        config := {}
        scanConfig := {}
        supported := rfl
        lanes_eq := rfl }
    let zeros : PhysicalBlock := ⟨Array.replicate physicalBlockSize 0, Array.size_replicate⟩
    let store : MemoryStore := { blocks := [(2, zeros), (1, zeros), (0, zeros)] }
    let run := command.execute MemoryStore.source.logging (store, []) ⟨2, 0⟩ none
    MemoryStore.source.Allocates (fun state => state.blocks = store.blocks) store.content 2 ∧
    run.2.2.map BlockRead.number = [2] ∧
    ∃ whole answer output,
      (∀ row, 4096 ≤ row → row < 8192 → cell (logicalBlock whole 2 2) 2 row = [0x01, 0x80]) ∧
      command.scanWhole whole ⟨2, 0⟩ [] = .ok answer ∧
      run.1 = .ok output ∧
      output.header.matched = answer.header.matched := by
  intro column command zeros store run
  have allocates : MemoryStore.source.Allocates (fun state => state.blocks = store.blocks)
      store.content 2 :=
    store.allocates (by decide) rfl
  have scan : command.column.isScan = true := rfl
  obtain ⟨_, within, _⟩ := execute_allocated ⟨2, 0⟩ none allocates rfl scan
  obtain ⟨numbers, _, pair, whole, answer, output, patterns, _, behind, scanned, ran, shows, _⟩ :=
    within (Nat.le_refl 2)
  cases patterns
  refine ⟨allocates, numbers, whole, answer, output, fun row low high => ?_, scanned, ran, ?_⟩
  · have second : 0 < row / physicalBlockRows 2 := Nat.div_pos low (by decide)
    exact behind row high (Nat.lt_add_of_pos_right second)
  · exact congrArg (·.matched) shows.header_eq

/-- A logical block behind the last block is read, although it has no allocated row. -/
theorem execute_behind_last :
    let column : ColumnDescriptor := { width := 1, logicalType := .tinyInt }
    let command : ColumnCommand :=
      { column
        filter := .alwaysTrue 1
        config := {}
        scanConfig := {}
        supported := rfl
        lanes_eq := rfl }
    let zeros : PhysicalBlock := ⟨Array.replicate physicalBlockSize 0, Array.size_replicate⟩
    let store : MemoryStore := { blocks := [(0, zeros)] }
    MemoryStore.source.Allocates (fun state => state.blocks = store.blocks) store.content 0 ∧
    (command.execute MemoryStore.source store ⟨1, 0⟩ none).1 =
      .error (.readFailed (.blockMissing 1)) := by
  intro column command zeros store
  exact ⟨store.allocates (by decide) rfl, rfl⟩

end ColumnCommand

end ColumnScan
