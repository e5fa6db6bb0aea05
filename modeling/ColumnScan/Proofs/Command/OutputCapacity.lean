import ColumnScan.Proofs.Command.LoadedBlocks
import ColumnScan.Proofs.Scan.Entries

/-!
# The capacity of the output

A limit on the output is the last thing that can make a scan fail: what the scan finds does not
depend on it, and no other check reports a lack of room. A scan under a limit therefore answers what
it answers without one, or it names the first size that did not fit. Commands ask for the worst case,
so they never lack room on their own account.
-/

set_option autoImplicit false

namespace ColumnScan

section Scan

variable {column : ColumnDescriptor} {filter : CompiledFilter} {block : Array UInt8}
  {rows : List RowIndex} {rowCount : Nat} {pair : SentinelPair}

theorem ScanChecked.length_entries_report
    (checked : ScanChecked column filter block rows rowCount pair) (config : ScanConfig) :
    let view := BlockView.ofBlock column pair block rowCount rows config
    let found := view.matched filter config
    ((view.report column found).entries column.output column.width).length = found.length := by
  intro view found
  rw [BlockView.report, ScanAnswer.entries_flatMap_entry checked.width_pos
    fun _ member => checked.length_stored member, List.length_map]

theorem ScanChecked.div_width (checked : ScanChecked column filter block rows rowCount pair) :
    block.size / column.width = rowCount := by
  rw [checked.size, Nat.mul_div_cancel _ checked.width_pos]

theorem lacksRoom_of_scanBlock {capacity : Nat} {config : ScanConfig} {error : ScanError}
    (room : config.checksCapacity = true →
      worstCaseSize (requestedRows (block.size / column.width) rows).length column.output
        column.width ≤ capacity)
    (failed : scanBlock column filter block rows capacity config = .error error) :
    error.lacksRoom = false := by
  obtain ⟨other, lacks, fails⟩ | ⟨rowCount, pair, checked⟩ :=
    scanBlock_cases column filter block rows
  · cases (fails capacity config).symm.trans failed
    exact lacks
  · rw [checked.div_width] at room
    cases (checked.scanBlock_eq_report_of_worstCase capacity config room).symm.trans failed

end Scan

namespace ColumnCommand

variable {σ : Type}

/-- A command lacks room only if its source says so. -/
theorem exists_load_of_lacksRoom (command : ColumnCommand) (source : BlockSource σ) (state : σ)
    (block : BlockRef) (input : Option StepInput) {error : ScanError}
    (failed : (command.execute source state block input).1 = .error error)
    (lacks : error.lacksRoom = true) :
    ∃ other number, (source.load other number).1 = .error error := by
  -- The log keeps the read that failed, which the error alone does not name.
  rw [← command.execute_logging source (state, []) block input] at failed
  cases candidates : command.candidates? input with
  | none =>
      rw [execute_of_none candidates] at failed
      cases failed
  | some pieces =>
      obtain ⟨pair, found⟩ :=
        Option.isSome_iff_exists.mp (LogicalType.isSome_sentinels? command.supported)
      obtain ⟨next, reads, gives, ⟨other, executed, read, member, answer⟩ |
        ⟨loaded, content, executed, _, _, _, bytes, _⟩⟩ :=
        command.execute_cases source state block candidates found
      · rw [executed] at failed
        cases failed
        obtain ⟨earlier, gave⟩ := gives read member
        exact ⟨earlier, read.number, gave.trans answer⟩
      · rw [executed] at failed
        refine absurd lacks (Bool.eq_false_iff.mp ?_)
        have scanned : scanBlock command.column command.filter loaded.bytes pieces.1
            (command.capacity pieces.1) command.scanConfig = .error error := by
          cases scanned : scanBlock command.column command.filter loaded.bytes pieces.1
              (command.capacity pieces.1) command.scanConfig with
          | ok answer =>
              simp only [Prod.map, scanLoaded, scanned] at failed
              cases failed
          | error other =>
              simp only [Prod.map, scanLoaded, scanned] at failed
              cases failed
              rfl
        refine lacksRoom_of_scanBlock (fun _ => Nat.le_of_eq ?_) scanned
        rw [bytes, size_logicalBlock, Nat.mul_div_cancel _ command.width_pos, capacity_eq]

end ColumnCommand

/-- A limit is exact. A scan that succeeds without one succeeds with the same answer under every
limit that its matches fit, and under any other it names the size up to the first match that does not
fit. All other failures are the same with and without a limit. The worst case of the candidate rows is
enough, and so is what commands ask for: they lack room only if the source of their blocks says so. -/
theorem scanBlock_capacity {σ : Type} (column : ColumnDescriptor) (filter : CompiledFilter)
    (block : Array UInt8) (rows : List RowIndex) (capacity : Nat) (config : ScanConfig)
    (command : ColumnCommand) (source : BlockSource σ) (state : σ) (logical : BlockRef)
    (input : Option StepInput) :
    let entrySize := column.output.entrySize column.width
    let scan := fun checksCapacity =>
      scanBlock column filter block rows capacity { config with checksCapacity }
    (∀ answer, scan false = .ok answer →
      let count := (answer.entries column.output column.width).length
      answer.header.matched = UInt16.ofNat count ∧
      (scan true = .ok answer ↔ count * entrySize ≤ capacity) ∧
      (capacity < count * entrySize →
        scan true = .error (.outputTooSmall (entrySize * (capacity / entrySize + 1)) capacity))) ∧
    (∀ error, scan false = .error error → scan true = .error error ∧
      ∀ needed available, error ≠ .outputTooSmall needed available) ∧
    (worstCaseSize (requestedRows (block.size / column.width) rows).length column.output
        column.width ≤ capacity →
      scan true = scan false) ∧
    ∀ needed available,
      (command.execute source state logical input).1 = .error (.outputTooSmall needed available) →
      ∃ other number,
        (source.load other number).1 = .error (.outputTooSmall needed available) := by
  intro entrySize scan
  let checking : ScanConfig := { config with checksCapacity := true }
  have unchecked {rowCount : Nat} {pair : SentinelPair}
      (checked : ScanChecked column filter block rows rowCount pair) := by
    exact checked.scanBlock_eq_report capacity { config with checksCapacity := false }
      fun checks => absurd checks Bool.false_ne_true
  have options := scanBlock_cases column filter block rows
  refine ⟨fun answer unlimited => ?_, fun error failed => ?_, fun room => ?_,
    fun needed available failed =>
      command.exists_load_of_lacksRoom source state logical input failed rfl⟩
  · obtain ⟨error, _, fails⟩ | ⟨rowCount, pair, checked⟩ := options
    · cases (fails capacity _).symm.trans unlimited
    · cases (unchecked checked).symm.trans unlimited
      intro count
      have count_eq : count = _ := checked.length_entries_report config
      rw [count_eq]
      refine ⟨rfl, ⟨fun succeeded => Nat.le_of_not_lt fun full => ?_, fun fits => ?_⟩, fun full => ?_⟩
      · cases (checked.scanBlock_eq_error capacity checking rfl full).symm.trans succeeded
      · exact checked.scanBlock_eq_report capacity checking fun _ => fits
      · exact checked.scanBlock_eq_error capacity checking rfl full
  · obtain ⟨other, lacks, fails⟩ | ⟨rowCount, pair, checked⟩ := options
    · cases (fails capacity _).symm.trans failed
      refine ⟨fails capacity _, fun needed available same => ?_⟩
      rw [same] at lacks
      cases lacks
    · cases (unchecked checked).symm.trans failed
  · obtain ⟨error, _, fails⟩ | ⟨rowCount, pair, checked⟩ := options
    · exact (fails capacity _).trans (fails capacity _).symm
    · rw [checked.div_width] at room
      exact (checked.scanBlock_eq_report_of_worstCase capacity checking fun _ => room).trans
        (unchecked checked).symm

/-- Two matches of two bytes each, and a source that lacks room itself. -/
theorem scanBlock_capacity_smallInt :
    let column : ColumnDescriptor := { width := 2, logicalType := .smallInt }
    let command : ColumnCommand :=
      { column
        filter := .alwaysTrue 2
        config := {}
        scanConfig := {}
        supported := rfl
        lanes_eq := rfl }
    let source : BlockSource Unit :=
      { load := fun _ _ => (.error (.outputTooSmall 2 1), ())
        lastBlock := fun _ => none }
    let scan := fun capacity checksCapacity =>
      scanBlock column (.alwaysTrue 2) #[5, 0, 7, 0] [] capacity { checksCapacity }
    (∃ answer, scan 3 false = .ok answer ∧ scan 3 true = .error (.outputTooSmall 4 3) ∧
      scan 4 false = .ok answer ∧ scan 4 true = .ok answer) ∧
    scan 4 true = scan 4 false ∧
    (command.execute source () ⟨0, 0⟩ none).1 = .error (.outputTooSmall 2 1) ∧
    ∃ other number, (source.load other number).1 = .error (.outputTooSmall 2 1) := by
  have found : ∀ capacity, scanBlock { width := 2, logicalType := .smallInt } (.alwaysTrue 2)
      #[5, 0, 7, 0] [] capacity { checksCapacity := false } = .ok
        { header := { matched := 2, extentValid := true, least := 5, greatest := 7 }
          payload := [5, 0, 7, 0] } := fun _ => by rfl
  have limited := fun capacity command source =>
    scanBlock_capacity { width := 2, logicalType := .smallInt } (.alwaysTrue 2) #[5, 0, 7, 0] []
      capacity {} command (source : BlockSource Unit) () ⟨0, 0⟩ none
  intro column command source scan
  obtain ⟨_, _, tooSmall⟩ := (limited 3 command source).1 _ (found 3)
  obtain ⟨short, _, same, raised⟩ := limited 4 command source
  obtain ⟨_, fits, _⟩ := short _ (found 4)
  exact ⟨⟨_, found 3, tooSmall (by decide), found 4, fits.mpr (by decide)⟩, same (by decide), rfl,
    raised 2 1 rfl⟩

end ColumnScan
