import ColumnScan.Proofs.Scan.Exactness

/-!
# The rows of an answer

Whatever its filter, a scan emits some of the rows that it visits. The entries, the count and the row
map of its answer all speak of these rows.
-/

set_option autoImplicit false

namespace ColumnScan

/-- The entry of a row of a block. -/
def Entry.ofRow (column : ColumnDescriptor) (block : Array UInt8) (row : RowIndex) : Entry where
  row := if column.output.emitsRow then some row else none
  value := if column.output.emitsValue then some (cell block column.width row.toNat) else none

section Entries

variable (column : ColumnDescriptor) (block : Array UInt8) (emitted : List RowIndex)

theorem filterMap_row_ofRow :
    (emitted.map (Entry.ofRow column block)).filterMap Entry.row =
      if column.output.emitsRow then emitted else [] := by
  rw [List.filterMap_map]
  change emitted.filterMap (fun row => if column.output.emitsRow then some row else none) = _
  split
  · exact List.filterMap_some
  · exact List.filterMap_eq_nil_iff.mpr fun _ _ => rfl

theorem filterMap_value_ofRow :
    (emitted.map (Entry.ofRow column block)).filterMap Entry.value =
      if column.output.emitsValue then emitted.map fun row => cell block column.width row.toNat
      else [] := by
  rw [List.filterMap_map]
  change emitted.filterMap (fun row =>
    if column.output.emitsValue then some (cell block column.width row.toNat) else none) = _
  split
  · exact congrFun List.filterMap_eq_map emitted
  · exact List.filterMap_eq_nil_iff.mpr fun _ _ => rfl

end Entries

theorem ScanAnswer.Emits.rows_eq {answer : ScanAnswer} {column : ColumnDescriptor}
    {block : Array UInt8} {emitted : List RowIndex} (emits : answer.Emits column block emitted)
    (emitsRow : column.output.emitsRow = true) :
    (answer.entries column.output column.width).filterMap Entry.row = emitted := by
  rw [emits.entries_eq]
  exact (filterMap_row_ofRow column block emitted).trans (if_pos emitsRow)

section Scanned

variable {column : ColumnDescriptor} {filter : CompiledFilter} {block : Array UInt8}
  {rows : List RowIndex} {capacity : Nat} {config : ScanConfig} {answer : ScanAnswer}
  (scanned : scanBlock column filter block rows capacity config = .ok answer)

include scanned

/-- The answer of a scan, told by the rows that it emits. -/
theorem exists_emitted_of_scanBlock :
    ∃ rowCount emitted, block.size = rowCount * column.width ∧ rowCount ≤ maxRows ∧
      (∀ row ∈ rows, row.toNat < rowCount) ∧ emitted.Sublist (rowsToVisit rowCount rows) ∧
      answer.entries column.output column.width = emitted.map (Entry.ofRow column block) ∧
      answer.header.matched = UInt16.ofNat emitted.length ∧
      answer.header.rowMap = if column.output.emitsRow then RowMap.ofRows emitted else 0 := by
  obtain ⟨rowCount, pair, found, supported, size, addressable, inside, patterns, visited, header,
    payload⟩ := scanBlock_eq_ok scanned
  have positive := (column.wellFormed_of_sentinels patterns).width_pos
  have stored : ∀ candidate ∈ found, candidate.stored.length = column.width := fun _ member =>
    BlockView.length_stored size addressable inside (visited.subset member)
  obtain ⟨emitted, visits, rfl⟩ := List.sublist_map_iff.mp visited
  have entries : answer.entries column.output column.width =
      (emitted.map (Candidate.ofBlock column.kind column.width block)).map
        (Candidate.toEntry column.output) := by
    rw [← ScanAnswer.entries_flatMap_entry positive stored answer.header, ← payload]
  have rowsOf : (emitted.map (Candidate.ofBlock column.kind column.width block)).map Candidate.row =
      emitted := by
    rw [List.map_map]
    exact List.map_id _
  refine ⟨rowCount, emitted, size, addressable, inside, visits, ?_, ?_, ?_⟩
  · rw [entries, List.map_map]
    rfl
  · rw [header, List.length_map]
  · rw [header, rowsOf]

/-- The row map of an answer is that of the rows in its matches, whatever the filter. -/
theorem rowMap_of_scanBlock :
    answer.header.rowMap =
      RowMap.ofRows ((answer.entries column.output column.width).filterMap Entry.row) := by
  obtain ⟨_, emitted, _, _, _, _, entries, _, rowMap⟩ := exists_emitted_of_scanBlock scanned
  rw [entries, filterMap_row_ofRow, rowMap]
  cases column.output.emitsRow <;> rfl

/-- All emitted rows of a list that can be counted are reported. -/
theorem exists_emits_of_scanBlock (listed : rows.length ≤ maxRows) :
    ∃ rowCount emitted, block.size = rowCount * column.width ∧
      (∀ row ∈ emitted, row.toNat < rowCount) ∧
      emitted.Sublist (rowsToVisit rowCount rows) ∧ answer.Emits column block emitted := by
  obtain ⟨rowCount, emitted, size, addressable, inside, visits, entries, matched, rowMap⟩ :=
    exists_emitted_of_scanBlock scanned
  have few : emitted.length < UInt16.size :=
    Nat.lt_succ_of_le (Nat.le_trans visits.length_le (length_rowsToVisit_le addressable listed))
  refine ⟨rowCount, emitted, size, fun row member => ?_, visits, entries, ?_, fun bit => ?_⟩
  · exact lt_of_mem_rowsToVisit addressable inside (visits.subset member)
  · rw [ScanAnswer.matchedRows, matched, UInt16.toNat_ofNat_of_lt' few]
  · rw [rowMap]
    cases emitsRow : column.output.emitsRow with
    | false =>
        simp only [Bool.false_eq_true, ↓reduceIte, false_and, iff_false]
        exact Bool.eq_false_iff.mp (Nat.zero_testBit bit)
    | true => simp only [↓reduceIte, RowMap.hasBit_ofRows, true_and]

end Scanned

end ColumnScan
