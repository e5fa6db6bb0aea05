import ColumnScan.Command.ColumnCommand
import ColumnScan.Proofs.Storage.RowRuns

/-!
# Outputs show answers

An output shows the answer that it was decoded from: the header but for the counts of reads, the rows
of the matches, and their stored values as numbers. What is shown does not depend on how the answer
was taken apart.
-/

set_option autoImplicit false

namespace ColumnScan

/-- The number that a stored value stands for, as a signed 64-bit word. Only unsigned numbers of eight
bytes are changed by it, and by a multiple of the capacity. -/
def ColumnDescriptor.word (column : ColumnDescriptor) (stored : Bytes) : Int :=
  if column.kind = .unsigned then (LittleEndian.natValue stored : Int).bmod (LittleEndian.capacity 8)
  else LittleEndian.intValue stored

/-- The rows and values of an output are those of the matches of an answer, in their order. -/
structure StepOutput.Shows (output : StepOutput) (command : ColumnCommand) (answer : ScanAnswer) :
    Prop where
  header_eq : output.header =
    { answer.header with
      cacheReads := output.header.cacheReads
      physicalReads := output.header.physicalReads }
  rows_eq : output.rows =
    (answer.entries command.column.output command.column.width).filterMap Entry.row
  absoluteRows_eq : output.absoluteRows =
    if command.config.absoluteRows then
      output.rows.map fun row => output.block.firstRow + row.toNat
    else []
  values_eq : output.values =
    if command.column.width = 16 then []
    else ((answer.entries command.column.output command.column.width).filterMap Entry.value).map
      command.column.word
  wideValues_eq : output.wideValues =
    if command.column.width = 16 then
      ((answer.entries command.column.output command.column.width).filterMap Entry.value).map
        LittleEndian.intValue
    else []
  rowMap_eq : output.rowMap = answer.header.rowMap

theorem widen_eq_word {column : ColumnDescriptor} (supported : column.isSupported = true)
    (narrow : column.width ≠ 16) {stored : Bytes} (length : stored.length = column.width) :
    widen (column.kind != .unsigned) stored = column.word stored := by
  have layout := ColumnDescriptor.width_mem_layoutWidths supported
  simp only [layoutWidths, List.mem_cons, List.not_mem_nil, or_false] at layout
  have whole : stored.take 8 = stored := List.take_of_length_le (by omega)
  unfold ColumnDescriptor.word
  by_cases unsigned : column.kind = .unsigned
  · rw [if_pos unsigned, unsigned]
    exact (widen_false stored).trans (by rw [whole])
  · rw [if_neg unsigned, bne_iff_ne.mpr unsigned, widen_true, whole]

/-- Emitted values have the width of the column. -/
theorem ScanAnswer.length_of_mem_values {answer : ScanAnswer} {mask : OutputMask} {width : Nat}
    (positive : 0 < width) {stored : Bytes}
    (member : stored ∈ (answer.entries mask width).filterMap Entry.value) :
    stored.length = width := by
  obtain ⟨entry, listed, value⟩ := List.mem_filterMap.mp member
  obtain ⟨index, inside, rfl⟩ := List.mem_map.mp listed
  have length := length_cell (Nat.div_mul_le_self answer.payload.toArray.size
    (max (mask.entrySize width) 1)) (List.mem_range.mp inside)
  cases mask with
  | row => cases value
  | value =>
      cases value
      refine length.trans ?_
      simp only [OutputMask.entrySize, OutputMask.emitsRow, OutputMask.emitsValue, ↓reduceIte,
        Bool.false_eq_true]
      omega
  | both =>
      cases value
      change ((cell _ _ index).drop 2).length = width
      rw [List.length_drop, length]
      simp only [OutputMask.entrySize, OutputMask.emitsRow, OutputMask.emitsValue, ↓reduceIte]
      omega

theorem ColumnCommand.shows_decodeAnswer (command : ColumnCommand) (block : BlockRef)
    (answer : ScanAnswer) (cacheReads physicalReads : UInt32) :
    (command.decodeAnswer block
      { answer with header := { answer.header with cacheReads, physicalReads } }).Shows command
      answer := by
  have positive : 0 < command.column.width := by
    have layout := ColumnDescriptor.width_mem_layoutWidths command.supported
    exact Nat.pos_of_ne_zero fun zero => absurd (zero ▸ layout) (by decide)
  refine ⟨rfl, rfl, rfl, ?_, rfl, rfl⟩
  by_cases wide : command.column.width = 16
  · exact (if_pos wide).trans (if_pos wide).symm
  · refine (if_neg wide).trans (Eq.trans ?_ (if_neg wide).symm)
    exact List.map_congr_left fun stored member =>
      widen_eq_word command.supported wide (ScanAnswer.length_of_mem_values positive member)

end ColumnScan
