import ColumnScan.Proofs.Bytes.Cells
import ColumnScan.Scan.Answer
import ColumnScan.Scan.MatchBuffer

/-!
# Encoded matches and row maps

The matches of an answer are the collected ones, each with its own row index and stored bytes, and a
row map has exactly the bits of the rows that it was made of.
-/

set_option autoImplicit false

namespace ColumnScan

theorem RowMap.hasBit_single {bit : Nat} (known : bit < 16) (other : Nat) :
    hasBit (single bit) other = decide (bit = other) := by
  have small : bit % UInt16.size = bit := Nat.mod_eq_of_lt (Nat.lt_trans known (by decide))
  have shift : bit % 16 = bit := Nat.mod_eq_of_lt known
  unfold hasBit single
  rw [UInt16.toNat_shiftLeft, UInt16.toNat_ofNat', small, shift, Nat.testBit_mod_two_pow,
    Nat.testBit_shiftLeft]
  by_cases same : bit = other
  · subst same
    simp [known]
  · simp only [same, decide_false]
    by_cases above : other ≥ bit
    · have off : Nat.testBit 1 (other - bit) = false := by
        rw [Bool.eq_false_iff, ne_eq, Nat.testBit_one_eq_true_iff_self_eq_zero]
        omega
      simp [off]
    · simp [above]

theorem RowMap.bitOf_lt (row : RowIndex) : bitOf row < 16 :=
  Nat.lt_succ_of_le (Nat.min_le_right _ _)

theorem RowMap.hasBit_ofRows (rows : List RowIndex) (bit : Nat) :
    hasBit (ofRows rows) bit = true ↔ ∃ row ∈ rows, bitOf row = bit := by
  have union : ∀ start : RowMap,
      hasBit (rows.foldl (fun map row => map ||| single (bitOf row)) start) bit = true ↔
        hasBit start bit = true ∨ ∃ row ∈ rows, bitOf row = bit := by
    induction rows with
    | nil =>
        intro start
        simp only [List.foldl_nil, List.not_mem_nil, false_and, exists_false, or_false]
    | cons row rest ih =>
        intro start
        have step : hasBit (start ||| single (bitOf row)) bit = true ↔
            hasBit start bit = true ∨ bitOf row = bit := by
          rw [← decide_eq_true_iff (p := bitOf row = bit), ← hasBit_single (bitOf_lt row) bit]
          simp only [hasBit, UInt16.toNat_or, Nat.testBit_or, Bool.or_eq_true]
        rw [List.foldl_cons, ih, step]
        simp only [List.mem_cons, exists_eq_or_imp, or_assoc]
  have none : hasBit 0 bit = false := Nat.zero_testBit bit
  rw [ofRows, union, none]
  simp only [Bool.false_eq_true, false_or]

def Candidate.toEntry (mask : OutputMask) (candidate : Candidate) : Entry where
  row := if mask.emitsRow then some candidate.row else none
  value := if mask.emitsValue then some candidate.stored else none

theorem OutputMask.entrySize_pos {width : Nat} (mask : OutputMask) (positive : 0 < width) :
    0 < mask.entrySize width := by
  cases mask <;>
    simp only [entrySize, emitsRow, emitsValue, Bool.false_eq_true, ↓reduceIte] <;>
    omega

theorem Candidate.length_entry {mask : OutputMask} {candidate : Candidate} {width : Nat}
    (length : candidate.stored.length = width) :
    (candidate.entry mask).length = mask.entrySize width := by
  cases mask <;>
    simp [entry, OutputMask.entrySize, OutputMask.emitsRow, OutputMask.emitsValue, length]

theorem Candidate.length_of_mem_entries {mask : OutputMask} {width : Nat} {found : List Candidate}
    (length : ∀ candidate ∈ found, candidate.stored.length = width) :
    ∀ piece ∈ found.map (entry mask), piece.length = mask.entrySize width := by
  intro piece member
  obtain ⟨candidate, candidateMember, rfl⟩ := List.mem_map.mp member
  exact length_entry (length candidate candidateMember)

theorem Candidate.ofBytes_entry (mask : OutputMask) (candidate : Candidate) :
    Entry.ofBytes mask (candidate.entry mask) = candidate.toEntry mask := by
  have row : UInt16.ofNat (LittleEndian.natValue (LittleEndian.ofNat 2 candidate.row.toNat)) =
      candidate.row := by
    have below : candidate.row.toNat < LittleEndian.capacity 2 := candidate.row.toNat_lt
    rw [LittleEndian.natValue_ofNat, Nat.mod_eq_of_lt below, UInt16.ofNat_toNat]
  have first : ((LittleEndian.ofNat 2 candidate.row.toNat) ++ candidate.stored).take 2 =
      LittleEndian.ofNat 2 candidate.row.toNat := List.take_left' (LittleEndian.length_ofNat 2 _)
  have second : ((LittleEndian.ofNat 2 candidate.row.toNat) ++ candidate.stored).drop 2 =
      candidate.stored := List.drop_left' (LittleEndian.length_ofNat 2 _)
  have whole : (LittleEndian.ofNat 2 candidate.row.toNat).take 2 =
      LittleEndian.ofNat 2 candidate.row.toNat :=
    List.take_of_length_le (Nat.le_of_eq (LittleEndian.length_ofNat 2 _))
  cases mask with
  | row =>
      simp [Entry.ofBytes, entry, toEntry, OutputMask.emitsRow, OutputMask.emitsValue, whole, row]
  | value => simp [Entry.ofBytes, entry, toEntry, OutputMask.emitsRow, OutputMask.emitsValue]
  | both =>
      simp [Entry.ofBytes, entry, toEntry, OutputMask.emitsRow, OutputMask.emitsValue, first, second,
        row]

/-- The entries of an answer are those of the matches that its payload encodes. -/
theorem ScanAnswer.entries_flatMap_entry {mask : OutputMask} {width : Nat} (positive : 0 < width)
    {found : List Candidate} (length : ∀ candidate ∈ found, candidate.stored.length = width)
    (header : ScanHeader) :
    entries { header, payload := found.flatMap (Candidate.entry mask) } mask width =
      found.map (Candidate.toEntry mask) := by
  have entrySize := mask.entrySize_pos positive
  have size : max (mask.entrySize width) 1 = mask.entrySize width := Nat.max_eq_left entrySize
  have uniform : ∀ piece ∈ found.map (Candidate.entry mask), piece.length = mask.entrySize width :=
    Candidate.length_of_mem_entries length
  have count : (found.map (Candidate.entry mask)).flatten.length / mask.entrySize width =
      (found.map (Candidate.entry mask)).length := by
    rw [length_flatten_uniform uniform, Nat.mul_div_cancel _ entrySize]
  have pieces := map_cell_flatten uniform []
  rw [List.append_nil] at pieces
  have decoded := congrArg (List.map (Entry.ofBytes mask)) pieces
  rw [List.map_map, List.map_map] at decoded
  simp only [entries, size, List.flatMap_def, List.size_toArray, count]
  refine decoded.trans ?_
  exact List.map_congr_left fun candidate _ => Candidate.ofBytes_entry mask candidate

end ColumnScan
