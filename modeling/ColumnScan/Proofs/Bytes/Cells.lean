import ColumnScan.Bytes.LittleEndian

/-!
# Arrays of equally wide values

An array of values of one width is taken apart into its values by `cell`. The laws here say that
this undoes concatenation, which is how blocks, predicate records and encoded matches are all read.
-/

set_option autoImplicit false

namespace ColumnScan

theorem cell_eq_take_drop (bytes : Array UInt8) (width index : Nat) :
    cell bytes width index = (bytes.toList.drop (index * width)).take width := by
  simp only [cell, Array.toList_extract, List.extract_eq_take_drop, Nat.add_sub_cancel_left]

theorem length_cell {bytes : Array UInt8} {width count index : Nat}
    (room : count * width ≤ bytes.size) (inside : index < count) :
    (cell bytes width index).length = width := by
  have before : (index + 1) * width ≤ count * width := Nat.mul_le_mul_right width inside
  rw [Nat.add_mul, Nat.one_mul] at before
  simp only [cell_eq_take_drop, List.length_take, List.length_drop, Array.length_toList]
  omega

/-- Cutting an array into cells of several values each cuts none of the values. -/
theorem cell_cell (bytes : Array UInt8) (width block : Nat) {count index : Nat}
    (inside : index < count) :
    cell (cell bytes (count * width) block).toArray width index =
      cell bytes width (block * count + index) := by
  have start : block * (count * width) + index * width = (block * count + index) * width := by
    rw [Nat.add_mul, Nat.mul_assoc]
  have room : width ≤ count * width - index * width := by
    have before : (index + 1) * width ≤ count * width := Nat.mul_le_mul_right width inside
    rw [Nat.succ_mul] at before
    omega
  simp only [cell_eq_take_drop, List.drop_take, List.drop_drop, List.take_take, start,
    Nat.min_eq_left room]

variable {pieces : List Bytes} {width : Nat}

theorem length_flatten_uniform (uniform : ∀ piece ∈ pieces, piece.length = width) :
    pieces.flatten.length = pieces.length * width := by
  induction pieces with
  | nil => simp only [List.flatten_nil, List.length_nil, Nat.zero_mul]
  | cons piece rest ih =>
      have first := uniform piece List.mem_cons_self
      have others := ih fun other member => uniform other (List.mem_cons_of_mem _ member)
      simp only [List.flatten_cons, List.length_append, List.length_cons, first, others,
        Nat.add_mul, Nat.one_mul]
      omega

/-- The value at an index of a concatenation is the piece at that index, whatever follows the
pieces. -/
theorem cell_flatten (uniform : ∀ piece ∈ pieces, piece.length = width) (rest : Bytes)
    (index : Nat) (inside : index < pieces.length) :
    cell (pieces.flatten ++ rest).toArray width index = pieces[index] := by
  rw [cell_eq_take_drop]
  induction pieces generalizing index with
  | nil => cases inside
  | cons piece others ih =>
      have first := uniform piece List.mem_cons_self
      cases index with
      | zero =>
          simp only [Nat.zero_mul, List.drop_zero, List.flatten_cons, List.append_assoc,
            List.getElem_cons_zero]
          rw [← first]
          exact List.take_left
      | succ index =>
          have start : (index + 1) * width = piece.length + index * width := by
            rw [first, Nat.add_mul, Nat.one_mul, Nat.add_comm]
          have later := ih (fun other member => uniform other (List.mem_cons_of_mem _ member))
            index (Nat.lt_of_succ_lt_succ inside)
          simpa only [List.flatten_cons, List.append_assoc, start, List.getElem_cons_succ,
            ← List.drop_drop, List.drop_left] using later

theorem map_cell_flatten (uniform : ∀ piece ∈ pieces, piece.length = width) (rest : Bytes) :
    (List.range pieces.length).map (cell (pieces.flatten ++ rest).toArray width) = pieces := by
  apply List.ext_getElem
  · simp only [List.length_map, List.length_range]
  · intro index _ inside
    simp only [List.getElem_map, List.getElem_range]
    exact cell_flatten uniform rest index inside

end ColumnScan
