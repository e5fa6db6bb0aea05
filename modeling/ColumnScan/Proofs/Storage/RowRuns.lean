import ColumnScan.Column.Descriptor
import ColumnScan.Proofs.Bytes.Cells
import ColumnScan.Storage.Layout

/-!
# Row runs and physical blocks

A physical block holds the rows of consecutive row runs. The mask that selects blocks for reading
selects those with a run of the row map, so the block of every mapped row is among them.
-/

set_option autoImplicit false

namespace ColumnScan

/-- The widths of values for which there is a layout of blocks. -/
def layoutWidths : List Nat := [1, 2, 4, 8, 16]

theorem ColumnDescriptor.width_mem_layoutWidths {column : ColumnDescriptor}
    (supported : column.isSupported = true) : column.width ∈ layoutWidths := by
  unfold isSupported at supported
  simp only [layoutWidths, List.mem_cons, List.not_mem_nil, or_false]
  cases kind : column.kind <;>
    simp only [kind, scannable, List.mem_cons, List.not_mem_nil, or_false, decide_eq_true_eq]
      at supported <;>
    omega

def runsPerBlock (width : Nat) : Nat := 16 / width

/-- Whether a row map has a row run of the physical block at a position of the logical block. -/
def RowMap.touches (map : RowMap) (width index : Nat) : Bool :=
  (List.range 16).any fun bit => bit / runsPerBlock width == index && map.hasBit bit

section Layout

variable {width index : Nat} {map : RowMap} (layout : width ∈ layoutWidths)

include layout

theorem runsPerBlock_mul_width : runsPerBlock width * width = 16 := by
  have each : ∀ width ∈ layoutWidths, runsPerBlock width * width = 16 := by decide
  exact each width layout

theorem runsPerBlock_pos : 0 < runsPerBlock width := by
  have each : ∀ width ∈ layoutWidths, 0 < runsPerBlock width := by decide
  exact each width layout

theorem LoadMask.ofWidth_eq_ok :
    ofWidth width = .ok ⟨runsPerBlock width, Nat.pow 2 (runsPerBlock width) - 1⟩ := by
  simp only [layoutWidths, List.mem_cons, List.not_mem_nil, or_false] at layout
  rcases layout with rfl | rfl | rfl | rfl | rfl <;> rfl

theorem physicalBlockRows_eq : physicalBlockRows width = RowMap.rowsPerBit * runsPerBlock width := by
  have each : ∀ width ∈ layoutWidths,
      physicalBlockRows width = RowMap.rowsPerBit * runsPerBlock width := by decide
  exact each width layout

theorem physicalBlockRows_mul_width : physicalBlockRows width * width = physicalBlockSize := by
  rw [physicalBlockRows_eq layout, Nat.mul_assoc, runsPerBlock_mul_width layout]
  rfl

theorem physicalBlockRows_pos : 0 < physicalBlockRows width := by
  rw [physicalBlockRows_eq layout]
  exact Nat.mul_pos (by decide) (runsPerBlock_pos layout)

theorem div_physicalBlockRows_lt {row : Nat} (inside : row < logicalBlockRows) :
    row / physicalBlockRows width < width := by
  refine Nat.div_lt_of_lt_mul ?_
  rw [physicalBlockRows_mul_width layout]
  exact inside

theorem RowMap.touches_eq_true_iff (inside : index < width) :
    map.touches width index = true ↔
      ∃ run < runsPerBlock width, map.hasBit (index * runsPerBlock width + run) = true := by
  have runs := runsPerBlock_mul_width layout
  have positive := runsPerBlock_pos layout
  simp only [touches, List.any_eq_true, List.mem_range, Bool.and_eq_true, beq_iff_eq]
  constructor
  · rintro ⟨bit, _, rfl, mapped⟩
    refine ⟨bit % runsPerBlock width, Nat.mod_lt bit positive, ?_⟩
    rwa [Nat.div_add_mod']
  · rintro ⟨run, below, mapped⟩
    have last : (index + 1) * runsPerBlock width ≤ width * runsPerBlock width :=
      Nat.mul_le_mul_right _ inside
    rw [Nat.mul_comm width, runs, Nat.succ_mul] at last
    refine ⟨_, by omega, ?_, mapped⟩
    rw [Nat.mul_comm, Nat.mul_add_div positive, Nat.div_eq_of_lt below, Nat.add_zero]

theorem runs_lt_of_lt (inside : index < width) : index * runsPerBlock width < 16 := by
  have runs := runsPerBlock_mul_width layout
  have positive := runsPerBlock_pos layout
  calc index * runsPerBlock width
      < width * runsPerBlock width := Nat.mul_lt_mul_of_pos_right inside positive
    _ = 16 := by rw [Nat.mul_comm, runs]

/-- The mask cuts off the runs of later blocks, and the shift those of earlier ones. -/
theorem RowMap.masked_ne_zero_iff (inside : index < width) (map : RowMap) :
    (map.toNat >>> (index * runsPerBlock width)) &&& (Nat.pow 2 (runsPerBlock width) - 1) ≠ 0 ↔
      map.touches width index = true := by
  have power : Nat.pow 2 (runsPerBlock width) = 2 ^ runsPerBlock width := rfl
  rw [power, Nat.and_two_pow_sub_one_eq_mod, touches_eq_true_iff layout inside]
  constructor
  · intro masked
    obtain ⟨run, set⟩ := Nat.exists_testBit_of_ne_zero masked
    rw [Nat.testBit_mod_two_pow, Nat.testBit_shiftRight, Bool.and_eq_true, decide_eq_true_eq] at set
    exact ⟨run, set⟩
  · rintro ⟨run, below, mapped⟩ zero
    have set := Nat.zero_testBit run
    rw [← zero, Nat.testBit_mod_two_pow, Nat.testBit_shiftRight, decide_eq_true below,
      Bool.true_and] at set
    exact Bool.false_ne_true (set.symm.trans mapped)

theorem LoadMask.selects_eq_touches (inside : index < width) (map : RowMap) :
    selects ⟨runsPerBlock width, Nat.pow 2 (runsPerBlock width) - 1⟩ map index =
      map.touches width index := by
  have below := runs_lt_of_lt layout inside
  have first : index * runsPerBlock width % LittleEndian.capacity 4 = index * runsPerBlock width :=
    Nat.mod_eq_of_lt (Nat.lt_trans below (by decide))
  have masked := RowMap.masked_ne_zero_iff layout inside map
  rw [← bne_iff_ne, ← Bool.eq_iff_iff] at masked
  simp only [selects, firstBit, first, below, decide_true, Bool.true_and, masked]

theorem blockSelected_eq_ok (inside : index < width) (map : RowMap) :
    blockSelected width index map = .ok (map.touches width index) := by
  rw [blockSelected, LoadMask.ofWidth_eq_ok layout]
  exact congrArg Except.ok (LoadMask.selects_eq_touches layout inside map)

/-- The block that holds a mapped row is touched by the map. -/
theorem RowMap.touches_of_hasBit {row : RowIndex} (inside : row.toNat < logicalBlockRows)
    (mapped : map.hasBit (row.toNat / rowsPerBit) = true) :
    map.touches width (row.toNat / physicalBlockRows width) = true := by
  simp only [touches, List.any_eq_true, List.mem_range, Bool.and_eq_true, beq_iff_eq]
  refine ⟨row.toNat / rowsPerBit, ?_, ?_, mapped⟩
  · simp only [logicalBlockRows, rowsPerBit] at inside ⊢
    omega
  · rw [physicalBlockRows_eq layout, Nat.div_div_eq_div_mul]

end Layout

end ColumnScan
