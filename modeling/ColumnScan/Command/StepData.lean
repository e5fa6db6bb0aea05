import ColumnScan.Command.ZoneMap
import ColumnScan.Scan.Answer

/-!
# What passes between the commands of a step

A command works on one logical block at a time. It takes the rows that the command before it left,
and its output can be the next command's input.
-/

set_option autoImplicit false

namespace ColumnScan

/-- A logical block: the number of its first physical block, and that of its first row in the column.
Numbers of blocks and rows are words of 64 bits, and those of all its blocks and rows must not leave
them. -/
structure BlockRef where
  firstBlock : Nat
  firstRow : Nat
deriving DecidableEq

/-- The rows that a command has to consider. -/
structure StepInput where
  rows : List RowIndex
  /-- The row map of `rows`; it decides which physical blocks are read. -/
  rowMap : RowMap
deriving DecidableEq

def StepInput.ofRows (rows : List RowIndex) : StepInput where
  rows
  rowMap := RowMap.ofRows rows

/-- The matches of a command in one block. Lists of parts that were not emitted are empty. -/
structure StepOutput where
  block : BlockRef
  header : ScanHeader := {}
  rows : List RowIndex := []
  /-- The rows counted from the start of the column. They must not leave 64 bits. -/
  absoluteRows : List Nat := []
  /-- The values of columns up to eight bytes, widened to signed 64-bit words. -/
  values : List Int := []
  wideValues : List Int := []
  rowMap : RowMap := 0
  zone : Option ZoneEntry := none
deriving DecidableEq

namespace StepOutput

def length (output : StepOutput) : Nat := output.header.matched.toNat

def isEmpty (output : StepOutput) : Bool := output.length == 0

def asInput (output : StepOutput) : StepInput where
  rows := output.rows
  rowMap := output.rowMap

end StepOutput

/-- Take the outcome of a command into a zone map. Failures leave it as it was. -/
def ZoneMap.record (zones : ZoneMap) (outcome : Except ScanError StepOutput) : ZoneMap :=
  match outcome with
  | .error _ => zones
  | .ok output => match output.zone with
    | none => zones
    | some entry => zones.insert output.block.firstBlock entry

end ColumnScan
