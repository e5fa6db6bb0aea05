import ColumnScan.Command.Load
import ColumnScan.Command.StepData
import ColumnScan.Scan.Block

/-!
# Column commands

A command applies one column's filter to logical blocks: it loads a block, scans it and decodes the
matches. It is built once per column and step; the type holds only commands whose column can be
scanned and whose filter is of the column's lanes.
-/

set_option autoImplicit false

namespace ColumnScan

/-- The settings of a command. -/
structure CommandConfig where
  /-- Also give the rows counted from the start of the column. -/
  absoluteRows : Bool := true
  /-- Record the least and the greatest value of scanned blocks. -/
  recordsZones : Bool := true
deriving DecidableEq

/-- A column, its filter, and what to do with the matches. -/
structure ColumnCommand where
  column : ColumnDescriptor
  filter : CompiledFilter
  config : CommandConfig
  scanConfig : ScanConfig
  supported : column.isSupported = true
  lanes_eq : filter.lanes = .ofWidth column.width

namespace ColumnCommand

def build (column : ColumnDescriptor) (filter : CompiledFilter) (config : CommandConfig)
    (scanConfig : ScanConfig) : Except ScanError ColumnCommand :=
  if supported : column.isSupported = true then
    if lanes_eq : filter.lanes = .ofWidth column.width then
      .ok { column, filter, config, scanConfig, supported, lanes_eq }
    else
      .error (.invalidArgument (.filterMismatch column.width))
  else
    .error (.unsupportedColumn column.width column.logicalType)

def ofPredicates (column : ColumnDescriptor) (combinator : Combinator)
    (predicates : List Predicate) (config : CommandConfig) (scanConfig : ScanConfig) :
    Except ScanError ColumnCommand := do
  if 65535 < predicates.length then
    throw (.invalidArgument (.tooManyPredicates predicates.length))
  let filter ← CompiledFilter.compile (predicateRecords predicates) column.width
    column.logicalType (UInt16.ofNat predicates.length) combinator
  build column filter config scanConfig

def projection (column : ColumnDescriptor) (config : CommandConfig) (scanConfig : ScanConfig) :
    Except ScanError ColumnCommand :=
  build column (.alwaysTrue column.width) config scanConfig

/-- The rows to scan and the row map to load by: all rows for a scan, those of the input for a step.
A step without input rows has nothing to do. -/
def candidates? (command : ColumnCommand) (input : Option StepInput) :
    Option (List RowIndex × RowMap) :=
  if command.column.isScan then
    some ([], 0xFFFF)
  else
    match input with
    | some input => if input.rows.isEmpty then none else some (input.rows, input.rowMap)
    | none => none

def loadPlan (command : ColumnCommand) (block : BlockRef) (rowMap : RowMap)
    (lastBlock : Option Nat) : LoadPlan where
  width := command.column.width
  logicalType := command.column.logicalType
  isScan := command.column.isScan
  firstBlock := block.firstBlock
  rowMap
  lastBlock

def capacity (command : ColumnCommand) (rows : List RowIndex) : Nat :=
  worstCaseSize (if rows.isEmpty then logicalBlockRows else rows.length) command.column.output
    command.column.width

def zoneEntry? (command : ColumnCommand) (header : ScanHeader) : Option ZoneEntry :=
  if command.column.isScan && command.config.recordsZones && header.extentValid then
    if command.column.width = 16 then some (.wide header.least header.greatest)
    else
      let word (bound : Int) : Int := bound.bmod (LittleEndian.capacity 8)
      some (.narrow (word header.least) (word header.greatest))
  else
    none

def decodeAnswer (command : ColumnCommand) (block : BlockRef) (answer : ScanAnswer) : StepOutput :=
  let column := command.column
  let entries := answer.entries column.output column.width
  let rows := entries.filterMap Entry.row
  let stored := entries.filterMap Entry.value
  { block
    header := answer.header
    rows
    absoluteRows :=
      if command.config.absoluteRows then rows.map fun row => block.firstRow + row.toNat else []
    values :=
      if column.width = 16 then [] else stored.map (widen (column.kind != .unsigned))
    wideValues := if column.width = 16 then stored.map LittleEndian.intValue else []
    rowMap := answer.header.rowMap
    zone := command.zoneEntry? answer.header }

def scanLoaded (command : ColumnCommand) (block : BlockRef) (rows : List RowIndex)
    (loaded : Loaded) : Except ScanError StepOutput := do
  let answer ← scanBlock command.column command.filter loaded.bytes rows (command.capacity rows)
    command.scanConfig
  let header :=
    { answer.header with
      cacheReads := UInt32.ofNat loaded.cacheReads
      physicalReads := UInt32.ofNat loaded.physicalReads }
  return command.decodeAnswer block { answer with header }

/-- Run the command on one logical block. Scans ignore the input. -/
def execute {σ : Type} (command : ColumnCommand) (source : BlockSource σ) (state : σ)
    (block : BlockRef) (input : Option StepInput) : Except ScanError StepOutput × σ :=
  match command.candidates? input with
  | none => (.ok { block }, state)
  | some (rows, rowMap) =>
      match (command.loadPlan block rowMap (source.lastBlock state)).run source state with
      | (.error error, state) => (.error error, state)
      | (.ok loaded, state) => (command.scanLoaded block rows loaded, state)

end ColumnCommand

/-- A command together with the zone map that its scans have built. -/
structure ActiveCommand where
  command : ColumnCommand
  zones : ZoneMap := []

namespace ActiveCommand

/-- Run the command on one logical block and record what it finds. -/
def execute {σ : Type} (active : ActiveCommand) (source : BlockSource σ) (state : σ)
    (block : BlockRef) (input : Option StepInput) :
    Except ScanError StepOutput × ActiveCommand × σ :=
  let (outcome, state) := active.command.execute source state block input
  (outcome, { active with zones := active.zones.record outcome }, state)

end ActiveCommand

end ColumnScan
