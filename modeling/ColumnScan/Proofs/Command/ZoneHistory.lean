import Mathlib.Data.List.Induction
import ColumnScan.Proofs.Command.Chaining
import ColumnScan.Proofs.Scan.ReportedExtent

/-!
# Zone maps over histories

A command may run on any blocks in any order and fail on some of them. After every such history its
zone map has the zone of the last successful run on each block, and nothing else.
-/

set_option autoImplicit false

namespace ColumnScan

namespace ZoneMap

variable {zones : ZoneMap} {block other : Nat} {entry : ZoneEntry}

theorem mem_insert {item : Nat × ZoneEntry} (member : item ∈ insert block entry zones) :
    item = (block, entry) ∨ item ∈ zones := by
  induction zones with
  | nil => exact .inl (List.mem_singleton.mp member)
  | cons first rest ih =>
      obtain ⟨kept, old⟩ := first
      unfold insert at member
      split at member
      · exact List.mem_cons.mp member
      split at member
      · exact (List.mem_cons.mp member).imp_right (List.mem_cons_of_mem _)
      · rcases List.mem_cons.mp member with rfl | later
        · exact .inr List.mem_cons_self
        · exact (ih later).imp_right (List.mem_cons_of_mem _)

/-- The blocks of a zone map are listed once each, in ascending order. -/
def Ascending (zones : ZoneMap) : Prop := (zones.map Prod.fst).Pairwise (· < ·)

theorem ascending_cons_iff {first : Nat × ZoneEntry} {rest : ZoneMap} :
    Ascending (first :: rest) ↔ (∀ item ∈ rest, first.1 < item.1) ∧ Ascending rest := by
  rw [Ascending, List.map_cons, List.pairwise_cons, List.forall_mem_map]
  rfl

theorem ascending_insert (ascending : zones.Ascending) (block : Nat) (entry : ZoneEntry) :
    (insert block entry zones).Ascending := by
  induction zones with
  | nil => exact List.pairwise_singleton _ _
  | cons first rest ih =>
      obtain ⟨kept, old⟩ := first
      have parts := ascending_cons_iff.mp ascending
      unfold insert
      split
      next before =>
        refine ascending_cons_iff.mpr ⟨List.forall_mem_cons.mpr ⟨before, fun item member => ?_⟩,
          ascending⟩
        exact Nat.lt_trans before (parts.1 item member)
      split
      next same => exact ascending_cons_iff.mpr ⟨same ▸ parts.1, parts.2⟩
      next notBefore different =>
        refine ascending_cons_iff.mpr ⟨fun item member => ?_, ih parts.2⟩
        rcases mem_insert member with rfl | earlier
        · exact Nat.lt_of_le_of_ne (Nat.le_of_not_lt notBefore) (Ne.symm different)
        · exact parts.1 item earlier

theorem entry?_cons (first : Nat × ZoneEntry) (rest : ZoneMap) (block : Nat) :
    entry? (first :: rest) block = if first.1 = block then some first.2 else entry? rest block := by
  unfold entry?
  by_cases same : first.1 = block
  · simp only [List.find?_cons, same, beq_self_eq_true, Option.map_some, ↓reduceIte]
  · simp only [List.find?_cons, beq_eq_false_iff_ne.mpr same, same, ↓reduceIte]

theorem entry?_insert (zones : ZoneMap) (block : Nat) (entry : ZoneEntry) (other : Nat) :
    entry? (insert block entry zones) other =
      if block = other then some entry else zones.entry? other := by
  induction zones with
  | nil => exact entry?_cons (block, entry) [] other
  | cons first rest ih =>
      obtain ⟨kept, old⟩ := first
      unfold insert
      split
      · rw [entry?_cons]
      split
      next same =>
        subst same
        rw [entry?_cons, entry?_cons]
        by_cases found : block = other <;> simp only [found, ↓reduceIte]
      next different =>
        rw [entry?_cons, entry?_cons, ih]
        by_cases found : kept = other
        · have notBlock : block ≠ other := found ▸ different
          simp only [found, notBlock, ↓reduceIte]
        · simp only [found, ↓reduceIte]

theorem mem_iff_entry? (ascending : zones.Ascending) :
    (block, entry) ∈ zones ↔ zones.entry? block = some entry := by
  induction zones with
  | nil => exact iff_of_false List.not_mem_nil nofun
  | cons first rest ih =>
      obtain ⟨after, others⟩ := ascending_cons_iff.mp ascending
      rw [entry?_cons, List.mem_cons]
      by_cases found : first.1 = block
      · subst found
        have absent : (first.1, entry) ∉ rest := fun member =>
          Nat.lt_irrefl first.1 (after (first.1, entry) member)
        simp only [absent, or_false, ↓reduceIte, Option.some.injEq]
        exact ⟨fun same => same ▸ rfl, fun same => same ▸ rfl⟩
      · simp only [found, ↓reduceIte, ← ih others, or_iff_right_iff_imp]
        rintro rfl
        exact absurd rfl found

end ZoneMap

/-- The number that a bound of a narrow zone entry stands for. Of unsigned columns it is the natural
number with the bits of the word. -/
def ColumnDescriptor.reading (column : ColumnDescriptor) (word : Int) : Int :=
  if column.kind = .unsigned then unsignedLane word else word

def ZoneEntry.bounds (column : ColumnDescriptor) : ZoneEntry → Int × Int
  | .narrow least greatest => (column.reading least, column.reading greatest)
  | .wide least greatest => (least, greatest)

section Words

variable {column : ColumnDescriptor} {pair : SentinelPair} {view : BlockView}

/-- A number that is not changed if it is kept as a signed 64-bit word and read back. -/
def ColumnDescriptor.FitsWord (column : ColumnDescriptor) (number : Int) : Prop :=
  column.reading (number.bmod (LittleEndian.capacity 8)) = number

theorem fitsWord_of_natural (unsigned : column.kind = .unsigned) {number : Int}
    (nonneg : 0 ≤ number) (below : number < LittleEndian.capacity 8) : column.FitsWord number := by
  rw [ColumnDescriptor.FitsWord, ColumnDescriptor.reading, if_pos unsigned, unsignedLane,
    Int.bmod_emod]
  exact Int.emod_eq_of_lt nonneg below

theorem fitsWord_of_signed (signed : column.kind ≠ .unsigned) {number : Int}
    (least : -0x8000000000000000 ≤ number) (greatest : number ≤ 0x7FFFFFFFFFFFFFFF) :
    column.FitsWord number := by
  have word : LittleEndian.capacity 8 = 18446744073709551616 := rfl
  rw [ColumnDescriptor.FitsWord, ColumnDescriptor.reading, if_neg signed, word]
  exact Int.bmod_eq_of_le (by omega) (by omega)

theorem reported_eq_reading (narrow : column.width ≠ 16) (lane : Int) :
    column.comparator.reported lane = column.reading lane := by
  rw [ColumnDescriptor.comparator_of_narrow narrow]
  unfold Comparator.reported ColumnDescriptor.reading
  cases column.kind <;> rfl

theorem emptyRange_eq (narrow : column.width ≠ 16) :
    column.comparator.emptyRange =
      if column.kind = .unsigned then (0xFFFFFFFFFFFFFFFF, 0)
      else (0x7FFFFFFFFFFFFFFF, -0x8000000000000000) := by
  rw [ColumnDescriptor.comparator_of_narrow narrow]
  unfold Comparator.emptyRange
  cases column.kind with
  | signed => simp only [narrow, ↓reduceIte, reduceCtorEq]
  | unsigned | float | text => rfl

theorem fitsWord_emptyRange (narrow : column.width ≠ 16) :
    column.FitsWord column.comparator.emptyRange.1 ∧
      column.FitsWord column.comparator.emptyRange.2 := by
  rw [emptyRange_eq narrow]
  by_cases unsigned : column.kind = .unsigned
  · rw [if_pos unsigned]
    exact ⟨fitsWord_of_natural unsigned (by decide) (by decide),
      fitsWord_of_natural unsigned (by decide) (by decide)⟩
  · rw [if_neg unsigned]
    exact ⟨fitsWord_of_signed unsigned (by decide) (by decide),
      fitsWord_of_signed unsigned (by decide) (by decide)⟩

theorem fitsWord_reported (narrow : column.width ≤ 8) {stored : Bytes}
    (length : stored.length = column.width) :
    column.FitsWord (column.comparator.reported (laneOf column.kind stored)) := by
  have word := LittleEndian.capacity_le (length ▸ narrow)
  rw [reported_eq_reading (by omega), ColumnDescriptor.reading]
  by_cases unsigned : column.kind = .unsigned
  · rw [if_pos unsigned, unsigned, unsignedLane_laneOf (length ▸ narrow)]
    have below := LittleEndian.natValue_lt stored
    exact fitsWord_of_natural unsigned (Int.natCast_nonneg _) (by omega)
  · rw [if_neg unsigned, laneOf_eq, if_neg fun short => unsigned short.1, LittleEndian.intValue]
    have positive := LittleEndian.capacity_pos stored.length
    have least := Int.le_bmod (x := LittleEndian.natValue stored) positive
    have greatest := Int.bmod_lt (x := LittleEndian.natValue stored) positive
    have size : LittleEndian.capacity 8 = 18446744073709551616 := rfl
    exact fitsWord_of_signed unsigned (by omega) (by omega)

theorem fitsWord_of_scanBlock {filter : CompiledFilter} {block : Array UInt8}
    {rows : List RowIndex} {capacity : Nat} {config : ScanConfig} {answer : ScanAnswer}
    (narrow : column.width ≠ 16)
    (scanned : scanBlock column filter block rows capacity config = .ok answer) :
    column.FitsWord answer.header.least ∧ column.FitsWord answer.header.greatest := by
  obtain ⟨rowCount, pair, found, supported, size, addressable, inside, _, _, header, _⟩ :=
    scanBlock_eq_ok scanned
  have short : column.width ≤ 8 := by
    have layout := ColumnDescriptor.width_mem_layoutWidths supported
    simp only [layoutWidths, List.mem_cons, List.not_mem_nil, or_false] at layout
    omega
  have reads : (BlockView.ofBlock column pair block rowCount rows config).Reads column pair :=
    BlockView.reads_ofBlock size addressable inside
  rw [header]
  -- A bound is the value of a row, or an end of the empty range if no row has an ordinary value.
  refine BlockView.forall_bounds (fun lane member => ?_) (fitsWord_emptyRange narrow)
  obtain ⟨stored, length, rfl⟩ := reads.hasLane_of_ordinary member
  exact fitsWord_reported short length

end Words

/-- One run of a command, with what its source has by then. -/
structure Visit (σ : Type) where
  source : BlockSource σ
  state : σ
  block : BlockRef
  input : Option StepInput

variable {σ : Type}

namespace ColumnCommand

section Output

variable {command : ColumnCommand} {source : BlockSource σ} {state : σ} {block : BlockRef}
  {input : Option StepInput} {output : StepOutput}
  (executed : (command.execute source state block input).1 = .ok output)

theorem isSome_zoneEntry? (command : ColumnCommand) (header : ScanHeader) :
    ( command.zoneEntry? header).isSome =
      (command.column.isScan && command.config.recordsZones && header.extentValid) := by
  unfold zoneEntry?
  cases command.column.isScan && command.config.recordsZones && header.extentValid with
  | false => rfl
  | true =>
      rw [if_pos rfl]
      split <;> rfl

theorem zoneEntry?_of_invalid (command : ColumnCommand) {header : ScanHeader}
    (invalid : header.extentValid = false) : command.zoneEntry? header = none := by
  unfold zoneEntry?
  rw [invalid, Bool.and_false, if_neg Bool.false_ne_true]

include executed

/-- An output names its block, and its zone is the one that its header allows. -/
theorem zone_of_execute : output.block = block ∧ output.zone = command.zoneEntry? output.header := by
  obtain ⟨_, rfl⟩ | ⟨_, _, _, _, _, _, _, _, rfl⟩ := exists_answer_of_execute executed
  · exact ⟨rfl, (command.zoneEntry?_of_invalid rfl).symm⟩
  · exact ⟨rfl, rfl⟩

/-- Whether the extent is valid does not depend on what a scan finds, and in a step it never is. -/
theorem extentValid_of_execute :
    output.header.extentValid = (command.column.isScan &&
      command.column.tracksExtent 0 command.scanConfig.maxExtentWidth) := by
  obtain ⟨nothing, rfl⟩ | ⟨rows, rowMap, candidates, bytes, answer, _, _, scanned, rfl⟩ :=
    exists_answer_of_execute executed
  · cases scan : command.column.isScan with
    | false => rfl
    | true => cases (candidates?_of_scan scan input).symm.trans nothing
  · obtain ⟨_, _, _, _, _, _, tracks, _⟩ := extent_of_scanBlock scanned
    refine tracks.trans ?_
    change command.column.tracksExtent rows.length _ = _
    obtain ⟨scan, rfl⟩ | ⟨step, listed, _⟩ := candidates?_cases candidates
    · rw [scan, Bool.true_and]
      rfl
    · have some : (rows.length == 0) = false :=
        beq_eq_false_iff_ne.mpr (mt List.length_eq_zero_iff.mp listed)
      rw [step, ColumnDescriptor.tracksExtent, some]
      rfl

theorem isSome_zone_of_execute :
    output.zone.isSome = (command.config.recordsZones && (command.column.isScan &&
      command.column.tracksExtent 0 command.scanConfig.maxExtentWidth)) := by
  rw [(zone_of_execute executed).2, isSome_zoneEntry?, extentValid_of_execute executed]
  cases command.column.isScan with
  | false => exact (Bool.and_false _).symm
  | true => rfl

theorem bounds_of_zone {entry : ZoneEntry} (zone : output.zone = some entry) :
    entry.bounds command.column = (output.header.least, output.header.greatest) := by
  rw [(zone_of_execute executed).2, zoneEntry?] at zone
  obtain ⟨valid, zone⟩ := Option.ite_none_right_eq_some.mp zone
  split at zone
  · cases zone
    rfl
  next narrow =>
    cases zone
    obtain ⟨_, rfl⟩ | ⟨_, _, _, _, _, _, _, scanned, rfl⟩ := exists_answer_of_execute executed
    · rw [Bool.and_false] at valid
      cases valid
    · obtain ⟨least, greatest⟩ := fitsWord_of_scanBlock narrow scanned
      exact congr (congrArg Prod.mk least) greatest

end Output

def outcome (command : ColumnCommand) (visit : Visit σ) : Except ScanError StepOutput :=
  (command.execute visit.source visit.state visit.block visit.input).1

/-- The output of a run, if it is one on the given logical block and succeeds. -/
def outputOn? (command : ColumnCommand) (number : Nat) (visit : Visit σ) : Option StepOutput :=
  if visit.block.firstBlock = number then (command.outcome visit).toOption else none

/-- The outputs of the successful runs on a logical block, the oldest first. -/
def outputsOn (command : ColumnCommand) (number : Nat) (visits : List (Visit σ)) :
    List StepOutput :=
  visits.filterMap (command.outputOn? number)

theorem outcome_of_outputOn? {command : ColumnCommand} {number : Nat} {visit : Visit σ}
    {output : StepOutput} (found : command.outputOn? number visit = some output) :
    visit.block.firstBlock = number ∧ command.outcome visit = .ok output := by
  obtain ⟨same, found⟩ := Option.ite_none_right_eq_some.mp found
  refine ⟨same, ?_⟩
  cases outcome : command.outcome visit with
  | error error =>
      rw [outcome] at found
      cases found
  | ok result =>
      rw [outcome] at found
      exact congrArg Except.ok (Option.some.inj found)

theorem getLast?_outputsOn_append (command : ColumnCommand) (number : Nat)
    (visits : List (Visit σ)) (visit : Visit σ) :
    (command.outputsOn number (visits ++ [visit])).getLast? =
      (command.outputOn? number visit).or (command.outputsOn number visits).getLast? := by
  rw [outputsOn, List.filterMap_append, List.getLast?_append]
  cases found : command.outputOn? number visit <;> simp [found, outputsOn]

theorem isSome_zone_of_mem_outputsOn {command : ColumnCommand} {number : Nat}
    {visits : List (Visit σ)} {output : StepOutput}
    (member : output ∈ command.outputsOn number visits) :
    output.zone.isSome = (command.config.recordsZones && (command.column.isScan &&
      command.column.tracksExtent 0 command.scanConfig.maxExtentWidth)) := by
  obtain ⟨visit, _, found⟩ := List.mem_filterMap.mp member
  exact isSome_zone_of_execute (outcome_of_outputOn? found).2

end ColumnCommand

/-- An outcome changes the entry of its own block only, and a failure changes none. -/
theorem ZoneMap.entry?_record (zones : ZoneMap) (command : ColumnCommand) (visit : Visit σ)
    (number : Nat) :
    entry? (zones.record (command.outcome visit)) number =
      ((command.outputOn? number visit).bind StepOutput.zone).or ( zones.entry? number) := by
  unfold ColumnCommand.outputOn? record
  cases outcome : command.outcome visit with
  | error error => simp only [Except.toOption, ite_self, Option.bind_none, Option.none_or]
  | ok output =>
      have same : output.block = visit.block := (ColumnCommand.zone_of_execute outcome).1
      cases zone : output.zone with
      | none =>
          by_cases here : visit.block.firstBlock = number <;>
            simp only [here, Except.toOption, ↓reduceIte, Option.bind_some, Option.bind_none, zone,
              Option.none_or]
      | some entry =>
          simp only [zone, entry?_insert, same]
          by_cases here : visit.block.firstBlock = number <;>
            simp only [here, Except.toOption, ↓reduceIte, Option.bind_some, Option.bind_none, zone,
              Option.none_or, Option.some_or]

namespace ActiveCommand

def visit (active : ActiveCommand) (visit : Visit σ) : ActiveCommand :=
  (active.execute visit.source visit.state visit.block visit.input).2.1

def run (active : ActiveCommand) (visits : List (Visit σ)) : ActiveCommand :=
  visits.foldl ActiveCommand.visit active

theorem run_append (active : ActiveCommand) (visits : List (Visit σ)) (visit : Visit σ) :
    active.run (visits ++ [visit]) = (active.run visits).visit visit := by
  rw [run, List.foldl_append]
  rfl

theorem command_run (active : ActiveCommand) (visits : List (Visit σ)) :
    (active.run visits).command = active.command := by
  induction visits generalizing active with
  | nil => rfl
  | cons visit rest ih => exact ih (active.visit visit)

theorem zones_visit (active : ActiveCommand) (visit : Visit σ) :
    (active.visit visit).zones = active.zones.record (active.command.outcome visit) :=
  rfl

theorem zones_run_append (command : ColumnCommand) (visits : List (Visit σ)) (visit : Visit σ) :
    (run { command } (visits ++ [visit])).zones =
      (run { command } visits).zones.record (command.outcome visit) := by
  rw [run_append, zones_visit, command_run]

theorem ascending_run (command : ColumnCommand) (visits : List (Visit σ)) :
    (run { command } visits).zones.Ascending := by
  -- The latest run is the last of the list, so the history grows at its end.
  induction visits using List.reverseRecOn with
  | nil => exact List.Pairwise.nil
  | append_singleton visits visit ih =>
      rw [zones_run_append]
      unfold ZoneMap.record
      split
      · exact ih
      split
      · exact ih
      · exact ZoneMap.ascending_insert ih _ _

theorem entry?_run (command : ColumnCommand) (visits : List (Visit σ)) (number : Nat) :
    ZoneMap.entry? (run { command } visits).zones number =
      (command.outputsOn number visits).getLast?.bind StepOutput.zone := by
  induction visits using List.reverseRecOn with
  | nil => rfl
  | append_singleton visits visit ih =>
      rw [zones_run_append, ZoneMap.entry?_record, ih, command.getLast?_outputsOn_append]
      cases found : command.outputOn? number visit with
      | none => rfl
      | some output =>
          rw [Option.some_or, Option.bind_some]
          cases zone : output.zone with
          | some entry => rfl
          | none =>
              -- Then no other output of the command has a zone either.
              rw [Option.none_or]
              cases last : (command.outputsOn number visits).getLast? with
              | none => rfl
              | some earlier =>
                  have same := ColumnCommand.isSome_zone_of_mem_outputsOn
                    (List.mem_of_getLast? last)
                  have now := ColumnCommand.isSome_zone_of_execute
                    (ColumnCommand.outcome_of_outputOn? found).2
                  rw [← now, zone] at same
                  exact Option.not_isSome_iff_eq_none.mp (Bool.eq_false_iff.mp same)

theorem exists_entry?_run (command : ColumnCommand) (visits : List (Visit σ)) (number : Nat) :
    (∃ entry, ZoneMap.entry? (run { command } visits).zones number = some entry) ↔
      command.config.recordsZones = true ∧
        ∃ output ∈ command.outputsOn number visits, output.header.extentValid = true := by
  rw [entry?_run]
  constructor
  · rintro ⟨entry, found⟩
    obtain ⟨output, last, zone⟩ := Option.bind_eq_some_iff.mp found
    have member := List.mem_of_getLast? last
    obtain ⟨visit, _, ran⟩ := List.mem_filterMap.mp member
    have recorded := (ColumnCommand.zone_of_execute (ColumnCommand.outcome_of_outputOn? ran).2).2
    have allowed := command.isSome_zoneEntry? output.header
    rw [← recorded, zone, Option.isSome_some, eq_comm, Bool.and_eq_true, Bool.and_eq_true]
      at allowed
    exact ⟨allowed.1.2, output, member, allowed.2⟩
  · rintro ⟨records, output, member, valid⟩
    obtain ⟨visit, _, ran⟩ := List.mem_filterMap.mp member
    have tracks := ColumnCommand.extentValid_of_execute (ColumnCommand.outcome_of_outputOn? ran).2
    rw [← Option.isSome_iff_exists, List.getLast?_eq_some_getLast (List.ne_nil_of_mem member),
      Option.bind_some,
      ColumnCommand.isSome_zone_of_mem_outputsOn (List.getLast_mem (List.ne_nil_of_mem member)),
      records, ← tracks, valid]
    rfl

/-- After any runs of a command on any blocks, failures among them, its zone map lists blocks once
each in ascending order. It has the zone of the last output on each block and no other: one for every
block with an output whose extent is valid, if the command records zones. The zone stands for the
bounds in the header of its output. A run that fails leaves the map as it was, and a step never records
anything. -/
theorem run_zones (command : ColumnCommand) (visits : List (Visit σ)) :
    let active := run { command } visits
    active.command = command ∧
    (active.zones.map Prod.fst).Pairwise (· < ·) ∧
    (∀ number entry, (number, entry) ∈ active.zones ↔
      active.zones.entry? number = some entry) ∧
    (∀ number, active.zones.entry? number =
      (command.outputsOn number visits).getLast?.bind StepOutput.zone) ∧
    (∀ number, (∃ entry, active.zones.entry? number = some entry) ↔
      command.config.recordsZones = true ∧
        ∃ output ∈ command.outputsOn number visits, output.header.extentValid = true) ∧
    (∀ number, ∀ output ∈ command.outputsOn number visits, ∀ entry, output.zone = some entry →
      entry.bounds command.column = (output.header.least, output.header.greatest)) ∧
    (∀ (visit : Visit σ) (error : ScanError), command.outcome visit = .error error →
      (active.visit visit).zones = active.zones) ∧
    (command.column.isScan = false → active.zones = [] ∧
      ∀ (visit : Visit σ) (output : StepOutput), command.outcome visit = .ok output →
        output.zone = none) := by
  intro active
  have ascending := ascending_run command visits
  have same : active.command = command := command_run { command } visits
  refine ⟨same, ascending, fun number entry => ZoneMap.mem_iff_entry? ascending,
    entry?_run command visits, exists_entry?_run command visits,
    fun number output member entry zone => ?_, fun visit error failed => ?_,
    fun step => ⟨List.eq_nil_iff_forall_not_mem.mpr fun item member => ?_,
      fun visit output succeeded => ?_⟩⟩
  · obtain ⟨visit, _, found⟩ := List.mem_filterMap.mp member
    exact ColumnCommand.bounds_of_zone (ColumnCommand.outcome_of_outputOn? found).2 zone
  · rw [show (active.visit visit).zones = _ from zones_visit active visit, same, failed]
    rfl
  · have present := (ZoneMap.mem_iff_entry? ascending).mp member
    obtain ⟨_, output, listed, valid⟩ :=
      (exists_entry?_run command visits item.1).mp ⟨item.2, present⟩
    obtain ⟨visit, _, found⟩ := List.mem_filterMap.mp listed
    rw [ColumnCommand.extentValid_of_execute (ColumnCommand.outcome_of_outputOn? found).2, step]
      at valid
    cases valid
  · have none := ColumnCommand.isSome_zone_of_execute succeeded
    rw [step, Bool.false_and, Bool.and_false] at none
    exact Option.not_isSome_iff_eq_none.mp (Bool.eq_false_iff.mp none)

/-- The second block is missing, so the only zone is that of the first one. -/
theorem run_zones_tinyInt :
    let column : ColumnDescriptor := { width := 1, logicalType := .tinyInt, output := .both }
    let command : ColumnCommand :=
      { column
        filter := .alwaysTrue 1
        config := {}
        scanConfig := {}
        supported := rfl
        lanes_eq := rfl }
    let zeros : PhysicalBlock := ⟨Array.replicate physicalBlockSize 0, Array.size_replicate⟩
    let store : MemoryStore := { blocks := [(0, zeros)] }
    let first : Visit MemoryStore :=
      { source := MemoryStore.source, state := store, block := ⟨0, 0⟩, input := none }
    let second : Visit MemoryStore := { first with block := ⟨1, 8192⟩ }
    let active := run { command } [first, second]
    command.outcome second = .error (.readFailed (.blockMissing 1)) ∧
    (active.visit second).zones = active.zones ∧
    active.zones.entry? 1 = none ∧
    ∃ output entry, command.outcome first = .ok output ∧ active.zones.entry? 0 = some entry ∧
      entry.bounds column = (output.header.least, output.header.greatest) := by
  intro column command zeros store first second active
  have missing : command.outcome second = .error (.readFailed (.blockMissing 1)) := rfl
  obtain ⟨_, _, _, last, present, bounds, fails, _⟩ := run_zones command [first, second]
  have serves : MemoryStore.source.Serves (fun state => state.blocks = store.blocks) store.content
      ((List.range command.column.width).map (first.block.firstBlock + ·)) :=
    store.serves (by decide)
  obtain ⟨output, next, executed, _⟩ :=
    command.execute_scan_selects rfl .alwaysTrue serves rfl rfl none
  have succeeded : command.outcome first = .ok output := congrArg Prod.fst executed
  have ran : command.outputOn? 0 first = some output := by
    rw [ColumnCommand.outputOn?, if_pos rfl, succeeded]
    rfl
  have failed : command.outputOn? 1 second = none := by
    rw [ColumnCommand.outputOn?, missing]
    exact ite_self none
  have elsewhere : command.outputOn? 0 second = none := if_neg (by decide)
  have notHere : command.outputOn? 1 first = none := if_neg (by decide)
  have here : command.outputsOn 0 [first, second] = [output] := by
    rw [ColumnCommand.outputsOn, List.filterMap_cons_some ran, List.filterMap_cons_none elsewhere,
      List.filterMap_nil]
  have there : command.outputsOn 1 [first, second] = [] := by
    rw [ColumnCommand.outputsOn, List.filterMap_cons_none notHere, List.filterMap_cons_none failed,
      List.filterMap_nil]
  have valid : output.header.extentValid = true :=
    ColumnCommand.extentValid_of_execute succeeded
  have member : output ∈ command.outputsOn 0 [first, second] := here ▸ List.mem_singleton_self _
  obtain ⟨entry, found⟩ := (present 0).mpr ⟨rfl, output, member, valid⟩
  have zone : output.zone = some entry := by
    rw [← found, last 0, here]
    rfl
  refine ⟨missing, fails second _ missing, ?_, output, entry, succeeded, found,
    bounds 0 output member entry zone⟩
  rw [last 1, there]
  rfl

end ActiveCommand

end ColumnScan
