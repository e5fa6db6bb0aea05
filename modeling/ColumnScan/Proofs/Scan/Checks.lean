import ColumnScan.Proofs.Scan.Strategies

/-!
# The checks of a scan

A scan checks its column, block, rows and filter before it looks at the first row. Either one of the
checks fails, whatever the settings, or the scan only has to collect what it finds, and then nothing
but a lack of room can stop it.
-/

set_option autoImplicit false

namespace ColumnScan

/-- Whether an error says that there is no room for the matches. -/
def ScanError.lacksRoom : ScanError → Bool
  | .outputTooSmall _ _ => true
  | _ => false

section Failures

variable {column : ColumnDescriptor} {error : ScanError}

theorem lacksRoom_of_validate (failed : column.validate = .error error) :
    error.lacksRoom = false := by
  unfold ColumnDescriptor.validate at failed
  split at failed <;> cases failed
  rfl

theorem lacksRoom_of_blockRows {width : Nat} {block : Array UInt8}
    (failed : blockRows width block = .error error) : error.lacksRoom = false := by
  unfold blockRows at failed
  split at failed
  · cases failed
    rfl
  · split at failed <;> cases failed
    rfl

theorem lacksRoom_of_checkRows {rowCount : Nat} {rows : List RowIndex}
    (failed : checkRows rowCount rows = .error error) : error.lacksRoom = false := by
  unfold checkRows at failed
  split at failed <;> cases failed
  rfl

theorem lacksRoom_of_sentinels (failed : column.sentinels = .error error) :
    error.lacksRoom = false := by
  unfold ColumnDescriptor.sentinels LogicalType.sentinels at failed
  split at failed <;> cases failed
  rfl

theorem lacksRoom_of_checkLanes {width : Nat} {lanes : LaneSize}
    (failed : checkLanes width lanes = .error error) : error.lacksRoom = false := by
  unfold checkLanes at failed
  split at failed <;> cases failed <;> rfl

end Failures

theorem MatchBuffer.push_eq_ok {buffer : MatchBuffer} (candidate : Candidate)
    (room : ∀ limit ∈ buffer.limit, (buffer.found.size + 1) * buffer.entrySize ≤ limit) :
    buffer.push candidate = .ok { buffer with found := buffer.found.push candidate } := by
  unfold push
  cases limited : buffer.limit with
  | none => rfl
  | some limit => simp only [Nat.not_lt.mpr (room limit limited), ↓reduceIte]

theorem MatchBuffer.pushAll_eq_ok (buffer : MatchBuffer) (candidates : List Candidate)
    (room : ∀ limit ∈ buffer.limit,
      (buffer.found.size + candidates.length) * buffer.entrySize ≤ limit) :
    buffer.pushAll candidates =
      .ok { buffer with found := buffer.found ++ candidates.toArray } := by
  induction candidates generalizing buffer with
  | nil => simp only [pushAll, List.foldlM_nil, Array.append_empty]; rfl
  | cons candidate rest ih =>
      rw [List.length_cons] at room
      have first : buffer.found.size + 1 ≤ buffer.found.size + (rest.length + 1) := by omega
      have pushed := push_eq_ok candidate fun limit limited =>
        Nat.le_trans (Nat.mul_le_mul_right _ first) (room limit limited)
      have count : buffer.found.size + (rest.length + 1) =
          (buffer.found.push candidate).size + rest.length := by
        rw [Array.size_push]
        omega
      rw [count] at room
      have others := ih { buffer with found := buffer.found.push candidate } room
      rw [pushAll] at others ⊢
      rw [List.foldlM_cons, pushed]
      refine others.trans ?_
      rw [List.toArray_cons, ← Array.append_assoc, Array.push_eq_append]

/-- The first match that exceeds the limit ends the collection. -/
theorem MatchBuffer.pushAll_eq_error {buffer : MatchBuffer} {candidates : List Candidate}
    {limit : Nat} (limited : buffer.limit = some limit)
    (room : buffer.found.size * buffer.entrySize ≤ limit)
    (full : limit < (buffer.found.size + candidates.length) * buffer.entrySize) :
    buffer.pushAll candidates =
      .error (.outputTooSmall (buffer.entrySize * (limit / buffer.entrySize + 1)) limit) := by
  induction candidates generalizing buffer with
  | nil => exact absurd full (Nat.not_lt.mpr room)
  | cons candidate rest ih =>
      rw [pushAll, List.foldlM_cons]
      by_cases fits : (buffer.found.size + 1) * buffer.entrySize ≤ limit
      · have pushed : buffer.push candidate =
            .ok { buffer with found := buffer.found.push candidate } :=
          push_eq_ok candidate fun other same => by
            cases limited.symm.trans same
            exact fits
        rw [pushed]
        refine ih limited ?_ ?_
        · simpa only [Array.size_push] using fits
        · rwa [Array.size_push, Nat.add_assoc, Nat.add_comm 1]
      -- Only the matches before this one fit, so the quotient counts them.
      · have counted : limit / buffer.entrySize = buffer.found.size :=
          Nat.div_eq_of_lt_le room (Nat.lt_of_not_le fits)
        simp only [push, limited, Nat.lt_of_not_le fits, ↓reduceIte, counted]
        rw [Nat.mul_comm]
        rfl

/-- What a scan has checked before it looks at the first row. -/
structure ScanChecked (column : ColumnDescriptor) (filter : CompiledFilter) (block : Array UInt8)
    (rows : List RowIndex) (rowCount : Nat) (pair : SentinelPair) : Prop where
  supported : column.isSupported = true
  counted : blockRows column.width block = .ok rowCount
  inside : ∀ row ∈ rows, row.toNat < rowCount
  patterns : column.sentinels = .ok pair
  lanes : checkLanes column.width filter.lanes = .ok ()

/-- The answer that reports these matches and the extent of the view. -/
def BlockView.report (view : BlockView) (column : ColumnDescriptor) (found : List Candidate) :
    ScanAnswer :=
  let bounds := view.extent.bounds column.comparator
  { header :=
      { matched := UInt16.ofNat found.length
        rowMap := if column.output.emitsRow then RowMap.ofRows (found.map Candidate.row) else 0
        extentValid := view.tracksExtent
        least := bounds.1
        greatest := bounds.2 }
    payload := found.flatMap (Candidate.entry column.output) }

theorem BlockView.length_matched_le (column : ColumnDescriptor) (pair : SentinelPair)
    (filter : CompiledFilter) (block : Array UInt8) (rowCount : Nat) (rows : List RowIndex)
    (config : ScanConfig) :
    ((ofBlock column pair block rowCount rows config).matched filter config).length ≤
      (requestedRows rowCount rows).length := by
  rw [← rowsToVisit_perm.length_eq]
  exact Nat.le_trans (matched_sublist _ filter config).length_le (Nat.le_of_eq (List.length_map _))

section Scan

variable {column : ColumnDescriptor} {filter : CompiledFilter} {block : Array UInt8}
  {rows : List RowIndex}

section Checked

variable {rowCount : Nat} {pair : SentinelPair}
  (checked : ScanChecked column filter block rows rowCount pair)

include checked

theorem ScanChecked.size : block.size = rowCount * column.width :=
  (blockRows_eq_ok checked.counted).1

theorem ScanChecked.addressable : rowCount ≤ maxRows :=
  (blockRows_eq_ok checked.counted).2

theorem ScanChecked.width_pos : 0 < column.width :=
  (LogicalType.wellFormed_of_sentinels?
    (LogicalType.sentinels_eq_ok_iff.mp checked.patterns)).width_pos

/-- After its checks a scan collects what it finds, as far as there is room, and reports it. -/
theorem ScanChecked.scanBlock_eq (capacity : Nat) (config : ScanConfig) :
    let view := BlockView.ofBlock column pair block rowCount rows config
    let found := view.matched filter config
    let buffer : MatchBuffer :=
      { entrySize := column.output.entrySize column.width
        limit := if config.checksCapacity then some capacity else none }
    scanBlock column filter block rows capacity config =
      buffer.pushAll found >>= fun _ => .ok (view.report column found) := by
  intro view found buffer
  have validated := ColumnDescriptor.validate_eq_ok_iff.mpr checked.supported
  have inside := checkRows_eq_ok_iff.mpr checked.inside
  unfold scanBlock
  simp only [validated, checked.counted, inside, checked.patterns, checked.lanes, bind, Except.bind]
  change (view.scan filter buffer config >>= _) = _
  have scanned : view.scan filter buffer config =
      buffer.pushAll found >>= fun buffer => .ok (buffer, view.extent) :=
    view.scan_eq_pushAll filter buffer config
  rw [scanned]
  cases pushed : buffer.pushAll found with
  | error error => rfl
  | ok collected =>
      have same : collected.found.toList = found := MatchBuffer.found_pushAll pushed
      rw [BlockView.report, ← same]
      rfl

theorem ScanChecked.length_stored {config : ScanConfig} {candidate : Candidate}
    (member : candidate ∈
      (BlockView.ofBlock column pair block rowCount rows config).matched filter config) :
    candidate.stored.length = column.width :=
  BlockView.length_stored checked.size checked.addressable checked.inside
    ((BlockView.matched_sublist _ filter config).subset member)

/-- If there is room for all that a scan finds, it reports all of it. -/
theorem ScanChecked.scanBlock_eq_report (capacity : Nat) (config : ScanConfig)
    (room : config.checksCapacity = true →
      ((BlockView.ofBlock column pair block rowCount rows config).matched filter config).length *
        column.output.entrySize column.width ≤ capacity) :
    let view := BlockView.ofBlock column pair block rowCount rows config
    scanBlock column filter block rows capacity config =
      .ok (view.report column (view.matched filter config)) := by
  intro view
  rw [checked.scanBlock_eq, MatchBuffer.pushAll_eq_ok]
  · rfl
  · intro limit limited
    simp only [Option.ite_none_right_eq_some, Option.mem_def, Option.some.injEq] at limited
    obtain ⟨checks, rfl⟩ := limited
    simpa only [List.size_toArray, List.length_nil, Nat.zero_add] using room checks

/-- There is room for all that a scan finds if there is for every requested row. -/
theorem ScanChecked.scanBlock_eq_report_of_worstCase (capacity : Nat) (config : ScanConfig)
    (room : config.checksCapacity = true →
      worstCaseSize (requestedRows rowCount rows).length column.output column.width ≤ capacity) :
    let view := BlockView.ofBlock column pair block rowCount rows config
    scanBlock column filter block rows capacity config =
      .ok (view.report column (view.matched filter config)) := by
  have few := BlockView.length_matched_le column pair filter block rowCount rows config
  exact checked.scanBlock_eq_report capacity config fun checks =>
    Nat.le_trans (Nat.mul_le_mul_right _ few) (room checks)

/-- If there is not enough room, the scan names the size up to the first match that does not fit. -/
theorem ScanChecked.scanBlock_eq_error (capacity : Nat) (config : ScanConfig)
    (checks : config.checksCapacity = true)
    (full : capacity <
      ((BlockView.ofBlock column pair block rowCount rows config).matched filter config).length *
        column.output.entrySize column.width) :
    let entrySize := column.output.entrySize column.width
    scanBlock column filter block rows capacity config =
      .error (.outputTooSmall (entrySize * (capacity / entrySize + 1)) capacity) := by
  intro entrySize
  rw [checked.scanBlock_eq, MatchBuffer.pushAll_eq_error (if_pos checks)]
  · rfl
  · simp only [List.size_toArray, List.length_nil, Nat.zero_mul, Nat.zero_le]
  · simpa only [List.size_toArray, List.length_nil, Nat.zero_add] using full

end Checked

theorem scanBlock_cases (column : ColumnDescriptor) (filter : CompiledFilter) (block : Array UInt8)
    (rows : List RowIndex) :
    (∃ error : ScanError, error.lacksRoom = false ∧
      ∀ capacity config, scanBlock column filter block rows capacity config = .error error) ∨
    ∃ rowCount pair, ScanChecked column filter block rows rowCount pair := by
  cases validated : column.validate with
  | error error =>
      refine .inl ⟨error, lacksRoom_of_validate validated, fun _ _ => ?_⟩
      simp only [scanBlock, validated, bind, Except.bind]
  | ok _ =>
  cases counted : blockRows column.width block with
  | error error =>
      refine .inl ⟨error, lacksRoom_of_blockRows counted, fun _ _ => ?_⟩
      simp only [scanBlock, validated, counted, bind, Except.bind]
  | ok rowCount =>
  cases inside : checkRows rowCount rows with
  | error error =>
      refine .inl ⟨error, lacksRoom_of_checkRows inside, fun _ _ => ?_⟩
      simp only [scanBlock, validated, counted, inside, bind, Except.bind]
  | ok _ =>
  cases patterns : column.sentinels with
  | error error =>
      refine .inl ⟨error, lacksRoom_of_sentinels patterns, fun _ _ => ?_⟩
      simp only [scanBlock, validated, counted, inside, patterns, bind, Except.bind]
  | ok pair =>
  cases lanes : checkLanes column.width filter.lanes with
  | error error =>
      refine .inl ⟨error, lacksRoom_of_checkLanes lanes, fun _ _ => ?_⟩
      simp only [scanBlock, validated, counted, inside, patterns, lanes, bind, Except.bind]
  | ok _ =>
      have supported := ColumnDescriptor.validate_eq_ok_iff.mp validated
      exact .inr ⟨rowCount, pair, supported, counted, checkRows_eq_ok_iff.mp inside, patterns, lanes⟩

/-- Every answer of a scan encodes some of the visited rows and reports their row map and the extent
of its view, whatever the filter. -/
theorem scanBlock_eq_ok {capacity : Nat} {config : ScanConfig} {answer : ScanAnswer}
    (scanned : scanBlock column filter block rows capacity config = .ok answer) :
    ∃ rowCount pair, ∃ found : List Candidate,
      column.isSupported = true ∧ block.size = rowCount * column.width ∧
      rowCount ≤ maxRows ∧ (∀ row ∈ rows, row.toNat < rowCount) ∧ column.sentinels = .ok pair ∧
      let view := BlockView.ofBlock column pair block rowCount rows config
      let bounds := view.extent.bounds column.comparator
      found.Sublist view.candidates ∧
        answer.header =
          { matched := UInt16.ofNat found.length
            rowMap := if column.output.emitsRow then RowMap.ofRows (found.map Candidate.row) else 0
            extentValid := view.tracksExtent
            least := bounds.1
            greatest := bounds.2 } ∧
        answer.payload = found.flatMap (Candidate.entry column.output) := by
  obtain ⟨error, _, failed⟩ | ⟨rowCount, pair, checked⟩ := scanBlock_cases column filter block rows
  · rw [failed] at scanned
    cases scanned
  · rw [checked.scanBlock_eq] at scanned
    obtain ⟨_, _, finished⟩ := bind_eq_ok scanned
    cases finished
    exact ⟨rowCount, pair, _, checked.supported, checked.size, checked.addressable, checked.inside,
      checked.patterns, BlockView.matched_sublist _ filter config, rfl, rfl⟩

end Scan

end ColumnScan
