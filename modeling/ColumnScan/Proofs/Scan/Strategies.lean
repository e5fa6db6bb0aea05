import ColumnScan.Proofs.Filter.BatchEvaluation
import ColumnScan.Proofs.Scan.Candidates

/-!
# Both ways to scan a block

Row by row or in a batch, a scan collects the same matches in the same order, fails at the same
match if they do not fit, and finds the same extent. The settings may therefore choose freely.
-/

set_option autoImplicit false

namespace ColumnScan

def MatchBuffer.pushAll (buffer : MatchBuffer) (candidates : List Candidate) :
    Except ScanError MatchBuffer :=
  candidates.foldlM push buffer

theorem MatchBuffer.foldlM_pushIf (buffer : MatchBuffer) (candidates : List Candidate)
    (condition : Candidate → Bool) :
    candidates.foldlM (fun buffer candidate => pushIf (condition candidate) buffer candidate)
      buffer = buffer.pushAll (candidates.filter condition) := by
  rw [pushAll, List.foldlM_filter]
  rfl

theorem MatchBuffer.found_push {buffer next : MatchBuffer} {candidate : Candidate}
    (pushed : buffer.push candidate = .ok next) : next.found = buffer.found.push candidate := by
  unfold push at pushed
  dsimp only at pushed
  split at pushed
  · split at pushed <;> cases pushed
    rfl
  · cases pushed
    rfl

theorem MatchBuffer.found_pushAll {buffer result : MatchBuffer} {candidates : List Candidate}
    (pushed : buffer.pushAll candidates = .ok result) :
    result.found.toList = buffer.found.toList ++ candidates := by
  induction candidates generalizing buffer with
  | nil =>
      cases pushed
      exact (List.append_nil _).symm
  | cons candidate rest ih =>
      rw [pushAll, List.foldlM_cons] at pushed
      obtain ⟨next, first, others⟩ := bind_eq_ok pushed
      rw [ih others, found_push first, Array.toList_push, List.append_assoc, List.singleton_append]

namespace BlockView

def matchesOf (view : BlockView) (filter : CompiledFilter) : List Candidate :=
  view.candidates.filter <| RowByRow.accepts view filter
    (filter.accepts view.comparator view.sentinels.empty false)
    (filter.accepts view.comparator view.sentinels.null true)

def ordinaryLanes (view : BlockView) : List Int :=
  (view.candidates.map Candidate.lane).filter view.isOrdinary

def extent (view : BlockView) : Extent :=
  if view.tracksExtent then view.ordinaryLanes.foldl (Extent.insert view.comparator) Extent.empty
  else Extent.empty

end BlockView

/-- Matches and extent do not influence each other, so a scan row by row is two passes. -/
theorem RowByRow.foldlM_visit (view : BlockView) (filter : CompiledFilter)
    (emptyMatches nullMatches : Bool) (candidates : List Candidate) (buffer : MatchBuffer)
    (extent : Extent) :
    candidates.foldlM (visit view filter emptyMatches nullMatches) (buffer, extent) = do
      let buffer ←
        buffer.pushAll (candidates.filter (accepts view filter emptyMatches nullMatches))
      let lanes := (candidates.map Candidate.lane).filter view.isOrdinary
      return (buffer,
        if view.tracksExtent then lanes.foldl (Extent.insert view.comparator) extent
        else extent) := by
  induction candidates generalizing buffer extent with
  | nil => cases tracks : view.tracksExtent <;> rfl
  | cons candidate rest ih =>
      -- Both sides push the first candidate, and they agree on the rest from any buffer and extent.
      simp only [← MatchBuffer.foldlM_pushIf, List.foldlM_cons, visit, bind_assoc, pure_bind] at ih ⊢
      refine bind_congr fun pushed => ?_
      rw [ih]
      refine bind_congr fun collected => ?_
      cases tracks : view.tracksExtent <;>
        cases ordinary : view.isOrdinary candidate.lane <;>
        simp only [List.map_cons, List.filter_cons, ordinary, Bool.false_eq_true, ↓reduceIte,
          List.foldl_cons, Bool.and_false, Bool.and_true, Bool.and_self]

theorem RowByRow.scan_eq (view : BlockView) (filter : CompiledFilter) (buffer : MatchBuffer) :
    scan view filter buffer = do
      let buffer ← buffer.pushAll (view.matchesOf filter)
      return (buffer, view.extent) :=
  foldlM_visit view filter _ _ view.candidates buffer Extent.empty

/-- What a batch passes over is not ordinary, so it finds the extent of all candidates. -/
theorem Batch.extent_gather (view : BlockView) : extent view (gather view) = view.extent := by
  have lanes : ((gather view).map Candidate.lane).filter view.isOrdinary = view.ordinaryLanes := by
    rw [gather, BlockView.ordinaryLanes, List.filter_map, List.filter_map, List.filter_filter]
    congr 1
    refine List.filter_congr fun candidate _ => ?_
    simp only [Function.comp_apply, BlockView.isOrdinary]
    cases view.sentinels.isEmpty candidate.lane <;> simp
  rw [extent, lanes, BlockView.extent]

/-- Whether a batch emits a candidate that it has gathered. -/
def Batch.isMatch (view : BlockView) (filter : CompiledFilter) (candidate : Candidate) : Bool :=
  if view.sentinels.isNull candidate.lane then
    filter.accepts view.comparator view.sentinels.null true
  else filter.batchAnswer view.comparator candidate.lane

theorem Batch.scan_eq_pushAll (view : BlockView) (filter : CompiledFilter) (buffer : MatchBuffer) :
    scan view filter buffer = do
      let buffer ← buffer.pushAll ((gather view).filter (isMatch view filter))
      return (buffer, view.extent) := by
  have answers : (gather view).zip
        (filter.acceptsEach view.comparator ((gather view).map Candidate.lane)) =
      (gather view).map fun candidate =>
        (candidate, filter.batchAnswer view.comparator candidate.lane) := by
    rw [CompiledFilter.acceptsEach_eq_map, List.map_map, List.zip_eq_zipWith,
      List.zipWith_map_right, List.zipWith_self]
    rfl
  have emitted : (gather view).foldlM (fun buffer candidate =>
        emit view (filter.accepts view.comparator view.sentinels.null true) buffer
          (candidate, filter.batchAnswer view.comparator candidate.lane)) buffer =
      buffer.pushAll ((gather view).filter (isMatch view filter)) := by
    rw [← MatchBuffer.foldlM_pushIf]
    rfl
  simp only [scan, answers, List.foldlM_map, emitted, extent_gather]

namespace BlockView

/-- What a scan collects if there is room for it. A batch asks any filter in its own way, and the
answers can only differ for a filter that was not compiled for the column. -/
def matched (view : BlockView) (filter : CompiledFilter) (config : ScanConfig) : List Candidate :=
  if view.comparator.isBatchable && config.batches && filter.flagsAllZero then
    (Batch.gather view).filter (Batch.isMatch view filter)
  else
    view.matchesOf filter

theorem matched_sublist (view : BlockView) (filter : CompiledFilter) (config : ScanConfig) :
    (view.matched filter config).Sublist view.candidates := by
  unfold matched
  split
  · exact List.filter_sublist.trans List.filter_sublist
  · exact List.filter_sublist

/-- The room for matches decides whether a scan succeeds, but not what it looks for. -/
theorem scan_eq_pushAll (view : BlockView) (filter : CompiledFilter) (buffer : MatchBuffer)
    (config : ScanConfig) :
    view.scan filter buffer config = do
      let buffer ← buffer.pushAll (view.matched filter config)
      return (buffer, view.extent) := by
  unfold scan matched
  split
  · exact Batch.scan_eq_pushAll view filter buffer
  · exact RowByRow.scan_eq view filter buffer

end BlockView

section Columns

variable {column : ColumnDescriptor} {pair : SentinelPair} {filter : CompiledFilter}
  {view : BlockView}

theorem Batch.match_eq_accepts (reads : view.Reads column pair)
    (compiledFor : filter.CompiledFor column)
    (found : column.logicalType.sentinels? column.width = some pair)
    (unflagged : filter.flagsAllZero = true) {candidate : Candidate}
    (member : candidate ∈ view.candidates) :
    (!(view.skipsEmpty && view.sentinels.isEmpty candidate.lane) &&
      if view.sentinels.isNull candidate.lane then
        filter.accepts view.comparator view.sentinels.null true
      else filter.batchAnswer view.comparator candidate.lane) =
    RowByRow.accepts view filter (filter.accepts view.comparator view.sentinels.empty false)
      (filter.accepts view.comparator view.sentinels.null true) candidate := by
  have hasLane := reads.hasLane candidate member
  have answer : view.sentinels.isNull candidate.lane = false →
      filter.batchAnswer view.comparator candidate.lane =
        filter.accepts view.comparator candidate.lane false := by
    rw [reads.comparator_eq, reads.sentinels_eq]
    exact CompiledFilter.batchAnswer_eq_accepts compiledFor found unflagged hasLane
  have emptyNotNull : view.sentinels.isNull view.sentinels.empty = false := by
    rw [reads.sentinels_eq]
    exact LaneSentinels.isNull_empty (LogicalType.wellFormed_of_sentinels? found)
  unfold RowByRow.accepts
  cases isEmpty : view.sentinels.isEmpty candidate.lane with
  | true =>
      have lane : candidate.lane = view.sentinels.empty := beq_iff_eq.mp isEmpty
      rw [lane] at answer ⊢
      simp only [emptyNotNull, answer emptyNotNull, Bool.and_true, Bool.false_eq_true, ↓reduceIte]
  | false =>
      cases isNull : view.sentinels.isNull candidate.lane with
      | true => simp only [Bool.and_false, Bool.not_false, Bool.true_and, Bool.false_eq_true,
          ↓reduceIte]
      | false => simp only [answer isNull, Bool.and_false, Bool.not_false, Bool.true_and,
          Bool.false_eq_true, ↓reduceIte]

theorem BlockView.matched_eq_matchesOf (reads : view.Reads column pair)
    (compiledFor : filter.CompiledFor column)
    (found : column.logicalType.sentinels? column.width = some pair) (config : ScanConfig) :
    view.matched filter config = view.matchesOf filter := by
  unfold matched
  split
  next batched =>
    simp only [Bool.and_eq_true] at batched
    rw [Batch.gather, List.filter_filter, matchesOf]
    refine List.filter_congr fun candidate member => ?_
    rw [Bool.and_comm]
    exact Batch.match_eq_accepts reads compiledFor found batched.2 member
  next => rfl

/-- A scan collects the matches and finds the extent, whichever way the settings choose. -/
theorem BlockView.scan_eq (reads : view.Reads column pair) (compiledFor : filter.CompiledFor column)
    (found : column.logicalType.sentinels? column.width = some pair) (buffer : MatchBuffer)
    (config : ScanConfig) :
    view.scan filter buffer config = do
      let buffer ← buffer.pushAll (view.matchesOf filter)
      return (buffer, view.extent) := by
  rw [scan_eq_pushAll, matched_eq_matchesOf reads compiledFor found]

end Columns

/-- Scanning in batches changes nothing about the answer of a scan, nor about its error. -/
theorem scanBlock_batches (column : ColumnDescriptor) {filter : CompiledFilter}
    (compiledFor : filter.CompiledFor column) (block : Array UInt8) (rows : List RowIndex)
    (capacity : Nat) (config : ScanConfig) :
    scanBlock column filter block rows capacity { config with batches := true } =
      scanBlock column filter block rows capacity { config with batches := false } := by
  unfold scanBlock
  refine bind_congr_ok fun _ _ => ?_
  refine bind_congr_ok fun rowCount counted => ?_
  refine bind_congr_ok fun _ checked => ?_
  refine bind_congr_ok fun pair patterns => ?_
  refine bind_congr_ok fun _ _ => ?_
  obtain ⟨size, addressable⟩ := blockRows_eq_ok counted
  have inside := checkRows_eq_ok_iff.mp checked
  have found := LogicalType.sentinels_eq_ok_iff.mp patterns
  have reads : ∀ config, (BlockView.ofBlock column pair block rowCount rows config).Reads
      column pair := fun config => BlockView.reads_ofBlock size addressable inside
  simp only [BlockView.scan_eq (reads _) compiledFor found]
  rfl

theorem scanBlock_batches_date :
    let records := predicateRecords
      [{ operator := .less, value := [9, 0, 0, 0, 0, 0, 0, 0] },
        { operator := .equal, value := [0xFE, 0xFF, 0xFF, 0xFF, 0xFF, 0xFF, 0xFF, 0xFF] }]
    let block : Array UInt8 :=
      #[5, 0, 0, 0, 0, 0, 0, 0, 0xFE, 0xFF, 0xFF, 0xFF, 0xFF, 0xFF, 0xFF, 0xFF]
    ∃ filter, CompiledFilter.compile records 8 .date 2 .xor = .ok filter ∧
      scanBlock { width := 8, logicalType := .date } filter block [] 8 { batches := true } =
        scanBlock { width := 8, logicalType := .date } filter block [] 8 { batches := false } := by
  intro records block
  have compiled : CompiledFilter.compile records 8 .date 2 .xor = .ok _ := rfl
  let column : ColumnDescriptor := { width := 8, logicalType := .date }
  exact ⟨_, compiled, scanBlock_batches column (.compiled compiled) block [] 8 {}⟩

end ColumnScan
