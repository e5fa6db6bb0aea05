import ColumnScan.Proofs.Scan.EncodedAnswer
import ColumnScan.Proofs.Wire.CanonicalRequest
import ColumnScan.Wire.Service

/-!
# Requests that are answered

A request comes from outside and may say anything. It is answered exactly if it is well formed and
fits its block: the decoder, the compiler and the scan each check a part of this, and together they
leave nothing to chance. The answer that is sent back reads as the answer of the scan.
-/

set_option autoImplicit false

namespace ColumnScan

namespace ScanRequest

variable {request : ScanRequest} {block : Array UInt8} {capacity : Nat} {config : ScanConfig}

/-- The number of requested rows that match. -/
def matchCount (request : ScanRequest) (pair : SentinelPair) (filter : CompiledFilter)
    (block : Array UInt8) : Nat :=
  (requestedRows (block.size / request.column.width) request.rows).countP fun row =>
    request.column.qualifies pair filter request.rows (cell block request.column.width row.toNat)

/-- What a decoded request has to satisfy to be answered for a block. -/
structure Answerable (request : ScanRequest) (block : Array UInt8) (capacity : Nat)
    (config : ScanConfig) : Prop where
  patterned : ∃ pair, request.column.sentinels = .ok pair
  supported : request.column.isSupported = true
  joined : 1 < request.predicateCount.toNat → request.combinator ≠ .none
  operators : CompiledFilter.KnownOperators request.filter request.column.width
    request.predicateCount.toNat
  whole : request.column.width ∣ block.size
  addressable : block.size / request.column.width ≤ maxRows
  inside : ∀ row ∈ request.rows, row.toNat < block.size / request.column.width
  room : config.checksCapacity = true → ∀ pair filter,
    request.column.sentinels = .ok pair → request.compile = .ok filter →
      request.matchCount pair filter block *
        request.column.output.entrySize request.column.width ≤ capacity

/-- Whatever a decoded request says, no check lets an index, a divisor or a count out of range. -/
structure Bounded (request : ScanRequest) (block : Array UInt8) : Prop where
  /-- Every record that is counted is there in full. -/
  records : ∀ index < request.predicateCount.toNat,
    (index + 1) * (recordOverhead + request.column.width) ≤ request.filter.length
  /-- Only values of these widths are widened. -/
  lanes : ∀ pair, request.column.sentinels = .ok pair → request.column.width ∈ [1, 2, 4, 8, 16]
  /-- A block is not divided into values of no width. -/
  divisor : request.column.validate = .ok () → request.column.width ≠ 0
  /-- Every row that is visited holds a value of the block. -/
  rows : ∀ rowCount, blockRows request.column.width block = .ok rowCount →
    checkRows rowCount request.rows = .ok () →
      ∀ row ∈ rowsToVisit rowCount request.rows,
        (row.toNat + 1) * request.column.width ≤ block.size
  /-- The rows of a block have different indexes, and the matches among those visited can be
  counted. -/
  counts : ∀ rowCount, blockRows request.column.width block = .ok rowCount →
    ((List.range rowCount).map UInt16.ofNat).map UInt16.toNat = List.range rowCount ∧
      (rowsToVisit rowCount request.rows).length < UInt16.size

theorem decode_sizes {bytes : Bytes} (decoded : decode bytes = .ok request) :
    request.filter.length =
        request.predicateCount.toNat * (recordOverhead + request.column.width) ∧
      request.rows.length ≤ maxRows := by
  obtain ⟨fields, _, _, spells⟩ := decode_eq_ok decoded
  constructor
  · rw [spells.filter, spells.predicateCount, spells.width]
    exact spells.filterSize
  · rw [spells.rows, spells.rowCount]
    exact Nat.le_of_lt_succ fields.rowCount.toNat_lt

theorem bounded_of_decode {bytes : Bytes} (decoded : decode bytes = .ok request)
    (block : Array UInt8) : request.Bounded block := by
  obtain ⟨filterSize, listed⟩ := decode_sizes decoded
  constructor
  case records =>
    intro index inside
    rw [filterSize]
    exact Nat.mul_le_mul_right _ inside
  case lanes =>
    intro pair patterns
    exact (request.column.wellFormed_of_sentinels patterns).width_mem
  case divisor =>
    intro validated
    obtain ⟨pair, found⟩ := Option.isSome_iff_exists.mp <|
      LogicalType.isSome_sentinels? (ColumnDescriptor.validate_eq_ok_iff.mp validated)
    exact Nat.ne_of_gt (LogicalType.wellFormed_of_sentinels? found).width_pos
  case rows =>
    intro rowCount counted checked row visited
    obtain ⟨size, addressable⟩ := blockRows_eq_ok counted
    have inside := lt_of_mem_rowsToVisit addressable (checkRows_eq_ok_iff.mp checked) visited
    rw [size]
    exact Nat.mul_le_mul_right _ inside
  case counts =>
    intro rowCount counted
    obtain ⟨_, addressable⟩ := blockRows_eq_ok counted
    constructor
    · rw [List.map_map]
      refine (List.map_congr_left fun index member => ?_).trans (List.map_id _)
      exact toNat_ofNat_of_lt addressable (List.mem_range.mp member)
    · exact Nat.lt_succ_of_le (length_rowsToVisit_le addressable listed)

theorem matchCount_eq_length {pair : SentinelPair} {filter : CompiledFilter} {rowCount : Nat}
    (size : block.size = rowCount * request.column.width) (positive : 0 < request.column.width) :
    request.matchCount pair filter block =
      (qualifyingRows request.column pair filter block rowCount request.rows).length := by
  rw [matchCount, size, Nat.mul_div_cancel _ positive, qualifyingRows, ← List.countP_eq_length_filter]
  exact rowsToVisit_perm.symm.countP_eq _

/-- The filter of a decoded request is a sequence of records, so only the column, the combinator and
the operators can be refused. -/
theorem exists_compile_iff {bytes : Bytes} (decoded : decode bytes = .ok request) :
    (∃ filter, request.compile = .ok filter) ↔
      (∃ pair, request.column.sentinels = .ok pair) ∧
        (1 < request.predicateCount.toNat → request.combinator ≠ .none) ∧
        CompiledFilter.KnownOperators request.filter request.column.width
          request.predicateCount.toNat := by
  simp only [ColumnDescriptor.sentinels, LogicalType.sentinels_eq_ok_iff]
  exact CompiledFilter.exists_compile_eq_ok_iff (Nat.le_of_eq (decode_sizes decoded).1.symm)

theorem Answerable.scannable {bytes : Bytes} (answerable : request.Answerable block capacity config)
    (decoded : decode bytes = .ok request) {filter : CompiledFilter}
    (compiled : request.compile = .ok filter) :
    Scannable request.column filter block (block.size / request.column.width) request.rows :=
  { supported := answerable.supported
    compiledFor := .compiled compiled
    size := (Nat.div_mul_cancel answerable.whole).symm
    addressable := answerable.addressable
    inside := answerable.inside
    listed := (decode_sizes decoded).2 }

theorem Answerable.exists_scanBlock {bytes : Bytes}
    (answerable : request.Answerable block capacity config) (decoded : decode bytes = .ok request) :
    ∃ filter answer, request.compile = .ok filter ∧
      scanBlock request.column filter block request.rows capacity config = .ok answer := by
  obtain ⟨filter, compiled⟩ := (exists_compile_iff decoded).mpr
    ⟨answerable.patterned, answerable.joined, answerable.operators⟩
  obtain ⟨pair, patterns⟩ := answerable.patterned
  have found := LogicalType.sentinels_eq_ok_iff.mp patterns
  have scannable := answerable.scannable decoded compiled
  have positive := (LogicalType.wellFormed_of_sentinels? found).width_pos
  refine ⟨filter, _, compiled, scannable.scanBlock_eq_ok found capacity config fun checks => ?_⟩
  rw [← matchCount_eq_length scannable.size positive]
  exact answerable.room checks pair filter patterns compiled

theorem answerable_of_scanBlock {bytes : Bytes} (decoded : decode bytes = .ok request)
    {filter : CompiledFilter} {answer : ScanAnswer} (compiled : request.compile = .ok filter)
    (scanned : scanBlock request.column filter block request.rows capacity config = .ok answer) :
    request.Answerable block capacity config := by
  obtain ⟨rowCount, pair, _, supported, size, addressable, inside, patterns, _⟩ :=
    scanBlock_eq_ok scanned
  obtain ⟨patterned, joined, operators⟩ := (exists_compile_iff decoded).mp ⟨filter, compiled⟩
  have found := LogicalType.sentinels_eq_ok_iff.mp patterns
  have positive := (request.column.wellFormed_of_sentinels patterns).width_pos
  have rows : block.size / request.column.width = rowCount := by
    rw [size, Nat.mul_div_cancel _ positive]
  have scannable : Scannable request.column filter block rowCount request.rows :=
    { supported, size, addressable, inside
      compiledFor := .compiled compiled
      listed := (decode_sizes decoded).2 }
  constructor
  case patterned => exact patterned
  case supported => exact supported
  case joined => exact joined
  case operators => exact operators
  case whole => exact ⟨rowCount, size.trans (Nat.mul_comm _ _)⟩
  case addressable => rwa [rows]
  case inside => rwa [rows]
  case room =>
    intro checks other filter' patterns' compiled'
    cases patterns.symm.trans patterns'
    cases compiled.symm.trans compiled'
    rw [matchCount_eq_length size positive]
    exact scannable.room_of_scanBlock found scanned checks

end ScanRequest

theorem answerRequest_eq_ok_iff {bytes response : Bytes} {block : Array UInt8} {capacity : Nat}
    {config : ScanConfig} :
    answerRequest bytes block none capacity config = .ok response ↔
      ∃ request filter answer, ScanRequest.decode bytes = .ok request ∧
        request.compile = .ok filter ∧
        scanBlock request.column filter block request.rows capacity config = .ok answer ∧
        response = answer.encode := by
  constructor
  · intro answered
    obtain ⟨request, decoded, answered⟩ := bind_eq_ok answered
    obtain ⟨filter, compiled, answered⟩ := bind_eq_ok answered
    obtain ⟨answer, scanned, answered⟩ := bind_eq_ok answered
    cases answered
    exact ⟨request, filter, answer, decoded, compiled, scanned, rfl⟩
  · rintro ⟨request, filter, answer, decoded, compiled, scanned, rfl⟩
    unfold answerRequest
    simp only [decoded, compiled, scanned, bind, Except.bind, pure, Except.pure]

/-- Exactly the requests are answered that can be decoded, that the catalog, the compiler and the
scanner know how to evaluate, that fit their block, and whose matches there is room for. No index,
divisor or count of any request leaves its range. An answer is as long as its count of matches says
and reads as the answer of the scan. -/
theorem answerRequest_answers (bytes : Bytes) (block : Array UInt8) (capacity : Nat)
    (config : ScanConfig) :
    ((∃ response, answerRequest bytes block none capacity config = .ok response) ↔
      ∃ request, ScanRequest.decode bytes = .ok request ∧
        request.Answerable block capacity config) ∧
    (∀ request, ScanRequest.decode bytes = .ok request → request.Bounded block) ∧
    ∀ response, answerRequest bytes block none capacity config = .ok response →
      ∃ request filter answer, ScanRequest.decode bytes = .ok request ∧
        request.compile = .ok filter ∧
        scanBlock request.column filter block request.rows capacity config = .ok answer ∧
        response.length =
          45 + answer.matchedRows * request.column.output.entrySize request.column.width ∧
        ScanAnswer.decode response request.column.output request.column.width = .ok answer := by
  refine ⟨⟨?_, ?_⟩, ?_, ?_⟩
  · rintro ⟨response, answered⟩
    obtain ⟨request, filter, answer, decoded, compiled, scanned, _⟩ :=
      answerRequest_eq_ok_iff.mp answered
    exact ⟨request, decoded, ScanRequest.answerable_of_scanBlock decoded compiled scanned⟩
  · rintro ⟨request, decoded, answerable⟩
    obtain ⟨filter, answer, compiled, scanned⟩ := answerable.exists_scanBlock decoded
    exact ⟨answer.encode, answerRequest_eq_ok_iff.mpr
      ⟨request, filter, answer, decoded, compiled, scanned, rfl⟩⟩
  · intro request decoded
    exact ScanRequest.bounded_of_decode decoded block
  · intro response answered
    obtain ⟨request, filter, answer, decoded, compiled, scanned, rfl⟩ :=
      answerRequest_eq_ok_iff.mp answered
    have readable := readable_of_scanBlock scanned (ScanRequest.decode_sizes decoded).2
    exact ⟨request, filter, answer, decoded, compiled, scanned, readable.length_encode,
      readable.decode_encode⟩

/-- One of three rows matches, and there is room for just that one. -/
theorem answerRequest_answers_tinyInt :
    let bytes : Bytes := [1, 1, 0, 0, 3, 0, 1, 0, 0, 0, 0, 0, 1, 0, 9]
    let block : Array UInt8 := #[5, 0x80, 20]
    ∃ request response answer, ScanRequest.decode bytes = .ok request ∧
      request.Answerable block 3 {} ∧ request.Bounded block ∧
      answerRequest bytes block none 3 {} = .ok response ∧
      response.length = 45 + answer.matchedRows * 3 ∧
      ScanAnswer.decode response .both 1 = .ok answer := by
  intro bytes block
  let request : ScanRequest :=
    { column := { width := 1, logicalType := .tinyInt, output := .both }
      combinator := .none
      predicateCount := 1
      filter := [1, 0, 9]
      isSorted := false
      rows := [] }
  have decoded : ScanRequest.decode bytes = .ok request := rfl
  have compiled : request.compile = .ok _ := rfl
  have answerable : request.Answerable block 3 {} := by
    constructor
    case patterned => exact ⟨_, rfl⟩
    case supported => rfl
    case joined => exact fun several => absurd several (Nat.lt_irrefl 1)
    case operators =>
      intro index inside
      obtain rfl := Nat.lt_one_iff.mp inside
      exact ⟨.less, rfl⟩
    case whole => exact ⟨3, rfl⟩
    case addressable => decide
    case inside => exact nofun
    case room =>
      intro _ pair filter patterns compiledFilter
      cases patterns
      obtain rfl := Except.ok.inj (compiled.symm.trans compiledFilter)
      decide
  obtain ⟨answered, bounded, reads⟩ := answerRequest_answers bytes block 3 {}
  obtain ⟨response, answers⟩ := answered.mpr ⟨request, decoded, answerable⟩
  obtain ⟨_, _, answer, again, _, _, length, read⟩ := reads response answers
  obtain rfl := Except.ok.inj (decoded.symm.trans again)
  exact ⟨request, response, answer, decoded, answerable, bounded request decoded, answers, length,
    read⟩

end ColumnScan
