import ColumnScan.Proofs.Scan.EmittedRows
import ColumnScan.Proofs.Scan.EncodedAnswer
import ColumnScan.Proofs.Wire.AskedRequest

/-!
# Answers about listed rows

Whether a request lists rows is not written in it; the decoder tells it from the number of rows. So a
list of rows survives the wire, and the answer is about its rows only, while an empty list becomes a
request for all rows. The rows stand behind the predicate records, so these must not be longer than
their count says.
-/

set_option autoImplicit false

namespace ColumnScan

namespace ScanRequest

/-- A request arrives as it was sent, or not at all if its records are shorter than their count says.
Whether it is a scan is told from its rows. -/
theorem eq_of_decode {request decoded : ScanRequest} {bytes : Bytes}
    (encoded : request.encode = .ok bytes)
    (records : request.filter.length ≤
      request.predicateCount.toNat * (recordOverhead + request.column.width))
    (arrived : decode bytes = .ok decoded) :
    decoded = { request with column := { request.column with isScan := request.rows.isEmpty } } := by
  let sent : ScanRequest :=
    { request with column := { request.column with isScan := request.rows.isEmpty } }
  have sentEncoded : sent.encode = .ok bytes := encoded
  rcases Nat.lt_or_eq_of_le records with shorter | counted
  · obtain ⟨fault, failed⟩ := decode_short sentEncoded rfl shorter
    cases failed.symm.trans arrived
  · exact Except.ok.inj (arrived.symm.trans (decode_counted sentEncoded rfl counted))

end ScanRequest

/-- The encoded answer can be read, and every row index in it is one of the rows. -/
def ListsOnly (response : Bytes) (column : ColumnDescriptor) (rows : List RowIndex) : Prop :=
  ∃ answer, ScanAnswer.decode response column.output column.width = .ok answer ∧
    ∀ entry ∈ answer.entries column.output column.width, ∃ row ∈ rows, entry.row = some row

/-- The rows of a list that is not empty are all that a scan answers with. -/
theorem listsOnly_of_scanBlock {column : ColumnDescriptor} {filter : CompiledFilter}
    {block : Array UInt8} {rows : List RowIndex} {capacity : Nat} {config : ScanConfig}
    {answer : ScanAnswer} (emitsRow : column.output.emitsRow = true) (nonempty : rows ≠ [])
    (listed : rows.length ≤ maxRows)
    (scanned : scanBlock column filter block rows capacity config = .ok answer) :
    ListsOnly answer.encode column rows := by
  -- Only an answer whose rows can be counted is read back as it was written.
  have readable := readable_of_scanBlock scanned listed
  obtain ⟨rowCount, emitted, _, _, _, visits, entries, _⟩ := exists_emitted_of_scanBlock scanned
  refine ⟨answer, readable.decode_encode, fun entry member => ?_⟩
  rw [entries] at member
  obtain ⟨row, present, rfl⟩ := List.mem_map.mp member
  exact ⟨row, mem_of_mem_rowsToVisit nonempty (visits.subset present), if_pos emitsRow⟩

/-- Every response is the answer of a scan for the decoded request, whatever its filter. -/
theorem exists_scan_of_answerRequest {bytes response : Bytes} {block : Array UInt8}
    {compiled : Option CompiledFilter} {capacity : Nat} {config : ScanConfig}
    (answered : answerRequest bytes block compiled capacity config = .ok response) :
    ∃ request filter answer, ScanRequest.decode bytes = .ok request ∧
      scanBlock request.column filter block request.rows capacity config = .ok answer ∧
      response = answer.encode := by
  obtain ⟨request, decoded, answered⟩ := bind_eq_ok answered
  -- A filter that is given replaces the one in the request, and the scan does not know which it has.
  cases compiled
  all_goals
    obtain ⟨filter, _, answered⟩ := bind_eq_ok answered
    obtain ⟨answer, scanned, answered⟩ := bind_eq_ok answered
    cases answered
    exact ⟨request, filter, answer, decoded, scanned, rfl⟩

theorem not_listsOnly {answer : ScanAnswer} {column : ColumnDescriptor} {rows : List RowIndex}
    {entry : Entry} {row : RowIndex} (readable : answer.Readable column.output column.width)
    (emitted : entry ∈ answer.entries column.output column.width) (shown : entry.row = some row)
    (unlisted : row ∉ rows) : ¬ListsOnly answer.encode column rows := by
  rintro ⟨_, decoded, only⟩
  cases readable.decode_encode.symm.trans decoded
  obtain ⟨listedRow, listed, same⟩ := only entry emitted
  cases shown.symm.trans same
  exact unlisted listed

/-- Unless its records are longer than their count says, a request with a list of rows is answered
with rows of that list only. With an empty list it is the request for all rows, byte for byte. -/
theorem answerRequest_listed {column : ColumnDescriptor} {combinator : Combinator}
    {predicates : List Predicate} {rows : List RowIndex} {isSorted : Bool} {bytes : Bytes}
    (emitsRow : column.output.emitsRow = true)
    (records : (predicateRecords predicates).length ≤
      predicates.length % 65536 * (recordOverhead + column.width))
    (encoded : ((ScanRequest.ofPredicates column combinator predicates).withRows rows
      isSorted).encode = .ok bytes)
    (block : Array UInt8) (compiled : Option CompiledFilter) (capacity : Nat) (config : ScanConfig) :
    (rows ≠ [] → ∀ response, answerRequest bytes block compiled capacity config = .ok response →
      ListsOnly response column rows) ∧
    (rows = [] →
      { ScanRequest.ofPredicates column combinator predicates with isSorted }.encode = .ok bytes ∧
      ∀ decoded, ScanRequest.decode bytes = .ok decoded →
        decoded.rows = [] ∧ decoded.column.isScan = true) := by
  let asked := (ScanRequest.ofPredicates column combinator predicates).withRows rows isSorted
  have counted : asked.filter.length ≤
      asked.predicateCount.toNat * (recordOverhead + asked.column.width) := by
    change _ ≤ (UInt16.ofNat predicates.length).toNat * _
    rw [UInt16.toNat_ofNat']
    exact records
  refine ⟨fun nonempty response answered => ?_, ?_⟩
  · obtain ⟨decoded, filter, answer, arrived, scanned, rfl⟩ := exists_scan_of_answerRequest answered
    cases ScanRequest.eq_of_decode encoded counted arrived
    exact listsOnly_of_scanBlock emitsRow nonempty (ScanRequest.encode_eq_ok encoded).2.1 scanned
  · rintro rfl
    refine ⟨encoded, fun decoded arrived => ?_⟩
    cases ScanRequest.eq_of_decode encoded counted arrived
    exact ⟨rfl, rfl⟩

/-- One of three stored bytes is listed, and it passes the filter. -/
theorem answerRequest_listed_tinyInt :
    let column : ColumnDescriptor := { width := 1, logicalType := .tinyInt, output := .row }
    let predicates : List Predicate := [{ operator := .greater, value := [9] }]
    let asked := (ScanRequest.ofPredicates column .none predicates).withRows [0] true
    ∃ bytes response, column.output.emitsRow = true ∧
      (predicateRecords predicates).length ≤ predicates.length % 65536 * (recordOverhead + 1) ∧
      asked.encode = .ok bytes ∧
      answerRequest bytes #[10, 11, 12] none 2 {} = .ok response ∧
      ListsOnly response column [0] := by
  intro column predicates asked
  have encoded : asked.encode = .ok [1, 1, 0, 0, 1, 0, 1, 0, 1, 1, 0, 0, 4, 0, 9, 0, 0] := by cbv
  have answered : answerRequest [1, 1, 0, 0, 1, 0, 1, 0, 1, 1, 0, 0, 4, 0, 9, 0, 0] #[10, 11, 12]
      none 2 {} = .ok (ScanAnswer.encode
        { header := { matched := 1, rowMap := 1, least := 2 ^ 63 - 1, greatest := -2 ^ 63 }
          payload := [0, 0] }) := by with_unfolding_all rfl
  exact ⟨_, _, rfl, by decide, encoded, answered,
    (answerRequest_listed rfl (by decide) encoded #[10, 11, 12] none 2 {}).1 (by decide) _ answered⟩

/-- An empty list is answered with a row all the same. A list that follows a value that is too long is
answered with a row that it does not have, since the end of the value is read as part of the list. -/
theorem answerRequest_unlisted :
    let column : ColumnDescriptor := { width := 1, logicalType := .tinyInt, output := .row }
    let encodes := fun predicates rows bytes =>
      ((ScanRequest.ofPredicates column .none predicates).withRows rows true).encode = .ok bytes
    (∃ bytes response, encodes [] [] bytes ∧
      answerRequest bytes #[7] none 2 {} = .ok response ∧ ¬ListsOnly response column []) ∧
    ∃ bytes response, encodes [{ operator := .greater, value := [9, 2] }] [0] bytes ∧
      answerRequest bytes #[10, 11, 12] none 2 {} = .ok response ∧
        ¬ListsOnly response column [0] := by
  have first : answerRequest [1, 1, 0, 0, 1, 0, 0, 0, 1, 0, 0, 0] #[7] none 2 {} =
      .ok (ScanAnswer.encode
        { header := { matched := 1, rowMap := 1, extentValid := true, least := 7, greatest := 7 }
          payload := [0, 0] }) := by rfl
  have third : answerRequest [1, 1, 0, 0, 1, 0, 1, 0, 1, 1, 0, 0, 4, 0, 9, 2, 0, 0] #[10, 11, 12]
      none 2 {} = .ok (ScanAnswer.encode
        { header := { matched := 1, rowMap := 1, least := 2 ^ 63 - 1, greatest := -2 ^ 63 }
          payload := [2, 0] }) := by with_unfolding_all rfl
  refine ⟨⟨[1, 1, 0, 0, 1, 0, 0, 0, 1, 0, 0, 0], _, by cbv, first, ?_⟩,
    [1, 1, 0, 0, 1, 0, 1, 0, 1, 1, 0, 0, 4, 0, 9, 2, 0, 0], _, by cbv, third, ?_⟩
  · exact not_listsOnly ⟨rfl, by decide, by decide⟩ (.head _) rfl List.not_mem_nil
  · exact not_listsOnly ⟨rfl, by decide, by decide⟩ (.head _) rfl (by decide)

end ColumnScan
