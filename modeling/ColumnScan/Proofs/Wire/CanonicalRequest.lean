import ColumnScan.Proofs.Bytes.Reading
import ColumnScan.Wire.Request

/-!
# Canonical requests

Whatever bytes are decoded as a request, encoding the request gives those bytes back, apart from the
byte that says whether the rows are sorted, of which only zero and one are written. The fields of a
message stand between the two: decoding finds them, and they determine the request.
-/

set_option autoImplicit false

namespace ColumnScan

theorem LogicalType.code_of_ofCode? {code : UInt8} {logicalType : LogicalType}
    (known : ofCode? code = some logicalType) : logicalType.code = code := by
  have same := List.find?_some known
  exact beq_iff_eq.mp same

theorem Collation.code_of_ofCode? {code : UInt8} {collation : Collation}
    (known : ofCode? code = some collation) : collation.code = code := by
  unfold ofCode? at known
  split at known <;> cases known <;> rfl

theorem OutputMask.bits_of_ofBits {bits : UInt8} {mask : OutputMask}
    (known : ofBits bits = .ok mask) : mask.bits = bits := by
  unfold ofBits at known
  split at known <;> cases known <;> rfl

theorem Combinator.code_of_ofCode {code : UInt8} {combinator : Combinator}
    (known : ofCode code = .ok combinator) : combinator.code = code := by
  unfold ofCode at known
  split at known <;> cases known <;> rfl

namespace ScanRequest

theorem readType_eq_ok {code : UInt8} {logicalType : LogicalType}
    (known : readType code = .ok logicalType) : logicalType.code = code := by
  unfold readType at known
  split at known
  next found =>
    cases known
    exact LogicalType.code_of_ofCode? found
  next => cases known

theorem readCollation_eq_ok {code : UInt8} {collation : Collation}
    (known : readCollation code = .ok collation) : collation.code = code := by
  unfold readCollation at known
  split at known
  next found =>
    cases known
    exact Collation.code_of_ofCode? found
  next => cases known

section Rows

variable {α : Type}

theorem takes_mapM_word16 (items : List α) (rows : List RowIndex)
    (same : items.length = rows.length) (position : Nat) :
    Reading.Takes (items.mapM fun _ => Reader.word16) position (rows.flatMap word16Bytes) rows := by
  induction items generalizing rows position with
  | nil =>
      cases rows with
      | nil => exact .nothing position []
      | cons row rest => cases same
  | cons item items ih =>
      cases rows with
      | nil => cases same
      | cons row rest =>
          have later := ih rest (Nat.succ.inj same) (position + (word16Bytes row).length)
          rw [List.mapM_cons, List.flatMap_cons, ← List.append_nil (rest.flatMap word16Bytes)]
          exact .andThen (Reader.takes_word16 position row)
            (later.andThen (.nothing _ (row :: rest)))

theorem takes_readRows (rows : List RowIndex) (position : Nat) :
    Reading.Takes (readRows rows.length) position (rows.flatMap word16Bytes) rows :=
  takes_mapM_word16 (List.range rows.length) rows List.length_range position

theorem mapM_word16_eq_ok (items : List α) {rows : List RowIndex} {reader after : Reader}
    (read : (items.mapM fun _ => Reader.word16 : Reading (List RowIndex)) reader =
      (.ok rows, after)) :
    reader.rest = rows.flatMap word16Bytes ++ after.rest ∧ rows.length = items.length := by
  induction items generalizing reader rows with
  | nil =>
      cases read
      exact ⟨rfl, rfl⟩
  | cons item items ih =>
      rw [List.mapM_cons] at read
      obtain ⟨row, middle, first, read⟩ := Reading.bind_eq_ok read
      obtain ⟨others, last, later, read⟩ := Reading.bind_eq_ok read
      cases read
      obtain ⟨shape, length⟩ := ih later
      refine ⟨?_, congrArg Nat.succ length⟩
      rw [Reader.word16_eq_ok first, shape, List.flatMap_cons, List.append_assoc]

theorem readRows_eq_ok {count : Nat} {rows : List RowIndex} {reader after : Reader}
    (read : readRows count reader = (.ok rows, after)) :
    reader.rest = rows.flatMap word16Bytes ++ after.rest ∧ rows.length = count := by
  obtain ⟨shape, length⟩ := mapM_word16_eq_ok (List.range count) read
  exact ⟨shape, length.trans List.length_range⟩

end Rows

/-- The fields of a message that asks for a scan. -/
structure Fields where
  width : UInt8
  typeCode : UInt8
  scale : UInt8
  precision : UInt8
  mask : UInt8
  combinatorCode : UInt8
  predicateCount : UInt16
  sorted : UInt8
  rowCount : UInt16
  collationCode : UInt8
  filter : Bytes
  rows : List RowIndex

namespace Fields

def bytes (fields : Fields) : Bytes :=
  [fields.width] ++ ([fields.typeCode] ++ ([fields.scale] ++ ([fields.precision] ++
    ([fields.mask] ++ ([fields.combinatorCode] ++ (word16Bytes fields.predicateCount ++
      ([fields.sorted] ++ (word16Bytes fields.rowCount ++ ([fields.collationCode] ++
        (fields.filter ++ (fields.rows.flatMap word16Bytes ++ [])))))))))))

/-- The fields mean a request. -/
structure Spells (fields : Fields) (request : ScanRequest) : Prop where
  width : request.column.width = fields.width.toNat
  logicalType : readType fields.typeCode = .ok request.column.logicalType
  scale : request.column.scale = fields.scale.toInt8
  precision : request.column.precision = fields.precision
  output : OutputMask.ofBits fields.mask = .ok request.column.output
  combinator : Combinator.ofCode fields.combinatorCode = .ok request.combinator
  predicateCount : request.predicateCount = fields.predicateCount
  isSorted : request.isSorted = (fields.sorted != 0)
  isScan : request.column.isScan = (fields.rowCount == 0)
  collation : readCollation fields.collationCode = .ok request.column.collation
  filter : request.filter = fields.filter
  filterSize : fields.filter.length =
    fields.predicateCount.toNat * (recordOverhead + fields.width.toNat)
  rows : request.rows = fields.rows
  rowCount : fields.rows.length = fields.rowCount.toNat

end Fields

/-- Decoding finds the fields of a message. -/
theorem decode_eq_ok {bytes : Bytes} {request : ScanRequest}
    (decoded : decode bytes = .ok request) :
    ∃ fields : Fields, ∃ ignored, bytes = fields.bytes ++ ignored ∧ fields.Spells request := by
  obtain ⟨after, read⟩ : ∃ after, reading (Reader.ofBytes bytes) = (.ok request, after) :=
    ⟨_, Prod.ext decoded rfl⟩
  unfold reading at read
  obtain ⟨width, reader₁, readWidth, read⟩ := Reading.bind_eq_ok read
  obtain ⟨typeCode, reader₂, readCode, read⟩ := Reading.bind_eq_ok read
  obtain ⟨logicalType, typed, read⟩ := Reading.check_eq_ok read
  obtain ⟨scale, reader₃, readScale, read⟩ := Reading.bind_eq_ok read
  obtain ⟨precision, reader₄, readPrecision, read⟩ := Reading.bind_eq_ok read
  obtain ⟨mask, reader₅, readMask, read⟩ := Reading.bind_eq_ok read
  obtain ⟨output, masked, read⟩ := Reading.check_eq_ok read
  obtain ⟨combinatorCode, reader₆, readCombinator, read⟩ := Reading.bind_eq_ok read
  obtain ⟨combinator, combined, read⟩ := Reading.check_eq_ok read
  obtain ⟨predicateCount, reader₇, readCount, read⟩ := Reading.bind_eq_ok read
  obtain ⟨sorted, reader₈, readSorted, read⟩ := Reading.bind_eq_ok read
  obtain ⟨rowCount, reader₉, readRowCount, read⟩ := Reading.bind_eq_ok read
  obtain ⟨collationCode, reader₁₀, readCollationCode, read⟩ := Reading.bind_eq_ok read
  obtain ⟨collation, collated, read⟩ := Reading.check_eq_ok read
  obtain ⟨filter, reader₁₁, readFilter, read⟩ := Reading.bind_eq_ok read
  obtain ⟨rows, reader₁₂, readRows, read⟩ := Reading.bind_eq_ok read
  cases read
  obtain ⟨filterShape, filterSize⟩ := Reader.take_eq_ok readFilter
  obtain ⟨rowsShape, rowsLength⟩ := readRows_eq_ok readRows
  refine ⟨⟨width, typeCode, scale, precision, mask, combinatorCode, predicateCount, sorted,
    rowCount, collationCode, filter, rows⟩, after.rest, ?_, ?_⟩
  · have shape := Reader.byte_eq_ok readWidth
    rw [Reader.byte_eq_ok readCode, Reader.byte_eq_ok readScale, Reader.byte_eq_ok readPrecision,
      Reader.byte_eq_ok readMask, Reader.byte_eq_ok readCombinator, Reader.word16_eq_ok readCount,
      Reader.byte_eq_ok readSorted, Reader.word16_eq_ok readRowCount,
      Reader.byte_eq_ok readCollationCode, filterShape, rowsShape] at shape
    rw [Fields.bytes]
    simpa [Reader.ofBytes] using shape
  · exact ⟨rfl, typed, rfl, rfl, masked, combined, rfl, rfl, rfl, collated, rfl, filterSize, rfl,
      rowsLength⟩

namespace Fields

variable {fields : Fields} {request : ScanRequest} (spells : fields.Spells request)

include spells

theorem Spells.eq : request =
    { column :=
        { width := fields.width.toNat
          logicalType := request.column.logicalType
          scale := fields.scale.toInt8
          precision := fields.precision
          output := request.column.output
          isScan := fields.rowCount == 0
          collation := request.column.collation }
      combinator := request.combinator
      predicateCount := fields.predicateCount
      filter := fields.filter
      isSorted := fields.sorted != 0
      rows := fields.rows } := by
  obtain ⟨⟨width, logicalType, scale, precision, output, isScan, collation⟩, combinator,
    predicateCount, filter, isSorted, rows⟩ := request
  obtain ⟨rfl, _, rfl, rfl, _, _, rfl, rfl, rfl, _, rfl, _, rfl, _⟩ := spells
  rfl

/-- A request is read from exactly the bytes of the fields that mean it. -/
theorem Spells.takes_bytes : Reading.Takes reading 0 fields.bytes request := by
  unfold reading
  refine .andThen (Reader.takes_byte _ fields.width) ?_
  refine .andThen (Reader.takes_byte _ fields.typeCode) ?_
  refine .check spells.logicalType ?_
  refine .andThen (Reader.takes_byte _ fields.scale) ?_
  refine .andThen (Reader.takes_byte _ fields.precision) ?_
  refine .andThen (Reader.takes_byte _ fields.mask) ?_
  refine .check spells.output ?_
  refine .andThen (Reader.takes_byte _ fields.combinatorCode) ?_
  refine .check spells.combinator ?_
  refine .andThen (Reader.takes_word16 _ fields.predicateCount) ?_
  refine .andThen (Reader.takes_byte _ fields.sorted) ?_
  refine .andThen (Reader.takes_word16 _ fields.rowCount) ?_
  refine .andThen (Reader.takes_byte _ fields.collationCode) ?_
  refine .check spells.collation ?_
  rw [← spells.filterSize, ← spells.rowCount]
  refine .andThen (Reader.takes_take _ fields.filter) ?_
  refine .andThen (takes_readRows fields.rows _) ?_
  rw [← spells.eq]
  exact .nothing _ request

theorem Spells.decode_append (rest : Bytes) : decode (fields.bytes ++ rest) = .ok request :=
  congrArg Prod.fst (spells.takes_bytes.complete rest)

/-- With fewer bytes there is no request. -/
theorem Spells.decode_cut {short missing : Bytes} (cut : fields.bytes = short ++ missing)
    (lacking : missing ≠ []) : ∃ fault, decode short = .error (.malformed fault) :=
  spells.takes_bytes.cut short missing cut lacking

omit spells in
/-- The fields with the byte for the order of the rows as it is written. -/
def normal (fields : Fields) : Fields :=
  { fields with sorted := if fields.sorted = 0 then 0 else 1 }

theorem Spells.normal : fields.normal.Spells request := by
  refine ⟨spells.width, spells.logicalType, spells.scale, spells.precision, spells.output,
    spells.combinator, spells.predicateCount, ?_, spells.isScan, spells.collation, spells.filter,
    spells.filterSize, spells.rows, spells.rowCount⟩
  rw [spells.isSorted, Fields.normal]
  by_cases unsorted : fields.sorted = 0
  · rw [if_pos unsorted, unsorted]
  · rw [if_neg unsorted, bne_iff_ne.mpr unsorted]
    rfl

/-- The byte for the order of the rows is written as zero or one. -/
theorem Spells.sorted_normal : (if request.isSorted then 1 else 0) = fields.normal.sorted := by
  rw [spells.isSorted, Fields.normal]
  by_cases unsorted : fields.sorted = 0
  · rw [if_pos unsorted, unsorted]
    rfl
  · rw [if_neg unsorted, bne_iff_ne.mpr unsorted]
    rfl

theorem Spells.header_eq : request.header =
    [fields.width, fields.typeCode, fields.scale, fields.precision, fields.mask,
      fields.combinatorCode] ++ word16Bytes fields.predicateCount ++ [fields.normal.sorted] ++
      word16Bytes fields.rowCount ++ [fields.collationCode] := by
  have width : UInt8.ofNat request.column.width = fields.width := by
    rw [spells.width, UInt8.ofNat_toNat]
  have scale : request.column.scale.toUInt8 = fields.scale := by
    rw [spells.scale, UInt8.toUInt8_toInt8]
  have rowCount : UInt16.ofNat request.rows.length = fields.rowCount := by
    rw [spells.rows, spells.rowCount, UInt16.ofNat_toNat]
  rw [header, width, readType_eq_ok spells.logicalType, scale, spells.precision,
    OutputMask.bits_of_ofBits spells.output, Combinator.code_of_ofCode spells.combinator,
    spells.predicateCount, spells.sorted_normal, rowCount, readCollation_eq_ok spells.collation]

theorem Spells.encode : request.encode = .ok fields.normal.bytes := by
  have width : ¬255 < request.column.width := by
    have bound := fields.width.toNat_lt
    rw [spells.width]
    omega
  have rows : ¬65535 < request.rows.length := by
    have bound := fields.rowCount.toNat_lt
    rw [spells.rows, spells.rowCount]
    omega
  rw [ScanRequest.encode, if_neg width, if_neg rows, spells.header_eq, spells.filter, spells.rows,
    bytes]
  simp only [List.append_assoc, List.append_nil, List.cons_append, List.nil_append]
  rfl

end Fields

/-- The bytes of a request, with the byte for the order of the rows as it is written. -/
def normalized (bytes : Bytes) : Bytes :=
  bytes.modify 8 fun sorted => if sorted = 0 then 0 else 1

theorem normalized_bytes (fields : Fields) : normalized fields.bytes = fields.normal.bytes := rfl

/-- Whatever is decoded as a request: the request can be encoded, which gives the bytes that were
decoded with the byte for the order of the rows set to zero or one; those are decoded as the same
request again; what follows the bytes that were decoded is ignored; and with fewer bytes a request
is malformed. -/
theorem decode_canonical {bytes : Bytes} {request : ScanRequest}
    (decoded : decode bytes = .ok request) :
    ∃ consumed ignored, bytes = consumed ++ ignored ∧
      request.encode = .ok (normalized consumed) ∧
      decode (normalized consumed) = .ok request ∧
      (∀ other, decode (consumed ++ other) = .ok request ∧
        decode (normalized consumed ++ other) = .ok request) ∧
      ∀ short missing, missing ≠ [] →
        consumed = short ++ missing ∨ normalized consumed = short ++ missing →
          ∃ fault, decode short = .error (.malformed fault) := by
  obtain ⟨fields, ignored, shape, spells⟩ := decode_eq_ok decoded
  have normal := spells.normal
  have again := normal.decode_append []
  rw [List.append_nil] at again
  refine ⟨fields.bytes, ignored, shape, ?_⟩
  rw [normalized_bytes]
  refine ⟨spells.encode, again,
    fun other => ⟨spells.decode_append other, normal.decode_append other⟩, ?_⟩
  intro short missing lacking cut
  rcases cut with original | written
  · exact spells.decode_cut original lacking
  · exact normal.decode_cut written lacking

/-- A request for one row, with seven in the byte for the order of the rows and two bytes too
many. -/
theorem decode_canonical_overlong :
    let bytes : Bytes := [1, 1, 254, 3, 3, 0, 1, 0, 7, 1, 0, 1, 2, 0, 5, 9, 0, 77, 78]
    let request : ScanRequest :=
      { column :=
          { width := 1, logicalType := .tinyInt, scale := -2, precision := 3, output := .both
            isScan := false, collation := .caseInsensitive }
        combinator := .none
        predicateCount := 1
        filter := [2, 0, 5]
        isSorted := true
        rows := [9] }
    let short : Bytes := [1, 1, 254, 3, 3, 0, 1, 0, 1, 1, 0, 1, 2, 0, 5, 9]
    decode bytes = .ok request ∧ request.encode = .ok (short ++ [0]) ∧
      decode (short ++ [0]) = .ok request ∧
      (∀ other, decode (short ++ [0] ++ other) = .ok request) ∧
      ∃ fault, decode short = .error (.malformed fault) := by
  intro bytes request short
  have decoded : decode bytes = .ok request := rfl
  have written : request.encode = .ok (short ++ [0]) := by cbv
  obtain ⟨consumed, ignored, _, encoded, again, extended, cut⟩ := decode_canonical decoded
  have same : normalized consumed = short ++ [0] :=
    Except.ok.inj (encoded.symm.trans written)
  rw [same] at again
  refine ⟨decoded, written, again, fun other => same ▸ (extended other).2, ?_⟩
  exact cut short [0] (List.cons_ne_nil 0 []) (.inr same)

end ScanRequest

end ColumnScan
