import ColumnScan.Proofs.Filter.Compilation
import ColumnScan.Proofs.Wire.CanonicalRequest
import ColumnScan.Wire.Service

/-!
# Requests as they arrive

A request that is put together from predicates and rows arrives as it was asked if its predicates can
be counted in sixteen bits. A list of rows that is too long is refused, but the count of predicates
wraps around: of a longer list only the first predicates arrive, and possibly none.
-/

set_option autoImplicit false

namespace ColumnScan

section Records

variable {predicates : List Predicate} {width : Nat}

theorem take_predicateRecords
    (widths : ∀ predicate ∈ predicates, predicate.value.length = width) {count : Nat}
    (enough : count ≤ predicates.length) :
    (predicateRecords predicates).take (count * (recordOverhead + width)) =
      predicateRecords (predicates.take count) := by
  have length : (predicateRecords (predicates.take count)).length =
      count * (recordOverhead + width) := by
    rw [length_predicateRecords fun predicate member => widths predicate (List.mem_of_mem_take member),
      List.length_take, Nat.min_eq_left enough]
  have parts : predicateRecords predicates =
      predicateRecords (predicates.take count) ++ predicateRecords (predicates.drop count) := by
    simp only [predicateRecords]
    rw [← List.flatMap_append, List.take_append_drop]
  rw [parts]
  exact List.take_left' length

end Records

theorem length_words (words : List UInt16) :
    (words.flatMap word16Bytes).length = 2 * words.length := by
  induction words with
  | nil => rfl
  | cons word rest ih =>
      rw [List.flatMap_cons, List.length_append, ih, word16Bytes, LittleEndian.length_ofNat,
        List.length_cons]
      omega

theorem exists_words (count : Nat) {bytes : Bytes} (enough : 2 * count ≤ bytes.length) :
    ∃ words rest, bytes = List.flatMap word16Bytes words ++ rest ∧ words.length = count := by
  induction count generalizing bytes with
  | zero => exact ⟨[], bytes, rfl, rfl⟩
  | succ count ih =>
      cases bytes with
      | nil => cases enough
      | cons low rest =>
          cases rest with
          | nil => simp only [List.length_cons, List.length_nil] at enough; omega
          | cons high rest =>
              simp only [List.length_cons] at enough
              have left : 2 * count ≤ rest.length := by omega
              obtain ⟨words, ignored, shape, length⟩ := ih left
              let word := UInt16.ofNat (LittleEndian.natValue [low, high])
              have same : word16Bytes word = [low, high] := Reader.word16Bytes_ofNat rfl
              refine ⟨word :: words, ignored, ?_, congrArg Nat.succ length⟩
              rw [List.flatMap_cons, List.append_assoc, ← shape, same]
              rfl

namespace ScanRequest

/-- The request for the rows that pass the predicates, of the whole block or of a list of rows. -/
def asking (column : ColumnDescriptor) (combinator : Combinator) (predicates : List Predicate) :
    Option (List RowIndex × Bool) → ScanRequest
  | none => ofPredicates column combinator predicates
  | some (rows, isSorted) => (ofPredicates column combinator predicates).withRows rows isSorted

theorem encode_eq_ok {request : ScanRequest} {bytes : Bytes}
    (encoded : request.encode = .ok bytes) :
    request.column.width ≤ 255 ∧ request.rows.length ≤ 65535 ∧
      bytes = request.header ++ request.filter ++ request.rows.flatMap word16Bytes := by
  unfold encode at encoded
  split at encoded
  next => cases encoded
  next narrow =>
    split at encoded
    next => cases encoded
    next few =>
      cases encoded
      exact ⟨Nat.le_of_not_lt narrow, Nat.le_of_not_lt few, rfl⟩

/-- The fields of a message with the header of a request, whatever follows the header. -/
def fields (request : ScanRequest) (filter : Bytes) (rows : List RowIndex) : Fields where
  width := UInt8.ofNat request.column.width
  typeCode := request.column.logicalType.code
  scale := request.column.scale.toUInt8
  precision := request.column.precision
  mask := request.column.output.bits
  combinatorCode := request.combinator.code
  predicateCount := request.predicateCount
  sorted := if request.isSorted then 1 else 0
  rowCount := UInt16.ofNat request.rows.length
  collationCode := request.column.collation.code
  filter
  rows

theorem bytes_fields (request : ScanRequest) (filter : Bytes) (rows : List RowIndex) :
    (request.fields filter rows).bytes =
      request.header ++ (filter ++ rows.flatMap word16Bytes) := by
  simp only [header, Fields.bytes, fields, List.append_assoc, List.append_nil, List.cons_append,
    List.nil_append]

section Encoded

variable {request : ScanRequest} {bytes : Bytes} (encoded : request.encode = .ok bytes)
  (scans : request.column.isScan = request.rows.isEmpty) {filter : Bytes} {rows : List RowIndex}
  (counted : filter.length =
    request.predicateCount.toNat * (recordOverhead + request.column.width))
  (listed : rows.length = request.rows.length)

include encoded scans counted listed

theorem spells_fields : (request.fields filter rows).Spells { request with filter, rows } := by
  obtain ⟨narrow, few, _⟩ := encode_eq_ok encoded
  have width : (UInt8.ofNat request.column.width).toNat = request.column.width :=
    UInt8.toNat_ofNat_of_lt' (Nat.lt_succ_of_le narrow)
  have rowCount : (UInt16.ofNat request.rows.length).toNat = request.rows.length :=
    UInt16.toNat_ofNat_of_lt' (Nat.lt_succ_of_le few)
  constructor
  case width => exact width.symm
  case logicalType => simp only [fields, readType, LogicalType.ofCode?_code]
  case scale => exact (Int8.toInt8_toUInt8 _).symm
  case output => cases output : request.column.output <;> simp only [fields, output] <;> rfl
  case combinator => exact Combinator.ofCode_code request.combinator
  case isSorted => cases sorted : request.isSorted <;> simp only [fields, sorted] <;> rfl
  case isScan =>
    change request.column.isScan = (UInt16.ofNat request.rows.length == 0)
    rw [scans, Bool.eq_iff_iff, List.isEmpty_iff, beq_iff_eq, ← UInt16.toNat_inj, rowCount]
    exact List.length_eq_zero_iff.symm
  case collation =>
    cases collation : request.column.collation <;> simp only [fields, collation] <;> rfl
  case filterSize =>
    change filter.length = _ * (_ + (UInt8.ofNat request.column.width).toNat)
    rw [width]
    exact counted
  case rowCount => exact listed.trans rowCount.symm
  all_goals rfl

/-- Decoding takes from an encoded request as many records and rows as its header counts, wherever
its own records end. -/
theorem decode_encoded {ignored : Bytes}
    (shape : request.filter ++ request.rows.flatMap word16Bytes =
      filter ++ (rows.flatMap word16Bytes ++ ignored)) :
    decode bytes = .ok { request with filter, rows } := by
  obtain ⟨_, _, rfl⟩ := encode_eq_ok encoded
  have whole : request.header ++ request.filter ++ request.rows.flatMap word16Bytes =
      (request.fields filter rows).bytes ++ ignored := by
    rw [List.append_assoc, shape, bytes_fields, List.append_assoc, List.append_assoc]
  rw [whole]
  exact (spells_fields encoded scans counted listed).decode_append ignored

/-- If there are fewer bytes than that, there is no request. -/
theorem decode_cut {missing : Bytes} (lacking : missing ≠ [])
    (shape : request.filter ++ request.rows.flatMap word16Bytes ++ missing =
      filter ++ rows.flatMap word16Bytes) :
    ∃ fault, decode bytes = .error (.malformed fault) := by
  obtain ⟨_, _, rfl⟩ := encode_eq_ok encoded
  refine (spells_fields encoded scans counted listed).decode_cut ?_ lacking
  rw [bytes_fields, ← shape]
  simp only [List.append_assoc]

end Encoded

section Counted

variable {request : ScanRequest} {bytes : Bytes} (encoded : request.encode = .ok bytes)
  (scans : request.column.isScan = request.rows.isEmpty)

include encoded scans

theorem decode_counted (counted : request.filter.length =
    request.predicateCount.toNat * (recordOverhead + request.column.width)) :
    decode bytes = .ok request := by
  have shape : request.filter ++ request.rows.flatMap word16Bytes =
      request.filter ++ (request.rows.flatMap word16Bytes ++ []) := by
    rw [List.append_nil]
  exact decode_encoded encoded scans counted rfl shape

/-- If the records are shorter than their count says, nothing is decoded. -/
theorem decode_short (shorter : request.filter.length <
    request.predicateCount.toNat * (recordOverhead + request.column.width)) :
    ∃ fault, decode bytes = .error (.malformed fault) := by
  let read := request.predicateCount.toNat * (recordOverhead + request.column.width)
  let missing := List.replicate (read - request.filter.length) (0 : UInt8)
  let whole := request.filter ++ request.rows.flatMap word16Bytes ++ missing
  have words : (request.rows.flatMap word16Bytes).length = 2 * request.rows.length :=
    length_words request.rows
  have size : whole.length = read + 2 * request.rows.length := by
    simp only [whole, missing, List.length_append, List.length_replicate, words]
    omega
  have enough : 2 * request.rows.length ≤ (whole.drop read).length := by
    rw [List.length_drop]
    omega
  obtain ⟨rows, ignored, shape, listed⟩ := exists_words request.rows.length enough
  have nothing : ignored = [] := by
    have lengths := congrArg List.length shape
    rw [List.length_drop, size, List.length_append, length_words, listed] at lengths
    exact List.eq_nil_of_length_eq_zero (by omega)
  rw [nothing, List.append_nil] at shape
  have counted : (whole.take read).length = read := by
    rw [List.length_take]
    exact Nat.min_eq_left (by omega)
  have lacking : missing ≠ [] := by
    refine List.ne_nil_of_length_pos ?_
    rw [List.length_replicate]
    omega
  refine decode_cut encoded scans counted listed lacking ?_
  rw [← shape, List.take_append_drop]

/-- What is left of the records is read as row indexes. -/
theorem decode_uncounted (longer :
    request.predicateCount.toNat * (recordOverhead + request.column.width) +
      2 * request.rows.length ≤ request.filter.length) :
    ∃ rows, decode bytes = .ok
      { request with
        filter := request.filter.take
          (request.predicateCount.toNat * (recordOverhead + request.column.width))
        rows } := by
  let read := request.predicateCount.toNat * (recordOverhead + request.column.width)
  let left := request.filter.drop read ++ request.rows.flatMap word16Bytes
  have enough : 2 * request.rows.length ≤ left.length := by
    simp only [left, List.length_append, List.length_drop]
    omega
  obtain ⟨rows, ignored, shape, listed⟩ := exists_words request.rows.length enough
  have parts : request.filter ++ request.rows.flatMap word16Bytes =
      request.filter.take read ++ (rows.flatMap word16Bytes ++ ignored) := by
    rw [← shape, ← List.append_assoc, List.take_append_drop]
  refine ⟨rows, decode_encoded encoded scans ?_ listed parts⟩
  rw [List.length_take]
  omega

end Counted

section Asking

variable {column : ColumnDescriptor} {combinator : Combinator} {predicates : List Predicate}
  {listing : Option (List RowIndex × Bool)}

theorem predicateCount_asking :
    (asking column combinator predicates listing).predicateCount.toNat =
      predicates.length % 65536 := by
  cases listing <;> exact UInt16.toNat_ofNat'

theorem filter_asking :
    (asking column combinator predicates listing).filter = predicateRecords predicates := by
  cases listing <;> rfl

theorem width_asking :
    (asking column combinator predicates listing).column.width = column.width := by
  cases listing <;> rfl

theorem isScan_asking (scans : column.isScan = true)
    (listed : ∀ rows isSorted, listing = some (rows, isSorted) → rows ≠ []) :
    (asking column combinator predicates listing).column.isScan =
      (asking column combinator predicates listing).rows.isEmpty := by
  cases listing with
  | none => exact scans
  | some pair =>
      obtain ⟨rows, isSorted⟩ := pair
      cases rows with
      | nil => exact absurd rfl (listed [] isSorted rfl)
      | cons row rest => rfl

/-- Up to 65535 predicates, the request that is decoded is the one that was asked. Of a longer list
only the first predicates are decoded, as many as its length exceeds a multiple of 65536. -/
theorem decode_asking {bytes : Bytes} (scans : column.isScan = true)
    (widths : ∀ predicate ∈ predicates, predicate.value.length = column.width)
    (listed : ∀ rows isSorted, listing = some (rows, isSorted) → rows ≠ [])
    (encoded : (asking column combinator predicates listing).encode = .ok bytes) :
    let asked := asking column combinator predicates listing
    (predicates.length ≤ 65535 →
      decode bytes = .ok asked ∧ asked.predicateCount.toNat = predicates.length ∧
        asked.filter = predicateRecords predicates) ∧
    (65535 < predicates.length →
      ∃ decoded, decode bytes = .ok decoded ∧ decoded ≠ asked ∧
        decoded.predicateCount.toNat = predicates.length % 65536 ∧
        decoded.filter = predicateRecords (predicates.take (predicates.length % 65536))) := by
  intro asked
  have scan : asked.column.isScan = asked.rows.isEmpty := isScan_asking scans listed
  have length := length_predicateRecords widths
  constructor
  · intro few
    have whole : predicates.length % 65536 = predicates.length :=
      Nat.mod_eq_of_lt (Nat.lt_succ_of_le few)
    refine ⟨decode_counted encoded scan ?_, predicateCount_asking.trans whole, filter_asking⟩
    rw [filter_asking, predicateCount_asking, width_asking, length, whole]
  · intro many
    -- At least 65536 records are not counted, and each is as long as a row index or longer.
    have fewer : predicates.length % 65536 + 65536 ≤ predicates.length := by omega
    have missing := Nat.mul_le_mul_right (recordOverhead + column.width) fewer
    rw [Nat.add_mul] at missing
    have two : 2 ≤ recordOverhead + column.width := Nat.le_add_right 2 column.width
    obtain ⟨_, few, _⟩ := encode_eq_ok encoded
    obtain ⟨rows, decoded⟩ := decode_uncounted encoded scan <| by
      rw [filter_asking, predicateCount_asking, width_asking, length]
      omega
    refine ⟨_, decoded, ?_, predicateCount_asking, ?_⟩
    · intro same
      have sizes := congrArg (fun request => request.filter.length) same
      simp only [filter_asking, predicateCount_asking, width_asking, asked, List.length_take, length]
        at sizes
      omega
    · simp only [filter_asking, predicateCount_asking, width_asking]
      exact take_predicateRecords widths (Nat.mod_le _ _)

end Asking

/-- Two predicates over two listed rows. -/
theorem decode_asking_listed :
    let column : ColumnDescriptor := { width := 1, logicalType := .tinyInt, output := .both }
    let predicates : List Predicate :=
      [{ operator := .greater, value := [9] }, { operator := .less, flag := 1, value := [0x7E] }]
    let asked := asking column .and predicates (some ([3, 1], false))
    ∃ bytes, asked.encode = .ok bytes ∧ decode bytes = .ok asked ∧
      asked.predicateCount.toNat = 2 ∧ asked.filter = [4, 0, 9, 1, 1, 0x7E] := by
  intro column predicates asked
  have encoded : asked.encode = .ok [1, 1, 0, 0, 3, 1, 2, 0, 0, 2, 0, 0, 4, 0, 9, 1, 1, 0x7E, 3, 0,
      1, 0] := by
    cbv
  have listed : ∀ rows isSorted, some ([3, 1], false) = some (rows, isSorted) →
      rows ≠ ([] : List RowIndex) := by
    rintro _ _ ⟨⟩
    exact List.cons_ne_nil 3 [1]
  have widths : ∀ predicate ∈ predicates, predicate.value.length = column.width := by decide
  obtain ⟨decoded, counted, filter⟩ := (decode_asking rfl widths listed encoded).1 (by decide)
  exact ⟨_, encoded, decoded, counted, filter⟩

/-- A list of 65536 predicates arrives as a request that every value passes. -/
theorem decode_asking_wrapped :
    let column : ColumnDescriptor := { width := 1, logicalType := .tinyInt }
    let predicates := List.replicate 65536 ({ operator := .less, value := [9] } : Predicate)
    let asked := asking column .and predicates none
    ∃ bytes decoded, asked.encode = .ok bytes ∧ decode bytes = .ok decoded ∧ decoded ≠ asked ∧
      decoded.predicateCount = 0 ∧ decoded.filter = [] ∧ decoded.compile = .ok (.alwaysTrue 1) := by
  intro column predicates asked
  have encoded : asked.encode = .ok (asked.header ++ asked.filter ++ []) := rfl
  have length : predicates.length = 65536 := List.length_replicate
  have uncounted : asked.predicateCount = 0 := by
    change UInt16.ofNat predicates.length = 0
    rw [length]
    rfl
  have size : asked.filter.length = 65536 * 3 := by
    have widths : ∀ predicate ∈ predicates, predicate.value.length = 1 := by
      intro predicate member
      rw [List.eq_of_mem_replicate member]
      rfl
    change (predicateRecords predicates).length = 65536 * 3
    rw [length_predicateRecords widths, length]
    rfl
  have nothing : asked.predicateCount.toNat * (recordOverhead + asked.column.width) = 0 := by
    rw [uncounted]
    rfl
  obtain ⟨rows, decoded⟩ := decode_uncounted encoded rfl <| by
    rw [nothing, size]
    decide
  rw [nothing, List.take_zero] at decoded
  refine ⟨_, _, encoded, decoded, ?_, uncounted, rfl, ?_⟩
  · intro same
    have sizes := congrArg (fun request => request.filter.length) same
    simp only [size, List.length_nil] at sizes
    omega
  · rw [compile]
    simp only [uncounted]
    have found : LogicalType.tinyInt.sentinels? 1 =
        some { width := 1, null := 0x80, empty := 0x81 } := rfl
    exact CompiledFilter.compile_zero found

end ScanRequest

end ColumnScan
