import ColumnScan.Decimal.Storage
import ColumnScan.Proofs.Bytes.Reading
import ColumnScan.Proofs.Scan.ReportedExtent

/-!
# Encoded answers

An answer can be read back from its encoding if its payload is as long as its header says and its
bounds are 128-bit words. Every answer of a scan is of this kind.
-/

set_option autoImplicit false

namespace ColumnScan

theorem Reader.takes_int128 (position : Nat) {value : Int} (fits : DecimalStorage.wide.Fits value) :
    Reading.Takes (int 16) position (int128Bytes value) value := by
  have takes := takes_int position (int128Bytes value)
  have same : LittleEndian.intValue (int128Bytes value) = value :=
    DecimalStorage.wide.intValue_ofInt fits
  rwa [same, int128Bytes, LittleEndian.length_ofInt] at takes

namespace ScanHeader

variable {header : ScanHeader}

theorem takes_encode (least : DecimalStorage.wide.Fits header.least)
    (greatest : DecimalStorage.wide.Fits header.greatest) (position : Nat) :
    Reading.Takes reading position header.encode header := by
  have shape : header.encode = word16Bytes header.matched ++ (word16Bytes header.rowMap ++
      ([if header.extentValid then 1 else 0] ++ (int128Bytes header.least ++
        (int128Bytes header.greatest ++ (word32Bytes header.cacheReads ++
          (word32Bytes header.physicalReads ++ [])))))) := by
    simp only [encode, List.append_assoc, List.append_nil]
  have valid : ((if header.extentValid then 1 else 0 : UInt8) != 0) = header.extentValid := by
    cases header.extentValid <;> rfl
  rw [shape]
  unfold reading
  refine .andThen (Reader.takes_word16 _ header.matched) ?_
  refine .andThen (Reader.takes_word16 _ header.rowMap) ?_
  refine .andThen (Reader.takes_byte _ _) ?_
  refine .andThen (Reader.takes_int128 _ least) ?_
  refine .andThen (Reader.takes_int128 _ greatest) ?_
  refine .andThen (Reader.takes_word32 _ header.cacheReads) ?_
  refine .andThen (Reader.takes_word32 _ header.physicalReads) ?_
  simp only [valid]
  exact .nothing _ header

theorem length_encode (header : ScanHeader) : header.encode.length = 45 := by
  simp only [encode, word16Bytes, word32Bytes, int128Bytes, List.length_append, List.length_cons,
    List.length_nil, LittleEndian.length_ofNat, LittleEndian.length_ofInt]

end ScanHeader

namespace ScanAnswer

/-- An answer that can be read back from its encoding. -/
structure Readable (answer : ScanAnswer) (mask : OutputMask) (width : Nat) : Prop where
  payload : answer.payload.length = answer.matchedRows * mask.entrySize width
  least : DecimalStorage.wide.Fits answer.header.least
  greatest : DecimalStorage.wide.Fits answer.header.greatest

variable {answer : ScanAnswer} {mask : OutputMask} {width : Nat}

theorem Readable.length_encode (readable : answer.Readable mask width) :
    answer.encode.length = 45 + answer.matchedRows * mask.entrySize width := by
  rw [encode, List.length_append, answer.header.length_encode, readable.payload]

theorem Readable.decode_encode (readable : answer.Readable mask width) :
    decode answer.encode mask width = .ok answer := by
  have payload := Reader.takes_take (0 + answer.header.encode.length) answer.payload
  rw [readable.payload] at payload
  have header := ScanHeader.takes_encode readable.least readable.greatest 0
  have takes : Reading.Takes (reading mask width) 0 (answer.header.encode ++ (answer.payload ++ []))
      answer := by
    unfold reading
    exact header.andThen (payload.andThen (.nothing _ answer))
  have read := takes.complete []
  rw [List.append_nil, List.append_nil] at read
  unfold decode Reader.ofBytes
  rw [encode, read]

end ScanAnswer

section Bounds

theorem fits_laneOf (kind : ValueKind) {stored : Bytes} (narrow : stored.length ≤ 16) :
    DecimalStorage.wide.Fits (laneOf kind stored) := by
  have widest : LittleEndian.capacity 16 = 340282366920938463463374607431768211456 := by decide
  have room := LittleEndian.capacity_le narrow
  have positive := LittleEndian.capacity_pos stored.length
  rw [laneOf_eq]
  -- Short unsigned values are natural numbers, all others are in two's complement.
  split
  next short =>
    have below := LittleEndian.natValue_lt stored
    have half := LittleEndian.capacity_le (Nat.le_of_lt short.2)
    have word : LittleEndian.capacity 8 = 18446744073709551616 := by decide
    simp only [DecimalStorage.Fits, DecimalStorage.null, DecimalStorage.greatest]
    omega
  next =>
    have least := Int.le_bmod (x := LittleEndian.natValue stored) positive
    have greatest := Int.bmod_lt (x := LittleEndian.natValue stored) positive
    simp only [LittleEndian.intValue, DecimalStorage.Fits, DecimalStorage.null,
      DecimalStorage.greatest]
    omega

theorem fits_reported (comparator : Comparator) {lane : Int}
    (fits : DecimalStorage.wide.Fits lane) :
    DecimalStorage.wide.Fits (comparator.reported lane) := by
  unfold Comparator.reported
  cases comparator.kind with
  | signed | float | text => exact fits
  | unsigned =>
      have word : LittleEndian.capacity 8 = 18446744073709551616 := by decide
      simp only [unsignedLane, word, DecimalStorage.Fits, DecimalStorage.null,
        DecimalStorage.greatest]
      omega

theorem fits_emptyRange (comparator : Comparator) :
    DecimalStorage.wide.Fits comparator.emptyRange.1 ∧
      DecimalStorage.wide.Fits comparator.emptyRange.2 := by
  unfold Comparator.emptyRange
  cases comparator.kind with
  | signed => by_cases wide : comparator.width = 16 <;> simp only [wide, ↓reduceIte] <;> decide
  | unsigned | float | text =>
      dsimp only
      decide

variable {column : ColumnDescriptor} {pair : SentinelPair} {view : BlockView}

theorem BlockView.Reads.fits_bounds (reads : view.Reads column pair) (narrow : column.width ≤ 16) :
    DecimalStorage.wide.Fits (view.extent.bounds column.comparator).1 ∧
      DecimalStorage.wide.Fits (view.extent.bounds column.comparator).2 := by
  refine view.forall_bounds (fun lane member => ?_) (fits_emptyRange column.comparator)
  obtain ⟨stored, length, rfl⟩ := reads.hasLane_of_ordinary member
  exact fits_reported column.comparator (fits_laneOf column.kind (length ▸ narrow))

end Bounds

theorem readable_of_scanBlock {column : ColumnDescriptor} {filter : CompiledFilter}
    {block : Array UInt8} {rows : List RowIndex} {capacity : Nat} {config : ScanConfig}
    {answer : ScanAnswer}
    (scanned : scanBlock column filter block rows capacity config = .ok answer)
    (listed : rows.length ≤ maxRows) : answer.Readable column.output column.width := by
  obtain ⟨rowCount, pair, found, supported, size, addressable, inside, patterns, visited, header,
    payload⟩ := scanBlock_eq_ok scanned
  have wellFormed := column.wellFormed_of_sentinels patterns
  have reads : (BlockView.ofBlock column pair block rowCount rows config).Reads column pair :=
    BlockView.reads_ofBlock size addressable inside
  obtain ⟨least, greatest⟩ := reads.fits_bounds <| by
    have layout := wellFormed.width_mem
    simp only [List.mem_cons, List.not_mem_nil, or_false] at layout
    omega
  have stored : ∀ candidate ∈ found, candidate.stored.length = column.width := fun _ member =>
    BlockView.length_stored size addressable inside (visited.subset member)
  have few : found.length < UInt16.size := by
    have fewer := visited.length_le
    simp only [BlockView.ofBlock, List.length_map] at fewer
    exact Nat.lt_succ_of_le (Nat.le_trans fewer (length_rowsToVisit_le addressable listed))
  constructor
  case payload =>
    rw [payload, List.flatMap_def,
      length_flatten_uniform (Candidate.length_of_mem_entries stored), List.length_map,
      ScanAnswer.matchedRows, header, UInt16.toNat_ofNat_of_lt' few]
  case least =>
    rw [header]
    exact least
  case greatest =>
    rw [header]
    exact greatest

end ColumnScan
