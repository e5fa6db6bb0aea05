import ColumnScan.Decimal.Storage
import ColumnScan.Proofs.Bytes.Reading

/-!
# Histories of a reader

A reader is asked for one item after another, and some reads may fail for want of bytes. A history
keeps the items that were read. Their encodings, one after another, are the part of the message that
was read, and what was written as items is read back as such.
-/

set_option autoImplicit false

namespace ColumnScan

namespace ReadRequest

/-- The number of bytes that a read takes. -/
def size : ReadRequest → Nat
  | .bytes count => count
  | .byte | .signedByte => 1
  | .word16 => 2
  | .word32 => 4
  | .int64 => 8
  | .int128 => 16

/-- What the bytes that a read takes stand for. -/
def interpret : ReadRequest → Bytes → ReadItem
  | .bytes _, taken => .bytes taken
  | .byte, taken => .byte (UInt8.ofNat (LittleEndian.natValue taken))
  | .signedByte, taken => .signedByte (UInt8.ofNat (LittleEndian.natValue taken)).toInt8
  | .word16, taken => .word16 (UInt16.ofNat (LittleEndian.natValue taken))
  | .word32, taken => .word32 (UInt32.ofNat (LittleEndian.natValue taken))
  | .int64, taken => .int64 (LittleEndian.intValue taken)
  | .int128, taken => .int128 (LittleEndian.intValue taken)

end ReadRequest

namespace ReadItem

/-- The bytes that are written for an item. -/
def encoded : ReadItem → Bytes
  | .bytes taken => taken
  | .byte value => [value]
  | .signedByte value => [value.toUInt8]
  | .word16 word => word16Bytes word
  | .word32 word => word32Bytes word
  | .int64 value => LittleEndian.ofInt 8 value
  | .int128 value => int128Bytes value

/-- The read that gives such an item. -/
def request : ReadItem → ReadRequest
  | .bytes taken => .bytes taken.length
  | .byte _ => .byte
  | .signedByte _ => .signedByte
  | .word16 _ => .word16
  | .word32 _ => .word32
  | .int64 _ => .int64
  | .int128 _ => .int128

/-- Integers of an item are words of its width. -/
def Fits : ReadItem → Prop
  | .int64 value => DecimalStorage.narrow.Fits value
  | .int128 value => DecimalStorage.wide.Fits value
  | .bytes _ | .byte _ | .signedByte _ | .word16 _ | .word32 _ => True

instance (item : ReadItem) : Decidable item.Fits :=
  match item with
  | .int64 value => inferInstanceAs (Decidable (DecimalStorage.narrow.Fits value))
  | .int128 value => inferInstanceAs (Decidable (DecimalStorage.wide.Fits value))
  | .bytes _ | .byte _ | .signedByte _ | .word16 _ | .word32 _ => inferInstanceAs (Decidable True)

theorem length_encoded (item : ReadItem) : item.encoded.length = item.request.size := by
  cases item with
  | bytes | byte | signedByte => rfl
  | word16 | word32 => exact LittleEndian.length_ofNat _ _
  | int64 | int128 => exact LittleEndian.length_ofInt _ _

/-- The bytes written for an item stand for it. -/
theorem interpret_encoded {item : ReadItem} (fits : item.Fits) :
    item.request.interpret item.encoded = item := by
  cases item with
  | bytes => rfl
  | byte value => exact congrArg byte UInt8.ofNat_toNat
  | signedByte value =>
      have same : (UInt8.ofNat value.toUInt8.toNat).toInt8 = value := by
        rw [UInt8.ofNat_toNat, Int8.toInt8_toUInt8]
      exact congrArg signedByte same
  | word16 word =>
      have same : UInt16.ofNat (LittleEndian.natValue (word16Bytes word)) = word := by
        rw [Reader.natValue_word16Bytes, UInt16.ofNat_toNat]
      exact congrArg word16 same
  | word32 word =>
      have same : UInt32.ofNat (LittleEndian.natValue (word32Bytes word)) = word := by
        rw [Reader.natValue_word32Bytes, UInt32.ofNat_toNat]
      exact congrArg word32 same
  | int64 value => exact congrArg int64 (DecimalStorage.narrow.intValue_ofInt fits)
  | int128 value => exact congrArg int128 (DecimalStorage.wide.intValue_ofInt fits)

/-- An item of the requested kind that is encoded by the bytes that were taken. -/
structure Answers (item : ReadItem) (request : ReadRequest) (taken : Bytes) : Prop where
  request : item.request = request
  encoded : item.encoded = taken
  fits : item.Fits

/-- As many bytes as a read takes encode an item. -/
theorem answers_interpret {request : ReadRequest} {taken : Bytes}
    (length : taken.length = request.size) : (request.interpret taken).Answers request taken := by
  cases request with
  | bytes count => exact ⟨congrArg ReadRequest.bytes length, rfl, trivial⟩
  | byte | signedByte =>
      obtain ⟨value, rfl⟩ := List.length_eq_one_iff.mp length
      exact ⟨rfl, congrArg (fun byte => [byte]) (Reader.ofNat_natValue_byte value), trivial⟩
  | word16 => exact ⟨rfl, Reader.word16Bytes_ofNat length, trivial⟩
  | word32 => exact ⟨rfl, Reader.word32Bytes_ofNat length, trivial⟩
  | int64 =>
      have same := LittleEndian.ofInt_intValue taken
      rw [length] at same
      exact ⟨rfl, same, DecimalStorage.narrow.fits_intValue length⟩
  | int128 =>
      have same := LittleEndian.ofInt_intValue taken
      rw [length] at same
      exact ⟨rfl, same, DecimalStorage.wide.fits_intValue length⟩

end ReadItem

namespace Reader

/-- Every read takes its bytes and then says what they stand for. -/
theorem read_eq (request : ReadRequest) :
    read request = request.interpret <$> take request.size := by
  cases request with
  | bytes => rfl
  | byte | signedByte | word16 | word32 | int64 | int128 =>
      simp only [read, byte, word16, word32, nat, int, Functor.map_map]
      rfl

/-- A read with too few bytes left fails and takes none. -/
theorem read_of_lt {request : ReadRequest} {reader : Reader}
    (short : reader.remaining < request.size) : read request reader =
      (.error (.malformed (.truncated request.size reader.position reader.remaining)), reader) := by
  have taken := take_eq request.size reader
  rw [if_pos short] at taken
  rw [read_eq, map_eq_pure_bind, Reading.bind_of_error taken]

/-- A read with enough bytes left takes the next ones. -/
theorem read_of_le {request : ReadRequest} {reader : Reader}
    (enough : request.size ≤ reader.remaining) : read request reader =
      (.ok (request.interpret (reader.rest.take request.size)),
        ⟨reader.position + request.size, reader.rest.drop request.size⟩) := by
  have taken := take_eq request.size reader
  rw [if_neg (Nat.not_lt.mpr enough)] at taken
  rw [read_eq, map_eq_pure_bind, Reading.bind_of_ok taken]
  rfl

end Reader

/-- A reader and the items that were read until now. -/
structure ReaderHistory where
  reader : Reader
  items : List ReadItem := []

namespace ReaderHistory

open ReadItem

/-- The start of a message. -/
def ofBytes (buffer : Bytes) : ReaderHistory := { reader := .ofBytes buffer }

def step (history : ReaderHistory) (request : ReadRequest) : ReaderHistory :=
  match Reader.read request history.reader with
  | (.ok item, after) => { reader := after, items := history.items ++ [item] }
  | (.error _, after) => { history with reader := after }

def run (history : ReaderHistory) (requests : List ReadRequest) : ReaderHistory :=
  requests.foldl step history

/-- The items that were read are the read part of the message. -/
structure Covers (history : ReaderHistory) (buffer : Bytes) : Prop where
  whole : history.items.flatMap encoded ++ history.reader.rest = buffer
  position : history.reader.position = (history.items.flatMap encoded).length

theorem covers_ofBytes (buffer : Bytes) : (ofBytes buffer).Covers buffer := ⟨rfl, rfl⟩

namespace Covers

variable {history : ReaderHistory} {buffer : Bytes}

theorem step (covers : history.Covers buffer) (request : ReadRequest) :
    (history.step request).Covers buffer := by
  obtain ⟨whole, position⟩ := covers
  unfold ReaderHistory.step
  by_cases short : history.reader.remaining < request.size
  · rw [Reader.read_of_lt short]
    exact ⟨whole, position⟩
  · have enough := Nat.not_lt.mp short
    have taken : (history.reader.rest.take request.size).length = request.size :=
      List.length_take_of_le enough
    have encoding : (history.items ++
        [request.interpret (history.reader.rest.take request.size)]).flatMap encoded =
        history.items.flatMap encoded ++ history.reader.rest.take request.size := by
      rw [List.flatMap_append, List.flatMap_singleton, (answers_interpret taken).encoded]
    rw [Reader.read_of_le enough]
    dsimp only
    constructor
    · rw [encoding, List.append_assoc, List.take_append_drop, whole]
    · rw [encoding, List.length_append, taken, position]

theorem run (covers : history.Covers buffer) (requests : List ReadRequest) :
    (history.run requests).Covers buffer := by
  induction requests generalizing history with
  | nil => exact covers
  | cons request rest ih => exact ih (covers.step request)

end Covers

/-- An item that comes next is read. -/
theorem step_encoded (position : Nat) (items : List ReadItem) {item : ReadItem} (fits : item.Fits)
    (rest : Bytes) : step ⟨⟨position, item.encoded ++ rest⟩, items⟩ item.request =
      ⟨⟨position + item.encoded.length, rest⟩, items ++ [item]⟩ := by
  have enough : item.request.size ≤ (Reader.mk position (item.encoded ++ rest)).remaining := by
    rw [Reader.remaining, List.length_append, length_encoded]
    exact Nat.le_add_right _ _
  unfold step
  dsimp only
  rw [Reader.read_of_le enough, ← length_encoded, List.take_left, List.drop_left,
    interpret_encoded fits]

theorem run_encoded {items : List ReadItem} (fits : ∀ item ∈ items, item.Fits) (position : Nat)
    (earlier : List ReadItem) (appended : Bytes) :
    run ⟨⟨position, items.flatMap encoded ++ appended⟩, earlier⟩ (items.map request) =
      ⟨⟨position + (items.flatMap encoded).length, appended⟩, earlier ++ items⟩ := by
  induction items generalizing position earlier with
  | nil => simp [run]
  | cons item rest ih =>
      obtain ⟨first, later⟩ := List.forall_mem_cons.mp fits
      rw [List.flatMap_cons, List.append_assoc, List.map_cons, run, List.foldl_cons,
        step_encoded position earlier first]
      have done := ih later (position + item.encoded.length) (earlier ++ [item])
      rw [run] at done
      rw [done, List.length_append, Nat.add_assoc, List.append_assoc, List.singleton_append]

/-- After any reads of a message, failed ones included, the read bytes and those left make up the
message, and the items that were read encode the read bytes. A further read fails exactly if too few
bytes are left, and then leaves the reader as it was; otherwise it takes the next bytes and gives the
item that they encode. Items that were written next are read back, up to what follows them. -/
theorem run_reads (buffer : Bytes) (requests : List ReadRequest) :
    let history := (ofBytes buffer).run requests
    let reader := history.reader
    reader.position + reader.remaining = buffer.length ∧
    reader.rest = buffer.drop reader.position ∧
    history.items.flatMap encoded = buffer.take reader.position ∧
    (∀ request : ReadRequest,
      (reader.remaining < request.size →
        Reader.read request reader = (.error (.malformed
          (.truncated request.size reader.position reader.remaining)), reader)) ∧
      (request.size ≤ reader.remaining → ∃ item : ReadItem,
        item.Answers request (reader.rest.take request.size) ∧
        Reader.read request reader =
          (.ok item, ⟨reader.position + request.size, reader.rest.drop request.size⟩))) ∧
    ∀ (written : List ReadItem) (appended : Bytes), (∀ item ∈ written, item.Fits) →
      reader.rest = written.flatMap encoded ++ appended →
      history.run (written.map request) =
        ⟨⟨reader.position + (written.flatMap encoded).length, appended⟩,
          history.items ++ written⟩ := by
  intro history reader
  obtain ⟨whole, position⟩ : history.Covers buffer := (covers_ofBytes buffer).run requests
  refine ⟨?_, ?_, ?_, fun request => ⟨Reader.read_of_lt, fun enough => ?_⟩, ?_⟩
  · rw [← whole, List.length_append, ← position, Reader.remaining]
  · rw [← whole, position, List.drop_left]
  · rw [← whole, position, List.take_left]
  · have answers := answers_interpret (List.length_take_of_le enough)
    exact ⟨_, answers, Reader.read_of_le enough⟩
  · intro written appended fits next
    have done := run_encoded fits reader.position history.items appended
    rwa [← next] at done

/-- A read that lacks bytes makes no difference to a shorter one after it, and three written numbers
are read back. -/
theorem run_reads_truncated :
    (let reader := ((ofBytes [1, 2, 3]).run [.word16, .word32]).reader
    Reader.read .word32 reader = (.error (.malformed (.truncated 4 2 1)), reader) ∧
      ∃ item : ReadItem, item.encoded = [3] ∧ Reader.read .byte reader = (.ok item, ⟨3, []⟩)) ∧
    (let written : List ReadItem := [.word16 513, .word32 7, .int128 (-1)]
    (ofBytes (written.flatMap encoded ++ [9])).run (written.map request) =
      ⟨⟨22, [9]⟩, written⟩) := by
  obtain ⟨_, _, _, reads, _⟩ := run_reads [1, 2, 3] [.word16, .word32]
  refine ⟨⟨(reads .word32).1 (by decide), ?_⟩, ?_⟩
  · obtain ⟨item, answers, taken⟩ := (reads .byte).2 (by decide)
    exact ⟨item, answers.encoded, taken⟩
  · intro written
    have fits : ∀ item ∈ written, item.Fits := by decide
    exact (run_reads (written.flatMap encoded ++ [9]) []).2.2.2.2 written [9] fits rfl

end ReaderHistory

end ColumnScan
