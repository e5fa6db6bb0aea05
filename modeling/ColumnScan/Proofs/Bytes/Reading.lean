import ColumnScan.Bytes.Reader

/-!
# What a read takes

A read takes some bytes from the front of what is left of a message. Whatever follows them makes no
difference, and with fewer of them the message is malformed. Reads that come one after another take
what each of them takes.
-/

set_option autoImplicit false

namespace ColumnScan

variable {α β : Type}

/-- What lacks the end of two parts lacks the end of the first, or has all of it and lacks the end
of the second. -/
theorem append_eq_cut {first second short missing : Bytes}
    (shape : first ++ second = short ++ missing) :
    (∃ gap, gap ≠ [] ∧ first = short ++ gap) ∨
      ∃ rest, short = first ++ rest ∧ second = rest ++ missing := by
  obtain ⟨rest, whole, last⟩ | ⟨gap, part, later⟩ := List.append_eq_append_iff.mp shape
  · exact .inr ⟨rest, whole, last⟩
  · cases gap with
    | nil => exact .inr ⟨[], by rw [part, List.append_nil, List.append_nil], by rw [later]; rfl⟩
    | cons byte more => exact .inl ⟨byte :: more, List.cons_ne_nil byte more, part⟩

namespace Reading

/-- A read takes exactly the given bytes for a value and leaves all that follows them; on fewer
bytes the message is malformed. -/
structure Takes (reading : Reading α) (position : Nat) (taken : Bytes) (value : α) : Prop where
  complete : ∀ rest, reading ⟨position, taken ++ rest⟩ =
    (.ok value, ⟨position + taken.length, rest⟩)
  cut : ∀ short missing, taken = short ++ missing → missing ≠ [] →
    ∃ fault, (reading ⟨position, short⟩).1 = .error (.malformed fault)

section Sequences

variable {first : Reading α} {value : α} {reader middle : Reader}

theorem bind_of_ok {next : α → Reading β} (read : first reader = (.ok value, middle)) :
    (first >>= next) reader = next value middle := by
  change ExceptT.bindCont next (first reader).1 (first reader).2 = _
  rw [read]
  rfl

theorem bind_of_error {next : α → Reading β} {error : ScanError}
    (failed : first reader = (.error error, middle)) :
    (first >>= next) reader = (.error error, middle) := by
  change ExceptT.bindCont next (first reader).1 (first reader).2 = _
  rw [failed]
  rfl

/-- Of two reads that succeed one after the other, the second goes on where the first ended. -/
theorem bind_eq_ok {next : α → Reading β} {result : β} {after : Reader}
    (read : (first >>= next) reader = (.ok result, after)) :
    ∃ value middle, first reader = (.ok value, middle) ∧
      next value middle = (.ok result, after) := by
  match taken : first reader with
  | (.error error, middle) =>
      rw [bind_of_error taken] at read
      cases read
  | (.ok value, middle) =>
      rw [bind_of_ok taken] at read
      exact ⟨value, middle, rfl, read⟩

/-- A check that was passed reads nothing. -/
theorem check_eq_ok {checked : Except ScanError α} {next : α → Reading β} {result : β}
    {after : Reader} (read : (liftM checked >>= next) reader = (.ok result, after)) :
    ∃ value, checked = .ok value ∧ next value reader = (.ok result, after) := by
  cases checked with
  | error error => cases read
  | ok value => exact ⟨value, rfl, read⟩

end Sequences

namespace Takes

variable {position : Nat} {taken more : Bytes}

theorem nothing (position : Nat) (value : α) : Takes (pure value) position [] value := by
  refine ⟨fun rest => rfl, fun short missing shape lacking => ?_⟩
  exact absurd (List.append_eq_nil_iff.mp shape.symm).2 lacking

/-- A check that was passed takes nothing. -/
theorem check {checked : Except ScanError α} {passed : α} (succeeded : checked = .ok passed)
    {next : α → Reading β} {last : β} (later : Takes (next passed) position taken last) :
    Takes (liftM checked >>= next) position taken last := by
  rw [succeeded]
  exact later

/-- What follows a read takes the bytes after those that the read takes. -/
theorem andThen {first : Reading α} {value : α} (takes : Takes first position taken value)
    {next : α → Reading β} {last : β}
    (later : Takes (next value) (position + taken.length) more last) :
    Takes (first >>= next) position (taken ++ more) last := by
  refine ⟨fun rest => ?_, fun short missing shape lacking => ?_⟩
  · rw [List.append_assoc, bind_of_ok (takes.complete _), later.complete, List.length_append,
      Nat.add_assoc]
  · obtain ⟨gap, some, part⟩ | ⟨rest, rfl, last⟩ := append_eq_cut shape
    · obtain ⟨fault, failed⟩ := takes.cut short gap part some
      exact ⟨fault, by rw [bind_of_error (Prod.ext failed rfl)]⟩
    · obtain ⟨fault, failed⟩ := later.cut rest missing last lacking
      exact ⟨fault, by rw [bind_of_ok (takes.complete _), failed]⟩

/-- What is read is interpreted. -/
theorem map {reading : Reading α} {value : α} (takes : Takes reading position taken value)
    (interpret : α → β) : Takes (interpret <$> reading) position taken (interpret value) := by
  have both : Takes (reading >>= fun value => pure (interpret value)) position (taken ++ [])
      (interpret value) := takes.andThen (nothing _ (interpret value))
  rwa [List.append_nil] at both

end Takes

end Reading

namespace Reader

/-- A read fails if too few bytes are left, and takes the next ones otherwise. -/
theorem take_eq (count : Nat) (reader : Reader) : take count reader =
    if reader.remaining < count then
      (.error (.malformed (.truncated count reader.position reader.remaining)), reader)
    else (.ok (reader.rest.take count), ⟨reader.position + count, reader.rest.drop count⟩) := by
  have short : (reader.rest.take count).length < count ↔ reader.remaining < count := by
    rw [List.length_take, remaining]
    omega
  simp only [take, short]

theorem takes_take (position : Nat) (bytes : Bytes) :
    Reading.Takes (take bytes.length) position bytes bytes := by
  refine ⟨fun rest => ?_, fun short missing shape lacking => ?_⟩
  · have enough : ¬(Reader.mk position (bytes ++ rest)).remaining < bytes.length := by
      rw [remaining, List.length_append]
      omega
    rw [take_eq, if_neg enough, List.take_left, List.drop_left]
  · have less : (Reader.mk position short).remaining < bytes.length := by
      rw [shape, List.length_append]
      exact Nat.lt_add_of_pos_right (List.length_pos_iff.mpr lacking)
    rw [take_eq, if_pos less]
    exact ⟨_, rfl⟩

theorem takes_nat (position : Nat) (bytes : Bytes) :
    Reading.Takes (nat bytes.length) position bytes (LittleEndian.natValue bytes) :=
  (takes_take position bytes).map LittleEndian.natValue

theorem takes_int (position : Nat) (bytes : Bytes) :
    Reading.Takes (int bytes.length) position bytes (LittleEndian.intValue bytes) :=
  (takes_take position bytes).map LittleEndian.intValue

theorem ofNat_natValue_byte (byte : UInt8) : UInt8.ofNat (LittleEndian.natValue [byte]) = byte :=
  UInt8.ofNat_toNat

theorem takes_byte (position : Nat) (value : UInt8) : Reading.Takes byte position [value] value := by
  have takes := (takes_nat position [value]).map UInt8.ofNat
  rwa [ofNat_natValue_byte] at takes

theorem natValue_word16Bytes (word : UInt16) :
    LittleEndian.natValue (word16Bytes word) = word.toNat := by
  rw [word16Bytes, LittleEndian.natValue_ofNat]
  exact Nat.mod_eq_of_lt word.toNat_lt

theorem natValue_word32Bytes (word : UInt32) :
    LittleEndian.natValue (word32Bytes word) = word.toNat := by
  rw [word32Bytes, LittleEndian.natValue_ofNat]
  exact Nat.mod_eq_of_lt word.toNat_lt

theorem takes_word16 (position : Nat) (value : UInt16) :
    Reading.Takes word16 position (word16Bytes value) value := by
  have takes := (takes_nat position (word16Bytes value)).map UInt16.ofNat
  rwa [natValue_word16Bytes, UInt16.ofNat_toNat] at takes

theorem takes_word32 (position : Nat) (value : UInt32) :
    Reading.Takes word32 position (word32Bytes value) value := by
  have takes := (takes_nat position (word32Bytes value)).map UInt32.ofNat
  rwa [natValue_word32Bytes, UInt32.ofNat_toNat] at takes

section Inversion

variable {reader after : Reader}

/-- Two bytes are those of the word that they denote. -/
theorem word16Bytes_ofNat {bytes : Bytes} (length : bytes.length = 2) :
    word16Bytes (UInt16.ofNat (LittleEndian.natValue bytes)) = bytes := by
  have below : LittleEndian.natValue bytes < 65536 := by
    have bound := LittleEndian.natValue_lt bytes
    rwa [length] at bound
  rw [word16Bytes, UInt16.toNat_ofNat', Nat.mod_eq_of_lt below, ← length,
    LittleEndian.ofNat_natValue]

theorem word32Bytes_ofNat {bytes : Bytes} (length : bytes.length = 4) :
    word32Bytes (UInt32.ofNat (LittleEndian.natValue bytes)) = bytes := by
  have below : LittleEndian.natValue bytes < 4294967296 := by
    have bound := LittleEndian.natValue_lt bytes
    rwa [length] at bound
  rw [word32Bytes, UInt32.toNat_ofNat', Nat.mod_eq_of_lt below, ← length,
    LittleEndian.ofNat_natValue]

theorem take_eq_ok {count : Nat} {taken : Bytes} (read : take count reader = (.ok taken, after)) :
    reader.rest = taken ++ after.rest ∧ taken.length = count := by
  rw [take_eq] at read
  split at read
  next => cases read
  next enough =>
    cases read
    exact ⟨(List.take_append_drop count reader.rest).symm,
      List.length_take_of_le (Nat.not_lt.mp enough)⟩

theorem nat_eq_ok {width value : Nat} (read : nat width reader = (.ok value, after)) :
    ∃ taken, reader.rest = taken ++ after.rest ∧ taken.length = width ∧
      LittleEndian.natValue taken = value := by
  obtain ⟨taken, middle, took, read⟩ := Reading.bind_eq_ok read
  cases read
  obtain ⟨shape, length⟩ := take_eq_ok took
  exact ⟨taken, shape, length, rfl⟩

theorem byte_eq_ok {value : UInt8} (read : byte reader = (.ok value, after)) :
    reader.rest = value :: after.rest := by
  obtain ⟨number, middle, took, read⟩ := Reading.bind_eq_ok read
  cases read
  obtain ⟨taken, shape, length, rfl⟩ := nat_eq_ok took
  obtain ⟨first, rfl⟩ := List.length_eq_one_iff.mp length
  rw [ofNat_natValue_byte]
  exact shape

theorem word16_eq_ok {value : UInt16} (read : word16 reader = (.ok value, after)) :
    reader.rest = word16Bytes value ++ after.rest := by
  obtain ⟨number, middle, took, read⟩ := Reading.bind_eq_ok read
  cases read
  obtain ⟨taken, shape, length, rfl⟩ := nat_eq_ok took
  rw [word16Bytes_ofNat length]
  exact shape

end Inversion

end Reader

end ColumnScan
