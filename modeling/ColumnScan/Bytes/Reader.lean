import ColumnScan.Bytes.LittleEndian
import ColumnScan.Error

/-!
# Reading a message from front to back

A `Reader` is the unread rest of a message and the number of bytes read before it. Every read
either takes exactly the bytes it asks for or reports how many were missing, and then leaves the
reader where it was. Reads that are asked for one at a time go on from there; a message that is
read as a whole ends with the first failure.
-/

set_option autoImplicit false

namespace ColumnScan

/-- A position in a message, with the bytes from there on. -/
structure Reader where
  position : Nat
  rest : Bytes

/-- A read of a message. It leaves a reader behind whether it succeeds or not. -/
abbrev Reading (α : Type) : Type := ExceptT ScanError (StateM Reader) α

namespace Reader

def ofBytes (bytes : Bytes) : Reader := ⟨0, bytes⟩

def remaining (reader : Reader) : Nat := reader.rest.length

/-- The next `count` bytes. Nothing is taken if fewer are left. -/
def take (count : Nat) : Reading Bytes := fun reader =>
  let taken := reader.rest.take count
  if taken.length < count then
    (.error (.malformed (.truncated count reader.position reader.remaining)), reader)
  else
    (.ok taken, ⟨reader.position + count, reader.rest.drop count⟩)

/-- The next `width` bytes as a natural number. -/
def nat (width : Nat) : Reading Nat := LittleEndian.natValue <$> take width

/-- The next `width` bytes as a two's-complement integer. -/
def int (width : Nat) : Reading Int := LittleEndian.intValue <$> take width

def byte : Reading UInt8 := UInt8.ofNat <$> nat 1

/-- The next two bytes as a 16-bit word. -/
def word16 : Reading UInt16 := UInt16.ofNat <$> nat 2

/-- The next four bytes as a 32-bit word. -/
def word32 : Reading UInt32 := UInt32.ofNat <$> nat 4

end Reader

/-- The two bytes of a 16-bit word. -/
def word16Bytes (word : UInt16) : Bytes := LittleEndian.ofNat 2 word.toNat

/-- The four bytes of a 32-bit word. -/
def word32Bytes (word : UInt32) : Bytes := LittleEndian.ofNat 4 word.toNat

/-- The sixteen bytes of a 128-bit integer. -/
def int128Bytes (value : Int) : Bytes := LittleEndian.ofInt 16 value

/-- What can be asked of a message next. -/
inductive ReadRequest where
  | bytes (count : Nat)
  | byte
  | signedByte
  | word16
  | word32
  | int64
  | int128
deriving DecidableEq

/-- What was read from a message. -/
inductive ReadItem where
  | bytes (bytes : Bytes)
  | byte (value : UInt8)
  | signedByte (value : Int8)
  | word16 (word : UInt16)
  | word32 (word : UInt32)
  | int64 (value : Int)
  | int128 (value : Int)
deriving DecidableEq

namespace Reader

def read : ReadRequest → Reading ReadItem
  | .bytes count => .bytes <$> take count
  | .byte => .byte <$> byte
  | .signedByte => (.signedByte ·.toInt8) <$> byte
  | .word16 => .word16 <$> word16
  | .word32 => .word32 <$> word32
  | .int64 => .int64 <$> int 8
  | .int128 => .int128 <$> int 16

end Reader

end ColumnScan
