import ColumnScan.Bytes.Reader
import ColumnScan.Column.OutputMask
import ColumnScan.Scan.RowMap

/-!
# Scan answers

The answer of a scan is a header of forty-five bytes and the encoded matches. All numbers are
little-endian, in this order: the number of matches (2), the row map (2), whether the extent is
valid (1), the least and the greatest value (16 each), the reads served from the cache (4) and the
physical reads (4). A match is its row index (2) if rows are emitted and its value if values are.
-/

set_option autoImplicit false

namespace ColumnScan

/-- The fixed part of a scan answer. -/
structure ScanHeader where
  matched : UInt16 := 0
  rowMap : RowMap := 0
  /-- Whether `least` and `greatest` describe the whole block. -/
  extentValid : Bool := false
  least : Int := 0
  greatest : Int := 0
  cacheReads : UInt32 := 0
  physicalReads : UInt32 := 0
deriving DecidableEq

namespace ScanHeader

def encode (header : ScanHeader) : Bytes :=
  word16Bytes header.matched ++ word16Bytes header.rowMap ++
    [if header.extentValid then 1 else 0] ++
    int128Bytes header.least ++ int128Bytes header.greatest ++
    word32Bytes header.cacheReads ++ word32Bytes header.physicalReads

def reading : Reading ScanHeader := do
  let matched ← Reader.word16
  let rowMap ← Reader.word16
  let valid ← Reader.byte
  let least ← Reader.int 16
  let greatest ← Reader.int 16
  let cacheReads ← Reader.word32
  let physicalReads ← Reader.word32
  let extentValid := valid != 0
  return { matched, rowMap, extentValid, least, greatest, cacheReads, physicalReads }

end ScanHeader

/-- One match of a scan, with the parts that were emitted. -/
structure Entry where
  row : Option RowIndex
  value : Option Bytes
deriving DecidableEq

namespace Entry

def ofBytes (mask : OutputMask) (bytes : Bytes) : Entry where
  row := if mask.emitsRow then some (UInt16.ofNat (LittleEndian.natValue (bytes.take 2))) else none
  value :=
    if mask.emitsValue then some (if mask.emitsRow then bytes.drop 2 else bytes) else none

end Entry

/-- The answer of one block scan. -/
structure ScanAnswer where
  header : ScanHeader := {}
  /-- The encoded matches, one after the other. -/
  payload : Bytes := []
deriving DecidableEq

namespace ScanAnswer

def matchedRows (answer : ScanAnswer) : Nat := answer.header.matched.toNat

def encode (answer : ScanAnswer) : Bytes := answer.header.encode ++ answer.payload

/-- An answer whose matches have the given parts and width. -/
def reading (mask : OutputMask) (width : Nat) : Reading ScanAnswer := do
  let header ← ScanHeader.reading
  let payload ← Reader.take (header.matched.toNat * mask.entrySize width)
  return { header, payload }

/-- Read an answer. Bytes after the last match are ignored. -/
def decode (bytes : Bytes) (mask : OutputMask) (width : Nat) : Except ScanError ScanAnswer :=
  (reading mask width (Reader.ofBytes bytes)).1

/-- The matches of an answer. A last match that is cut short is left out. -/
def entries (answer : ScanAnswer) (mask : OutputMask) (width : Nat) : List Entry :=
  let size := max (mask.entrySize width) 1
  let bytes := answer.payload.toArray
  (List.range (bytes.size / size)).map fun index => Entry.ofBytes mask (cell bytes size index)

end ScanAnswer

end ColumnScan
