import ColumnScan.Catalog.Sentinel
import ColumnScan.Scan.RowMap

/-!
# Logical and physical blocks

A logical block addresses 8192 rows whatever the width of the column. A column `width` bytes wide
keeps them in `width` consecutive physical blocks of 8192 bytes, so that one physical block holds
`16 / width` of the sixteen row runs of a row map.
-/

set_option autoImplicit false

namespace ColumnScan

def physicalBlockSize : Nat := 8192

def logicalBlockRows : Nat := 8192

def logicalBlockSize (width : Nat) : Nat := logicalBlockRows * width

def physicalBlockRows (width : Nat) : Nat := physicalBlockSize / width

/-- Which bits of a row map belong to one physical block: every block has the bits of `mask`, moved
up by `shift` for each block before it. -/
structure LoadMask where
  shift : Nat
  mask : Nat
deriving DecidableEq

namespace LoadMask

def ofWidth : Nat → Except ScanError LoadMask
  | 1 => .ok ⟨16, 0xFFFF⟩
  | 2 => .ok ⟨8, 0xFF⟩
  | 4 => .ok ⟨4, 0x0F⟩
  | 8 => .ok ⟨2, 0x03⟩
  | 16 => .ok ⟨1, 0x01⟩
  | width => .error (.invalidArgument (.noLayout width))

/-- The lowest bit of a physical block, counted in a 32-bit word. For the blocks that a column has
this is the product itself; positions that differ by a multiple of the word's capacity share it. -/
def firstBit (loadMask : LoadMask) (index : Nat) : Nat :=
  index * loadMask.shift % LittleEndian.capacity 4

def selects (loadMask : LoadMask) (map : RowMap) (index : Nat) : Bool :=
  let offset := loadMask.firstBit index
  offset < 16 && (map.toNat >>> offset) &&& loadMask.mask != 0

end LoadMask

def blockSelected (width index : Nat) (map : RowMap) : Except ScanError Bool := do
  let loadMask ← LoadMask.ofWidth width
  return loadMask.selects map index

/-- The physical blocks to read, by their position in the logical block. Scans read all of them and
steps those with rows of the row map. -/
def physicalBlocksToLoad (width : Nat) (map : RowMap) (isScan : Bool) :
    Except ScanError (List Nat) :=
  if isScan || width == 0 then
    .ok (List.range width)
  else do
    let loadMask ← LoadMask.ofWidth width
    return (List.range width).filter (loadMask.selects map)

/-- The bytes of `rows` EMPTY values, which stand for blocks that were never written. -/
def emptyRows (width : Nat) (logicalType : LogicalType) (rows : Nat) : Except ScanError Bytes := do
  let pair ← logicalType.sentinels width
  return (List.replicate rows pair.emptyBytes).flatten

end ColumnScan
