import ColumnScan.Storage.BlockSource

/-!
# Blocks in memory

A `MemoryStore` keeps physical blocks by number and remembers which of them were read since the
cache was last dropped. The first read of a block is physical and the later ones are cache hits.
Storing a block again does not make its next read physical.
-/

set_option autoImplicit false

namespace ColumnScan

/-- Stored blocks and the cache. -/
structure MemoryStore where
  /-- The blocks with their numbers; no number occurs twice. -/
  blocks : List (Nat × PhysicalBlock) := []
  warm : List Nat := []

namespace MemoryStore

def block? (store : MemoryStore) (number : Nat) : Option PhysicalBlock :=
  (store.blocks.find? (·.1 == number)).map Prod.snd

def size (store : MemoryStore) : Nat := store.blocks.length

def isEmpty (store : MemoryStore) : Bool := store.size == 0

/-- Store one physical block, in place of an earlier one with the same number. A block that is
refused leaves the store as it was. -/
def insert (store : MemoryStore) (number : Nat) (bytes : Array UInt8) :
    Except ScanError Unit × MemoryStore :=
  if size_eq : bytes.size = physicalBlockSize then
    let others := store.blocks.filter (·.1 != number)
    (.ok (), { store with blocks := (number, ⟨bytes, size_eq⟩) :: others })
  else
    (.error (.invalidArgument (.blockSize number bytes.size physicalBlockSize)), store)

/-- Store blocks one after the other, up to the first one that is refused. -/
def insertAll (store : MemoryStore) :
    List (Nat × Array UInt8) → Except ScanError Unit × MemoryStore
  | [] => (.ok (), store)
  | (number, bytes) :: rest =>
      match store.insert number bytes with
      | (.error error, store) => (.error error, store)
      | (.ok (), store) => store.insertAll rest

/-- The bytes of a column that make up one of its blocks. -/
def columnPiece (bytes : Array UInt8) (index : Nat) : Array UInt8 :=
  bytes.extract (index * physicalBlockSize) (index * physicalBlockSize + physicalBlockSize)

/-- Store the bytes of a column as consecutive blocks from `first` on, and return how many. The
number of the last of them must not leave 64 bits. -/
def insertColumn (store : MemoryStore) (first : Nat) (bytes : Array UInt8) :
    Except ScanError Nat × MemoryStore :=
  if bytes.size % physicalBlockSize ≠ 0 then
    (.error (.invalidArgument (.partialBlocks bytes.size)), store)
  else
    let count := bytes.size / physicalBlockSize
    let pieces := (List.range count).map fun index => (first + index, columnPiece bytes index)
    match store.insertAll pieces with
    | (.error error, store) => (.error error, store)
    | (.ok (), store) => (.ok count, store)

/-- Read a block into a buffer of `length` bytes. A failed read leaves the cache as it was. -/
def load (store : MemoryStore) (number length : Nat) : Except ScanError Fetched × MemoryStore :=
  match store.block? number with
  | none => (.error (.readFailed (.blockMissing number)), store)
  | some block =>
      if length = physicalBlockSize then
        (.ok { block, cacheHit := store.warm.contains number },
          { store with warm := number :: store.warm.filter (· != number) })
      else
        (.error (.invalidArgument (.bufferSize length physicalBlockSize)), store)

def dropCache (store : MemoryStore) : MemoryStore := { store with warm := [] }

def lastBlock (store : MemoryStore) : Option Nat := (store.blocks.map Prod.fst).max?

def source : BlockSource MemoryStore where
  load store number := store.load number physicalBlockSize
  lastBlock := lastBlock

/-- The store as a source that does not know its last block. -/
def sourceWithoutLast : BlockSource MemoryStore :=
  { source with lastBlock := fun _ => none }

end MemoryStore

end ColumnScan
