import ColumnScan.Storage.Layout

/-!
# Block sources

A command reads physical blocks through a `BlockSource`. A read may change the source, for example
the set of blocks in its cache, so it is a function on the source's state; a failed read leaves a
state too.
-/

set_option autoImplicit false

namespace ColumnScan

/-- The bytes of one physical block. -/
structure PhysicalBlock where
  bytes : Array UInt8
  size_eq : bytes.size = physicalBlockSize

/-- The answer of a read. -/
structure Fetched where
  block : PhysicalBlock
  cacheHit : Bool

/-- A store of physical blocks with states of type `σ`. -/
structure BlockSource (σ : Type) where
  load : σ → Nat → Except ScanError Fetched × σ
  /-- The last physical block of the column, if it is known. -/
  lastBlock : σ → Option Nat

end ColumnScan
