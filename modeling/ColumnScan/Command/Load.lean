import ColumnScan.Storage.BlockSource

/-!
# Loading a logical block

Scans read the physical blocks of a logical block one after the other. Blocks after the last one of
the column are not read: their rows are EMPTY. Steps read only the blocks with rows of the input,
and the bytes of the others are zero. A failed read ends the loading.
-/

set_option autoImplicit false

namespace ColumnScan

/-- What is to be loaded. The numbers of its physical blocks, `width` of them from `firstBlock` on, must
not leave 64 bits. -/
structure LoadPlan where
  width : Nat
  logicalType : LogicalType
  isScan : Bool
  firstBlock : Nat
  rowMap : RowMap
  /-- The last physical block of the column, if it is known. -/
  lastBlock : Option Nat

/-- The bytes loaded so far, with the reads that it took. -/
structure Loaded where
  bytes : Array UInt8 := #[]
  cacheReads : Nat := 0
  physicalReads : Nat := 0

namespace Loaded

def addFetched (loaded : Loaded) (fetched : Fetched) : Loaded where
  bytes := loaded.bytes ++ fetched.block.bytes
  cacheReads := loaded.cacheReads + if fetched.cacheHit then 1 else 0
  physicalReads := loaded.physicalReads + if fetched.cacheHit then 0 else 1

end Loaded

namespace LoadPlan

/-- Whether a physical block is known to lie after the last one of the column. The end is noticed on
the way past the last block, so never in a logical block that starts behind it. -/
def isPastLast (plan : LoadPlan) (index : Nat) : Bool :=
  match plan.lastBlock with
  | none => false
  | some last => plan.firstBlock ≤ last && last < plan.firstBlock + index

/-- Load one physical block, given by its position in the logical block. -/
def loadBlock {σ : Type} (plan : LoadPlan) (source : BlockSource σ) (loaded : Loaded) (state : σ)
    (index : Nat) : Except ScanError Loaded × σ :=
  if plan.isScan && plan.isPastLast index then
    match emptyRows plan.width plan.logicalType (physicalBlockRows plan.width) with
    | .error error => (.error error, state)
    | .ok empty => (.ok { loaded with bytes := loaded.bytes ++ empty.toArray }, state)
  else
    match if plan.isScan then .ok true else blockSelected plan.width index plan.rowMap with
    | .error error => (.error error, state)
    | .ok false =>
        (.ok { loaded with bytes := loaded.bytes ++ Array.replicate physicalBlockSize 0 }, state)
    | .ok true =>
        match source.load state (plan.firstBlock + index) with
        | (.error error, state) => (.error error, state)
        | (.ok fetched, state) => (.ok (loaded.addFetched fetched), state)

def loadBlocks {σ : Type} (plan : LoadPlan) (source : BlockSource σ) :
    List Nat → Loaded → σ → Except ScanError Loaded × σ
  | [], loaded, state => (.ok loaded, state)
  | index :: rest, loaded, state =>
      match plan.loadBlock source loaded state index with
      | (.error error, state) => (.error error, state)
      | (.ok loaded, state) => plan.loadBlocks source rest loaded state

def run {σ : Type} (plan : LoadPlan) (source : BlockSource σ) (state : σ) :
    Except ScanError Loaded × σ :=
  plan.loadBlocks source (List.range plan.width) {} state

end LoadPlan

end ColumnScan
