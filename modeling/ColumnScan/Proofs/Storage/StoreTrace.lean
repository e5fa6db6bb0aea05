import ColumnScan.Proofs.Storage.ReadLog
import ColumnScan.Proofs.Traces
import ColumnScan.Storage.MemoryStore
import Mathlib.Data.List.Induction

/-!
# The trace of a store

What happens to a store leaves a trace: blocks that were stored, reads with what came of them, and
drops of the cache. The trace says what the store has and what it answers. A block has the bytes
stored last under its number, whatever was read meanwhile, and it is cached if it was read since the
cache was dropped, whatever was stored meanwhile.
-/

set_option autoImplicit false

namespace ColumnScan

inductive StoreRecord where
  | stored (number : Nat) (bytes : Array UInt8)
  | read (read : BlockRead)
  | dropped

namespace StoreRecord

/-- The bytes were the last ones to be stored under the number. -/
def LastStored (trace : List StoreRecord) (number : Nat) (bytes : Array UInt8) : Prop :=
  Since (· = stored number bytes) (fun other => ∃ bytes, other = stored number bytes) trace

/-- The block was read successfully since the cache was last dropped. -/
def ReadSinceDrop (trace : List StoreRecord) (number : Nat) : Prop :=
  Since (fun record => ∃ fetched, record = read ⟨number, .ok fetched⟩) (· = dropped) trace

section Append

variable {trace : List StoreRecord} {number other : Nat} {bytes given : Array UInt8}
  {answer : Except ScanError Fetched}

theorem lastStored_stored_iff :
    LastStored (trace ++ [stored other given]) number bytes ↔
      if other = number then given = bytes else LastStored trace number bytes := by
  rw [LastStored, since_append_iff, LastStored]
  by_cases same : other = number
  · simp [same]
  · simp [same]

theorem lastStored_read_iff {answered : BlockRead} :
    LastStored (trace ++ [read answered]) number bytes ↔ LastStored trace number bytes := by
  simp [LastStored, since_append_iff]

theorem lastStored_dropped_iff :
    LastStored (trace ++ [dropped]) number bytes ↔ LastStored trace number bytes := by
  simp [LastStored, since_append_iff]

theorem readSinceDrop_stored_iff :
    ReadSinceDrop (trace ++ [stored other given]) number ↔ ReadSinceDrop trace number := by
  simp [ReadSinceDrop, since_append_iff]

theorem readSinceDrop_read_iff :
    ReadSinceDrop (trace ++ [read ⟨other, answer⟩]) number ↔
      (other = number ∧ ∃ fetched, answer = .ok fetched) ∨ ReadSinceDrop trace number := by
  simp [ReadSinceDrop, since_append_iff]

theorem lastStored_reads_iff {reads : List BlockRead} :
    LastStored (trace ++ reads.map read) number bytes ↔ LastStored trace number bytes := by
  induction reads using List.reverseRecOn with
  | nil => rw [List.map_nil, List.append_nil]
  | append_singleton earlier last ih =>
      rw [List.map_append, List.map_singleton, ← List.append_assoc, lastStored_read_iff, ih]

theorem not_readSinceDrop_dropped : ¬ReadSinceDrop (trace ++ [dropped]) number := by
  simp [ReadSinceDrop, since_append_iff]

end Append

end StoreRecord

/-- A read finds the bytes that were stored last, as a hit if the block is cached, and it fails only
if there are none. -/
def BlockRead.Follows (read : BlockRead) (trace : List StoreRecord) : Prop :=
  match read.answer with
  | .ok fetched =>
      StoreRecord.LastStored trace read.number fetched.block.bytes ∧
        (fetched.cacheHit = true ↔ StoreRecord.ReadSinceDrop trace read.number)
  | .error _ => ∀ bytes, ¬StoreRecord.LastStored trace read.number bytes

namespace MemoryStore

variable {store next : MemoryStore}

/-- A read with a buffer of the right length finds its block and caches it. All others fail and
change nothing. -/
theorem load_cases (store : MemoryStore) (number length : Nat) :
    (∃ error, store.load number length = (.error error, store) ∧
      (length = physicalBlockSize → store.block? number = none)) ∨
      length = physicalBlockSize ∧ ∃ block next, store.block? number = some block ∧
        store.load number length =
          (.ok { block, cacheHit := store.warm.contains number }, next) ∧
        next.blocks = store.blocks ∧
        ∀ other, other ∈ next.warm ↔ number = other ∨ other ∈ store.warm := by
  unfold load
  split
  next missing => exact .inl ⟨_, rfl, fun _ => missing⟩
  next block found =>
    split
    next right =>
      refine .inr ⟨right, block, _, found, rfl, rfl, fun other => ?_⟩
      by_cases same : other = number
      · simp [same]
      · simp [same, Ne.symm same]
    next wrong => exact .inl ⟨_, rfl, fun right => absurd right wrong⟩

theorem blocks_load (store : MemoryStore) (number length : Nat) :
    (store.load number length).2.blocks = store.blocks := by
  obtain ⟨error, fails, _⟩ | ⟨_, block, next, _, loads, blocks, _⟩ := store.load_cases number length
  · rw [fails]
  · rw [loads, blocks]

/-- The bytes under a number. -/
def bytes? (store : MemoryStore) (number : Nat) : Option (Array UInt8) :=
  (store.block? number).map PhysicalBlock.bytes

/-- A block of the right length is stored under its number. Any other is refused. -/
theorem insert_cases (store : MemoryStore) (number : Nat) (bytes : Array UInt8) :
    (bytes.size ≠ physicalBlockSize ∧
      ∃ error, store.insert number bytes = (.error error, store)) ∨
    bytes.size = physicalBlockSize ∧ ∃ next, store.insert number bytes = (.ok (), next) ∧
      next.warm = store.warm ∧
      ∀ other, next.bytes? other = if number = other then some bytes else store.bytes? other := by
  unfold insert
  by_cases size : bytes.size = physicalBlockSize
  · refine .inr ⟨size, _, dif_pos size, rfl, fun other => ?_⟩
    by_cases same : number = other
    · simp [bytes?, block?, same]
    · have found : (store.blocks.filter (·.1 != number)).find? (·.1 == other) =
          store.blocks.find? (·.1 == other) := by
        rw [List.find?_filter]
        congr 1
        funext stored
        by_cases here : stored.1 = other <;> simp [here, Ne.symm same]
      simp [bytes?, block?, same, found]
  · exact .inl ⟨size, _, dif_neg size⟩

/-- Full blocks are all stored. -/
theorem exists_insertAll (store : MemoryStore) {blocks : List (Nat × Array UInt8)}
    (full : ∀ block ∈ blocks, block.2.size = physicalBlockSize) :
    ∃ next, store.insertAll blocks = (.ok (), next) := by
  induction blocks generalizing store with
  | nil => exact ⟨store, rfl⟩
  | cons block rest ih =>
      obtain ⟨first, others⟩ := List.forall_mem_cons.mp full
      obtain ⟨wrong, _⟩ | ⟨_, next, inserted, _⟩ := store.insert_cases block.1 block.2
      · exact absurd first wrong
      · rw [insertAll, inserted]
        exact ih next others

theorem size_columnPiece {bytes : Array UInt8} {index : Nat}
    (inside : index < bytes.size / physicalBlockSize) :
    (columnPiece bytes index).size = physicalBlockSize := by
  rw [columnPiece, Array.size_extract]
  simp only [physicalBlockSize] at inside ⊢
  omega

/-- A column of whole blocks is stored completely. Any other is refused before any of its blocks is
stored. -/
theorem insertColumn_cases (store : MemoryStore) (first : Nat) (bytes : Array UInt8) :
    (bytes.size % physicalBlockSize ≠ 0 ∧
      ∃ error, store.insertColumn first bytes = (.error error, store)) ∨
    bytes.size % physicalBlockSize = 0 ∧ ∃ next,
      store.insertColumn first bytes = (.ok (bytes.size / physicalBlockSize), next) ∧
        store.insertAll ((List.range (bytes.size / physicalBlockSize)).map fun index =>
          (first + index, columnPiece bytes index)) = (.ok (), next) := by
  unfold insertColumn
  by_cases whole : bytes.size % physicalBlockSize = 0
  · have full : ∀ block ∈ (List.range (bytes.size / physicalBlockSize)).map
        (fun index => (first + index, columnPiece bytes index)),
        block.2.size = physicalBlockSize := by
      intro block member
      obtain ⟨index, listed, rfl⟩ := List.mem_map.mp member
      exact size_columnPiece (List.mem_range.mp listed)
    obtain ⟨next, inserted⟩ := store.exists_insertAll full
    refine .inr ⟨whole, next, ?_, inserted⟩
    rw [if_neg (not_not_intro whole)]
    dsimp only
    rw [inserted]
  · exact .inl ⟨whole, _, if_pos whole⟩

/-- The trace says what the store has and caches, and what every read before was given. -/
structure Tracked (store : MemoryStore) (trace : List StoreRecord) : Prop where
  stored : ∀ number bytes,
    store.bytes? number = some bytes ↔ StoreRecord.LastStored trace number bytes
  cached : ∀ number, number ∈ store.warm ↔ StoreRecord.ReadSinceDrop trace number
  answers : ∀ before read after, trace = before ++ .read read :: after → read.Follows before

namespace Tracked

open StoreRecord

variable {trace : List StoreRecord} (tracked : store.Tracked trace)

include tracked

theorem answers_append {record : StoreRecord}
    (follows : ∀ read, record = .read read → read.Follows trace) :
    ∀ before read after, trace ++ [record] = before ++ .read read :: after →
      read.Follows before := by
  intro before read after shape
  obtain ⟨_, rfl, same⟩ | ⟨rest, _, earlier⟩ := append_singleton_cases shape
  · exact follows read same
  · exact tracked.answers before read rest earlier

theorem insert {number : Nat} {bytes : Array UInt8}
    (inserted : store.insert number bytes = (.ok (), next)) :
    next.Tracked (trace ++ [.stored number bytes]) := by
  obtain ⟨_, error, fails⟩ | ⟨_, last, stores, warm, found⟩ := store.insert_cases number bytes
  · cases fails.symm.trans inserted
  · cases stores.symm.trans inserted
    refine ⟨fun other given => ?_, fun other => ?_, tracked.answers_append nofun⟩
    · rw [found, lastStored_stored_iff, ← tracked.stored]
      split
      · exact Option.some_inj
      · rfl
    · rw [warm, tracked.cached, readSinceDrop_stored_iff]

theorem load (number : Nat) :
    (store.load number physicalBlockSize).2.Tracked
      (trace ++ [.read ⟨number, (store.load number physicalBlockSize).1⟩]) := by
  obtain ⟨error, fails, missing⟩ | ⟨_, block, next, found, loads, blocks, warm⟩ :=
    store.load_cases number physicalBlockSize
  · rw [fails]
    refine ⟨fun other bytes => ?_, fun other => ?_, tracked.answers_append ?_⟩
    · rw [lastStored_read_iff, tracked.stored]
    · simp [readSinceDrop_read_iff, tracked.cached]
    · rintro _ ⟨⟩ bytes last
      have found := (tracked.stored number bytes).mpr last
      rw [bytes?, missing rfl] at found
      cases found
  · rw [loads]
    refine ⟨fun other bytes => ?_, fun other => ?_, tracked.answers_append ?_⟩
    · rw [lastStored_read_iff, ← tracked.stored, bytes?, block?, blocks]
      rfl
    · simp [readSinceDrop_read_iff, tracked.cached, warm]
    · rintro _ ⟨⟩
      refine ⟨(tracked.stored number _).mp ?_, ?_⟩
      · rw [bytes?, found, Option.map_some]
      · rw [List.contains_iff_mem, tracked.cached]

theorem dropCache : store.dropCache.Tracked (trace ++ [.dropped]) :=
  ⟨fun number bytes => (tracked.stored number bytes).trans lastStored_dropped_iff.symm,
    fun _ => iff_of_false nofun not_readSinceDrop_dropped, tracked.answers_append nofun⟩

theorem insertAll {blocks : List (Nat × Array UInt8)}
    (inserted : store.insertAll blocks = (.ok (), next)) :
    next.Tracked (trace ++ blocks.map fun block => .stored block.1 block.2) := by
  induction blocks generalizing store trace with
  | nil =>
      cases inserted
      rwa [List.map_nil, List.append_nil]
  | cons block rest ih =>
      obtain ⟨number, bytes⟩ := block
      rw [MemoryStore.insertAll] at inserted
      split at inserted
      next => cases inserted
      next stores =>
        have last := ih (tracked.insert stores) inserted
        rwa [List.map_cons, List.append_cons]

theorem insertColumn {first count : Nat} {bytes : Array UInt8}
    (inserted : store.insertColumn first bytes = (.ok count, next)) :
    next.Tracked (trace ++ (List.range count).map fun index =>
      .stored (first + index) (columnPiece bytes index)) := by
  obtain ⟨_, error, fails⟩ | ⟨_, last, stores, pieces⟩ := store.insertColumn_cases first bytes
  · cases fails.symm.trans inserted
  · cases stores.symm.trans inserted
    have stored := tracked.insertAll pieces
    rwa [List.map_map] at stored

end Tracked

section Reads

open StoreRecord

variable {trace : List StoreRecord} {reads : List BlockRead}
  (tracked : store.Tracked (trace ++ reads.map read)) {answered : BlockRead}

include tracked

theorem Tracked.exists_follows (member : answered ∈ reads) :
    ∃ earlier : List BlockRead, answered.Follows (trace ++ earlier.map read) := by
  obtain ⟨earlier, later, rfl⟩ := List.append_of_mem member
  refine ⟨earlier, tracked.answers _ answered (later.map read) ?_⟩
  rw [List.map_append, List.map_cons, List.append_assoc]

theorem Tracked.lastStored_of_mem {fetched : Fetched} (member : answered ∈ reads)
    (answer : answered.answer = .ok fetched) :
    LastStored trace answered.number fetched.block.bytes := by
  obtain ⟨earlier, follows⟩ := tracked.exists_follows member
  rw [BlockRead.Follows, answer] at follows
  exact lastStored_reads_iff.mp follows.1

end Reads

end MemoryStore

end ColumnScan
