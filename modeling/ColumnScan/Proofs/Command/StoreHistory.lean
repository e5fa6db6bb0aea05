import ColumnScan.Proofs.Command.ReadCounts
import ColumnScan.Proofs.Command.UnallocatedBlocks

/-!
# Histories of a store

A store goes through any sequence of inserts, reads, drops of its cache and runs of commands, and
any of them may fail. A history keeps the trace of what happened: the blocks that were stored, the reads
with their answers, those within a run included, and the drops of the cache.
-/

set_option autoImplicit false

namespace ColumnScan

/-- The reads of a run, the oldest first. -/
def MemoryStore.readsOf (store : MemoryStore) (command : ColumnCommand) (block : BlockRef)
    (input : Option StepInput) : List BlockRead :=
  (command.execute source.logging (store, []) block input).2.2

inductive StoreEvent where
  | insert (number : Nat) (bytes : Array UInt8)
  | insertColumn (first : Nat) (bytes : Array UInt8)
  | load (number length : Nat)
  | dropCache
  | execute (command : ColumnCommand) (block : BlockRef) (input : Option StepInput)

structure StoreHistory where
  store : MemoryStore := {}
  trace : List StoreRecord := []

namespace StoreHistory

open StoreRecord

def step (history : StoreHistory) : StoreEvent → StoreHistory
  | .insert number bytes =>
      match history.store.insert number bytes with
      | (.error _, store) => { history with store }
      | (.ok (), store) => { store, trace := history.trace ++ [stored number bytes] }
  | .insertColumn first bytes =>
      match history.store.insertColumn first bytes with
      | (.error _, store) => { history with store }
      | (.ok count, store) =>
          { store
            trace := history.trace ++ (List.range count).map fun index =>
              stored (first + index) (MemoryStore.columnPiece bytes index) }
  | .load number length =>
      match history.store.load number length with
      | (.error _, store) => { history with store }
      | (.ok fetched, store) => { store, trace := history.trace ++ [read ⟨number, .ok fetched⟩] }
  | .dropCache =>
      { store := history.store.dropCache
        trace := history.trace ++ [dropped] }
  | .execute command block input =>
      { store := (command.execute MemoryStore.source history.store block input).2
        trace := history.trace ++ (history.store.readsOf command block input).map read }

def run (events : List StoreEvent) : StoreHistory := events.foldl step {}

def Tracked (history : StoreHistory) : Prop := history.store.Tracked history.trace

variable {history : StoreHistory}

theorem Tracked.step (tracked : history.Tracked) (event : StoreEvent) :
    (history.step event).Tracked := by
  cases event with
  | insert number bytes =>
      rw [StoreHistory.step]
      obtain ⟨_, error, fails⟩ | ⟨_, next, inserted, _⟩ := history.store.insert_cases number bytes
      · rw [fails]
        exact tracked
      · rw [inserted]
        exact MemoryStore.Tracked.insert tracked inserted
  | insertColumn first bytes =>
      rw [StoreHistory.step]
      obtain ⟨_, error, fails⟩ | ⟨_, next, inserted, _⟩ :=
        history.store.insertColumn_cases first bytes
      · rw [fails]
        exact tracked
      · rw [inserted]
        exact MemoryStore.Tracked.insertColumn tracked inserted
  | load number length =>
      rw [StoreHistory.step]
      obtain ⟨error, fails, _⟩ | ⟨rfl, block, next, _, loads, _⟩ :=
        history.store.load_cases number length
      · rw [fails]
        exact tracked
      · have kept := MemoryStore.Tracked.load tracked number
        rw [loads] at kept ⊢
        exact kept
  | dropCache => exact MemoryStore.Tracked.dropCache tracked
  | execute command block input =>
      have kept := (MemoryStore.Tracked.execute tracked command block input).tracked
      rw [StoreHistory.step, ← command.execute_logging _ (history.store, [])]
      exact kept

section Outcomes

variable (tracked : history.Tracked)

include tracked

end Outcomes

end StoreHistory

end ColumnScan
