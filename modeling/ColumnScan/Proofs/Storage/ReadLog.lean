import ColumnScan.Command.ColumnCommand

/-!
# Logged reads

A source can keep a log of its reads. Loading and executing through it is what it is without the
log, so the log of a run tells which physical blocks the run has read, and what it was given.
-/

set_option autoImplicit false

namespace ColumnScan

/-- A read of a physical block and what came of it. -/
structure BlockRead where
  number : Nat
  answer : Except ScanError Fetched

/-- Every block that was read successfully is the one that `content` has under its number. -/
def Delivers (reads : List BlockRead) (content : Nat → PhysicalBlock) : Prop :=
  ∀ read ∈ reads, ∀ fetched, read.answer = .ok fetched → fetched.block = content read.number

/-- Reads of different blocks cannot contradict each other. -/
theorem exists_delivers {reads : List BlockRead} (distinct : (reads.map BlockRead.number).Nodup) :
    ∃ content, Delivers reads content := by
  induction reads with
  | nil => exact ⟨fun _ => ⟨Array.replicate physicalBlockSize 0, Array.size_replicate⟩, nofun⟩
  | cons read rest ih =>
      rw [List.map_cons, List.nodup_cons] at distinct
      obtain ⟨content, delivers⟩ := ih distinct.2
      cases answered : read.answer with
      | error error =>
          refine ⟨content, List.forall_mem_cons.mpr ⟨fun fetched answer => ?_, delivers⟩⟩
          rw [answered] at answer
          cases answer
      | ok fetched =>
          refine ⟨fun number => if number = read.number then fetched.block else content number,
            List.forall_mem_cons.mpr ⟨fun other answer => ?_, fun other member answer given => ?_⟩⟩
          · rw [answered] at answer
            cases answer
            exact (if_pos rfl).symm
          · have different : other.number ≠ read.number :=
              fun same => distinct.1 (same ▸ List.mem_map_of_mem member)
            exact (delivers other member answer given).trans (if_neg different).symm

variable {σ : Type}

/-- The source can give this answer for this block. -/
def BlockSource.Gives (source : BlockSource σ) (read : BlockRead) : Prop :=
  ∃ state, (source.load state read.number).1 = read.answer

/-- The source with the reads since the log was empty, the oldest first. -/
def BlockSource.logging (source : BlockSource σ) : BlockSource (σ × List BlockRead) where
  load state number :=
    let (answer, next) := source.load state.1 number
    (answer, next, state.2 ++ [{ number, answer }])
  lastBlock state := source.lastBlock state.1

section Transparency

variable (plan : LoadPlan) (source : BlockSource σ)

theorem LoadPlan.loadBlock_logging (loaded : Loaded) (state : σ × List BlockRead) (index : Nat) :
    (plan.loadBlock source.logging loaded state index).map id Prod.fst =
      plan.loadBlock source loaded state.1 index := by
  unfold loadBlock
  split
  · cases emptyRows plan.width plan.logicalType (physicalBlockRows plan.width) <;> rfl
  · cases (if plan.isScan then .ok true else blockSelected plan.width index plan.rowMap) with
    | error error => rfl
    | ok selected =>
        cases selected with
        | false => rfl
        | true =>
            rcases loaded : source.load state.1 (plan.firstBlock + index) with ⟨_ | _, next⟩ <;>
              simp only [BlockSource.logging, loaded] <;> rfl

theorem LoadPlan.loadBlocks_logging (indices : List Nat) (loaded : Loaded)
    (state : σ × List BlockRead) :
    (plan.loadBlocks source.logging indices loaded state).map id Prod.fst =
      plan.loadBlocks source indices loaded state.1 := by
  induction indices generalizing loaded state with
  | nil => rfl
  | cons index rest ih =>
      simp only [loadBlocks]
      rw [← loadBlock_logging plan source loaded state index]
      rcases plan.loadBlock source.logging loaded state index with ⟨_ | continued, next⟩
      · rfl
      · exact ih continued next

theorem ColumnCommand.execute_logging (command : ColumnCommand) (state : σ × List BlockRead)
    (block : BlockRef) (input : Option StepInput) :
    (command.execute source.logging state block input).map id Prod.fst =
      command.execute source state.1 block input := by
  unfold execute
  cases command.candidates? input with
  | none => rfl
  | some candidates =>
      obtain ⟨rows, rowMap⟩ := candidates
      let plan := command.loadPlan block rowMap (source.lastBlock state.1)
      have loads : (plan.run source.logging state).map id Prod.fst = plan.run source state.1 :=
        plan.loadBlocks_logging source (List.range plan.width) {} state
      simp only [BlockSource.logging] at loads ⊢
      rw [← loads]
      rcases plan.run _ state with ⟨_ | loaded, next⟩ <;> rfl

end Transparency

end ColumnScan
