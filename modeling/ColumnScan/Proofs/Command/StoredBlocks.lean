import ColumnScan.Proofs.Command.SelectiveLoading
import ColumnScan.Storage.MemoryStore

/-!
# Loading stored blocks

Loading cannot fail while every physical block of a logical block is stored. A scan then has the
whole logical block, and a step has every block that its row map touches.
-/

set_option autoImplicit false

namespace ColumnScan

variable {σ : Type}

/-- In a good state the source has the blocks with these numbers, and no read of one of them leaves
the good states. -/
structure BlockSource.Serves (source : BlockSource σ) (good : σ → Prop)
    (content : Nat → PhysicalBlock) (numbers : List Nat) : Prop where
  load : ∀ state, good state → ∀ number ∈ numbers, ∃ cacheHit next, good next ∧
    source.load state number = (.ok { block := content number, cacheHit }, next)
  le_lastBlock : ∀ state, good state → ∀ number ∈ numbers, ∀ last ∈ source.lastBlock state,
    number ≤ last

namespace MemoryStore

variable {store state : MemoryStore}

/-- The stored blocks by number, with zeros for those that are not stored. -/
def content (store : MemoryStore) (number : Nat) : PhysicalBlock :=
  (store.block? number).getD ⟨Array.replicate physicalBlockSize 0, Array.size_replicate⟩

theorem content_of_block? {number : Nat} {block : PhysicalBlock}
    (found : store.block? number = some block) : store.content number = block := by
  rw [content, found, Option.getD_some]

theorem mem_of_block? {number : Nat} {block : PhysicalBlock}
    (found : store.block? number = some block) : number ∈ store.blocks.map Prod.fst := by
  obtain ⟨stored, search, _⟩ := Option.map_eq_some_iff.mp found
  have same := List.find?_some search
  rw [beq_iff_eq] at same
  exact same ▸ List.mem_map_of_mem (List.mem_of_find?_eq_some search)

/-- Reading only changes what is cached, so a store serves its blocks whatever was read before. -/
theorem serves (store : MemoryStore) {numbers : List Nat}
    (stored : ∀ number ∈ numbers, (store.block? number).isSome = true) :
    source.Serves (fun state => state.blocks = store.blocks) store.content numbers := by
  have block? : ∀ {state : MemoryStore} (number : Nat), state.blocks = store.blocks →
      state.block? number = store.block? number := by
    intro state number same
    rw [MemoryStore.block?, MemoryStore.block?, same]
  constructor
  · intro state same number member
    obtain ⟨block, found⟩ := Option.isSome_iff_exists.mp (stored number member)
    refine ⟨state.warm.contains number,
      { state with warm := number :: state.warm.filter (· != number) }, same, ?_⟩
    simp only [source, load, block? number same, found, content_of_block? found, ↓reduceIte]
  · intro state same number member last known
    obtain ⟨block, found⟩ := Option.isSome_iff_exists.mp (stored number member)
    rw [← block? number same] at found
    exact (List.max?_eq_some_iff.mp known).2 number (mem_of_block? found)

end MemoryStore

theorem RowMap.touches_full {width index : Nat} (layout : width ∈ layoutWidths)
    (inside : index < width) : touches 0xFFFF width index = true := by
  have each : ∀ width ∈ layoutWidths, ∀ index < width, touches 0xFFFF width index = true := by
    decide
  exact each width layout index inside

namespace LoadPlan

/-- A plan whose blocks are all stored. -/
structure Served (plan : LoadPlan) (source : BlockSource σ) (good : σ → Prop)
    (content : Nat → PhysicalBlock) : Prop where
  layout : plan.width ∈ layoutWidths
  serves : source.Serves good content ((List.range plan.width).map (plan.firstBlock + ·))
  le_lastBlock : ∀ index < plan.width, ∀ last ∈ plan.lastBlock, plan.firstBlock + index ≤ last
  full_of_scan : plan.isScan = true → plan.rowMap = 0xFFFF

section Served

variable {plan : LoadPlan} {source : BlockSource σ} {good : σ → Prop}
  {content : Nat → PhysicalBlock} (served : plan.Served source good content)

include served

theorem Served.not_pastLast {index : Nat} (inside : index < plan.width) :
    plan.isPastLast index = false := by
  unfold isPastLast
  cases known : plan.lastBlock with
  | none => rfl
  | some last =>
      have bound := served.le_lastBlock index inside last known
      simp only [Nat.not_lt.mpr bound, decide_false, Bool.and_false]

/-- A scan reads every block, and its row map touches every block. -/
theorem Served.selected {index : Nat} (inside : index < plan.width) :
    (if plan.isScan then .ok true else blockSelected plan.width index plan.rowMap) =
      .ok (plan.rowMap.touches plan.width index) := by
  cases scan : plan.isScan with
  | false => exact blockSelected_eq_ok served.layout inside plan.rowMap
  | true =>
      rw [served.full_of_scan scan, RowMap.touches_full served.layout inside]
      rfl

theorem Served.loadBlock (loaded : Loaded) {state : σ} (valid : good state) {index : Nat}
    (inside : index < plan.width) :
    ∃ result next, plan.loadBlock source loaded state index = (.ok result, next) ∧ good next ∧
      result.bytes.toList = loaded.bytes.toList ++ plan.piece content index := by
  have selected := served.selected inside
  simp only [LoadPlan.loadBlock, served.not_pastLast inside, Bool.and_false, Bool.false_eq_true,
    ↓reduceIte, selected]
  cases touched : plan.rowMap.touches plan.width index with
  | false =>
      refine ⟨_, state, rfl, valid, ?_⟩
      rw [piece, touched, Array.toList_append, Array.toList_replicate]
      rfl
  | true =>
      have member : plan.firstBlock + index ∈ (List.range plan.width).map (plan.firstBlock + ·) :=
        List.mem_map_of_mem (List.mem_range.mpr inside)
      obtain ⟨cacheHit, next, remains, read⟩ := served.serves.load state valid _ member
      refine ⟨_, next, by rw [read], remains, ?_⟩
      rw [piece, touched, Loaded.addFetched, Array.toList_append]
      rfl

theorem Served.loadBlocks (indices : List Nat) (inside : ∀ index ∈ indices, index < plan.width)
    (loaded : Loaded) {state : σ} (valid : good state) :
    ∃ result next, plan.loadBlocks source indices loaded state = (.ok result, next) ∧ good next ∧
      result.bytes.toList = loaded.bytes.toList ++ indices.flatMap (plan.piece content) := by
  induction indices generalizing loaded state with
  | nil => exact ⟨loaded, state, rfl, valid, (List.append_nil _).symm⟩
  | cons index rest ih =>
      rw [List.forall_mem_cons] at inside
      obtain ⟨first, between, loads, stays, bytes⟩ := served.loadBlock loaded valid inside.1
      obtain ⟨result, next, others, remains, all⟩ := ih inside.2 first stays
      refine ⟨result, next, ?_, remains, ?_⟩
      · rw [LoadPlan.loadBlocks, loads]
        exact others
      · rw [all, bytes, List.flatMap_cons, List.append_assoc]

theorem Served.run {state : σ} (valid : good state) :
    ∃ result next, plan.run source state = (.ok result, next) ∧ good next ∧
      result.bytes.toList = (List.range plan.width).flatMap (plan.piece content) := by
  refine served.loadBlocks (List.range plan.width) ?_ {} valid
  exact fun index member => List.mem_range.mp member

/-- A full row map leaves nothing out. -/
theorem Served.flatMap_piece (full : plan.rowMap = 0xFFFF) :
    (List.range plan.width).flatMap (plan.piece content) =
      (logicalBlock content plan.firstBlock plan.width).toList := by
  rw [logicalBlock, List.flatMap_def, List.flatMap_def]
  refine congrArg List.flatten (List.map_congr_left fun index member => ?_)
  have touched := RowMap.touches_full served.layout (List.mem_range.mp member)
  rw [piece, full, if_pos touched]

end Served

end LoadPlan

end ColumnScan
