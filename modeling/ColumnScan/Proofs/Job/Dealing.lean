import ColumnScan.Job.ScanStep
import ColumnScan.Proofs.DistinctKeys
import Mathlib.Data.List.Induction

/-!
# Dealing out the tasks of a step

The hands that a step deals hold every task once, in the order of the tasks, and what is known of
every hand can be put together to something that is known of all tasks.
-/

set_option autoImplicit false

namespace ColumnScan

namespace ScanStep

variable {τ α : Type}

theorem hand_concat (tasks : List τ) (task : τ) (hands index : Nat) :
    hand (tasks ++ [task]) hands index =
      hand tasks hands index ++ if tasks.length % hands = index then [task] else [] := by
  simp only [hand, List.zipIdx_append, List.zipIdx_singleton, List.filter_append, List.map_append,
    Nat.zero_add, List.filter_cons, List.filter_nil, beq_iff_eq]
  split <;> rfl

theorem mod_lt_of_mem_zipIdx {tasks : List τ} {hands : Nat} (enough : tasks ≠ [] → 0 < hands) :
    ∀ entry ∈ tasks.zipIdx, entry.2 % hands < hands := by
  intro entry member
  have nonempty : tasks ≠ [] := fun empty => by simp [empty] at member
  exact Nat.mod_lt _ (enough nonempty)

theorem hand_eq_nil {tasks : List τ} {hands index : Nat} (enough : tasks ≠ [] → 0 < hands)
    (beyond : hands ≤ index) : hand tasks hands index = [] := by
  rw [hand, List.map_eq_nil_iff, List.filter_eq_nil_iff]
  intro entry member same
  have below := mod_lt_of_mem_zipIdx enough entry member
  exact Nat.not_lt.mpr beyond (beq_iff_eq.mp same ▸ below)

/-- The dealt hands are all the tasks. -/
theorem flatMap_hand_perm (tasks : List τ) {hands : Nat} (enough : tasks ≠ [] → 0 < hands) :
    ((List.range hands).flatMap (hand tasks hands)).Perm tasks := by
  have known : ∀ entry ∈ tasks.zipIdx, entry.2 % hands ∈ List.range hands :=
    fun entry member => List.mem_range.mpr (mod_lt_of_mem_zipIdx enough entry member)
  let handOf (entry : τ × Nat) : Nat := entry.2 % hands
  have grouped := flatMap_filter_perm handOf List.nodup_range known
  have dealt := grouped.map Prod.fst
  rw [List.zipIdx_map_fst, List.map_flatMap] at dealt
  exact dealt

/-- What has a part for each hand is what these are the hands of. -/
theorem exists_dealt (value : α → τ) (hands : Nat) (tasks : List τ) (pieces : Nat → List α)
    (same : ∀ index, (pieces index).map value = hand tasks hands index) :
    ∃ all : List α, all.map value = tasks ∧ ∀ index, hand all hands index = pieces index := by
  induction tasks using List.reverseRecOn generalizing pieces with
  | nil =>
      exact ⟨[], rfl, fun index => (List.map_eq_nil_iff.mp (same index)).symm⟩
  | append_singleton tasks task ih =>
      let last := tasks.length % hands
      have dealt := same last
      rw [hand_concat, if_pos rfl] at dealt
      obtain ⟨before, final, split, earlier, found⟩ := List.map_eq_append_iff.mp dealt
      obtain ⟨item, rfl, found⟩ := List.map_eq_singleton_iff.mp found
      let others (index : Nat) : List α := if index = last then before else pieces index
      obtain ⟨all, values, dealtAll⟩ := ih others fun index => by
        by_cases lastHand : index = last
        · simp only [others, lastHand, ↓reduceIte, earlier]
        · have other := same index
          rw [hand_concat, if_neg (Ne.symm lastHand), List.append_nil] at other
          simp only [others, lastHand, ↓reduceIte, other]
      have length : all.length = tasks.length := by rw [← values, List.length_map]
      refine ⟨all ++ [item], ?_, fun index => ?_⟩
      · rw [List.map_append, values, found]
      · rw [hand_concat, dealtAll, length]
        dsimp only [others]
        by_cases lastHand : index = last
        · subst lastHand
          rw [if_pos rfl, if_pos rfl, split]
        · rw [if_neg lastHand, if_neg (Ne.symm lastHand), List.append_nil]

theorem length_split (step : ScanStep) (tasks : List τ) :
    (step.split tasks).length = min (max step.jobLimit 1) tasks.length := by
  rw [split, List.length_map, List.length_range]
  rfl

theorem jobCount_pos (step : ScanStep) {tasks : List τ} (nonempty : tasks ≠ []) :
    0 < step.jobCount tasks := by
  have some := List.length_pos_iff.mpr nonempty
  unfold jobCount
  omega

theorem getD_split (step : ScanStep) (tasks : List τ) (index : Nat) :
    (step.split tasks)[index]?.getD [] = hand tasks (step.jobCount tasks) index := by
  rw [split, List.getElem?_map]
  by_cases inside : index < step.jobCount tasks
  · rw [List.getElem?_range inside]
    rfl
  · have beyond := Nat.le_of_not_lt inside
    rw [List.getElem?_eq_none (by rwa [List.length_range]), hand_eq_nil step.jobCount_pos beyond]
    rfl

end ScanStep

end ColumnScan
