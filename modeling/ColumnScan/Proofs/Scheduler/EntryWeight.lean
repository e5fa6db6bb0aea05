import ColumnScan.Proofs.Scheduler.ServiceOrder
import Mathlib.Order.Bounds.Basic

/-!
# The weight at which a transaction enters

A transaction enters with the weight of the first place, which is never more than what a running
transaction has been charged. It is the least of their weights unless a cancelled transaction left a
place in front of all of them. Without cancellations there are no such places.
-/

set_option autoImplicit false

namespace ColumnScan

variable {α : Type}

namespace WeightedQueue

/-- The weights that the transactions with queued jobs have been charged. -/
def runningWeights (queue : WeightedQueue α) : Set Nat :=
  { weight | ∃ transaction, queue.accumulated? transaction = some weight }

def NoneStale (queue : WeightedQueue α) : Prop :=
  ∀ place ∈ queue.schedule, queue.isLive place = true

section Entry

variable {queue : WeightedQueue α} (invariant : queue.Invariant)

include invariant

theorem mem_runningWeights_iff {weight : Nat} :
    weight ∈ queue.runningWeights ↔
      ∃ place ∈ queue.schedule, queue.isLive place = true ∧ place.weight = weight := by
  constructor
  · rintro ⟨transaction, held⟩
    obtain ⟨entry, member, _, place, present, stands, weighs⟩ :=
      invariant.accumulated?_eq_some_iff.mp held
    exact ⟨place, present, invariant.isLive_iff.mpr ⟨entry, member, stands⟩, weighs⟩
  · rintro ⟨place, present, live, weighs⟩
    obtain ⟨entry, member, stands⟩ := invariant.isLive_iff.mp live
    exact ⟨entry.transaction, invariant.accumulated?_eq_some_iff.mpr
      ⟨entry, member, rfl, place, present, stands, weighs⟩⟩

theorem runningWeights_nonempty (waiting : queue.jobs ≠ []) : queue.runningWeights.Nonempty := by
  obtain ⟨job, present⟩ := List.exists_mem_of_ne_nil _ waiting
  obtain ⟨entry, member, _⟩ := List.mem_flatMap.mp present
  obtain ⟨place, scheduled, stands⟩ := invariant.scheduled entry member
  have live := invariant.isLive_iff.mpr ⟨entry, member, stands⟩
  exact ⟨place.weight, (mem_runningWeights_iff invariant).mpr ⟨place, scheduled, live, rfl⟩⟩

theorem NoneStale.push (noneStale : queue.NoneStale) (job : Job α) :
    (queue.push job).NoneStale := by
  intro place present
  rw [(invariant_push invariant job).isLive_iff]
  obtain ⟨before, entry, after, shape, _, pushed⟩ | ⟨_, pushed⟩ := push_cases invariant job
  · rw [pushed] at present ⊢
    obtain ⟨owner, member, stands⟩ := invariant.isLive_iff.mp (noneStale place present)
    rw [shape] at member
    rcases mem_middle_iff.mp member with rfl | other
    · exact ⟨_, mem_middle_iff.mpr (.inl rfl), stands⟩
    · exact ⟨owner, mem_middle_iff.mpr (.inr other), stands⟩
  · rw [pushed] at present ⊢
    rcases SchedulePlace.mem_insert.mp present with rfl | old
    · exact ⟨_, List.mem_append_right _ List.mem_cons_self, rfl, rfl⟩
    · obtain ⟨owner, member, stands⟩ := invariant.isLive_iff.mp (noneStale place old)
      exact ⟨owner, List.mem_append_left _ member, stands⟩

theorem NoneStale.pop (noneStale : queue.NoneStale) : queue.pop.2.NoneStale := by
  intro place present
  rw [(invariant_pop invariant).isLive_iff]
  obtain ⟨_, finished⟩ | ⟨before, entry, after, stale, served, later, job, younger, entries, _, _,
    shape, _, stands, taken⟩ := pop_cases invariant
  · rw [finished] at present
    cases present
  have generations := invariant.generations
  rw [shape] at generations
  have distinct := (List.nodup_append.mp (List.map_append ▸ generations)).2.1
  -- The place that is served is the only one of its generation, so the later ones stand for others.
  have behind : ∀ other ∈ later, ∃ owner ∈ before ++ after, other.StandsFor owner := by
    intro other late
    have scheduled : other ∈ queue.schedule := by
      rw [shape]
      exact List.mem_append_right stale (List.mem_cons_of_mem served late)
    obtain ⟨owner, member, stood⟩ := invariant.isLive_iff.mp (noneStale other scheduled)
    rw [entries] at member
    refine ⟨owner, (mem_middle_iff.mp member).resolve_left ?_, stood⟩
    rintro rfl
    refine (List.nodup_cons.mp distinct).1 ?_
    rw [stands.2, ← stood.2]
    exact List.mem_map_of_mem late
  rw [taken] at present ⊢
  cases younger with
  | nil => exact behind place present
  | cons next rest =>
      rcases SchedulePlace.mem_insert.mp present with rfl | late
      · exact ⟨_, mem_middle_iff.mpr (.inl rfl), stands⟩
      · obtain ⟨owner, member, stood⟩ := behind place late
        exact ⟨owner, mem_middle_iff.mpr (.inr member), stood⟩

variable (ordered : SchedulePlace.Ordered queue.schedule)

include ordered

theorem entryWeight_mem_lowerBounds : queue.entryWeight ∈ lowerBounds queue.runningWeights := by
  intro weight running
  obtain ⟨place, present, _, rfl⟩ := (mem_runningWeights_iff invariant).mp running
  exact entryWeight_le_of_ordered ordered present

/-- The first place is level with the running transactions unless it is in front of all of them. -/
theorem isLeast_entryWeight_iff (waiting : queue.jobs ≠ []) :
    IsLeast queue.runningWeights queue.entryWeight ↔
      ∀ place ∈ queue.schedule, ∃ weight ∈ queue.runningWeights, weight ≤ place.weight := by
  constructor
  · intro least place present
    exact ⟨queue.entryWeight, least.1, entryWeight_le_of_ordered ordered present⟩
  · intro reached
    have bound := entryWeight_mem_lowerBounds invariant ordered
    refine ⟨?_, bound⟩
    obtain ⟨_, running⟩ := runningWeights_nonempty invariant waiting
    obtain ⟨place, present, _⟩ := (mem_runningWeights_iff invariant).mp running
    obtain ⟨first, rest, shape⟩ := List.exists_cons_of_ne_nil (List.ne_nil_of_mem present)
    have entry : queue.entryWeight = first.weight := by rw [entryWeight, shape]; rfl
    obtain ⟨weight, member, within⟩ := reached first (shape ▸ List.mem_cons_self)
    rw [← entry] at within
    exact Nat.le_antisymm within (bound member) ▸ member

end Entry

theorem NoneStale.reached {queue : WeightedQueue α} (noneStale : queue.NoneStale)
    (invariant : queue.Invariant) {place : SchedulePlace} (present : place ∈ queue.schedule) :
    ∃ weight ∈ queue.runningWeights, weight ≤ place.weight := by
  refine ⟨place.weight, (mem_runningWeights_iff invariant).mpr ?_, Nat.le_refl _⟩
  exact ⟨place, present, noneStale place present, rfl⟩

end WeightedQueue

namespace QueueHistory

theorem noneStale_step {history : QueueHistory α} (invariant : history.queue.Invariant)
    (noneStale : history.queue.NoneStale) {operation : QueueOperation α}
    (kept : ∀ key, operation ≠ .remove key) : (history.step operation).queue.NoneStale := by
  cases operation with
  | push job => exact noneStale.push invariant job
  | pop => exact noneStale.pop invariant
  | remove key => exact absurd rfl (kept key)

theorem noneStale_run {history : QueueHistory α} (invariant : history.queue.Invariant)
    (noneStale : history.queue.NoneStale) {operations : List (QueueOperation α)}
    (noRemoval : ∀ key, .remove key ∉ operations) : (history.run operations).queue.NoneStale := by
  induction operations generalizing history with
  | nil => exact noneStale
  | cons operation rest ih =>
      have kept : ∀ key, operation ≠ .remove key := fun key same =>
        noRemoval key (same ▸ List.mem_cons_self)
      exact ih (invariant_step invariant operation) (noneStale_step invariant noneStale kept)
        fun key present => noRemoval key (List.mem_cons_of_mem operation present)

/-- After any operations on an empty queue: a transaction without jobs enters with no more than any
running transaction has been charged. This is the least of their weights exactly if they reach down
to every place that is left in the schedule, which they do if nothing was cancelled. -/
theorem enters_level (operations : List (QueueOperation α)) (job : Job α) :
    let queue := (run {} operations).queue
    queue.jobsOf job.transaction = [] →
    ∃ weight, (queue.push job).accumulated? job.transaction = some weight ∧
      weight ∈ lowerBounds queue.runningWeights ∧
      (queue.jobs ≠ [] →
        (IsLeast queue.runningWeights weight ↔
          ∀ place ∈ queue.schedule, ∃ running ∈ queue.runningWeights, running ≤ place.weight) ∧
        ((∀ key, .remove key ∉ operations) → IsLeast queue.runningWeights weight)) := by
  intro queue idle
  have invariant : queue.Invariant := (accounted_empty.run operations).invariant
  have ordered : SchedulePlace.Ordered queue.schedule := ordered_run_empty operations
  have absent := invariant.accumulated?_eq_none_iff_jobsOf.mpr idle
  refine ⟨queue.entryWeight, WeightedQueue.accumulated?_push_entering invariant job absent,
    WeightedQueue.entryWeight_mem_lowerBounds invariant ordered, fun waiting => ?_⟩
  have level := WeightedQueue.isLeast_entryWeight_iff invariant ordered waiting
  refine ⟨level, fun noRemoval => level.mpr fun place present => ?_⟩
  have noneStale : queue.NoneStale := noneStale_run accounted_empty.invariant nofun noRemoval
  exact noneStale.reached invariant present

/-- A cancelled transaction left its place level with the one that is running. -/
theorem enters_level_cancelled :
    let running : QueueOperation Unit := .push { transaction := 1, work := (), weight := 5 }
    let cancelled : QueueOperation Unit := .push { transaction := 2, work := (), key := 7 }
    let entering : Job Unit := { transaction := 3, work := () }
    let queue := (run {} [running, running, .pop, cancelled, .remove 7]).queue
    queue.schedule.map SchedulePlace.weight = [5, 5] ∧ queue.pending = 1 ∧
      (queue.push entering).accumulated? 3 = some 5 ∧ IsLeast queue.runningWeights 5 := by
  intro running cancelled entering queue
  obtain ⟨weight, entered, _, level⟩ :=
    enters_level [running, running, .pop, cancelled, .remove 7] entering rfl
  have weighs : (queue.push entering).accumulated? 3 = some 5 := by decide
  obtain rfl := Option.some.inj (weighs.symm.trans entered)
  refine ⟨by decide, by decide, weighs, (level (by decide)).1.mpr ?_⟩
  have places : ∀ place ∈ queue.schedule, queue.accumulated? 1 = some place.weight := by decide
  exact fun place present => ⟨place.weight, ⟨1, places place present⟩, Nat.le_refl _⟩

/-- A cancelled transaction left its place in front of the one that is running. The next one to enter
gets its weight and is served first. -/
theorem enters_ahead_of_running :
    let running : QueueOperation Unit := .push { transaction := 1, work := (), weight := 5 }
    let cancelled : QueueOperation Unit := .push { transaction := 2, work := (), key := 7 }
    let entering : Job Unit := { transaction := 3, work := () }
    let queue := (run {} [running, running, cancelled, .remove 7, .pop]).queue
    queue.jobsOf 3 = [] ∧ queue.jobs ≠ [] ∧ IsLeast queue.runningWeights 5 ∧
      (queue.push entering).accumulated? 3 = some 0 ∧ (queue.push entering).pop.1 = some entering := by
  intro running cancelled entering queue
  refine ⟨by decide, by decide, ⟨⟨1, by decide⟩, fun weight held => ?_⟩, by decide, by decide⟩
  have invariant : queue.Invariant := (accounted_empty.run _).invariant
  obtain ⟨place, present, live, rfl⟩ := (WeightedQueue.mem_runningWeights_iff invariant).mp held
  have places : ∀ place ∈ queue.schedule, queue.isLive place = true → 5 ≤ place.weight := by decide
  exact places place present live

end QueueHistory

end ColumnScan
