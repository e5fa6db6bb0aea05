import ColumnScan.Proofs.Scheduler.QueueInvariant

/-!
# Histories of a queue

A history runs operations on a queue and keeps account of the jobs that came and went. Whatever the
operations, the invariant of the queue holds, no job is lost or doubled, and a stale place of the
schedule stays stale.
-/

set_option autoImplicit false

namespace ColumnScan

inductive QueueOperation (α : Type) where
  | push (job : Job α)
  | pop
  | remove (key : Nat)

/-- A queue and the jobs that were pushed, popped and removed until now. -/
structure QueueHistory (α : Type) where
  queue : WeightedQueue α := {}
  pushed : List (Job α) := []
  popped : List (Job α) := []
  removed : List (Job α) := []

namespace QueueHistory

variable {α : Type}

def step (history : QueueHistory α) : QueueOperation α → QueueHistory α
  | .push job =>
      { history with
        queue := history.queue.push job
        pushed := history.pushed ++ [job] }
  | .pop =>
      { history with
        queue := history.queue.pop.2
        popped := history.popped ++ history.queue.pop.1.toList }
  | .remove key =>
      { history with
        queue := (history.queue.remove key).2
        removed := history.removed ++ history.queue.jobs.filter (·.key == key) }

def run (history : QueueHistory α) (operations : List (QueueOperation α)) : QueueHistory α :=
  operations.foldl step history

/-- The queue keeps its invariant, and every pushed job is queued, popped or removed. -/
structure Accounted (history : QueueHistory α) : Prop where
  invariant : history.queue.Invariant
  conserved : history.pushed.Perm (history.queue.jobs ++ (history.popped ++ history.removed))

theorem accounted_empty : ({} : QueueHistory α).Accounted :=
  ⟨WeightedQueue.invariant_empty, List.Perm.refl _⟩

theorem Accounted.step {history : QueueHistory α} (accounted : history.Accounted)
    (operation : QueueOperation α) : (history.step operation).Accounted := by
  obtain ⟨invariant, conserved⟩ := accounted
  cases operation with
  | push job =>
      refine ⟨WeightedQueue.invariant_push invariant job, ?_⟩
      have arrived := (WeightedQueue.push_jobs_perm invariant job).symm
      have pushed := (List.perm_append_singleton job history.pushed).trans (conserved.cons job)
      exact pushed.trans (arrived.append_right _)
  | pop =>
      refine ⟨WeightedQueue.invariant_pop invariant, ?_⟩
      have left := perm_of_leaving (WeightedQueue.pop_jobs_perm invariant)
        (history.popped ++ history.removed)
      refine (conserved.trans left).trans (List.Perm.append_left _ ?_)
      rw [List.append_assoc, QueueHistory.step, List.append_assoc]
      exact List.Perm.append_left _ List.perm_append_comm
  | remove key =>
      refine ⟨WeightedQueue.invariant_remove invariant key, ?_⟩
      have left := perm_of_leaving (WeightedQueue.remove_jobs_perm history.queue key)
        (history.popped ++ history.removed)
      rw [List.append_assoc] at left
      exact conserved.trans left

theorem Accounted.run {history : QueueHistory α} (accounted : history.Accounted)
    (operations : List (QueueOperation α)) : (history.run operations).Accounted := by
  induction operations generalizing history with
  | nil => exact accounted
  | cons operation rest ih => exact ih (accounted.step operation)

theorem nextGeneration_le_step {history : QueueHistory α} (accounted : history.Accounted)
    (operation : QueueOperation α) :
    history.queue.nextGeneration ≤ (history.step operation).queue.nextGeneration := by
  cases operation with
  | push job =>
      obtain ⟨_, _, _, _, _, pushed⟩ | ⟨_, pushed⟩ :=
        WeightedQueue.push_cases accounted.invariant job
      · simp only [step, pushed, Nat.le_refl]
      · simp only [step, pushed, Nat.le_succ]
  | pop =>
      obtain ⟨_, popped⟩ | ⟨_, _, _, _, _, _, _, younger, _, _, _, _, _, _, popped⟩ :=
        WeightedQueue.pop_cases accounted.invariant
      · simp only [step, popped, Nat.le_refl]
      · cases younger <;> simp [step, popped]
  | remove key => exact Nat.le_refl _

theorem isLive_of_step {history : QueueHistory α} (accounted : history.Accounted)
    (operation : QueueOperation α) {place : SchedulePlace}
    (known : place.generation < history.queue.nextGeneration)
    (live : (history.step operation).queue.isLive place = true) :
    history.queue.isLive place = true := by
  cases operation with
  | push job => exact WeightedQueue.isLive_of_push accounted.invariant job known live
  | pop => exact WeightedQueue.isLive_of_pop accounted.invariant live
  | remove key => exact WeightedQueue.isLive_of_remove accounted.invariant key live

/-- What stands for jobs after more operations stood for jobs before them, unless it is new. -/
theorem isLive_of_run {history : QueueHistory α} (accounted : history.Accounted)
    (operations : List (QueueOperation α)) {place : SchedulePlace}
    (known : place.generation < history.queue.nextGeneration)
    (live : (history.run operations).queue.isLive place = true) :
    history.queue.isLive place = true := by
  induction operations generalizing history with
  | nil => exact live
  | cons operation rest ih =>
      -- The generation stays below the next one, so no transaction that enters can be given it.
      have later := Nat.lt_of_lt_of_le known (nextGeneration_le_step accounted operation)
      exact isLive_of_step accounted operation known (ih (accounted.step operation) later live)

/-- After any operations on an empty queue: every transaction is listed once, has jobs and one place
of its current generation; a stale place stays stale whatever comes next; the jobs are counted, and a
pop finds one exactly if there is one; every pushed job is queued, popped or removed; and a removal
takes the jobs with its key, counts them, and leaves the others as they were. -/
theorem run_spec (operations : List (QueueOperation α)) :
    let history := run {} operations
    let queue := history.queue
    (queue.transactions.map TransactionJobs.transaction).Nodup ∧
    (∀ entry ∈ queue.transactions, entry.jobs ≠ [] ∧
      (queue.schedule.countP fun place =>
        place.transaction == entry.transaction && place.generation == entry.generation) = 1) ∧
    (∀ place ∈ queue.schedule, queue.isLive place = false →
      ∀ later, (run {} (operations ++ later)).queue.isLive place = false) ∧
    queue.pending = queue.jobs.length ∧
    (queue.pop.1 = none ↔ queue.jobs = []) ∧
    history.pushed.Perm (queue.jobs ++ (history.popped ++ history.removed)) ∧
    ∀ key,
      (queue.remove key).1 = (queue.jobs.filter (·.key == key)).length ∧
      (∀ transaction, (queue.remove key).2.jobsOf transaction =
        (queue.jobsOf transaction).filter (·.key != key)) ∧
      (queue.remove key).2.schedule = queue.schedule := by
  intro history queue
  have accounted : history.Accounted := accounted_empty.run operations
  have invariant := accounted.invariant
  refine ⟨invariant.distinct, ?_, ?_, invariant.pending_eq,
    WeightedQueue.pop_eq_none_iff invariant, accounted.conserved, ?_⟩
  · intro entry member
    exact ⟨invariant.nonempty entry member, invariant.countP_standsFor member⟩
  · intro place present stale later
    rw [run, List.foldl_append, Bool.eq_false_iff]
    intro live
    have before := isLive_of_run accounted later (invariant.fresh place present) live
    rw [stale] at before
    cases before
  · intro key
    refine ⟨List.countP_eq_length_filter, fun transaction => ?_, rfl⟩
    rw [invariant.jobsOf_eq_filter, (WeightedQueue.invariant_remove invariant key).jobsOf_eq_filter,
      WeightedQueue.remove_jobs, List.filter_filter, List.filter_filter]
    exact List.filter_congr fun job _ => Bool.and_comm _ _

theorem run_spec_resubmitted :
    let operations : List (QueueOperation Unit) :=
      [.push { transaction := 1, work := (), key := 7 }, .remove 7,
        .push { transaction := 1, work := (), key := 8 }]
    let stale : SchedulePlace := { weight := 0, transaction := 1, generation := 0 }
    (run {} operations).queue.schedule = [stale, { stale with generation := 1 }] ∧
      ∀ later, (run {} (operations ++ later)).queue.isLive stale = false := by
  intro operations stale
  have places : (run {} operations).queue.schedule = [stale, { stale with generation := 1 }] := rfl
  have spec := run_spec operations
  refine ⟨places, spec.2.2.1 stale ?_ rfl⟩
  rw [places]
  exact List.mem_cons_self

end QueueHistory

end ColumnScan
