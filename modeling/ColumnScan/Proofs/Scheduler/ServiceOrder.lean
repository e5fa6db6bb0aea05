import ColumnScan.Proofs.Scheduler.Parity

/-!
# The order of service

A pop serves the transaction that comes first by weight and number among those with queued jobs, and
takes its oldest job. What it changes of the other transactions is nothing, however many stale places
it drops on its way. Within a transaction jobs are therefore served in the order in which they came.
-/

set_option autoImplicit false

namespace ColumnScan

variable {α : Type}

namespace WeightedQueue

section Lists

variable {queue next : WeightedQueue α} {transaction : Nat}
  {before after : List (TransactionJobs α)} {entry : TransactionJobs α}

theorem Invariant.jobsOf_eq_jobs (invariant : queue.Invariant)
    (member : entry ∈ queue.transactions) : queue.jobsOf entry.transaction = entry.jobs := by
  rw [jobsOf, invariant.find?_eq_some_iff.mpr ⟨member, rfl⟩]
  rfl

theorem jobsOf_eq_nil (absent : ∀ entry ∈ queue.transactions, entry.transaction ≠ transaction) :
    queue.jobsOf transaction = [] := by
  rw [jobsOf, find?_eq_none_iff.mpr absent]
  rfl

/-- What is done to one transaction is no matter to the jobs of another. -/
theorem jobsOf_congr (shape : queue.transactions = before ++ entry :: after)
    (changed : List (TransactionJobs α)) (nextShape : next.transactions = before ++ (changed ++ after))
    (same : ∀ other ∈ changed, other.transaction = entry.transaction)
    (different : entry.transaction ≠ transaction) :
    next.jobsOf transaction = queue.jobsOf transaction := by
  have skipped : changed.find? (·.transaction == transaction) = none := by
    refine List.find?_eq_none.mpr fun other present own => ?_
    exact different ((same other present).symm.trans (beq_iff_eq.mp own))
  have foreign : (entry.transaction == transaction) = false := beq_eq_false_iff_ne.mpr different
  simp only [jobsOf, find?, shape, nextShape, List.find?_append, List.find?_cons, skipped, foreign,
    Option.none_or]

theorem Invariant.accumulated?_eq_none_iff_jobsOf (invariant : queue.Invariant) :
    queue.accumulated? transaction = none ↔ queue.jobsOf transaction = [] := by
  constructor
  · intro none
    by_contra jobs
    obtain ⟨weight, held⟩ := exists_accumulated invariant jobs
    rw [none] at held
    cases held
  · intro nothing
    refine Option.eq_none_iff_forall_ne_some.mpr fun weight held => ?_
    obtain ⟨entry, member, rfl, _⟩ := invariant.accumulated?_eq_some_iff.mp held
    rw [invariant.jobsOf_eq_jobs member] at nothing
    exact invariant.nonempty entry member nothing

end Lists

section Operations

variable {queue : WeightedQueue α} (invariant : queue.Invariant)

include invariant

/-- A pushed job is the last one of its transaction. -/
theorem jobsOf_push (job : Job α) (transaction : Nat) :
    (queue.push job).jobsOf transaction =
      queue.jobsOf transaction ++ [job].filter (·.transaction == transaction) := by
  have pushedInvariant := invariant_push invariant job
  by_cases own : job.transaction = transaction
  · subst own
    rw [List.filter_singleton, beq_self_eq_true, cond_true]
    obtain ⟨before, entry, after, shape, same, pushed⟩ | ⟨absent, pushed⟩ :=
      push_cases invariant job
    · rw [pushed] at pushedInvariant ⊢
      rw [← same, invariant.jobsOf_eq_jobs (mem_of_eq_append shape)]
      exact pushedInvariant.jobsOf_eq_jobs (List.mem_append_right before List.mem_cons_self)
    · rw [pushed] at pushedInvariant ⊢
      rw [jobsOf_eq_nil absent, List.nil_append]
      exact pushedInvariant.jobsOf_eq_jobs (List.mem_append_right _ List.mem_cons_self)
  · have foreign : (job.transaction == transaction) = false := beq_eq_false_iff_ne.mpr own
    rw [List.filter_singleton, foreign, cond_false, List.append_nil]
    obtain ⟨before, entry, after, shape, same, pushed⟩ | ⟨_, pushed⟩ := push_cases invariant job
    · rw [pushed]
      exact jobsOf_congr shape [{ entry with jobs := entry.jobs ++ [job] }] rfl
        (List.forall_mem_singleton.mpr rfl) (same ▸ own)
    · simp only [pushed, jobsOf, find?, List.find?_append, List.find?_cons, foreign, List.find?_nil,
        Option.or_none]

theorem jobsOf_remove (key transaction : Nat) :
    (queue.remove key).2.jobsOf transaction =
      (queue.jobsOf transaction).filter (·.key != key) := by
  rw [invariant.jobsOf_eq_filter, (invariant_remove invariant key).jobsOf_eq_filter, remove_jobs,
    List.filter_filter, List.filter_filter]
  exact List.filter_congr fun job _ => Bool.and_comm _ _

/-- A popped job was the first one of its transaction. -/
theorem jobsOf_pop (transaction : Nat) :
    queue.jobsOf transaction =
      queue.pop.1.toList.filter (·.transaction == transaction) ++ queue.pop.2.jobsOf transaction := by
  have poppedInvariant := invariant_pop invariant
  obtain ⟨empty, finished⟩ | ⟨before, entry, after, _, _, _, job, younger, entries, others, jobs, _, _,
    _, taken⟩ := pop_cases invariant
  · rw [finished]
    rfl
  have member := mem_of_eq_append entries
  have owned : job.transaction = entry.transaction :=
    invariant.owned entry member job (jobs ▸ List.mem_cons_self)
  rw [taken, Option.toList_some, List.filter_singleton, owned]
  rw [taken] at poppedInvariant
  by_cases own : entry.transaction = transaction
  · rw [← own, invariant.jobsOf_eq_jobs member, jobs, beq_self_eq_true, cond_true,
      List.singleton_append]
    refine congrArg (List.cons job) (Eq.symm ?_)
    cases younger with
    | nil => exact jobsOf_eq_nil others
    | cons next rest =>
        exact poppedInvariant.jobsOf_eq_jobs (List.mem_append_right before List.mem_cons_self)
  · rw [beq_eq_false_iff_ne.mpr own, cond_false, List.nil_append, eq_comm]
    cases younger with
    | nil => exact jobsOf_congr entries [] rfl nofun own
    | cons next rest =>
        exact jobsOf_congr entries [{ entry with jobs := next :: rest }] rfl
          (List.forall_mem_singleton.mpr rfl) own

/-- Only stale places are dropped in front of the one that is served, so every transaction that waits
has its place behind it. -/
theorem pop_first (ordered : SchedulePlace.Ordered queue.schedule) {job : Job α}
    (popped : queue.pop.1 = some job) {weight : Nat}
    (held : queue.accumulated? job.transaction = some weight) {transaction other : Nat}
    (waits : queue.accumulated? transaction = some other) :
    weight < other ∨ weight = other ∧ job.transaction ≤ transaction := by
  obtain ⟨_, finished⟩ | ⟨before, entry, after, stale, place, later, first, younger, entries, _, jobs,
    shape, dead, stands, taken⟩ := pop_cases invariant
  · rw [finished] at popped
    cases popped
  rw [taken] at popped
  cases popped
  have member := mem_of_eq_append entries
  have owned : job.transaction = entry.transaction :=
    invariant.owned entry member job (jobs ▸ List.mem_cons_self)
  have present : place ∈ queue.schedule := by
    rw [shape]
    exact List.mem_append_right stale List.mem_cons_self
  have charged := invariant.accumulated?_eq_some_iff.mpr
    ⟨entry, member, owned.symm, place, present, stands, rfl⟩
  obtain rfl := Option.some.inj (charged.symm.trans held)
  obtain ⟨owner, ownerMember, rfl, found, foundPresent, foundStands, rfl⟩ :=
    invariant.accumulated?_eq_some_iff.mp waits
  have live := invariant.isLive_iff.mpr ⟨owner, ownerMember, foundStands⟩
  rw [owned, ← stands.1, ← foundStands.1]
  rcases List.mem_cons.mp (mem_of_isLive shape dead foundPresent live) with rfl | late
  · exact .inr ⟨rfl, Nat.le_refl _⟩
  · rw [shape] at ordered
    have sorted := (List.pairwise_cons.mp (List.pairwise_append.mp ordered).2.1).1 found late
    rw [SchedulePlace.precedes_iff] at sorted
    omega

/-- What a pop serves: the oldest job of the transaction that comes first. The transaction is charged
for it or leaves, and nothing else changes. -/
structure Serves (queue : WeightedQueue α) (job : Job α) (younger : List (Job α)) (weight : Nat) :
    Prop where
  popped : queue.pop.1 = some job
  oldest : queue.jobsOf job.transaction = job :: younger
  held : queue.accumulated? job.transaction = some weight
  first : ∀ transaction, queue.jobsOf transaction ≠ [] → ∃ other,
    queue.accumulated? transaction = some other ∧
      (weight < other ∨ weight = other ∧ job.transaction ≤ transaction)
  kept : queue.pop.2.jobsOf job.transaction = younger
  charged : queue.pop.2.accumulated? job.transaction =
    if younger = [] then none else some (weight + job.weight)
  others : ∀ transaction, transaction ≠ job.transaction →
    queue.pop.2.jobsOf transaction = queue.jobsOf transaction ∧
      queue.pop.2.accumulated? transaction = queue.accumulated? transaction

theorem exists_serves (ordered : SchedulePlace.Ordered queue.schedule) (waiting : queue.jobs ≠ []) :
    ∃ job younger weight, queue.Serves job younger weight := by
  obtain ⟨job, popped⟩ : ∃ job, queue.pop.1 = some job :=
    Option.ne_none_iff_exists'.mp fun none => waiting ((pop_eq_none_iff invariant).mp none)
  obtain ⟨weight, charges⟩ := pop_charges invariant ordered popped
  have next := invariant_pop invariant
  have split : ∀ transaction, queue.jobsOf transaction =
      [job].filter (·.transaction == transaction) ++ queue.pop.2.jobsOf transaction := by
    intro transaction
    rw [jobsOf_pop invariant, popped, Option.toList_some]
  refine ⟨job, queue.pop.2.jobsOf job.transaction, weight, popped, ?_, charges.held, ?_, rfl, ?_, ?_⟩
  · rw [split, List.filter_singleton, beq_self_eq_true, cond_true, List.singleton_append]
  · intro transaction jobs
    obtain ⟨other, waits⟩ := exists_accumulated invariant jobs
    exact ⟨other, waits, pop_first invariant ordered popped charges.held waits⟩
  · split_ifs with left
    · exact next.accumulated?_eq_none_iff_jobsOf.mpr left
    · refine charges.charged.resolve_left fun none => left ?_
      exact next.accumulated?_eq_none_iff_jobsOf.mp none
  · intro transaction different
    have foreign : (job.transaction == transaction) = false :=
      beq_eq_false_iff_ne.mpr different.symm
    refine ⟨?_, charges.others different.symm⟩
    rw [split transaction, List.filter_singleton, foreign, cond_false, List.nil_append]

end Operations

end WeightedQueue

namespace QueueHistory

/-- The jobs of a transaction that were pushed. -/
def pushedOf (history : QueueHistory α) (transaction : Nat) : List (Job α) :=
  history.pushed.filter (·.transaction == transaction)

/-- Served and waiting jobs of every transaction are those of a list, followed by the pushed ones. -/
def InOrder (history : QueueHistory α) (transaction : Nat) (first : List (Job α)) : Prop :=
  history.servedOf transaction ++ history.queue.jobsOf transaction =
    first ++ history.pushedOf transaction

theorem InOrder.step {history : QueueHistory α} (invariant : history.queue.Invariant)
    {transaction : Nat} {first : List (Job α)} (inOrder : history.InOrder transaction first)
    {operation : QueueOperation α} (kept : ∀ key, operation ≠ .remove key) :
    (history.step operation).InOrder transaction first := by
  unfold InOrder pushedOf servedOf at inOrder ⊢
  cases operation with
  | push job =>
      simp only [QueueHistory.step, WeightedQueue.jobsOf_push invariant, List.filter_append]
      rw [← List.append_assoc, inOrder, List.append_assoc]
  | pop =>
      rw [WeightedQueue.jobsOf_pop invariant, ← List.append_assoc, ← List.filter_append] at inOrder
      exact inOrder
  | remove key => exact absurd rfl (kept key)

theorem InOrder.run {history : QueueHistory α} (invariant : history.queue.Invariant)
    {transaction : Nat} {first : List (Job α)} (inOrder : history.InOrder transaction first)
    {course : List (QueueOperation α)} (noRemoval : ∀ key, .remove key ∉ course) :
    (history.run course).InOrder transaction first := by
  induction course generalizing history with
  | nil => exact inOrder
  | cons operation rest ih =>
      have kept : ∀ key, operation ≠ .remove key := fun key same =>
        noRemoval key (same ▸ List.mem_cons_self)
      exact ih (invariant_step invariant operation) (inOrder.step invariant kept)
        fun key present => noRemoval key (List.mem_cons_of_mem operation present)

theorem jobsOf_sublist_step {history : QueueHistory α} (invariant : history.queue.Invariant)
    {transaction : Nat}
    (pushed : (history.queue.jobsOf transaction).Sublist (history.pushedOf transaction))
    (operation : QueueOperation α) :
    ((history.step operation).queue.jobsOf transaction).Sublist
      ((history.step operation).pushedOf transaction) := by
  unfold pushedOf at pushed ⊢
  cases operation with
  | push job =>
      simp only [step, WeightedQueue.jobsOf_push invariant, List.filter_append]
      exact pushed.append_right _
  | pop =>
      rw [WeightedQueue.jobsOf_pop invariant] at pushed
      exact (List.sublist_append_right _ _).trans pushed
  | remove key =>
      simp only [step, WeightedQueue.jobsOf_remove invariant]
      exact List.filter_sublist.trans pushed

theorem jobsOf_sublist_run {history : QueueHistory α} (invariant : history.queue.Invariant)
    {transaction : Nat}
    (pushed : (history.queue.jobsOf transaction).Sublist (history.pushedOf transaction))
    (operations : List (QueueOperation α)) :
    ((history.run operations).queue.jobsOf transaction).Sublist
      ((history.run operations).pushedOf transaction) := by
  induction operations generalizing history with
  | nil => exact pushed
  | cons operation rest ih =>
      exact ih (invariant_step invariant operation) (jobsOf_sublist_step invariant pushed operation)

/-- After any operations on an empty queue: the queued jobs of a transaction stand in the order in
which they were pushed. If there is a job, a pop serves the first one of the transaction that comes
first by weight and number. As long as nothing is cancelled, what is served of a transaction and what
waits are the jobs that waited before, followed by those that were pushed. -/
theorem serves_in_order (operations : List (QueueOperation α)) :
    let history := run {} operations
    let queue := history.queue
    (∀ transaction, (queue.jobsOf transaction).Sublist (history.pushedOf transaction)) ∧
    (queue.jobs ≠ [] → ∃ job younger weight, queue.Serves job younger weight) ∧
    ∀ course, (∀ key, .remove key ∉ course) → ∀ transaction,
      let later := run { queue } course
      later.servedOf transaction ++ later.queue.jobsOf transaction =
        queue.jobsOf transaction ++ later.pushedOf transaction := by
  intro history queue
  have invariant : queue.Invariant := (accounted_empty.run operations).invariant
  refine ⟨fun transaction => ?_, ?_, fun course noRemoval transaction => ?_⟩
  · exact jobsOf_sublist_run accounted_empty.invariant (List.Sublist.refl _) operations
  · exact WeightedQueue.exists_serves invariant (ordered_run_empty operations)
  · have start : InOrder { queue } transaction (queue.jobsOf transaction) := by
      simp only [InOrder, servedOf, pushedOf, List.filter_nil, List.nil_append, List.append_nil]
    refine start.run ?_ noRemoval
    exact invariant

theorem serves_in_order_returning :
    let first : Job Unit := { transaction := 1, work := (), weight := 3, key := 8 }
    let second : Job Unit := { transaction := 1, work := (), weight := 2, key := 9 }
    let operations : List (QueueOperation Unit) :=
      [.push { transaction := 1, work := (), key := 7 }, .push { transaction := 2, work := () },
        .remove 7, .push first, .push second]
    let course : List (QueueOperation Unit) := [.pop, .push first, .pop, .pop]
    let queue := (run {} operations).queue
    let later := run { queue } course
    (∃ stale ∈ queue.schedule.head?, queue.isLive stale = false) ∧
      queue.Serves first [second] 0 ∧
      later.servedOf 1 ++ later.queue.jobsOf 1 = [first, second] ++ [first] := by
  intro first second operations course queue later
  obtain ⟨_, serves, inOrder⟩ := serves_in_order operations
  obtain ⟨job, younger, weight, served⟩ := serves (by decide)
  have popped : queue.pop.1 = some first := rfl
  obtain rfl := Option.some.inj (popped.symm.trans served.popped)
  have jobs : queue.jobsOf 1 = [first, second] := rfl
  obtain rfl := (List.cons.inj (jobs.symm.trans served.oldest)).2
  have held : queue.accumulated? 1 = some 0 := by decide
  obtain rfl := Option.some.inj (held.symm.trans served.held)
  have noRemoval : ∀ key, .remove key ∉ course := by simp [course]
  exact ⟨by decide, served, inOrder course noRemoval 1⟩

end QueueHistory

end ColumnScan
