import ColumnScan.Proofs.Scheduler.EntryWeight
import Mathlib.Data.Finset.Card

/-!
# The wait of an entering transaction

Nobody has been charged less than a transaction that enters. Another one can be served before it only
while it is level with it, and has been charged more afterwards if its job weighs something. As long as
no further transaction enters, the one that waits is served after at most one job of each of the others.
-/

set_option autoImplicit false

namespace ColumnScan

variable {α : Type}

def QueueOperation.isPop : QueueOperation α → Bool
  | .pop => true
  | .push _ | .remove _ => false

/-- The operation brings in no further transaction and cancels no job of the one that waits. -/
def WeightedQueue.Undisturbed (queue : WeightedQueue α) (waiting : Nat) : QueueOperation α → Prop
  | .push job => queue.jobsOf job.transaction ≠ []
  | .pop => True
  | .remove key => ∀ job ∈ queue.jobsOf waiting, job.key ≠ key

instance (queue : WeightedQueue α) (waiting : Nat) : DecidablePred (queue.Undisturbed waiting)
  | .push job => inferInstanceAs (Decidable (queue.jobsOf job.transaction ≠ []))
  | .pop => inferInstanceAs (Decidable True)
  | .remove key => inferInstanceAs (Decidable (∀ job ∈ queue.jobsOf waiting, job.key ≠ key))

/-- After a pop the transaction that was served has been charged for its job, and the others as much as
before. -/
theorem WeightedQueue.Serves.accumulated?_cases {queue : WeightedQueue α} {job : Job α}
    {younger : List (Job α)} {weight : Nat} (serves : queue.Serves job younger weight)
    {transaction other : Nat} (charged : queue.pop.2.accumulated? transaction = some other) :
    transaction = job.transaction ∧ other = weight + job.weight ∨
      transaction ≠ job.transaction ∧ queue.accumulated? transaction = some other := by
  by_cases same : transaction = job.transaction
  · subst same
    rw [serves.charged] at charged
    split at charged
    · cases charged
    · exact .inl ⟨rfl, (Option.some.inj charged).symm⟩
  · exact .inr ⟨same, (serves.others transaction same).2.symm.trans charged⟩

namespace QueueHistory

def Undisturbed (waiting : Nat) : QueueHistory α → List (QueueOperation α) → Prop
  | _, [] => True
  | history, operation :: rest =>
      history.queue.Undisturbed waiting operation ∧ Undisturbed waiting (history.step operation) rest

instance decidableUndisturbed (waiting : Nat) (history : QueueHistory α)
    (course : List (QueueOperation α)) : Decidable (Undisturbed waiting history course) :=
  match course with
  | [] => inferInstanceAs (Decidable True)
  | operation :: rest =>
      have := decidableUndisturbed waiting (history.step operation) rest
      inferInstanceAs (Decidable (_ ∧ _))

/-- A job is the oldest one of its transaction, which has been charged no more than any other. The
transactions that are level with it can still be served before it; together with the jobs that were
popped they keep within a bound. -/
structure Awaiting (history : QueueHistory α) (awaited : Job α) (weight bound : Nat) : Prop where
  invariant : history.queue.Invariant
  ordered : SchedulePlace.Ordered history.queue.schedule
  positive : ∀ job ∈ history.queue.jobs, 0 < job.weight
  oldest : (history.queue.jobsOf awaited.transaction).head? = some awaited
  held : history.queue.accumulated? awaited.transaction = some weight
  least : weight ∈ lowerBounds history.queue.runningWeights
  unserved : ∀ job ∈ history.popped, job.transaction ≠ awaited.transaction
  exists_rivals : ∃ rivals : Finset Nat,
    (∀ transaction, transaction ≠ awaited.transaction →
      history.queue.accumulated? transaction = some weight → transaction ∈ rivals) ∧
    history.popped.length + rivals.card ≤ bound

/-- A job was popped after at most so many jobs of other transactions, and before any other job of its
own. -/
def ServedWithin (history : QueueHistory α) (awaited : Job α) (bound : Nat) : Prop :=
  ∃ before after, history.popped = before ++ awaited :: after ∧ before.length ≤ bound ∧
    ∀ job ∈ before, job.transaction ≠ awaited.transaction

theorem ServedWithin.run {history : QueueHistory α} {awaited : Job α} {bound : Nat}
    (served : history.ServedWithin awaited bound) (course : List (QueueOperation α)) :
    (history.run course).ServedWithin awaited bound := by
  obtain ⟨before, after, popped, few, others⟩ := served
  obtain ⟨later, extended⟩ := history.popped_prefix_run course
  refine ⟨before, after ++ later, ?_, few, others⟩
  rw [← extended, popped, List.append_assoc, List.cons_append]

namespace Awaiting

variable {history next : QueueHistory α} {awaited : Job α} {weight bound : Nat}
  (awaiting : history.Awaiting awaited weight bound)

include awaiting

theorem jobs_ne_nil : history.queue.jobsOf awaited.transaction ≠ [] :=
  List.ne_nil_of_mem (List.mem_of_head? awaiting.oldest)

/-- An operation that pops nothing and charges nobody leaves everything as it is. -/
theorem keep (invariant : next.queue.Invariant) (ordered : SchedulePlace.Ordered next.queue.schedule)
    (positive : ∀ job ∈ next.queue.jobs, 0 < job.weight)
    (oldest : (next.queue.jobsOf awaited.transaction).head? = some awaited)
    (charged : ∀ {transaction other : Nat}, next.queue.accumulated? transaction = some other →
      history.queue.accumulated? transaction = some other)
    (popped : next.popped = history.popped) : next.Awaiting awaited weight bound := by
  obtain ⟨rivals, level, room⟩ := awaiting.exists_rivals
  have jobs : next.queue.jobsOf awaited.transaction ≠ [] :=
    List.ne_nil_of_mem (List.mem_of_head? oldest)
  obtain ⟨kept, held⟩ := WeightedQueue.exists_accumulated invariant jobs
  obtain rfl := Option.some.inj ((charged held).symm.trans awaiting.held)
  refine ⟨invariant, ordered, positive, oldest, held, ?_, popped ▸ awaiting.unserved,
    rivals, fun transaction other running => level transaction other (charged running), popped ▸ room⟩
  rintro other ⟨transaction, running⟩
  exact awaiting.least ⟨transaction, charged running⟩

theorem push {job : Job α} (known : history.queue.jobsOf job.transaction ≠ [])
    (heavy : 0 < job.weight) : (history.step (.push job)).Awaiting awaited weight bound := by
  have invariant := awaiting.invariant
  refine awaiting.keep (WeightedQueue.invariant_push invariant job)
    (WeightedQueue.ordered_push invariant awaiting.ordered job) ?_ ?_ ?_ rfl
  · intro other present
    rcases List.mem_cons.mp ((WeightedQueue.push_jobs_perm invariant job).subset present) with
      rfl | old
    · exact heavy
    · exact awaiting.positive other old
  · simp only [step, WeightedQueue.jobsOf_push invariant, List.head?_append, awaiting.oldest,
      Option.some_or]
  · intro transaction other charged
    by_cases same : job.transaction = transaction
    · subst same
      obtain ⟨weight, held⟩ := WeightedQueue.exists_accumulated invariant known
      exact held.trans
        ((WeightedQueue.accumulated?_push_of_some invariant job held).symm.trans charged)
    · exact (WeightedQueue.accumulated?_push_of_ne invariant job same).symm.trans charged

theorem remove {key : Nat}
    (spared : ∀ job ∈ history.queue.jobsOf awaited.transaction, job.key ≠ key) :
    (history.step (.remove key)).Awaiting awaited weight bound := by
  have invariant := awaiting.invariant
  have after := WeightedQueue.invariant_remove invariant key
  refine awaiting.keep after awaiting.ordered ?_ ?_ ?_ rfl
  · intro job present
    rw [step, WeightedQueue.remove_jobs] at present
    exact awaiting.positive job (List.mem_of_mem_filter present)
  · have unchanged : (history.queue.remove key).2.jobsOf awaited.transaction =
        history.queue.jobsOf awaited.transaction := by
      rw [WeightedQueue.jobsOf_remove invariant]
      exact List.filter_eq_self.mpr fun job present => bne_iff_ne.mpr (spared job present)
    exact (congrArg List.head? unchanged).trans awaiting.oldest
  · intro transaction other charged
    -- Who keeps jobs had jobs, and a removal changes the weight of no such transaction.
    have kept : (history.queue.remove key).2.jobsOf transaction ≠ [] := fun none => by
      rw [step, after.accumulated?_eq_none_iff_jobsOf.mpr none] at charged
      cases charged
    have jobs : history.queue.jobsOf transaction ≠ [] := fun none => kept (by
      rw [WeightedQueue.jobsOf_remove invariant, none, List.filter_nil])
    obtain ⟨weight, held⟩ := WeightedQueue.exists_accumulated invariant jobs
    exact held.trans
      ((WeightedQueue.accumulated?_remove invariant held kept).symm.trans charged)

/-- A pop serves the awaited job, or a transaction that is level with it and is not afterwards. -/
theorem pop :
    (history.step .pop).popped = history.popped ++ [awaited] ∨
      (history.step .pop).Awaiting awaited weight bound ∧
        (history.step .pop).popped.length = history.popped.length + 1 := by
  have invariant := awaiting.invariant
  have waiting : history.queue.jobs ≠ [] := fun none => awaiting.jobs_ne_nil (by
    rw [invariant.jobsOf_eq_filter, none, List.filter_nil])
  obtain ⟨job, younger, charged, serves⟩ :=
    WeightedQueue.exists_serves invariant awaiting.ordered waiting
  have popped : (history.step .pop).popped = history.popped ++ [job] := by
    rw [step, serves.popped, Option.toList_some]
  by_cases own : awaited.transaction = job.transaction
  · have oldest := awaiting.oldest
    rw [own, serves.oldest, List.head?_cons] at oldest
    cases oldest
    exact .inl popped
  obtain ⟨rivals, level, room⟩ := awaiting.exists_rivals
  obtain ⟨other, waits, first⟩ := serves.first awaited.transaction awaiting.jobs_ne_nil
  cases waits.symm.trans awaiting.held
  have bound := awaiting.least ⟨job.transaction, serves.held⟩
  obtain rfl : charged = weight := by omega
  -- The awaited transaction did not come first, so the one that did is level with it.
  have rival := level job.transaction (Ne.symm own) serves.held
  have heavy : 0 < job.weight := by
    refine awaiting.positive job ((WeightedQueue.pop_jobs_perm invariant).symm.subset ?_)
    rw [serves.popped, Option.toList_some]
    exact List.mem_append_left _ List.mem_cons_self
  obtain ⟨jobs, held⟩ := serves.others awaited.transaction own
  have length : (history.step .pop).popped.length = history.popped.length + 1 := by
    rw [popped, List.length_append, List.length_singleton]
  refine .inr ⟨⟨WeightedQueue.invariant_pop invariant,
    WeightedQueue.ordered_pop invariant awaiting.ordered, ?_, ?_, ?_, ?_, ?_, ?_⟩, length⟩
  · intro kept present
    exact awaiting.positive kept ((WeightedQueue.pop_jobs_perm invariant).symm.subset
      (List.mem_append_right _ present))
  · exact (congrArg List.head? jobs).trans awaiting.oldest
  · exact held.trans awaiting.held
  · rintro other ⟨transaction, running⟩
    rcases serves.accumulated?_cases running with ⟨_, rfl⟩ | ⟨_, before⟩
    · exact Nat.le_add_right _ _
    · exact awaiting.least ⟨transaction, before⟩
  · rw [popped]
    exact List.forall_mem_append.mpr
      ⟨awaiting.unserved, List.forall_mem_singleton.mpr (Ne.symm own)⟩
  · refine ⟨rivals.erase job.transaction, fun transaction different running => ?_, ?_⟩
    · rcases serves.accumulated?_cases running with ⟨_, more⟩ | ⟨unserved, before⟩
      · omega
      · exact Finset.mem_erase.mpr ⟨unserved, level transaction different before⟩
    · have fewer := Finset.card_erase_add_one rival
      omega

/-- Until it is served, a job that is awaited sees every pop serve another one. -/
theorem run {course : List (QueueOperation α)}
    (undisturbed : Undisturbed awaited.transaction history course)
    (heavy : ∀ job, .push job ∈ course → 0 < job.weight) :
    (history.run course).ServedWithin awaited bound ∨
      (history.run course).Awaiting awaited weight bound ∧
        (history.run course).popped.length =
          history.popped.length + course.countP QueueOperation.isPop := by
  induction course generalizing history with
  | nil => exact .inr ⟨awaiting, rfl⟩
  | cons operation rest ih =>
      obtain ⟨admitted, later⟩ := undisturbed
      have heavyRest : ∀ job, .push job ∈ rest → 0 < job.weight := fun job present =>
        heavy job (List.mem_cons_of_mem operation present)
      cases operation with
      | push job =>
          have pushed := awaiting.push admitted (heavy job List.mem_cons_self)
          exact ih pushed later heavyRest
      | remove key => exact ih (awaiting.remove admitted) later heavyRest
      | pop =>
          rcases awaiting.pop with served | ⟨waits, length⟩
          · obtain ⟨rivals, _, room⟩ := awaiting.exists_rivals
            have now : (history.step .pop).ServedWithin awaited bound :=
              ⟨history.popped, [], served, Nat.le_of_add_right_le room, awaiting.unserved⟩
            exact .inl (now.run rest)
          · rcases ih waits later heavyRest with served | ⟨still, total⟩
            · exact .inl served
            · refine .inr ⟨still, total.trans ?_⟩
              rw [length, List.countP_cons_of_pos rfl]
              omega

end Awaiting

/-- After any operations on an empty queue: if a job brings in its transaction and all jobs weigh
something, it is popped after at most as many jobs of others as there were transactions, unless
further ones enter or jobs of its own are cancelled. -/
theorem served_within (operations course : List (QueueOperation α)) (entering : Job α) :
    let queue := (run {} operations).queue
    let start : QueueHistory α := { queue := queue.push entering }
    queue.jobsOf entering.transaction = [] →
    (∀ job ∈ start.queue.jobs, 0 < job.weight) →
    (∀ job, .push job ∈ course → 0 < job.weight) →
    Undisturbed entering.transaction start course →
    queue.transactions.length < course.countP QueueOperation.isPop →
    (start.run course).ServedWithin entering queue.transactions.length := by
  intro queue start idle positive heavy undisturbed enough
  have invariant : queue.Invariant := (accounted_empty.run operations).invariant
  have ordered : SchedulePlace.Ordered queue.schedule := ordered_run_empty operations
  have absent := invariant.accumulated?_eq_none_iff_jobsOf.mpr idle
  have entered := WeightedQueue.accumulated?_push_entering invariant entering absent
  have others : ∀ {transaction : Nat}, transaction ≠ entering.transaction →
      start.queue.accumulated? transaction = queue.accumulated? transaction := fun different =>
    WeightedQueue.accumulated?_push_of_ne invariant entering different.symm
  have awaiting : start.Awaiting entering queue.entryWeight queue.transactions.length := by
    refine ⟨WeightedQueue.invariant_push invariant entering,
      WeightedQueue.ordered_push invariant ordered entering, positive, ?_, entered, ?_, nofun,
      (queue.transactions.map TransactionJobs.transaction).toFinset, ?_, ?_⟩
    · simp only [start, WeightedQueue.jobsOf_push invariant, idle, List.nil_append,
        List.filter_singleton, beq_self_eq_true, cond_true, List.head?_cons]
    · rintro weight ⟨transaction, running⟩
      by_cases same : transaction = entering.transaction
      · rw [same, entered] at running
        exact Nat.le_of_eq (Option.some.inj running)
      · rw [others same] at running
        exact WeightedQueue.entryWeight_mem_lowerBounds invariant ordered ⟨transaction, running⟩
    -- Whoever runs when the job enters may be served before it.
    · intro transaction different running
      rw [others different] at running
      by_contra unlisted
      rw [List.mem_toFinset, ← invariant.accumulated?_eq_none_iff, running] at unlisted
      cases unlisted
    · have distinct := List.toFinset_card_le (queue.transactions.map TransactionJobs.transaction)
      rw [List.length_map] at distinct
      rwa [List.length_nil, Nat.zero_add]
  rcases awaiting.run undisturbed heavy with served | ⟨still, length⟩
  · exact served
  · obtain ⟨rivals, _, room⟩ := still.exists_rivals
    rw [length, List.length_nil] at room
    omega

/-- Two transactions wait and a third was cancelled. One that enters is served after a job of each of
the two, although one of them gets another job meanwhile. -/
theorem served_within_cancelled :
    let heavy : Job Unit := { transaction := 1, work := (), weight := 5 }
    let light : Job Unit := { transaction := 2, work := () }
    let cancelled : Job Unit := { transaction := 4, work := (), key := 7 }
    let entering : Job Unit := { transaction := 3, work := () }
    let operations : List (QueueOperation Unit) :=
      [.push heavy, .push heavy, .push light, .push light, .push cancelled, .remove 7]
    let course : List (QueueOperation Unit) := [.pop, .push heavy, .remove 9, .pop, .pop]
    let queue := (run {} operations).queue
    let start : QueueHistory Unit := { queue := queue.push entering }
    queue.transactions.length = 2 ∧ queue.schedule.length = 3 ∧
      (start.run course).popped = [heavy, light, entering] ∧
      (start.run course).ServedWithin entering 2 := by
  intro heavy light cancelled entering operations course queue start
  have undisturbed : Undisturbed 3 start course := by decide
  have positive : ∀ job, .push job ∈ course → 0 < job.weight := by simp [course, heavy]
  have waiting : queue.transactions.length = 2 := by decide
  have served := served_within operations course entering (by decide) (by decide) positive
    undisturbed (by decide)
  exact ⟨waiting, by decide, by decide, waiting ▸ served⟩

end QueueHistory

end ColumnScan
