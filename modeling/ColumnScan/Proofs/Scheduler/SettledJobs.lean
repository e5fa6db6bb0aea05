import ColumnScan.Proofs.Scheduler.PoolHistory

/-!
# Completed and failed jobs of a pool

A job is completed or failed once and for all, and only the end of one of its runs does that. Those
who submit jobs need to know no more of the history of a pool than the tickets of these jobs.
-/

set_option autoImplicit false

namespace ColumnScan

theorem JobLedger.Accounted.placed {ledger : JobLedger} (accounted : ledger.Accounted) :
    ((ledger.active ++ ledger.settled).map Job.work).Nodup := by
  have distinct : (ledger.submitted.map Job.work).Nodup := accounted.tickets ▸ List.nodup_range
  exact (accounted.conserved.map Job.work).nodup_iff.mp distinct

namespace PoolHistory

variable {α : Type}

def completedTickets (history : PoolHistory α) : List Nat :=
  history.ledger.completed.map Job.work

def failedTickets (history : PoolHistory α) : List Nat :=
  (history.ledger.failed.map Prod.fst).map Job.work

/-- The history with another number of workers that count as blocked. -/
def withBlocked (history : PoolHistory α) (blocked : Nat) : PoolHistory α :=
  { history with pool := { history.pool with blocked } }

theorem sound_withBlocked {history : PoolHistory α} (sound : history.Sound) (blocked : Nat) :
    (history.withBlocked blocked).Sound :=
  ⟨⟨sound.pool.queue, sound.pool.distinct, sound.pool.fresh⟩, sound.accounted⟩

namespace Sound

variable {history : PoolHistory α} (sound : history.Sound)

include sound

theorem completed_lt {ticket : Nat} (completed : ticket ∈ history.completedTickets) :
    ticket < history.submitted.length := by
  obtain ⟨job, member, rfl⟩ := List.mem_map.mp completed
  have placed : job ∈ history.ledger.active ++ history.ledger.settled :=
    List.mem_append_right _ (List.mem_append_left _ member)
  have known := List.mem_map_of_mem (f := Job.work) (sound.accounted.conserved.mem_iff.mpr placed)
  rw [sound.accounted.tickets] at known
  exact List.mem_range.mp known

theorem not_completed_of_running {number : Nat} {job : Job (Ticketed α)}
    (busy : history.pool.activity number = .running job) :
    job.work.ticket ∉ history.completedTickets := by
  obtain ⟨_, _, left, _⟩ := Pool.view_finish sound.pool busy job.work (.finished .complete)
  have running : job.ticketed ∈ history.ledger.running :=
    List.mem_map_of_mem (left.mem_iff.mpr List.mem_cons_self)
  have active : job.work.ticket ∈ history.ledger.active.map Job.work :=
    List.mem_map.mpr ⟨job.ticketed, List.mem_append_right _ (List.mem_append_left _ running), rfl⟩
  have placed := sound.accounted.placed
  rw [List.map_append, List.nodup_append] at placed
  intro completed
  refine placed.2.2 _ active _ ?_ rfl
  rw [JobLedger.settled, List.map_append]
  exact List.mem_append_left _ completed

theorem not_failed_of_completed {ticket : Nat} (completed : ticket ∈ history.completedTickets) :
    ticket ∉ history.failedTickets := by
  have placed := sound.accounted.placed
  rw [JobLedger.settled, List.map_append, List.map_append, List.map_append, List.nodup_append,
    List.nodup_append] at placed
  intro failed
  exact placed.2.1.2.2 _ completed _ (List.mem_append_left _ failed) rfl

end Sound

variable {history : PoolHistory α}

-- Unfolding the pool by `rfl` would be slow.
theorem records_submit (history : PoolHistory α) (job : Job α) :
    (history.submit job).records = history.records := by
  rw [submit]

section Finish

variable {number : Nat} {job : Job (Ticketed α)}
  (busy : history.pool.activity number = .running job) (work : α) (runEnd : RunEnd) (ticket : Nat)

include busy

theorem records_finish :
    (history.finish number work runEnd).records =
      history.records ++ [.ended job.ticketed runEnd] := by
  rw [finish, busy]

theorem mem_completedTickets_finish :
    ticket ∈ (history.finish number work runEnd).completedTickets ↔
      ticket ∈ history.completedTickets ∨
        ticket = job.work.ticket ∧ runEnd = .finished .complete := by
  simp only [completedTickets, JobLedger.completed, ledger, records_finish busy,
    List.filterMap_append, List.map_append, List.mem_append]
  refine or_congr_right ?_
  cases runEnd with
  | finished status => cases status <;> simp [RunRecord.completed?, Job.ticketed]
  | failed message => simp [RunRecord.completed?]

theorem mem_failedTickets_finish :
    ticket ∈ (history.finish number work runEnd).failedTickets ↔
      ticket ∈ history.failedTickets ∨
        ticket = job.work.ticket ∧ ∃ message, runEnd = .failed message := by
  simp only [failedTickets, JobLedger.failed, ledger, records_finish busy, List.filterMap_append,
    List.map_append, List.mem_append]
  refine or_congr_right ?_
  cases runEnd with
  | finished status => simp [RunRecord.failed?]
  | failed message => simp [RunRecord.failed?, Job.ticketed]

end Finish

theorem settled_of_records_eq {later : PoolHistory α} (same : later.records = history.records)
    (ticket : Nat) :
    (ticket ∈ later.completedTickets ↔ ticket ∈ history.completedTickets) ∧
      (ticket ∈ later.failedTickets ↔ ticket ∈ history.failedTickets) := by
  simp only [completedTickets, failedTickets, JobLedger.completed, JobLedger.failed, ledger, same,
    and_self]

/-- A job is completed or failed by the end of one of its own runs only. -/
theorem settled_step (history : PoolHistory α) (event : PoolEvent α) {ticket : Nat}
    (foreign : ∀ number work runEnd job, event = .finish number work runEnd →
      history.pool.activity number = .running job → ticket ≠ job.work.ticket) :
    (ticket ∈ (history.step event).completedTickets ↔ ticket ∈ history.completedTickets) ∧
      (ticket ∈ (history.step event).failedTickets ↔ ticket ∈ history.failedTickets) := by
  cases event with
  | finish number work runEnd =>
      rw [step]
      cases activity : history.pool.activity number with
      | running job =>
          have other := foreign number work runEnd job rfl activity
          simp only [mem_completedTickets_finish activity, mem_failedTickets_finish activity, other,
            false_and, or_false, and_self]
      | idle | yielding job =>
          refine settled_of_records_eq ?_ ticket
          rw [finish, activity]
  | dequeue number =>
      simp only [completedTickets, failedTickets, JobLedger.completed, JobLedger.failed, ledger,
        step, dequeue, List.filterMap_append]
      cases history.pool.taken? (history.pool.dequeue number) number <;>
        simp [RunRecord.completed?, RunRecord.failed?]
  | submit | requeue | removeJobs | block | unblock | withdraw | stop =>
      refine settled_of_records_eq ?_ ticket
      simp only [step, records_submit, removeJobs]

theorem submitted_prefix_step (history : PoolHistory α) (event : PoolEvent α) :
    history.submitted <+: (history.step event).submitted := by
  cases event with
  | submit job => exact List.prefix_append _ _
  | finish number work runEnd =>
      rw [step, finish]
      split <;> exact List.prefix_refl _
  | dequeue | requeue | removeJobs | block | unblock | withdraw | stop =>
      exact List.prefix_refl _

end PoolHistory

end ColumnScan
