import ColumnScan.Proofs.Scheduler.JobLedger

/-!
# Histories of a pool

A history lets a pool go through any sequence of its steps and keeps the ledger of the jobs that
were submitted. A job gets its ticket when it is submitted; what its runs do to the rest of its work
is arbitrary.
-/

set_option autoImplicit false

namespace ColumnScan

/-- The work of a job that has a ticket. -/
structure Ticketed (α : Type) where
  ticket : Nat
  work : α

inductive PoolEvent (α : Type) where
  | submit (job : Job α)
  | dequeue (number : Nat)
  | finish (number : Nat) (work : α) (runEnd : RunEnd)
  | requeue (number : Nat)
  | removeJobs (key : Nat)
  | block
  | unblock
  | withdraw (number : Nat)
  | stop

variable {α : Type}

/-- A job with its ticket in the place of its work. -/
def Job.ticketed (job : Job (Ticketed α)) : Job Nat := { job with work := job.work.ticket }

theorem RunEnd.map_again (runEnd : RunEnd) (job : Job (Ticketed α)) :
    (runEnd.again job).map Job.ticketed = runEnd.again job.ticketed := by
  cases runEnd with
  | finished status => cases status <;> rfl
  | failed message => rfl

structure PoolHistory (α : Type) where
  pool : Pool (Ticketed α)
  submitted : List (Job Nat) := []
  removed : List (Job Nat) := []
  records : List RunRecord := []

namespace PoolHistory

def submit (history : PoolHistory α) (job : Job α) : PoolHistory α :=
  let job : Job (Ticketed α) := { job with work := ⟨history.submitted.length, job.work⟩ }
  { history with
    pool := history.pool.submit job
    submitted := history.submitted ++ [job.ticketed] }

def dequeue (history : PoolHistory α) (number : Nat) : PoolHistory α :=
  let pool := history.pool.dequeue number
  let started := (history.pool.taken? pool number).map fun job => RunRecord.started job.ticketed
  { history with pool, records := history.records ++ started.toList }

/-- A run ends. A worker that runs no job cannot end a run. -/
def finish (history : PoolHistory α) (number : Nat) (work : α) (runEnd : RunEnd) : PoolHistory α :=
  match history.pool.activity number with
  | .running job =>
      { history with
        pool := history.pool.finish number { job.work with work } runEnd
        records := history.records ++ [.ended job.ticketed runEnd] }
  | .idle | .yielding _ => history

def removeJobs (history : PoolHistory α) (key : Nat) : PoolHistory α :=
  let gone := history.pool.queue.jobs.filter (·.key == key)
  { history with
    pool := (history.pool.removeJobs key).2
    removed := history.removed ++ gone.map Job.ticketed }

def step (history : PoolHistory α) : PoolEvent α → PoolHistory α
  | .submit job => history.submit job
  | .dequeue number => history.dequeue number
  | .finish number work runEnd => history.finish number work runEnd
  | .requeue number => { history with pool := history.pool.requeue number }
  | .removeJobs key => history.removeJobs key
  | .block => { history with pool := history.pool.block }
  | .unblock => { history with pool := history.pool.unblock }
  | .withdraw number => { history with pool := history.pool.withdraw number }
  | .stop => { history with pool := history.pool.stop }

/-- What became of a pool that was started with some workers. -/
def run (size : WorkerCounts) (events : List (PoolEvent α)) : PoolHistory α :=
  events.foldl step { pool := .start size }

def ledger (history : PoolHistory α) : JobLedger where
  submitted := history.submitted
  queued := history.pool.view.queued.map Job.ticketed
  running := history.pool.view.running.map Job.ticketed
  yielding := history.pool.view.yielding.map Job.ticketed
  removed := history.removed
  records := history.records
  failures := history.pool.view.failures

def started (history : PoolHistory α) : List (Job Nat) :=
  history.records.filterMap RunRecord.started?

structure Sound (history : PoolHistory α) : Prop where
  pool : history.pool.Sound
  accounted : history.ledger.Accounted

theorem sound_new {pool : Pool (Ticketed α)} (sound : pool.Sound) (empty : pool.view = {}) :
    ({ pool } : PoolHistory α).Sound := by
  refine ⟨sound, ?_⟩
  rw [ledger, empty]
  exact JobLedger.accounted_empty

namespace Sound

variable {history : PoolHistory α} (sound : history.Sound)

include sound

theorem submit (job : Job α) : (history.submit job).Sound := by
  let job : Job (Ticketed α) := { job with work := ⟨history.submitted.length, job.work⟩ }
  obtain ⟨queued, arrived, view⟩ := Pool.view_submit sound.pool job
  have accounted := sound.accounted.submit rfl (arrived.map Job.ticketed)
  rw [PoolHistory.submit]
  refine ⟨Pool.sound_submit sound.pool job, ?_⟩
  rw [ledger, view]
  exact accounted

theorem dequeue (number : Nat) : (history.dequeue number).Sound := by
  refine ⟨Pool.sound_dequeue sound.pool number, ?_⟩
  obtain ⟨none, view⟩ | ⟨job, queued, running, some, _, left, arrived, view⟩ :=
    Pool.dequeue_cases sound.pool number
  · rw [ledger, PoolHistory.dequeue, view, none, Option.map_none, Option.toList_none,
      List.append_nil]
    exact sound.accounted
  · rw [ledger, PoolHistory.dequeue, view, some]
    exact sound.accounted.start (left.map Job.ticketed) (arrived.map Job.ticketed)

theorem finish (number : Nat) (work : α) (runEnd : RunEnd) :
    (history.finish number work runEnd).Sound := by
  unfold PoolHistory.finish
  split
  · next job busy =>
      refine ⟨Pool.sound_finish sound.pool number _ runEnd, ?_⟩
      obtain ⟨running, yielding, left, arrived, view⟩ :=
        Pool.view_finish sound.pool busy { job.work with work } runEnd
      have waiting := arrived.map Job.ticketed
      rw [List.map_append, RunEnd.map_again] at waiting
      rw [ledger, view]
      exact sound.accounted.finish (left.map Job.ticketed) waiting
  · exact sound
  · exact sound

theorem requeue (number : Nat) : (history.step (.requeue number)).Sound := by
  refine ⟨Pool.sound_requeue sound.pool number, ?_⟩
  obtain view | ⟨job, queued, yielding, left, arrived, view⟩ :=
    Pool.requeue_cases sound.pool number
  · rw [ledger, step, view]
    exact sound.accounted
  · rw [ledger, step, view]
    exact sound.accounted.requeue (left.map Job.ticketed) (arrived.map Job.ticketed)

theorem removeJobs (key : Nat) : (history.removeJobs key).Sound := by
  refine ⟨Pool.sound_removeJobs sound.pool key, ?_⟩
  have left := (WeightedQueue.remove_jobs_perm history.pool.queue key).map Job.ticketed
  rw [List.map_append] at left
  exact sound.accounted.remove left

theorem step (event : PoolEvent α) : (history.step event).Sound := by
  cases event with
  | submit job => exact sound.submit job
  | dequeue number => exact sound.dequeue number
  | finish number work runEnd => exact sound.finish number work runEnd
  | requeue number => exact sound.requeue number
  | removeJobs key => exact sound.removeJobs key
  | block => exact ⟨⟨sound.pool.queue, sound.pool.distinct, sound.pool.fresh⟩, sound.accounted⟩
  | unblock => exact ⟨⟨sound.pool.queue, sound.pool.distinct, sound.pool.fresh⟩, sound.accounted⟩
  | withdraw number =>
      refine ⟨Pool.sound_withdraw sound.pool number, ?_⟩
      rw [ledger, PoolHistory.step, Pool.view_withdraw sound.pool]
      exact sound.accounted
  | stop => exact ⟨⟨sound.pool.queue, sound.pool.distinct, sound.pool.fresh⟩, sound.accounted⟩

/-- A stopped pool stays stopped, and its workers start no job. -/
theorem started_step (stopped : history.pool.stopped = true) (event : PoolEvent α) :
    (history.step event).pool.stopped = true ∧ (history.step event).started = history.started := by
  cases event with
  | submit job =>
      obtain ⟨staffed, staffs, submitted⟩ := Pool.exists_staffs_submit history.pool
        { job with work := ⟨history.submitted.length, job.work⟩ }
      rw [PoolHistory.step, PoolHistory.submit, submitted]
      exact ⟨staffs.stopped.trans stopped, rfl⟩
  | dequeue number =>
      obtain ⟨none, view⟩ | ⟨_, _, _, _, live, _⟩ := Pool.dequeue_cases sound.pool number
      · refine ⟨(congrArg PoolView.stopped view).trans stopped, ?_⟩
        rw [started, PoolHistory.step, PoolHistory.dequeue, none, Option.map_none,
          Option.toList_none, List.append_nil, started]
      · rw [stopped] at live
        cases live
  | finish number work runEnd =>
      rw [PoolHistory.step, PoolHistory.finish]
      split
      · next job busy =>
          obtain ⟨_, _, _, _, view⟩ :=
            Pool.view_finish sound.pool busy { job.work with work } runEnd
          refine ⟨(congrArg PoolView.stopped view).trans stopped, ?_⟩
          rw [started, List.filterMap_append]
          exact List.append_nil _
      · exact ⟨stopped, rfl⟩
      · exact ⟨stopped, rfl⟩
  | requeue number =>
      obtain view | ⟨_, _, _, _, _, view⟩ := Pool.requeue_cases sound.pool number
      · exact ⟨(congrArg PoolView.stopped view).trans stopped, rfl⟩
      · exact ⟨(congrArg PoolView.stopped view).trans stopped, rfl⟩
  | withdraw number =>
      have view := Pool.view_withdraw sound.pool number
      exact ⟨(congrArg PoolView.stopped view).trans stopped, rfl⟩
  | removeJobs key => exact ⟨stopped, rfl⟩
  | block => exact ⟨stopped, rfl⟩
  | unblock => exact ⟨stopped, rfl⟩
  | stop => exact ⟨rfl, rfl⟩

theorem foldl (events : List (PoolEvent α)) : (events.foldl PoolHistory.step history).Sound := by
  induction events generalizing history with
  | nil => exact sound
  | cons event rest ih => exact ih (sound.step event)

theorem started_foldl (stopped : history.pool.stopped = true) (events : List (PoolEvent α)) :
    (events.foldl PoolHistory.step history).started = history.started := by
  induction events generalizing history with
  | nil => rfl
  | cons event rest ih =>
      obtain ⟨still, same⟩ := sound.started_step stopped event
      exact (ih (sound.step event) still).trans same

end Sound

theorem sound_run (size : WorkerCounts) (events : List (PoolEvent α)) : (run size events).Sound :=
  (sound_new (Pool.sound_start size) (Pool.view_start size)).foldl events

/-- After any events of a pool of any size: every submitted job has its own ticket and is in exactly
one place, queued, run by one worker, waiting to be queued again, completed, failed or removed; a
run starts only if it is the first of its job or the one before asked for another, and ends once; a
job that failed has no run after that, and leaves one report if somebody waits for it and none
otherwise; and once the pool is stopped no run starts, whatever comes later. -/
theorem run_conserves (size : WorkerCounts) (events : List (PoolEvent α)) :
    let history := run size events
    let ledger := history.ledger
    ledger.submitted.map Job.work = List.range ledger.submitted.length ∧
    ledger.submitted.Perm
      ((ledger.queued ++ (ledger.running ++ ledger.yielding)) ++
        (ledger.completed ++ (ledger.failed.map Prod.fst ++ ledger.removed))) ∧
    (history.pool.workers.map Worker.number).Nodup ∧
    (∀ before record after, ledger.records = before ++ record :: after →
      record.MayFollow before) ∧
    (∀ before job message after, ledger.records = before ++ .ended job (.failed message) :: after →
      ∀ record ∈ after, record.job.work ≠ job.work) ∧
    history.pool.failures = ledger.failed.flatMap (fun (job, message) =>
      if job.reports then [job.failure message] else []) ∧
    ∀ later, (run size (events ++ .stop :: later)).started = history.started := by
  intro history ledger
  have sound : history.Sound := sound_run size events
  have accounted := sound.accounted
  refine ⟨accounted.tickets, accounted.conserved, sound.pool.distinct, accounted.orderly, ?_,
    accounted.reported, ?_⟩
  · intro before job message after shape
    rw [← List.singleton_append, ← List.append_assoc] at shape
    exact accounted.orderly.other_of_failed shape RunRecord.latest?_append_self
  · intro later
    rw [run, List.foldl_append, List.foldl_cons]
    exact (sound.step .stop).started_foldl rfl later

/-- A job that is run twice and fails is reported, one that nobody waits for is not, and a stopped
pool leaves the last one queued. -/
theorem run_conserves_failing :
    let reported : Job Unit := { transaction := 1, work := (), uniqueId := 7, stepId := 3 }
    let silent : Job Unit := { transaction := 2, work := (), reports := false }
    let events : List (PoolEvent Unit) :=
      [.submit reported, .dequeue 0, .finish 0 () (.finished .reschedule), .requeue 0, .dequeue 0,
        .finish 0 () (.failed "late"), .submit silent, .dequeue 1, .finish 1 () (.failed "boom"),
        .submit silent]
    let history := run { medium := 1 } events
    history.ledger.submitted.map Job.work = [0, 1, 2] ∧
    history.ledger.failed.map (fun (job, message) => (job.work, message)) =
      [(0, "late"), (1, "boom")] ∧
    history.pool.failures = [{ uniqueId := 7, stepId := 3, message := "late" }] ∧
    history.started.map Job.work = [0, 0, 1] ∧
    ∀ later, (run { medium := 1 } (events ++ .stop :: later)).started = history.started := by
  intro reported silent events history
  obtain ⟨_, _, _, _, _, failures, stopped⟩ := run_conserves { medium := 1 } events
  refine ⟨by decide +kernel, by decide +kernel, ?_, by decide +kernel, stopped⟩
  exact failures.trans (by decide +kernel)

end PoolHistory

end ColumnScan
