import ColumnScan.Scheduler.WeightedQueue

/-!
# The worker pool

Workers take jobs from one weighted queue. Each change of the pool is one atomic step: a job is
queued, a worker looks at the queue, a run of a job ends, a job that asked for it is queued again,
jobs are cancelled, a worker starts or stops waiting for a slow reader, a worker could not be started
after all, the pool is stopped. Any sequence of these steps is a possible history.

The pool keeps a configured number of workers of each class. A worker whose job fails is gone; the
next job that is queued replaces it. Queueing a job also starts one extra worker while more workers
are blocked than there are extra ones, and tells the extra workers to leave once none is blocked.
-/

set_option autoImplicit false

namespace ColumnScan

/-- A number of workers for each class. -/
structure WorkerCounts where
  high : Nat := 0
  medium : Nat := 0
  low : Nat := 0
deriving DecidableEq

namespace WorkerCounts

def get (counts : WorkerCounts) : Priority → Nat
  | .high => counts.high
  | .medium => counts.medium
  | .low => counts.low

def modify (counts : WorkerCounts) (priority : Priority) (change : Nat → Nat) : WorkerCounts :=
  match priority with
  | .high => { counts with high := change counts.high }
  | .medium => { counts with medium := change counts.medium }
  | .low => { counts with low := change counts.low }

def total (counts : WorkerCounts) : Nat := counts.high + counts.medium + counts.low

end WorkerCounts

/-- What a worker was started for. -/
inductive WorkerRole where
  | baseline (priority : Priority)
  | extra
deriving DecidableEq

/-- What a worker is doing. -/
inductive WorkerActivity (α : Type) where
  | idle
  | running (job : Job α)
  /-- The job asked to be queued again, which has not happened yet. -/
  | yielding (job : Job α)
deriving DecidableEq

/-- A worker of a pool. -/
structure Worker (α : Type) where
  number : Nat
  role : WorkerRole
  activity : WorkerActivity α := .idle
deriving DecidableEq

/-- How a run of a job ends. -/
inductive RunEnd where
  | finished (status : JobStatus)
  | failed (message : String)
deriving DecidableEq

/-- The message of a run that was abandoned with a value that is no text. -/
def abandonedRunMessage : String := "job panicked"

/-- A pool of workers with jobs of type `α`. -/
structure Pool (α : Type) where
  size : WorkerCounts
  /-- The number of live workers, as the pool counts them. -/
  live : WorkerCounts := {}
  /-- The number of live extra workers, as the pool counts them. -/
  extra : Nat := 0
  stopExtra : Bool := true
  stopped : Bool := false
  blocked : Nat := 0
  queue : WeightedQueue α := {}
  workers : List (Worker α) := []
  nextWorker : Nat := 0
  /-- The reports of failed jobs, the oldest first. -/
  failures : List JobFailure := []
deriving DecidableEq

namespace Pool

variable {α : Type}

def spawn (pool : Pool α) (role : WorkerRole) : Pool α :=
  let worker : Worker α := { number := pool.nextWorker, role }
  let pool :=
    { pool with workers := pool.workers ++ [worker], nextWorker := pool.nextWorker + 1 }
  match role with
  | .baseline priority => { pool with live := pool.live.modify priority (· + 1) }
  | .extra => { pool with extra := pool.extra + 1 }

def restore (pool : Pool α) (priority : Priority) : Pool α :=
  (List.range (pool.size.get priority - pool.live.get priority)).foldl
    (fun pool _ => pool.spawn (.baseline priority)) pool

def restoreAll (pool : Pool α) : Pool α := Priority.descending.foldl restore pool

def start (size : WorkerCounts) : Pool α := restoreAll { size }

/-- Start an extra worker for a blocked one, or tell the extra workers to leave. -/
def balanceExtra (pool : Pool α) : Pool α :=
  if pool.extra < pool.blocked then { pool with stopExtra := false }.spawn .extra
  else if pool.blocked = 0 then { pool with stopExtra := true }
  else pool

def submit (pool : Pool α) (job : Job α) : Pool α :=
  let pool := pool.restoreAll.balanceExtra
  { pool with queue := pool.queue.push job }

def setActivity (pool : Pool α) (number : Nat) (activity : WorkerActivity α) : Pool α :=
  { pool with
    workers := pool.workers.map fun worker =>
      if worker.number = number then { worker with activity } else worker }

def dismiss (pool : Pool α) (number : Nat) : Pool α :=
  { pool with workers := pool.workers.filter (·.number != number) }

def countOut (pool : Pool α) : WorkerRole → Pool α
  | .baseline priority => { pool with live := pool.live.modify priority (· - 1) }
  | .extra => { pool with extra := pool.extra - 1 }

def worker? (pool : Pool α) (number : Nat) : Option (Worker α) :=
  pool.workers.find? (·.number == number)

/-- What the worker with a number is doing; a worker that is gone is idle for good. -/
def activity (pool : Pool α) (number : Nat) : WorkerActivity α :=
  ((pool.worker? number).map Worker.activity).getD .idle

/-- An idle worker looks at the queue: it leaves if the pool is stopped, or if it is an extra worker
that is not needed any more; otherwise it takes the next job if there is one. Workers of a stopped
pool are not taken out of the counts. -/
def dequeue (pool : Pool α) (number : Nat) : Pool α :=
  match pool.worker? number with
  | some { role, activity := .idle, .. } =>
      if pool.stopped then
        pool.dismiss number
      else if role = .extra ∧ pool.stopExtra ∧ pool.queue.isEmpty then
        (pool.countOut role).dismiss number
      else
        match pool.queue.pop with
        | (none, queue) => { pool with queue }
        | (some job, queue) => { pool with queue }.setActivity number (.running job)
  | _ => pool

/-- A run of a worker's job ends and leaves `work` to do. A worker whose job fails is gone, and the
failure is reported if somebody waits for it. -/
def finish (pool : Pool α) (number : Nat) (work : α) (runEnd : RunEnd) : Pool α :=
  match pool.worker? number with
  | some { role, activity := .running job, .. } =>
      match runEnd with
      | .finished .complete => pool.setActivity number .idle
      | .finished .reschedule => pool.setActivity number (.yielding { job with work })
      | .failed message =>
          let pool := (pool.countOut role).dismiss number
          if job.reports then { pool with failures := pool.failures ++ [job.failure message] }
          else pool
  | _ => pool

def requeue (pool : Pool α) (number : Nat) : Pool α :=
  match pool.activity number with
  | .yielding job => (pool.submit job).setActivity number .idle
  | .idle | .running _ => pool

/-- A worker that holds no job turns out not to have been started. -/
def withdraw (pool : Pool α) (number : Nat) : Pool α :=
  match pool.worker? number with
  | some { role, activity := .idle, .. } => (pool.countOut role).dismiss number
  | _ => pool

/-- Cancel queued jobs by their key. Also returns how many there were. -/
def removeJobs (pool : Pool α) (key : Nat) : Nat × Pool α :=
  let (removed, queue) := pool.queue.remove key
  (removed, { pool with queue })

def block (pool : Pool α) : Pool α := { pool with blocked := pool.blocked + 1 }

/-- A worker stops waiting. An unmatched call leaves the count at zero. -/
def unblock (pool : Pool α) : Pool α := { pool with blocked := pool.blocked - 1 }

/-- Let no worker take another job. Queued jobs stay queued. -/
def stop (pool : Pool α) : Pool α := { pool with stopped := true }

/-- The jobs that are being run, with the numbers of their workers. -/
def runningJobs (pool : Pool α) : List (Nat × Job α) :=
  pool.workers.filterMap fun worker => match worker.activity with
    | .running job => some (worker.number, job)
    | .idle | .yielding _ => none

def dump (pool : Pool α) : String :=
  let pending := pool.queue.pending
  let transactions := pool.queue.transactions.length
  let places := pool.queue.schedule.length
  let threads := s!"[{pool.live.low}, {pool.live.medium}, {pool.live.high}]"
  s!"[POOL] pending={pending} txns={transactions} heap_entries={places} threads={threads} " ++
    s!"extra={pool.extra} stop_extra={pool.stopExtra} blocked={pool.blocked}"

end Pool

end ColumnScan
