import ColumnScan.Scheduler.Job

/-!
# The weighted queue

Every transaction with queued jobs has a list of them, oldest first, and one place in the schedule.
The schedule is ordered by the weight that a transaction has been charged so far; the next job is
the oldest one of the transaction in the first place. A transaction that enters gets the weight of
the first place, so that it neither overtakes the others nor starts behind them.

Cancelling jobs does not touch the schedule. A place whose transaction has no jobs any more, or has
left and entered again, is stale: it is recognised by its generation and dropped when it comes
first. Until then it still counts for the weight at which a transaction enters.
-/

set_option autoImplicit false

namespace ColumnScan

/-- A place in the schedule. -/
structure SchedulePlace where
  weight : Nat
  transaction : Nat
  generation : Nat
deriving DecidableEq

namespace SchedulePlace

/-- The order of the schedule: by weight, then by transaction, then by generation. -/
def precedes (left right : SchedulePlace) : Bool :=
  decide (left.weight < right.weight) ||
    (left.weight == right.weight &&
      (decide (left.transaction < right.transaction) ||
        (left.transaction == right.transaction && decide (left.generation ≤ right.generation))))

def insert (place : SchedulePlace) : List SchedulePlace → List SchedulePlace
  | [] => [place]
  | other :: rest =>
      if place.precedes other then place :: other :: rest else other :: insert place rest

end SchedulePlace

/-- The queued jobs of a transaction since it last entered. -/
structure TransactionJobs (α : Type) where
  transaction : Nat
  generation : Nat
  /-- The jobs, oldest first. -/
  jobs : List (Job α)
deriving DecidableEq

/-- Jobs waiting to be taken. -/
structure WeightedQueue (α : Type) where
  transactions : List (TransactionJobs α) := []
  /-- The places of the schedule in their order, stale ones included. -/
  schedule : List SchedulePlace := []
  nextGeneration : Nat := 0
  pending : Nat := 0
deriving DecidableEq

namespace WeightedQueue

variable {α : Type}

def isEmpty (queue : WeightedQueue α) : Bool := queue.pending == 0

/-- The jobs of a transaction, if it has any. -/
def find? (queue : WeightedQueue α) (transaction : Nat) : Option (TransactionJobs α) :=
  queue.transactions.find? (·.transaction == transaction)

def entryWeight (queue : WeightedQueue α) : Nat :=
  (queue.schedule.head?.map SchedulePlace.weight).getD 0

def push (queue : WeightedQueue α) (job : Job α) : WeightedQueue α :=
  match queue.find? job.transaction with
  | some _ =>
      { queue with
        pending := queue.pending + 1
        transactions := queue.transactions.map fun entry =>
          if entry.transaction = job.transaction then { entry with jobs := entry.jobs ++ [job] }
          else entry }
  | none =>
      let place : SchedulePlace :=
        { weight := queue.entryWeight
          transaction := job.transaction
          generation := queue.nextGeneration }
      { pending := queue.pending + 1
        nextGeneration := queue.nextGeneration + 1
        schedule := place.insert queue.schedule
        transactions := queue.transactions ++
          [{ transaction := job.transaction, generation := queue.nextGeneration, jobs := [job] }] }

/-- The oldest job that a place of the schedule stands for, with the younger ones. A stale place
stands for none. -/
def jobsAt (queue : WeightedQueue α) (place : SchedulePlace) : Option (Job α × List (Job α)) :=
  match queue.find? place.transaction with
  | none => none
  | some entry =>
      if entry.generation = place.generation then
        match entry.jobs with
        -- Not reached: a transaction that is listed has a job, as it leaves with its last one. If it
        -- had none, `pop` would have to remove it.
        | [] => none
        | job :: rest => some (job, rest)
      else
        none

def isLive (queue : WeightedQueue α) (place : SchedulePlace) : Bool := (queue.jobsAt place).isSome

/-- The queue after the oldest job of a transaction was taken. -/
def afterTaking (queue : WeightedQueue α) (place : SchedulePlace) (job : Job α)
    (younger : List (Job α)) (later : List SchedulePlace) : WeightedQueue α :=
  if younger.isEmpty then
    { queue with
      pending := queue.pending - 1
      schedule := later
      transactions := queue.transactions.filter (·.transaction != place.transaction) }
  else
    { queue with
      pending := queue.pending - 1
      schedule := { place with weight := place.weight + job.weight }.insert later
      transactions := queue.transactions.map fun entry =>
        if entry.transaction = place.transaction then { entry with jobs := younger } else entry }

/-- Take the next job. The transaction is charged for it if it has more, and leaves otherwise. Stale
places in front of it are dropped, and all of them if there is no job. -/
def pop (queue : WeightedQueue α) : Option (Job α) × WeightedQueue α :=
  go queue.schedule
where
  go : List SchedulePlace → Option (Job α) × WeightedQueue α
    | [] => (none, { queue with schedule := [] })
    | place :: later =>
        match queue.jobsAt place with
        | some (job, younger) => (some job, queue.afterTaking place job younger later)
        | none => go later

/-- All queued jobs, those of one transaction together and in their order. -/
def jobs (queue : WeightedQueue α) : List (Job α) :=
  queue.transactions.flatMap TransactionJobs.jobs

/-- Cancel the queued jobs with a key. Also returns how many there were. -/
def remove (queue : WeightedQueue α) (key : Nat) : Nat × WeightedQueue α :=
  let removed := queue.jobs.countP (·.key == key)
  let kept := queue.transactions.map fun entry =>
    { entry with jobs := entry.jobs.filter (·.key != key) }
  (removed,
    { queue with
      pending := queue.pending - removed
      transactions := kept.filter (!·.jobs.isEmpty) })

end WeightedQueue

end ColumnScan
