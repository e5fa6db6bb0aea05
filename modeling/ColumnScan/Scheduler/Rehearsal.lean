import ColumnScan.Error
import ColumnScan.Scheduler.Pool

/-!
# Rehearsing a pool

A rehearsal runs a pool one event at a time, so that its course does not depend on timing. Its jobs
do nothing but hold their worker until they are released, and a script says how each of their runs
ends. After every event the pool settles: every idle worker looks at the queue once, those of the
baseline first.
-/

set_option autoImplicit false

namespace ColumnScan

/-- How a run of a rehearsed job ends. -/
inductive Cue where
  | complete
  | reschedule
  | fail
  | abandon
  | abandonFixed
  | abandonSilent
deriving DecidableEq

namespace Cue

def runEnd (cue : Cue) (label : Nat) : RunEnd :=
  match cue with
  | .complete => .finished .complete
  | .reschedule => .finished .reschedule
  | .fail => .failed (ScanError.internal s!"job {label}").message
  | .abandon => .failed s!"boom {label}"
  | .abandonFixed => .failed "static boom"
  | .abandonSilent => .failed abandonedRunMessage

end Cue

/-- The work of a rehearsed job. -/
structure Part where
  label : Nat
  /-- How its coming runs end; a run beyond the script completes. -/
  script : List Cue
deriving DecidableEq

/-- What the release of a job led to. -/
inductive Release where
  | notRunning
  | finished (status : JobStatus)
  | failed (failure : JobFailure)
deriving DecidableEq

namespace Pool

def settle {α : Type} (pool : Pool α) : Pool α :=
  let idle := pool.workers.filter fun worker => worker.activity matches .idle
  let extra := idle.filter (·.role = .extra)
  let baseline := idle.filter (·.role ≠ .extra)
  ((baseline ++ extra).map Worker.number).foldl dequeue pool

def labels (pool : Pool Part) : List Nat := pool.runningJobs.map fun (_, job) => job.work.label

/-- Let the pool settle. Also returns the labels of the jobs that were started, in ascending
order. -/
def settleStarting (pool : Pool Part) : List Nat × Pool Part :=
  let settled := pool.settle
  let started := settled.labels.filter fun label => !pool.labels.contains label
  (started.mergeSort, settled)

/-- End the run of the job with a label as its script says. A job that asks for it is queued
again. -/
def endRun (pool : Pool Part) (label : Nat) : Release × Pool Part :=
  match pool.runningJobs.find? fun (_, job) => job.work.label == label with
  | none => (.notRunning, pool)
  | some (number, job) =>
      let runEnd := (job.work.script.headD .complete).runEnd label
      let pool := pool.finish number { job.work with script := job.work.script.drop 1 } runEnd
      match runEnd with
      | .finished status => (.finished status, pool.requeue number)
      | .failed message => (.failed (job.failure message), pool)

/-- Release the job with a label and let the pool settle. A job that was queued again and taken at
once counts as started. -/
def release (pool : Pool Part) (label : Nat) : Release × List Nat × Pool Part :=
  let (outcome, pool) := pool.endRun label
  match outcome with
  | .notRunning => (outcome, [], pool)
  | .finished _ | .failed _ =>
      let (started, pool) := pool.settleStarting
      (outcome, started, pool)

/-- Release the running job with the least label, up to `limit` times. -/
def drain : Nat → Pool Part → List (Nat × Release × List Nat) × Pool Part
  | 0, pool => ([], pool)
  | limit + 1, pool =>
      match pool.labels.min? with
      | none => ([], pool)
      | some label =>
          let (outcome, started, pool) := pool.release label
          let (rest, pool) := drain limit pool
          ((label, outcome, started) :: rest, pool)

end Pool

end ColumnScan
