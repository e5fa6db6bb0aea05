import ColumnScan.Job.ScanStep

/-!
# A workload served by one worker

Several steps share a queue, a source of blocks and a reader that keeps up with the results. One
worker takes the jobs in the order of the queue and runs each to its end; a job that fails is
reported and the worker goes on with the next one.
-/

set_option autoImplicit false

namespace ColumnScan

/-- The tasks of a job, with the position of the command that they are for. -/
structure CommandTasks where
  command : Nat
  tasks : List BlockTask
deriving DecidableEq

/-- Steps in progress over a source with states of type `σ`. -/
structure Workload (σ : Type) where
  state : σ
  commands : List ActiveCommand := []
  queue : WeightedQueue CommandTasks := {}
  results : List StepOutput := []
  /-- The failures in the order in which they were reported. -/
  failures : List JobFailure := []

namespace Workload

variable {σ : Type}

/-- Add a command and queue the jobs of a step for it. Also returns the number of jobs. -/
def submit (workload : Workload σ) (command : ColumnCommand) (step : ScanStep)
    (tasks : List BlockTask) : Nat × Workload σ :=
  let jobs := step.jobs (CommandTasks.mk workload.commands.length) tasks
  (jobs.length,
    { workload with
      commands := workload.commands ++ [{ command }]
      queue := jobs.foldl WeightedQueue.push workload.queue })

/-- Cancel the queued jobs with a key. Also returns how many there were. -/
def removeJobs (workload : Workload σ) (key : Nat) : Nat × Workload σ :=
  let (removed, queue) := workload.queue.remove key
  (removed, { workload with queue })

def runJob (source : BlockSource σ) (workload : Workload σ) (job : Job CommandTasks) :
    Workload σ :=
  match workload.commands[job.work.command]? with
  | none => workload
  | some active =>
      let session : JobSession (ActiveCommand × σ) BlockTask StepOutput :=
        { job := { tasks := job.work.tasks }, channel := {}, state := (active, workload.state) }
      let (outcome, results, session) :=
        session.finishTasks (ActiveCommand.executeTask source) job.work.tasks
      let failures := match outcome with
        | .failed error => [job.failure error.message]
        | .finished _ | .waiting => []
      { workload with
        state := session.state.2
        commands := workload.commands.set job.work.command session.state.1
        results := workload.results ++ results
        failures := workload.failures ++ failures }

/-- Serve up to `limit` jobs. -/
def serve (source : BlockSource σ) : Nat → Workload σ → Workload σ
  | 0, workload => workload
  | limit + 1, workload =>
      match workload.queue.pop with
      | (none, queue) => { workload with queue }
      | (some job, queue) => serve source limit (runJob source { workload with queue } job)

def serveAll (source : BlockSource σ) (workload : Workload σ) : Workload σ :=
  serve source workload.queue.pending workload

end Workload

end ColumnScan
