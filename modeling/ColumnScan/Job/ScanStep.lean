import ColumnScan.Command.ColumnCommand
import ColumnScan.Job.ScanJob
import ColumnScan.Scheduler.WeightedQueue

/-!
# Scan steps

A step applies one command to a list of logical blocks. It is split over a few jobs: the tasks are
dealt out in turn, so that every job gets its share of the blocks in their order.
-/

set_option autoImplicit false

namespace ColumnScan

/-- One logical block to work on, with the rows that are left of it. -/
structure BlockTask where
  block : BlockRef
  input : Option StepInput := none
deriving DecidableEq

def ActiveCommand.executeTask {σ : Type} (source : BlockSource σ) (task : BlockTask)
    (active : ActiveCommand × σ) : Except ScanError StepOutput × ActiveCommand × σ :=
  active.1.execute source active.2 task.block task.input

/-- How the jobs of a step are queued. -/
structure ScanStep where
  transaction : Nat
  uniqueId : Nat := 0
  stepId : Nat := 0
  priority : Priority := .medium
  weight : Nat := 1
  backpressure : Backpressure := .block
  /-- The most jobs that the step is split over; at least one is used. -/
  jobLimit : Nat := 1
deriving DecidableEq

namespace ScanStep

/-- The tasks dealt to one of `hands`: every one whose position leaves that remainder. -/
def hand {τ : Type} (tasks : List τ) (hands index : Nat) : List τ :=
  (tasks.zipIdx.filter fun (_, position) => position % hands == index).map Prod.fst

def jobCount {τ : Type} (step : ScanStep) (tasks : List τ) : Nat :=
  min (max step.jobLimit 1) tasks.length

def split {τ : Type} (step : ScanStep) (tasks : List τ) : List (List τ) :=
  let hands := step.jobCount tasks
  (List.range hands).map (hand tasks hands)

/-- The jobs of a step; `work` makes the work of a job from its tasks. -/
def jobs {τ α : Type} (step : ScanStep) (work : List τ → α) (tasks : List τ) : List (Job α) :=
  (step.split tasks).map fun tasks =>
    { transaction := step.transaction
      work := work tasks
      weight := step.weight
      key := step.stepId
      uniqueId := step.uniqueId
      stepId := step.stepId
      priority := step.priority }

end ScanStep

end ColumnScan
