/-!
# Jobs

A job belongs to a transaction, which is the unit of fairness. Its weight is what the transaction is
charged when the job is taken, and its key names it when queued jobs are cancelled. Jobs of every
priority share one queue; priorities only size the sets of workers.
-/

set_option autoImplicit false

namespace ColumnScan

/-- A class of workers. -/
inductive Priority where
  | low
  | medium
  | high
deriving DecidableEq

namespace Priority

def code : Priority → UInt8
  | .low => 0
  | .medium => 1
  | .high => 2

def ofCode? : UInt8 → Option Priority
  | 0 => some .low
  | 1 => some .medium
  | 2 => some .high
  | _ => none

def name : Priority → String
  | .low => "Low"
  | .medium => "Medium"
  | .high => "High"

/-- Every priority, the highest first. -/
def descending : List Priority := [.high, .medium, .low]

end Priority

/-- How a run of a job ends when it does not fail. -/
inductive JobStatus where
  | complete
  /-- The job could not go on and wants to be queued again. -/
  | reschedule
deriving DecidableEq

def JobStatus.name : JobStatus → String
  | .complete => "Complete"
  | .reschedule => "Reschedule"

/-- A unit of work of type `α`. -/
structure Job (α : Type) where
  transaction : Nat
  work : α
  weight : Nat := 1
  key : Nat := 0
  uniqueId : Nat := 0
  stepId : Nat := 0
  priority : Priority := .medium
  /-- Whether somebody waits for a report if the job fails. -/
  reports : Bool := true
deriving DecidableEq

/-- The report of a failed job. -/
structure JobFailure where
  uniqueId : Nat
  stepId : Nat
  message : String
deriving DecidableEq

/-- The report of a job that failed with the given message. -/
def Job.failure {α : Type} (job : Job α) (message : String) : JobFailure where
  uniqueId := job.uniqueId
  stepId := job.stepId
  message

end ColumnScan
