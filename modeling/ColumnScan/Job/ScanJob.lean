import ColumnScan.Error
import ColumnScan.Job.Channel
import ColumnScan.Scheduler.Job

/-!
# Jobs that work through a list of tasks

A `ScanJob` executes its tasks in order and sends every result to a channel. One run goes on until
the tasks are done, a task fails, or the channel has no room. In the last case the job either holds
the result back and asks to be queued again, or waits in the send; waiting workers are counted as
blocked. A task is taken before it is executed, so a task that fails is not tried again. When the
reader is gone, the job gives up what is left.
-/

set_option autoImplicit false

namespace ColumnScan

/-- What a job does when the channel has no room. -/
inductive Backpressure where
  | block
  | reschedule
deriving DecidableEq

/-- A job over tasks of type `τ` with results of type `β`. -/
structure ScanJob (τ β : Type) where
  tasks : List τ
  backpressure : Backpressure := .block
  /-- A result that did not fit into the channel on the last run. -/
  held : Option β := none
  offered : Option β := none
deriving DecidableEq

/-- The tasks that were not taken and the result that is held back. -/
def ScanJob.remaining {τ β : Type} (job : ScanJob τ β) : Nat :=
  job.tasks.length + if job.held.isSome then 1 else 0

/-- A job with its channel, the state that its tasks work on, and the count of blocked workers. -/
structure JobSession (σ τ β : Type) where
  job : ScanJob τ β
  channel : Channel β
  state : σ
  blocked : Nat := 0

/-- Where a run has come to. -/
inductive RunOutcome where
  | finished (status : JobStatus)
  | failed (error : ScanError)
  | waiting
deriving DecidableEq

namespace JobSession

variable {σ τ β : Type}

def abandon (session : JobSession σ τ β) : JobSession σ τ β :=
  { session with job := { session.job with tasks := [], held := none, offered := none } }

/-- Try to send a result. Answers where the run has come to, or nothing if it goes on. -/
def deliver (session : JobSession σ τ β) (result : β) :
    Option RunOutcome × JobSession σ τ β :=
  match session.channel.trySend result with
  | (.sent, channel) => (none, { session with channel })
  | (.closed, _) => (some (.finished .complete), session.abandon)
  | (.full, _) =>
      match session.job.backpressure with
      | .reschedule =>
          (some (.finished .reschedule),
            { session with job := { session.job with held := some result } })
      | .block =>
          (some .waiting,
            { session with
              job := { session.job with offered := some result }
              blocked := session.blocked + 1 })

def runTasks (execute : τ → σ → Except ScanError β × σ) :
    List τ → JobSession σ τ β → RunOutcome × JobSession σ τ β
  | [], session => (.finished .complete, { session with job := { session.job with tasks := [] } })
  | task :: rest, session =>
      match execute task session.state with
      | (.error error, state) =>
          (.failed error, { session with state, job := { session.job with tasks := rest } })
      | (.ok result, state) =>
          let session := { session with state, job := { session.job with tasks := rest } }
          match session.deliver result with
          | (some outcome, session) => (outcome, session)
          | (none, session) => runTasks execute rest session

def continueWith (execute : τ → σ → Except ScanError β × σ) (session : JobSession σ τ β)
    (result : β) : RunOutcome × JobSession σ τ β :=
  match session.deliver result with
  | (some outcome, session) => (outcome, session)
  | (none, session) => runTasks execute session.job.tasks session

/-- One run of the job. A result that was held back comes first. A job that is still waiting goes on
waiting. -/
def run (execute : τ → σ → Except ScanError β × σ) (session : JobSession σ τ β) :
    RunOutcome × JobSession σ τ β :=
  match session.job.offered, session.job.held with
  | some _, _ => (.waiting, session)
  | none, some result =>
      continueWith execute { session with job := { session.job with held := none } } result
  | none, none => runTasks execute session.job.tasks session

/-- The wait of a job ends when there is room or the reader is gone. -/
def resume (execute : τ → σ → Except ScanError β × σ) (session : JobSession σ τ β) :
    RunOutcome × JobSession σ τ β :=
  match session.job.offered with
  | none => session.run execute
  | some result =>
      continueWith execute
        { session with
          job := { session.job with offered := none }
          blocked := session.blocked - 1 }
        result

/-- The reader receives a result. From a channel that keeps nothing it takes the result that the job
is waiting to send. -/
def receive (session : JobSession σ τ β) : Option β × JobSession σ τ β :=
  match session.channel.receive with
  | (some result, channel) => (some result, { session with channel })
  | (none, channel) =>
      match session.job.offered with
      | none => (none, { session with channel })
      | some result =>
          (some result,
            { session with
              channel
              job := { session.job with offered := none }
              blocked := session.blocked - 1 })

def close (session : JobSession σ τ β) : JobSession σ τ β :=
  { session with channel := session.channel.close }

/-- Execute tasks for a reader that takes every result at once, until the tasks are done or one
fails. -/
def finishTasks (execute : τ → σ → Except ScanError β × σ) :
    List τ → JobSession σ τ β → RunOutcome × List β × JobSession σ τ β
  | [], session =>
      (.finished .complete, [], { session with job := { session.job with tasks := [] } })
  | task :: rest, session =>
      match execute task session.state with
      | (.error error, state) =>
          (.failed error, [], { session with state, job := { session.job with tasks := rest } })
      | (.ok result, state) =>
          let session := { session with state, job := { session.job with tasks := rest } }
          let (outcome, results, session) := finishTasks execute rest session
          (outcome, result :: results, session)

/-- Run the job beside a reader that waits until the job waits or ends, and then takes every result
until the run has ended. Answers whether the job had to wait, how the run ended, and all that the
reader took. -/
def runDrained (execute : τ → σ → Except ScanError β × σ) (session : JobSession σ τ β) :
    Bool × RunOutcome × List β × JobSession σ τ β :=
  let (outcome, session) := session.run execute
  let queued := session.channel.queued
  let offered := session.job.offered
  let waited := outcome = .waiting
  let drained :=
    { session with
      channel := { session.channel with queued := [] }
      job := { session.job with offered := none }
      blocked := if waited then session.blocked - 1 else session.blocked }
  if waited then
    let (outcome, results, session) := drained.finishTasks execute drained.job.tasks
    (true, outcome, queued ++ offered.toList ++ results, session)
  else
    (false, outcome, queued, drained)

/-- Run the job beside a reader that waits until the job waits or ends, and then goes away. Answers
whether the job had to wait and how the run ended. -/
def runClosed (execute : τ → σ → Except ScanError β × σ) (session : JobSession σ τ β) :
    Bool × RunOutcome × JobSession σ τ β :=
  let (outcome, session) := session.run execute
  let session := session.close
  if outcome = .waiting then
    let (outcome, session) := session.resume execute
    (true, outcome, session)
  else
    (false, outcome, session)

end JobSession

end ColumnScan
