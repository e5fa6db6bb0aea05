import ColumnScan.Proofs.Job.Turns
import ColumnScan.Proofs.Traces

/-!
# Histories of a job

A history lets a job be run again and again beside a reader that may receive between any two turns
of a run, meet the job in the middle of one, or go away. It keeps what became of every task that was
taken and what the reader has received.
-/

set_option autoImplicit false

namespace ColumnScan

/-- The end of a run, with what the job had come to by then. -/
structure EndedRun (τ β : Type) where
  outcome : RunOutcome
  executed : List (τ × Except ScanError β)
  held : Option β
  isOpen : Bool

namespace EndedRun

variable {τ β : Type}

def error? (run : EndedRun τ β) : Option ScanError :=
  match run.outcome with
  | .failed error => some error
  | .finished _ | .waiting => none

/-- A run completes when every task was taken and sent or the reader is gone, asks to be queued
again only by the policy and with a result in hand, and fails with the error of the task taken
last. -/
def Justified (run : EndedRun τ β) (given : List τ) (backpressure : Backpressure) : Prop :=
  match run.outcome with
  | .finished .complete =>
      run.isOpen = true → run.executed.map Prod.fst = given ∧ run.held = none
  | .finished .reschedule => backpressure = .reschedule ∧ run.held.isSome = true
  | .failed error => ∃ before task, run.executed = before ++ [(task, .error error)]
  | .waiting => False

end EndedRun

/-- What can happen next to a job and its reader. -/
inductive JobEvent (σ : Type) where
  | begin
  | turn
  /-- A turn of a job whose reader is waiting for a result. -/
  | meet
  | retry
  | receive
  | close
  /-- Somebody else changes the state that the tasks work on. -/
  | disturb (state : σ)

structure JobHistory (σ τ β : Type) where
  session : JobSession σ τ β
  inRun : Bool := false
  /-- The tasks that were taken, with what their execution gave. -/
  executed : List (τ × Except ScanError β) := []
  abandoned : List τ := []
  received : List β := []
  ended : List (EndedRun τ β) := []

namespace JobHistory

variable {σ τ β : Type} (execute : τ → σ → Except ScanError β × σ)

/-- The next task is taken unless a result is held back. -/
def taking (history : JobHistory σ τ β) : JobHistory σ τ β :=
  match history.session.job.held, history.session.job.tasks with
  | none, task :: rest =>
      let (result, state) := execute task history.session.state
      { history with
        session := history.session.taking rest state
        executed := history.executed ++ [(task, result)] }
  | some _, _ | none, [] => history

def finish (history : JobHistory σ τ β) (outcome : RunOutcome) : JobHistory σ τ β :=
  let run :=
    { outcome
      executed := history.executed
      held := history.session.job.held
      isOpen := history.session.channel.isOpen }
  { history with inRun := false, ended := history.ended ++ [run] }

/-- The session changes without a task being taken. If no task is left, the job has given up those
that were. -/
def moveTo (history : JobHistory σ τ β) (session : JobSession σ τ β) : JobHistory σ τ β :=
  let gone := if session.job.tasks.isEmpty then history.session.job.tasks else []
  { history with session, abandoned := gone ++ history.abandoned }

def follow (history : JobHistory σ τ β) (step : Option RunOutcome × JobSession σ τ β) :
    JobHistory σ τ β :=
  match step with
  | (none, session) | (some .waiting, session) => history.moveTo session
  | (some outcome, session) => (history.moveTo session).finish outcome

def turn (history : JobHistory σ τ β) : JobHistory σ τ β :=
  if history.inRun && history.session.job.offered.isNone then
    (history.taking execute).follow (history.session.turn execute)
  else
    history

def retry (history : JobHistory σ τ β) : JobHistory σ τ β :=
  if history.inRun then history.follow history.session.retry else history

def receive (history : JobHistory σ τ β) : JobHistory σ τ β :=
  if history.session.channel.isOpen then
    let (result, session) := history.session.receive
    { history with session, received := history.received ++ result.toList }
  else
    history

def withCapacity (history : JobHistory σ τ β) (capacity : Option Nat) : JobHistory σ τ β :=
  let channel := { history.session.channel with capacity }
  { history with session := { history.session with channel } }

/-- A reader that waits has room for a result even if the channel has none. -/
def meet (history : JobHistory σ τ β) : JobHistory σ τ β :=
  if history.session.channel.isOpen && history.session.channel.queued.isEmpty then
    (((history.withCapacity none).turn execute).receive).withCapacity
      history.session.channel.capacity
  else
    history

def step (history : JobHistory σ τ β) : JobEvent σ → JobHistory σ τ β
  | .begin => { history with inRun := true }
  | .turn => history.turn execute
  | .meet => history.meet execute
  | .retry => history.retry
  | .receive => history.receive
  | .close => { history with session := history.session.close }
  | .disturb state => { history with session := { history.session with state } }

def run (history : JobHistory σ τ β) (events : List (JobEvent σ)) : JobHistory σ τ β :=
  events.foldl (step execute) history

def successes (executed : List (τ × Except ScanError β)) : List β :=
  executed.filterMap fun (_, result) => result.toOption

def errors (executed : List (τ × Except ScanError β)) : List ScanError :=
  executed.filterMap fun (_, result) => match result with
    | .error error => some error
    | .ok _ => none

/-- The runs that ended account for the tasks whose execution failed: each ended the run in which it
was taken, and nothing was taken after it in that run. -/
structure Reported (executed : List (τ × Except ScanError β)) (ended : List (EndedRun τ β))
    (given : List τ) (backpressure : Backpressure) : Prop where
  failed : ended.filterMap EndedRun.error? = errors executed
  failing : ∀ before task error after, executed = before ++ (task, .error error) :: after →
    ∃ run ∈ ended, run.outcome = .failed error ∧ run.executed = before ++ [(task, .error error)]
  earlier : ∀ run ∈ ended, run.executed <+: executed
  justified : ∀ run ∈ ended, run.Justified given backpressure

namespace Reported

variable {executed : List (τ × Except ScanError β)} {ended : List (EndedRun τ β)} {given : List τ}
  {backpressure : Backpressure}

theorem none : Reported ([] : List (τ × Except ScanError β)) [] given backpressure :=
  ⟨rfl, fun _ _ _ _ shape => by simp at shape, fun _ run => absurd run List.not_mem_nil,
    fun _ run => absurd run List.not_mem_nil⟩

variable (reported : Reported executed ended given backpressure)

include reported

theorem finish {run : EndedRun τ β} (same : run.executed = executed) (passed : run.error? = .none)
    (justified : run.Justified given backpressure) :
    Reported executed (ended ++ [run]) given backpressure := by
  refine ⟨?_, fun before task error after shape => ?_, ?_, ?_⟩
  · rw [List.filterMap_append, List.filterMap_cons_none passed, reported.failed]
    exact List.append_nil _
  · obtain ⟨found, member, known⟩ := reported.failing before task error after shape
    exact ⟨found, List.mem_append_left _ member, known⟩
  · exact List.forall_mem_append.mpr ⟨reported.earlier,
      List.forall_mem_singleton.mpr (same ▸ List.prefix_refl _)⟩
  · exact List.forall_mem_append.mpr ⟨reported.justified, List.forall_mem_singleton.mpr justified⟩

theorem succeed (task : τ) (result : β) :
    Reported (executed ++ [(task, .ok result)]) ended given backpressure := by
  refine ⟨?_, fun before failing error after shape => ?_, fun run member => ?_,
    reported.justified⟩
  · rw [reported.failed, errors, errors, List.filterMap_append]
    exact (List.append_nil _).symm
  · obtain ⟨_, _, same⟩ | ⟨rest, _, earlier⟩ := append_singleton_cases shape
    · cases same
    · exact reported.failing before failing error rest earlier
  · exact (reported.earlier run member).trans (List.prefix_append _ _)

theorem fail (task : τ) (error : ScanError) (held : Option β) (isOpen : Bool) :
    Reported (executed ++ [(task, .error error)])
      (ended ++
        [{ outcome := .failed error
           executed := executed ++ [(task, .error error)]
           held
           isOpen }])
      given backpressure := by
  refine ⟨?_, fun before failing problem after shape => ?_, ?_, ?_⟩
  · rw [List.filterMap_append, reported.failed, errors, errors, List.filterMap_append]
    rfl
  · obtain ⟨rfl, _, same⟩ | ⟨rest, _, earlier⟩ := append_singleton_cases shape
    · cases same
      refine ⟨_, List.mem_append_right _ List.mem_cons_self, rfl, shape⟩
    · obtain ⟨found, member, known⟩ := reported.failing before failing problem rest earlier
      exact ⟨found, List.mem_append_left _ member, known⟩
  · refine List.forall_mem_append.mpr ⟨fun run member => ?_,
      List.forall_mem_singleton.mpr (List.prefix_refl _)⟩
    exact (reported.earlier run member).trans (List.prefix_append _ _)
  · exact List.forall_mem_append.mpr ⟨reported.justified,
      List.forall_mem_singleton.mpr ⟨executed, task, rfl⟩⟩

end Reported

structure Accounted (history : JobHistory σ τ β) (given : List τ) (backpressure : Backpressure)
    (blocked : Nat) : Prop where
  delivered : history.session.channel.isOpen = true →
    history.received ++ (history.session.channel.queued ++
      (history.session.job.offered.toList ++ history.session.job.held.toList)) =
        successes history.executed
  taken : given = history.executed.map Prod.fst ++
    (history.session.job.tasks ++ history.abandoned)
  kept : history.session.channel.isOpen = true → history.abandoned = []
  policy : history.session.job.backpressure = backpressure
  alone : history.session.job.offered = none ∨ history.session.job.held = none
  waiting : history.inRun = false → history.session.job.offered = none
  counted : history.session.blocked = blocked + history.session.job.offered.toList.length
  reported : Reported history.executed history.ended given backpressure

theorem moveTo_eq (history : JobHistory σ τ β) (session : JobSession σ τ β)
    (same : session.job.tasks = history.session.job.tasks) :
    history.moveTo session = { history with session } := by
  cases tasks : history.session.job.tasks <;> simp [moveTo, same, tasks]

/-- Of the session that is left behind only the tasks matter. -/
theorem follow_of_tasks_eq (history : JobHistory σ τ β) (other : JobSession σ τ β)
    (same : other.job.tasks = history.session.job.tasks)
    (step : Option RunOutcome × JobSession σ τ β) :
    follow { history with session := other } step = history.follow step := by
  have moves (session : JobSession σ τ β) :
      moveTo { history with session := other } session = history.moveTo session := by
    rw [moveTo, moveTo, same]
  simp only [follow, moves]

theorem moveTo_abandon (history : JobHistory σ τ β) :
    history.moveTo history.session.abandon =
      { history with
        session := history.session.abandon
        abandoned := history.session.job.tasks ++ history.abandoned } :=
  rfl

namespace Accounted

variable {history : JobHistory σ τ β} {given : List τ} {backpressure : Backpressure} {blocked : Nat}
  (accounted : history.Accounted given backpressure blocked)

include accounted

theorem finish {status : JobStatus} (offered : history.session.job.offered = none)
    (justified : EndedRun.Justified
      { outcome := .finished status
        executed := history.executed
        held := history.session.job.held
        isOpen := history.session.channel.isOpen } given backpressure) :
    (history.finish (.finished status)).Accounted given backpressure blocked :=
  ⟨accounted.delivered, accounted.taken, accounted.kept, accounted.policy, accounted.alone,
    fun _ => offered, accounted.counted, accounted.reported.finish rfl rfl justified⟩

theorem send {result : β} (held : history.session.job.held = some result)
    (inRun : history.inRun = true) :
    (history.follow (history.session.release.deliver result)).Accounted given backpressure
      blocked := by
  have offered : history.session.job.offered = none :=
    accounted.alone.resolve_right (by rw [held]; exact Option.some_ne_none result)
  obtain ⟨opened, sent⟩ | ⟨closed, sent⟩ | ⟨opened, policy, sent⟩ | ⟨opened, policy, sent⟩ :=
    JobSession.deliver_cases history.session.release result
  -- The result moves to the end of the channel, stays where it is or becomes the offered one, so
  -- the sequence does not change; a reader that is gone is owed nothing.
  · have delivered := accounted.delivered opened
    rw [offered, held] at delivered
    rw [sent, follow, moveTo_eq history (history.session.release.sending result) rfl]
    refine ⟨fun _ => ?_, accounted.taken, accounted.kept, accounted.policy, .inr rfl,
      accounted.waiting, accounted.counted, accounted.reported⟩
    rw [← delivered]
    simp [JobSession.sending, JobSession.release, offered]
  · have gone : history.session.release.abandon = history.session.abandon := rfl
    have shut : history.session.channel.isOpen ≠ true := by
      rw [show history.session.channel.isOpen = false from closed]
      exact Bool.false_ne_true
    have left : Accounted
        { history with
          session := history.session.abandon
          abandoned := history.session.job.tasks ++ history.abandoned }
        given backpressure blocked := by
      refine ⟨fun opened => absurd opened shut, ?_, fun opened => absurd opened shut,
        accounted.policy, .inl rfl, fun _ => rfl, ?_, accounted.reported⟩
      · rw [accounted.taken]
        simp [JobSession.abandon]
      · exact accounted.counted.trans (by rw [offered]; rfl)
    rw [sent, gone, follow, moveTo_abandon]
    · exact left.finish rfl fun opened => absurd opened shut
    · intro same
      cases same
  · have same : history.session.release.holding result = history.session := by
      rw [JobSession.holding, JobSession.release, ← held]
    rw [sent, same, follow, moveTo_eq history history.session rfl]
    · refine accounted.finish offered ⟨accounted.policy.symm.trans policy, ?_⟩
      rw [held]
      rfl
    · intro same
      cases same
  · have delivered := accounted.delivered opened
    have counted := accounted.counted
    rw [offered, held] at delivered
    rw [offered] at counted
    rw [sent, follow, moveTo_eq history (history.session.release.offering result) rfl]
    refine ⟨fun _ => ?_, accounted.taken, accounted.kept, accounted.policy, .inr rfl,
      fun ended => ?_, congrArg (· + 1) counted, accounted.reported⟩
    · rw [← delivered]
      simp [JobSession.offering, JobSession.release]
    · rw [inRun] at ended
      cases ended

omit accounted in
/-- A result in hand is sent as one that was held back is. -/
theorem send_inHand {session : JobSession σ τ β} {result : β} (held : session.job.held = none)
    (inHand : Accounted { history with session := session.holding result } given backpressure
      blocked) (inRun : history.inRun = true)
    (same : session.job.tasks = history.session.job.tasks) :
    (history.follow (session.deliver result)).Accounted given backpressure blocked := by
  have release : (session.holding result).release = session := by
    rw [JobSession.release, JobSession.holding, ← held]
  have sent := inHand.send rfl inRun
  rwa [release, follow_of_tasks_eq history (session.holding result) same] at sent

theorem take {task : τ} {rest : List τ} {result : β} (state : σ)
    (held : history.session.job.held = none) (tasks : history.session.job.tasks = task :: rest)
    (offered : history.session.job.offered = none) :
    Accounted
      { history with
        session := (history.session.taking rest state).holding result
        executed := history.executed ++ [(task, .ok result)] }
      given backpressure blocked := by
  refine ⟨fun opened => ?_, ?_, accounted.kept, accounted.policy, .inl offered, accounted.waiting,
    accounted.counted, accounted.reported.succeed task result⟩
  · have delivered := accounted.delivered opened
    rw [offered, held] at delivered
    simp only [successes, List.filterMap_append, JobSession.holding, JobSession.taking, offered]
    rw [← successes, ← delivered]
    simp [Except.toOption]
  · rw [accounted.taken, tasks]
    simp [JobSession.holding, JobSession.taking]

theorem fail {task : τ} {rest : List τ} (error : ScanError) (state : σ)
    (held : history.session.job.held = none) (tasks : history.session.job.tasks = task :: rest)
    (offered : history.session.job.offered = none) :
    (JobHistory.finish
      { history with
        session := history.session.taking rest state
        executed := history.executed ++ [(task, .error error)] }
      (.failed error)).Accounted given backpressure blocked := by
  refine ⟨fun opened => ?_, ?_, accounted.kept, accounted.policy, .inl offered, fun _ => offered,
    accounted.counted, accounted.reported.fail task error _ _⟩
  · have delivered := accounted.delivered opened
    rw [held] at delivered
    rw [JobHistory.finish, successes, List.filterMap_append, ← successes, ← delivered]
    simp [JobSession.taking, held, Except.toOption]
  · rw [accounted.taken, tasks]
    simp [JobHistory.finish, JobSession.taking]

variable (execute : τ → σ → Except ScanError β × σ)

theorem turn : (history.turn execute).Accounted given backpressure blocked := by
  unfold JobHistory.turn
  split
  · next going =>
      obtain ⟨inRun, none⟩ := Bool.and_eq_true_iff.mp going
      have offered := Option.isNone_iff_eq_none.mp none
      obtain ⟨result, held, turned⟩ | ⟨held, tasks, turned⟩ |
        ⟨task, rest, error, state, held, tasks, executed, turned⟩ |
        ⟨task, rest, result, state, held, tasks, executed, turned⟩ :=
          JobSession.turn_cases execute history.session
      · have untaken : history.taking execute = history := by simp only [taking, held]
        rw [untaken, turned]
        exact accounted.send held inRun
      · have untaken : history.taking execute = history := by simp only [taking, held, tasks]
        rw [untaken, turned, follow, moveTo_eq history history.session rfl]
        · refine accounted.finish offered fun opened => ⟨?_, held⟩
          have taken := accounted.taken
          rw [tasks, accounted.kept opened] at taken
          exact (taken.trans (List.append_nil _)).symm
        · nofun
      · have failing : history.taking execute =
            { history with
              session := history.session.taking rest state
              executed := history.executed ++ [(task, .error error)] } := by
          simp only [taking, held, tasks, executed]
        rw [turned, failing, follow, moveTo_eq _ (history.session.taking rest state) rfl]
        · exact accounted.fail error state held tasks offered
        · nofun
      · have succeeding : history.taking execute =
            { history with
              session := history.session.taking rest state
              executed := history.executed ++ [(task, .ok result)] } := by
          simp only [taking, held, tasks, executed]
        rw [turned, succeeding]
        exact send_inHand held (accounted.take state held tasks offered) inRun rfl
  · exact accounted

theorem retry : history.retry.Accounted given backpressure blocked := by
  unfold JobHistory.retry
  split
  · next inRun =>
      cases offered : history.session.job.offered with
      | none =>
          rw [JobSession.retry, offered, follow, moveTo_eq history history.session rfl]
          exact accounted
      | some result =>
          have held : history.session.job.held = none :=
            accounted.alone.resolve_left (by rw [offered]; exact Option.some_ne_none result)
          rw [JobSession.retry, offered]
          refine send_inHand held ⟨fun opened => ?_, accounted.taken, accounted.kept,
            accounted.policy, .inl rfl, fun _ => rfl, ?_, accounted.reported⟩ inRun rfl
          · have delivered := accounted.delivered opened
            rw [offered, held] at delivered
            exact delivered
          · have counted := accounted.counted
            rw [offered] at counted
            exact congrArg (· - 1) counted
  · exact accounted

theorem receive : history.receive.Accounted given backpressure blocked := by
  unfold JobHistory.receive
  split
  · next opened =>
      have delivered := accounted.delivered opened
      unfold JobSession.receive Channel.receive
      cases queued : history.session.channel.queued with
      | cons result rest =>
          rw [queued] at delivered
          refine ⟨fun _ => ?_, accounted.taken, accounted.kept, accounted.policy, accounted.alone,
            accounted.waiting, accounted.counted, accounted.reported⟩
          rw [← delivered]
          simp
      | nil =>
          cases offered : history.session.job.offered with
          | none =>
              simp only [Option.toList_none, List.append_nil]
              exact accounted
          | some result =>
              have counted := accounted.counted
              rw [offered] at counted
              rw [queued, offered] at delivered
              refine ⟨fun _ => ?_, accounted.taken, accounted.kept, accounted.policy, .inl rfl,
                fun _ => rfl, congrArg (· - 1) counted, accounted.reported⟩
              rw [← delivered]
              simp [queued]
  · exact accounted

omit execute in
theorem withCapacity (capacity : Option Nat) :
    (history.withCapacity capacity).Accounted given backpressure blocked :=
  ⟨accounted.delivered, accounted.taken, accounted.kept, accounted.policy, accounted.alone,
    accounted.waiting, accounted.counted, accounted.reported⟩

theorem meet : (history.meet execute).Accounted given backpressure blocked := by
  unfold JobHistory.meet
  split
  · exact (((accounted.withCapacity none).turn execute).receive).withCapacity _
  · exact accounted

theorem step (event : JobEvent σ) :
    (history.step execute event).Accounted given backpressure blocked := by
  cases event with
  | begin =>
      exact ⟨accounted.delivered, accounted.taken, accounted.kept, accounted.policy,
        accounted.alone, nofun, accounted.counted, accounted.reported⟩
  | turn => exact accounted.turn execute
  | meet => exact accounted.meet execute
  | retry => exact accounted.retry
  | receive => exact accounted.receive
  | close =>
      exact ⟨nofun, accounted.taken, nofun, accounted.policy, accounted.alone, accounted.waiting,
        accounted.counted, accounted.reported⟩
  | disturb state =>
      exact ⟨accounted.delivered, accounted.taken, accounted.kept, accounted.policy,
        accounted.alone, accounted.waiting, accounted.counted, accounted.reported⟩

theorem run (events : List (JobEvent σ)) :
    (history.run execute events).Accounted given backpressure blocked := by
  induction events generalizing history with
  | nil => exact accounted
  | cons event rest ih => exact ih (accounted.step execute event)

end Accounted

/-- A job that has not run yet, beside a reader that has received nothing. -/
def start (given : List τ) (backpressure : Backpressure) (capacity : Option Nat) (state : σ)
    (blocked : Nat) : JobHistory σ τ β where
  session :=
    { job := { tasks := given, backpressure }
      channel := { capacity }
      state
      blocked }

theorem accounted_start (given : List τ) (backpressure : Backpressure) (capacity : Option Nat)
    (state : σ) (blocked : Nat) :
    (start given backpressure capacity state blocked : JobHistory σ τ β).Accounted given
      backpressure blocked :=
  ⟨fun _ => rfl, (List.append_nil given).symm, fun _ => rfl, rfl, .inl rfl, fun _ => rfl, rfl,
    Reported.none⟩

end JobHistory

end ColumnScan
