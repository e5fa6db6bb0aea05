import ColumnScan.Job.ScanJob

/-!
# The turns of a run

A run is one turn after another: a turn takes the result that was held back, or else executes the
next task, and sends what it has. Between two turns the reader may do anything, which a whole run
leaves no room for.
-/

set_option autoImplicit false

namespace ColumnScan.JobSession

variable {σ τ β : Type} (execute : τ → σ → Except ScanError β × σ)

/-- The result that was held back is taken in hand. -/
def release (session : JobSession σ τ β) : JobSession σ τ β :=
  { session with job := { session.job with held := none } }

def sending (session : JobSession σ τ β) (result : β) : JobSession σ τ β :=
  { session with
    channel := { session.channel with queued := session.channel.queued ++ [result] } }

def holding (session : JobSession σ τ β) (result : β) : JobSession σ τ β :=
  { session with job := { session.job with held := some result } }

def offering (session : JobSession σ τ β) (result : β) : JobSession σ τ β :=
  { session with
    job := { session.job with offered := some result }
    blocked := session.blocked + 1 }

/-- A session in which the next task was taken and executed. -/
def taking (session : JobSession σ τ β) (rest : List τ) (state : σ) : JobSession σ τ β :=
  { session with state, job := { session.job with tasks := rest } }

/-- One turn of a run. Answers where the run has come to, or nothing if it goes on. -/
def turn (session : JobSession σ τ β) : Option RunOutcome × JobSession σ τ β :=
  match session.job.held, session.job.tasks with
  | some result, _ => session.release.deliver result
  | none, [] => (some (.finished .complete), session)
  | none, task :: rest =>
      match execute task session.state with
      | (.error error, state) => (some (.failed error), session.taking rest state)
      | (.ok result, state) => (session.taking rest state).deliver result

/-- The job stops waiting in a send. -/
def withdraw (session : JobSession σ τ β) : JobSession σ τ β :=
  { session with
    job := { session.job with offered := none }
    blocked := session.blocked - 1 }

/-- A waiting send is tried again. -/
def retry (session : JobSession σ τ β) : Option RunOutcome × JobSession σ τ β :=
  match session.job.offered with
  | none => (none, session)
  | some result => session.withdraw.deliver result

/-- What follows a step of a run: its end, or the rest of the run. -/
def followedBy (step : Option RunOutcome × JobSession σ τ β)
    (rest : JobSession σ τ β → RunOutcome × JobSession σ τ β) : RunOutcome × JobSession σ τ β :=
  match step with
  | (some outcome, session) => (outcome, session)
  | (none, session) => rest session

/-- A result is sent, or the reader is gone, or there is no room and it is kept. -/
theorem deliver_cases (session : JobSession σ τ β) (result : β) :
    (session.channel.isOpen = true ∧ session.deliver result = (none, session.sending result)) ∨
    (session.channel.isOpen = false ∧
      session.deliver result = (some (.finished .complete), session.abandon)) ∨
    (session.channel.isOpen = true ∧ session.job.backpressure = .reschedule ∧
      session.deliver result = (some (.finished .reschedule), session.holding result)) ∨
    (session.channel.isOpen = true ∧ session.job.backpressure = .block ∧
      session.deliver result = (some .waiting, session.offering result)) := by
  unfold deliver Channel.trySend
  cases opened : session.channel.isOpen with
  | false => exact .inr (.inl ⟨rfl, rfl⟩)
  | true =>
      cases full : session.channel.isFull with
      | false => exact .inl ⟨rfl, by simp [sending, opened]⟩
      | true =>
          cases policy : session.job.backpressure with
          | reschedule => exact .inr (.inr (.inl ⟨rfl, rfl, rfl⟩))
          | block => exact .inr (.inr (.inr ⟨rfl, rfl, rfl⟩))

/-- A turn sends the result that was held back, finds no task left, or takes the next task. -/
theorem turn_cases (session : JobSession σ τ β) :
    (∃ result, session.job.held = some result ∧
      session.turn execute = session.release.deliver result) ∨
    (session.job.held = none ∧ session.job.tasks = [] ∧
      session.turn execute = (some (.finished .complete), session)) ∨
    (∃ task rest error state, session.job.held = none ∧ session.job.tasks = task :: rest ∧
      execute task session.state = (.error error, state) ∧
      session.turn execute = (some (.failed error), session.taking rest state)) ∨
    (∃ task rest result state, session.job.held = none ∧ session.job.tasks = task :: rest ∧
      execute task session.state = (.ok result, state) ∧
      session.turn execute = (session.taking rest state).deliver result) := by
  unfold turn
  cases held : session.job.held with
  | some result => exact .inl ⟨result, rfl, rfl⟩
  | none =>
      cases tasks : session.job.tasks with
      | nil => exact .inr (.inl ⟨rfl, rfl, rfl⟩)
      | cons task rest =>
          cases executed : execute task session.state with
          | mk outcome state =>
              cases outcome with
              | error error =>
                  refine .inr (.inr (.inl ⟨task, rest, error, state, rfl, rfl, executed, ?_⟩))
                  simp only [executed]
              | ok result =>
                  refine .inr (.inr (.inr ⟨task, rest, result, state, rfl, rfl, executed, ?_⟩))
                  simp only [executed]

theorem job_of_deliver_eq_none {session sent : JobSession σ τ β} {result : β}
    (delivered : session.deliver result = (none, sent)) : sent.job = session.job := by
  obtain ⟨_, same⟩ | ⟨_, same⟩ | ⟨_, _, same⟩ | ⟨_, _, same⟩ := deliver_cases session result
  all_goals
    rw [delivered] at same
    cases same
  rfl

/-- A turn after which the run goes on has used up a result that was held back or a task. -/
theorem remaining_lt_of_turn {session sent : JobSession σ τ β}
    (turned : session.turn execute = (none, sent)) :
    sent.job.offered = session.job.offered ∧ sent.job.remaining < session.job.remaining := by
  obtain ⟨result, held, same⟩ | ⟨_, _, same⟩ | ⟨_, _, _, _, _, _, _, same⟩ |
    ⟨task, rest, result, state, held, tasks, _, same⟩ := turn_cases execute session
  · have job := job_of_deliver_eq_none (same.symm.trans turned)
    rw [job, release]
    refine ⟨rfl, ?_⟩
    simp [ScanJob.remaining, held]
  · cases same.symm.trans turned
  · cases same.symm.trans turned
  · have job := job_of_deliver_eq_none (same.symm.trans turned)
    rw [job, taking]
    refine ⟨rfl, ?_⟩
    simp [ScanJob.remaining, held, tasks]

theorem run_eq_runTasks {session : JobSession σ τ β} (offered : session.job.offered = none)
    (held : session.job.held = none) :
    session.run execute = runTasks execute session.job.tasks session := by
  rw [run, offered, held]

theorem continueWith_eq (session : JobSession σ τ β) (offered : session.job.offered = none)
    (held : session.job.held = none) (result : β) :
    session.continueWith execute result =
      followedBy (session.deliver result) (run execute) := by
  cases delivered : session.deliver result with
  | mk outcome sent =>
      rw [continueWith, delivered]
      cases outcome with
      | some outcome => rfl
      | none =>
          have same := job_of_deliver_eq_none delivered
          exact (run_eq_runTasks execute (same ▸ offered) (same ▸ held)).symm

/-- A run is a turn and, if that does not end it, the rest of the run. -/
theorem run_eq_turn {session : JobSession σ τ β} (offered : session.job.offered = none) :
    session.run execute = followedBy (session.turn execute) (run execute) := by
  obtain ⟨result, held, turned⟩ | ⟨held, tasks, turned⟩ |
    ⟨task, rest, error, state, held, tasks, executed, turned⟩ |
    ⟨task, rest, result, state, held, tasks, executed, turned⟩ := turn_cases execute session
  · rw [turned, run, offered, held]
    exact continueWith_eq execute session.release offered rfl result
  · have same : { session with job := { session.job with tasks := [] } } = session := by
      rw [← tasks]
    rw [turned, run_eq_runTasks execute offered held, tasks, runTasks, same]
    rfl
  · rw [turned, run_eq_runTasks execute offered held, tasks]
    simp only [runTasks, executed]
    rfl
  · rw [turned, run_eq_runTasks execute offered held, tasks]
    simp only [runTasks, executed]
    rw [← taking, ← continueWith_eq execute (session.taking rest state) offered held, continueWith]
    cases delivered : (session.taking rest state).deliver result with
    | mk outcome sent =>
        cases outcome with
        | some outcome => rfl
        | none => simp only [job_of_deliver_eq_none delivered, taking]

theorem retry_of_offered {session : JobSession σ τ β} {result : β}
    (waiting : session.job.offered = some result) :
    session.retry = session.withdraw.deliver result := by
  rw [retry, waiting]

/-- The rest of a run that waits in a send is another try and, if that does not end it, a run. If the
reader is gone, it makes no difference what is held back. -/
theorem resume_eq_retry {session : JobSession σ τ β} {result : β}
    (waiting : session.job.offered = some result)
    (alone : session.channel.isOpen = true → session.job.held = none) :
    session.resume execute = followedBy session.retry (run execute) := by
  rw [retry_of_offered waiting, resume, waiting]
  dsimp only
  rw [← withdraw]
  cases opened : session.channel.isOpen with
  | true => exact continueWith_eq execute session.withdraw rfl (alone opened) result
  | false =>
      have closed : session.withdraw.deliver result =
          (some (.finished .complete), session.withdraw.abandon) := by
        simp [deliver, Channel.trySend, withdraw, opened]
      rw [closed, continueWith, closed]
      rfl

/-- What holds of a run that waits on, that ends with its first turn, and that goes on after its
first turn with a run of which it holds, holds of every run. -/
theorem run_induction {motive : JobSession σ τ β → RunOutcome × JobSession σ τ β → Prop}
    (waits : ∀ session, session.job.offered.isSome = true → motive session (.waiting, session))
    (ends : ∀ session outcome sent, session.job.offered = none →
      session.turn execute = (some outcome, sent) → motive session (outcome, sent))
    (goes : ∀ session sent, session.job.offered = none → sent.job.offered = none →
      session.turn execute = (none, sent) → motive sent (sent.run execute) →
      motive session (sent.run execute))
    (session : JobSession σ τ β) : motive session (session.run execute) := by
  induction size : session.job.remaining using Nat.strongRecOn generalizing session with
  | ind size ih =>
      cases offered : session.job.offered with
      | some result =>
          have waiting : session.run execute = (.waiting, session) := by rw [run, offered]
          rw [waiting]
          exact waits session (offered ▸ rfl)
      | none =>
          rw [run_eq_turn execute offered]
          cases turned : session.turn execute with
          | mk outcome sent =>
              cases outcome with
              | some outcome => exact ends session outcome sent offered turned
              | none =>
                  obtain ⟨kept, less⟩ := remaining_lt_of_turn execute turned
                  exact goes session sent offered (kept.trans offered) turned
                    (ih sent.job.remaining (size ▸ less) sent rfl)

section Waiting

/-- A job that waits offers the result that it could not send. -/
theorem offered_of_deliver {session sent : JobSession σ τ β} {result : β}
    (delivered : session.deliver result = (some .waiting, sent)) :
    sent.job.offered.isSome = true := by
  obtain ⟨_, same⟩ | ⟨_, same⟩ | ⟨_, _, same⟩ | ⟨_, _, same⟩ := deliver_cases session result
  all_goals
    rw [delivered] at same
    cases same
  rfl

theorem offered_of_turn {session sent : JobSession σ τ β}
    (turned : session.turn execute = (some .waiting, sent)) : sent.job.offered.isSome = true := by
  obtain ⟨_, _, same⟩ | ⟨_, _, same⟩ | ⟨_, _, _, _, _, _, _, same⟩ |
    ⟨_, _, _, _, _, _, _, same⟩ := turn_cases execute session
  · exact offered_of_deliver (same.symm.trans turned)
  · cases same.symm.trans turned
  · cases same.symm.trans turned
  · exact offered_of_deliver (same.symm.trans turned)

end Waiting

section Sent

variable (session : JobSession σ τ β)

theorem queued_prefix_deliver (result : β) :
    session.channel.queued <+: (session.deliver result).2.channel.queued := by
  obtain ⟨_, same⟩ | ⟨_, same⟩ | ⟨_, _, same⟩ | ⟨_, _, same⟩ := deliver_cases session result
  · rw [same]
    exact List.prefix_append _ _
  all_goals
    rw [same]
    exact List.prefix_rfl

theorem queued_prefix_turn :
    session.channel.queued <+: (session.turn execute).2.channel.queued := by
  obtain ⟨result, _, same⟩ | ⟨_, _, same⟩ | ⟨_, _, _, _, _, _, _, same⟩ |
    ⟨_, rest, result, state, _, _, _, same⟩ := turn_cases execute session
  · rw [same]
    exact queued_prefix_deliver session.release result
  · exact same ▸ List.prefix_rfl
  · exact same ▸ List.prefix_rfl
  · rw [same]
    exact queued_prefix_deliver (session.taking rest state) result

/-- A run takes nothing out of the channel. -/
theorem queued_prefix_run :
    session.channel.queued <+: (session.run execute).2.channel.queued := by
  refine run_induction execute (motive := fun session result =>
    session.channel.queued <+: result.2.channel.queued) ?_ ?_ ?_ session
  · exact fun _ _ => List.prefix_rfl
  · intro session _ sent _ turned
    have first := queued_prefix_turn execute session
    rwa [turned] at first
  · intro session sent _ _ turned later
    have first := queued_prefix_turn execute session
    rw [turned] at first
    exact first.trans later

end Sent

end ColumnScan.JobSession
