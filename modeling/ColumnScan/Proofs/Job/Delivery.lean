import ColumnScan.Proofs.Job.JobHistory

/-!
# What a job delivers

A job hands the results of its tasks to its reader in their order and each once, whenever it is run
and whatever the reader does in between. The turns of a history are no more than a way to take a run
apart: a run beside a reader that does nothing is one of the histories.
-/

set_option autoImplicit false

namespace ColumnScan.JobHistory

variable {σ τ β : Type} (execute : τ → σ → Except ScanError β × σ)

/-- A run or the rest of one has led from one history to another. If it waits, it is with a result
that it offers. -/
structure Reaches (before after : JobHistory σ τ β) (result : RunOutcome × JobSession σ τ β) :
    Prop where
  session : after.session = result.2
  inRun : after.inRun = decide (result.1 = .waiting)
  outcomes : after.ended.map EndedRun.outcome = before.ended.map EndedRun.outcome ++
    if result.1 = .waiting then [] else [result.1]
  waiting : result.1 = .waiting → result.2.job.offered.isSome = true

theorem reaches_follow (history : JobHistory σ τ β) (inRun : history.inRun = true)
    (outcome : RunOutcome) (session : JobSession σ τ β)
    (waiting : outcome = .waiting → session.job.offered.isSome = true) :
    history.Reaches (history.follow (some outcome, session)) (outcome, session) := by
  cases outcome with
  | waiting => exact ⟨rfl, inRun, (List.append_nil _).symm, waiting⟩
  | finished status => exact ⟨rfl, rfl, List.map_append, waiting⟩
  | failed error => exact ⟨rfl, rfl, List.map_append, waiting⟩

/-- What is reached from a history depends only on the runs that had ended before. -/
theorem Reaches.of_ended_eq {before earlier after : JobHistory σ τ β}
    {result : RunOutcome × JobSession σ τ β} (same : before.ended = earlier.ended)
    (reached : before.Reaches after result) : earlier.Reaches after result :=
  ⟨reached.session, reached.inRun, same ▸ reached.outcomes, reached.waiting⟩

theorem taking_inRun (history : JobHistory σ τ β) :
    (history.taking execute).inRun = history.inRun := by
  unfold taking
  split <;> rfl

theorem taking_ended (history : JobHistory σ τ β) :
    (history.taking execute).ended = history.ended := by
  unfold taking
  split <;> rfl

theorem step_turn {history : JobHistory σ τ β} (inRun : history.inRun = true)
    (offered : history.session.job.offered = none) :
    history.step execute .turn =
      (history.taking execute).follow (history.session.turn execute) := by
  rw [step, turn, inRun, offered]
  rfl

/-- A run of a job whose reader does nothing meanwhile is a number of turns. -/
theorem exists_turns_run (history : JobHistory σ τ β) (inRun : history.inRun = true)
    (offered : history.session.job.offered = none) :
    ∃ count, 0 < count ∧ history.Reaches (history.run execute (List.replicate count .turn))
      (history.session.run execute) := by
  refine JobSession.run_induction execute (motive := fun session result =>
    ∀ history : JobHistory σ τ β, history.session = session → history.inRun = true →
      session.job.offered = none → ∃ count, 0 < count ∧
        history.Reaches (history.run execute (List.replicate count .turn)) result)
    ?_ ?_ ?_ history.session history rfl inRun offered
  · intro session waits _ _ _ offered
    rw [offered] at waits
    cases waits
  · rintro _ outcome sent offered turned history rfl inRun _
    refine ⟨1, Nat.one_pos, ?_⟩
    rw [List.replicate_one, run, List.foldl_cons, List.foldl_nil, step_turn execute inRun offered,
      turned]
    have reached := (history.taking execute).reaches_follow ((taking_inRun execute history).trans
      inRun) outcome sent fun waits => JobSession.offered_of_turn execute (waits ▸ turned)
    exact reached.of_ended_eq (taking_ended execute history)
  · rintro _ sent offered kept turned later history rfl inRun _
    obtain ⟨count, _, reached⟩ := later ((history.taking execute).follow (none, sent)) rfl
      ((taking_inRun execute history).trans inRun) kept
    refine ⟨count + 1, Nat.succ_pos count, ?_⟩
    rw [List.replicate_succ, run, List.foldl_cons, step_turn execute inRun offered, turned, ← run]
    refine Reaches.of_ended_eq ?_ reached
    exact taking_ended execute history

/-- The rest of a run that waits in a send is another try and a number of turns. -/
theorem exists_turns_resume {history : JobHistory σ τ β} {given : List τ}
    {backpressure : Backpressure} {blocked : Nat}
    (accounted : history.Accounted given backpressure blocked) (inRun : history.inRun = true)
    {result : β} (offered : history.session.job.offered = some result) :
    ∃ count, history.Reaches (history.run execute (.retry :: List.replicate count .turn))
      (history.session.resume execute) := by
  have held : history.session.job.held = none :=
    accounted.alone.resolve_left (by rw [offered]; nofun)
  rw [JobSession.resume_eq_retry execute offered fun _ => held]
  cases sent : history.session.retry with
  | mk outcome session =>
      have retried : history.step execute .retry = history.follow (outcome, session) := by
        rw [step, retry, inRun, ← sent]
        rfl
      rw [JobSession.retry_of_offered offered] at sent
      cases outcome with
      | some outcome =>
          refine ⟨0, ?_⟩
          rw [List.replicate_zero, run, List.foldl_cons, List.foldl_nil, retried]
          exact history.reaches_follow inRun outcome session fun waits =>
            JobSession.offered_of_deliver (waits ▸ sent)
      | none =>
          have job := JobSession.job_of_deliver_eq_none sent
          obtain ⟨count, _, reached⟩ := exists_turns_run execute (history.follow (none, session))
            inRun (congrArg ScanJob.offered job)
          refine ⟨count, ?_⟩
          rw [run, List.foldl_cons, retried, ← run]
          refine Reaches.of_ended_eq ?_ reached
          rfl

/-- Whatever happens next to a job and its reader: while the reader is there, what it has received,
what is in the channel, what a waiting send offers and what is held back are the results of the
tasks that were executed with success, in their order and each once. The tasks that were executed
are the first of the given ones, each once, and all of them if a run completed before the reader
went. A run completes, asks to be queued again or fails only with reason; a task that fails ends its
run with its error and is not executed again; the job counts what is left; and no worker stays
counted as blocked when a run ends. Runs during which the reader does nothing are among these
histories: such a run is one turn or more, and it waits only with a result that it offers. -/
theorem run_delivers (given : List τ) (backpressure : Backpressure) (capacity : Option Nat)
    (state : σ) (blocked : Nat) (events : List (JobEvent σ)) :
    let history := (start given backpressure capacity state blocked).run execute events
    let session := history.session
    let job := session.job
    (session.channel.isOpen = true →
      history.received ++ (session.channel.queued ++ (job.offered.toList ++ job.held.toList)) =
        history.executed.filterMap fun (_, result) => result.toOption) ∧
    given = history.executed.map Prod.fst ++ (job.tasks ++ history.abandoned) ∧
    (session.channel.isOpen = true → history.abandoned = []) ∧
    (∀ run ∈ history.ended, run.Justified given backpressure ∧
      (run.outcome = .finished .complete → run.isOpen = true →
        history.executed.map Prod.fst = given)) ∧
    (∀ before task error after, history.executed = before ++ (task, .error error) :: after →
      ∃ run ∈ history.ended, run.outcome = .failed error ∧
        run.executed = before ++ [(task, .error error)]) ∧
    history.ended.filterMap EndedRun.error? = errors history.executed ∧
    job.remaining = given.length - (history.executed.length + history.abandoned.length) +
      job.held.toList.length ∧
    (history.inRun = false → session.blocked = blocked) ∧
    (history.inRun = true → job.offered = none →
      ∃ count, 0 < count ∧ history.Reaches (history.run execute (List.replicate count .turn))
        (session.run execute)) ∧
    ∀ result, history.inRun = true → job.offered = some result →
      ∃ count, history.Reaches (history.run execute (.retry :: List.replicate count .turn))
        (session.resume execute) := by
  intro history session job
  have accounted : history.Accounted given backpressure blocked :=
    (accounted_start given backpressure capacity state blocked).run execute events
  have reported := accounted.reported
  refine ⟨accounted.delivered, accounted.taken, accounted.kept, fun run ended => ?_,
    reported.failing, reported.failed, ?_, fun idle => ?_,
    fun inRun offered => exists_turns_run execute history inRun offered,
    fun result inRun offered => exists_turns_resume execute accounted inRun offered⟩
  · have justified := reported.justified run ended
    refine ⟨justified, fun complete opened => ?_⟩
    rw [EndedRun.Justified, complete] at justified
    obtain ⟨all, -⟩ := justified opened
    have grown : given <+: history.executed.map Prod.fst :=
      all ▸ (reported.earlier run ended).map Prod.fst
    have bounded : history.executed.map Prod.fst <+: given := ⟨_, accounted.taken.symm⟩
    exact bounded.eq_of_length_le grown.length_le
  · have total := congrArg List.length accounted.taken
    rw [List.length_append, List.length_append, List.length_map] at total
    have counts : job.remaining = job.tasks.length + job.held.toList.length := by
      rw [ScanJob.remaining]
      cases job.held <;> rfl
    have tasks : job.tasks.length = history.session.job.tasks.length := rfl
    omega
  · have counted := accounted.counted
    rw [accounted.waiting idle] at counted
    exact counted

/-- The second of three tasks fails, and the third has to wait for the reader. -/
theorem run_delivers_failing :
    let execute (task : Nat) (state : Unit) : Except ScanError Nat × Unit :=
      (if task = 2 then .error (.internal "two") else .ok (10 * task), state)
    let events : List (JobEvent Unit) :=
      [.begin, .turn, .turn, .begin, .turn, .receive, .begin, .turn, .turn]
    let history := (start [1, 2, 3] .reschedule (some 1) () 4).run execute events
    history.ended.map EndedRun.outcome =
      [.failed (.internal "two"), .finished .reschedule, .finished .complete] ∧
    history.received ++ (history.session.channel.queued ++
      (history.session.job.offered.toList ++ history.session.job.held.toList)) = [10, 30] ∧
    history.executed.map Prod.fst = [1, 2, 3] ∧
    history.session.blocked = 4 := by
  intro execute events history
  obtain ⟨delivered, _, _, _, _, _, _, blocked, _⟩ :=
    run_delivers execute [1, 2, 3] .reschedule (some 1) () 4 events
  have sent := delivered (by decide +kernel)
  have unblocked := blocked (by decide +kernel)
  -- The goal has to name the history as the facts do, or it would be evaluated to compare them.
  simp only [history]
  exact ⟨by decide +kernel, sent.trans (by decide +kernel), by decide +kernel, unblocked⟩

end ColumnScan.JobHistory
