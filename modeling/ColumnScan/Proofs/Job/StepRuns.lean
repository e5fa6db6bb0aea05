import ColumnScan.Proofs.Job.StepHistory

/-!
# Runs of the workers of a step

A worker of a step runs its job turn by turn, so that other workers and the reader can come in
between. If nobody does, its turns make up one run of the job: the channel, the state and the job
are those that the run leaves, and the pool learns how it ended.
-/

set_option autoImplicit false

namespace ColumnScan

variable {σ τ β : Type} (execute : τ → σ → Except ScanError β × σ)

namespace StepPart

/-- A part whose job has taken more tasks. -/
def adding (part : StepPart τ β) (taken : List (τ × Except ScanError β)) : StepPart τ β :=
  { part with executed := part.executed ++ taken }

theorem exists_taking (part : StepPart τ β) (state : σ) :
    ∃ taken, part.taking execute state = part.adding taken := by
  unfold taking
  split
  next task _ _ _ => exact ⟨[(task, (execute task state).1)], rfl⟩
  all_goals exact ⟨[], by rw [adding, List.append_nil]⟩

/-- A part takes the place of the one with its ticket. -/
def replacing (part other : StepPart τ β) : StepPart τ β :=
  if other.ticket = part.ticket then part else other

theorem ticket_replacing (part other : StepPart τ β) : (part.replacing other).ticket = other.ticket := by
  unfold replacing
  split
  next same => exact same.symm
  next => rfl

theorem replacing_replacing (later part : StepPart τ β) (ticket : later.ticket = part.ticket)
    (other : StepPart τ β) : later.replacing (part.replacing other) = later.replacing other := by
  unfold replacing
  by_cases same : other.ticket = part.ticket
  · rw [if_pos same, if_pos ticket.symm, if_pos (same.trans ticket.symm)]
  · rw [if_neg same]

end StepPart

namespace StepHistory

/-- A run of a part or the rest of one has led from one history to another. If it waits, it is with a
result that it offers. -/
structure Reaches (before after : StepHistory σ τ β) (number : Nat) (part : StepPart τ β)
    (result : RunOutcome × JobSession σ τ β) : Prop where
  followed : ∃ taken, after =
    before.follow number (part.adding taken) (some result.1, result.2)
  waiting : result.1 = .waiting → result.2.job.offered.isSome = true

section Follow

variable {history : StepHistory σ τ β} {number : Nat} {part moved : StepPart τ β}

theorem parts_eq_map_replacing (step : Option RunOutcome × JobSession σ τ β) :
    (history.follow number moved step).parts =
      history.parts.map { moved with job := step.2.job }.replacing :=
  rfl

/-- A worker whose run goes on still runs the same part. -/
theorem part?_follow (found : history.part? number = some part) (ticket : moved.ticket = part.ticket)
    (sent : JobSession σ τ β) :
    (history.follow number moved (none, sent)).part? number =
      some { moved with job := sent.job } := by
  unfold part? at found
  split at found
  next job busy =>
    have stillBusy : (history.follow number moved (none, sent)).pool.pool.activity number =
        .running job := busy
    have replaced : StepPart.replacing { moved with job := sent.job } part =
        { moved with job := sent.job } := if_pos ticket.symm
    rw [part?, stillBusy, parts_eq_map_replacing]
    simp only [List.find?_map, Function.comp_def, StepPart.ticket_replacing, found, Option.map_some,
      replaced]
  next => cases found
  next => cases found

/-- Two steps of a run, of which the first does not end it, are like one. -/
theorem follow_follow {sent : JobSession σ τ β} {step : Option RunOutcome × JobSession σ τ β}
    {next : StepPart τ β} (first : history.channel.queued <+: sent.channel.queued)
    (second : sent.channel.queued <+: step.2.channel.queued) (ticket : next.ticket = moved.ticket) :
    (history.follow number moved (none, sent)).follow number next step =
      history.follow number next step := by
  obtain ⟨added, first⟩ := first
  obtain ⟨more, second⟩ := second
  unfold follow
  dsimp only
  congr 1
  · rw [List.map_map]
    exact List.map_congr_left fun other _ =>
      StepPart.replacing_replacing { next with job := step.2.job } { moved with job := sent.job } ticket other
  · simp [← second, ← first, ticket]

end Follow

section Runs

variable {execute} {history : StepHistory σ τ β} {number : Nat} {part : StepPart τ β}

theorem step_turn (found : history.part? number = some part) (offered : part.job.offered = none) :
    history.step execute (.move number .turn) =
      history.follow number (part.taking execute history.state)
        ((history.session part).turn execute) := by
  rw [step, move, found]
  simp only [offered, Option.isNone_none, ↓reduceIte]

theorem step_retry (found : history.part? number = some part) :
    history.step execute (.move number .retry) =
      history.follow number part (history.session part).retry := by
  rw [step, move, found]

/-- What a first step of a run and the run from there on lead to, the whole run leads to. -/
theorem Reaches.of_follow {sent : JobSession σ τ β} {taken : List (τ × Except ScanError β)}
    {after : StepHistory σ τ β} {result : RunOutcome × JobSession σ τ β}
    (first : history.channel.queued <+: sent.channel.queued)
    (second : sent.channel.queued <+: result.2.channel.queued)
    (reached : (history.follow number (part.adding taken) (none, sent)).Reaches after number
      { part.adding taken with job := sent.job } result) :
    history.Reaches after number part result := by
  obtain ⟨⟨more, rfl⟩, waiting⟩ := reached
  refine ⟨⟨taken ++ more, ?_⟩, waiting⟩
  have ticket : (StepPart.adding { part.adding taken with job := sent.job } more).ticket =
      (part.adding taken).ticket := rfl
  rw [follow_follow first second ticket]
  simp only [follow, StepPart.adding, List.append_assoc]
  rfl

/-- A worker's run of a part of the step, if nobody comes in between, is a number of turns. -/
theorem exists_turns_run (found : history.part? number = some part)
    (offered : part.job.offered = none) :
    ∃ count, 0 < count ∧
      history.Reaches (history.run execute (List.replicate count (.move number .turn))) number part
        ((history.session part).run execute) := by
  refine JobSession.run_induction execute (motive := fun session result =>
    ∀ (history : StepHistory σ τ β) part, history.session part = session →
      history.part? number = some part → part.job.offered = none → ∃ count, 0 < count ∧
        history.Reaches (history.run execute (List.replicate count (.move number .turn))) number
          part result)
    ?_ ?_ ?_ (history.session part) history part rfl found offered
  · rintro _ waits history part rfl _ offered
    rw [session, offered] at waits
    cases waits
  · rintro _ outcome sent _ turned history part rfl found offered
    obtain ⟨taken, took⟩ := part.exists_taking execute history.state
    refine ⟨1, Nat.one_pos, ⟨taken, ?_⟩, ?_⟩
    · rw [List.replicate_one, run, List.foldl_cons, List.foldl_nil, step_turn found offered, turned,
        took]
    · rintro rfl
      exact JobSession.offered_of_turn execute turned
  · rintro _ sent _ kept turned later history part rfl found offered
    obtain ⟨taken, took⟩ := part.exists_taking execute history.state
    have ticket : (part.adding taken).ticket = part.ticket := rfl
    obtain ⟨count, _, reached⟩ := later (history.follow number (part.adding taken) (none, sent)) _
      rfl (part?_follow found ticket sent) kept
    refine ⟨count + 1, Nat.succ_pos count, ?_⟩
    rw [List.replicate_succ, run, List.foldl_cons, step_turn found offered, turned, took, ← run]
    have first := JobSession.queued_prefix_turn execute (history.session part)
    rw [turned] at first
    exact reached.of_follow first (JobSession.queued_prefix_run execute sent)

/-- The rest of a run that waits in a send is another try and a number of turns. -/
theorem exists_turns_resume (found : history.part? number = some part) {result : β}
    (offered : part.job.offered = some result)
    (alone : history.channel.isOpen = true → part.job.held = none) :
    ∃ count, history.Reaches
      (history.run execute (.move number .retry :: List.replicate count (.move number .turn)))
      number part ((history.session part).resume execute) := by
  have waiting : (history.session part).job.offered = some result := offered
  have untouched : part.adding [] = part := by rw [StepPart.adding, List.append_nil]
  rw [JobSession.resume_eq_retry execute waiting alone, JobSession.retry_of_offered waiting]
  have first := JobSession.queued_prefix_deliver (history.session part).withdraw result
  cases delivered : (history.session part).withdraw.deliver result with
  | mk outcome sent =>
      have retried : history.step execute (.move number .retry) =
          history.follow number (part.adding []) (outcome, sent) := by
        rw [step_retry found, JobSession.retry_of_offered waiting, delivered, untouched]
      rw [delivered] at first
      cases outcome with
      | some outcome =>
          refine ⟨0, ⟨[], ?_⟩, ?_⟩
          · rw [List.replicate_zero, run, List.foldl_cons, List.foldl_nil, retried]
            rfl
          · rintro rfl
            exact JobSession.offered_of_deliver delivered
      | none =>
          have job := JobSession.job_of_deliver_eq_none delivered
          have ticket : (part.adding []).ticket = part.ticket := rfl
          obtain ⟨count, _, reached⟩ := exists_turns_run (part?_follow found ticket sent)
            (congrArg ScanJob.offered job)
          refine ⟨count, ?_⟩
          rw [run, List.foldl_cons, retried, ← run]
          exact reached.of_follow first (JobSession.queued_prefix_run execute sent)

end Runs

end StepHistory

end ColumnScan
