import ColumnScan.Proofs.Job.JobHistory

/-!
# The parts of a step

A part is one of the jobs of a step, with the tasks that were dealt to it and what became of those
that it took. It shares the channel with the other parts, so what it has sent is told apart from
what the channel keeps.
-/

set_option autoImplicit false

namespace ColumnScan

/-- A job of a step, with the tasks that were dealt to it and what became of those it took. -/
structure StepPart (τ β : Type) where
  ticket : Nat
  given : List τ
  job : ScanJob τ β
  executed : List (τ × Except ScanError β) := []

namespace StepPart

variable {σ τ β : Type} (execute : τ → σ → Except ScanError β × σ)

/-- The next task is taken unless a result is held back. -/
def taking (part : StepPart τ β) (state : σ) : StepPart τ β :=
  match part.job.held, part.job.tasks with
  | none, task :: _ =>
      { part with executed := part.executed ++ [(task, (execute task state).1)] }
  | some _, _ | none, [] => part

theorem ticket_taking (part : StepPart τ β) (state : σ) :
    (part.taking execute state).ticket = part.ticket := by
  unfold taking
  split <;> rfl

theorem given_taking (part : StepPart τ β) (state : σ) :
    (part.taking execute state).given = part.given := by
  unfold taking
  split <;> rfl

/-- The tasks that a job took are the first of those dealt to it, and their results are sent or in
its hands; a job that failed is known to have failed, and one that completed has nothing left. -/
structure Accounted (part : StepPart τ β) (sent : List β) (completed failed : Prop) : Prop where
  taken : part.given = part.executed.map Prod.fst ++ part.job.tasks
  genuine : ∀ entry ∈ part.executed, ∃ state, (execute entry.1 state).1 = entry.2
  delivered : sent ++ (part.job.offered.toList ++ part.job.held.toList) =
    JobHistory.successes part.executed
  alone : part.job.offered = none ∨ part.job.held = none
  failing : ∀ task error, (task, .error error) ∈ part.executed → failed
  finished : completed → part.job.tasks = [] ∧ part.job.offered = none ∧ part.job.held = none

/-- What a step of a run makes of the part that took its task before. -/
structure Advances (part : StepPart τ β) (before : Channel β)
    (step : Option RunOutcome × JobSession σ τ β) (sent : List β) (failed : Prop) : Prop where
  isOpen : step.2.channel.isOpen = before.isOpen
  accounted : before.isOpen = true → ∃ added,
    step.2.channel.queued = before.queued ++ added ∧
    Accounted execute { part with job := step.2.job } (sent ++ added)
      (step.1 = some (.finished .complete)) (failed ∨ ∃ error, step.1 = some (.failed error))

variable {execute} {part : StepPart τ β} {session : JobSession σ τ β} {sent : List β}
  {completed failed : Prop}

theorem Accounted.weaken (accounted : part.Accounted execute sent completed failed)
    {fewer more : Prop} (done : fewer → completed) (broken : failed → more) :
    part.Accounted execute sent fewer more :=
  ⟨accounted.taken, accounted.genuine, accounted.delivered, accounted.alone,
    fun task error member => broken (accounted.failing task error member),
    fun complete => accounted.finished (done complete)⟩

/-- What the execution of a task gives is in hand unless it is an error. -/
theorem Accounted.take (accounted : part.Accounted execute sent False failed)
    (offered : part.job.offered = none) (held : part.job.held = none) {task : τ} {rest : List τ}
    (tasks : part.job.tasks = task :: rest) {state : σ} {outcome : Except ScanError β}
    (executed : (execute task state).1 = outcome) :
    Accounted execute
      { part with
        job := { part.job with tasks := rest, held := outcome.toOption }
        executed := part.executed ++ [(task, outcome)] }
      sent False (failed ∨ ∃ error, outcome = .error error) := by
  refine ⟨?_, ?_, ?_, .inl offered, fun other error member => ?_, False.elim⟩
  · rw [accounted.taken, tasks]
    simp
  · exact List.forall_mem_append.mpr ⟨accounted.genuine,
      List.forall_mem_singleton.mpr ⟨state, executed⟩⟩
  · have delivered := accounted.delivered
    rw [offered, held, Option.toList_none, List.append_nil, List.append_nil] at delivered
    rw [JobHistory.successes, List.filterMap_append, ← JobHistory.successes, ← delivered, offered]
    cases outcome <;> rfl
  · rcases List.mem_append.mp member with old | new
    · exact .inl (accounted.failing other error old)
    · cases List.mem_singleton.mp new
      exact .inr ⟨error, rfl⟩

/-- The job changes hands with a result: it is in the channel, offered or held back. -/
theorem Accounted.withJob (accounted : part.Accounted execute sent False failed)
    {job : ScanJob τ β} {sentNow : List β} (tasks : job.tasks = part.job.tasks)
    (delivered : sentNow ++ (job.offered.toList ++ job.held.toList) =
      sent ++ (part.job.offered.toList ++ part.job.held.toList))
    (alone : job.offered = none ∨ job.held = none) :
    Accounted execute { part with job } sentNow False failed :=
  ⟨tasks ▸ accounted.taken, accounted.genuine, delivered.trans accounted.delivered, alone,
    accounted.failing, False.elim⟩

/-- A result in hand is sent, or the reader is gone, or the job keeps it. -/
theorem advances_deliver (session : JobSession σ τ β) {result : β}
    (inHand : session.channel.isOpen = true → session.job.held = none ∧
      Accounted execute { part with job := { session.job with held := some result } } sent False
        failed) :
    part.Advances execute session.channel (session.deliver result) sent failed := by
  obtain ⟨opened, same⟩ | ⟨closed, same⟩ | ⟨opened, _, same⟩ | ⟨opened, _, same⟩ :=
    JobSession.deliver_cases session result
  · obtain ⟨held, accounted⟩ := inHand opened
    have offered : session.job.offered = none :=
      accounted.alone.resolve_right (Option.some_ne_none result)
    have sends : Accounted execute { part with job := session.job } (sent ++ [result]) False
        failed := by
      refine accounted.withJob rfl ?_ (.inl offered)
      simp [offered, held]
    rw [same]
    exact ⟨rfl, fun _ => ⟨[result], rfl, sends.weaken (fun done => by cases done) .inl⟩⟩
  · rw [same]
    exact ⟨rfl, fun opened => absurd (closed.symm.trans opened) Bool.false_ne_true⟩
  · rw [same]
    refine ⟨rfl, fun _ => ⟨[], (List.append_nil _).symm, ?_⟩⟩
    rw [List.append_nil]
    exact (inHand opened).2.weaken (fun done => by cases done) .inl
  · obtain ⟨held, accounted⟩ := inHand opened
    have offered : session.job.offered = none :=
      accounted.alone.resolve_right (Option.some_ne_none result)
    have offers : Accounted execute { part with job := (session.offering result).job } sent False
        failed := by
      refine accounted.withJob rfl ?_ (.inr held)
      simp [JobSession.offering, offered, held]
    rw [same]
    refine ⟨rfl, fun _ => ⟨[], (List.append_nil _).symm, ?_⟩⟩
    rw [List.append_nil]
    exact offers.weaken (fun done => by cases done) .inl

section Moves

variable (job : session.job = part.job)
  (accounted : session.channel.isOpen = true → part.Accounted execute sent False failed)

include job accounted

theorem advances_turn (offered : part.job.offered = none) :
    (part.taking execute session.state).Advances execute session.channel (session.turn execute)
      sent failed := by
  obtain ⟨result, held, turned⟩ | ⟨held, tasks, turned⟩ |
    ⟨task, rest, error, state, held, tasks, executed, turned⟩ |
    ⟨task, rest, result, state, held, tasks, executed, turned⟩ :=
      JobSession.turn_cases execute session
  · have untaken : part.taking execute session.state = part := by
      simp only [taking, ← job, held]
    have same : { session.release.job with held := some result } = part.job := by
      rw [JobSession.release, ← held, ← job]
    rw [untaken, turned]
    refine advances_deliver session.release fun opened => ⟨rfl, ?_⟩
    rw [same]
    exact accounted opened
  · have untaken : part.taking execute session.state = part := by
      simp only [taking, ← job, held, tasks]
    rw [untaken, turned]
    refine ⟨rfl, fun opened => ⟨[], (List.append_nil _).symm, ?_⟩⟩
    have before := accounted opened
    rw [List.append_nil, job]
    exact ⟨before.taken, before.genuine, before.delivered, before.alone,
      fun task error member => .inl (before.failing task error member),
      fun _ => ⟨job ▸ tasks, offered, job ▸ held⟩⟩
  · have failing : part.taking execute session.state =
        { part with executed := part.executed ++ [(task, .error error)] } := by
      simp only [taking, ← job, held, tasks, executed]
    have same : (session.taking rest state).job =
        { part.job with tasks := rest, held := none } := by
      rw [JobSession.taking, ← held, ← job]
    rw [failing, turned]
    refine ⟨rfl, fun opened => ⟨[], (List.append_nil _).symm, ?_⟩⟩
    rw [same, List.append_nil]
    rw [job] at held tasks
    have taken := (accounted opened).take offered held tasks (congrArg Prod.fst executed)
    exact taken.weaken (fun done => by cases done) fun broken =>
      broken.imp_right fun _ => ⟨error, rfl⟩
  · have succeeding : part.taking execute session.state =
        { part with executed := part.executed ++ [(task, .ok result)] } := by
      simp only [taking, ← job, held, tasks, executed]
    have same : { (session.taking rest state).job with held := some result } =
        { part.job with tasks := rest, held := some result } := by
      rw [JobSession.taking, ← job]
    rw [succeeding, turned]
    refine advances_deliver (session.taking rest state) fun opened => ⟨held, ?_⟩
    rw [same]
    rw [job] at held tasks
    have taken := (accounted opened).take offered held tasks (congrArg Prod.fst executed)
    refine taken.weaken id fun broken => broken.resolve_right ?_
    rintro ⟨error, same⟩
    cases same

theorem advances_retry :
    part.Advances execute session.channel session.retry sent failed := by
  cases offered : session.job.offered with
  | none =>
      rw [JobSession.retry, offered]
      refine ⟨rfl, fun opened => ⟨[], (List.append_nil _).symm, ?_⟩⟩
      rw [List.append_nil, job]
      exact (accounted opened).weaken (fun done => by cases done) .inl
  | some result =>
      have retried : session.retry = session.withdraw.deliver result := by
        rw [JobSession.retry, offered]
      rw [retried]
      refine advances_deliver session.withdraw fun opened => ?_
      rw [JobSession.withdraw, job]
      rw [job] at offered
      have held := (accounted opened).alone.resolve_left (offered ▸ Option.some_ne_none result)
      refine ⟨held, (accounted opened).withJob rfl ?_ (.inl rfl)⟩
      rw [offered, held]
      rfl

end Moves

end StepPart

end ColumnScan
