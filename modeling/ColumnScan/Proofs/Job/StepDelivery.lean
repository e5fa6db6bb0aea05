import ColumnScan.Proofs.Job.Dealing
import ColumnScan.Proofs.Job.StepRuns

/-!
# What a step delivers

Once all its jobs have completed, a step has executed each of its tasks once and sent each result
once, however the workers and the reader took turns.
-/

set_option autoImplicit false

namespace ColumnScan

variable {σ τ β : Type} {execute : τ → σ → Except ScanError β × σ}

/-- A list of executions without an error pairs tasks with their results. -/
theorem exists_answers {executed : List (τ × Except ScanError β)}
    (succeeded : ∀ task error, (task, .error error) ∉ executed) :
    ∃ answers : List (τ × β),
      executed = answers.map fun (task, result) => (task, .ok result) := by
  induction executed with
  | nil => exact ⟨[], rfl⟩
  | cons entry rest ih =>
      obtain ⟨answers, rfl⟩ := ih fun task error member =>
        succeeded task error (List.mem_cons_of_mem _ member)
      obtain ⟨task, outcome⟩ := entry
      cases outcome with
      | error error => exact absurd List.mem_cons_self (succeeded task error)
      | ok result => exact ⟨(task, result) :: answers, rfl⟩

/-- What a job of a step has done if it was given these tasks and got these results. -/
structure StepPart.Answers (execute : τ → σ → Except ScanError β × σ) (part : StepPart τ β)
    (sent : List β) (answers : List (τ × β)) : Prop where
  given : answers.map Prod.fst = part.given
  executed : part.executed = answers.map fun (task, result) => (task, .ok result)
  sent : sent = answers.map Prod.snd
  genuine : ∀ answer ∈ answers, ∃ state, (execute answer.1 state).1 = .ok answer.2

theorem StepPart.Accounted.exists_answers {part : StepPart τ β} {sent : List β}
    {completed failed : Prop} (accounted : part.Accounted execute sent completed failed)
    (complete : completed) (healthy : ¬failed) : ∃ answers, part.Answers execute sent answers := by
  obtain ⟨tasks, offered, held⟩ := accounted.finished complete
  obtain ⟨answers, executed⟩ := ColumnScan.exists_answers fun task error member =>
    healthy (accounted.failing task error member)
  refine ⟨answers, ?_, executed, ?_, fun answer member => ?_⟩
  · rw [accounted.taken, tasks, executed, List.append_nil, List.map_map]
    rfl
  · have delivered := accounted.delivered
    rw [offered, held, Option.toList_none, List.append_nil, List.append_nil] at delivered
    rw [delivered, executed, JobHistory.successes, List.filterMap_map]
    exact congrFun List.filterMap_eq_map answers
  · exact accounted.genuine (answer.1, .ok answer.2) (executed ▸ List.mem_map_of_mem member)

namespace StepHistory

variable {history : StepHistory σ τ β} {step : ScanStep} {tasks : List τ}

/-- The parts that were submitted and the jobs that were not are as many as the step has. -/
theorem Accounted.length_parts (accounted : history.Accounted execute (step.split tasks)) :
    history.parts.length + history.unsubmitted.length = min (max step.jobLimit 1) tasks.length := by
  have dealt := congrArg List.length accounted.dealt
  rwa [List.length_append, List.length_map, List.length_map, ScanStep.length_split] at dealt

section Completed

variable (accounted : history.Accounted execute (step.split tasks))
  (opened : history.channel.isOpen = true) (submitted : history.unsubmitted = [])
  (completed : ∀ part ∈ history.parts, part.ticket ∈ history.pool.completedTickets)

include accounted opened submitted completed

/-- Every hand of the tasks has its answers, those of the job that it was dealt to. -/
theorem exists_hand_answers (index : Nat) :
    ∃ answers : List (τ × β),
      answers.map Prod.fst = ScanStep.hand tasks (step.jobCount tasks) index ∧
      (∀ answer ∈ answers, ∃ state, (execute answer.1 state).1 = .ok answer.2) ∧
      ∀ part, history.parts[index]? = some part →
        part.Answers execute (sentBy history.sent part.ticket) answers := by
  have dealt := accounted.dealt
  rw [submitted, List.map_nil, List.append_nil] at dealt
  have given := step.getD_split tasks index
  rw [← dealt, List.getElem?_map] at given
  cases found : history.parts[index]? with
  | none =>
      rw [found] at given
      exact ⟨[], given, nofun, nofun⟩
  | some part =>
      rw [found] at given
      have member := List.mem_of_getElem? found
      obtain ⟨answers, answered⟩ := (accounted.each opened part member).exists_answers
        (completed part member) (accounted.pool.not_failed_of_completed (completed part member))
      refine ⟨answers, answered.given.trans given, answered.genuine, fun other same => ?_⟩
      cases same
      exact answered

/-- The answers of the hands are those of all tasks, and they are what was sent. -/
theorem exists_all_answers :
    ∃ answers : List (τ × β), answers.map Prod.fst = tasks ∧
      (∀ answer ∈ answers, ∃ state, (execute answer.1 state).1 = .ok answer.2) ∧
      (∀ index, ∀ part : StepPart τ β, history.parts[index]? = some part →
        part.Answers execute (sentBy history.sent part.ticket)
          (ScanStep.hand answers (step.jobCount tasks) index)) ∧
      (history.sent.map Prod.snd).Perm (answers.map Prod.snd) := by
  choose pieces values genuine answered using
    exists_hand_answers accounted opened submitted completed
  obtain ⟨answers, all, hands⟩ :=
    ScanStep.exists_dealt Prod.fst (step.jobCount tasks) tasks pieces values
  have enough : answers ≠ [] → 0 < step.jobCount tasks := by
    intro nonempty
    refine step.jobCount_pos fun empty => nonempty ?_
    rwa [empty, List.map_eq_nil_iff] at all
  have dealt := ScanStep.flatMap_hand_perm answers enough
  refine ⟨answers, all, fun answer member => ?_, fun index part found => ?_, ?_⟩
  · obtain ⟨index, _, inHand⟩ := List.mem_flatMap.mp (dealt.mem_iff.mpr member)
    exact genuine index answer (hands index ▸ inHand)
  · rw [hands index]
    exact answered index part found
  · have grouped := (flatMap_filter_perm Prod.fst accounted.distinct accounted.owned).map Prod.snd
    have count := accounted.length_parts
    rw [submitted, List.length_nil, Nat.add_zero] at count
    have same : (history.parts.map StepPart.ticket).map (sentBy history.sent) =
        (List.range (step.jobCount tasks)).map fun index =>
          (ScanStep.hand answers (step.jobCount tasks) index).map Prod.snd := by
      refine List.ext_getElem ?_ fun index inside _ => ?_
      · simp only [List.length_map, List.length_range]
        exact count
      · simp only [List.length_map] at inside
        simp only [List.getElem_map, List.getElem_range, hands index]
        exact (answered index _ (List.getElem?_eq_getElem inside)).sent
    have sentAll := grouped.symm
    have answersAll := dealt.map Prod.snd
    rw [List.map_flatMap, List.flatMap_def] at sentAll answersAll
    rw [← same] at answersAll
    exact sentAll.trans answersAll

end Completed

/-- Whatever happens next to a step that is submitted to a pool: it has as many jobs as its limit
and its tasks allow. If all of them were submitted and have completed and the reader is still there,
the results that were sent are, up to their order, one result for each task; each job has executed
the tasks dealt to it once and in their order, and has sent their results in the same order; and
what was sent is what the reader has received and what is in the channel. The turns of a worker are
those of its job's runs: if nobody comes in between, one turn or more make up a run, and another try
to send and a number of turns make up the rest of a run that waits. -/
theorem run_sends_once (execute : τ → σ → Except ScanError β × σ) (size : WorkerCounts)
    (step : ScanStep) (tasks : List τ) (capacity : Option Nat) (state : σ)
    (events : List (StepEvent σ τ)) :
    let history := (start size step tasks capacity state).run execute events
    let count := min (max step.jobLimit 1) tasks.length
    history.parts.length + history.unsubmitted.length = count ∧
    (history.channel.isOpen = true → history.unsubmitted = [] →
      (∀ part ∈ history.parts, part.ticket ∈ history.pool.completedTickets) →
      ∃ answers : List (τ × β),
        answers.map Prod.fst = tasks ∧
        (∀ answer ∈ answers, ∃ state, (execute answer.1 state).1 = .ok answer.2) ∧
        (history.sent.map Prod.snd).Perm (answers.map Prod.snd) ∧
        (∀ index, ∀ part : StepPart τ β, history.parts[index]? = some part →
          part.Answers execute (sentBy history.sent part.ticket)
            (ScanStep.hand answers count index)) ∧
        history.received ++ history.channel.queued = history.sent.map Prod.snd) ∧
    ∀ number part, history.part? number = some part →
      (part.job.offered = none →
        ∃ turns, 0 < turns ∧ history.Reaches
          (history.run execute (List.replicate turns (.move number .turn))) number part
          ((history.session part).run execute)) ∧
      ∀ result, part.job.offered = some result →
        ∃ turns, history.Reaches
          (history.run execute (.move number .retry :: List.replicate turns (.move number .turn)))
          number part ((history.session part).resume execute) := by
  intro history count
  have accounted : history.Accounted execute (step.split tasks) :=
    (accounted_start execute size step tasks capacity state).run events
  refine ⟨accounted.length_parts, fun opened submitted completed => ?_, fun number part found =>
    ⟨exists_turns_run found, fun result offered => ?_⟩⟩
  · obtain ⟨answers, all, genuine, hands, sent⟩ :=
      exists_all_answers accounted opened submitted completed
    exact ⟨answers, all, genuine, sent, hands, accounted.passed opened⟩
  · refine exists_turns_resume found offered fun opened => ?_
    have knows := accounted.each opened part (part?_eq_some found).1
    refine knows.alone.resolve_left ?_
    rw [offered]
    exact Option.some_ne_none result

/-- The second job has to hold its result back until the first has completed. -/
theorem run_sends_once_held :
    let execute (task : Nat) (state : Unit) : Except ScanError Nat × Unit :=
      (.ok (10 * task), state)
    let step : ScanStep := { transaction := 1, backpressure := .reschedule, jobLimit := 2 }
    let events : List (StepEvent Unit Nat) :=
      [.submit, .submit, .pool (.dequeue 0), .pool (.dequeue 1), .move 0 .turn, .move 1 .turn,
        .receive, .pool (.requeue 1), .move 0 .turn, .move 0 .turn, .receive, .pool (.dequeue 1),
        .meet 1 .turn, .move 1 .turn]
    let history := (start { medium := 2 } step [1, 2, 3] (some 1) ()).run execute events
    history.sent = [(0, 10), (0, 30), (1, 20)] ∧
    history.received = [10, 30, 20] ∧
    ∃ answers : List (Nat × Nat), answers.map Prod.fst = [1, 2, 3] ∧
      [10, 30, 20].Perm (answers.map Prod.snd) := by
  intro execute step events history
  obtain ⟨_, sends, _⟩ := run_sends_once execute { medium := 2 } step [1, 2, 3] (some 1) () events
  obtain ⟨answers, all, _, sent, _⟩ :=
    sends (by decide +kernel) (by decide +kernel) (by decide +kernel)
  have order : history.sent = [(0, 10), (0, 30), (1, 20)] := by decide +kernel
  have sentAll : (history.sent.map Prod.snd).Perm (answers.map Prod.snd) := sent
  rw [order] at sentAll
  exact ⟨order, by decide +kernel, answers, all, sentAll⟩

end StepHistory

end ColumnScan
