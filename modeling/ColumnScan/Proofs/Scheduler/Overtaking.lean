import ColumnScan.Proofs.Scheduler.AccumulatedWeight

/-!
# Overtaking

While a transaction waits, another one can be served until it has been charged more than the one
that waits. The job with which it leaves is never charged, so every time it comes back it may be
served for the weight of that job once more. Nothing bounds how often it does.
-/

set_option autoImplicit false

namespace ColumnScan

variable {α : Type}

def totalWeight : List (Job α) → Nat
  | [] => 0
  | job :: rest => job.weight + totalWeight rest

def greatestWeight : List (Job α) → Nat
  | [] => 0
  | job :: rest => max job.weight (greatestWeight rest)

theorem totalWeight_append (jobs : List (Job α)) (job : Job α) :
    totalWeight (jobs ++ [job]) = totalWeight jobs + job.weight := by
  induction jobs with
  | nil => exact Nat.add_comm job.weight 0
  | cons first rest ih =>
      rw [List.cons_append, totalWeight, ih, totalWeight, Nat.add_assoc]

theorem greatestWeight_append (jobs : List (Job α)) (job : Job α) :
    greatestWeight (jobs ++ [job]) = max (greatestWeight jobs) job.weight := by
  induction jobs with
  | nil => exact Nat.max_comm job.weight 0
  | cons first rest ih =>
      rw [List.cons_append, greatestWeight, ih, greatestWeight, Nat.max_assoc]

theorem QueueHistory.popped_prefix_run (history : QueueHistory α)
    (operations : List (QueueOperation α)) : history.popped <+: (history.run operations).popped := by
  induction operations generalizing history with
  | nil => exact List.prefix_rfl
  | cons operation rest ih =>
      have first : history.popped <+: (history.step operation).popped := by
        cases operation with
        | push job => exact List.prefix_rfl
        | pop => exact List.prefix_append _ _
        | remove key => exact List.prefix_rfl
      exact first.trans (ih (history.step operation))

/-- A history in which one transaction is observed. -/
structure Observation (α : Type) extends QueueHistory α where
  observed : Nat
  /-- The weight that the transaction had when it first had jobs. -/
  start? : Option Nat
  /-- The weight of the job with which the transaction left, until it comes back. -/
  uncharged : Nat := 0
  /-- The weight of all jobs with which the transaction left and after which it came back. -/
  forgiven : Nat := 0

namespace Observation

def start (queue : WeightedQueue α) (observed : Nat) : Observation α where
  queue
  observed
  start? := queue.accumulated? observed

def weight? (observation : Observation α) : Option Nat :=
  observation.queue.accumulated? observation.observed

/-- The popped jobs of the transaction. -/
def served (observation : Observation α) : List (Job α) :=
  observation.popped.filter (·.transaction == observation.observed)

def step (observation : Observation α) (operation : QueueOperation α) : Observation α :=
  let next := { observation with toQueueHistory := observation.toQueueHistory.step operation }
  match operation, observation.weight?, next.weight? with
  | .push _, none, some weight =>
      { next with
        start? := observation.start?.or (some weight)
        uncharged := 0
        forgiven := observation.forgiven + observation.uncharged }
  | .pop, some _, none =>
      { next with uncharged := totalWeight observation.queue.pop.1.toList }
  | _, _, _ => next

def run (observation : Observation α) (operations : List (QueueOperation α)) : Observation α :=
  operations.foldl step observation

theorem toQueueHistory_step (observation : Observation α) (operation : QueueOperation α) :
    (observation.step operation).toQueueHistory = observation.toQueueHistory.step operation := by
  unfold step
  dsimp only
  split <;> rfl

theorem observed_step (observation : Observation α) (operation : QueueOperation α) :
    (observation.step operation).observed = observation.observed := by
  unfold step
  dsimp only
  split <;> rfl

theorem served_step_pop {observation : Observation α} {job : Job α}
    (popped : observation.queue.pop.1 = some job) :
    (observation.step .pop).served =
      if job.transaction = observation.observed then observation.served ++ [job]
      else observation.served := by
  have history := congrArg QueueHistory.popped (toQueueHistory_step observation .pop)
  rw [QueueHistory.step, popped, Option.toList_some] at history
  rw [served, history, observed_step, List.filter_append]
  split
  next same => rw [List.filter_cons_of_pos (by simp [same]), List.filter_nil, served]
  next different =>
    rw [List.filter_cons_of_neg (by simp [different]), List.filter_nil, List.append_nil, served]

theorem toQueueHistory_run (observation : Observation α) (operations : List (QueueOperation α)) :
    (observation.run operations).toQueueHistory = observation.toQueueHistory.run operations := by
  induction operations generalizing observation with
  | nil => rfl
  | cons operation rest ih =>
      exact (ih (observation.step operation)).trans
        (congrArg (QueueHistory.run · rest) (toQueueHistory_step observation operation))

section Step

variable {observation : Observation α}

/-- A push changes what is observed only if the transaction comes with it. -/
theorem step_push_cases (invariant : observation.queue.Invariant) (job : Job α) :
    (observation.queue.push job).accumulated? observation.observed = observation.weight? ∧
        observation.step (.push job) =
          { observation with toQueueHistory := observation.toQueueHistory.step (.push job) } ∨
      observation.weight? = none ∧
        (observation.queue.push job).accumulated? observation.observed =
          some observation.queue.entryWeight ∧
        observation.step (.push job) =
          { observation with
            toQueueHistory := observation.toQueueHistory.step (.push job)
            start? := observation.start?.or (some observation.queue.entryWeight)
            uncharged := 0
            forgiven := observation.forgiven + observation.uncharged } := by
  simp only [step, weight?, QueueHistory.step]
  cases before : observation.queue.accumulated? observation.observed with
  | some weight =>
      have kept := WeightedQueue.accumulated?_push_of_some invariant job before
      exact .inl ⟨kept, rfl⟩
  | none =>
      by_cases same : job.transaction = observation.observed
      · have entered := WeightedQueue.accumulated?_push_entering invariant job (same ▸ before)
        rw [same] at entered
        rw [entered]
        exact .inr ⟨rfl, rfl, rfl⟩
      · have kept := WeightedQueue.accumulated?_push_of_ne invariant job same
        rw [kept, before]
        exact .inl ⟨rfl, rfl⟩

/-- A pop changes what is observed only if it takes the last job of the transaction. -/
theorem step_pop_cases {job : Job α} {weight : Nat} (popped : observation.queue.pop.1 = some job)
    (charges : observation.queue.Charges observation.queue.pop.2 job weight) :
    job.transaction ≠ observation.observed ∧
        observation.queue.pop.2.accumulated? observation.observed = observation.weight? ∧
        observation.step .pop =
          { observation with toQueueHistory := observation.toQueueHistory.step .pop } ∨
      job.transaction = observation.observed ∧
        observation.weight? = some weight ∧
        (observation.queue.pop.2.accumulated? observation.observed = some (weight + job.weight) ∧
            observation.step .pop =
              { observation with toQueueHistory := observation.toQueueHistory.step .pop } ∨
          observation.queue.pop.2.accumulated? observation.observed = none ∧
            observation.step .pop =
              { observation with
                toQueueHistory := observation.toQueueHistory.step .pop
                uncharged := job.weight }) := by
  simp only [step, weight?, QueueHistory.step]
  by_cases same : job.transaction = observation.observed
  · have held := charges.held
    have charged := charges.charged
    rw [same] at held charged
    refine .inr ⟨same, held, ?_⟩
    rcases charged with left | stayed
    · refine .inr ⟨left, ?_⟩
      rw [held, left, popped]
      simp [totalWeight]
    · refine .inl ⟨stayed, ?_⟩
      rw [held, stayed]
  · have kept := charges.others same
    refine .inl ⟨same, kept, ?_⟩
    rw [kept]
    cases observation.queue.accumulated? observation.observed <;> rfl

end Step

end Observation

namespace WeightedQueue

/-- The weight of a transaction, or what it would be if the job with which the transaction left were
charged when it comes back. -/
def level (queue : WeightedQueue α) (transaction uncharged : Nat) : Nat :=
  (queue.accumulated? transaction).getD (queue.entryWeight + uncharged)

variable {queue : WeightedQueue α} {transaction : Nat} (uncharged : Nat)

theorem level_of_some {weight : Nat} (held : queue.accumulated? transaction = some weight) :
    queue.level transaction uncharged = weight := by
  rw [level, held]
  rfl

theorem level_of_none (absent : queue.accumulated? transaction = none) :
    queue.level transaction uncharged = queue.entryWeight + uncharged := by
  rw [level, absent]
  rfl

theorem level_le_of_kept {next : WeightedQueue α} (entry : queue.entryWeight ≤ next.entryWeight)
    (kept : next.accumulated? transaction = queue.accumulated? transaction) :
    queue.level transaction uncharged ≤ next.level transaction uncharged := by
  unfold level
  rw [kept]
  cases queue.accumulated? transaction with
  | none => exact Nat.add_le_add_right entry uncharged
  | some weight => exact Nat.le_refl weight

end WeightedQueue

namespace Observation

/-- Another transaction waits, and the observed one was served within the bound that this sets. -/
structure Bounded (waiting bound : Nat) (observation : Observation α) : Prop where
  invariant : observation.queue.Invariant
  ordered : SchedulePlace.Ordered observation.queue.schedule
  waits : observation.queue.accumulated? waiting = some bound
  unstarted : observation.start? = none → observation.weight? = none ∧ observation.served = []
  charged : ∀ weight, observation.start? = some weight →
    totalWeight observation.served + weight ≤
      observation.queue.level observation.observed observation.uncharged + observation.forgiven
  limited : ∀ weight, observation.start? = some weight →
    totalWeight observation.served ≤
      (bound - weight) + greatestWeight observation.served + observation.forgiven

namespace Bounded

theorem start {queue : WeightedQueue α} (invariant : queue.Invariant)
    (ordered : SchedulePlace.Ordered queue.schedule) {waiting bound : Nat}
    (waits : queue.accumulated? waiting = some bound) (observed : Nat) :
    (Observation.start queue observed).Bounded waiting bound := by
  refine ⟨invariant, ordered, waits, fun absent => ⟨absent, rfl⟩, ?_, fun _ _ => Nat.zero_le _⟩
  intro weight held
  have level := WeightedQueue.level_of_some 0 held
  exact Nat.le_of_eq ((Nat.zero_add weight).trans level.symm)

variable {waiting bound : Nat} {observation : Observation α}
  (bounded : observation.Bounded waiting bound)

include bounded

theorem step_push (job : Job α) : (observation.step (.push job)).Bounded waiting bound := by
  obtain ⟨invariant, ordered, waits, unstarted, charged, limited⟩ := bounded
  have next := WeightedQueue.invariant_push invariant job
  have nextOrdered := WeightedQueue.ordered_push invariant ordered job
  have nextWaits := WeightedQueue.accumulated?_push_of_some invariant job waits
  have entry := WeightedQueue.entryWeight_push invariant job
  obtain ⟨kept, stepped⟩ | ⟨absent, entered, stepped⟩ := step_push_cases invariant job
  · rw [stepped]
    have level := WeightedQueue.level_le_of_kept observation.uncharged (Nat.le_of_eq entry.symm) kept
    refine ⟨next, nextOrdered, nextWaits, ?_, ?_, limited⟩
    · intro none
      exact ⟨kept.trans (unstarted none).1, (unstarted none).2⟩
    · intro weight started
      exact Nat.le_trans (charged weight started) (Nat.add_le_add_right level _)
  -- The transaction is back at the entry weight, and the job with which it left is forgiven.
  · rw [stepped]
    have before := WeightedQueue.level_of_none observation.uncharged absent
    have after := WeightedQueue.level_of_some 0 entered
    refine ⟨next, nextOrdered, nextWaits, ?_, ?_, ?_⟩
    · intro none
      cases (Option.or_eq_none_iff.mp none).2
    · intro weight started
      change totalWeight observation.served + weight ≤
        (observation.queue.push job).level observation.observed 0 +
          (observation.forgiven + observation.uncharged)
      rcases Option.or_eq_some_iff.mp started with known | ⟨unknown, weighs⟩
      · have settled := charged weight known
        omega
      · cases weighs
        rw [(unstarted unknown).2, after, totalWeight, Nat.zero_add]
        exact Nat.le_add_right _ _
    · intro weight started
      change totalWeight observation.served ≤
        (bound - weight) + greatestWeight observation.served +
          (observation.forgiven + observation.uncharged)
      rcases Option.or_eq_some_iff.mp started with known | ⟨unknown, _⟩
      · have settled := limited weight known
        omega
      · rw [(unstarted unknown).2]
        exact Nat.zero_le _

/-- The observed transaction had not been charged more than the one that waits when it was served. -/
theorem serve {next : Observation α} {job : Job α} {weight : Nat}
    (held : observation.weight? = some weight) (least : weight ≤ bound)
    (invariant : next.queue.Invariant) (ordered : SchedulePlace.Ordered next.queue.schedule)
    (waits : next.queue.accumulated? waiting = some bound)
    (started : next.start? = observation.start?) (forgiven : next.forgiven = observation.forgiven)
    (served : next.served = observation.served ++ [job])
    (level : weight + job.weight ≤ next.queue.level next.observed next.uncharged) :
    next.Bounded waiting bound := by
  have before := WeightedQueue.level_of_some observation.uncharged held
  refine ⟨invariant, ordered, waits, ?_, ?_, ?_⟩
  · intro none
    have absent := (bounded.unstarted (started ▸ none)).1
    rw [held] at absent
    cases absent
  · intro first known
    have charged := bounded.charged first (started ▸ known)
    rw [served, totalWeight_append, forgiven]
    omega
  · intro first known
    have charged := bounded.charged first (started ▸ known)
    rw [served, totalWeight_append, greatestWeight_append, forgiven]
    omega

theorem step_pop (unserved : ∀ job ∈ observation.queue.pop.1, job.transaction ≠ waiting) :
    (observation.step .pop).Bounded waiting bound := by
  have next := WeightedQueue.invariant_pop bounded.invariant
  have ordered := WeightedQueue.ordered_pop bounded.invariant bounded.ordered
  obtain ⟨job, popped⟩ := WeightedQueue.exists_popped bounded.invariant bounded.waits
  obtain ⟨first, charges⟩ :=
    WeightedQueue.pop_charges bounded.invariant bounded.ordered popped
  have waits := (charges.others (unserved job popped)).trans bounded.waits
  have least := charges.least bounded.waits
  have entry := charges.le_entryWeight waits
  have served := served_step_pop popped
  obtain ⟨different, kept, stepped⟩ |
    ⟨same, held, ⟨stayed, stepped⟩ | ⟨left, stepped⟩⟩ := step_pop_cases popped charges
  -- Another transaction was served, so the weight at which to enter can only have grown.
  · rw [if_neg different] at served
    have level := WeightedQueue.level_le_of_kept observation.uncharged
      (Nat.le_trans charges.entryWeight_le entry) kept
    rw [stepped] at served ⊢
    refine ⟨next, ordered, waits, ?_, ?_, ?_⟩
    · intro none
      exact ⟨kept.trans (bounded.unstarted none).1, served.trans (bounded.unstarted none).2⟩
    · intro weight started
      rw [served]
      exact Nat.le_trans (bounded.charged weight started) (Nat.add_le_add_right level _)
    · intro weight started
      rw [served]
      exact bounded.limited weight started
  · rw [if_pos same] at served
    have level := WeightedQueue.level_of_some observation.uncharged stayed
    rw [stepped] at served ⊢
    exact bounded.serve held least next ordered waits rfl rfl served (Nat.le_of_eq level.symm)
  -- The transaction left without being charged; nobody is scheduled below the weight it had.
  · rw [if_pos same] at served
    have level := WeightedQueue.level_of_none job.weight left
    rw [stepped] at served ⊢
    refine bounded.serve held least next ordered waits rfl rfl served ?_
    exact Nat.le_trans (Nat.add_le_add_right entry job.weight) (Nat.le_of_eq level.symm)

end Bounded

theorem Bounded.run {waiting bound : Nat} {observation : Observation α}
    (bounded : observation.Bounded waiting bound) {course : List (QueueOperation α)}
    (noRemoval : ∀ key, .remove key ∉ course)
    (unserved : ∀ job ∈ (observation.run course).popped, job.transaction ≠ waiting) :
    (observation.run course).Bounded waiting bound := by
  induction course generalizing observation with
  | nil => exact bounded
  | cons operation rest ih =>
      have later : ∀ key, .remove key ∉ rest := fun key present =>
        noRemoval key (List.mem_cons_of_mem operation present)
      refine ih ?_ later unserved
      cases operation with
      | push job => exact bounded.step_push job
      | pop =>
          refine bounded.step_pop fun job popped => unserved job ?_
          change job ∈ ((observation.step .pop).run rest).popped
          rw [toQueueHistory_run, toQueueHistory_step]
          apply (QueueHistory.popped_prefix_run _ _).subset
          exact List.mem_append_right _ (Option.mem_toList.mpr popped)
      | remove key => exact absurd List.mem_cons_self (noRemoval key)

end Observation

namespace WeightedQueue

/-- A queue in which one job waits. -/
def holding (waiting : Job α) (nextGeneration : Nat) : WeightedQueue α where
  transactions := [{ transaction := waiting.transaction, generation := 0, jobs := [waiting] }]
  schedule := [{ weight := 0, transaction := waiting.transaction, generation := 0 }]
  nextGeneration
  pending := 1

theorem pop_push_holding {waiting returning : Job α}
    (smaller : returning.transaction < waiting.transaction) (nextGeneration : Nat) :
    ((holding waiting nextGeneration).push returning).pop =
      (some returning, holding waiting (nextGeneration + 1)) := by
  have other : (waiting.transaction == returning.transaction) = false :=
    beq_eq_false_iff_ne.mpr (Nat.ne_of_gt smaller)
  have pushed : (holding waiting nextGeneration).push returning =
      { holding waiting (nextGeneration + 1) with
        pending := 2
        schedule :=
          { weight := 0, transaction := returning.transaction, generation := nextGeneration } ::
            (holding waiting nextGeneration).schedule
        transactions := (holding waiting nextGeneration).transactions ++
          [{ transaction := returning.transaction
             generation := nextGeneration
             jobs := [returning] }] } := by
    simp [push, find?, other, holding, entryWeight, SchedulePlace.insert, SchedulePlace.precedes,
      smaller]
  rw [pushed]
  simp [pop, pop.go, jobsAt, find?, afterTaking, holding, other, Nat.ne_of_gt smaller]

end WeightedQueue

theorem QueueHistory.popped_run_holding {waiting returning : Job α}
    (smaller : returning.transaction < waiting.transaction) (rounds : Nat)
    {history : QueueHistory α} {generation : Nat}
    (held : history.queue = .holding waiting generation) :
    (history.run (List.replicate rounds [.push returning, .pop]).flatten).popped =
      history.popped ++ List.replicate rounds returning := by
  induction rounds generalizing history generation with
  | zero => simp [run]
  | succ rounds ih =>
      have served := WeightedQueue.pop_push_holding smaller generation
      have next : ((history.step (.push returning)).step .pop).queue =
          .holding waiting (generation + 1) := by
        simp only [step, held, served]
      rw [List.replicate_succ, List.flatten_cons, run, List.foldl_append]
      refine (ih next).trans ?_
      simp only [step, held, served, Option.toList_some, List.append_assoc, List.singleton_append,
        List.replicate_succ]

/-- A transaction that leaves with every job and comes back is served without limit, while one with a
greater number waits. -/
theorem QueueHistory.served_without_limit {waiting returning : Job α}
    (smaller : returning.transaction < waiting.transaction) (rounds : Nat) :
    (run {} (.push waiting ::
      (List.replicate rounds [.push returning, .pop]).flatten)).popped =
        List.replicate rounds returning := by
  have entered : (step {} (.push waiting)).queue = .holding waiting 1 := rfl
  exact popped_run_holding smaller rounds entered

/-- After any operations on an empty queue: while one transaction waits and is not served, the jobs
popped from another weigh at most what the other had been charged less at its start, plus its
heaviest job, plus the jobs with which it left before it came back. -/
theorem QueueHistory.served_weight_le (operations course : List (QueueOperation α))
    {waiting bound : Nat} (observed : Nat) :
    let queue := (run {} operations).queue
    let observation := (Observation.start queue observed).run course
    queue.accumulated? waiting = some bound →
    (∀ key, .remove key ∉ course) →
    (∀ job ∈ (run { queue } course).popped, job.transaction ≠ waiting) →
    (observation.start? = none → observation.served = []) ∧
      ∀ weight, observation.start? = some weight →
        totalWeight observation.served ≤
          (bound - weight) + greatestWeight observation.served + observation.forgiven := by
  intro queue observation waits noRemoval unserved
  have accounted : (run ({} : QueueHistory α) operations).Accounted := accounted_empty.run operations
  have ordered := ordered_run_empty operations
  have bounded := Observation.Bounded.start accounted.invariant ordered waits observed
  have final := bounded.run noRemoval (by rwa [Observation.toQueueHistory_run])
  exact ⟨fun none => (final.unstarted none).2, final.limited⟩

theorem QueueHistory.served_weight_le_returning :
    let operations : List (QueueOperation Unit) :=
      [.push { transaction := 2, work := () }, .push { transaction := 1, work := (), weight := 3 }]
    let course : List (QueueOperation Unit) :=
      [.pop, .push { transaction := 1, work := (), weight := 5 }, .pop]
    let queue := (run {} operations).queue
    let observation := (Observation.start queue 1).run course
    observation.start? = some 0 ∧ observation.forgiven = 3 ∧
      totalWeight observation.served ≤
        (0 - 0) + greatestWeight observation.served + observation.forgiven := by
  intro operations course queue observation
  have waits : queue.accumulated? 2 = some 0 := by decide
  have noRemoval : ∀ key, .remove key ∉ course := by simp [course]
  have unserved : ∀ job ∈ (run { queue } course).popped, job.transaction ≠ 2 := by decide
  have started : observation.start? = some 0 := by decide
  have forgiven : observation.forgiven = 3 := by decide
  have limited := served_weight_le operations course 1 waits noRemoval unserved
  exact ⟨started, forgiven, limited.2 0 started⟩

/-- A transaction that comes back is served again although one that was charged as little waits, and
this can go on without limit. -/
theorem QueueHistory.returning_overtakes :
    let waiting : Job Unit := { transaction := 2, work := () }
    let returning : Job Unit := { transaction := 1, work := () }
    let course : List (QueueOperation Unit) := [.pop, .push returning, .pop]
    let queue := (run {} [.push waiting, .push returning]).queue
    let observation := (Observation.start queue 1).run course
    (queue.accumulated? 2 = some 0 ∧ observation.start? = some 0 ∧
      (∀ job ∈ (run { queue } course).popped, job.transaction ≠ 2) ∧
      ¬totalWeight observation.served ≤ (0 - 0) + greatestWeight observation.served) ∧
    ∀ rounds, (run {} (.push waiting ::
      (List.replicate rounds [.push returning, .pop]).flatten)).popped =
        List.replicate rounds returning := by
  intro waiting returning course queue observation
  exact ⟨by decide, served_without_limit (by decide)⟩

end ColumnScan
