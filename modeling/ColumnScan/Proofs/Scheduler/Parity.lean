import ColumnScan.Proofs.Scheduler.Overtaking
import Mathlib.Data.List.Infix

/-!
# Parity of waiting transactions

Two transactions that keep jobs are served in turns, as their weights ask for: a transaction is
served only while it has not been charged more than the other one, so it gets ahead by no more than
the job that it is served.
-/

set_option autoImplicit false

namespace ColumnScan

variable {α : Type}

/-- What a transaction gets of a popped job: the job if it is its own, and else nothing. -/
def Job.shareOf (job : Job α) (transaction : Nat) : List (Job α) :=
  if job.transaction = transaction then [job] else []

theorem Job.totalWeight_append_shareOf (jobs : List (Job α)) (job : Job α) (transaction : Nat) :
    totalWeight (jobs ++ job.shareOf transaction) =
      totalWeight jobs + totalWeight (job.shareOf transaction) := by
  unfold shareOf
  split
  · exact totalWeight_append jobs job
  · rw [List.append_nil, totalWeight, Nat.add_zero]

namespace WeightedQueue

section Kept

variable {queue : WeightedQueue α} (invariant : queue.Invariant) {transaction : Nat}

include invariant

theorem exists_accumulated (jobs : queue.jobsOf transaction ≠ []) :
    ∃ weight, queue.accumulated? transaction = some weight := by
  refine Option.ne_none_iff_exists'.mp fun absent => jobs ?_
  have unlisted := invariant.accumulated?_eq_none_iff.mp absent
  have missing : queue.find? transaction = none := find?_eq_none_iff.mpr fun entry member same =>
    unlisted (same ▸ List.mem_map_of_mem member)
  rw [jobsOf, missing]
  rfl

/-- A removal changes the weight of no transaction that keeps jobs. -/
theorem accumulated?_remove {key weight : Nat} (held : queue.accumulated? transaction = some weight)
    (jobs : (queue.remove key).2.jobsOf transaction ≠ []) :
    (queue.remove key).2.accumulated? transaction = some weight := by
  have after := invariant_remove invariant key
  obtain ⟨kept, found⟩ := exists_accumulated after jobs
  obtain ⟨entry, member, same, place, present, stands, rfl⟩ :=
    after.accumulated?_eq_some_iff.mp found
  obtain ⟨_, old, oldMember, rfl⟩ := exists_of_mem_remove member
  rw [found, ← held, eq_comm, invariant.accumulated?_eq_some_iff]
  exact ⟨old, oldMember, same, place, present, stands, rfl⟩

end Kept

/-- A transaction that keeps jobs is charged for its share of a popped job. -/
theorem Charges.accumulated?_eq {queue next : WeightedQueue α} {job : Job α} {least : Nat}
    (charges : Charges queue next job least) (invariant : next.Invariant)
    {transaction weight : Nat} (held : queue.accumulated? transaction = some weight)
    (jobs : next.jobsOf transaction ≠ []) :
    next.accumulated? transaction = some (weight + totalWeight (job.shareOf transaction)) := by
  unfold Job.shareOf
  split
  next same =>
    subst same
    cases charges.held.symm.trans held
    obtain ⟨kept, found⟩ := exists_accumulated invariant jobs
    exact charges.charged.resolve_left (by rw [found]; nofun)
  next different => rw [charges.others different, held, totalWeight, Nat.add_zero]

end WeightedQueue

namespace QueueHistory

/-- The jobs of a transaction that were popped. -/
def servedOf (history : QueueHistory α) (transaction : Nat) : List (Job α) :=
  history.popped.filter (·.transaction == transaction)

theorem servedOf_append {history next : QueueHistory α} {job : Job α}
    (popped : next.popped = history.popped ++ [job]) (transaction : Nat) :
    next.servedOf transaction = history.servedOf transaction ++ job.shareOf transaction := by
  rw [servedOf, popped, List.filter_append, servedOf, Job.shareOf]
  split
  next same => rw [List.filter_cons_of_pos (by simp [same]), List.filter_nil]
  next different => rw [List.filter_cons_of_neg (by simp [different]), List.filter_nil]

/-- An operation pops a job, for which its transaction is charged, or leaves the weight of every
transaction that keeps jobs. -/
theorem step_cases {history : QueueHistory α} (invariant : history.queue.Invariant)
    (ordered : SchedulePlace.Ordered history.queue.schedule) (operation : QueueOperation α) :
    (∃ job least, (history.step operation).popped = history.popped ++ [job] ∧
      history.queue.Charges (history.step operation).queue job least) ∨
    (history.step operation).popped = history.popped ∧
      ∀ transaction weight, history.queue.accumulated? transaction = some weight →
        (history.step operation).queue.jobsOf transaction ≠ [] →
          (history.step operation).queue.accumulated? transaction = some weight := by
  cases operation with
  | push job =>
      exact .inr ⟨rfl, fun _ _ held _ => WeightedQueue.accumulated?_push_of_some invariant job held⟩
  | pop =>
      cases popped : history.queue.pop.1 with
      | some job =>
          obtain ⟨least, charges⟩ := WeightedQueue.pop_charges invariant ordered popped
          refine .inl ⟨job, least, ?_, charges⟩
          rw [step, popped, Option.toList_some]
      | none =>
          refine .inr ⟨?_, fun transaction weight held _ => ?_⟩
          · rw [step, popped, Option.toList_none, List.append_nil]
          · obtain ⟨job, found⟩ := WeightedQueue.exists_popped invariant held
            rw [popped] at found
            cases found
  | remove key =>
      exact .inr ⟨rfl, fun _ _ held jobs => WeightedQueue.accumulated?_remove invariant held jobs⟩

/-- A transaction that had been charged `start` and was served `jobs` since is ahead of another one,
of which `otherStart` and `others` say the same, by no more than it was before or than its heaviest
job weighs, and by no more than it was before if it was not served. -/
def LeadBounded (start otherStart : Nat) (jobs others : List (Job α)) : Prop :=
  let before : Int := start - otherStart
  let now : Int := (start + totalWeight jobs) - (otherStart + totalWeight others)
  now ≤ max before (greatestWeight jobs) ∧ (jobs = [] → now ≤ before)

theorem leadBounded_start (start otherStart : Nat) :
    LeadBounded start otherStart ([] : List (Job α)) [] := by
  simp only [LeadBounded, totalWeight, greatestWeight]
  omega

/-- The lead stays bounded if the transaction is served only while it is not ahead. -/
theorem LeadBounded.serve {start otherStart : Nat} {jobs others : List (Job α)}
    (bounded : LeadBounded start otherStart jobs others) {job : Job α} {transaction : Nat}
    (level : job.transaction = transaction →
      start + totalWeight jobs ≤ otherStart + totalWeight others) (other : Nat) :
    LeadBounded start otherStart (jobs ++ job.shareOf transaction)
      (others ++ job.shareOf other) := by
  obtain ⟨within, unserved⟩ := bounded
  unfold LeadBounded
  rw [Job.totalWeight_append_shareOf others]
  by_cases own : job.transaction = transaction
  · have before := level own
    rw [Job.shareOf, if_pos own, totalWeight_append, greatestWeight_append]
    refine ⟨?_, fun none => absurd none (List.concat_ne_nil job jobs)⟩
    omega
  · rw [Job.shareOf, if_neg own, List.append_nil]
    refine ⟨?_, fun none => ?_⟩
    · omega
    · have kept := unserved none
      omega

/-- Two transactions that have jobs, with the weights that they had been charged at first. -/
structure Parity (history : QueueHistory α) (left right leftStart rightStart : Nat) : Prop where
  invariant : history.queue.Invariant
  ordered : SchedulePlace.Ordered history.queue.schedule
  leftHeld : history.queue.accumulated? left =
    some (leftStart + totalWeight (history.servedOf left))
  rightHeld : history.queue.accumulated? right =
    some (rightStart + totalWeight (history.servedOf right))
  leftBounded :
    LeadBounded leftStart rightStart (history.servedOf left) (history.servedOf right)
  rightBounded :
    LeadBounded rightStart leftStart (history.servedOf right) (history.servedOf left)

namespace Parity

variable {history : QueueHistory α} {left right leftStart rightStart : Nat}
  (parity : history.Parity left right leftStart rightStart)

include parity

theorem step (operation : QueueOperation α)
    (leftJobs : (history.step operation).queue.jobsOf left ≠ [])
    (rightJobs : (history.step operation).queue.jobsOf right ≠ []) :
    (history.step operation).Parity left right leftStart rightStart := by
  obtain ⟨invariant, ordered, leftHeld, rightHeld, leftBounded, rightBounded⟩ := parity
  have after := invariant_step invariant operation
  have afterOrdered := ordered_step invariant ordered operation
  obtain ⟨job, least, popped, charges⟩ | ⟨popped, kept⟩ := step_cases invariant ordered operation
  · have leftAfter := charges.accumulated?_eq after leftHeld leftJobs
    have rightAfter := charges.accumulated?_eq after rightHeld rightJobs
    rw [Nat.add_assoc, ← Job.totalWeight_append_shareOf] at leftAfter rightAfter
    -- Who is served has been charged the least of all that wait.
    have leftLevel (own : job.transaction = left) :
        leftStart + totalWeight (history.servedOf left) ≤
          rightStart + totalWeight (history.servedOf right) := by
      cases (own ▸ charges.held).symm.trans leftHeld
      exact charges.least rightHeld
    have rightLevel (own : job.transaction = right) :
        rightStart + totalWeight (history.servedOf right) ≤
          leftStart + totalWeight (history.servedOf left) := by
      cases (own ▸ charges.held).symm.trans rightHeld
      exact charges.least leftHeld
    refine ⟨after, afterOrdered, ?_, ?_, ?_, ?_⟩
    · rw [leftAfter, servedOf_append popped]
    · rw [rightAfter, servedOf_append popped]
    · rw [servedOf_append popped, servedOf_append popped]
      exact leftBounded.serve leftLevel right
    · rw [servedOf_append popped, servedOf_append popped]
      exact rightBounded.serve rightLevel left
  · have unserved (transaction : Nat) :
        (history.step operation).servedOf transaction = history.servedOf transaction := by
      rw [servedOf, popped, servedOf]
    refine ⟨after, afterOrdered, ?_, ?_, ?_, ?_⟩
    · rw [unserved]
      exact kept left _ leftHeld leftJobs
    · rw [unserved]
      exact kept right _ rightHeld rightJobs
    · rw [unserved, unserved]
      exact leftBounded
    · rw [unserved, unserved]
      exact rightBounded

end Parity

/-- A transaction has jobs after every part of a course. -/
def Backlogged (history : QueueHistory α) (course : List (QueueOperation α)) (transaction : Nat) :
    Prop :=
  ∀ past, past <+: course → (history.run past).queue.jobsOf transaction ≠ []

theorem Backlogged.step {history : QueueHistory α} {operation : QueueOperation α}
    {rest : List (QueueOperation α)} {transaction : Nat}
    (backlogged : history.Backlogged (operation :: rest) transaction) :
    (history.step operation).Backlogged rest transaction :=
  fun past early => backlogged (operation :: past) (List.prefix_cons_inj operation |>.mpr early)

theorem Backlogged.now {history : QueueHistory α} {course : List (QueueOperation α)}
    {transaction : Nat} (backlogged : history.Backlogged course transaction) :
    history.queue.jobsOf transaction ≠ [] :=
  backlogged [] List.nil_prefix

theorem Parity.run {history : QueueHistory α} {left right leftStart rightStart : Nat}
    (parity : history.Parity left right leftStart rightStart) {course : List (QueueOperation α)}
    (leftJobs : history.Backlogged course left) (rightJobs : history.Backlogged course right) :
    (history.run course).Parity left right leftStart rightStart := by
  induction course generalizing history with
  | nil => exact parity
  | cons operation rest ih =>
      exact ih (parity.step operation leftJobs.step.now rightJobs.step.now) leftJobs.step
        rightJobs.step

/-- After any operations on an empty queue, and whatever other transactions do meanwhile: while two
transactions keep jobs, each is charged for what it is served, and neither gets further ahead of the
other than it was or than its heaviest popped job weighs. -/
theorem lead_le (operations course : List (QueueOperation α)) (left right : Nat) :
    let start : QueueHistory α := { queue := (run {} operations).queue }
    let history := start.run course
    start.Backlogged course left → start.Backlogged course right →
    ∃ leftStart rightStart : Nat,
      start.queue.accumulated? left = some leftStart ∧
      start.queue.accumulated? right = some rightStart ∧
      history.queue.accumulated? left = some (leftStart + totalWeight (history.servedOf left)) ∧
      history.queue.accumulated? right = some (rightStart + totalWeight (history.servedOf right)) ∧
      LeadBounded leftStart rightStart (history.servedOf left) (history.servedOf right) ∧
      LeadBounded rightStart leftStart (history.servedOf right) (history.servedOf left) := by
  intro start history leftJobs rightJobs
  have accounted : (run ({} : QueueHistory α) operations).Accounted :=
    accounted_empty.run operations
  have ordered := ordered_run_empty operations
  obtain ⟨leftStart, leftHeld⟩ :=
    WeightedQueue.exists_accumulated accounted.invariant leftJobs.now
  obtain ⟨rightStart, rightHeld⟩ :=
    WeightedQueue.exists_accumulated accounted.invariant rightJobs.now
  have parity : start.Parity left right leftStart rightStart :=
    ⟨accounted.invariant, ordered, leftHeld, rightHeld, leadBounded_start leftStart rightStart,
      leadBounded_start rightStart leftStart⟩
  have final := parity.run leftJobs rightJobs
  exact ⟨leftStart, rightStart, leftHeld, rightHeld, final.leftHeld, final.rightHeld,
    final.leftBounded, final.rightBounded⟩

/-- A heavy transaction is served once for every three jobs of a light one, while a third one comes,
is cancelled and comes back. -/
theorem lead_le_heavy :
    let heavy : QueueOperation Unit := .push { transaction := 1, work := (), weight := 3, key := 1 }
    let light : QueueOperation Unit := .push { transaction := 2, work := (), weight := 1, key := 2 }
    let third : QueueOperation Unit := .push { transaction := 3, work := (), key := 3 }
    let operations := [heavy, heavy, heavy, light, light, light, light, light, .pop]
    let course := [third, .pop, .remove 3, .pop, .pop, third, .pop, .pop]
    let start : QueueHistory Unit := { queue := (run {} operations).queue }
    let history := start.run course
    start.queue.accumulated? 1 = some 3 ∧ start.queue.accumulated? 2 = some 0 ∧
      (history.servedOf 1).map Job.weight = [3] ∧
      (history.servedOf 2).map Job.weight = [1, 1, 1, 1] ∧
      LeadBounded 3 0 (history.servedOf 1) (history.servedOf 2) ∧
      LeadBounded 0 3 (history.servedOf 2) (history.servedOf 1) := by
  intro heavy light third operations course start history
  have leftJobs : start.Backlogged course 1 := by
    have each : ∀ past ∈ course.inits, (start.run past).queue.jobsOf 1 ≠ [] := by decide
    exact fun past early => each past ((List.mem_inits past course).mpr early)
  have rightJobs : start.Backlogged course 2 := by
    have each : ∀ past ∈ course.inits, (start.run past).queue.jobsOf 2 ≠ [] := by decide
    exact fun past early => each past ((List.mem_inits past course).mpr early)
  obtain ⟨leftStart, rightStart, leftHeld, rightHeld, _, _, leftBounded, rightBounded⟩ :=
    lead_le operations course 1 2 leftJobs rightJobs
  have leftWeighs : start.queue.accumulated? 1 = some 3 := by decide
  have rightWeighs : start.queue.accumulated? 2 = some 0 := by decide
  cases leftHeld.symm.trans leftWeighs
  cases rightHeld.symm.trans rightWeighs
  exact ⟨leftWeighs, rightWeighs, by decide, by decide, leftBounded, rightBounded⟩

end QueueHistory

end ColumnScan
