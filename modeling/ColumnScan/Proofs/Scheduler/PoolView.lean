import ColumnScan.Proofs.DistinctKeys
import ColumnScan.Proofs.Scheduler.QueueInvariant
import ColumnScan.Scheduler.Pool
import Mathlib.Data.List.Nodup

/-!
# The jobs of a pool

A pool keeps jobs in its queue and with its workers: a worker runs one job, or has one that waits to
be queued again, or has none. No two workers have the same number, so a step of one worker moves its
job and no other. For every step of a pool there is one statement of what it does to the jobs.
-/

set_option autoImplicit false

namespace ColumnScan

variable {α : Type}

namespace WorkerActivity

def running? : WorkerActivity α → Option (Job α)
  | .running job => some job
  | .idle | .yielding _ => none

def yielding? : WorkerActivity α → Option (Job α)
  | .yielding job => some job
  | .idle | .running _ => none

end WorkerActivity

namespace RunEnd

/-- The jobs that wait to be queued again when a run of a job ends. -/
def again (job : Job α) : RunEnd → List (Job α)
  | .finished .reschedule => [job]
  | .finished .complete | .failed _ => []

/-- The reports that a run of a job leaves when it ends. -/
def reports (job : Job α) : RunEnd → List JobFailure
  | .failed message => if job.reports then [job.failure message] else []
  | .finished _ => []

end RunEnd

/-- The jobs in a pool and what became of the failed ones. -/
structure PoolView (α : Type) where
  queued : List (Job α) := []
  running : List (Job α) := []
  yielding : List (Job α) := []
  failures : List JobFailure := []
  stopped : Bool := false

namespace Pool

/-- The jobs that the activities of the workers give. -/
def jobsIn (pool : Pool α) (stage : WorkerActivity α → Option (Job α)) : List (Job α) :=
  pool.workers.filterMap fun worker => stage worker.activity

def view (pool : Pool α) : PoolView α where
  queued := pool.queue.jobs
  running := pool.jobsIn WorkerActivity.running?
  yielding := pool.jobsIn WorkerActivity.yielding?
  failures := pool.failures
  stopped := pool.stopped

/-- The job that a worker took between two states of a pool. -/
def taken? (before after : Pool α) (number : Nat) : Option (Job α) :=
  match before.activity number with
  | .idle => (after.activity number).running?
  | .running _ | .yielding _ => none

/-- The queue keeps its invariant, and no two workers have or will have the same number. -/
structure Sound (pool : Pool α) : Prop where
  queue : pool.queue.Invariant
  distinct : (pool.workers.map Worker.number).Nodup
  fresh : ∀ worker ∈ pool.workers, worker.number < pool.nextWorker

/-- A pool differs from another one by idle workers that were started since. -/
structure Staffs (pool staffed : Pool α) : Prop where
  started : ∃ fresh, staffed.workers = pool.workers ++ fresh ∧
    ∀ worker ∈ fresh, worker.activity = .idle
  sound : pool.Sound → staffed.Sound
  queue : staffed.queue = pool.queue
  failures : staffed.failures = pool.failures
  stopped : staffed.stopped = pool.stopped

namespace Staffs

variable {pool middle staffed : Pool α}

theorem refl (pool : Pool α) : pool.Staffs pool :=
  ⟨⟨[], (List.append_nil _).symm, nofun⟩, id, rfl, rfl, rfl⟩

theorem trans (first : pool.Staffs middle) (second : middle.Staffs staffed) :
    pool.Staffs staffed := by
  obtain ⟨early, earlyShape, earlyIdle⟩ := first.started
  obtain ⟨late, lateShape, lateIdle⟩ := second.started
  refine ⟨⟨early ++ late, ?_, ?_⟩, second.sound ∘ first.sound, second.queue.trans first.queue,
    second.failures.trans first.failures, second.stopped.trans first.stopped⟩
  · rw [lateShape, earlyShape, List.append_assoc]
  · exact List.forall_mem_append.mpr ⟨earlyIdle, lateIdle⟩

theorem foldl {β : Type} {change : Pool α → β → Pool α}
    (staffs : ∀ pool item, Staffs pool (change pool item)) (items : List β) (pool : Pool α) :
    pool.Staffs (items.foldl change pool) := by
  induction items generalizing pool with
  | nil => exact refl pool
  | cons item rest ih => exact (staffs pool item).trans (ih (change pool item))

variable (staffs : pool.Staffs staffed)

include staffs

theorem jobsIn_eq {stage : WorkerActivity α → Option (Job α)} (none : stage .idle = none) :
    staffed.jobsIn stage = pool.jobsIn stage := by
  obtain ⟨fresh, shape, idle⟩ := staffs.started
  have nothing : fresh.filterMap (fun worker => stage worker.activity) = [] :=
    List.filterMap_eq_nil_iff.mpr fun worker member => by rw [idle worker member, none]
  rw [jobsIn, shape, List.filterMap_append, nothing, List.append_nil, jobsIn]

theorem view_eq : staffed.view = pool.view := by
  rw [view, staffs.queue, staffs.jobsIn_eq rfl, staffs.jobsIn_eq rfl, staffs.failures,
    staffs.stopped, view]

theorem worker?_eq {number : Nat} {worker : Worker α} (found : pool.worker? number = some worker) :
    staffed.worker? number = some worker := by
  obtain ⟨fresh, shape, _⟩ := staffs.started
  rw [worker?] at found
  rw [worker?, shape, List.find?_append, found, Option.some_or]

end Staffs

theorem staffs_spawn (pool : Pool α) (role : WorkerRole) : pool.Staffs (pool.spawn role) := by
  have shape : (pool.spawn role).workers =
      pool.workers ++ [{ number := pool.nextWorker, role }] := by
    cases role <;> rfl
  have next : (pool.spawn role).nextWorker = pool.nextWorker + 1 := by cases role <;> rfl
  have queue : (pool.spawn role).queue = pool.queue := by cases role <;> rfl
  refine ⟨⟨_, shape, ?_⟩, fun sound => ⟨queue ▸ sound.queue, ?_, ?_⟩, queue, ?_, ?_⟩
  · intro worker member
    rw [List.mem_singleton.mp member]
  · rw [shape, List.map_append, List.map_singleton, List.nodup_append]
    refine ⟨sound.distinct, List.nodup_singleton _, ?_⟩
    intro number old fresh new same
    obtain ⟨worker, member, rfl⟩ := List.mem_map.mp old
    have bound := sound.fresh worker member
    rw [same, List.mem_singleton.mp new] at bound
    exact Nat.lt_irrefl _ bound
  · intro worker member
    rw [next]
    rw [shape] at member
    rcases List.mem_append.mp member with old | new
    · exact Nat.lt_succ_of_lt (sound.fresh worker old)
    · rw [List.mem_singleton.mp new]
      exact Nat.lt_succ_self _
  all_goals cases role <;> rfl

theorem staffs_restore (pool : Pool α) (priority : Priority) :
    pool.Staffs (pool.restore priority) :=
  Staffs.foldl (fun pool _ => staffs_spawn pool (.baseline priority)) _ pool

theorem staffs_restoreAll (pool : Pool α) : pool.Staffs pool.restoreAll :=
  Staffs.foldl staffs_restore Priority.descending pool

theorem staffs_balanceExtra (pool : Pool α) : pool.Staffs pool.balanceExtra := by
  have told (stopExtra : Bool) : pool.Staffs { pool with stopExtra } :=
    ⟨⟨[], (List.append_nil _).symm, nofun⟩,
      fun ⟨queue, distinct, fresh⟩ => ⟨queue, distinct, fresh⟩, rfl, rfl, rfl⟩
  unfold balanceExtra
  split
  · exact (told false).trans (staffs_spawn _ .extra)
  · split
    · exact told true
    · exact Staffs.refl pool

theorem sound_start (size : WorkerCounts) : (start size : Pool α).Sound :=
  (staffs_restoreAll _).sound ⟨WeightedQueue.invariant_empty, List.nodup_nil, nofun⟩

theorem view_start (size : WorkerCounts) : (start size : Pool α).view = {} :=
  (staffs_restoreAll _).view_eq

theorem exists_staffs_submit (pool : Pool α) (job : Job α) : ∃ staffed, pool.Staffs staffed ∧
    pool.submit job = { staffed with queue := staffed.queue.push job } :=
  ⟨_, (staffs_restoreAll pool).trans (staffs_balanceExtra _), rfl⟩

theorem worker?_submit {pool : Pool α} {number : Nat} {worker : Worker α}
    (found : pool.worker? number = some worker) (job : Job α) :
    (pool.submit job).worker? number = some worker := by
  obtain ⟨staffed, staffs, submitted⟩ := exists_staffs_submit pool job
  rw [submitted]
  exact staffs.worker?_eq found

theorem sound_submit {pool : Pool α} (sound : pool.Sound) (job : Job α) :
    (pool.submit job).Sound := by
  obtain ⟨staffed, staffs, submitted⟩ := exists_staffs_submit pool job
  obtain ⟨queue, distinct, fresh⟩ := staffs.sound sound
  rw [submitted]
  exact ⟨WeightedQueue.invariant_push queue job, distinct, fresh⟩

theorem view_submit {pool : Pool α} (sound : pool.Sound) (job : Job α) :
    ∃ queued, queued.Perm (job :: pool.view.queued) ∧
      (pool.submit job).view = { pool.view with queued } := by
  obtain ⟨staffed, staffs, submitted⟩ := exists_staffs_submit pool job
  refine ⟨(staffed.queue.push job).jobs, ?_, ?_⟩
  · rw [staffs.queue]
    exact WeightedQueue.push_jobs_perm sound.queue job
  · rw [submitted, ← staffs.view_eq]
    rfl

section Exchange

variable {pool : Pool α} (sound : pool.Sound) (number : Nat)

include sound

theorem sound_setActivity (activity : WorkerActivity α) :
    (pool.setActivity number activity).Sound := by
  have renamed : ∀ worker : Worker α,
      (if worker.number = number then { worker with activity } else worker).number =
        worker.number := fun worker => by split <;> rfl
  have numbers : (pool.setActivity number activity).workers.map Worker.number =
      pool.workers.map Worker.number := by
    rw [setActivity, List.map_map]
    exact List.map_congr_left fun worker _ => renamed worker
  refine ⟨sound.queue, numbers ▸ sound.distinct, ?_⟩
  · intro worker member
    obtain ⟨old, present, rfl⟩ := List.mem_map.mp member
    rw [renamed]
    exact sound.fresh old present

theorem sound_dismiss : (pool.dismiss number).Sound :=
  ⟨sound.queue, (List.filter_sublist.map _).nodup sound.distinct,
    fun worker member => sound.fresh worker (List.mem_filter.mp member).1⟩

theorem sound_countOut (role : WorkerRole) : (pool.countOut role).Sound := by
  cases role <;> exact ⟨sound.queue, sound.distinct, sound.fresh⟩

variable {number} {worker : Worker α} (found : pool.worker? number = some worker)
  (stage : WorkerActivity α → Option (Job α))

include found

theorem exists_workers_eq : ∃ before after, pool.workers = before ++ worker :: after ∧
    worker.number = number ∧ ∀ other ∈ before ++ after, other.number ≠ number := by
  obtain ⟨member, rfl⟩ := (find?_key_eq_some_iff Worker.number sound.distinct).mp found
  obtain ⟨before, after, shape, others⟩ :=
    exists_append_of_distinct Worker.number sound.distinct member
  exact ⟨before, after, shape, rfl, others⟩

theorem jobsIn_dismiss (none : stage worker.activity = none) :
    (pool.dismiss number).jobsIn stage = pool.jobsIn stage := by
  obtain ⟨before, after, shape, same, others⟩ := exists_workers_eq sound found
  simp only [jobsIn, dismiss]
  rw [shape, filter_other_keys Worker.number same others]
  simp only [List.filterMap_append, List.filterMap_cons, none]

theorem jobsIn_perm_dismiss {job : Job α} (some : stage worker.activity = some job) :
    (pool.jobsIn stage).Perm (job :: (pool.dismiss number).jobsIn stage) := by
  obtain ⟨before, after, shape, same, others⟩ := exists_workers_eq sound found
  simp only [jobsIn, dismiss]
  rw [shape, filter_other_keys Worker.number same others]
  simp only [List.filterMap_append, List.filterMap_cons, some]
  exact List.perm_middle

theorem worker?_setActivity (activity : WorkerActivity α) :
    (pool.setActivity number activity).worker? number = some { worker with activity } := by
  obtain ⟨member, same⟩ := (find?_key_eq_some_iff Worker.number sound.distinct).mp found
  have changed := (sound_setActivity sound number activity).distinct
  refine (find?_key_eq_some_iff Worker.number changed).mpr ⟨?_, same⟩
  exact List.mem_map.mpr ⟨worker, member, if_pos same⟩

theorem dismiss_setActivity (activity : WorkerActivity α) :
    ((pool.setActivity number activity).dismiss number).workers =
      (pool.dismiss number).workers := by
  obtain ⟨before, after, shape, same, others⟩ := exists_workers_eq sound found
  simp only [setActivity, dismiss]
  rw [shape, map_at_key Worker.number same others, filter_other_keys Worker.number same others]
  exact filter_other_keys Worker.number same others

variable {activity : WorkerActivity α}

theorem jobsIn_setActivity (none : stage activity = none) :
    (pool.setActivity number activity).jobsIn stage = (pool.dismiss number).jobsIn stage := by
  have changed := worker?_setActivity sound found activity
  rw [← jobsIn_dismiss (sound_setActivity sound number activity) changed stage none, jobsIn,
    dismiss_setActivity sound found, jobsIn]

theorem jobsIn_perm_setActivity {job : Job α} (some : stage activity = some job) :
    ((pool.setActivity number activity).jobsIn stage).Perm
      (job :: (pool.dismiss number).jobsIn stage) := by
  have changed := worker?_setActivity sound found activity
  have exchanged := jobsIn_perm_dismiss (sound_setActivity sound number activity) changed stage some
  simpa only [jobsIn, dismiss_setActivity sound found] using exchanged

end Exchange

theorem activity_eq {pool : Pool α} {number : Nat} {worker : Worker α}
    (found : pool.worker? number = some worker) : pool.activity number = worker.activity := by
  rw [activity, found]
  rfl

theorem activity_dismiss (pool : Pool α) (number : Nat) :
    (pool.dismiss number).activity number = .idle := by
  have gone : (pool.dismiss number).worker? number = none := by
    simp [worker?, dismiss]
  rw [activity, gone]
  rfl

theorem exists_worker_of_activity {pool : Pool α} {number : Nat}
    (busy : pool.activity number ≠ .idle) :
    ∃ worker, pool.worker? number = some worker ∧ worker.activity = pool.activity number := by
  cases found : pool.worker? number with
  | none => exact absurd (by rw [activity, found]; rfl) busy
  | some worker => exact ⟨worker, rfl, (activity_eq found).symm⟩

section View

variable {pool : Pool α} (sound : pool.Sound) {number : Nat} {worker : Worker α}
  (found : pool.worker? number = some worker)

include sound found

theorem view_dismiss_idle (idle : worker.activity = .idle) :
    (pool.dismiss number).view = pool.view := by
  have running := jobsIn_dismiss sound found WorkerActivity.running? (by rw [idle]; rfl)
  have yielding := jobsIn_dismiss sound found WorkerActivity.yielding? (by rw [idle]; rfl)
  rw [view, running, yielding, view]
  rfl

theorem view_dismiss_running {job : Job α} (busy : worker.activity = .running job) :
    ∃ running, pool.view.running.Perm (job :: running) ∧
      (pool.dismiss number).view = { pool.view with running } := by
  have running := jobsIn_perm_dismiss sound found WorkerActivity.running? (by rw [busy]; rfl)
  have yielding := jobsIn_dismiss sound found WorkerActivity.yielding? (by rw [busy]; rfl)
  refine ⟨_, running, ?_⟩
  rw [view, yielding, view]
  rfl

theorem view_dismiss_yielding {job : Job α} (busy : worker.activity = .yielding job) :
    ∃ yielding, pool.view.yielding.Perm (job :: yielding) ∧
      (pool.dismiss number).view = { pool.view with yielding } := by
  have running := jobsIn_dismiss sound found WorkerActivity.running? (by rw [busy]; rfl)
  have yielding := jobsIn_perm_dismiss sound found WorkerActivity.yielding? (by rw [busy]; rfl)
  refine ⟨_, yielding, ?_⟩
  rw [view, running, view]
  rfl

theorem view_setActivity_idle :
    (pool.setActivity number .idle).view = (pool.dismiss number).view := by
  rw [view, jobsIn_setActivity sound found _ rfl, jobsIn_setActivity sound found _ rfl]
  rfl

theorem view_setActivity_running (job : Job α) :
    ∃ running, running.Perm (job :: (pool.dismiss number).view.running) ∧
      (pool.setActivity number (.running job)).view =
        { (pool.dismiss number).view with running } := by
  have runs : (WorkerActivity.running job).running? = some job := rfl
  refine ⟨_, jobsIn_perm_setActivity sound found _ runs, ?_⟩
  rw [view, jobsIn_setActivity sound found WorkerActivity.yielding? rfl]
  rfl

theorem view_setActivity_yielding (job : Job α) :
    ∃ yielding, yielding.Perm (job :: (pool.dismiss number).view.yielding) ∧
      (pool.setActivity number (.yielding job)).view =
        { (pool.dismiss number).view with yielding } := by
  have yields : (WorkerActivity.yielding job).yielding? = some job := rfl
  refine ⟨_, jobsIn_perm_setActivity sound found _ yields, ?_⟩
  rw [view, jobsIn_setActivity sound found WorkerActivity.running? rfl]
  rfl

end View

theorem view_countOut_dismiss (pool : Pool α) (role : WorkerRole) (number : Nat) :
    ((pool.countOut role).dismiss number).view = (pool.dismiss number).view := by
  cases role <;> rfl

theorem view_report (pool : Pool α) (reports : List JobFailure) :
    ({ pool with failures := pool.failures ++ reports } : Pool α).view =
      { pool.view with failures := pool.view.failures ++ reports } :=
  rfl

theorem taken?_eq_none {before after : Pool α} {number : Nat}
    (idle : after.activity number = .idle) : before.taken? after number = none := by
  unfold taken?
  split
  · rw [idle]
    rfl
  · rfl
  · rfl

section Step

variable {pool : Pool α} (sound : pool.Sound) (number : Nat)

include sound

theorem sound_withdraw : (pool.withdraw number).Sound := by
  unfold withdraw
  split
  · exact sound_dismiss (sound_countOut sound _) _
  · exact sound

theorem view_withdraw : (pool.withdraw number).view = pool.view := by
  unfold withdraw
  split
  · next found => rw [view_countOut_dismiss, view_dismiss_idle sound found rfl]
  · rfl

theorem sound_pop : ({ pool with queue := pool.queue.pop.2 } : Pool α).Sound :=
  ⟨WeightedQueue.invariant_pop sound.queue, sound.distinct, sound.fresh⟩

theorem sound_dequeue : (pool.dequeue number).Sound := by
  have popping := sound_pop sound
  unfold dequeue
  split
  · split
    · exact sound_dismiss sound _
    split
    · exact sound_dismiss (sound_countOut sound _) _
    split
    · next popped =>
        rw [popped] at popping
        exact popping
    · next popped =>
        rw [popped] at popping
        exact sound_setActivity popping _ _
  · exact sound

/-- A worker that looks at the queue takes a job, or nothing happens to any job. -/
theorem dequeue_cases :
    pool.taken? (pool.dequeue number) number = none ∧ (pool.dequeue number).view = pool.view ∨
      ∃ job queued running, pool.taken? (pool.dequeue number) number = some job ∧
        pool.stopped = false ∧
        pool.view.queued.Perm (job :: queued) ∧
        running.Perm (job :: pool.view.running) ∧
        (pool.dequeue number).view = { pool.view with queued, running } := by
  have popping := sound_pop sound
  have jobs := WeightedQueue.pop_jobs_perm sound.queue
  unfold dequeue
  split
  · next id role found =>
      have idle := activity_eq found
      split
      · exact .inl ⟨taken?_eq_none (activity_dismiss pool number),
          view_dismiss_idle sound found rfl⟩
      next live =>
      split
      · refine .inl ⟨taken?_eq_none (activity_dismiss _ number), ?_⟩
        rw [view_countOut_dismiss, view_dismiss_idle sound found rfl]
      split
      · next queue popped =>
          -- A pop without a job still drops stale places from the queue, but there were no jobs.
          have none := (WeightedQueue.pop_eq_none_iff sound.queue).mp (congrArg Prod.fst popped)
          rw [popped, none] at jobs
          refine .inl ⟨taken?_eq_none idle, ?_⟩
          have same : queue.jobs = pool.queue.jobs := (List.Perm.nil_eq jobs).symm.trans none.symm
          rw [view, same]
          rfl
      · next job queue popped =>
          rw [popped] at jobs popping
          have taking := activity_eq (worker?_setActivity popping found (.running job))
          obtain ⟨running, taken, view⟩ := view_setActivity_running popping found job
          rw [view_dismiss_idle popping found rfl] at taken view
          refine .inr ⟨job, queue.jobs, running, ?_, Bool.eq_false_iff.mpr live, jobs, taken, view⟩
          rw [taken?, idle, taking]
          rfl
  · refine .inl ⟨?_, rfl⟩
    unfold taken?
    split
    · next idle => rw [idle]; rfl
    · rfl
    · rfl

theorem sound_finish (work : α) (runEnd : RunEnd) : (pool.finish number work runEnd).Sound := by
  unfold finish
  split
  · split
    · exact sound_setActivity sound _ _
    · exact sound_setActivity sound _ _
    · have dismissed (role : WorkerRole) := sound_dismiss (sound_countOut sound role) number
      split
      · exact ⟨(dismissed _).queue, (dismissed _).distinct, (dismissed _).fresh⟩
      · exact dismissed _
  · exact sound

theorem view_finish {number : Nat} {job : Job α} (busy : pool.activity number = .running job)
    (work : α) (runEnd : RunEnd) :
    ∃ running yielding, pool.view.running.Perm (job :: running) ∧
      yielding.Perm (runEnd.again { job with work } ++ pool.view.yielding) ∧
      (pool.finish number work runEnd).view =
        { pool.view with running, yielding, failures := pool.failures ++ runEnd.reports job } := by
  obtain ⟨⟨id, role, activity⟩, found, same⟩ := exists_worker_of_activity (by rw [busy]; nofun)
  cases same.trans busy
  obtain ⟨running, left, gone⟩ := view_dismiss_running sound found rfl
  rw [finish, found]
  cases runEnd with
  | finished status =>
      cases status with
      | complete =>
          refine ⟨running, _, left, List.Perm.refl _, ?_⟩
          rw [RunEnd.reports, List.append_nil]
          exact (view_setActivity_idle sound found).trans gone
      | reschedule =>
          obtain ⟨yielding, arrived, view⟩ :=
            view_setActivity_yielding sound found { job with work }
          rw [gone] at arrived view
          refine ⟨running, yielding, left, arrived, ?_⟩
          rw [RunEnd.reports, List.append_nil]
          exact view
  | failed message =>
      have dismissed := (view_countOut_dismiss pool role number).trans gone
      refine ⟨running, _, left, List.Perm.refl _, ?_⟩
      simp only [RunEnd.reports]
      split
      · rw [view_report, dismissed]
        rfl
      · rw [List.append_nil, dismissed]
        rfl

theorem sound_requeue : (pool.requeue number).Sound := by
  unfold requeue
  split
  · exact sound_setActivity (sound_submit sound _) _ _
  · exact sound
  · exact sound

/-- A job that waits for it is queued again, or nothing happens to any job. -/
theorem requeue_cases :
    (pool.requeue number).view = pool.view ∨
      ∃ job queued yielding,
        pool.view.yielding.Perm (job :: yielding) ∧
        queued.Perm (job :: pool.view.queued) ∧
        (pool.requeue number).view = { pool.view with queued, yielding } := by
  unfold requeue
  split
  · next job busy =>
      -- Queueing may start workers before this one is set idle, which its number tells apart.
      obtain ⟨worker, found, same⟩ := exists_worker_of_activity (by rw [busy]; nofun)
      have submitted := sound_submit sound job
      have present := worker?_submit found job
      obtain ⟨queued, arrived, view⟩ := view_submit sound job
      obtain ⟨yielding, left, gone⟩ := view_dismiss_yielding submitted present (same.trans busy)
      rw [view] at left gone
      refine .inr ⟨job, queued, yielding, left, arrived, ?_⟩
      rw [view_setActivity_idle submitted present, gone]
  · exact .inl rfl
  · exact .inl rfl

theorem sound_removeJobs (key : Nat) : (pool.removeJobs key).2.Sound :=
  ⟨WeightedQueue.invariant_remove sound.queue key, sound.distinct, sound.fresh⟩

end Step

end Pool

end ColumnScan
