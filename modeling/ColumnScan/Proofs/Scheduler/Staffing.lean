import ColumnScan.Proofs.Scheduler.PoolHistory
import Mathlib.Data.List.Induction

/-!
# The staff of a pool

A pool counts its workers, a number for each class and one for the extra workers. The counts go up
where a job is queued and down where a worker leaves, which happens elsewhere and in any order. As
long as every worker can be started and the pool is not stopped, the counts are those of the workers
that are there, and a job is only queued by a pool with all its classes complete.
-/

set_option autoImplicit false

namespace ColumnScan

variable {α : Type}

theorem WorkerCounts.get_modify (counts : WorkerCounts) (priority other : Priority)
    (change : Nat → Nat) :
    (counts.modify priority change).get other =
      if other = priority then change (counts.get other) else counts.get other := by
  cases priority <;> cases other <;> rfl

/-- What a pool knows and has of its workers, whatever they do. -/
structure Staffing where
  size : WorkerCounts
  live : WorkerCounts
  extra : Nat
  stopped : Bool
  staff : List (Nat × WorkerRole)

namespace Pool

/-- The numbers of the workers with their roles. -/
def staff (pool : Pool α) : List (Nat × WorkerRole) :=
  pool.workers.map fun worker => (worker.number, worker.role)

def staffing (pool : Pool α) : Staffing where
  size := pool.size
  live := pool.live
  extra := pool.extra
  stopped := pool.stopped
  staff := pool.staff

/-- The number of workers with a role, as the pool counts them. -/
def counted (pool : Pool α) : WorkerRole → Nat
  | .baseline priority => pool.live.get priority
  | .extra => pool.extra

/-- The number of workers with a role that are there. -/
def present (pool : Pool α) (role : WorkerRole) : Nat :=
  pool.workers.countP fun worker => worker.role = role

def Balanced (pool : Pool α) : Prop := ∀ role, pool.counted role = pool.present role

section Staffing

variable {pool next : Pool α} (same : next.staffing = pool.staffing)

include same

theorem staff_of_staffing : next.staff = pool.staff := congrArg Staffing.staff same

theorem extra_of_staffing : next.extra = pool.extra := congrArg Staffing.extra same

theorem size_of_staffing : next.size = pool.size := congrArg Staffing.size same

theorem stopped_of_staffing : next.stopped = pool.stopped := congrArg Staffing.stopped same

variable (role : WorkerRole)

theorem counted_of_staffing : next.counted role = pool.counted role := by
  cases role with
  | extra => exact extra_of_staffing same
  | baseline priority => exact congrArg (fun staffing => staffing.live.get priority) same

theorem present_of_staffing : next.present role = pool.present role := by
  have counts (pool : Pool α) : pool.present role = pool.staff.countP (·.2 = role) := by
    rw [staff, List.countP_map]
    rfl
  rw [counts, counts, staff_of_staffing same]

theorem balanced_of_staffing (balanced : pool.Balanced) : next.Balanced := fun role => by
  rw [counted_of_staffing same, present_of_staffing same, balanced role]

end Staffing

theorem staffing_setActivity (pool : Pool α) (number : Nat) (activity : WorkerActivity α) :
    (pool.setActivity number activity).staffing = pool.staffing := by
  have same : (pool.setActivity number activity).staff = pool.staff := by
    simp only [staff, setActivity, List.map_map]
    refine List.map_congr_left fun worker _ => ?_
    simp only [Function.comp_apply]
    split <;> rfl
  rw [staffing, same]
  rfl

section Spawn

variable (pool : Pool α) (role other : WorkerRole)

theorem counted_spawn :
    (pool.spawn role).counted other = pool.counted other + if other = role then 1 else 0 := by
  cases role with
  | extra => cases other <;> rfl
  | baseline priority =>
      cases other with
      | extra => rfl
      | baseline wanted =>
          simp only [spawn, counted, WorkerCounts.get_modify, WorkerRole.baseline.injEq]
          split <;> rfl

theorem present_spawn :
    (pool.spawn role).present other = pool.present other + if other = role then 1 else 0 := by
  have shape : (pool.spawn role).workers =
      pool.workers ++ [{ number := pool.nextWorker, role }] := by
    cases role <;> rfl
  rw [present, shape, List.countP_append, List.countP_singleton, present]
  exact congrArg _ (if_congr (decide_eq_true_iff.trans eq_comm) rfl rfl)

theorem size_spawn : (pool.spawn role).size = pool.size := by cases role <;> rfl

theorem blocked_spawn : (pool.spawn role).blocked = pool.blocked := by cases role <;> rfl

variable {pool} in
theorem balanced_spawn (balanced : pool.Balanced) : (pool.spawn role).Balanced := fun other => by
  rw [counted_spawn, present_spawn, balanced other]

end Spawn

section Restore

variable (pool : Pool α)

variable {pool} in
/-- What a start of a worker preserves is left as it is when a class is completed. -/
theorem restore_of_spawn {motive : Pool α → Prop}
    (spawned : ∀ staffed role, motive staffed → motive (staffed.spawn role)) (begins : motive pool)
    (priority : Priority) : motive (pool.restore priority) :=
  List.foldlRecOn _ _ begins fun staffed still _ _ => spawned staffed _ still

variable {pool} in
theorem restoreAll_of_spawn {motive : Pool α → Prop}
    (spawned : ∀ staffed role, motive staffed → motive (staffed.spawn role))
    (begins : motive pool) : motive pool.restoreAll :=
  List.foldlRecOn _ _ begins fun _ still priority _ => restore_of_spawn spawned still priority

theorem size_restore (priority : Priority) : (pool.restore priority).size = pool.size :=
  restore_of_spawn (motive := fun staffed => staffed.size = pool.size)
    (fun _ _ same => (size_spawn _ _).trans same) rfl priority

theorem counted_foldl_spawn {β : Type} (items : List β) (role other : WorkerRole) :
    (items.foldl (fun pool _ => pool.spawn role) pool).counted other =
      pool.counted other + if other = role then items.length else 0 := by
  induction items generalizing pool with
  | nil => simp
  | cons item rest ih =>
      rw [List.foldl_cons, ih, counted_spawn, List.length_cons]
      split <;> omega

theorem counted_restore (priority : Priority) (role : WorkerRole) :
    (pool.restore priority).counted role =
      if role = .baseline priority then max (pool.counted role) (pool.size.get priority)
      else pool.counted role := by
  rw [restore, counted_foldl_spawn, List.length_range]
  split
  · next same =>
      subst same
      simp only [counted]
      omega
  · rfl

theorem size_restoreAll : pool.restoreAll.size = pool.size :=
  restoreAll_of_spawn (motive := fun staffed => staffed.size = pool.size)
    (fun _ _ same => (size_spawn _ _).trans same) rfl

theorem blocked_restoreAll : pool.restoreAll.blocked = pool.blocked :=
  restoreAll_of_spawn (motive := fun staffed => staffed.blocked = pool.blocked)
    (fun _ _ same => (blocked_spawn _ _).trans same) rfl

theorem counted_restoreAll (role : WorkerRole) :
    pool.restoreAll.counted role = match role with
      | .baseline priority => max (pool.counted role) (pool.size.get priority)
      | .extra => pool.counted role := by
  simp only [restoreAll, Priority.descending, List.foldl_cons, List.foldl_nil, counted_restore,
    size_restore]
  cases role with
  | extra => rfl
  | baseline priority => cases priority <;> rfl

theorem balanced_restoreAll {pool : Pool α} (balanced : pool.Balanced) :
    pool.restoreAll.Balanced :=
  restoreAll_of_spawn (fun _ role still => balanced_spawn role still) balanced

end Restore

section BalanceExtra

variable (pool : Pool α)

theorem size_balanceExtra : pool.balanceExtra.size = pool.size := by
  unfold balanceExtra
  split
  · exact size_spawn _ _
  · split <;> rfl

theorem live_balanceExtra : pool.balanceExtra.live = pool.live := by
  unfold balanceExtra
  split
  · rfl
  · split <;> rfl

/-- An extra worker is started only while more workers are blocked than there are extra ones. -/
theorem extra_balanceExtra : pool.balanceExtra.extra = pool.extra ∨
    pool.extra < pool.blocked ∧ pool.balanceExtra.extra = pool.extra + 1 := by
  unfold balanceExtra
  split
  · next fewer => exact .inr ⟨fewer, rfl⟩
  · split <;> exact .inl rfl

theorem balanced_balanceExtra {pool : Pool α} (balanced : pool.Balanced) :
    pool.balanceExtra.Balanced := by
  unfold balanceExtra
  split
  · exact balanced_spawn .extra balanced
  · split
    · exact balanced
    · exact balanced

end BalanceExtra

theorem staffing_submit (pool : Pool α) (job : Job α) :
    (pool.submit job).staffing = pool.restoreAll.balanceExtra.staffing := by
  simp only [submit]
  generalize pool.restoreAll.balanceExtra = staffed
  rfl

section Leave

variable {pool : Pool α} (sound : pool.Sound) {number : Nat} {worker : Worker α}
  (found : pool.worker? number = some worker)

theorem mem_staff_left {pool : Pool α} {worker : Worker α} {number : Nat} (role : WorkerRole)
    (member : worker ∈ pool.workers) (other : worker.number ≠ number) :
    (worker.number, worker.role) ∈ ((pool.countOut role).dismiss number).staff := by
  have stays : worker ∈ (pool.dismiss number).workers :=
    List.mem_filter.mpr ⟨member, bne_iff_ne.mpr other⟩
  cases role <;> exact List.mem_map_of_mem stays

theorem counted_countOut (pool : Pool α) (role other : WorkerRole) :
    (pool.countOut role).counted other = pool.counted other - if other = role then 1 else 0 := by
  cases role with
  | extra => cases other <;> rfl
  | baseline priority =>
      cases other with
      | extra => rfl
      | baseline wanted =>
          simp only [countOut, counted, WorkerCounts.get_modify, WorkerRole.baseline.injEq]
          split <;> rfl

include sound found

theorem present_dismiss (role : WorkerRole) :
    pool.present role =
      (pool.dismiss number).present role + if role = worker.role then 1 else 0 := by
  obtain ⟨before, after, shape, same, others⟩ := exists_workers_eq sound found
  simp only [present, dismiss]
  rw [shape, filter_other_keys Worker.number same others, List.countP_append, List.countP_cons,
    List.countP_append, Nat.add_assoc]
  exact congrArg _ (congrArg _ (if_congr (decide_eq_true_iff.trans eq_comm) rfl rfl))

/-- A worker that is there is counted. -/
theorem Balanced.counted_pos (balanced : pool.Balanced) : 0 < pool.counted worker.role := by
  rw [balanced, present_dismiss sound found, if_pos rfl]
  exact Nat.succ_pos _

theorem counted_left (balanced : pool.Balanced) (role : WorkerRole) :
    pool.counted role =
      ((pool.countOut worker.role).dismiss number).counted role +
        if role = worker.role then 1 else 0 := by
  have counts : ((pool.countOut worker.role).dismiss number).counted role =
    pool.counted role - if role = worker.role then 1 else 0 := counted_countOut pool _ role
  have positive := balanced.counted_pos sound found
  rw [counts]
  split
  · next same =>
      subst same
      omega
  · rfl

theorem balanced_left (balanced : pool.Balanced) :
    ((pool.countOut worker.role).dismiss number).Balanced := fun role => by
  have same : ((pool.countOut worker.role).dismiss number).present role =
      (pool.dismiss number).present role := by
    cases worker.role <;> rfl
  have counts := counted_left sound found balanced role
  rw [balanced, present_dismiss sound found, ← same] at counts
  exact (Nat.add_right_cancel counts).symm

end Leave

/-- A pool whose counts are right and which is not stopped. -/
structure Staffed (size : WorkerCounts) (pool : Pool α) : Prop where
  balanced : pool.Balanced
  within : ∀ priority, pool.counted (.baseline priority) ≤ size.get priority
  size : pool.size = size
  live : pool.stopped = false

end Pool

namespace PoolEvent

/-- The event neither stops the pool nor finds that a worker could not be started. -/
def Undisturbed : PoolEvent α → Prop
  | .stop | .withdraw _ => False
  | .submit _ | .dequeue _ | .finish _ _ _ | .requeue _ | .removeJobs _ | .block | .unblock => True

/-- The event queues a job, a new one or one that is queued again. -/
def Enqueues {β : Type} (pool : Pool β) : PoolEvent α → Prop
  | .submit _ => True
  | .requeue number => ∃ job, pool.activity number = .yielding job
  | .dequeue _ | .finish _ _ _ | .removeJobs _ | .block | .unblock | .withdraw _ | .stop => False

/-- Why a worker leaves a pool that is not stopped. -/
inductive Dismisses {β : Type} (pool : Pool β) (worker : Worker β) : PoolEvent α → Prop
  /-- Its job fails. -/
  | failed {job : Job β} (work : α) (message : String) (busy : worker.activity = .running job) :
      Dismisses pool worker (.finish worker.number work (.failed message))
  /-- It is an extra worker, those were told to leave, and it finds no job. -/
  | unneeded (extra : worker.role = .extra) (idle : worker.activity = .idle)
      (told : pool.stopExtra = true) (empty : pool.queue.jobs = []) :
      Dismisses pool worker (.dequeue worker.number)

end PoolEvent

/-- What an event does to the staff of a pool. -/
inductive Restaffs (event : PoolEvent α) (pool next : Pool (Ticketed α)) : Prop where
  | kept (other : ¬event.Enqueues pool) (same : next.staffing = pool.staffing)
  | enqueued (queues : event.Enqueues pool)
      (same : next.staffing = pool.restoreAll.balanceExtra.staffing)
  | left (worker : Worker (Ticketed α)) (found : pool.worker? worker.number = some worker)
      (reason : event.Dismisses pool worker)
      (same : next.staffing = ((pool.countOut worker.role).dismiss worker.number).staffing)

namespace PoolHistory

variable {history : PoolHistory α} (sound : history.Sound) (live : history.pool.stopped = false)

include sound live

theorem restaffs_dequeue (number : Nat) :
    Restaffs (.dequeue number : PoolEvent α) history.pool (history.pool.dequeue number) := by
  unfold Pool.dequeue
  split
  · next own role found =>
      obtain rfl : own = number :=
        ((find?_key_eq_some_iff Worker.number sound.pool.distinct).mp found).2
      rw [if_neg (Bool.eq_false_iff.mp live)]
      split
      · next unneeded =>
          obtain ⟨extra, told, empty⟩ := unneeded
          have none : history.pool.queue.jobs = [] := by
            rw [← List.length_eq_zero_iff, ← sound.pool.queue.pending_eq]
            exact beq_iff_eq.mp empty
          exact .left { number := own, role } found (.unneeded extra rfl told none) rfl
      · split
        · exact .kept id rfl
        · exact .kept id (Pool.staffing_setActivity _ _ _)
  · exact .kept id rfl

omit live in
theorem restaffs_finish (number : Nat) (work : α) (runEnd : RunEnd) :
    Restaffs (.finish number work runEnd) history.pool
      (history.finish number work runEnd).pool := by
  unfold PoolHistory.finish
  split
  · next job busy =>
      obtain ⟨⟨own, role, activity⟩, found, same⟩ :=
        Pool.exists_worker_of_activity (by rw [busy]; nofun)
      obtain rfl : own = number :=
        ((find?_key_eq_some_iff Worker.number sound.pool.distinct).mp found).2
      cases same.trans busy
      rw [Pool.finish, found]
      cases runEnd with
      | finished status =>
          cases status with
          | complete => exact .kept id (Pool.staffing_setActivity _ _ _)
          | reschedule => exact .kept id (Pool.staffing_setActivity _ _ _)
      | failed message =>
          dsimp only
          refine .left ⟨own, role, .running job⟩ found (.failed work message rfl) ?_
          split <;> rfl
  · exact .kept id rfl
  · exact .kept id rfl

omit sound live in
theorem restaffs_requeue (history : PoolHistory α) (number : Nat) :
    Restaffs (.requeue number : PoolEvent α) history.pool (history.pool.requeue number) := by
  unfold Pool.requeue
  split
  · next job waits => 
      exact .enqueued ⟨job, waits⟩
        ((Pool.staffing_setActivity _ _ _).trans (Pool.staffing_submit history.pool job))
  · next idle =>
      refine .kept (fun ⟨job, waits⟩ => ?_) rfl
      rw [idle] at waits
      cases waits
  · next busy =>
      refine .kept (fun ⟨job, waits⟩ => ?_) rfl
      rw [busy] at waits
      cases waits

/-- An event keeps the staff, or queues a job after the staff was completed, or lets one worker
leave. -/
theorem restaffs_step {event : PoolEvent α} (undisturbed : event.Undisturbed) :
    Restaffs event history.pool (history.step event).pool := by
  cases event with
  | submit job => exact .enqueued trivial (Pool.staffing_submit history.pool _)
  | dequeue number => exact restaffs_dequeue sound live number
  | finish number work runEnd => exact restaffs_finish sound number work runEnd
  | requeue number => exact restaffs_requeue history number
  | removeJobs key => exact .kept id rfl
  | block => exact .kept id rfl
  | unblock => exact .kept id rfl
  | withdraw number => exact undisturbed.elim
  | stop => exact undisturbed.elim

end PoolHistory

namespace Pool.Staffed

variable {size : WorkerCounts} {pool next : Pool (Ticketed α)} (staffed : pool.Staffed size)
  {event : PoolEvent α}

include staffed

theorem counted_enqueued (priority : Priority) :
    pool.restoreAll.balanceExtra.counted (.baseline priority) = size.get priority := by
  have restored := counted_restoreAll pool (.baseline priority)
  have within := staffed.within priority
  rw [← staffed.size] at within ⊢
  simp only [counted] at restored within ⊢
  rw [live_balanceExtra, restored, Nat.max_eq_right within]

theorem step (sound : pool.Sound) (change : Restaffs event pool next) : next.Staffed size := by
  cases change with
  | kept _ same =>
      refine ⟨balanced_of_staffing same staffed.balanced, fun priority => ?_,
        (size_of_staffing same).trans staffed.size,
        (stopped_of_staffing same).trans staffed.live⟩
      rw [counted_of_staffing same]
      exact staffed.within priority
  | enqueued _ same =>
      have balanced := balanced_balanceExtra (balanced_restoreAll staffed.balanced)
      have kept : pool.restoreAll.balanceExtra.size = pool.size :=
        (size_balanceExtra _).trans (size_restoreAll pool)
      have running := ((staffs_restoreAll pool).trans (staffs_balanceExtra _)).stopped
      refine ⟨balanced_of_staffing same balanced, fun priority => ?_,
        (size_of_staffing same).trans (kept.trans staffed.size),
        (stopped_of_staffing same).trans (running.trans staffed.live)⟩
      exact Nat.le_of_eq
        ((counted_of_staffing same _).trans (staffed.counted_enqueued priority))
  | left worker found _ same =>
      have balanced := balanced_left sound found staffed.balanced
      refine ⟨balanced_of_staffing same balanced, fun priority => ?_, ?_, ?_⟩
      · have counts := counted_left sound found staffed.balanced (.baseline priority)
        have within := staffed.within priority
        rw [counted_of_staffing same]
        omega
      · refine (size_of_staffing same).trans (Eq.trans ?_ staffed.size)
        cases worker.role <;> rfl
      · refine (stopped_of_staffing same).trans (Eq.trans ?_ staffed.live)
        cases worker.role <;> rfl

/-- An event starts an extra worker only if it queues a job while more workers are blocked than
there are extra ones. -/
theorem extra_of_restaffs (sound : pool.Sound)
    (change : Restaffs event pool next) :
    next.extra ≤ pool.extra ∨
      event.Enqueues pool ∧ pool.extra < pool.blocked ∧ next.extra = pool.extra + 1 := by
  cases change with
  | kept _ same => exact .inl (Nat.le_of_eq (extra_of_staffing same))
  | enqueued queues same =>
      have restored : pool.restoreAll.extra = pool.extra := counted_restoreAll pool .extra
      have hired := extra_balanceExtra pool.restoreAll
      rw [restored, blocked_restoreAll, ← extra_of_staffing same] at hired
      exact hired.imp Nat.le_of_eq fun ⟨fewer, one⟩ => ⟨queues, fewer, one⟩
  | left worker found _ same =>
      have counts := counted_left sound found staffed.balanced .extra
      have now := counted_of_staffing same .extra
      exact .inl (by simp only [counted] at counts now; omega)

/-- What an event that queues a job does to the staff. -/
theorem of_enqueues (queues : event.Enqueues pool) (change : Restaffs event pool next) :
    (∀ priority, next.counted (.baseline priority) = size.get priority) ∧
      pool.extra ≤ next.extra ∧ next.extra ≤ pool.extra + 1 ∧ pool.staff <+: next.staff := by
  cases change with
  | kept other _ => exact absurd queues other
  | enqueued _ same =>
      have restored : pool.restoreAll.extra = pool.extra := counted_restoreAll pool .extra
      have hired := extra_balanceExtra pool.restoreAll
      rw [restored, ← extra_of_staffing same] at hired
      obtain ⟨fresh, shape, _⟩ :=
        ((staffs_restoreAll pool).trans (staffs_balanceExtra _)).started
      refine ⟨fun priority => ?_, by omega, by omega, ?_⟩
      · exact (counted_of_staffing same _).trans (staffed.counted_enqueued priority)
      · rw [staff_of_staffing same, staff, staff, shape, List.map_append]
        exact List.prefix_append _ _
  | left worker _ reason _ => cases reason <;> exact queues.elim

/-- What an event does that makes a worker leave. -/
theorem of_leaves (sound : pool.Sound) (change : Restaffs event pool next)
    {worker : Worker (Ticketed α)} (member : worker ∈ pool.workers)
    (gone : (worker.number, worker.role) ∉ next.staff) :
    event.Dismisses pool worker ∧
      ∀ role, pool.counted role = next.counted role + if role = worker.role then 1 else 0 := by
  have listed : (worker.number, worker.role) ∈ pool.staff := List.mem_map_of_mem member
  cases change with
  | kept _ same =>
      rw [staff_of_staffing same] at gone
      exact absurd listed gone
  | enqueued queues same =>
      have kept := (staffed.of_enqueues queues (.enqueued queues same)).2.2.2
      exact absurd (kept.subset listed) gone
  | left other found reason same =>
      obtain rfl : worker = other := by
        rw [staff_of_staffing same] at gone
        have number := not_imp_comm.mp (mem_staff_left other.role member) gone
        exact List.inj_on_of_nodup_map sound.distinct member
          ((find?_key_eq_some_iff Worker.number sound.distinct).mp found).1 number
      refine ⟨reason, fun role => ?_⟩
      rw [counted_of_staffing same]
      exact counted_left sound found staffed.balanced role

end Pool.Staffed

theorem Pool.staffed_start (size : WorkerCounts) :
    (start size : Pool (Ticketed α)).Staffed size := by
  have balanced : ({ size } : Pool (Ticketed α)).Balanced := fun role => by
    cases role with
    | extra => rfl
    | baseline priority => cases priority <;> rfl
  refine ⟨balanced_restoreAll balanced, fun priority => ?_, size_restoreAll _,
    (staffs_restoreAll _).stopped⟩
  have nobody : ({ size } : Pool (Ticketed α)).counted (.baseline priority) = 0 := balanced _
  rw [start, counted_restoreAll, nobody]
  exact Nat.le_of_eq (Nat.zero_max _)

namespace PoolHistory

variable {size : WorkerCounts} {events : List (PoolEvent α)}

theorem pool_run_nil (size : WorkerCounts) :
    (run size [] : PoolHistory α).pool = .start size := by
  rw [run, List.foldl_nil]

theorem run_concat (size : WorkerCounts) (events : List (PoolEvent α)) (event : PoolEvent α) :
    run size (events ++ [event]) = (run size events).step event := by
  rw [run, List.foldl_append, List.foldl_cons, List.foldl_nil, run]

theorem staffed_run (undisturbed : ∀ event ∈ events, event.Undisturbed) :
    (run size events).pool.Staffed size := by
  induction events using List.reverseRecOn with
  | nil =>
      rw [pool_run_nil]
      exact Pool.staffed_start size
  | append_singleton earlier event ih =>
      obtain ⟨before, now⟩ := List.forall_mem_append.mp undisturbed
      have sound := sound_run size earlier
      have staffed := ih before
      rw [run_concat]
      exact staffed.step sound.pool
        (restaffs_step sound staffed.live (now event List.mem_cons_self))

/-- Extra workers are at most as many as were blocked when some job was queued. -/
theorem extra_run_le (undisturbed : ∀ event ∈ events, event.Undisturbed) :
    (run size events).pool.extra = 0 ∨
      ∃ earlier event, earlier ++ [event] <+: events ∧
        event.Enqueues (run size earlier).pool ∧
        (run size events).pool.extra ≤ (run size earlier).pool.blocked := by
  induction events using List.reverseRecOn with
  | nil =>
      rw [pool_run_nil]
      exact .inl (Pool.counted_restoreAll _ .extra)
  | append_singleton past event ih =>
      obtain ⟨before, now⟩ := List.forall_mem_append.mp undisturbed
      have sound := sound_run size past
      have staffed : (run size past).pool.Staffed size := staffed_run before
      have change := restaffs_step sound staffed.live (now event List.mem_cons_self)
      rw [run_concat]
      obtain fewer | ⟨queues, blocked, one⟩ := staffed.extra_of_restaffs sound.pool change
      · obtain none | ⟨earlier, cause, earlierThan, queues, bound⟩ := ih before
        · exact .inl (Nat.le_zero.mp (none ▸ fewer))
        · exact .inr ⟨earlier, cause, earlierThan.trans (List.prefix_append _ _), queues,
            Nat.le_trans fewer bound⟩
      · exact .inr ⟨past, event, List.prefix_refl _, queues, one ▸ blocked⟩

/-- After any events of a pool that can start its workers and is not stopped: the pool counts as
many workers of every role as it has, in no class more than it is meant to have, and no more extra
workers than were blocked when some job was queued; every worker that is there is counted, so that
no count is lowered below zero. Whatever comes next, queueing a job leaves every class with all its
workers, starts at most one extra worker and sends none away; a worker that leaves has failed its
job, or it is an extra one that finds no job after those were told to leave; and exactly the count
of its role goes down, by one. -/
theorem run_accounts (size : WorkerCounts) (events : List (PoolEvent α))
    (undisturbed : ∀ event ∈ events, event.Undisturbed) :
    let history := run size events
    let pool := history.pool
    (∀ role, pool.counted role = pool.present role) ∧
    (∀ priority, pool.counted (.baseline priority) ≤ size.get priority) ∧
    (pool.extra = 0 ∨
      ∃ earlier event, earlier ++ [event] <+: events ∧
        event.Enqueues (run size earlier).pool ∧
        pool.extra ≤ (run size earlier).pool.blocked) ∧
    (∀ worker ∈ pool.workers, 0 < pool.counted worker.role) ∧
    ∀ event : PoolEvent α, event.Undisturbed →
      let next := (history.step event).pool
      (event.Enqueues pool →
        (∀ priority, next.counted (.baseline priority) = size.get priority) ∧
        pool.extra ≤ next.extra ∧ next.extra ≤ pool.extra + 1 ∧ pool.staff <+: next.staff) ∧
      ∀ worker ∈ pool.workers, (worker.number, worker.role) ∉ next.staff →
        event.Dismisses pool worker ∧
        ∀ role, pool.counted role = next.counted role + if role = worker.role then 1 else 0 := by
  intro history pool
  have sound : history.Sound := sound_run size events
  have staffed : pool.Staffed size := staffed_run undisturbed
  refine ⟨staffed.balanced, staffed.within, extra_run_le undisturbed, ?_, ?_⟩
  · intro worker member
    have found := (find?_key_eq_some_iff Worker.number sound.pool.distinct).mpr ⟨member, rfl⟩
    exact staffed.balanced.counted_pos sound.pool found
  · intro event able next
    have change := restaffs_step sound staffed.live able
    exact ⟨fun queues => staffed.of_enqueues queues change, fun worker member gone =>
      staffed.of_leaves sound.pool change member gone⟩

/-- A worker is blocked, a job fails, and the extra worker leaves once nobody is blocked. -/
theorem run_accounts_extra :
    let job : Job Unit := { transaction := 1, work := () }
    let events : List (PoolEvent Unit) :=
      [.block, .submit job, .dequeue 0, .finish 0 () (.failed "boom"), .submit job, .unblock,
        .submit job, .dequeue 1, .dequeue 3]
    let leaving : PoolEvent Unit := .dequeue 2
    let history := run { medium := 1, low := 1 } events
    let next := (history.step leaving).pool
    history.pool.staff = [(1, .baseline .low), (2, .extra), (3, .baseline .medium)] ∧
    (∀ role, history.pool.counted role = history.pool.present role) ∧
    next.staff = [(1, .baseline .low), (3, .baseline .medium)] ∧
    (∃ worker ∈ history.pool.workers, leaving.Dismisses history.pool worker) ∧
    history.pool.extra = next.extra + 1 := by
  intro job events leaving history next
  have undisturbed : ∀ event ∈ events, event.Undisturbed := by
    simp [events, PoolEvent.Undisturbed]
  obtain ⟨balanced, _, _, _, later⟩ := run_accounts { medium := 1, low := 1 } events undisturbed
  have present : (2, .extra) ∈ history.pool.staff := by decide +kernel
  have gone : (2, .extra) ∉ next.staff := by decide +kernel
  obtain ⟨⟨number, role, activity⟩, member, same⟩ := List.mem_map.mp present
  cases same
  obtain ⟨reason, counts⟩ := (later leaving trivial).2 _ member gone
  exact ⟨by decide +kernel, balanced, by decide +kernel, ⟨_, member, reason⟩, counts .extra⟩

end PoolHistory

end ColumnScan
