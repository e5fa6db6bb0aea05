import ColumnScan.Proofs.DistinctKeys
import ColumnScan.Scheduler.WeightedQueue

/-!
# The invariant of the weighted queue

Every transaction of a queue has jobs, and the schedule has one place of its current generation.
Stale places may stand anywhere between the others. Generations are never used twice, so no place
stands for two transactions and no transaction has two places.
-/

set_option autoImplicit false

namespace ColumnScan

variable {α : Type}

/-- A place is the one that a transaction got when it last entered. -/
def SchedulePlace.StandsFor (place : SchedulePlace) (entry : TransactionJobs α) : Prop :=
  place.transaction = entry.transaction ∧ place.generation = entry.generation

theorem SchedulePlace.insert_perm (place : SchedulePlace) (schedule : List SchedulePlace) :
    (place.insert schedule).Perm (place :: schedule) := by
  induction schedule with
  | nil => exact List.Perm.refl _
  | cons other rest ih =>
      unfold insert
      split
      · exact List.Perm.refl _
      · exact (ih.cons other).trans (List.Perm.swap place other rest)

theorem perm_of_leaving {jobs leaving staying : List (Job α)}
    (left : jobs.Perm (leaving ++ staying)) (gone : List (Job α)) :
    (jobs ++ gone).Perm (staying ++ (gone ++ leaving)) := by
  refine (left.append_right gone).trans ?_
  rw [← List.append_assoc]
  refine List.Perm.trans ?_ List.perm_append_comm
  rw [List.append_assoc]

namespace WeightedQueue

def jobsOf (queue : WeightedQueue α) (transaction : Nat) : List (Job α) :=
  (queue.find? transaction).elim [] TransactionJobs.jobs

structure Invariant (queue : WeightedQueue α) : Prop where
  distinct : (queue.transactions.map TransactionJobs.transaction).Nodup
  nonempty : ∀ entry ∈ queue.transactions, entry.jobs ≠ []
  owned : ∀ entry ∈ queue.transactions, ∀ job ∈ entry.jobs, job.transaction = entry.transaction
  scheduled : ∀ entry ∈ queue.transactions, ∃ place ∈ queue.schedule, place.StandsFor entry
  generations : (queue.schedule.map SchedulePlace.generation).Nodup
  fresh : ∀ place ∈ queue.schedule, place.generation < queue.nextGeneration
  pending_eq : queue.pending = queue.jobs.length

section Entries

variable {before after : List (TransactionJobs α)} {entry : TransactionJobs α}

theorem jobs_eq_append {queue : WeightedQueue α}
    (shape : queue.transactions = before ++ entry :: after) :
    queue.jobs = before.flatMap TransactionJobs.jobs ++
      (entry.jobs ++ after.flatMap TransactionJobs.jobs) := by
  rw [jobs, shape, List.flatMap_append, List.flatMap_cons]

theorem mem_of_eq_append {queue : WeightedQueue α}
    (shape : queue.transactions = before ++ entry :: after) : entry ∈ queue.transactions := by
  rw [shape]
  exact List.mem_append_right before List.mem_cons_self

theorem mem_of_mem_others {queue : WeightedQueue α}
    (shape : queue.transactions = before ++ entry :: after) {other : TransactionJobs α}
    (member : other ∈ before ++ after) : other ∈ queue.transactions := by
  rw [shape]
  exact List.perm_middle.mem_iff.mpr (List.mem_cons_of_mem entry member)

theorem exists_of_mem_exchange {jobs : List (Job α)} {other : TransactionJobs α}
    (member : other ∈ before ++ { entry with jobs } :: after) :
    ∃ old ∈ before ++ entry :: after, ∀ place : SchedulePlace,
      place.StandsFor other → place.StandsFor old := by
  rcases List.mem_cons.mp (List.perm_middle.mem_iff.mp member) with rfl | unchanged
  · exact ⟨entry, List.mem_append_right before List.mem_cons_self, fun _ stands => stands⟩
  · have present := List.mem_cons_of_mem entry unchanged
    exact ⟨other, List.perm_middle.mem_iff.mpr present, fun _ stands => stands⟩

end Entries

theorem find?_eq_none_iff {queue : WeightedQueue α} {transaction : Nat} :
    queue.find? transaction = none ↔
      ∀ entry ∈ queue.transactions, entry.transaction ≠ transaction := by
  simp only [find?, List.find?_eq_none, beq_iff_eq, ne_eq]

namespace Invariant

variable {queue : WeightedQueue α} (invariant : queue.Invariant)

include invariant

theorem exists_append {entry : TransactionJobs α} (member : entry ∈ queue.transactions) :
    ∃ before after, queue.transactions = before ++ entry :: after ∧
      ∀ other ∈ before ++ after, other.transaction ≠ entry.transaction :=
  exists_append_of_distinct TransactionJobs.transaction invariant.distinct member

theorem find?_eq_some_iff {transaction : Nat} {entry : TransactionJobs α} :
    queue.find? transaction = some entry ↔
      entry ∈ queue.transactions ∧ entry.transaction = transaction :=
  find?_key_eq_some_iff TransactionJobs.transaction invariant.distinct

theorem jobsAt_eq_some_iff {place : SchedulePlace} {job : Job α} {younger : List (Job α)} :
    queue.jobsAt place = some (job, younger) ↔
      ∃ entry ∈ queue.transactions, place.StandsFor entry ∧ entry.jobs = job :: younger := by
  constructor
  · intro found
    unfold jobsAt at found
    split at found
    next => cases found
    next entry selected =>
      obtain ⟨member, same⟩ := invariant.find?_eq_some_iff.mp selected
      split at found
      next generation =>
        split at found
        next => cases found
        next first rest jobs =>
          cases found
          exact ⟨entry, member, ⟨same.symm, generation.symm⟩, jobs⟩
      next => cases found
  · rintro ⟨entry, member, ⟨same, generation⟩, jobs⟩
    have selected := invariant.find?_eq_some_iff.mpr ⟨member, same.symm⟩
    simp only [jobsAt, selected, generation, ↓reduceIte, jobs]

theorem isLive_iff {place : SchedulePlace} :
    queue.isLive place = true ↔ ∃ entry ∈ queue.transactions, place.StandsFor entry := by
  rw [isLive, Option.isSome_iff_exists]
  constructor
  · rintro ⟨⟨job, younger⟩, found⟩
    obtain ⟨entry, member, stands, _⟩ := invariant.jobsAt_eq_some_iff.mp found
    exact ⟨entry, member, stands⟩
  · rintro ⟨entry, member, stands⟩
    obtain ⟨job, younger, jobs⟩ := List.exists_cons_of_ne_nil (invariant.nonempty entry member)
    exact ⟨(job, younger), invariant.jobsAt_eq_some_iff.mpr ⟨entry, member, stands, jobs⟩⟩

theorem countP_standsFor {entry : TransactionJobs α} (member : entry ∈ queue.transactions) :
    (queue.schedule.countP fun place =>
      place.transaction == entry.transaction && place.generation == entry.generation) = 1 := by
  obtain ⟨place, present, same, generation⟩ := invariant.scheduled entry member
  obtain ⟨before, after, shape⟩ := List.append_of_mem present
  have distinct := invariant.generations
  rw [shape] at distinct
  have moved := (List.perm_middle.map SchedulePlace.generation).nodup_iff.mp distinct
  rw [List.map_cons, List.nodup_cons] at moved
  have rest : (before ++ after).countP (fun place =>
      place.transaction == entry.transaction && place.generation == entry.generation) = 0 := by
    refine List.countP_eq_zero.mpr fun other otherPresent stands => moved.1 ?_
    rw [Bool.and_eq_true, beq_iff_eq, beq_iff_eq, ← generation] at stands
    exact stands.2 ▸ List.mem_map_of_mem otherPresent
  rw [shape, List.perm_middle.countP_eq, List.countP_cons_of_pos (by simp [same, generation]), rest]

theorem jobsOf_eq_filter (transaction : Nat) :
    queue.jobsOf transaction = queue.jobs.filter (·.transaction == transaction) := by
  have foreign : ∀ entries : List (TransactionJobs α),
      (∀ other ∈ entries, other ∈ queue.transactions ∧ other.transaction ≠ transaction) →
        (entries.flatMap TransactionJobs.jobs).filter (·.transaction == transaction) = [] := by
    intro entries different
    refine List.filter_eq_nil_iff.mpr fun job present same => ?_
    obtain ⟨other, otherPresent, member⟩ := List.mem_flatMap.mp present
    obtain ⟨known, distinct⟩ := different other otherPresent
    exact distinct ((invariant.owned other known job member).symm.trans (beq_iff_eq.mp same))
  unfold jobsOf
  cases found : queue.find? transaction with
  | none =>
      have absent := find?_eq_none_iff.mp found
      exact (foreign queue.transactions fun other member => ⟨member, absent other member⟩).symm
  | some entry =>
      obtain ⟨member, rfl⟩ := invariant.find?_eq_some_iff.mp found
      obtain ⟨before, after, shape, others⟩ := invariant.exists_append member
      have known : ∀ other ∈ before ++ after,
          other ∈ queue.transactions ∧ other.transaction ≠ entry.transaction :=
        fun other present => ⟨mem_of_mem_others shape present, others other present⟩
      rw [List.forall_mem_append] at known
      have own : entry.jobs.filter (·.transaction == entry.transaction) = entry.jobs :=
        List.filter_eq_self.mpr fun job present =>
          beq_iff_eq.mpr (invariant.owned entry member job present)
      rw [jobs_eq_append shape, List.filter_append, List.filter_append, foreign before known.1,
        foreign after known.2, own, List.nil_append, List.append_nil]
      rfl

/-- The jobs of one transaction may be exchanged as long as it keeps some, and its place may move. -/
theorem exchange {before after : List (TransactionJobs α)} {entry : TransactionJobs α}
    (shape : queue.transactions = before ++ entry :: after) {jobs : List (Job α)}
    (nonempty : jobs ≠ []) (owned : ∀ job ∈ jobs, job.transaction = entry.transaction)
    {schedule : List SchedulePlace}
    (scheduled : ∀ other ∈ queue.transactions, ∃ place ∈ schedule, place.StandsFor other)
    (generations : (schedule.map SchedulePlace.generation).Nodup)
    (fresh : ∀ place ∈ schedule, place.generation < queue.nextGeneration) {pending : Nat}
    (pending_eq : pending + entry.jobs.length = queue.pending + jobs.length) :
    Invariant
      { transactions := before ++ { entry with jobs } :: after
        schedule
        nextGeneration := queue.nextGeneration
        pending } := by
  have changed : ∀ {property : TransactionJobs α → Prop}, property { entry with jobs } →
      (∀ other ∈ queue.transactions, property other) →
        ∀ other ∈ before ++ { entry with jobs } :: after, property other := by
    intro property holds preserved other present
    rcases List.mem_cons.mp (List.perm_middle.mem_iff.mp present) with rfl | unchanged
    · exact holds
    · exact preserved other (mem_of_mem_others shape unchanged)
  refine ⟨?_, ?_, ?_, ?_, generations, fresh, ?_⟩
  · have distinct := invariant.distinct
    rw [shape] at distinct
    simpa only [List.map_append, List.map_cons] using distinct
  · exact changed nonempty invariant.nonempty
  · exact changed owned invariant.owned
  · exact changed (scheduled entry (mem_of_eq_append shape)) scheduled
  · have counted := invariant.pending_eq
    rw [jobs_eq_append shape] at counted
    simp only [WeightedQueue.jobs, List.flatMap_append, List.flatMap_cons, List.length_append]
      at counted ⊢
    omega

/-- A transaction may leave together with its place. -/
theorem leave {before after : List (TransactionJobs α)} {entry : TransactionJobs α}
    (shape : queue.transactions = before ++ entry :: after) {schedule : List SchedulePlace}
    (scheduled : ∀ other ∈ before ++ after, ∃ place ∈ schedule, place.StandsFor other)
    (generations : (schedule.map SchedulePlace.generation).Nodup)
    (fresh : ∀ place ∈ schedule, place.generation < queue.nextGeneration) {pending : Nat}
    (pending_eq : pending + entry.jobs.length = queue.pending) :
    Invariant
      { transactions := before ++ after
        schedule
        nextGeneration := queue.nextGeneration
        pending } := by
  refine ⟨?_, fun other present => invariant.nonempty other (mem_of_mem_others shape present),
    fun other present => invariant.owned other (mem_of_mem_others shape present), scheduled,
    generations, fresh, ?_⟩
  · have distinct := invariant.distinct
    rw [shape] at distinct
    exact distinct.sublist (((List.sublist_cons_self entry after).append_left before).map _)
  · have counted := invariant.pending_eq
    rw [jobs_eq_append shape] at counted
    simp only [WeightedQueue.jobs, List.flatMap_append, List.length_append] at counted ⊢
    omega

/-- A transaction without jobs enters with the next generation. -/
theorem enter {job : Job α}
    (absent : ∀ entry ∈ queue.transactions, entry.transaction ≠ job.transaction)
    (place : SchedulePlace) (transaction : place.transaction = job.transaction)
    (generation : place.generation = queue.nextGeneration) :
    Invariant
      { pending := queue.pending + 1
        nextGeneration := queue.nextGeneration + 1
        schedule := place.insert queue.schedule
        transactions := queue.transactions ++
          [{ transaction := job.transaction
             generation := queue.nextGeneration
             jobs := [job] }] } := by
  have places := place.insert_perm queue.schedule
  refine ⟨?_, ?_, ?_, ?_, ?_, ?_, ?_⟩
  · rw [List.map_append, List.nodup_append]
    refine ⟨invariant.distinct, List.pairwise_singleton _ _, ?_⟩
    rintro old oldMember new newMember rfl
    obtain ⟨entry, member, rfl⟩ := List.mem_map.mp oldMember
    exact absent entry member (List.mem_singleton.mp newMember)
  · intro entry present
    rcases List.mem_append.mp present with old | new
    · exact invariant.nonempty entry old
    · rw [List.mem_singleton.mp new]
      exact List.cons_ne_nil job []
  · intro entry present other member
    rcases List.mem_append.mp present with old | new
    · exact invariant.owned entry old other member
    · rw [List.mem_singleton.mp new] at member ⊢
      rw [List.mem_singleton.mp member]
  · intro entry present
    rcases List.mem_append.mp present with old | new
    · obtain ⟨other, member, stands⟩ := invariant.scheduled entry old
      exact ⟨other, places.mem_iff.mpr (List.mem_cons_of_mem place member), stands⟩
    · rw [List.mem_singleton.mp new]
      exact ⟨place, places.mem_iff.mpr List.mem_cons_self, transaction, generation⟩
  · refine (places.map SchedulePlace.generation).nodup_iff.mpr ?_
    rw [List.map_cons, List.nodup_cons]
    refine ⟨fun used => ?_, invariant.generations⟩
    obtain ⟨other, member, same⟩ := List.mem_map.mp used
    exact Nat.ne_of_lt (invariant.fresh other member) (same.trans generation)
  · intro other present
    rcases List.mem_cons.mp (places.mem_iff.mp present) with rfl | old
    · rw [generation]
      exact Nat.lt_succ_self _
    · exact Nat.lt_succ_of_lt (invariant.fresh other old)
  · have counted := invariant.pending_eq
    simp only [WeightedQueue.jobs, List.flatMap_append, List.flatMap_singleton, List.length_append,
      List.length_singleton] at counted ⊢
    omega

end Invariant

theorem invariant_empty : ({} : WeightedQueue α).Invariant := by
  constructor <;> simp [jobs]

section Push

variable {queue : WeightedQueue α} (invariant : queue.Invariant) (job : Job α)

include invariant

/-- A job joins its transaction if it has jobs, and else its transaction enters. -/
theorem push_cases :
    (∃ before entry after, queue.transactions = before ++ entry :: after ∧
      entry.transaction = job.transaction ∧
      queue.push job =
        { queue with
          pending := queue.pending + 1
          transactions := before ++ { entry with jobs := entry.jobs ++ [job] } :: after }) ∨
    (∀ entry ∈ queue.transactions, entry.transaction ≠ job.transaction) ∧
      queue.push job =
        { pending := queue.pending + 1
          nextGeneration := queue.nextGeneration + 1
          schedule := SchedulePlace.insert
            { weight := queue.entryWeight
              transaction := job.transaction
              generation := queue.nextGeneration } queue.schedule
          transactions := queue.transactions ++
            [{ transaction := job.transaction
               generation := queue.nextGeneration
               jobs := [job] }] } := by
  cases found : queue.find? job.transaction with
  | none =>
      refine .inr ⟨find?_eq_none_iff.mp found, ?_⟩
      simp only [push, found]
  | some entry =>
      obtain ⟨member, same⟩ := invariant.find?_eq_some_iff.mp found
      obtain ⟨before, after, shape, others⟩ := invariant.exists_append member
      refine .inl ⟨before, entry, after, shape, same, ?_⟩
      simp only [push, found]
      rw [shape, map_at_key TransactionJobs.transaction same (same ▸ others)]

theorem push_jobs_perm : (queue.push job).jobs.Perm (job :: queue.jobs) := by
  obtain ⟨before, entry, after, shape, _, pushed⟩ | ⟨_, pushed⟩ := push_cases invariant job
  · rw [pushed, jobs_eq_append rfl, jobs_eq_append shape, List.append_assoc, List.singleton_append,
      ← List.append_assoc, ← List.append_assoc]
    exact List.perm_middle
  · rw [pushed]
    simp only [jobs, List.flatMap_append, List.flatMap_singleton]
    exact List.perm_append_comm

theorem invariant_push : (queue.push job).Invariant := by
  obtain ⟨before, entry, after, shape, same, pushed⟩ | ⟨absent, pushed⟩ :=
    push_cases invariant job
  · rw [pushed]
    refine invariant.exchange shape (List.concat_ne_nil job entry.jobs) ?_ invariant.scheduled
      invariant.generations invariant.fresh ?_
    · intro other present
      rcases List.mem_append.mp present with old | new
      · exact invariant.owned entry (mem_of_eq_append shape) other old
      · rw [List.mem_singleton.mp new, same]
    · rw [List.length_append, List.length_singleton]
      omega
  · rw [pushed]
    exact invariant.enter absent _ rfl rfl

theorem isLive_of_push {place : SchedulePlace} (known : place.generation < queue.nextGeneration)
    (live : (queue.push job).isLive place = true) : queue.isLive place = true := by
  rw [(invariant_push invariant job).isLive_iff] at live
  rw [invariant.isLive_iff]
  obtain ⟨entry, present, stands⟩ := live
  obtain ⟨before, changed, after, shape, _, pushed⟩ | ⟨_, pushed⟩ := push_cases invariant job
  · rw [pushed] at present
    obtain ⟨old, member, stood⟩ := exists_of_mem_exchange present
    exact ⟨old, shape ▸ member, stood place stands⟩
  · rw [pushed] at present
    rcases List.mem_append.mp present with old | new
    · exact ⟨entry, old, stands⟩
    · have generation := stands.2
      rw [List.mem_singleton.mp new] at generation
      exact absurd generation (Nat.ne_of_lt known)

end Push

section Pop

variable {queue : WeightedQueue α}

/-- Going through the schedule drops stale places until one stands for jobs. -/
theorem pop_go_cases (queue : WeightedQueue α) (places : List SchedulePlace) :
    (∀ place ∈ places, queue.jobsAt place = none) ∧
        pop.go queue places = (none, { queue with schedule := [] }) ∨
      ∃ stale place later job younger, places = stale ++ place :: later ∧
        (∀ other ∈ stale, queue.jobsAt other = none) ∧
        queue.jobsAt place = some (job, younger) ∧
        pop.go queue places = (some job, queue.afterTaking place job younger later) := by
  induction places with
  | nil => exact .inl ⟨nofun, rfl⟩
  | cons place later ih =>
      cases found : queue.jobsAt place with
      | some taken =>
          obtain ⟨job, younger⟩ := taken
          refine .inr ⟨[], place, later, job, younger, rfl, nofun, found, ?_⟩
          simp only [pop.go, found]
      | none =>
          -- A stale place decides nothing, so the rest of the schedule does.
          have skipped : pop.go queue (place :: later) = pop.go queue later := by
            simp only [pop.go, found]
          rw [skipped]
          obtain ⟨dead, finished⟩ | ⟨stale, other, rest, job, younger, shape, dead, live, taken⟩ := ih
          · refine .inl ⟨?_, finished⟩
            simpa only [List.forall_mem_cons] using ⟨found, dead⟩
          · refine .inr ⟨place :: stale, other, rest, job, younger, ?_, ?_, live, taken⟩
            · rw [shape, List.cons_append]
            · simpa only [List.forall_mem_cons] using ⟨found, dead⟩

/-- What stands for jobs is not among the stale places that are dropped. -/
theorem mem_of_isLive {stale later : List SchedulePlace} (shape : queue.schedule = stale ++ later)
    (dead : ∀ other ∈ stale, queue.isLive other = false) {place : SchedulePlace}
    (present : place ∈ queue.schedule) (live : queue.isLive place = true) : place ∈ later := by
  rw [shape] at present
  rcases List.mem_append.mp present with early | late
  · rw [dead place early] at live
    cases live
  · exact late

variable (invariant : queue.Invariant)

include invariant

/-- A pop takes the oldest job of the first transaction in the schedule, if there is any job. -/
theorem pop_cases :
    queue.transactions = [] ∧ queue.pop = (none, { queue with schedule := [] }) ∨
      ∃ before entry after stale place later job younger,
        queue.transactions = before ++ entry :: after ∧
        (∀ other ∈ before ++ after, other.transaction ≠ entry.transaction) ∧
        entry.jobs = job :: younger ∧
        queue.schedule = stale ++ place :: later ∧
        (∀ other ∈ stale, queue.isLive other = false) ∧
        place.StandsFor entry ∧
        queue.pop = (some job,
          if younger.isEmpty then
            { queue with
              pending := queue.pending - 1
              schedule := later
              transactions := before ++ after }
          else
            { queue with
              pending := queue.pending - 1
              schedule := { place with weight := place.weight + job.weight }.insert later
              transactions := before ++ { entry with jobs := younger } :: after }) := by
  obtain ⟨dead, finished⟩ | ⟨stale, place, later, job, younger, shape, dead, live, taken⟩ :=
    pop_go_cases queue queue.schedule
  · refine .inl ⟨List.eq_nil_iff_forall_not_mem.mpr fun entry member => ?_, finished⟩
    obtain ⟨place, present, stands⟩ := invariant.scheduled entry member
    have live := invariant.isLive_iff.mpr ⟨entry, member, stands⟩
    rw [isLive, dead place present] at live
    cases live
  · obtain ⟨entry, member, stands, jobs⟩ := invariant.jobsAt_eq_some_iff.mp live
    obtain ⟨before, after, entries, others⟩ := invariant.exists_append member
    refine .inr ⟨before, entry, after, stale, place, later, job, younger, entries, others, jobs,
      shape, fun other present => ?_, stands, ?_⟩
    · rw [isLive, dead other present]
      rfl
    · have same : entry.transaction = place.transaction := stands.1.symm
      rw [pop, taken, afterTaking, entries,
        map_at_key TransactionJobs.transaction same (same ▸ others),
        filter_other_keys TransactionJobs.transaction same (same ▸ others)]

theorem pop_jobs_perm : queue.jobs.Perm (queue.pop.1.toList ++ queue.pop.2.jobs) := by
  obtain ⟨none, popped⟩ | ⟨before, entry, after, _, _, _, job, younger, entries, _, jobs, _, _, _,
    popped⟩ := pop_cases invariant
  · rw [popped]
    exact List.Perm.refl _
  · rw [popped, jobs_eq_append entries, jobs, Option.toList_some, List.singleton_append,
      List.cons_append]
    refine List.perm_middle.trans (List.Perm.cons job ?_)
    cases younger with
    | nil =>
        rw [if_pos List.isEmpty_nil, WeightedQueue.jobs, List.flatMap_append]
        exact List.Perm.refl _
    | cons next rest =>
        rw [if_neg (by simp), jobs_eq_append rfl]

theorem pop_eq_none_iff : queue.pop.1 = none ↔ queue.jobs = [] := by
  obtain ⟨empty, popped⟩ | ⟨_, _, _, _, _, _, _, _, entries, _, jobs, _, _, _, popped⟩ :=
    pop_cases invariant
  · rw [popped, WeightedQueue.jobs, empty]
    exact iff_of_true rfl rfl
  · rw [popped, jobs_eq_append entries, jobs]
    exact iff_of_false nofun (by simp)

/-- Dropping stale places and the first one that stands for jobs leaves the places of all other
transactions. -/
theorem scheduled_later {entry : TransactionJobs α} {stale later : List SchedulePlace}
    {place : SchedulePlace} (shape : queue.schedule = stale ++ place :: later)
    (dead : ∀ other ∈ stale, queue.isLive other = false) (stands : place.StandsFor entry)
    {other : TransactionJobs α} (member : other ∈ queue.transactions)
    (different : other.transaction ≠ entry.transaction) :
    ∃ place ∈ later, place.StandsFor other := by
  obtain ⟨found, present, standsOther⟩ := invariant.scheduled other member
  have live := invariant.isLive_iff.mpr ⟨other, member, standsOther⟩
  rcases List.mem_cons.mp (mem_of_isLive shape dead present live) with rfl | remaining
  · exact absurd (standsOther.1.symm.trans stands.1) different
  · exact ⟨found, remaining, standsOther⟩

theorem invariant_pop : queue.pop.2.Invariant := by
  obtain ⟨none, popped⟩ | ⟨before, entry, after, stale, place, later, job, younger, entries, others,
    jobs, shape, dead, stands, popped⟩ := pop_cases invariant
  · have pending := invariant.pending_eq
    rw [WeightedQueue.jobs, none] at pending
    rw [popped]
    constructor <;> simp [none, pending, WeightedQueue.jobs]
  have sublist : (place :: later).Sublist queue.schedule := by
    rw [shape]
    exact List.sublist_append_right stale (place :: later)
  have generations : ((place :: later).map SchedulePlace.generation).Nodup :=
    invariant.generations.sublist (sublist.map SchedulePlace.generation)
  have fresh : ∀ other ∈ place :: later, other.generation < queue.nextGeneration :=
    fun other present => invariant.fresh other (sublist.subset present)
  have scheduled : ∀ other ∈ before ++ after, ∃ found ∈ later, found.StandsFor other :=
    fun other present => scheduled_later invariant shape dead stands
      (mem_of_mem_others entries present) (others other present)
  have positive : 0 < queue.pending := by
    rw [invariant.pending_eq, jobs_eq_append entries, jobs]
    have first : job ∈ job :: younger ++ after.flatMap TransactionJobs.jobs := List.mem_cons_self
    exact List.length_pos_of_mem (List.mem_append_right _ first)
  rw [popped]
  cases younger with
  | nil =>
      rw [if_pos List.isEmpty_nil]
      refine invariant.leave entries scheduled (List.nodup_cons.mp generations).2
        (fun other present => fresh other (List.mem_cons_of_mem place present)) ?_
      rw [jobs, List.length_singleton]
      omega
  | cons next rest =>
      rw [if_neg (by simp)]
      let charged : SchedulePlace := { place with weight := place.weight + job.weight }
      have places := charged.insert_perm later
      refine invariant.exchange entries (List.cons_ne_nil next rest) ?_ ?_ ?_ ?_ ?_
      · intro other present
        have owned := invariant.owned entry (mem_of_eq_append entries)
        exact owned other (jobs ▸ List.mem_cons_of_mem job present)
      · intro other present
        rw [entries] at present
        rcases List.mem_cons.mp (List.perm_middle.mem_iff.mp present) with rfl | unchanged
        · exact ⟨charged, places.mem_iff.mpr List.mem_cons_self, stands⟩
        · obtain ⟨found, late, standsOther⟩ := scheduled other unchanged
          exact ⟨found, places.mem_iff.mpr (List.mem_cons_of_mem charged late), standsOther⟩
      · exact (places.map SchedulePlace.generation).nodup_iff.mpr generations
      · intro other present
        rcases List.mem_cons.mp (places.mem_iff.mp present) with rfl | late
        · exact fresh place List.mem_cons_self
        · exact fresh other (List.mem_cons_of_mem place late)
      · rw [jobs, List.length_cons]
        omega

theorem isLive_of_pop {place : SchedulePlace} (live : queue.pop.2.isLive place = true) :
    queue.isLive place = true := by
  rw [(invariant_pop invariant).isLive_iff] at live
  rw [invariant.isLive_iff]
  obtain ⟨entry, present, stands⟩ := live
  obtain ⟨none, popped⟩ | ⟨before, taken, after, _, _, _, _, younger, entries, _, _, _, _, _,
    popped⟩ := pop_cases invariant
  · rw [popped] at present
    exact ⟨entry, present, stands⟩
  · rw [popped] at present
    rw [entries]
    cases younger with
    | nil => exact ⟨entry, List.perm_middle.mem_iff.mpr (List.mem_cons_of_mem taken present), stands⟩
    | cons next rest =>
        obtain ⟨old, member, stood⟩ := exists_of_mem_exchange present
        exact ⟨old, member, stood place stands⟩

end Pop

section Remove

variable {queue : WeightedQueue α}

theorem remove_jobs (queue : WeightedQueue α) (key : Nat) :
    (queue.remove key).2.jobs = queue.jobs.filter (·.key != key) := by
  have kept : ∀ entries : List (TransactionJobs α),
      ((entries.map fun entry => { entry with jobs := entry.jobs.filter (·.key != key) }).filter
          (!·.jobs.isEmpty)).flatMap TransactionJobs.jobs =
        (entries.flatMap TransactionJobs.jobs).filter (·.key != key) := by
    intro entries
    induction entries with
    | nil => rfl
    | cons entry rest ih =>
        rw [List.map_cons, List.flatMap_cons, List.filter_append, ← ih]
        cases left : entry.jobs.filter (·.key != key) with
        | nil => rw [List.filter_cons_of_neg (by simp), List.nil_append]
        | cons job others => rw [List.filter_cons_of_pos (by simp), List.flatMap_cons]
  exact kept queue.transactions

theorem remove_jobs_perm (queue : WeightedQueue α) (key : Nat) :
    queue.jobs.Perm (queue.jobs.filter (·.key == key) ++ (queue.remove key).2.jobs) := by
  rw [remove_jobs]
  exact (List.filter_append_perm (·.key == key) queue.jobs).symm

theorem exists_of_mem_remove {key : Nat} {entry : TransactionJobs α}
    (member : entry ∈ (queue.remove key).2.transactions) :
    entry.jobs ≠ [] ∧ ∃ old ∈ queue.transactions,
      { old with jobs := old.jobs.filter (·.key != key) } = entry := by
  obtain ⟨present, left⟩ := List.mem_filter.mp member
  refine ⟨fun none => ?_, List.mem_map.mp present⟩
  rw [none] at left
  cases left

variable (invariant : queue.Invariant) (key : Nat)

include invariant

theorem invariant_remove : (queue.remove key).2.Invariant := by
  refine ⟨?_, fun entry present => (exists_of_mem_remove present).1, ?_, ?_,
    invariant.generations, invariant.fresh, ?_⟩
  · refine (List.Sublist.map _ List.filter_sublist).nodup ?_
    rw [List.map_map]
    exact invariant.distinct
  · intro entry present job member
    obtain ⟨_, old, oldMember, rfl⟩ := exists_of_mem_remove present
    exact invariant.owned old oldMember job (List.mem_filter.mp member).1
  · intro entry present
    obtain ⟨_, old, oldMember, rfl⟩ := exists_of_mem_remove present
    exact invariant.scheduled old oldMember
  · have counted := (remove_jobs_perm queue key).length_eq
    have pending := invariant.pending_eq
    rw [List.length_append, ← List.countP_eq_length_filter] at counted
    change queue.pending - queue.jobs.countP (·.key == key) = (queue.remove key).2.jobs.length
    omega

theorem isLive_of_remove {place : SchedulePlace}
    (live : (queue.remove key).2.isLive place = true) : queue.isLive place = true := by
  rw [(invariant_remove invariant key).isLive_iff] at live
  rw [invariant.isLive_iff]
  obtain ⟨entry, present, stands⟩ := live
  obtain ⟨_, old, member, rfl⟩ := exists_of_mem_remove present
  exact ⟨old, member, stands⟩

end Remove

end WeightedQueue

end ColumnScan
