import ColumnScan.Proofs.Scheduler.QueueHistory

/-!
# The weights that transactions have been charged

The place that stands for a transaction holds the weight it has been charged since it entered. The
schedule is kept in order, so the transaction that is served next has been charged the least, and a
transaction that enters gets no less than one that was served before it.
-/

set_option autoImplicit false

namespace ColumnScan

variable {α : Type}

theorem mem_middle_iff {β : Type} {before after : List β} {item other : β} :
    other ∈ before ++ item :: after ↔ other = item ∨ other ∈ before ++ after := by
  rw [List.perm_middle.mem_iff, List.mem_cons]

namespace SchedulePlace

theorem mem_insert {place other : SchedulePlace} {schedule : List SchedulePlace} :
    other ∈ place.insert schedule ↔ other = place ∨ other ∈ schedule := by
  rw [(place.insert_perm schedule).mem_iff, List.mem_cons]

/-- The first place of a schedule is the one to be served next. -/
def Ordered (schedule : List SchedulePlace) : Prop :=
  schedule.Pairwise fun left right => left.precedes right = true

theorem precedes_iff {left right : SchedulePlace} : left.precedes right = true ↔
    left.weight < right.weight ∨ left.weight = right.weight ∧
      (left.transaction < right.transaction ∨
        left.transaction = right.transaction ∧ left.generation ≤ right.generation) := by
  simp only [precedes, Bool.or_eq_true, Bool.and_eq_true, decide_eq_true_eq, beq_iff_eq]

theorem weight_le_of_precedes {left right : SchedulePlace} (first : left.precedes right = true) :
    left.weight ≤ right.weight := by
  rw [precedes_iff] at first
  omega

theorem ordered_insert (place : SchedulePlace) {schedule : List SchedulePlace}
    (ordered : Ordered schedule) : Ordered (place.insert schedule) := by
  induction schedule with
  | nil => exact List.pairwise_singleton _ _
  | cons other rest ih =>
      obtain ⟨before, tail⟩ := List.pairwise_cons.mp ordered
      unfold insert
      split
      next first =>
        refine List.pairwise_cons.mpr ⟨fun later present => ?_, ordered⟩
        rcases List.mem_cons.mp present with rfl | present
        · exact first
        · have second := before later present
          rw [precedes_iff] at first second ⊢
          omega
      next notFirst =>
        refine List.pairwise_cons.mpr ⟨fun later present => ?_, ih tail⟩
        rcases mem_insert.mp present with rfl | present
        · rw [precedes_iff] at notFirst ⊢
          omega
        · exact before later present

end SchedulePlace

namespace WeightedQueue

/-- The weight that a transaction has been charged, if it has jobs. -/
def accumulated? (queue : WeightedQueue α) (transaction : Nat) : Option Nat :=
  (queue.schedule.find? fun place =>
    place.transaction == transaction && queue.isLive place).map SchedulePlace.weight

section Ordered

variable {queue : WeightedQueue α} (invariant : queue.Invariant)
  (ordered : SchedulePlace.Ordered queue.schedule)

include invariant ordered

theorem ordered_push (job : Job α) : SchedulePlace.Ordered (queue.push job).schedule := by
  obtain ⟨_, _, _, _, _, pushed⟩ | ⟨_, pushed⟩ := push_cases invariant job
  · rw [pushed]
    exact ordered
  · rw [pushed]
    exact SchedulePlace.ordered_insert _ ordered

theorem ordered_pop : SchedulePlace.Ordered queue.pop.2.schedule := by
  obtain ⟨_, popped⟩ | ⟨_, _, _, stale, place, later, _, younger, _, _, _, shape, _, _, popped⟩ :=
    pop_cases invariant
  · rw [popped]
    exact List.Pairwise.nil
  rw [shape] at ordered
  have remaining := (List.pairwise_cons.mp (List.pairwise_append.mp ordered).2.1).2
  rw [popped]
  cases younger with
  | nil => exact remaining
  | cons next rest => exact SchedulePlace.ordered_insert _ remaining

end Ordered

namespace Invariant

variable {queue : WeightedQueue α} (invariant : queue.Invariant)

include invariant

theorem entry_unique {first second : TransactionJobs α} (firstMember : first ∈ queue.transactions)
    (secondMember : second ∈ queue.transactions) (same : second.transaction = first.transaction) :
    second = first := by
  have found := invariant.find?_eq_some_iff.mpr ⟨firstMember, rfl⟩
  rw [invariant.find?_eq_some_iff.mpr ⟨secondMember, same⟩] at found
  exact Option.some.inj found

theorem place_unique {entry : TransactionJobs α} {first second : SchedulePlace}
    (firstMember : first ∈ queue.schedule) (secondMember : second ∈ queue.schedule)
    (firstStands : first.StandsFor entry) (secondStands : second.StandsFor entry) :
    second = first := by
  obtain ⟨before, after, shape, others⟩ :=
    exists_append_of_distinct SchedulePlace.generation invariant.generations firstMember
  rw [shape] at secondMember
  rcases mem_middle_iff.mp secondMember with same | other
  · exact same
  · exact absurd (secondStands.2.trans firstStands.2.symm) (others second other)

theorem accumulated?_eq_some_iff {transaction weight : Nat} :
    queue.accumulated? transaction = some weight ↔
      ∃ entry ∈ queue.transactions, entry.transaction = transaction ∧
        ∃ place ∈ queue.schedule, place.StandsFor entry ∧ place.weight = weight := by
  unfold accumulated?
  constructor
  · intro found
    obtain ⟨place, selected, rfl⟩ := Option.map_eq_some_iff.mp found
    have suits := List.find?_some selected
    simp only [Bool.and_eq_true, beq_iff_eq] at suits
    obtain ⟨entry, member, stands⟩ := invariant.isLive_iff.mp suits.2
    exact ⟨entry, member, stands.1.symm.trans suits.1, place, List.mem_of_find?_eq_some selected,
      stands, rfl⟩
  · rintro ⟨entry, member, rfl, place, present, stands, rfl⟩
    have live := invariant.isLive_iff.mpr ⟨entry, member, stands⟩
    cases selected : queue.schedule.find? fun place =>
        place.transaction == entry.transaction && queue.isLive place with
    | none =>
        have unsuited := List.find?_eq_none.mp selected place present
        simp [stands.1, live] at unsuited
    | some other =>
        have suits := List.find?_some selected
        simp only [Bool.and_eq_true, beq_iff_eq] at suits
        obtain ⟨owner, ownerMember, ownerStands⟩ := invariant.isLive_iff.mp suits.2
        have same := invariant.entry_unique member ownerMember (ownerStands.1.symm.trans suits.1)
        have found := List.mem_of_find?_eq_some selected
        rw [invariant.place_unique present found stands (same ▸ ownerStands)]
        rfl

theorem accumulated?_eq_none_iff {transaction : Nat} :
    queue.accumulated? transaction = none ↔
      transaction ∉ queue.transactions.map TransactionJobs.transaction := by
  constructor
  · intro absent listed
    obtain ⟨entry, member, same⟩ := List.mem_map.mp listed
    obtain ⟨place, present, stands⟩ := invariant.scheduled entry member
    have found := invariant.accumulated?_eq_some_iff.mpr
      ⟨entry, member, same, place, present, stands, rfl⟩
    rw [absent] at found
    cases found
  · intro unlisted
    refine Option.eq_none_iff_forall_ne_some.mpr fun weight found => unlisted ?_
    obtain ⟨entry, member, same, _⟩ := invariant.accumulated?_eq_some_iff.mp found
    exact same ▸ List.mem_map_of_mem member

end Invariant

section Push

variable {queue : WeightedQueue α} (invariant : queue.Invariant) (job : Job α)

include invariant

theorem accumulated?_push_of_some {transaction weight : Nat}
    (held : queue.accumulated? transaction = some weight) :
    (queue.push job).accumulated? transaction = some weight := by
  obtain ⟨entry, member, same, place, present, stands, weighs⟩ :=
    invariant.accumulated?_eq_some_iff.mp held
  rw [(invariant_push invariant job).accumulated?_eq_some_iff]
  obtain ⟨before, changed, after, shape, _, pushed⟩ | ⟨_, pushed⟩ := push_cases invariant job
  · rw [shape] at member
    rw [pushed]
    rcases mem_middle_iff.mp member with rfl | other
    · exact ⟨{ entry with jobs := entry.jobs ++ [job] },
        List.mem_append_right before List.mem_cons_self, same, place, present, stands, weighs⟩
    · exact ⟨entry, mem_middle_iff.mpr (.inr other), same, place, present, stands, weighs⟩
  · rw [pushed]
    exact ⟨entry, List.mem_append_left _ member, same, place,
      SchedulePlace.mem_insert.mpr (.inr present), stands, weighs⟩

theorem accumulated?_push_of_ne {transaction : Nat} (different : job.transaction ≠ transaction) :
    (queue.push job).accumulated? transaction = queue.accumulated? transaction := by
  cases held : queue.accumulated? transaction with
  | some weight => exact accumulated?_push_of_some invariant job held
  | none =>
      rw [invariant.accumulated?_eq_none_iff] at held
      rw [(invariant_push invariant job).accumulated?_eq_none_iff]
      obtain ⟨before, entry, after, shape, _, pushed⟩ | ⟨_, pushed⟩ := push_cases invariant job
      · rw [shape] at held
        simpa only [pushed, List.map_append, List.map_cons] using held
      · simpa [pushed, Ne.symm different] using held

/-- A transaction enters with the weight of the first place. -/
theorem accumulated?_push_entering (absent : queue.accumulated? job.transaction = none) :
    (queue.push job).accumulated? job.transaction = some queue.entryWeight := by
  rw [invariant.accumulated?_eq_none_iff] at absent
  rw [(invariant_push invariant job).accumulated?_eq_some_iff]
  obtain ⟨before, entry, after, shape, same, _⟩ | ⟨_, pushed⟩ := push_cases invariant job
  · exact absurd (same ▸ List.mem_map_of_mem (mem_of_eq_append shape)) absent
  · rw [pushed]
    exact ⟨_, List.mem_append_right _ List.mem_cons_self, rfl, _,
      SchedulePlace.mem_insert.mpr (.inl rfl), ⟨rfl, rfl⟩, rfl⟩

theorem entryWeight_push : (queue.push job).entryWeight = queue.entryWeight := by
  obtain ⟨_, _, _, _, _, pushed⟩ | ⟨_, pushed⟩ := push_cases invariant job
  · rw [pushed]
    rfl
  · rw [pushed, entryWeight]
    cases places : queue.schedule with
    | nil => rfl
    | cons first rest =>
        have weight : queue.entryWeight = first.weight := by rw [entryWeight, places]; rfl
        unfold SchedulePlace.insert
        split
        · rfl
        · exact weight.symm

end Push

section Pop

variable {queue : WeightedQueue α} (invariant : queue.Invariant)

include invariant

theorem accumulated?_pop_of_ne {job : Job α} (popped : queue.pop.1 = some job) {transaction : Nat}
    (different : job.transaction ≠ transaction) :
    queue.pop.2.accumulated? transaction = queue.accumulated? transaction := by
  obtain ⟨_, finished⟩ | ⟨before, entry, after, stale, place, later, first, younger, entries, _, jobs,
    shape, dead, stands, taken⟩ := pop_cases invariant
  · rw [finished] at popped
    cases popped
  rw [taken] at popped
  cases popped
  have owned : job.transaction = entry.transaction :=
    invariant.owned entry (mem_of_eq_append entries) job (jobs ▸ List.mem_cons_self)
  have outside : entry.transaction ≠ transaction := owned ▸ different
  cases held : queue.accumulated? transaction with
  | some weight =>
      obtain ⟨other, member, rfl, _, present, otherStands, rfl⟩ :=
        invariant.accumulated?_eq_some_iff.mp held
      obtain ⟨found, remaining, foundStands⟩ :=
        scheduled_later invariant shape dead stands member (Ne.symm outside)
      have scheduled : found ∈ queue.schedule := by
        rw [shape]
        exact List.mem_append_right stale (List.mem_cons_of_mem place remaining)
      -- No transaction has two places, so the one that remains has the weight of the one it had.
      have same := invariant.place_unique scheduled present foundStands otherStands
      rw [entries] at member
      rw [(invariant_pop invariant).accumulated?_eq_some_iff, taken, same]
      have kept : other ∈ before ++ after := by
        rcases mem_middle_iff.mp member with rfl | kept
        · exact absurd rfl outside
        · exact kept
      cases younger with
      | nil => exact ⟨other, kept, rfl, found, remaining, foundStands, rfl⟩
      | cons next rest =>
          exact ⟨other, mem_middle_iff.mpr (.inr kept), rfl, found,
            SchedulePlace.mem_insert.mpr (.inr remaining), foundStands, rfl⟩
  | none =>
      rw [invariant.accumulated?_eq_none_iff, entries] at held
      rw [(invariant_pop invariant).accumulated?_eq_none_iff, taken]
      refine fun listed => held ?_
      obtain ⟨other, present, same⟩ := List.mem_map.mp listed
      cases younger with
      | nil =>
          exact List.mem_map.mpr ⟨other, mem_middle_iff.mpr (.inr present), same⟩
      | cons next rest =>
          rcases mem_middle_iff.mp present with rfl | kept
          · exact absurd same outside
          · exact List.mem_map.mpr ⟨other, mem_middle_iff.mpr (.inr kept), same⟩

end Pop

/-- The transaction of a popped job had been charged the least. It is charged for the job or leaves,
and all others keep their weights. -/
structure Charges (queue next : WeightedQueue α) (job : Job α) (weight : Nat) : Prop where
  held : queue.accumulated? job.transaction = some weight
  least : ∀ {transaction other : Nat}, queue.accumulated? transaction = some other → weight ≤ other
  charged : next.accumulated? job.transaction = none ∨
    next.accumulated? job.transaction = some (weight + job.weight)
  others : ∀ {transaction : Nat}, job.transaction ≠ transaction →
    next.accumulated? transaction = queue.accumulated? transaction
  entryWeight_le : queue.entryWeight ≤ weight
  le_schedule : ∀ place ∈ next.schedule, weight ≤ place.weight

/-- Who waits is scheduled, and nobody is scheduled before the transaction that was served. -/
theorem Charges.le_entryWeight {queue next : WeightedQueue α} {job : Job α} {weight : Nat}
    (charges : Charges queue next job weight) {transaction waiting : Nat}
    (waits : next.accumulated? transaction = some waiting) : weight ≤ next.entryWeight := by
  cases shape : next.schedule with
  | nil =>
      rw [accumulated?, shape] at waits
      cases waits
  | cons first rest =>
      have present : first ∈ next.schedule := by
        rw [shape]
        exact List.mem_cons_self
      rw [entryWeight, shape]
      exact charges.le_schedule first present

theorem exists_popped {queue : WeightedQueue α} (invariant : queue.Invariant)
    {transaction weight : Nat} (held : queue.accumulated? transaction = some weight) :
    ∃ job, queue.pop.1 = some job := by
  obtain ⟨entry, member, _⟩ := invariant.accumulated?_eq_some_iff.mp held
  obtain ⟨empty, _⟩ | ⟨_, _, _, _, _, _, job, _, _, _, _, _, _, _, popped⟩ := pop_cases invariant
  · rw [empty] at member
    cases member
  · exact ⟨job, congrArg Prod.fst popped⟩

theorem entryWeight_le_of_ordered {queue : WeightedQueue α}
    (ordered : SchedulePlace.Ordered queue.schedule) {place : SchedulePlace}
    (present : place ∈ queue.schedule) : queue.entryWeight ≤ place.weight := by
  unfold entryWeight
  cases shape : queue.schedule with
  | nil => exact Nat.zero_le _
  | cons first rest =>
      rw [shape] at ordered present
      rcases List.mem_cons.mp present with rfl | later
      · exact Nat.le_refl _
      · exact SchedulePlace.weight_le_of_precedes ((List.pairwise_cons.mp ordered).1 place later)

theorem pop_charges {queue : WeightedQueue α} (invariant : queue.Invariant)
    (ordered : SchedulePlace.Ordered queue.schedule) {job : Job α}
    (popped : queue.pop.1 = some job) : ∃ weight, Charges queue queue.pop.2 job weight := by
  have unchanged := @accumulated?_pop_of_ne α queue invariant job popped
  obtain ⟨_, finished⟩ | ⟨before, entry, after, stale, place, later, first, younger, entries, others,
    jobs, shape, dead, stands, taken⟩ := pop_cases invariant
  · rw [finished] at popped
    cases popped
  rw [taken] at popped
  cases popped
  have member := mem_of_eq_append entries
  have owned : job.transaction = entry.transaction :=
    invariant.owned entry member job (jobs ▸ List.mem_cons_self)
  have present : place ∈ queue.schedule := by
    rw [shape]
    exact List.mem_append_right stale List.mem_cons_self
  have remaining : ∀ other ∈ later, place.weight ≤ other.weight := by
    rw [shape] at ordered
    have sorted := (List.pairwise_cons.mp (List.pairwise_append.mp ordered).2.1).1
    exact fun other late => SchedulePlace.weight_le_of_precedes (sorted other late)
  -- Only stale places were dropped in front of the popped one, so every live one comes after it.
  refine ⟨place.weight, ?_, ?_, ?_, unchanged, entryWeight_le_of_ordered ordered present, ?_⟩
  · exact invariant.accumulated?_eq_some_iff.mpr
      ⟨entry, member, owned.symm, place, present, stands, rfl⟩
  · intro transaction other held
    obtain ⟨owner, ownerMember, _, found, foundPresent, foundStands, rfl⟩ :=
      invariant.accumulated?_eq_some_iff.mp held
    have live := invariant.isLive_iff.mpr ⟨owner, ownerMember, foundStands⟩
    rcases List.mem_cons.mp (mem_of_isLive shape dead foundPresent live) with rfl | late
    · exact Nat.le_refl _
    · exact remaining found late
  · have after := invariant_pop invariant
    cases younger with
    | nil =>
        refine .inl (after.accumulated?_eq_none_iff.mpr fun listed => ?_)
        rw [taken] at listed
        obtain ⟨other, otherMember, same⟩ := List.mem_map.mp listed
        exact others other otherMember (same.trans owned)
    | cons next rest =>
        refine .inr (after.accumulated?_eq_some_iff.mpr ?_)
        rw [taken]
        exact ⟨_, List.mem_append_right before List.mem_cons_self, owned.symm, _,
          SchedulePlace.mem_insert.mpr (.inl rfl), stands, rfl⟩
  · rw [taken]
    cases younger with
    | nil => exact remaining
    | cons next rest =>
        intro other otherPresent
        rcases SchedulePlace.mem_insert.mp otherPresent with rfl | late
        · exact Nat.le_add_right _ _
        · exact remaining other late

end WeightedQueue

namespace QueueHistory

theorem invariant_step {history : QueueHistory α} (invariant : history.queue.Invariant)
    (operation : QueueOperation α) : (history.step operation).queue.Invariant := by
  cases operation with
  | push job => exact WeightedQueue.invariant_push invariant job
  | pop => exact WeightedQueue.invariant_pop invariant
  | remove key => exact WeightedQueue.invariant_remove invariant key

theorem ordered_step {history : QueueHistory α} (invariant : history.queue.Invariant)
    (ordered : SchedulePlace.Ordered history.queue.schedule) (operation : QueueOperation α) :
    SchedulePlace.Ordered (history.step operation).queue.schedule := by
  cases operation with
  | push job => exact WeightedQueue.ordered_push invariant ordered job
  | pop => exact WeightedQueue.ordered_pop invariant ordered
  | remove key => exact ordered

theorem ordered_run {history : QueueHistory α} (invariant : history.queue.Invariant)
    (ordered : SchedulePlace.Ordered history.queue.schedule)
    (operations : List (QueueOperation α)) :
    SchedulePlace.Ordered (history.run operations).queue.schedule := by
  induction operations generalizing history with
  | nil => exact ordered
  | cons operation rest ih =>
      exact ih (invariant_step invariant operation) (ordered_step invariant ordered operation)

theorem ordered_run_empty (operations : List (QueueOperation α)) :
    SchedulePlace.Ordered (run {} operations).queue.schedule :=
  ordered_run accounted_empty.invariant List.Pairwise.nil operations

end QueueHistory

end ColumnScan
