import ColumnScan.Job.ScanStep
import ColumnScan.Proofs.DistinctKeys
import ColumnScan.Proofs.Job.StepParts
import ColumnScan.Proofs.Scheduler.SettledJobs

/-!
# Histories of a step

A history lets the jobs of a step be submitted one by one to a pool, and its workers run them turn
by turn, while a reader receives from the channel that the jobs share. Anything else may happen in
the pool meanwhile: other jobs are submitted and run, queued jobs are cancelled, the pool is
stopped.
-/

set_option autoImplicit false

namespace ColumnScan

inductive StepMove where
  | turn
  | retry

/-- What can happen next to a step, the pool that works on it and its reader. -/
inductive StepEvent (σ τ : Type) where
  | submit
  | pool (event : PoolEvent (List τ))
  | move (number : Nat) (move : StepMove)
  /-- A move of a worker while the reader is waiting for a result. -/
  | meet (number : Nat) (move : StepMove)
  | receive
  | close
  /-- Somebody else changes the state that the tasks work on. -/
  | disturb (state : σ)

structure StepHistory (σ τ β : Type) where
  pool : PoolHistory (List τ)
  backpressure : Backpressure
  unsubmitted : List (Job (List τ))
  parts : List (StepPart τ β) := []
  channel : Channel β
  state : σ
  /-- The results in the order in which they were sent, each with the ticket of its job. -/
  sent : List (Nat × β) := []
  received : List β := []

namespace StepHistory

variable {σ τ β : Type} (execute : τ → σ → Except ScanError β × σ)

/-- The results that the job with a ticket has sent, the oldest first. -/
def sentBy (sent : List (Nat × β)) (ticket : Nat) : List β :=
  (sent.filter (·.1 == ticket)).map Prod.snd

/-- The job of the step that a worker runs. -/
def part? (history : StepHistory σ τ β) (number : Nat) : Option (StepPart τ β) :=
  match history.pool.pool.activity number with
  | .running job => history.parts.find? (·.ticket == job.work.ticket)
  | .idle | .yielding _ => none

def session (history : StepHistory σ τ β) (part : StepPart τ β) : JobSession σ τ β where
  job := part.job
  channel := history.channel
  state := history.state
  blocked := history.pool.pool.blocked

/-- The pool learns where a run has come to. -/
def endRun (pool : PoolHistory (List τ)) (number : Nat) (work : List τ) :
    Option RunOutcome → PoolHistory (List τ)
  | some (.finished status) => pool.finish number work (.finished status)
  | some (.failed error) => pool.finish number work (.failed error.message)
  | some .waiting | none => pool

/-- A worker has made a step of the run of a part. -/
def follow (history : StepHistory σ τ β) (number : Nat) (part : StepPart τ β)
    (step : Option RunOutcome × JobSession σ τ β) : StepHistory σ τ β :=
  let part := { part with job := step.2.job }
  let added := step.2.channel.queued.drop history.channel.queued.length
  { history with
    pool := endRun (history.pool.withBlocked step.2.blocked) number part.given step.1
    parts := history.parts.map fun other => if other.ticket = part.ticket then part else other
    channel := step.2.channel
    state := step.2.state
    sent := history.sent ++ added.map fun result => (part.ticket, result) }

def move (history : StepHistory σ τ β) (number : Nat) (move : StepMove) : StepHistory σ τ β :=
  match history.part? number with
  | none => history
  | some part =>
      match move with
      | .turn =>
          if part.job.offered.isNone then
            history.follow number (part.taking execute history.state)
              ((history.session part).turn execute)
          else
            history
      | .retry => history.follow number part (history.session part).retry

def receive (history : StepHistory σ τ β) : StepHistory σ τ β :=
  let (result, channel) := history.channel.receive
  { history with channel, received := history.received ++ result.toList }

def withCapacity (history : StepHistory σ τ β) (capacity : Option Nat) : StepHistory σ τ β :=
  { history with channel := { history.channel with capacity } }

/-- A reader that waits has room for a result even if the channel has none. -/
def meet (history : StepHistory σ τ β) (number : Nat) (move : StepMove) : StepHistory σ τ β :=
  if history.channel.isOpen && history.channel.queued.isEmpty then
    (((history.withCapacity none).move execute number move).receive).withCapacity
      history.channel.capacity
  else
    history

/-- The next job of the step is queued. -/
def submit (history : StepHistory σ τ β) : StepHistory σ τ β :=
  match history.unsubmitted with
  | [] => history
  | job :: rest =>
      let part : StepPart τ β :=
        { ticket := history.pool.submitted.length
          given := job.work
          job := { tasks := job.work, backpressure := history.backpressure } }
      { history with
        pool := history.pool.submit job
        unsubmitted := rest
        parts := history.parts ++ [part] }

/-- Whether an event would end a run of one of the step's own jobs. -/
def endsOwnRun (history : StepHistory σ τ β) : PoolEvent (List τ) → Bool
  | .finish number _ _ => (history.part? number).isSome
  | _ => false

/-- Something happens in the pool. Runs of the step's own jobs end by themselves only. -/
def interfere (history : StepHistory σ τ β) (event : PoolEvent (List τ)) : StepHistory σ τ β :=
  if history.endsOwnRun event then history else { history with pool := history.pool.step event }

def step (history : StepHistory σ τ β) : StepEvent σ τ → StepHistory σ τ β
  | .submit => history.submit
  | .pool event => history.interfere event
  | .move number move => history.move execute number move
  | .meet number move => history.meet execute number move
  | .receive => history.receive
  | .close => { history with channel := history.channel.close }
  | .disturb state => { history with state }

def run (history : StepHistory σ τ β) (events : List (StepEvent σ τ)) : StepHistory σ τ β :=
  events.foldl (step execute) history

/-- A step that is about to be submitted to a new pool. -/
def start (size : WorkerCounts) (step : ScanStep) (tasks : List τ) (capacity : Option Nat)
    (state : σ) : StepHistory σ τ β where
  pool := { pool := .start size }
  backpressure := step.backpressure
  unsubmitted := step.jobs id tasks
  channel := { capacity }
  state

section EndRun

variable {pool : PoolHistory (List τ)} {number : Nat} {job : Job (Ticketed (List τ))}
  (work : List τ) (outcome : Option RunOutcome) (ticket : Nat)

theorem sound_endRun (sound : pool.Sound) : (endRun pool number work outcome).Sound := by
  cases outcome with
  | none => exact sound
  | some outcome =>
      cases outcome with
      | finished status => exact sound.finish number work _
      | failed error => exact sound.finish number work _
      | waiting => exact sound

variable (busy : pool.pool.activity number = .running job)

include busy

theorem submitted_endRun : (endRun pool number work outcome).submitted = pool.submitted := by
  cases outcome with
  | none => rfl
  | some outcome =>
      cases outcome with
      | waiting => rfl
      | finished status => rw [endRun, PoolHistory.finish, busy]
      | failed error => rw [endRun, PoolHistory.finish, busy]

theorem mem_completedTickets_endRun :
    ticket ∈ (endRun pool number work outcome).completedTickets ↔
      ticket ∈ pool.completedTickets ∨
        ticket = job.work.ticket ∧ outcome = some (.finished .complete) := by
  cases outcome with
  | none => simp [endRun]
  | some outcome =>
      cases outcome with
      | waiting => simp [endRun]
      | finished status => simp [endRun, PoolHistory.mem_completedTickets_finish busy]
      | failed error => simp [endRun, PoolHistory.mem_completedTickets_finish busy]

theorem mem_failedTickets_endRun :
    ticket ∈ (endRun pool number work outcome).failedTickets ↔
      ticket ∈ pool.failedTickets ∨
        ticket = job.work.ticket ∧ ∃ error, outcome = some (.failed error) := by
  cases outcome with
  | none => simp [endRun]
  | some outcome =>
      cases outcome with
      | waiting => simp [endRun]
      | finished status => simp [endRun, PoolHistory.mem_failedTickets_finish busy]
      | failed error => simp [endRun, PoolHistory.mem_failedTickets_finish busy]

end EndRun

section SentBy

variable (sent : List (Nat × β)) (added : List β) {ticket other : Nat}

theorem sentBy_append_self :
    sentBy (sent ++ added.map fun result => (ticket, result)) ticket =
      sentBy sent ticket ++ added := by
  rw [sentBy, List.filter_append, List.map_append, List.filter_map]
  simp [Function.comp_def, sentBy]

theorem sentBy_append_other (different : other ≠ ticket) :
    sentBy (sent ++ added.map fun result => (other, result)) ticket = sentBy sent ticket := by
  rw [sentBy, List.filter_append, List.map_append, List.filter_map]
  simp [Function.comp_def, sentBy, different]

theorem map_snd_append :
    (sent ++ added.map fun result => (ticket, result)).map Prod.snd =
      sent.map Prod.snd ++ added := by
  simp [Function.comp_def]

end SentBy

theorem part?_eq_some {history : StepHistory σ τ β} {number : Nat} {part : StepPart τ β}
    (found : history.part? number = some part) :
    part ∈ history.parts ∧
      ∃ job, history.pool.pool.activity number = .running job ∧ part.ticket = job.work.ticket := by
  unfold part? at found
  split at found
  · next job busy =>
      have same := List.find?_some found
      exact ⟨List.mem_of_find?_eq_some found, job, busy, beq_iff_eq.mp same⟩
  · cases found
  · cases found

theorem part?_eq_none {history : StepHistory σ τ β} {number : Nat}
    (missing : history.part? number = none) {job : Job (Ticketed (List τ))}
    (busy : history.pool.pool.activity number = .running job) :
    ∀ part ∈ history.parts, part.ticket ≠ job.work.ticket := by
  rw [part?, busy] at missing
  intro part member same
  exact List.find?_eq_none.mp missing part member (beq_iff_eq.mpr same)

section Follow

variable {history : StepHistory σ τ β} {number : Nat} {part moved : StepPart τ β}
  {step : Option RunOutcome × JobSession σ τ β}

theorem sent_follow {added : List β}
    (queued : step.2.channel.queued = history.channel.queued ++ added) :
    (history.follow number moved step).sent =
      history.sent ++ added.map fun result => (moved.ticket, result) := by
  simp only [follow, queued, List.drop_left]

variable (number step) in
/-- The part takes the place of what it was before. -/
theorem parts_follow (distinct : (history.parts.map StepPart.ticket).Nodup)
    (member : part ∈ history.parts) (ticket : moved.ticket = part.ticket) :
    ∃ before after, history.parts = before ++ part :: after ∧
      (history.follow number moved step).parts =
        before ++ { moved with job := step.2.job } :: after ∧
      ∀ other ∈ before ++ after, other.ticket ≠ moved.ticket := by
  obtain ⟨before, after, shape, others⟩ :=
    exists_append_of_distinct StepPart.ticket distinct member
  let next : StepPart τ β := { moved with job := step.2.job }
  refine ⟨before, after, shape, ?_, ticket ▸ others⟩
  have replaced := map_at_key StepPart.ticket rfl others fun _ => next
  rw [← shape, ← ticket] at replaced
  exact replaced

variable {job : Job (Ticketed (List τ))}
  (busy : history.pool.pool.activity number = .running job)

include busy

theorem mem_completedTickets_follow (ticket : Nat) :
    ticket ∈ (history.follow number moved step).pool.completedTickets ↔
      ticket ∈ history.pool.completedTickets ∨
        ticket = job.work.ticket ∧ step.1 = some (.finished .complete) :=
  have stillBusy : (history.pool.withBlocked step.2.blocked).pool.activity number = .running job :=
    busy
  mem_completedTickets_endRun moved.given step.1 ticket stillBusy

theorem mem_failedTickets_follow (ticket : Nat) :
    ticket ∈ (history.follow number moved step).pool.failedTickets ↔
      ticket ∈ history.pool.failedTickets ∨
        ticket = job.work.ticket ∧ ∃ error, step.1 = some (.failed error) :=
  have stillBusy : (history.pool.withBlocked step.2.blocked).pool.activity number = .running job :=
    busy
  mem_failedTickets_endRun moved.given step.1 ticket stillBusy

theorem submitted_follow :
    (history.follow number moved step).pool.submitted = history.pool.submitted :=
  have stillBusy : (history.pool.withBlocked step.2.blocked).pool.activity number = .running job :=
    busy
  submitted_endRun moved.given step.1 stillBusy

end Follow

/-- What is known of a part in a history. -/
def Knows (history : StepHistory σ τ β) (part : StepPart τ β) : Prop :=
  part.Accounted execute (sentBy history.sent part.ticket)
    (part.ticket ∈ history.pool.completedTickets) (part.ticket ∈ history.pool.failedTickets)

structure Accounted (history : StepHistory σ τ β) (hands : List (List τ)) : Prop where
  pool : history.pool.Sound
  dealt : history.parts.map StepPart.given ++ history.unsubmitted.map Job.work = hands
  distinct : (history.parts.map StepPart.ticket).Nodup
  known : ∀ ticket ∈ history.parts.map StepPart.ticket, ticket < history.pool.submitted.length
  owned : ∀ entry ∈ history.sent, entry.1 ∈ history.parts.map StepPart.ticket
  passed : history.channel.isOpen = true →
    history.received ++ history.channel.queued = history.sent.map Prod.snd
  each : history.channel.isOpen = true → ∀ part ∈ history.parts, history.Knows execute part

namespace Accounted

variable {execute} {history : StepHistory σ τ β} {hands : List (List τ)}
  (accounted : history.Accounted execute hands)

include accounted

section Follow

variable {number : Nat} {part moved : StepPart τ β} {step : Option RunOutcome × JobSession σ τ β}
  {added : List β} {job : Job (Ticketed (List τ))}
  (busy : history.pool.pool.activity number = .running job)
  (ticket : moved.ticket = job.work.ticket)
  (queued : step.2.channel.queued = history.channel.queued ++ added)

include busy ticket queued

/-- A run that goes on has not completed before, so the job completes only if it does so now. -/
theorem knows_moved
    (advanced : StepPart.Accounted execute { moved with job := step.2.job }
      (sentBy history.sent moved.ticket ++ added) (step.1 = some (.finished .complete))
      (moved.ticket ∈ history.pool.failedTickets ∨ ∃ error, step.1 = some (.failed error))) :
    (history.follow number moved step).Knows execute { moved with job := step.2.job } := by
  unfold Knows
  rw [sent_follow queued, sentBy_append_self]
  refine advanced.weaken (fun completed => ?_) fun broken => ?_
  · obtain old | ⟨_, complete⟩ := (mem_completedTickets_follow busy _).mp completed
    · exact absurd (ticket ▸ old) (accounted.pool.not_completed_of_running busy)
    · exact complete
  · exact (mem_failedTickets_follow busy _).mpr (broken.imp_right fun failed => ⟨ticket, failed⟩)

omit accounted in
theorem knows_other {other : StepPart τ β} (different : other.ticket ≠ moved.ticket)
    (knows : history.Knows execute other) :
    (history.follow number moved step).Knows execute other := by
  unfold Knows
  rw [sent_follow queued, sentBy_append_other _ _ different.symm]
  refine knows.weaken (fun completed => ?_) fun broken => ?_
  · obtain old | ⟨same, _⟩ := (mem_completedTickets_follow busy _).mp completed
    · exact old
    · exact absurd (same.trans ticket.symm) different
  · exact (mem_failedTickets_follow busy _).mpr (.inl broken)

end Follow

/-- A step of a run changes what is known of its own part only. -/
theorem follow {number : Nat} {part moved : StepPart τ β}
    (found : history.part? number = some part) (ticket : moved.ticket = part.ticket)
    (given : moved.given = part.given) {step : Option RunOutcome × JobSession σ τ β}
    (advances : moved.Advances execute history.channel step (sentBy history.sent part.ticket)
      (part.ticket ∈ history.pool.failedTickets)) :
    (history.follow number moved step).Accounted execute hands := by
  rw [← ticket] at advances
  obtain ⟨member, job, busy, running⟩ := part?_eq_some found
  obtain ⟨before, after, shape, parts, others⟩ :=
    parts_follow number step accounted.distinct member ticket
  have tickets : (history.follow number moved step).parts.map StepPart.ticket =
      history.parts.map StepPart.ticket := by
    rw [parts, shape, List.map_append, List.map_append, List.map_cons, List.map_cons, ← ticket]
  have dealt : (history.follow number moved step).parts.map StepPart.given =
      history.parts.map StepPart.given := by
    rw [parts, shape, List.map_append, List.map_append, List.map_cons, List.map_cons, ← given]
  refine ⟨?_, ?_, ?_, ?_, ?_, fun opened => ?_, fun opened => ?_⟩
  · exact sound_endRun _ _ (PoolHistory.sound_withBlocked accounted.pool _)
  · rw [dealt]
    exact accounted.dealt
  · rw [tickets]
    exact accounted.distinct
  · rw [tickets, submitted_follow busy]
    exact accounted.known
  · rw [tickets]
    refine List.forall_mem_append.mpr ⟨accounted.owned, fun entry sending => ?_⟩
    obtain ⟨_, _, rfl⟩ := List.mem_map.mp sending
    exact ticket ▸ List.mem_map_of_mem member
  · have wasOpen := advances.isOpen.symm.trans opened
    obtain ⟨added, queued, _⟩ := advances.accounted wasOpen
    rw [sent_follow queued, map_snd_append, ← accounted.passed wasOpen, List.append_assoc,
      ← queued]
    rfl
  · have wasOpen := advances.isOpen.symm.trans opened
    obtain ⟨added, queued, advanced⟩ := advances.accounted wasOpen
    have each := accounted.each wasOpen
    have same : moved.ticket = job.work.ticket := ticket.trans running
    rw [shape, List.forall_mem_append, List.forall_mem_cons] at each
    rw [List.forall_mem_append] at others
    rw [parts, List.forall_mem_append, List.forall_mem_cons]
    refine ⟨fun other present => ?_, accounted.knows_moved busy same queued advanced,
      fun other present => ?_⟩
    · exact knows_other busy same queued (others.1 other present) (each.1 other present)
    · exact knows_other busy same queued (others.2 other present) (each.2.2 other present)

theorem move (number : Nat) (move : StepMove) :
    (history.move execute number move).Accounted execute hands := by
  unfold StepHistory.move
  cases found : history.part? number with
  | none => exact accounted
  | some part =>
      have member := (part?_eq_some found).1
      have unfinished : (history.session part).channel.isOpen = true →
          part.Accounted execute (sentBy history.sent part.ticket) False
            (part.ticket ∈ history.pool.failedTickets) :=
        fun opened => (accounted.each opened part member).weaken False.elim id
      cases move with
      | turn =>
          dsimp only
          split
          · next none =>
              have offered := Option.isNone_iff_eq_none.mp none
              have advances := StepPart.advances_turn rfl unfinished offered
              exact accounted.follow found (part.ticket_taking execute _)
                (part.given_taking execute _) advances
          · exact accounted
      | retry => exact accounted.follow found rfl rfl (StepPart.advances_retry rfl unfinished)

theorem receive : history.receive.Accounted execute hands := by
  refine ⟨accounted.pool, accounted.dealt, accounted.distinct, accounted.known, accounted.owned,
    ?_, ?_⟩
  · unfold StepHistory.receive Channel.receive
    cases queued : history.channel.queued with
    | nil =>
        intro opened
        have passed := accounted.passed opened
        simpa [queued] using passed
    | cons result rest =>
        intro opened
        have passed := accounted.passed opened
        simpa [queued] using passed
  · unfold StepHistory.receive Channel.receive
    cases history.channel.queued <;> exact accounted.each

theorem withCapacity (capacity : Option Nat) :
    (history.withCapacity capacity).Accounted execute hands :=
  ⟨accounted.pool, accounted.dealt, accounted.distinct, accounted.known, accounted.owned,
    accounted.passed, accounted.each⟩

theorem meet (number : Nat) (move : StepMove) :
    (history.meet execute number move).Accounted execute hands := by
  unfold StepHistory.meet
  split
  · exact (((accounted.withCapacity none).move number move).receive).withCapacity _
  · exact accounted

/-- Nothing that happens to other jobs of the pool matters. -/
theorem withPool {pool : PoolHistory (List τ)} (sound : pool.Sound)
    (submitted : history.pool.submitted <+: pool.submitted)
    (completed : ∀ part ∈ history.parts, part.ticket ∈ pool.completedTickets →
      part.ticket ∈ history.pool.completedTickets)
    (failed : ∀ part ∈ history.parts, part.ticket ∈ history.pool.failedTickets →
      part.ticket ∈ pool.failedTickets) :
    Accounted execute { history with pool } hands :=
  ⟨sound, accounted.dealt, accounted.distinct,
    fun ticket member => Nat.lt_of_lt_of_le (accounted.known ticket member) submitted.length_le,
    accounted.owned, accounted.passed,
    fun opened part member => (accounted.each opened part member).weaken
      (completed part member) (failed part member)⟩

theorem interfere (event : PoolEvent (List τ)) :
    (history.interfere event).Accounted execute hands := by
  unfold StepHistory.interfere
  split
  · exact accounted
  · next foreign =>
      have settled (part) (member : part ∈ history.parts) :=
        history.pool.settled_step event fun number work runEnd job shape busy => by
          rw [shape, endsOwnRun, Bool.not_eq_true, Option.isSome_eq_false_iff,
            Option.isNone_iff_eq_none] at foreign
          exact part?_eq_none foreign busy part member
      refine accounted.withPool (accounted.pool.step event)
        (history.pool.submitted_prefix_step event) ?_ ?_
      · exact fun part member => (settled part member).1.mp
      · exact fun part member => (settled part member).2.mpr

/-- A new job has a ticket of its own, under which nothing was sent or completed. -/
theorem submit : history.submit.Accounted execute hands := by
  unfold StepHistory.submit
  cases unsubmitted : history.unsubmitted with
  | nil => exact accounted
  | cons job rest =>
      have fresh : history.pool.submitted.length ∉ history.parts.map StepPart.ticket := by
        intro known
        exact Nat.lt_irrefl _ (accounted.known _ known)
      have unsent : sentBy history.sent history.pool.submitted.length = [] := by
        rw [sentBy, List.map_eq_nil_iff, List.filter_eq_nil_iff]
        intro entry member same
        exact fresh (beq_iff_eq.mp same ▸ accounted.owned entry member)
      have settled := PoolHistory.settled_of_records_eq (history.pool.records_submit job)
      have submitted := accounted.withPool (accounted.pool.submit job)
        (history.pool.submitted_prefix_step (.submit job))
        (fun part _ => (settled part.ticket).1.mp) fun part _ => (settled part.ticket).2.mpr
      refine ⟨submitted.pool, ?_, ?_, ?_, ?_, submitted.passed, fun opened => ?_⟩
      · have dealt := accounted.dealt
        rw [unsubmitted] at dealt
        simpa using dealt
      · rw [List.map_append, List.nodup_append]
        refine ⟨accounted.distinct, List.nodup_singleton _, fun ticket known other new => ?_⟩
        rintro rfl
        have same : ticket = history.pool.submitted.length := List.mem_singleton.mp new
        exact fresh (same ▸ known)
      · rw [List.map_append]
        refine List.forall_mem_append.mpr ⟨submitted.known, List.forall_mem_singleton.mpr ?_⟩
        simp [PoolHistory.submit]
      · intro entry member
        rw [List.map_append]
        exact List.mem_append_left _ (accounted.owned entry member)
      · refine List.forall_mem_append.mpr ⟨submitted.each opened, List.forall_mem_singleton.mpr ?_⟩
        refine ⟨rfl, List.forall_mem_nil _, ?_, .inl rfl,
          fun _ _ failed => absurd failed List.not_mem_nil, fun completed => ?_⟩
        · rw [unsent]
          rfl
        · have before := (settled _).1.mp completed
          exact absurd (accounted.pool.completed_lt before) (Nat.lt_irrefl _)

theorem step (event : StepEvent σ τ) : (history.step execute event).Accounted execute hands := by
  cases event with
  | submit => exact accounted.submit
  | pool event => exact accounted.interfere event
  | move number move => exact accounted.move number move
  | meet number move => exact accounted.meet number move
  | receive => exact accounted.receive
  | close =>
      exact ⟨accounted.pool, accounted.dealt, accounted.distinct, accounted.known, accounted.owned,
        nofun, nofun⟩
  | disturb state =>
      exact ⟨accounted.pool, accounted.dealt, accounted.distinct, accounted.known, accounted.owned,
        accounted.passed, accounted.each⟩

theorem run (events : List (StepEvent σ τ)) :
    (history.run execute events).Accounted execute hands := by
  induction events generalizing history with
  | nil => exact accounted
  | cons event rest ih => exact ih (accounted.step event)

end Accounted

theorem accounted_start (size : WorkerCounts) (step : ScanStep) (tasks : List τ)
    (capacity : Option Nat) (state : σ) :
    (start size step tasks capacity state : StepHistory σ τ β).Accounted execute
      (step.split tasks) := by
  refine ⟨PoolHistory.sound_run size [], ?_, List.nodup_nil, nofun, nofun, fun _ => rfl,
    fun _ => nofun⟩
  simp only [start, ScanStep.jobs, List.map_nil, List.nil_append, List.map_map]
  exact List.map_id _

end StepHistory

end ColumnScan
