import ColumnScan.Proofs.Scheduler.PoolView
import ColumnScan.Proofs.Traces

/-!
# The ledger of a pool's jobs

A ticket makes a job the same job whatever its runs leave of its work. The ledger says where every
submitted job is, and records when its runs start and how they end. Each way in which a job can move
keeps the ledger accounted: every submitted job is in one place, a run follows only a run that asked
for it, and a failure is reported once if somebody waits for it.
-/

set_option autoImplicit false

namespace ColumnScan

/-- The start or the end of a run of a job, whose work is its ticket. -/
inductive RunRecord where
  | started (job : Job Nat)
  | ended (job : Job Nat) (runEnd : RunEnd)
deriving DecidableEq

namespace RunRecord

def job : RunRecord → Job Nat
  | .started job => job
  | .ended job _ => job

def started? : RunRecord → Option (Job Nat)
  | .started job => some job
  | .ended _ _ => none

def completed? : RunRecord → Option (Job Nat)
  | .ended job (.finished .complete) => some job
  | .started _ | .ended _ _ => none

def failed? : RunRecord → Option (Job Nat × String)
  | .ended job (.failed message) => some (job, message)
  | .started _ | .ended _ _ => none

/-- The latest record of the job with a ticket. -/
def latest? (records : List RunRecord) (ticket : Nat) : Option RunRecord :=
  (records.filter (·.job.work == ticket)).getLast?

/-- A run starts if it is the first of its job or the one before asked for another, and ends if it
was started. -/
def MayFollow (records : List RunRecord) : RunRecord → Prop
  | .started job =>
      latest? records job.work = none ∨
        latest? records job.work = some (.ended job (.finished .reschedule))
  | .ended job _ => latest? records job.work = some (.started job)

def Orderly (records : List RunRecord) : Prop :=
  ∀ before record after, records = before ++ record :: after → record.MayFollow before

section Append

variable {records : List RunRecord} {record next : RunRecord}

theorem latest?_append_self : latest? (records ++ [record]) record.job.work = some record := by
  rw [latest?, List.filter_append, List.filter_cons_of_pos (by simp), List.filter_nil,
    List.getLast?_concat]

theorem latest?_append_other {ticket : Nat} (other : record.job.work ≠ ticket) :
    latest? (records ++ [record]) ticket = latest? records ticket := by
  rw [latest?, List.filter_append, List.filter_cons_of_neg (by simpa using other), List.filter_nil,
    List.append_nil, latest?]

theorem MayFollow.append_other (follows : next.MayFollow records)
    (other : record.job.work ≠ next.job.work) : next.MayFollow (records ++ [record]) := by
  cases next with
  | started job =>
      have kept : latest? (records ++ [record]) job.work = latest? records job.work :=
        latest?_append_other other
      rwa [MayFollow, kept]
  | ended job runEnd =>
      have kept : latest? (records ++ [record]) job.work = latest? records job.work :=
        latest?_append_other other
      rwa [MayFollow, kept]

theorem Orderly.append (orderly : Orderly records) (follows : record.MayFollow records) :
    Orderly (records ++ [record]) := by
  intro before last after shape
  obtain ⟨_, rfl, rfl⟩ | ⟨rest, _, earlier⟩ := append_singleton_cases shape
  · exact follows
  · exact orderly before last rest earlier

end Append

/-- No record of a job comes after one that says that it failed. -/
theorem Orderly.other_of_failed {records : List RunRecord} (orderly : Orderly records)
    {job : Job Nat} {message : String} {seen after : List RunRecord}
    (shape : records = seen ++ after)
    (failed : latest? seen job.work = some (.ended job (.failed message))) :
    ∀ record ∈ after, record.job.work ≠ job.work := by
  induction after generalizing seen with
  | nil => nofun
  | cons record rest ih =>
      have follows := orderly seen record rest shape
      have other : record.job.work ≠ job.work := by
        intro same
        cases record with
        | started next =>
            simp only [MayFollow, RunRecord.job] at follows same
            simp [same, failed] at follows
        | ended next runEnd =>
            simp only [MayFollow, RunRecord.job] at follows same
            simp [same, failed] at follows
      have later : records = (seen ++ [record]) ++ rest := by
        rw [shape, List.append_assoc, List.singleton_append]
      refine List.forall_mem_cons.mpr ⟨other, ih later ?_⟩
      rw [latest?_append_other other, failed]

end RunRecord

/-- Where the submitted jobs of a pool are. The work of a job is its ticket. -/
structure JobLedger where
  submitted : List (Job Nat) := []
  queued : List (Job Nat) := []
  running : List (Job Nat) := []
  yielding : List (Job Nat) := []
  removed : List (Job Nat) := []
  records : List RunRecord := []
  failures : List JobFailure := []

namespace JobLedger

def completed (ledger : JobLedger) : List (Job Nat) :=
  ledger.records.filterMap RunRecord.completed?

def failed (ledger : JobLedger) : List (Job Nat × String) :=
  ledger.records.filterMap RunRecord.failed?

/-- The reports that failed jobs owe to those who wait for them. -/
def dueReports (ledger : JobLedger) : List JobFailure :=
  ledger.failed.flatMap fun (job, message) => (RunEnd.failed message).reports job

def active (ledger : JobLedger) : List (Job Nat) :=
  ledger.queued ++ (ledger.running ++ ledger.yielding)

def settled (ledger : JobLedger) : List (Job Nat) :=
  ledger.completed ++ (ledger.failed.map Prod.fst ++ ledger.removed)

theorem settled_started (ledger : JobLedger) (job : Job Nat) :
    settled { ledger with records := ledger.records ++ [.started job] } = ledger.settled := by
  simp only [settled, completed, failed, List.filterMap_append, List.filterMap_cons,
    List.filterMap_nil, RunRecord.completed?, RunRecord.failed?, List.append_nil]

/-- The end of a run settles its job unless it asks to be queued again. -/
theorem settled_ended (ledger : JobLedger) (job : Job Nat) (runEnd : RunEnd) :
    (runEnd.again job ++ settled { ledger with
      records := ledger.records ++ [.ended job runEnd] }).Perm (job :: ledger.settled) := by
  simp only [settled, completed, failed, List.filterMap_append, List.filterMap_cons,
    List.filterMap_nil]
  cases runEnd with
  | finished status =>
      cases status with
      | complete =>
          simp only [RunRecord.completed?, RunRecord.failed?, RunEnd.again, List.append_nil,
            List.nil_append, List.append_assoc, List.singleton_append]
          exact List.perm_middle
      | reschedule =>
          simp only [RunRecord.completed?, RunRecord.failed?, RunEnd.again, List.append_nil]
          exact List.Perm.refl _
  | failed message =>
      simp only [RunRecord.completed?, RunRecord.failed?, RunEnd.again, List.append_nil,
        List.nil_append, List.map_append, List.map_cons, List.map_nil, List.append_assoc,
        List.singleton_append]
      rw [← List.append_assoc, ← List.append_assoc]
      exact List.perm_middle

theorem dueReports_started (ledger : JobLedger) (job : Job Nat) :
    dueReports { ledger with records := ledger.records ++ [.started job] } = ledger.dueReports := by
  simp only [dueReports, failed, List.filterMap_append, List.filterMap_cons, List.filterMap_nil,
    RunRecord.failed?, List.append_nil]

theorem dueReports_ended (ledger : JobLedger) (job : Job Nat) (runEnd : RunEnd) :
    dueReports { ledger with records := ledger.records ++ [.ended job runEnd] } =
      ledger.dueReports ++ runEnd.reports job := by
  simp only [dueReports, failed, List.filterMap_append, List.flatMap_append, List.filterMap_cons,
    List.filterMap_nil]
  cases runEnd with
  | finished status =>
      cases status <;> rfl
  | failed message =>
      simp only [RunRecord.failed?, List.flatMap_cons, List.flatMap_nil, List.append_nil]

structure Accounted (ledger : JobLedger) : Prop where
  tickets : ledger.submitted.map Job.work = List.range ledger.submitted.length
  conserved : ledger.submitted.Perm (ledger.active ++ ledger.settled)
  recorded : ∀ record ∈ ledger.records, record.job ∈ ledger.submitted
  waiting : ∀ job ∈ ledger.queued ++ ledger.yielding,
    (RunRecord.started job).MayFollow ledger.records
  running : ∀ job ∈ ledger.running, ∀ runEnd,
    (RunRecord.ended job runEnd).MayFollow ledger.records
  orderly : RunRecord.Orderly ledger.records
  reported : ledger.failures = ledger.dueReports

theorem accounted_empty : ({} : JobLedger).Accounted :=
  ⟨rfl, List.Perm.refl _, nofun, nofun, nofun, fun before _ _ shape => by simp at shape, rfl⟩

namespace Accounted

variable {ledger : JobLedger} (accounted : ledger.Accounted)

include accounted

theorem mem_submitted {job : Job Nat} (member : job ∈ ledger.active) : job ∈ ledger.submitted :=
  accounted.conserved.mem_iff.mpr (List.mem_append_left _ member)

theorem other_of_mem {job : Job Nat} {rest : List (Job Nat)}
    (shape : ledger.active.Perm (job :: rest)) : ∀ other ∈ rest, job.work ≠ other.work := by
  have distinct : (ledger.submitted.map Job.work).Nodup := accounted.tickets ▸ List.nodup_range
  have placed := (accounted.conserved.map Job.work).nodup_iff.mp distinct
  rw [List.map_append] at placed
  have apart := (shape.map Job.work).nodup_iff.mp (List.nodup_append.mp placed).1
  rw [List.map_cons, List.nodup_cons] at apart
  intro other member same
  exact apart.1 (same ▸ List.mem_map_of_mem member)

theorem latest?_eq_none {job : Job Nat} (new : job.work = ledger.submitted.length) :
    RunRecord.latest? ledger.records job.work = none := by
  have absent : ledger.records.filter (·.job.work == job.work) = [] := by
    refine List.filter_eq_nil_iff.mpr fun record member same => ?_
    have known := List.mem_map_of_mem (f := Job.work) (accounted.recorded record member)
    rw [accounted.tickets, List.mem_range, beq_iff_eq.mp same, new] at known
    exact Nat.lt_irrefl _ known
  rw [RunRecord.latest?, absent]
  rfl

theorem submit {job : Job Nat} {queued : List (Job Nat)} (new : job.work = ledger.submitted.length)
    (arrived : queued.Perm (job :: ledger.queued)) :
    Accounted { ledger with submitted := ledger.submitted ++ [job], queued } := by
  refine ⟨?_, ?_, ?_, ?_, accounted.running, accounted.orderly, accounted.reported⟩
  · rw [List.map_append, accounted.tickets, List.length_append, List.length_singleton,
      List.range_succ, List.map_singleton, new]
  · refine (List.perm_append_singleton job _).trans ((accounted.conserved.cons job).trans ?_)
    exact ((arrived.append_right _).append_right ledger.settled).symm
  · exact fun record member => List.mem_append_left _ (accounted.recorded record member)
  · intro other member
    have known := (arrived.append_right ledger.yielding).mem_iff.mp member
    rcases List.mem_cons.mp known with rfl | old
    · exact .inl (accounted.latest?_eq_none new)
    · exact accounted.waiting other old

theorem kept {record next : RunRecord} {rest : List (Job Nat)}
    (shape : ledger.active.Perm (record.job :: rest)) (member : next.job ∈ rest)
    (follows : next.MayFollow ledger.records) : next.MayFollow (ledger.records ++ [record]) :=
  follows.append_other (accounted.other_of_mem shape next.job member)

theorem recorded_append {record : RunRecord} {rest : List (Job Nat)}
    (shape : ledger.active.Perm (record.job :: rest)) :
    ∀ known ∈ ledger.records ++ [record], known.job ∈ ledger.submitted := by
  refine List.forall_mem_append.mpr ⟨accounted.recorded, List.forall_mem_singleton.mpr ?_⟩
  exact accounted.mem_submitted (shape.mem_iff.mpr List.mem_cons_self)

theorem start {job : Job Nat} {queued running : List (Job Nat)}
    (left : ledger.queued.Perm (job :: queued)) (arrived : running.Perm (job :: ledger.running)) :
    Accounted { ledger with queued, running, records := ledger.records ++ [.started job] } := by
  have shape : ledger.active.Perm (job :: (queued ++ (ledger.running ++ ledger.yielding))) :=
    left.append_right _
  have moved : ledger.active.Perm (queued ++ (running ++ ledger.yielding)) :=
    shape.trans (List.perm_middle.symm.trans ((arrived.symm.append_right _).append_left _))
  have unsettled := settled_started ledger job
  have follows : (RunRecord.started job).MayFollow ledger.records :=
    accounted.waiting job (List.mem_append_left _ (left.mem_iff.mpr List.mem_cons_self))
  refine ⟨accounted.tickets, ?_, accounted.recorded_append shape, ?_, ?_,
    accounted.orderly.append follows, ?_⟩
  · refine accounted.conserved.trans ((moved.append_right _).trans ?_)
    exact (List.Perm.of_eq unsettled.symm).append_left _
  · intro other member
    have before : other ∈ ledger.queued ++ ledger.yielding :=
      (left.append_right _).mem_iff.mpr (List.mem_cons_of_mem job member)
    refine accounted.kept shape ?_ (accounted.waiting other before)
    simp only [List.mem_append] at member ⊢
    exact member.imp_right .inr
  · intro other member runEnd
    rcases List.mem_cons.mp (arrived.mem_iff.mp member) with rfl | old
    · exact RunRecord.latest?_append_self
    · refine accounted.kept shape ?_ (accounted.running other old runEnd)
      exact List.mem_append_right _ (List.mem_append_left _ old)
  · rw [accounted.reported, ← dueReports_started ledger job]
    rfl

theorem finish {job : Job Nat} {runEnd : RunEnd} {running yielding : List (Job Nat)}
    (left : ledger.running.Perm (job :: running))
    (arrived : yielding.Perm (runEnd.again job ++ ledger.yielding)) :
    Accounted
      { ledger with
        running
        yielding
        records := ledger.records ++ [.ended job runEnd]
        failures := ledger.failures ++ runEnd.reports job } := by
  have shape : ledger.active.Perm (job :: (ledger.queued ++ (running ++ ledger.yielding))) :=
    ((left.append_right _).append_left _).trans List.perm_middle
  have follows : (RunRecord.ended job runEnd).MayFollow ledger.records :=
    accounted.running job (left.mem_iff.mpr List.mem_cons_self) runEnd
  refine ⟨accounted.tickets, ?_, accounted.recorded_append shape, ?_, ?_,
    accounted.orderly.append follows, ?_⟩
  · refine accounted.conserved.trans ((shape.append_right _).trans ?_)
    -- The job leaves the running ones; it is settled now, or it is the one that runs again.
    have settling := (settled_ended ledger job runEnd).append_left
      (ledger.queued ++ (running ++ ledger.yielding))
    refine List.perm_middle.symm.trans (settling.symm.trans ?_)
    rw [← List.append_assoc, List.append_assoc ledger.queued, List.append_assoc running]
    refine List.Perm.append_right _ ?_
    exact ((List.perm_append_comm.trans arrived.symm).append_left running).append_left _
  · intro other member
    -- Only the job itself has a new record, and it waits only if that record asks for a run.
    have known : other ∈ runEnd.again job ++ (ledger.queued ++ ledger.yielding) := by
      simp only [List.mem_append, arrived.mem_iff] at member ⊢
      exact or_left_comm.mp member
    rcases List.mem_append.mp known with again | before
    · cases runEnd with
      | finished status =>
          cases status with
          | complete => cases again
          | reschedule =>
              rw [List.mem_singleton.mp again]
              exact .inr RunRecord.latest?_append_self
      | failed message => cases again
    · refine accounted.kept shape ?_ (accounted.waiting other before)
      simp only [List.mem_append] at before ⊢
      exact before.imp_right .inr
  · intro other member again
    refine accounted.kept shape ?_ (accounted.running other ?_ again)
    · exact List.mem_append_right _ (List.mem_append_left _ member)
    · exact left.mem_iff.mpr (List.mem_cons_of_mem job member)
  · rw [accounted.reported, ← dueReports_ended ledger job]
    rfl

theorem requeue {job : Job Nat} {queued yielding : List (Job Nat)}
    (left : ledger.yielding.Perm (job :: yielding)) (arrived : queued.Perm (job :: ledger.queued)) :
    Accounted { ledger with queued, yielding } := by
  have waiting : (ledger.queued ++ ledger.yielding).Perm (queued ++ yielding) :=
    (left.append_left _).trans (List.perm_middle.trans (arrived.symm.append_right _))
  refine ⟨accounted.tickets, ?_, accounted.recorded,
    fun other member => accounted.waiting other (waiting.mem_iff.mpr member), accounted.running,
    accounted.orderly, accounted.reported⟩
  have active : ledger.active.Perm (queued ++ (ledger.running ++ yielding)) :=
    (List.perm_append_comm_assoc _ _ _).trans
      ((waiting.append_left _).trans (List.perm_append_comm_assoc _ _ _))
  exact accounted.conserved.trans (active.append_right _)

theorem remove {gone queued : List (Job Nat)} (left : ledger.queued.Perm (gone ++ queued)) :
    Accounted { ledger with queued, removed := ledger.removed ++ gone } := by
  refine ⟨accounted.tickets, ?_, accounted.recorded, ?_, accounted.running, accounted.orderly,
    accounted.reported⟩
  · have active : ledger.active.Perm (gone ++ (queued ++ (ledger.running ++ ledger.yielding))) := by
      rw [← List.append_assoc]
      exact left.append_right _
    have settling : ledger.settled ++ gone =
        settled { ledger with removed := ledger.removed ++ gone } := by
      simp only [settled, List.append_assoc]
      rfl
    refine accounted.conserved.trans ((perm_of_leaving active ledger.settled).trans ?_)
    exact (List.Perm.of_eq settling).append_left _
  · intro other member
    refine accounted.waiting other ((left.append_right _).mem_iff.mpr ?_)
    rw [List.append_assoc]
    exact List.mem_append_right gone member

end Accounted

end JobLedger

end ColumnScan
