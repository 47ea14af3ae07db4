/-
The scheduler (include/scheduler.h, src/coordinator/scheduler.c): the job
table in creation order, the id allocator and the pending queue.

`jobs` is the used part of the 256-entry array, so `count` is its length
and `findSlot` returns that length for an unknown id. Every operation
returns its result code with the scheduler it leaves, and an output only
when it writes one.

An accepted operation publishes one job event. `Scheduler.commit` is that
publication as a function of the event and the new snapshot. Each
operation has one `_cases` lemma: it was rejected and left everything
alone, or it passed the checks listed there and is that commit.
-/
import Faultline.JobQueue
import Faultline.Protocol.Message

namespace Faultline

open Lib

def jobStoreCapacity : Nat := 256

structure Scheduler where
  jobs : List Job
  nextJobId : UInt64
  pending : JobQueue
deriving DecidableEq, Repr

inductive SchedulerResult where
  | ok
  | invalidArgument
  | full
  | idExhausted
  | empty
  | workerBusy
  | invalidJob
  | queueError
deriving DecidableEq, Repr

def schedulerInit : Scheduler :=
  { jobs := [], nextJobId := 1, pending := jobQueueInit }

def findSlot (scheduler : Scheduler) (jobId : UInt64) : Nat :=
  scheduler.jobs.findIdx fun job => job.id == jobId

def schedulerFind (scheduler : Scheduler) (jobId : UInt64) : Option Job :=
  if jobId == 0 then none else scheduler.jobs[findSlot scheduler jobId]?

def schedulerActive (scheduler : Scheduler) (workerId : UInt32) :
    Option Job :=
  if workerId == 0 then none
  else scheduler.jobs.find? fun job =>
    job.workerId == workerId && job.state.active

/-- `id == UINT64_MAX ? 0 : id + 1`: zero means ids are exhausted. -/
def nextJobIdAfter (id : UInt64) : UInt64 :=
  if id == 0xffffffffffffffff then 0 else id + 1

def schedulerSubmit (scheduler : Scheduler) (submit : JobSubmitPayload)
    (nowMs : Int64) : SchedulerResult × Scheduler × Option UInt64 :=
  if nowMs < 0 then (.invalidArgument, scheduler, none)
  else if scheduler.jobs.length == jobStoreCapacity then
    (.full, scheduler, none)
  else if scheduler.nextJobId == 0 then (.idExhausted, scheduler, none)
  else
    match jobInit scheduler.nextJobId submit.taskType submit.arguments
        submit.maxRetries nowMs with
    | .error _ => (.invalidJob, scheduler, none)
    | .ok job =>
        match jobQueuePush scheduler.pending job with
        | .error _ => (.queueError, scheduler, none)
        | .ok pending =>
            (.ok, { jobs := scheduler.jobs ++ [job],
                    nextJobId := nextJobIdAfter job.id, pending }, some job.id)

def schedulerAssign (scheduler : Scheduler) (workerId : UInt32)
    (nowMs : Int64) : SchedulerResult × Scheduler × Option JobAssignPayload :=
  if workerId == 0 || nowMs < 0 then (.invalidArgument, scheduler, none)
  else if (schedulerActive scheduler workerId).isSome then
    (.workerBusy, scheduler, none)
  else
    match jobQueuePeek scheduler.pending with
    | .error _ => (.empty, scheduler, none)
    | .ok id =>
        match scheduler.jobs[findSlot scheduler id]? with
        | none => (.invalidJob, scheduler, none)
        | some job =>
            match jobAssign job workerId nowMs with
            | .error _ => (.invalidJob, scheduler, none)
            | .ok candidate =>
                match jobQueuePop scheduler.pending with
                | .error _ => (.queueError, scheduler, none)
                | .ok (_, pending) =>
                    (.ok, { scheduler with
                              jobs := scheduler.jobs.set
                                (findSlot scheduler id) candidate
                              pending },
                      some { identity :=
                               { jobId := candidate.id, workerId,
                                 attempt := candidate.attempt },
                             taskType := candidate.taskType.code,
                             arguments := candidate.arguments })

def publishOutcome (scheduler : Scheduler) (slot : Nat) (candidate : Job) :
    SchedulerResult × Scheduler :=
  if candidate.state == .queued then
    match jobQueuePush scheduler.pending candidate with
    | .error _ => (.queueError, scheduler)
    | .ok pending =>
        (.ok, { scheduler with
                  jobs := scheduler.jobs.set slot candidate, pending })
  else (.ok, { scheduler with jobs := scheduler.jobs.set slot candidate })

/-- The job-model call a report stands for; only a TASK failure is a
worker's to report. -/
def applyReport (job : Job) (workerId : UInt32) (attempt : UInt64)
    (report : Message) (nowMs : Int64) : Except JobError Job :=
  match report with
  | .jobStarted _ => jobStart job workerId attempt nowMs
  | .jobCompleted payload =>
      jobComplete job workerId attempt payload.result nowMs
  | .jobFailed payload =>
      if payload.failure != JobFailure.task.code then .error .invalidArgument
      else jobFail job workerId attempt .task nowMs
  | _ => .error .invalidArgument

def schedulerReport (scheduler : Scheduler) (workerId : UInt32)
    (report : Message) (nowMs : Int64) : SchedulerResult × Scheduler :=
  if workerId == 0 || nowMs < 0 then (.invalidArgument, scheduler)
  else
    match report.reportIdentity with
    | none => (.invalidArgument, scheduler)
    | some identity =>
        if identity.workerId != workerId then (.invalidJob, scheduler)
        else
          match scheduler.jobs[findSlot scheduler identity.jobId]? with
          | none => (.invalidJob, scheduler)
          | some job =>
              match applyReport job workerId identity.attempt report nowMs with
              | .error _ => (.invalidJob, scheduler)
              | .ok candidate =>
                  publishOutcome scheduler
                    (findSlot scheduler identity.jobId) candidate

def schedulerWorkerLost (scheduler : Scheduler) (workerId : UInt32)
    (nowMs : Int64) : SchedulerResult × Scheduler :=
  if workerId == 0 || nowMs < 0 then (.invalidArgument, scheduler)
  else
    match schedulerActive scheduler workerId with
    | none => (.empty, scheduler)
    | some job =>
        match jobFail job workerId job.attempt .workerLost nowMs with
        | .error _ => (.invalidJob, scheduler)
        | .ok candidate =>
            publishOutcome scheduler (findSlot scheduler candidate.id) candidate

-- ====================================== one event, published

/-- The event an outcome's state stands for. -/
def outcomeEvent : JobState → JobEvent
  | .running => .started
  | .done => .completed
  | .queued => .requeued
  | _ => .failed

/-- Publish one event: the new snapshot in its slot, the queue moved. -/
def Scheduler.commit (scheduler : Scheduler) (event : JobEvent) (job : Job) :
    Scheduler :=
  match event with
  | .created =>
      { jobs := scheduler.jobs ++ [job]
        nextJobId := nextJobIdAfter job.id
        pending := scheduler.pending.put job.id }
  | .assigned =>
      { scheduler with
        jobs := scheduler.jobs.set (findSlot scheduler job.id) job
        pending := scheduler.pending.advance 0 }
  | .requeued =>
      { scheduler with
        jobs := scheduler.jobs.set (findSlot scheduler job.id) job
        pending := scheduler.pending.put job.id }
  | _ =>
      { scheduler with
        jobs := scheduler.jobs.set (findSlot scheduler job.id) job }

variable {scheduler : Scheduler}

/-- A slot that holds a job holds one with the id it was looked up by. -/
theorem id_of_findSlot {id : UInt64} {job : Job}
    (h : scheduler.jobs[findSlot scheduler id]? = some job) : job.id = id := by
  obtain ⟨hlt, hget⟩ := List.getElem?_eq_some_iff.mp h
  have hfound := List.findIdx_getElem (w := hlt)
  rw [← hget]
  exact beq_iff_eq.mp hfound

theorem mem_of_findSlot {id : UInt64} {job : Job}
    (h : scheduler.jobs[findSlot scheduler id]? = some job) :
    job ∈ scheduler.jobs :=
  List.mem_of_getElem? h

/-- The active job of a worker, when there is one. -/
theorem schedulerActive_some {worker : UInt32} {job : Job}
    (h : schedulerActive scheduler worker = some job) :
    worker ≠ 0 ∧ job ∈ scheduler.jobs ∧ job.workerId = worker
      ∧ job.state.active = true := by
  unfold schedulerActive at h
  split at h
  · cases h
  · rename_i hw
    have hp := List.find?_some h
    simp only [Bool.and_eq_true, beq_iff_eq] at hp hw
    exact ⟨hw, List.mem_of_find?_eq_some h, hp.1, hp.2⟩

theorem schedulerActive_none {worker : UInt32} (hw : worker ≠ 0) :
    schedulerActive scheduler worker = none
      ↔ ∀ job ∈ scheduler.jobs, job.state.active = true →
          job.workerId ≠ worker := by
  unfold schedulerActive
  rw [if_neg (by simpa using hw), List.find?_eq_none]
  simp only [Bool.and_eq_true, beq_iff_eq, not_and]
  exact ⟨fun h job hj hact heq => h job hj heq hact,
    fun h job hj heq hact => h job hj hact heq⟩

theorem schedulerSubmit_cases (hfits : scheduler.pending.Fits)
    (submit : JobSubmitPayload) (now : Int64) :
    (∃ result, result ≠ .ok
      ∧ schedulerSubmit scheduler submit now = (result, scheduler, none))
    ∨ ∃ job, jobInit scheduler.nextJobId submit.taskType submit.arguments
          submit.maxRetries now = .ok job
        ∧ scheduler.jobs.length ≠ jobStoreCapacity
        ∧ schedulerSubmit scheduler submit now
          = (.ok, scheduler.commit .created job, some job.id) := by
  unfold schedulerSubmit
  split
  · exact Or.inl ⟨_, by simp, rfl⟩
  split
  · exact Or.inl ⟨_, by simp, rfl⟩
  rename_i hfull
  split
  · exact Or.inl ⟨_, by simp, rfl⟩
  split
  · exact Or.inl ⟨_, by simp, rfl⟩
  rename_i job hinit
  split
  · exact Or.inl ⟨_, by simp, rfl⟩
  rename_i pending hpush
  obtain ⟨-, -, -, -, -, rfl⟩ := (jobQueuePush_ok_iff hfits).mp hpush
  exact Or.inr ⟨job, hinit, by simpa using hfull, rfl⟩

theorem schedulerAssign_cases (scheduler : Scheduler) (worker : UInt32)
    (now : Int64) :
    (∃ result, result ≠ .ok
      ∧ schedulerAssign scheduler worker now = (result, scheduler, none))
    ∨ ∃ old job, worker ≠ 0 ∧ schedulerActive scheduler worker = none
        ∧ scheduler.pending.toList.head? = some old.id
        ∧ scheduler.jobs[findSlot scheduler old.id]? = some old
        ∧ jobAssign old worker now = .ok job
        ∧ schedulerAssign scheduler worker now
          = (.ok, scheduler.commit .assigned job,
              some { identity :=
                       { jobId := job.id, workerId := worker,
                         attempt := job.attempt },
                     taskType := job.taskType.code,
                     arguments := job.arguments }) := by
  unfold schedulerAssign
  split
  · exact Or.inl ⟨_, by simp, rfl⟩
  rename_i hargs
  split
  · exact Or.inl ⟨_, by simp, rfl⟩
  rename_i hidle
  split
  · exact Or.inl ⟨_, by simp, rfl⟩
  rename_i id hpeek
  split
  · exact Or.inl ⟨_, by simp, rfl⟩
  rename_i old hold
  split
  · exact Or.inl ⟨_, by simp, rfl⟩
  rename_i job hassign
  split
  · exact Or.inl ⟨_, by simp, rfl⟩
  rename_i removed pending hpop
  simp only [Bool.or_eq_true, beq_iff_eq, decide_eq_true_eq, not_or] at hargs
  obtain ⟨-, rfl⟩ := jobQueuePop_ok_iff.mp hpop
  have hid := id_of_findSlot hold
  subst hid
  have hjob : job.id = old.id := by
    obtain ⟨-, -, -, -, rfl⟩ := jobAssign_ok_iff.mp hassign
    rfl
  refine Or.inr ⟨old, job, hargs.1, by simpa using hidle,
    jobQueuePeek_ok_iff.mp hpeek, hold, hassign, ?_⟩
  simp only [Scheduler.commit, hjob]

/-- Publishing an outcome is committing its event, or a queue error. -/
theorem publishOutcome_cases (hfits : scheduler.pending.Fits) (job : Job) :
    publishOutcome scheduler (findSlot scheduler job.id) job
        = (.queueError, scheduler)
    ∨ publishOutcome scheduler (findSlot scheduler job.id) job
        = (.ok, scheduler.commit (outcomeEvent job.state) job) := by
  unfold publishOutcome
  split
  · rename_i hq
    split
    · exact Or.inl rfl
    · rename_i pending hpush
      obtain ⟨-, -, -, -, -, rfl⟩ := (jobQueuePush_ok_iff hfits).mp hpush
      rw [beq_iff_eq.mp hq]
      exact Or.inr rfl
  · rename_i hq
    refine Or.inr ?_
    cases hs : job.state <;> simp_all [outcomeEvent, Scheduler.commit]

/-- A report's job-model call keeps the job's id. -/
theorem id_of_applyReport {old job : Job} {worker : UInt32}
    {attempt : UInt64} {report : Message} {now : Int64}
    (h : applyReport old worker attempt report now = .ok job) :
    job.id = old.id := by
  unfold applyReport at h
  split at h
  · obtain ⟨-, -, -, -, -, -, -, rfl⟩ := jobStart_ok_iff.mp h
    rfl
  · obtain ⟨-, -, -, -, -, -, -, -, rfl⟩ := jobComplete_ok_iff.mp h
    rfl
  · split at h
    · cases h
    · obtain ⟨-, -, -, -, -, -, -, -, rfl⟩ := jobFail_ok_iff.mp h
      unfold failedAttempt
      split <;> rfl
  · cases h

theorem schedulerReport_cases (hfits : scheduler.pending.Fits)
    (worker : UInt32) (report : Message) (now : Int64) :
    (∃ result, result ≠ .ok
      ∧ schedulerReport scheduler worker report now = (result, scheduler))
    ∨ ∃ identity old job, report.reportIdentity = some identity
        ∧ identity.workerId = worker
        ∧ scheduler.jobs[findSlot scheduler identity.jobId]? = some old
        ∧ applyReport old worker identity.attempt report now = .ok job
        ∧ schedulerReport scheduler worker report now
          = (.ok, scheduler.commit (outcomeEvent job.state) job) := by
  unfold schedulerReport
  split
  · exact Or.inl ⟨_, by simp, rfl⟩
  split
  · exact Or.inl ⟨_, by simp, rfl⟩
  rename_i identity hidentity
  split
  · exact Or.inl ⟨_, by simp, rfl⟩
  rename_i hworker
  split
  · exact Or.inl ⟨_, by simp, rfl⟩
  rename_i old hold
  split
  · exact Or.inl ⟨_, by simp, rfl⟩
  rename_i job happly
  have hjob : job.id = identity.jobId := by
    rw [id_of_applyReport happly, id_of_findSlot hold]
  rw [← hjob]
  rcases publishOutcome_cases hfits job with hpub | hpub
  · exact Or.inl ⟨_, by simp, hpub⟩
  · exact Or.inr ⟨identity, old, job, hidentity, by simpa using hworker,
      hjob ▸ hold, happly, hpub⟩

theorem schedulerWorkerLost_cases (hfits : scheduler.pending.Fits)
    (worker : UInt32) (now : Int64) :
    (∃ result, result ≠ .ok
      ∧ schedulerWorkerLost scheduler worker now = (result, scheduler))
    ∨ ∃ old job, schedulerActive scheduler worker = some old
        ∧ jobFail old worker old.attempt .workerLost now = .ok job
        ∧ schedulerWorkerLost scheduler worker now
          = (.ok, scheduler.commit (outcomeEvent job.state) job) := by
  unfold schedulerWorkerLost
  split
  · exact Or.inl ⟨_, by simp, rfl⟩
  split
  · exact Or.inl ⟨_, by simp, rfl⟩
  rename_i old hactive
  split
  · exact Or.inl ⟨_, by simp, rfl⟩
  rename_i job hfail
  rcases publishOutcome_cases hfits job with hpub | hpub
  · exact Or.inl ⟨_, by simp, hpub⟩
  · exact Or.inr ⟨old, job, hactive, hfail, hpub⟩

end Faultline
