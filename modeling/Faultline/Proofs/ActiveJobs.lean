/-
Which job a worker has.

A worker has at most one active job, with an identity and a begin that was
heard or not (`Scheduler.out`). Operations on behalf of other workers leave it
alone (`StoreOp.Acts.spares`); an assignment gives it out, and a report takes
the step it reports. A report that is due is never refused
(`report_effective`).
-/
import Faultline.Proofs.ConnectionLinks
import Faultline.Proofs.WorkerReports

namespace Faultline

open Lib Scheduler

variable {op : StoreOp} {store store' : CoordinatorStore} {c c' : StoreCtx}
  {result : StoreResult} {output : StoreOutput}
  {reply : StoreResult × StoreOutput} {worker : UInt32} {nowMs : Int64}
  {message : Message} {sched : Scheduler} {event : JobEvent}
  {job old : Job} {b' : Board} {notice : JobIdentity × Notice}

/-- The identity of a job's current attempt. -/
def Job.identity (job : Job) : JobIdentity := job.assignment.identity

/-- The identity a worker has, and whether its begin was heard. -/
def Scheduler.out (scheduler : Scheduler) (worker : UInt32) :
    Option (JobIdentity × Bool) :=
  (schedulerActive scheduler worker).map fun job =>
    (job.identity, job.state == .running)

-- ================================================ active jobs

theorem Scheduler.Rep.active_iff (h : sched.Rep) (hw : worker ≠ 0) :
    schedulerActive sched worker = some job
      ↔ job ∈ sched.jobs ∧ job.state.active = true
        ∧ job.workerId = worker := by
  constructor
  · intro hactive
    obtain ⟨-, hmem, hworker, hact⟩ := schedulerActive_some hactive
    exact ⟨hmem, hact, hworker⟩
  · rintro ⟨hmem, hact, rfl⟩
    exact h.active_eq hmem hact

/-- What a step does to one job leaves a worker's active job alone if that
job is not the worker's before or after. -/
theorem Scheduler.Rep.spares (h : sched.Rep)
    (hstep : sched.board.Step event job b') (hw : worker ≠ 0)
    (new : job.state.active = true → job.workerId ≠ worker)
    (old : ∀ k ∈ sched.jobs, JobStep event k job → k.state.active = true →
      k.workerId ≠ worker) :
    schedulerActive (sched.commit event job) worker
      = schedulerActive sched worker := by
  obtain ⟨hboard, hrep'⟩ := commit_refines h hstep
  have hjobs : (sched.commit event job).jobs = b'.jobs :=
    congrArg Board.jobs hboard
  ext k
  rw [hrep'.active_iff hw, h.active_iff hw, hjobs]
  refine and_congr_left_iff.mpr fun ⟨hact, hworker⟩ => ⟨fun hk => ?_,
    fun hk => ?_⟩
  · rcases hstep.mem hk with rfl | hk
    · exact absurd hworker (new hact)
    · exact hk
  · rcases hstep.keeps hk with hk | ⟨hjob, -⟩
    · exact hk
    · exact absurd hworker (old k hk hjob hact)

-- ========================================== other workers' acts

/-- On whose behalf an operation changes jobs. -/
def StoreOp.actor : StoreOp → Option UInt32
  | .assign workerId _ | .report workerId _ _ | .workerLost workerId _ =>
      some workerId
  | _ => none

/-- A step of an active job keeps its owner while it is active. -/
theorem JobStep.owner (h : JobStep event old job)
    (hact : old.state.active = true) (hnew : job.state.active = true) :
    job.workerId = old.workerId := by
  cases event with
  | created => cases h
  | assigned =>
      obtain ⟨hq, -⟩ := jobStep_assigned h
      rw [hq] at hact
      cases hact
  | started =>
      obtain ⟨-, _, -, -, rfl⟩ := jobStep_started h
      rfl
  | completed =>
      obtain ⟨-, _, _, -, -, -, rfl⟩ := jobStep_completed h
      cases hnew
  | requeued =>
      obtain ⟨-, -, _, _, -, -, -, rfl⟩ := jobStep_requeued h
      cases hnew
  | failed =>
      obtain ⟨-, -, _, _, -, -, -, rfl⟩ := jobStep_failed h
      cases hnew

/-- A step of another worker's active job spares this one's. -/
theorem Scheduler.Rep.spares_owner (h : sched.Rep)
    (hstep : sched.board.Step event job b') (hw : worker ≠ 0)
    (hold : old ∈ sched.jobs) (hact : old.state.active = true)
    (hjob : JobStep event old job) (hne : old.workerId ≠ worker) :
    schedulerActive (sched.commit event job) worker
      = schedulerActive sched worker := by
  refine h.spares hstep hw (fun hnew => ?_) fun k hk hkjob _ => ?_
  · rw [hjob.owner hact hnew]
    exact hne
  · have hid : k.id = old.id := by
      rw [← hkjob.same.id_eq, hjob.same.id_eq]
    rw [h.job_unique hk hold hid]
    exact hne

/-- An operation leaves the job of every worker alone on whose behalf it does
not act. -/
theorem StoreOp.Acts.spares (h : op.Acts store reply store')
    (hw : worker ≠ 0) (hactor : op.actor ≠ some worker) :
    schedulerActive store'.jobs worker = schedulerActive store.jobs worker := by
  cases h with
  | @job event job _ b' wal rep step time emits =>
      cases op with
      | submit payload nowMs =>
          obtain ⟨rfl, -⟩ := emits
          have hqueued := (step.valid rep.inv).2.1
          refine rep.spares step hw (fun hact => ?_)
            fun _ _ hjob => (hjob : False).elim
          rw [hqueued] at hact
          cases hact
      | assign workerId nowMs =>
          obtain ⟨rfl, rfl, -, -⟩ := emits
          refine rep.spares step hw (fun _ hsame => ?_)
            fun k _ hjob hact => ?_
          · exact hactor (congrArg some hsame)
          · rw [(jobStep_assigned hjob).1] at hact
            cases hact
      | report workerId message nowMs =>
          obtain ⟨rfl, -, old, hactive, -, happly⟩ := emits
          obtain ⟨-, hmem, rfl, hact⟩ := schedulerActive_some hactive
          exact rep.spares_owner step hw hmem hact (applyReport_step happly)
            fun hsame => hactor (congrArg some hsame)
      | workerLost workerId nowMs =>
          obtain ⟨rfl, -, old, hactive, hfail⟩ := emits
          obtain ⟨-, hmem, rfl, hact⟩ := schedulerActive_some hactive
          exact rep.spares_owner step hw hmem hact (jobFail_step hfail)
            fun hsame => hactor (congrArg some hsame)
      | _ => exact emits.elim
  | _ => rfl

theorem StoreOp.Acts.out_spares (h : op.Acts store reply store')
    (hactor : op.actor ≠ some worker) :
    store'.jobs.out worker = store.jobs.out worker := by
  unfold Scheduler.out
  by_cases hw : worker = 0
  · simp [schedulerActive, hw]
  · rw [h.spares hw hactor]

-- ===================================================== own acts

/-- An operation that does not succeed changes no job. -/
theorem StoreOp.Acts.refused_jobs (h : op.Acts store (result, output) store')
    (why : result ≠ .ok) : store'.jobs = store.jobs := by
  cases h with
  | job rep step time emits => exact absurd rfl why
  | _ => rfl

/-- An assignment is out, and not begun. -/
theorem StoreOp.Acts.out_assigned {assignment : JobAssignPayload}
    (h : (StoreOp.assign worker nowMs).Acts store
      (.ok, .assignment assignment) store') :
    store'.jobs.out worker = some (assignment.identity, false) := by
  cases h with
  | @job event job _ b' wal rep step time emits =>
      obtain ⟨rfl, rfl, -, houtput⟩ := emits
      cases houtput
      have hstate : job.state = .assigned := (step.valid rep.inv).2
      obtain ⟨hboard, hrep'⟩ := commit_refines rep step
      have hmem : job ∈ (store.jobs.commit .assigned job).jobs := by
        rw [show (store.jobs.commit .assigned job).jobs = b'.jobs from
          congrArg Board.jobs hboard]
        exact step.mem_self
      have hactive := hrep'.active_eq hmem (by rw [hstate]; rfl)
      show (schedulerActive (store.jobs.commit .assigned job)
        job.workerId).map _ = _
      rw [hactive, Option.map_some, hstate]
      rfl

/-- A worker whose job has ended has none. -/
theorem Scheduler.Rep.released (h : sched.Rep)
    (hstep : sched.board.Step event job b') (hold : old ∈ sched.jobs)
    (hact : old.state.active = true) (hjob : JobStep event old job)
    (hnew : job.state.active = false) :
    schedulerActive (sched.commit event job) old.workerId = none := by
  have hgone := h.releases hstep hnew hold hact hjob.same.id_eq.symm
  rw [schedulerActive_none ((h.inv.valid old hold).owner_ne hact)]
  rw [← h.commit_owners hstep] at hgone
  exact fun k hk hkact hsame =>
    hgone (Board.mem_ownersIn.mpr ⟨k, hk, hkact, hsame⟩)

theorem applyReport_begun {identity : JobIdentity} {attempt : UInt64}
    (h : applyReport old worker attempt message nowMs = .ok job)
    (hnotice : message.notice = some (identity, .begun)) :
    job.state = .running ∧ job.workerId = old.workerId
      ∧ job.identity = old.identity := by
  cases message with
  | jobStarted =>
      obtain ⟨-, -, -, -, -, -, -, rfl⟩ := jobStart_ok_iff.mp h
      exact ⟨rfl, rfl, rfl⟩
  | _ => cases hnotice

theorem applyReport_finished {identity : JobIdentity} {attempt : UInt64}
    (h : applyReport old worker attempt message nowMs = .ok job)
    (hnotice : message.notice = some (identity, .finished)) :
    job.state.active = false := by
  cases message with
  | jobCompleted payload =>
      obtain ⟨-, -, -, -, -, -, -, -, rfl⟩ := jobComplete_ok_iff.mp h
      rfl
  | jobFailed payload =>
      simp only [applyReport] at h
      split at h
      · cases h
      · obtain ⟨-, -, -, -, -, -, -, -, rfl⟩ := jobFail_ok_iff.mp h
        unfold failedAttempt
        split <;> rfl
  | _ => cases hnotice

theorem notice_identity (h : message.notice = some notice) :
    message.reportIdentity = some notice.1 := by
  cases message <;> cases h <;> rfl

/-- An accepted report takes the step it reports. -/
theorem StoreOp.Acts.out_reported
    (hnotice : message.notice = some notice)
    (h : (StoreOp.report worker message nowMs).Acts store (.ok, output)
      store') :
    store'.jobs.out worker
      = if notice.2 = .begun then some (notice.1, true) else none := by
  cases h with
  | @job event job _ b' wal rep step time emits =>
      obtain ⟨rfl, -, old, hactive, hidentity, happly⟩ := emits
      obtain ⟨-, hmem, rfl, hact⟩ := schedulerActive_some hactive
      have hjob := applyReport_step happly
      rw [notice_identity hnotice] at hidentity
      show (schedulerActive (store.jobs.commit (outcomeEvent job.state) job)
        old.workerId).map _ = _
      obtain ⟨identity, kind⟩ := notice
      cases kind with
      | begun =>
          obtain ⟨hstate, hworker, hsame⟩ := applyReport_begun happly hnotice
          have hin := mem_commit rep hmem
            (by rw [hstate]; decide) hjob
          have hactive' := (commit_refines rep step).2.active_eq hin
            (by rw [hstate]; rfl)
          rw [hworker] at hactive'
          rw [hactive', Option.map_some, if_pos rfl, hsame, hstate]
          exact congrArg (fun i => some (i, true))
            (Option.some.inj hidentity).symm
      | finished =>
          rw [rep.released step hmem hact hjob
            (applyReport_finished happly hnotice)]
          rfl
  | refused why => rcases why with why | why <;> cases why
  | heartbeat hop => cases hop
  | markDead hop => cases hop
  | register hop => cases hop

-- =================================================== acceptance

theorem workerIsAlive_of_aliveAt {registry : WorkerRegistry} {fd : Int}
    (hs : registry.Sound) (h : registry.AliveAt worker fd) :
    workerIsAlive registry worker = true := by
  obtain ⟨slot, halive, rfl, -⟩ := h
  have hne := hs.nonzero slot (by rw [halive]; decide)
  simp [workerIsAlive, workerFind, hne, hs.find_alive halive, halive]

/-- The job model takes a report that is due. -/
theorem applyReport_due (hvalid : old.Valid)
    (hact : old.state.active = true) (hnow : 0 ≤ nowMs)
    (hle : old.updatedAtMs ≤ nowMs) (hmessage : message.Encodable)
    (hnotice : message.notice = some notice)
    (due : Due (some (old.identity, old.state == .running)) notice) :
    message.reportIdentity = some old.identity
      ∧ ∃ job, applyReport old old.workerId old.attempt message nowMs
        = .ok job := by
  have hworker := hvalid.owner_ne hact
  have hattempt := hvalid.attempt_ne (Board.not_queued_of_active hact)
  obtain ⟨_, hcheck, -⟩ := encodeOutput_ok_iff.mp hmessage
  obtain ⟨type, htype, hfields, -, hdata, -⟩ := validateMessage_ok_iff.mp hcheck
  cases hstate : old.state with
  | assigned =>
      rw [hstate] at due
      obtain rfl : notice = (old.identity, .begun) := due
      cases message with
      | jobStarted identity =>
          injection hnotice with hpair
          injection hpair with hidentity
          exact ⟨congrArg some hidentity, _, jobStart_ok_iff.mpr ⟨hstate, hnow,
            hle, hworker, hattempt, rfl, rfl, rfl⟩⟩
      | jobCompleted payload =>
          injection hnotice with hpair
          injection hpair with _ hkind
          cases hkind
      | jobFailed payload =>
          injection hnotice with hpair
          injection hpair with _ hkind
          cases hkind
      | _ => cases hnotice
  | running =>
      rw [hstate] at due
      obtain rfl : notice = (old.identity, .finished) := due
      cases message with
      | jobCompleted payload =>
          injection hnotice with hpair
          injection hpair with hidentity
          cases htype
          exact ⟨congrArg some hidentity, _, jobComplete_ok_iff.mpr ⟨hstate,
            hnow, hle, hworker, hattempt, rfl, rfl, hdata, rfl⟩⟩
      | jobFailed payload =>
          injection hnotice with hpair
          injection hpair with hidentity
          refine ⟨congrArg some hidentity,
            failedAttempt old .task nowMs, ?_⟩
          have hcode : payload.failure = JobFailure.task.code := by
            simpa [Message.validateFields] using hfields
          simp only [applyReport, hcode, bne_self_eq_false,
            Bool.false_eq_true, if_false]
          exact jobFail_ok_iff.mpr ⟨hact, hnow, hle, hworker, hattempt, rfl,
            rfl, by decide, rfl⟩
      | _ => cases hnotice
  | _ =>
      rw [hstate] at hact
      cases hact

/-- A report that is due is accepted, unless the store fails. -/
theorem report_effective (live : c.Live) (healthy : c.store.failure = .none)
    (alive : workerIsAlive c.store.workers worker = true)
    (hmessage : message.Encodable) (hnotice : message.notice = some notice)
    (due : Due (c.store.jobs.out worker) notice)
    (h : (StoreOp.report worker message nowMs).run c
      = .done (result, output) c') : result = .ok ∨ result = .fatal := by
  have husable : c.store.usable = true := by
    simp [CoordinatorStore.usable, live.opened, healthy]
  obtain ⟨entries, l, hlog, -⟩ := live.standing.healthy husable
  have hrep := hlog.agrees.rep.1
  unfold Scheduler.out at due
  cases hactive : schedulerActive c.store.jobs worker with
  | none =>
      rw [hactive] at due
      exact due.elim
  | some old =>
      rw [hactive] at due
      obtain ⟨-, hmem, rfl, hact⟩ := schedulerActive_some hactive
      rw [StoreOp.run_eq] at h
      cases htime : c.store.jobTime nowMs with
      | none =>
          simp [StoreOp.plan, husable, alive, hactive, htime] at h
          cases h
          exact .inr rfl
      | some time =>
          obtain ⟨hnow, htimes⟩ := hlog.agrees.times_le htime
          obtain ⟨hidentity, job, happly⟩ := applyReport_due
            (hrep.inv.valid old hmem) hact hnow (htimes old hmem) hmessage
            hnotice due
          have hreport := report_accepted hrep hmem hact hnow hidentity happly
          simp only [StoreOp.plan, husable, alive, hactive, htime, hreport]
            at h
          exact commitPlan_effective h

end Faultline
