/-
What holds of every scheduler anyone can reach.

A scheduler starts empty or as a replay left it (`SchedulerStart`) and
then takes any sequence of calls. `scheduler_representation` is the
representation invariant in the scheduler's own terms.
`stale_reports_rejected` is about time: an attempt that ended is past
forever (`Past`), a finished record is final, and a result has exactly one
report behind it.
-/
import Faultline.Proofs.AcceptedLogs

namespace Faultline

open Scheduler

/-- Where a scheduler's life begins: empty, or recovered from any file a
replay accepts. -/
inductive SchedulerStart : Scheduler → Prop where
  | init : SchedulerStart schedulerInit
  | replay {c c' : WalCtx} {report : WalReplayReport}
      {state : WalReplayState}
      (accepted : walReplayOpen c = .done (.ok, report, some state) c') :
      SchedulerStart state.scheduler

variable {s s' start : Scheduler} {event : JobEvent} {job k : Job}
  {b b' : Board}

theorem SchedulerStart.rep (h : SchedulerStart s) : s.Rep := by
  cases h with
  | init => exact rep_init
  | replay accepted =>
      obtain ⟨entries, tail, l, hholds, -, hstate, -⟩ :=
        walReplayOpen_ok accepted
      cases hstate
      obtain ⟨index, htracks⟩ := tracks_recovered hholds.run
      exact htracks.rep

-- ============================================== representation

/-- The timestamps a job has set, in the order of its life. -/
def Job.timeline (job : Job) : List Int64 :=
  job.createdAtMs
    :: [job.assignedAtMs, job.startedAtMs, job.finishedAtMs].filter
        (· ≠ jobTimeUnset) ++ [job.updatedAtMs]

/-- The representation invariant of one stored job. -/
structure JobInvariant (job : Job) : Prop where
  retries_le : job.retryCount ≤ job.maxRetries
  attempt : job.attempt.toNat
    = job.retryCount.toNat + if job.state = .queued then 0 else 1
  owner : job.workerId = 0 ↔ job.state = .queued
  result : job.state ≠ .done → job.result = []
  clean : job.state = .queued ∧ job.attempt = 0 ∨ job.state = .assigned
    ∨ job.state = .running ∨ job.state = .done → job.failure = .none
  blamed : job.state = .queued ∧ job.attempt ≠ 0 ∨ job.state = .failed →
    job.failure = .task ∨ job.failure = .workerLost
  spent : job.state = .failed → job.retryCount = job.maxRetries
  times : (0 :: job.timeline).Pairwise (· ≤ ·)

/-- The representation invariant of a scheduler. -/
structure SchedulerInvariant (s : Scheduler) : Prop where
  ids_nonzero : ∀ job ∈ s.jobs, job.id ≠ 0
  ids_increasing : (s.jobs.map Job.id).Pairwise (· < ·)
  next_id : (s.nextJobId ≠ 0 ∧ ∀ job ∈ s.jobs, job.id < s.nextJobId)
    ∨ (s.nextJobId = 0 ∧ ∃ job ∈ s.jobs, job.id = 0xffffffffffffffff)
  pending_once : s.pending.toList.Nodup
  pending_exact : ∀ id, id ∈ s.pending.toList
    ↔ ∃ job ∈ s.jobs, job.state = .queued ∧ job.id = id
  one_each : ∀ job ∈ s.jobs, ∀ k ∈ s.jobs, job.state.active = true →
    k.state.active = true → job.workerId = k.workerId → job = k
  jobs : ∀ job ∈ s.jobs, JobInvariant job

theorem failure_cases (h : job.failure ≠ .none) :
    job.failure = .task ∨ job.failure = .workerLost := by
  cases hf : job.failure with
  | none => exact absurd hf h
  | task => exact Or.inl rfl
  | workerLost => exact Or.inr rfl

/-- A valid snapshot's timestamps are in order. -/
theorem Job.Valid.timeline_sorted (h : job.Valid) :
    (0 :: job.timeline).Pairwise (· ≤ ·) := by
  have h0 := h.created_nonneg
  have hf := h.fields
  -- A time that is not before the creation is set.
  have hset {t : Int64} (ht : job.createdAtMs ≤ t) : t ≠ -1 := by
    rintro rfl
    exact absurd (Int64.le_trans h0 ht) (by decide)
  unfold Job.StateFields at hf
  unfold Job.timeline
  cases hs : job.state with
  | queued =>
      simp only [hs, jobTimeUnset] at hf ⊢
      obtain ⟨-, -, -, ha, hst, hfin, hle, -⟩ := hf
      simp [ha, hst, hfin]
      grind
  | assigned =>
      simp only [hs, jobTimeUnset] at hf ⊢
      obtain ⟨-, -, -, -, hst, hfin, hle, hup⟩ := hf
      have ha := hset hle
      simp [hst, hfin, ha]
      grind
  | running =>
      simp only [hs, jobTimeUnset] at hf ⊢
      obtain ⟨-, -, -, -, hfin, hle, hle', hup⟩ := hf
      have ha := hset hle
      have hst := hset (Int64.le_trans hle hle')
      simp [hst, hfin, ha]
      grind
  | done =>
      simp only [hs, jobTimeUnset] at hf ⊢
      obtain ⟨-, -, -, hle, hle', hle'', hup⟩ := hf
      have ha := hset hle
      have hst := hset (Int64.le_trans hle hle')
      have hfin := hset (Int64.le_trans (Int64.le_trans hle hle') hle'')
      simp [hst, hfin, ha]
      grind
  | failed =>
      simp only [hs, jobTimeUnset] at hf ⊢
      obtain ⟨-, -, -, -, -, hle, hle', hst, hup⟩ := hf
      have ha := hset hle
      have hfin := hset (Int64.le_trans hle hle')
      rcases hst with hst | ⟨hst, hst'⟩
      · simp [hst, hfin, ha]
        grind
      · have hs' := hset (Int64.le_trans hle hst)
        simp [hs', hfin, ha]
        grind

/-- A valid snapshot satisfies the invariant of a stored job. -/
theorem Job.Valid.invariant (h : job.Valid) : JobInvariant job := by
  have hf := h.fields
  have hattempt := h.attempt_toNat
  have htimes := h.timeline_sorted
  have hle := h.retries_le
  unfold Job.StateFields at hf
  cases hs : job.state with
  | queued =>
      simp only [hs] at hf
      obtain ⟨hw, ha, hr, -, -, -, -, hfresh, hagain⟩ := hf
      -- An attempt number of zero is a retry count of zero.
      have hzero : job.attempt = 0 ↔ job.retryCount = 0 := by
        rw [ha, ← UInt64.toNat_inj, ← UInt32.toNat_inj,
          UInt32.toNat_toUInt64]
        rfl
      refine ⟨hle, hattempt, ?_, fun _ => hr, ?_, ?_, ?_, htimes⟩
      · simp [hs, hw]
      · simp only [hs, true_and, reduceCtorEq, or_false]
        exact fun h0 => (hfresh (hzero.mp h0)).1
      · simp only [hs, true_and, reduceCtorEq, or_false]
        exact fun h0 => failure_cases (hagain (mt hzero.mpr h0))
      · simp [hs]
  | assigned | running =>
      simp only [hs] at hf
      obtain ⟨hw, -, hr, hfail, -⟩ := hf
      refine ⟨hle, hattempt, ?_, ?_, ?_, ?_, ?_, htimes⟩ <;>
        simp [hs, hw, hr, hfail]
  | done =>
      simp only [hs] at hf
      obtain ⟨hw, -, hfail, -⟩ := hf
      refine ⟨hle, hattempt, ?_, ?_, ?_, ?_, ?_, htimes⟩ <;>
        simp [hs, hw, hfail]
  | failed =>
      simp only [hs] at hf
      obtain ⟨hw, -, hr, hfail, hspent, -⟩ := hf
      refine ⟨hle, hattempt, ?_, ?_, ?_, ?_, ?_, htimes⟩ <;>
        simp [hs, hw, hr, hspent]
      exact failure_cases hfail

/-- Of two jobs with one id there is only one. -/
theorem Scheduler.Rep.job_unique (h : s.Rep) (hj : job ∈ s.jobs)
    (hk : k ∈ s.jobs) (hid : job.id = k.id) : job = k := by
  obtain ⟨pre, suf, hjobs⟩ := List.append_of_mem hj
  rw [hjobs] at hk
  rcases List.mem_append.mp hk with hk | hk
  · exact absurd hid.symm (Board.ids_ne h.inv hjobs (Or.inl hk))
  rcases List.mem_cons.mp hk with rfl | hk
  · rfl
  · exact absurd hid.symm (Board.ids_ne h.inv hjobs (Or.inr hk))

/-- Of two active jobs of one worker there is only one. -/
theorem Scheduler.Rep.owner_unique (h : s.Rep) (hj : job ∈ s.jobs)
    (hk : k ∈ s.jobs) (hja : job.state.active = true)
    (hka : k.state.active = true) (hw : job.workerId = k.workerId) :
    job = k := by
  have howners := h.inv.owners
  obtain ⟨pre, suf, hjobs⟩ := List.append_of_mem hj
  rw [show s.board.jobs = s.jobs from rfl, hjobs,
    Board.ownersIn_middle_active hja, List.nodup_middle] at howners
  have hout := (List.nodup_cons.mp howners).1
  rw [hjobs] at hk
  have hmem {jobs : List Job} (hin : k ∈ jobs) :
      job.workerId ∈ Board.ownersIn jobs :=
    Board.mem_ownersIn.mpr ⟨k, hin, hka, hw.symm⟩
  rcases List.mem_append.mp hk with hk | hk
  · exact absurd (List.mem_append_left _ (hmem hk)) hout
  rcases List.mem_cons.mp hk with rfl | hk
  · rfl
  · exact absurd (List.mem_append_right _ (hmem hk)) hout

theorem Scheduler.Rep.invariant (h : s.Rep) : SchedulerInvariant s where
  ids_nonzero := fun job hj => (h.inv.valid job hj).id_ne
  ids_increasing := h.inv.ids
  next_id := by
    by_cases hz : s.nextJobId = 0
    · refine Or.inr ⟨hz, ?_⟩
      have hnext := h.next
      rw [hz, nextJobIdAfter] at hnext
      have hmax : lastJobId s.jobs = 0xffffffffffffffff := by
        by_contra hne
        rw [if_neg (by simpa using hne)] at hnext
        grind
      rcases List.eq_nil_or_concat s.jobs with hnil | ⟨front, last, heq⟩
      · rw [hnil] at hmax
        exact absurd hmax (by decide)
      · rw [heq, List.concat_eq_append] at hmax ⊢
        exact ⟨last, by simp, by simpa [lastJobId] using hmax⟩
    · exact Or.inl ⟨hz, fun job hj => h.id_lt_next hz hj⟩
  pending_once := h.pending_nodup
  pending_exact := fun id => h.inv.pending.mem_iff.trans Board.mem_waitingIn
  one_each := fun job hj k hk => h.owner_unique hj hk
  jobs := fun job hj => (h.inv.valid job hj).invariant

/-- The representation invariant holds in every scheduler reached from an
empty one, or from one recovered out of any accepted file, by any calls
with any arguments. -/
theorem scheduler_representation (start : Scheduler)
    (hstart : SchedulerStart start) (ops : List SchedulerOp) :
    SchedulerInvariant (SchedulerOp.run start ops) :=
  (SchedulerOp.run_rep hstart.rep ops).invariant

theorem scheduler_representation_lostJob :
    ∃ start, SchedulerStart start ∧ start.jobs.length = 1
      ∧ SchedulerInvariant (SchedulerOp.run start
        [.assign 3 10, .workerLost 3 11]) := by
  obtain ⟨report, state, c', hrun, hlen⟩ := lostJob_accepted
  exact ⟨state.scheduler, .replay hrun, hlen,
    scheduler_representation _ (.replay hrun) _⟩

-- ================================================== over time

/-- Attempt `attempt` of a job is over: a later one was issued, or it is
the last one and the job is not active. -/
def Past (s : Scheduler) (id attempt : UInt64) : Prop :=
  ∃ job ∈ s.jobs, job.id = id ∧ (attempt < job.attempt
    ∨ attempt = job.attempt ∧ job.state.active = false)

/-- A step keeps a record or takes it through a job step. -/
theorem Board.Step.keeps (h : b.Step event job b') (hk : k ∈ b.jobs) :
    k ∈ b'.jobs ∨ JobStep event k job ∧ job ∈ b'.jobs := by
  have hmid {pre suf : List Job} {old : Job} {e : JobEvent}
      (hstep : JobStep e old job) (hk : k ∈ pre ++ old :: suf) :
      k ∈ pre ++ job :: suf
        ∨ JobStep e k job ∧ job ∈ pre ++ job :: suf := by
    rcases List.mem_append.mp hk with hk | hk
    · exact Or.inl (List.mem_append_left _ hk)
    rcases List.mem_cons.mp hk with rfl | hk
    · exact Or.inr ⟨hstep, by simp⟩
    · exact Or.inl (List.mem_append_right _ (List.mem_cons_of_mem _ hk))
  cases h with
  | created => exact Or.inl (List.mem_append_left _ hk)
  | assigned _ step => exact hmid step hk
  | started step => exact hmid step hk
  | completed step => exact hmid step hk
  | requeued step => exact hmid step hk
  | failed step => exact hmid step hk

/-- An inactive job's next step is an assignment, to a new attempt; any
other step keeps the attempt. -/
theorem JobStep.attempt_cases (h : JobStep event k job) :
    job.attempt = k.attempt ∧ k.state.active = true
      ∨ job.attempt = k.attempt + 1 ∧ k.state = .queued := by
  cases event with
  | created => cases h
  | assigned =>
      obtain ⟨hs, _, _, -, -, -, rfl⟩ := jobStep_assigned h
      exact Or.inr ⟨rfl, hs⟩
  | started =>
      obtain ⟨hs, _, -, -, rfl⟩ := jobStep_started h
      exact Or.inl ⟨rfl, by rw [hs]; rfl⟩
  | completed =>
      obtain ⟨hs, _, _, -, -, -, rfl⟩ := jobStep_completed h
      exact Or.inl ⟨rfl, by rw [hs]; rfl⟩
  | requeued =>
      obtain ⟨hact, -, _, _, -, -, -, rfl⟩ := jobStep_requeued h
      exact Or.inl ⟨rfl, hact⟩
  | failed =>
      obtain ⟨hact, -, _, _, -, -, -, rfl⟩ := jobStep_failed h
      exact Or.inl ⟨rfl, hact⟩

/-- The attempt of a queued job can be raised. -/
theorem Job.Valid.attempt_lt (h : k.Valid) (hq : k.state = .queued) :
    k.attempt < k.attempt + 1 := by
  have ha := h.attempt_toNat
  have hr := k.retryCount.toNat_lt
  rw [if_pos hq] at ha
  show k.attempt.toNat < (k.attempt + 1).toNat
  rw [UInt64.toNat_add, Nat.mod_eq_of_lt (by simp; omega)]
  simp

/-- What is past stays past: one call. -/
theorem Past.apply {id attempt : UInt64} (hrep : s.Rep)
    (h : Past s id attempt) (op : SchedulerOp) :
    Past (op.apply s).2 id attempt := by
  rcases op.cases hrep with ⟨result, -, heq⟩ | ⟨event, job, b', hstep, heq⟩
  · rw [heq]
    exact h
  · rw [heq]
    obtain ⟨k, hk, hid, hpast⟩ := h
    have hjobs : (s.commit event job).jobs = b'.jobs :=
      congrArg Board.jobs (commit_refines hrep hstep).1
    rcases hstep.keeps hk with hk' | ⟨hj, hin⟩
    · exact ⟨k, hjobs ▸ hk', hid, hpast⟩
    refine ⟨job, hjobs ▸ hin, hj.same.id_eq.trans hid, Or.inl ?_⟩
    rcases hj.attempt_cases with ⟨ha, hact⟩ | ⟨ha, hq⟩
    · rcases hpast with hlt | ⟨-, hno⟩
      · rwa [ha]
      · rw [hact] at hno
        cases hno
    · have hlt := (hrep.inv.valid k hk).attempt_lt hq
      rw [ha]
      rcases hpast with hlt' | ⟨rfl, -⟩
      · exact UInt64.lt_trans hlt' hlt
      · exact hlt

theorem Past.run {id attempt : UInt64} (hrep : s.Rep)
    (h : Past s id attempt) (ops : List SchedulerOp) :
    Past (SchedulerOp.run s ops) id attempt := by
  induction ops generalizing s with
  | nil => exact h
  | cons op ops ih =>
      exact ih (SchedulerOp.apply_rep hrep op) (h.apply hrep op)

/-- A finished record survives any call. -/
theorem finished_apply (hrep : s.Rep) (hk : k ∈ s.jobs)
    (hfin : k.state = .done ∨ k.state = .failed) (op : SchedulerOp) :
    k ∈ (op.apply s).2.jobs := by
  rcases op.cases hrep with ⟨result, -, heq⟩ | ⟨event, job, b', hstep, heq⟩
  · rw [heq]
    exact hk
  · rw [heq]
    have hjobs : (s.commit event job).jobs = b'.jobs :=
      congrArg Board.jobs (commit_refines hrep hstep).1
    rcases hstep.keeps hk with hk' | ⟨hj, -⟩
    · exact hjobs ▸ hk'
    · exact absurd hj (JobStep.not_terminal hfin)

theorem finished_run (hrep : s.Rep) (hk : k ∈ s.jobs)
    (hfin : k.state = .done ∨ k.state = .failed) (ops : List SchedulerOp) :
    k ∈ (SchedulerOp.run s ops).jobs := by
  induction ops generalizing s with
  | nil => exact hk
  | cons op ops ih =>
      exact ih (SchedulerOp.apply_rep hrep op) (finished_apply hrep hk hfin op)

-- ===================================================== reports

/-- An accepted report carries the current identity of an active job of
the sending worker. -/
theorem report_ok (hrep : s.Rep) {worker : UInt32} {report : Message}
    {now : Int64} (h : (schedulerReport s worker report now).1 = .ok) :
    ∃ old new, old ∈ s.jobs ∧ old.state.active = true
      ∧ old.workerId = worker
      ∧ report.reportIdentity
        = some { jobId := old.id, workerId := old.workerId,
                 attempt := old.attempt }
      ∧ applyReport old worker old.attempt report now = .ok new
      ∧ JobStep (outcomeEvent new.state) old new
      ∧ (schedulerReport s worker report now).2
        = s.commit (outcomeEvent new.state) new := by
  rcases schedulerReport_cases hrep.fits worker report now with
    ⟨result, hne, heq⟩ | ⟨identity, old, new, hident, hworker, hslot, happly,
      heq⟩
  · rw [heq] at h
    exact absurd h hne
  have hid := id_of_findSlot hslot
  have hchecks : old.state.active = true ∧ old.workerId = worker
      ∧ old.attempt = identity.attempt := by
    have happly' := happly
    unfold applyReport at happly'
    split at happly'
    · obtain ⟨hs, -, -, -, -, hw, ha, -⟩ := jobStart_ok_iff.mp happly'
      exact ⟨by rw [hs]; rfl, hw.symm, ha.symm⟩
    · obtain ⟨hs, -, -, -, -, hw, ha, -, -⟩ := jobComplete_ok_iff.mp happly'
      exact ⟨by rw [hs]; rfl, hw.symm, ha.symm⟩
    · split at happly'
      · cases happly'
      · obtain ⟨hs, -, -, -, -, hw, ha, -, -⟩ := jobFail_ok_iff.mp happly'
        exact ⟨hs, hw.symm, ha.symm⟩
    · cases happly'
  obtain ⟨hact, hw, ha⟩ := hchecks
  refine ⟨old, new, mem_of_findSlot hslot, hact, hw, ?_, ?_,
    applyReport_step happly, by rw [heq]⟩
  · rw [hident, hid, hw, ha, ← hworker]
  · rw [ha]
    exact happly

/-- What an accepted report publishes is on the board afterwards. -/
theorem mem_commit (hrep : s.Rep) {old : Job} (hold : old ∈ s.jobs)
    (hne : event ≠ .assigned) (hj : JobStep event old job) :
    job ∈ (s.commit event job).jobs := by
  obtain ⟨b', hstep⟩ := outcome_step hold hne hj
  have hjobs : (s.commit event job).jobs = b'.jobs :=
    congrArg Board.jobs (commit_refines hrep hstep).1
  exact hjobs ▸ hstep.mem_self

/-- The call ends an attempt: an accepted completion or failure of it, or
the loss of the worker that holds it. -/
def Ends (s : Scheduler) (op : SchedulerOp) (id attempt : UInt64) : Prop :=
  (op.apply s).1 = .ok ∧ match op with
    | .report _ (.jobCompleted payload) _ =>
        payload.identity.jobId = id ∧ payload.identity.attempt = attempt
    | .report _ (.jobFailed payload) _ =>
        payload.identity.jobId = id ∧ payload.identity.attempt = attempt
    | .workerLost worker _ =>
        ∃ job, schedulerActive s worker = some job ∧ job.id = id
          ∧ job.attempt = attempt
    | _ => False

/-- A job that a failed attempt leaves is inactive, in the same
attempt. -/
theorem jobFail_left {old new : Job} {worker : UInt32} {attempt : UInt64}
    {failure : JobFailure} {now : Int64}
    (h : jobFail old worker attempt failure now = .ok new) :
    new.id = old.id ∧ new.attempt = old.attempt
      ∧ new.state.active = false := by
  obtain ⟨-, -, -, -, -, -, -, -, rfl⟩ := jobFail_ok_iff.mp h
  unfold failedAttempt
  split
  · exact ⟨rfl, rfl, rfl⟩
  · exact ⟨rfl, rfl, rfl⟩

/-- An attempt that ended is past. -/
theorem Ends.past {id attempt : UInt64} {op : SchedulerOp} (hrep : s.Rep)
    (h : Ends s op id attempt) : Past (op.apply s).2 id attempt := by
  -- The new record is the old one's attempt, inactive.
  have hnew {old new : Job} (hold : old ∈ s.jobs)
      (hj : JobStep (outcomeEvent new.state) old new)
      (hid : new.id = id) (ha : new.attempt = attempt)
      (hact : new.state.active = false) :
      Past (s.commit (outcomeEvent new.state) new) id attempt :=
    ⟨new, mem_commit hrep hold (outcomeEvent_ne_assigned _) hj, hid,
      Or.inr ⟨ha.symm, hact⟩⟩
  obtain ⟨hok, hwhat⟩ := h
  match op, hwhat with
  | .report worker (.jobCompleted payload) now, ⟨hid, ha⟩ =>
      obtain ⟨old, new, hold, -, -, hident, happly, hj, heq⟩ :=
        report_ok hrep hok
      obtain ⟨-, -, -, -, -, -, -, -, hnewjob⟩ :=
        jobComplete_ok_iff.mp happly
      simp only [Message.reportIdentity, Option.some.injEq] at hident
      rw [hident] at hid ha
      show Past (schedulerReport s worker _ now).2 id attempt
      rw [heq]
      exact hnew hold hj (by rw [hnewjob]; exact hid)
        (by rw [hnewjob]; exact ha) (by rw [hnewjob]; rfl)
  | .report worker (.jobFailed payload) now, ⟨hid, ha⟩ =>
      obtain ⟨old, new, hold, -, -, hident, happly, hj, heq⟩ :=
        report_ok hrep hok
      unfold applyReport at happly
      simp only at happly
      split at happly
      · cases happly
      obtain ⟨hid', ha', hact⟩ := jobFail_left happly
      simp only [Message.reportIdentity, Option.some.injEq] at hident
      rw [hident] at hid ha
      show Past (schedulerReport s worker _ now).2 id attempt
      rw [heq]
      exact hnew hold hj (hid'.trans hid) (ha'.trans ha) hact
  | .workerLost worker now, ⟨job, hactive, hid, ha⟩ =>
      rcases schedulerWorkerLost_cases hrep.fits worker now with
        ⟨result, hne, heq⟩ | ⟨old, new, hactive', hfail, heq⟩
      · have hres : (schedulerWorkerLost s worker now).1 = .ok := hok
        rw [heq] at hres
        exact absurd hres hne
      · rw [hactive] at hactive'
        cases hactive'
        obtain ⟨hid', ha', hact⟩ := jobFail_left hfail
        show Past (schedulerWorkerLost s worker now).2 id attempt
        rw [heq]
        exact hnew (schedulerActive_some hactive).2.1 (jobFail_step hfail)
          (hid'.trans hid) (ha'.trans ha) hact

/-- A report of a past attempt is rejected. -/
theorem Past.rejected {id attempt : UInt64} (hrep : s.Rep)
    (h : Past s id attempt) {worker : UInt32} {report : Message}
    {now : Int64} {identity : JobIdentity}
    (hident : report.reportIdentity = some identity)
    (hid : identity.jobId = id) (ha : identity.attempt = attempt) :
    (schedulerReport s worker report now).1 ≠ .ok := by
  intro hok
  obtain ⟨old, new, hold, hact, -, hident', -⟩ := report_ok hrep hok
  rw [hident, Option.some.injEq] at hident'
  obtain ⟨k, hk, hkid, hpast⟩ := h
  have heq : old = k := by
    refine hrep.job_unique hold hk ?_
    rw [hkid, ← hid, hident']
  rw [hident'] at ha
  simp only [heq] at ha hact
  rcases hpast with hlt | ⟨-, hno⟩
  · rw [ha] at hlt
    exact UInt64.lt_irrefl _ hlt
  · rw [hact] at hno
    cases hno

-- ================================================= completions

theorem SchedulerOp.run_append (s : Scheduler) (xs ys : List SchedulerOp) :
    run s (xs ++ ys) = run (run s xs) ys :=
  List.foldl_append

/-- Call number `n` is an accepted JOB_COMPLETED with this payload. -/
def CompletedAt (start : Scheduler) (ops : List SchedulerOp) (n : Nat)
    (payload : JobCompletedPayload) : Prop :=
  ∃ worker now, ops[n]? = some (.report worker (.jobCompleted payload) now)
    ∧ (schedulerReport (SchedulerOp.run start (ops.take n)) worker
        (.jobCompleted payload) now).1 = .ok

/-- What an accepted JOB_COMPLETED leaves. -/
theorem completed_left (hrep : s.Rep) {worker : UInt32} {now : Int64}
    {payload : JobCompletedPayload}
    (h : (schedulerReport s worker (.jobCompleted payload) now).1 = .ok) :
    ∃ old new, old ∈ s.jobs ∧ old.state.active = true
      ∧ new ∈ (schedulerReport s worker (.jobCompleted payload) now).2.jobs
      ∧ new.state = .done
      ∧ payload = { identity := { jobId := new.id, workerId := new.workerId,
                                  attempt := new.attempt },
                    result := new.result }
      ∧ new.id = old.id := by
  obtain ⟨old, new, hold, hact, -, hident, happly, hj, heq⟩ :=
    report_ok hrep h
  obtain ⟨-, -, -, -, -, -, -, -, hnew⟩ := jobComplete_ok_iff.mp happly
  refine ⟨old, new, hold, hact, ?_, by rw [hnew], ?_, by rw [hnew]⟩
  · rw [heq]
    exact mem_commit hrep hold (outcomeEvent_ne_assigned _) hj
  · obtain ⟨identity, result⟩ := payload
    simp only [Message.reportIdentity, Option.some.injEq] at hident
    rw [hnew, hident]

/-- Only an accepted JOB_COMPLETED makes a job done. -/
theorem done_from_report (hrep : s.Rep) (op : SchedulerOp)
    (hj : job ∈ (op.apply s).2.jobs) (hdone : job.state = .done) :
    job ∈ s.jobs ∨ ∃ worker payload now,
      op = .report worker (.jobCompleted payload) now
        ∧ (schedulerReport s worker (.jobCompleted payload) now).1 = .ok
        ∧ payload = { identity := { jobId := job.id,
                                    workerId := job.workerId,
                                    attempt := job.attempt },
                      result := job.result } := by
  by_cases hin : job ∈ s.jobs
  · exact Or.inl hin
  right
  -- The call published this very record.
  have hpub {e : JobEvent} {new : Job} {b' : Board}
      (hstep : s.board.Step e new b') (hmem : job ∈ (s.commit e new).jobs) :
      job = new := by
    have hjobs : (s.commit e new).jobs = b'.jobs :=
      congrArg Board.jobs (commit_refines hrep hstep).1
    exact (hstep.mem (hjobs ▸ hmem)).resolve_right hin
  cases op with
  | submit payload now =>
      have hj' : job ∈ (schedulerSubmit s payload now).2.1.jobs := hj
      rcases schedulerSubmit_cases hrep.fits payload now with
        ⟨result, -, heq⟩ | ⟨new, hinit, hroom, heq⟩
      · rw [heq] at hj'
        exact absurd hj' hin
      · rw [heq] at hj'
        obtain ⟨b', hstep⟩ := submit_step hrep hinit hroom
        rw [hpub hstep hj', (jobInit_leaves hinit).1] at hdone
        cases hdone
  | assign worker now =>
      have hj' : job ∈ (schedulerAssign s worker now).2.1.jobs := hj
      rcases schedulerAssign_cases s worker now with
        ⟨result, -, heq⟩ | ⟨old, new, hw, hidle, hfront, hslot, hassign, heq⟩
      · rw [heq] at hj'
        exact absurd hj' hin
      · rw [heq] at hj'
        obtain ⟨hjs, b', hstep⟩ := assign_step hw hidle hfront hslot hassign
        rw [hpub hstep hj', show new.state = .assigned from hjs.leaves]
          at hdone
        cases hdone
  | workerLost worker now =>
      have hj' : job ∈ (schedulerWorkerLost s worker now).2.jobs := hj
      rcases schedulerWorkerLost_cases hrep.fits worker now with
        ⟨result, -, heq⟩ | ⟨old, new, hactive, hfail, heq⟩
      · rw [heq] at hj'
        exact absurd hj' hin
      · rw [heq] at hj'
        obtain ⟨b', hstep⟩ := outcome_step (schedulerActive_some hactive).2.1
          (outcomeEvent_ne_assigned _) (jobFail_step hfail)
        rw [hpub hstep hj'] at hdone
        obtain ⟨-, -, -, -, -, -, -, -, rfl⟩ := jobFail_ok_iff.mp hfail
        unfold failedAttempt at hdone
        split at hdone <;> cases hdone
  | report worker message now =>
      have hj' : job ∈ (schedulerReport s worker message now).2.jobs := hj
      have hok : (schedulerReport s worker message now).1 = .ok := by
        by_contra hne
        rcases schedulerReport_cases hrep.fits worker message now with
          ⟨result, -, heq⟩ | ⟨_, _, _, -, -, -, -, heq⟩
        · rw [heq] at hj'
          exact hin hj'
        · rw [heq] at hne
          exact hne rfl
      obtain ⟨old, new, hold, -, -, hident, happly, hjs, heq⟩ :=
        report_ok hrep hok
      rw [heq] at hj'
      obtain ⟨b', hstep⟩ := outcome_step hold (outcomeEvent_ne_assigned _) hjs
      have hnew := hpub hstep hj'
      subst hnew
      unfold applyReport at happly
      split at happly
      · obtain ⟨-, -, -, -, -, -, -, rfl⟩ := jobStart_ok_iff.mp happly
        cases hdone
      · rename_i payload
        obtain ⟨-, -, -, -, -, -, -, -, hjob⟩ := jobComplete_ok_iff.mp happly
        refine ⟨worker, payload, now, rfl, hok, ?_⟩
        obtain ⟨identity, result⟩ := payload
        simp only [Message.reportIdentity, Option.some.injEq] at hident
        rw [hjob, hident]
      · split at happly
        · cases happly
        obtain ⟨-, -, -, -, -, -, -, -, rfl⟩ := jobFail_ok_iff.mp happly
        unfold failedAttempt at hdone
        split at hdone <;> cases hdone
      · cases happly

/-- A job that became done during the run has an accepted JOB_COMPLETED
with its identity and its result. -/
theorem done_completedAt (hrep : start.Rep) (ops : List SchedulerOp)
    (hj : job ∈ (SchedulerOp.run start ops).jobs) (hdone : job.state = .done) :
    job ∈ start.jobs ∨ ∃ n, CompletedAt start ops n
      { identity := { jobId := job.id, workerId := job.workerId,
                      attempt := job.attempt },
        result := job.result } := by
  induction ops using List.reverseRecOn with
  | nil => exact Or.inl hj
  | append_singleton ops op ih =>
      rw [SchedulerOp.run_append] at hj
      have hrun := SchedulerOp.run_rep hrep ops
      rcases done_from_report hrun op hj hdone with
        hold | ⟨worker, payload, now, rfl, hok, rfl⟩
      · refine (ih hold).imp id ?_
        rintro ⟨n, worker, now, hget, hok⟩
        have hlt : n < ops.length :=
          (List.getElem?_eq_some_iff.mp hget).1
        refine ⟨n, worker, now, ?_, ?_⟩
        · rw [List.getElem?_append_left hlt, hget]
        · rwa [List.take_append_of_le_length (Nat.le_of_lt hlt)]
      · refine Or.inr ⟨ops.length, worker, now, ?_, ?_⟩
        · rw [List.getElem?_concat_length]
        · rwa [List.take_left' rfl]

/-- No job is completed twice. -/
theorem completedAt_unique (hrep : start.Rep) {ops : List SchedulerOp}
    {n m : Nat} {p q : JobCompletedPayload}
    (hn : CompletedAt start ops n p) (hm : CompletedAt start ops m q)
    (hid : p.identity.jobId = q.identity.jobId) : n = m := by
  -- The later of two completions would find the job done.
  have hlt {n m : Nat} {p q : JobCompletedPayload}
      (hn : CompletedAt start ops n p) (hm : CompletedAt start ops m q)
      (hid : p.identity.jobId = q.identity.jobId) : ¬ n < m := by
    intro hnm
    obtain ⟨worker, now, hget, hok⟩ := hn
    obtain ⟨worker', now', -, hok'⟩ := hm
    have hrun := SchedulerOp.run_rep hrep (ops.take n)
    obtain ⟨-, new, -, -, hnew, hdone, hp, -⟩ := completed_left hrun hok
    have hsplit : ops.take m = ops.take n
        ++ .report worker (.jobCompleted p) now
          :: ((ops.take m).drop (n + 1)) := by
      have htake : (ops.take m).take (n + 1)
          = ops.take n ++ [.report worker (.jobCompleted p) now] := by
        rw [List.take_take, Nat.min_eq_left hnm, List.take_add_one, hget]
        rfl
      calc ops.take m
          = (ops.take m).take (n + 1) ++ (ops.take m).drop (n + 1) :=
            (List.take_append_drop _ _).symm
        _ = _ := by
            rw [htake, List.append_assoc]
            rfl
    rw [hsplit, SchedulerOp.run_append] at hok'
    have hafter := SchedulerOp.apply_rep hrun
      (.report worker (.jobCompleted p) now)
    have hstays := finished_run hafter hnew (Or.inl hdone)
      ((ops.take m).drop (n + 1))
    have hrep' := SchedulerOp.run_rep hafter ((ops.take m).drop (n + 1))
    obtain ⟨old, _, hold, hact, -, -, hq, hsame⟩ := completed_left hrep' hok'
    have heq : old = new := by
      refine hrep'.job_unique hold hstays ?_
      rw [hp, hq] at hid
      rw [← hsame]
      exact hid.symm
    rw [heq, hdone] at hact
    cases hact
  have h₁ := hlt hn hm hid
  have h₂ := hlt hm hn hid.symm
  omega

/-- Stale reports never take effect. In every reachable scheduler an
accepted report carries the current identity of an active job of its
sender, and any other report changes nothing. Once a call ended an
attempt, no later state accepts a report of it; a finished record never
changes; and a job that became done was completed by exactly one accepted
JOB_COMPLETED, with its last identity and its result. -/
theorem stale_reports_rejected (start : Scheduler)
    (hstart : SchedulerStart start) (ops : List SchedulerOp) :
    (∀ worker report now,
      (schedulerReport (SchedulerOp.run start ops) worker report now).1
          = .ok →
        ∃ job ∈ (SchedulerOp.run start ops).jobs,
          job.state.active = true ∧ job.workerId = worker
            ∧ report.reportIdentity
              = some { jobId := job.id, workerId := job.workerId,
                       attempt := job.attempt })
    ∧ (∀ worker report now,
      (schedulerReport (SchedulerOp.run start ops) worker report now).1
          ≠ .ok →
        (schedulerReport (SchedulerOp.run start ops) worker report now).2
          = SchedulerOp.run start ops)
    ∧ (∀ op id attempt, Ends (SchedulerOp.run start ops) op id attempt →
        ∀ later worker report now identity,
          report.reportIdentity = some identity → identity.jobId = id →
          identity.attempt = attempt →
          (schedulerReport
            (SchedulerOp.run start (ops ++ op :: later)) worker report
              now).1 ≠ .ok)
    ∧ (∀ job ∈ (SchedulerOp.run start ops).jobs,
        job.state = .done ∨ job.state = .failed →
        ∀ later, job ∈ (SchedulerOp.run start (ops ++ later)).jobs)
    ∧ (∀ job ∈ (SchedulerOp.run start ops).jobs, job.state = .done →
        job ∉ start.jobs →
        ∃ n, CompletedAt start ops n
            { identity := { jobId := job.id, workerId := job.workerId,
                            attempt := job.attempt },
              result := job.result }
          ∧ ∀ m payload, CompletedAt start ops m payload →
              payload.identity.jobId = job.id → m = n) := by
  have hrep := SchedulerOp.run_rep hstart.rep ops
  refine ⟨?_, ?_, ?_, ?_, ?_⟩
  · intro worker report now hok
    obtain ⟨old, -, hold, hact, hw, hident, -⟩ := report_ok hrep hok
    exact ⟨old, hold, hact, hw, hident⟩
  · intro worker report now hne
    rcases schedulerReport_cases hrep.fits worker report now with
      ⟨result, -, heq⟩ | ⟨_, _, _, -, -, -, -, heq⟩
    · rw [heq]
    · rw [heq] at hne
      exact absurd rfl hne
  · intro op id attempt hends later worker report now identity hident hid ha
    rw [SchedulerOp.run_append]
    have hafter := SchedulerOp.apply_rep hrep op
    exact ((hends.past hrep).run hafter later).rejected
      (SchedulerOp.run_rep hafter later) hident hid ha
  · intro job hj hfin later
    rw [SchedulerOp.run_append]
    exact finished_run hrep hj hfin later
  · intro job hj hdone hnew
    obtain ⟨n, hn⟩ := (done_completedAt hstart.rep ops hj hdone).resolve_left
      hnew
    exact ⟨n, hn, fun m payload hm hid =>
      completedAt_unique hstart.rep hm hn hid⟩

/-- One job, from its submission to its completion by worker 3. -/
def oneJob : List SchedulerOp :=
  [.submit { taskType := 4, maxRetries := 1, arguments := [] } 5,
    .assign 3 6,
    .report 3 (.jobStarted { jobId := 1, workerId := 3, attempt := 1 }) 7,
    .report 3 (.jobCompleted { identity := { jobId := 1, workerId := 3,
                                             attempt := 1 },
                               result := [9] }) 8]

theorem stale_reports_rejected_oneJob :
    (SchedulerOp.run schedulerInit oneJob).jobs.map Job.state = [.done]
      ∧ ∀ job ∈ (SchedulerOp.run schedulerInit oneJob).jobs,
        job.state = .done ∨ job.state = .failed →
        ∀ later,
          job ∈ (SchedulerOp.run schedulerInit (oneJob ++ later)).jobs :=
  ⟨by decide +kernel,
    (stale_reports_rejected schedulerInit .init oneJob).2.2.2.1⟩

end Faultline
