/-
Every reply passes the encoder's checks.

The encoder validates what it sends: a status against the rules of the job
model, listings for strict order and their rows, statistics for bounds and
equations. These rules are restated here of what the coordinator builds from a
store that works. Valid jobs give valid statuses (`validateJobStatus_reply`),
distinct ids give strictly sorted rows (`workersAt_sorted`), and what the
statistics count adds up (`statsAt_balanced`).
-/
import Mathlib.Data.List.Nodup
import Faultline.Proofs.ViewsAgree
import Faultline.Proofs.SchedulingPass
import Faultline.Proofs.StatsValidation

namespace Faultline

open Lib Coordinator

variable {jobs : Scheduler} {job : Job} {worker : Worker}
  {nowMs timeoutMs : Int64} {store : CoordinatorStore}
  {session : StatsSession}

-- ==================================================== job rows

theorem JobFailure.code_set {failure : JobFailure} (h : failure ≠ .none) :
    (failure.code == JobFailure.task.code
      || failure.code == JobFailure.workerLost.code) = true := by
  cases failure with
  | none => exact absurd rfl h
  | task => rfl
  | workerLost => rfl

theorem toUInt64_ne_zero {n : UInt32} (h : n ≠ 0) : n.toUInt64 ≠ 0 := by
  intro hzero
  refine h (UInt32.toNat_inj.mp ?_)
  rw [← UInt32.toNat_toUInt64, hzero]
  rfl

/-- A valid job passes the check of a status, whatever its result's bytes. -/
theorem validateJobStatus_reply {result : List UInt8} (h : job.Valid)
    (hresult : result.length = job.result.length) :
    validateJobStatus { jobStatusReply job with result } = .ok () := by
  have hfields := h.fields
  have hretries := UInt32.not_lt.mpr h.retries_le
  have hattempt := h.countable.2
  unfold Job.StateFields at hfields
  unfold Job.attemptsUsed at hattempt
  unfold validateJobStatus statusFailureValid jobStatusReply
  cases hstate : job.state with
  | queued =>
      simp only [hstate] at hfields hattempt
      obtain ⟨hworker, hcount, hnone, -, -, -, -, hfresh, hagain⟩ := hfields
      by_cases hzero : job.retryCount = 0
      · simp [h.id_ne, hworker, hnone, hcount, hresult, hzero,
          (hfresh hzero).1, JobState.code, JobFailure.code]
      · have hset := JobFailure.code_set (hagain hzero)
        simp [h.id_ne, hretries, hworker, hnone, hcount, hresult, hset,
          toUInt64_ne_zero hzero, JobState.code]
  | assigned =>
      simp only [hstate] at hfields hattempt
      obtain ⟨hworker, hcount, hnone, hfailure, -⟩ := hfields
      simp [h.id_ne, hretries, hworker, hnone, hcount, hresult, hfailure,
        JobState.code]
  | running =>
      simp only [hstate] at hfields hattempt
      obtain ⟨hworker, hcount, hnone, hfailure, -⟩ := hfields
      simp [h.id_ne, hretries, hworker, hnone, hcount, hresult, hfailure,
        JobState.code]
  | done =>
      simp only [hstate] at hfields hattempt
      obtain ⟨hworker, hcount, hfailure, -⟩ := hfields
      simp [h.id_ne, hretries, hworker, hcount, hfailure, JobState.code]
  | failed =>
      simp only [hstate] at hfields hattempt
      obtain ⟨hworker, hcount, hnone, hfailure, hexhausted, -⟩ := hfields
      have hset := JobFailure.code_set hfailure
      simp [h.id_ne, hworker, hnone, hcount, hresult, hset, hexhausted,
        JobState.code]

theorem TaskType.validTask_code (task : TaskType) :
    validTask task.code = true := by
  cases task <;> rfl

/-- A row passes behind any smaller id. -/
theorem validateJobEntry_summary {previous : Option UInt64} (h : job.Valid)
    (hbehind : ∀ id ∈ previous, id < job.id) :
    validateJobEntry previous (jobSummary job) = .ok () := by
  have hsize : (jobSummary job).resultSize.toNat = job.result.length :=
    (jobSummary_agrees h).resultSize.symm
  have hstatus : validateJobStatus (jobSummary job).status = .ok () :=
    validateJobStatus_reply h (by rw [List.length_replicate, hsize])
  have horder : previous.any ((jobSummary job).jobId ≤ ·) = false := by
    cases previous with
    | none => rfl
    | some id => exact decide_eq_false (UInt64.not_le.mpr (hbehind id rfl))
  have htask : validTask (jobSummary job).taskType = true :=
    job.taskType.validTask_code
  unfold validateJobEntry
  rw [hstatus]
  simp [htask, hsize, Nat.not_lt.mpr h.result_le, horder]

theorem validateJobEntries_summaries {previous : Option UInt64}
    {list : List Job} (hvalid : ∀ job ∈ list, job.Valid)
    (hids : (list.map Job.id).Pairwise (· < ·))
    (hbehind : ∀ id ∈ previous, ∀ job ∈ list, id < job.id) :
    validateJobEntries previous (list.map jobSummary) = .ok () := by
  induction list generalizing previous with
  | nil => rfl
  | cons job list ih =>
      rw [List.map_cons, List.pairwise_cons] at hids
      rw [List.map_cons, validateJobEntries,
        validateJobEntry_summary (hvalid job (List.mem_cons_self ..))
          fun id hid => hbehind id hid job (List.mem_cons_self ..)]
      refine ih (fun k hk => hvalid k (List.mem_cons_of_mem _ hk)) hids.2 ?_
      intro id hid k hk
      cases hid
      exact hids.1 k.id (List.mem_map_of_mem hk)

/-- The table is sorted as the listing has to be. -/
theorem jobsListing_eq (hrep : jobs.Rep) :
    jobsListing jobs = jobs.jobs.map jobSummary := by
  unfold jobsListing
  refine List.mergeSort_of_pairwise ?_
  rw [List.pairwise_map]
  refine (List.pairwise_map.mp hrep.inv.ids).imp fun hlt => ?_
  exact decide_eq_true (UInt64.le_of_lt hlt)

-- ================================================== worker rows

/-- What the check of a row asks of the row itself. -/
structure WorkerSummary.Listable (row : WorkerSummary) : Prop where
  named : row.workerId ≠ 0
  state : row.state = workerViewAlive ∨ row.state = workerViewDead
  attempt : row.jobId = 0 ↔ row.attempt = 0
  dead : row.state = workerViewDead → row.jobId = 0

theorem validateWorkerEntry_ok {previous : Option UInt32}
    {row : WorkerSummary} (h : row.Listable)
    (hbehind : ∀ id ∈ previous, id < row.workerId) :
    validateWorkerEntry previous row = .ok () := by
  obtain ⟨hnamed, hstate, hattempt, hdead⟩ := h
  have horder : previous.any (row.workerId ≤ ·) = false := by
    cases previous with
    | none => rfl
    | some id => exact decide_eq_false (UInt32.not_le.mpr (hbehind id rfl))
  have hpaired : (row.jobId == 0) = (row.attempt == 0) := by
    rw [Bool.eq_iff_iff, beq_iff_eq, beq_iff_eq]
    exact hattempt
  unfold validateWorkerEntry
  rw [if_neg (by simpa using hnamed), if_neg, if_neg (by simp [hpaired]),
    if_neg, if_neg (by simp [horder])]
  · intro hboth
    simp only [Bool.and_eq_true, beq_iff_eq, bne_iff_ne] at hboth
    exact hboth.2 (hdead hboth.1)
  · intro hneither
    simp only [Bool.and_eq_true, bne_iff_ne] at hneither
    rcases hstate with h | h
    · exact hneither.1 h
    · exact hneither.2 h

theorem validateWorkerEntries_ok {previous : Option UInt32}
    {rows : List WorkerSummary} (h : ∀ row ∈ rows, row.Listable)
    (hids : rows.Pairwise fun a b => a.workerId < b.workerId)
    (hbehind : ∀ id ∈ previous, ∀ row ∈ rows, id < row.workerId) :
    validateWorkerEntries previous rows = .ok () := by
  induction rows generalizing previous with
  | nil => rfl
  | cons row rows ih =>
      rw [List.pairwise_cons] at hids
      rw [validateWorkerEntries,
        validateWorkerEntry_ok (h row (List.mem_cons_self ..))
          fun id hid => hbehind id hid row (List.mem_cons_self ..)]
      refine ih (fun other hother => h other (List.mem_cons_of_mem _ hother))
        hids.2 ?_
      intro id hid other hother
      cases hid
      exact hids.1 other hother

theorem workerSummary_listable (hrep : jobs.Rep) (hnamed : worker.id ≠ 0) :
    (workerSummary jobs nowMs worker).Listable := by
  unfold workerSummary
  cases halive : worker.state == .alive with
  | false => exact ⟨hnamed, .inr rfl, by simp, fun _ => rfl⟩
  | true =>
      refine ⟨hnamed, .inl rfl, ?_, nofun⟩
      cases hactive : schedulerActive jobs worker.id with
      | none => simp
      | some job =>
          obtain ⟨-, hmem, -, hact⟩ := schedulerActive_some hactive
          have hvalid := hrep.inv.valid job hmem
          refine iff_of_false ?_ ?_
          · exact hvalid.id_ne
          · exact hvalid.attempt_ne (Board.not_queued_of_active hact)

/-- The workers that are kept have ids of their own. -/
theorem WorkerRegistry.Sound.nodup_ids {registry : WorkerRegistry}
    (h : registry.Sound) :
    ((registry.slots.filter Worker.kept).map Worker.id).Nodup := by
  unfold WorkerRegistry.slots
  rw [List.filter_map, List.map_map]
  refine List.Nodup.map_on (fun i hi j hj hsame => ?_)
    ((List.nodup_finRange _).filter _)
  simp only [List.mem_filter, Function.comp_apply, Worker.kept,
    bne_iff_ne] at hi hj
  exact h.ids i j hi.2 hj.2 hsame

/-- Distinct rows, sorted. -/
theorem workersAt_sorted (h : store.workers.Sound) :
    (workersAt store nowMs timeoutMs).entries.Pairwise
      fun a b => a.workerId < b.workerId := by
  have hrows := h.nodup_ids
  rw [List.Nodup, List.pairwise_map] at hrows
  have hdistinct : ((store.workers.slots.filter Worker.kept).map
      (workerSummary store.jobs nowMs)).Pairwise
        fun a b => a.workerId ≠ b.workerId := List.pairwise_map.mpr hrows
  rw [← (List.mergeSort_perm _ _).pairwise_iff Ne.symm] at hdistinct
  have hsorted := @List.pairwise_mergeSort WorkerSummary
    (fun a b => decide (a.workerId ≤ b.workerId))
    (fun a b c hab hbc => decide_eq_true (UInt32.le_trans
      (of_decide_eq_true hab) (of_decide_eq_true hbc)))
    (fun a b => by simpa using UInt32.le_total a.workerId b.workerId)
    ((store.workers.slots.filter Worker.kept).map
      (workerSummary store.jobs nowMs))
  refine hsorted.imp₂ (fun a b hle hne => ?_) hdistinct
  exact UInt32.lt_of_le_of_ne (of_decide_eq_true hle) hne

-- =================================================== statistics

section Statistics

variable {list : List Job} {workers : List Worker}

/-- Every job is in one state. -/
theorem countIn_total : countIn .queued list + countIn .assigned list
    + countIn .running list + countIn .done list + countIn .failed list
      = list.length := by
  induction list with
  | nil => rfl
  | cons job list ih =>
      simp only [countIn, List.countP_cons, List.length_cons] at ih ⊢
      cases job.state <;> simp <;> omega

/-- A job that is not queued is in an attempt that no retry counts yet. -/
theorem sum_attempts (h : ∀ job ∈ list, job.Valid) :
    (list.map (·.attempt.toNat)).sum + countIn .queued list
      = (list.map (·.retryCount.toNat)).sum + list.length := by
  induction list with
  | nil => rfl
  | cons job list ih =>
      have hrest := ih fun k hk => h k (List.mem_cons_of_mem _ hk)
      have hjob := (h job (List.mem_cons_self ..)).attempt_toNat
      simp only [countIn, List.countP_cons, List.map_cons, List.sum_cons,
        List.length_cons, beq_iff_eq] at hrest ⊢
      split at hjob
      · rename_i hqueued
        rw [if_pos hqueued]
        omega
      · rename_i hother
        rw [if_neg hother]
        omega

theorem countIn_active : countIn .assigned list + countIn .running list
    = (Board.ownersIn list).length := by
  unfold Board.ownersIn
  rw [List.length_map, ← List.countP_eq_length_filter]
  induction list with
  | nil => rfl
  | cons job list ih =>
      simp only [countIn, List.countP_cons] at ih ⊢
      cases job.state <;> simp [JobState.active] at ih ⊢ <;> omega

/-- Workers that are counted twice over are counted once in all. -/
theorem countP_split {one other all : Worker → Bool}
    (h : ∀ worker, (one worker).toNat + (other worker).toNat
      = (all worker).toNat) :
    workers.countP one + workers.countP other = workers.countP all := by
  induction workers with
  | nil => rfl
  | cons worker workers ih =>
      have hworker := h worker
      simp only [List.countP_cons]
      cases hone : one worker <;> cases hother : other worker <;>
        cases hall : all worker <;>
        simp [hone, hother, hall] at hworker ⊢ <;> omega

/-- No more workers are busy than jobs are active: each has a job of its
own. -/
theorem countP_busy_le (hsound : store.workers.Sound) :
    store.workers.slots.countP (Worker.busy · store.jobs nowMs timeoutMs)
      ≤ (Board.ownersIn store.jobs.jobs).length := by
  have hkept : (store.workers.slots.filter
      (Worker.busy · store.jobs nowMs timeoutMs)).Sublist
        (store.workers.slots.filter Worker.kept) := by
    refine List.monotone_filter_right _ fun worker hbusy => ?_
    simp only [Worker.busy, Worker.living, Bool.and_eq_true,
      beq_iff_eq] at hbusy
    simp [Worker.kept, hbusy.1.1]
  have hids := hsound.nodup_ids.sublist (hkept.map Worker.id)
  suffices hsubset : ((store.workers.slots.filter
      (Worker.busy · store.jobs nowMs timeoutMs)).map Worker.id)
        ⊆ Board.ownersIn store.jobs.jobs by
    have hlength := hids.length_le_of_subset hsubset
    rwa [List.length_map, ← List.countP_eq_length_filter] at hlength
  intro id hid
  obtain ⟨worker, hmem, rfl⟩ := List.mem_map.mp hid
  have hbusy := (List.mem_filter.mp hmem).2
  simp only [Worker.busy, Bool.and_eq_true] at hbusy
  obtain ⟨job, hactive⟩ := Option.isSome_iff_exists.mp hbusy.2
  obtain ⟨-, hjob, hworker, hact⟩ := schedulerActive_some hactive
  exact Board.mem_ownersIn.mpr ⟨job, hjob, hact, hworker⟩

/-- A worker that is kept is living, expired or dead. -/
theorem countP_kept : workers.countP (Worker.living · nowMs timeoutMs)
    + workers.countP (Worker.expired · nowMs timeoutMs)
    + workers.countP (·.state == .dead) = workers.countP Worker.kept := by
  have halive : workers.countP (Worker.living · nowMs timeoutMs)
      + workers.countP (Worker.expired · nowMs timeoutMs)
        = workers.countP (·.state == .alive) :=
    countP_split fun worker => by
      unfold Worker.living Worker.expired
      cases worker.state == .alive <;>
        cases workerTimedOut worker nowMs timeoutMs <;> rfl
  rw [halive]
  refine countP_split fun worker => ?_
  unfold Worker.kept
  cases worker.state <;> rfl

/-- A living worker is busy or idle. -/
theorem countP_living : workers.countP (Worker.busy · jobs nowMs timeoutMs)
    + workers.countP (Worker.idle · jobs nowMs timeoutMs)
      = workers.countP (Worker.living · nowMs timeoutMs) := by
  refine countP_split fun worker => ?_
  unfold Worker.busy Worker.idle
  cases worker.living nowMs timeoutMs <;>
    cases schedulerActive jobs worker.id <;> rfl

/-- The statistics of a store count its jobs. -/
theorem toNat_statsAt_jobs (hrep : store.jobs.Rep) :
    (statsAt session store nowMs timeoutMs).jobsSubmittedTotal.toNat
        = store.jobs.jobs.length
      ∧ (statsAt session store nowMs timeoutMs).jobsQueued.toNat
        = countIn .queued store.jobs.jobs
      ∧ (statsAt session store nowMs timeoutMs).jobsAssigned.toNat
        = countIn .assigned store.jobs.jobs
      ∧ (statsAt session store nowMs timeoutMs).jobsRunning.toNat
        = countIn .running store.jobs.jobs
      ∧ (statsAt session store nowMs timeoutMs).jobsCompletedTotal.toNat
        = countIn .done store.jobs.jobs
      ∧ (statsAt session store nowMs timeoutMs).jobsFailedTotal.toNat
        = countIn .failed store.jobs.jobs
      ∧ (statsAt session store nowMs timeoutMs).jobAttemptsTotal.toNat
        = (store.jobs.jobs.map (·.attempt.toNat)).sum
      ∧ (statsAt session store nowMs timeoutMs).jobRetriesTotal.toNat
        = (store.jobs.jobs.map (·.retryCount.toNat)).sum :=
  toNat_collected hrep

theorem statsAt_bounded (h : store.Viewed session nowMs) :
    (statsAt session store nowMs timeoutMs).Bounded := by
  obtain ⟨hsubmitted, hqueued, hassigned, hrunning, hcompleted, hfailed, -,
    hretries⟩ := @toNat_statsAt_jobs nowMs timeoutMs store session h.rep
  obtain ⟨hretained, halive, hexpired, hdead, hbusy, hidle⟩ :=
    @toNat_statsAt nowMs timeoutMs store session
  have hlength : store.jobs.jobs.length ≤ 256 := h.rep.inv.jobs_le
  have hslots : store.workers.slots.length = 64 := by
    rw [WorkerRegistry.slots, List.length_map, List.length_finRange]
  have hkept := @countP_kept nowMs timeoutMs store.workers.slots
  have hliving := @countP_living store.jobs nowMs timeoutMs store.workers.slots
  have hretained_le :=
    @List.countP_le_length _ Worker.kept store.workers.slots
  have hlimit := @sum_le_mul (store.jobs.jobs.map (·.retryCount.toNat))
    (2 ^ 32 - 1) fun retries hmem => by
      obtain ⟨job, -, rfl⟩ := List.mem_map.mp hmem
      exact Nat.le_pred_of_lt job.retryCount.toNat_lt
  rw [List.length_map] at hlimit
  have hstates := @countIn_total store.jobs.jobs
  constructor <;> omega

/-- How a session began. -/
structure StatsSession.Began (session : StatsSession) : Prop where
  interrupted : session.startupInterruptedJobs.toNat
    ≤ session.submittedAtStart.toNat
  duration : session.startupDurationMs.toNat ≤ 2 ^ 63 - 1

theorem statsBegin_began (h : statsBegin store nowMs = some session) :
    session.Began := by
  unfold statsBegin at h
  split at h
  · cases h
  rename_i hclock
  simp only [Bool.or_eq_true, decide_eq_true_eq, not_or, Int64.not_lt] at hclock
  obtain ⟨baseline, hbaseline, h⟩ := Option.bind_eq_some_iff.mp h
  split at h
  · cases h
  rename_i hinterrupted
  cases h
  obtain ⟨-, -, hlength, -, -, rfl⟩ := collectJobs_eq_some.mp hbaseline
  have hsize : jobsMaxEntries = 256 := rfl
  refine ⟨?_, toNat_elapsed_le hclock.1 hclock.2⟩
  show (UInt64.ofNat store.interruptedJobs).toNat
    ≤ (UInt64.ofNat store.jobs.jobs.length).toNat
  rw [toNat_ofNat (by omega), toNat_ofNat (by omega)]
  exact Nat.not_lt.mp hinterrupted

theorem Coordinator.Reachable.began {s : Coordinator}
    {settings : LoopSettings} (h : s.Reachable settings) :
    settings.session.Began :=
  h.acted (P := fun _ => settings.session.Began)
    (fun _ session => statsBegin_began session) fun _ began _ => began

/-- The mean latency of a valid table. -/
theorem toNat_collected_latency (hrep : jobs.Rep) :
    (collected jobs.jobs).completedLatencyAvgMs.toNat
      = (latencies jobs.jobs).sum / (latencies jobs.jobs).length := by
  have hlength : jobs.jobs.length ≤ 256 := hrep.inv.jobs_le
  have hcount := @countIn_le jobs.jobs .done
  have htimed := @latencies_le jobs.jobs
    fun job hjob => (hrep.inv.valid job hjob).timed
  have hmean := toNat_meanLatency (by omega) length_latencies htimed
  rw [length_latencies, ← hmean]
  unfold collected
  rw [toNat_ofNat (by omega)]

theorem toNat_since {total start : UInt64} (h : start.toNat ≤ total.toNat) :
    (total - start).toNat = total.toNat - start.toNat :=
  UInt64.toNat_sub_of_le _ _ (UInt64.le_iff_toNat_le.mpr h)

theorem statsAt_balanced (h : store.Viewed session nowMs)
    (hbegan : session.Began) (hsound : store.workers.Sound)
    (htimeout : 1 ≤ timeoutMs ∧ timeoutMs ≤ 2147483647) :
    (statsAt session store nowMs timeoutMs).Balanced := by
  obtain ⟨hsubmitted, hqueued, hassigned, hrunning, hcompleted, hfailed,
    hattempts, hretries⟩ :=
      @toNat_statsAt_jobs nowMs timeoutMs store session h.rep
  obtain ⟨hretained, halive, hexpired, hdead, hbusy, hidle⟩ :=
    @toNat_statsAt nowMs timeoutMs store session
  obtain ⟨h₁, h₂, h₃, h₄⟩ := h.totals
  have hstates := @countIn_total store.jobs.jobs
  have hsums := @sum_attempts store.jobs.jobs h.rep.inv.valid
  have hkept := @countP_kept nowMs timeoutMs store.workers.slots
  have hliving := @countP_living store.jobs nowMs timeoutMs store.workers.slots
  have hactive := @countIn_active store.jobs.jobs
  have hworking := @countP_busy_le nowMs timeoutMs store hsound
  have hlatency := toNat_collected_latency h.rep
  have hdone := @length_latencies store.jobs.jobs
  have hdurations := @sum_le_mul (latencies store.jobs.jobs) (2 ^ 63 - 1)
    (latencies_le fun job hjob => (h.rep.inv.valid job hjob).timed)
  obtain ⟨hlow, hhigh, hwide, -⟩ := toInt_timeout htimeout
  constructor
  · omega
  · omega
  · omega
  · omega
  · omega
  · exact h₁.trans_eq hsubmitted.symm
  · exact hbegan.interrupted
  · have hsince := toNat_since (h₁.trans_eq hsubmitted.symm)
    exact (congrArg Nat.cast hsince).trans
      (Int.ofNat_sub (h₁.trans_eq hsubmitted.symm))
  · exact (toNat_since (h₂.trans_eq hcompleted.symm)).trans_le (Nat.sub_le _ _)
  · exact (toNat_since (h₃.trans_eq hfailed.symm)).trans_le (Nat.sub_le _ _)
  · exact (toNat_since (h₄.trans_eq hretries.symm)).trans_le (Nat.sub_le _ _)
  · exact hlatency.trans_le (Nat.div_le_of_le_mul hdurations)
  · intro hnone
    refine hlatency.trans ?_
    rw [hdone, ← hcompleted, hnone]
    exact Nat.div_zero _
  · exact toNat_elapsed_le h.ready.1 h.ready.2
  · exact hbegan.duration
  · show 0 < timeoutMs.toUInt64.toNat
    omega
  · show timeoutMs.toUInt64.toNat ≤ 2 ^ 31 - 1
    omega

end Statistics

-- ==================================================== encoding

/-- The encoder takes the message into a buffer for the longest frame. -/
def Message.Fits (message : Message) : Prop :=
  ∀ wire : List UInt8, wire.length = messageMaxFrameSize →
    ∃ out written, messageEncode wire message = .ok (out, written)
      ∧ written ≤ messageMaxFrameSize

theorem Message.Fits.output {message : Message} (h : message.Fits) :
    ∃ bytes, encodeOutput message = .ok bytes := by
  obtain ⟨out, written, hencode, -⟩ :=
    h (List.replicate clientFrameCapacity 0) List.length_replicate
  refine ⟨out.take written, ?_⟩
  unfold encodeOutput
  rw [hencode]

theorem Message.fits_of_valid {message : Message} {type : MessageType}
    (htype : message.type = some type)
    (hfields : message.validateFields = .ok ())
    (hidentity : checkIdentity message.identity = .ok ())
    (hdata : message.dataSize ≤ (payloadParts type).2) :
    message.Fits := by
  intro wire hwire
  have hvalid := validateMessage_ok_iff.mpr
    ⟨type, htype, hfields, hidentity, hdata, rfl⟩
  have hroom := validateMessage_fits hvalid
  exact ⟨_, _, messageEncode_eq hvalid (hroom.trans_eq hwire.symm), hroom⟩

theorem jobAssign_fits (h : job.Valid) (hstate : job.state = .assigned) :
    (Message.jobAssign job.assignment).Fits := by
  have hactive : job.state.active = true := by
    rw [hstate]
    rfl
  have hattempt := h.attempt_ne (Board.not_queued_of_active hactive)
  refine @Message.fits_of_valid _ .jobAssign rfl ?_ ?_ h.arguments_le
  · simp [Message.validateFields, Job.assignment, job.taskType.validTask_code]
  · simp [checkIdentity, Message.identity, validateIdentity, Job.assignment,
      h.id_ne, h.owner_ne hactive, hattempt]

theorem jobStatusResponse_fits (h : job.Valid) :
    (Message.jobStatusResponse (jobStatusReply job)).Fits :=
  @Message.fits_of_valid _ .jobStatusResponse rfl
    (validateJobStatus_reply h rfl) rfl h.result_le

theorem jobsResponse_fits (hrep : jobs.Rep) :
    (Message.jobsResponse (jobsListing jobs)).Fits := by
  have hlength : jobs.jobs.length ≤ jobsMaxEntries := hrep.inv.jobs_le
  rw [jobsListing_eq hrep]
  refine @Message.fits_of_valid _ .jobsResponse rfl ?_ rfl ?_
  · show validateJobs _ = _
    unfold validateJobs
    rw [List.length_map, if_neg (Nat.not_lt.mpr hlength)]
    refine validateJobEntries_summaries hrep.inv.valid hrep.inv.ids ?_
    intro id hid
    cases hid
  · show (jobs.jobs.map jobSummary).length * jobSummarySize ≤ _
    rw [List.length_map]
    exact Nat.mul_le_mul_right _ hlength

theorem workersResponse_fits (hrep : store.jobs.Rep)
    (hsound : store.workers.Sound)
    (htimeout : 1 ≤ timeoutMs ∧ timeoutMs ≤ 2147483647) :
    (Message.workersResponse (workersAt store nowMs timeoutMs)).Fits := by
  have hlength : (workersAt store nowMs timeoutMs).entries.length
      ≤ workersMaxEntries := by
    unfold workersAt
    rw [(List.mergeSort_perm _ _).length_eq, List.length_map]
    refine (List.length_filter_le _ _).trans ?_
    rw [WorkerRegistry.slots, List.length_map, List.length_finRange]
    exact Nat.le_refl _
  refine @Message.fits_of_valid _ .workersResponse rfl ?_ rfl
    (Nat.mul_le_mul_right _ hlength)
  show validateWorkers _ = _
  unfold validateWorkers
  rw [if_neg (Nat.not_lt.mpr hlength), if_neg]
  · refine validateWorkerEntries_ok ?_ (workersAt_sorted hsound) ?_
    · intro row hrow
      unfold workersAt at hrow
      rw [(List.mergeSort_perm _ _).mem_iff, List.mem_map] at hrow
      obtain ⟨worker, hmem, rfl⟩ := hrow
      obtain ⟨hslot, hkept⟩ := List.mem_filter.mp hmem
      obtain ⟨slot, -, rfl⟩ := List.mem_map.mp hslot
      exact workerSummary_listable hrep
        (hsound.nonzero slot (by simpa [Worker.kept] using hkept))
    · intro id hid
      cases hid
  · intro hzero
    obtain ⟨hlow, -, -, hnarrow⟩ := toInt_timeout htimeout
    have hnat := congrArg UInt32.toNat (beq_iff_eq.mp hzero)
    have hzeroNat : (0 : UInt32).toNat = 0 := rfl
    rw [hzeroNat] at hnat
    have hentry : (workersAt store nowMs timeoutMs).heartbeatTimeoutMs.toNat
        = timeoutMs.toUInt64.toUInt32.toNat := rfl
    omega

theorem statsResponse_fits (h : store.Viewed session nowMs)
    (hbegan : session.Began) (hsound : store.workers.Sound)
    (htimeout : 1 ≤ timeoutMs ∧ timeoutMs ≤ 2147483647) :
    (Message.statsResponse (statsAt session store nowMs timeoutMs)).Fits := by
  have hbounded := @statsAt_bounded nowMs timeoutMs store session h
  have hbalanced := statsAt_balanced h hbegan hsound htimeout
  refine @Message.fits_of_valid _ .statsResponse rfl ?_ rfl
    (Nat.zero_le _)
  show validateStats _ = _
  unfold validateStats
  rw [(statsInBounds_iff _).mpr hbounded,
    (statsConsistent_iff hbounded).mpr hbalanced]
  rfl

end Faultline
