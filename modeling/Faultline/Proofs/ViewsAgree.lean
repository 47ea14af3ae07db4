/-
The inspection views agree.

A session compares the totals it finds with those it started with. These never
shrink (`Board.Step.totals`), and every entry of the registry carries a time
the loop has read (`StoreOp.Acts.dated`), so statistics and listings exist in
every reachable state of a store that works. They are then three accounts of
one job table and one registry.
-/
import Faultline.Proofs.ConnectionLinks
import Faultline.Proofs.ViewRows

namespace Faultline

variable {jobs : Scheduler} {worker : Worker} {workers : List Worker}
  {nowMs timeoutMs : Int64} {store : CoordinatorStore}
  {session : StatsSession}

-- =============================================== growing totals

theorem JobStep.grows {event : JobEvent} {old new : Job}
    (h : JobStep event old new) : old.state ≠ .done ∧ old.state ≠ .failed
      ∧ old.retryCount.toNat ≤ new.retryCount.toNat := by
  refine ⟨fun hs => JobStep.not_terminal (.inl hs) h,
    fun hs => JobStep.not_terminal (.inr hs) h, ?_⟩
  cases event with
  | created => cases h
  | assigned =>
      obtain ⟨-, _, _, -, -, -, rfl⟩ := jobStep_assigned h
      exact Nat.le_refl _
  | started =>
      obtain ⟨-, _, -, -, rfl⟩ := jobStep_started h
      exact Nat.le_refl _
  | completed =>
      obtain ⟨-, _, _, -, -, -, rfl⟩ := jobStep_completed h
      exact Nat.le_refl _
  | requeued =>
      obtain ⟨-, hlt, _, _, -, -, -, rfl⟩ := jobStep_requeued h
      have hnat := UInt32.lt_iff_toNat_lt.mp hlt
      have hmax := old.maxRetries.toNat_lt
      have hone : (1 : UInt32).toNat = 1 := rfl
      show old.retryCount.toNat ≤ (old.retryCount + 1).toNat
      rw [UInt32.toNat_add, hone, Nat.mod_eq_of_lt (by omega)]
      omega
  | failed =>
      obtain ⟨-, -, _, _, -, -, -, rfl⟩ := jobStep_failed h
      exact Nat.le_refl _

/-- The totals that a session compares with those it started with. -/
structure Totals (session : StatsSession) (jobs : List Job) : Prop where
  submitted : session.submittedAtStart.toNat ≤ jobs.length
  completed : session.completedAtStart.toNat ≤ countIn .done jobs
  failed : session.failedAtStart.toNat ≤ countIn .failed jobs
  retries : session.retriesAtStart.toNat
    ≤ (jobs.map (·.retryCount.toNat)).sum

/-- A job's record is rewritten by a step. -/
theorem Totals.rewrite {pre suf : List Job} {event : JobEvent} {old job : Job}
    (h : Totals session (pre ++ old :: suf)) (hstep : JobStep event old job) :
    Totals session (pre ++ job :: suf) := by
  obtain ⟨hdone, hfailed, hretries⟩ := hstep.grows
  obtain ⟨h₁, h₂, h₃, h₄⟩ := h
  have hcount {state : JobState} (hne : old.state ≠ state) :
      countIn state (pre ++ old :: suf) ≤ countIn state (pre ++ job :: suf) := by
    simp only [countIn, List.countP_append, List.countP_cons]
    have hold : (old.state == state) = false := by simpa using hne
    rw [hold]
    simp
  refine ⟨?_, h₂.trans (hcount hdone), h₃.trans (hcount hfailed), h₄.trans ?_⟩
  · simpa using h₁
  · simp only [List.map_append, List.map_cons, List.sum_append, List.sum_cons]
    omega

theorem Totals.append {jobs new : List Job} (h : Totals session jobs) :
    Totals session (jobs ++ new) := by
  obtain ⟨h₁, h₂, h₃, h₄⟩ := h
  refine ⟨h₁.trans ?_, h₂.trans ?_, h₃.trans ?_, h₄.trans ?_⟩
  · rw [List.length_append]
    exact Nat.le_add_right _ _
  · rw [countIn_append]
    exact Nat.le_add_right _ _
  · rw [countIn_append]
    exact Nat.le_add_right _ _
  · rw [List.map_append, List.sum_append]
    exact Nat.le_add_right _ _

theorem Board.Step.totals {b b' : Board} {event : JobEvent} {job : Job}
    (h : b.Step event job b') (ht : Totals session b.jobs) :
    Totals session b'.jobs := by
  cases h with
  | created fresh room init => exact ht.append
  | assigned idle step => exact ht.rewrite step
  | started step => exact ht.rewrite step
  | completed step => exact ht.rewrite step
  | requeued step => exact ht.rewrite step
  | failed step => exact ht.rewrite step

theorem statsBegin_totals (h : statsBegin store nowMs = some session) :
    session.readyAtMs = nowMs ∧ 0 ≤ session.readyAtMs
      ∧ Totals session store.jobs.jobs := by
  unfold statsBegin at h
  split at h
  · cases h
  rename_i hclock
  simp only [Bool.or_eq_true, decide_eq_true_eq, not_or, Int64.not_lt] at hclock
  obtain ⟨baseline, hbaseline, h⟩ := Option.bind_eq_some_iff.mp h
  split at h
  · cases h
  cases h
  obtain ⟨-, -, -, -, -, rfl⟩ := collectJobs_eq_some.mp hbaseline
  have hofNat (n : Nat) : ((0 : UInt64) + .ofNat n).toNat ≤ n := by
    rw [UInt64.zero_add]
    exact Nat.mod_le _ _
  exact ⟨rfl, Int64.le_trans hclock.1 hclock.2, Nat.mod_le _ _, hofNat _,
    hofNat _, hofNat _⟩

/-- What the views of a session rest on. -/
structure Coordinator.Viewable (session : StatsSession) (s : Coordinator) :
    Prop where
  ready : 0 ≤ session.readyAtMs ∧ s.HasRead session.readyAtMs
  totals : Totals session s.store.jobs.jobs
  dated : ∀ slot, (s.store.workers.worker slot).kept = true →
    0 ≤ (s.store.workers.worker slot).lastHeartbeatMs
      ∧ s.HasRead (s.store.workers.worker slot).lastHeartbeatMs

/-- An operation keeps what the session's totals were. -/
theorem StoreOp.Acts.totals {op : StoreOp} {out : StoreResult × StoreOutput}
    {store' : CoordinatorStore} (h : op.Acts store out store')
    (ht : Totals session store.jobs.jobs) :
    Totals session store'.jobs.jobs := by
  cases h with
  | job rep step time emits =>
      have hjobs := congrArg Board.jobs (Scheduler.commit_refines rep step).1
      exact (hjobs ▸ step.totals ht : Totals session
        (store.jobs.commit _ _).board.jobs)
  | _ => exact ht

/-- An entry of the registry is an old one, or as old as the operation's
reading. -/
theorem StoreOp.Acts.dated {op : StoreOp} {out : StoreResult × StoreOutput}
    {store' : CoordinatorStore} (h : op.Acts store out store')
    {P : Int64 → Prop} (hreading : ∀ nowMs ∈ op.reading, P nowMs)
    (hold : ∀ slot, (store.workers.worker slot).kept = true →
      0 ≤ (store.workers.worker slot).lastHeartbeatMs
        ∧ P (store.workers.worker slot).lastHeartbeatMs)
    (slot : Fin maxWorkers)
    (hkept : (store'.workers.worker slot).kept = true) :
    0 ≤ (store'.workers.worker slot).lastHeartbeatMs
      ∧ P (store'.workers.worker slot).lastHeartbeatMs := by
  have halive {worker : Worker} (halive : worker.state = .alive) :
      worker.kept = true := by simp [Worker.kept, halive]
  cases h with
  | heartbeat hop hok =>
      subst hop
      obtain ⟨i, hi, -, -, hlater, rfl⟩ := workerHeartbeat_later hok
      simp only [WorkerRegistry.worker_put] at hkept ⊢
      split
      · exact ⟨Int64.le_trans (hold i (halive hi)).1 hlater,
          hreading _ rfl⟩
      · rename_i hne
        rw [if_neg hne] at hkept
        exact hold slot hkept
  | markDead hop hok =>
      obtain ⟨i, hi, -, -, rfl⟩ := workerMarkDead_ok hok
      simp only [WorkerRegistry.worker_put] at hkept ⊢
      split
      · exact hold i (halive hi)
      · rename_i hne
        rw [if_neg hne] at hkept
        exact hold slot hkept
  | register hop hok =>
      subst hop
      obtain ⟨-, -, -, hnow, -, i, -, rfl⟩ := workerRegister_ok hok
      simp only [WorkerRegistry.worker_put] at hkept ⊢
      split
      · exact ⟨hnow, hreading _ rfl⟩
      · rename_i hne
        rw [if_neg hne] at hkept
        exact hold slot hkept
  | _ => exact hold slot hkept

variable {s s' : Coordinator} {settings : LoopSettings}

theorem Coordinator.Act.viewable (act : s.Act s') (live : s.ctx.Live)
    (before : s.Viewable session) : s'.Viewable session := by
  have hread {nowMs : Int64} (hread : s.HasRead nowMs) : s'.HasRead nowMs :=
    hread.acted (.single act)
  have hdated (slot : Fin maxWorkers)
      (hkept : (s.store.workers.worker slot).kept = true) :=
    (before.dated slot hkept).imp_right hread
  refine ⟨before.ready.imp_right hread, ?_, ?_⟩
  · cases act with
    | store timed run => exact (live.acts run).2.totals before.totals
    | _ => exact before.totals
  · cases act with
    | store timed run =>
        exact (live.acts run).2.dated (fun nowMs hmem =>
          hread (timed nowMs hmem)) hdated
    | _ => exact hdated

theorem Coordinator.Reachable.viewable (h : s.Reachable settings) :
    s.Viewable settings.session := by
  refine h.acted (P := Coordinator.Viewable settings.session) ?_
    fun live before act => act.viewable live before
  intro initializing m ctx clock hopen hbegin
  obtain ⟨hnow, hready, htotals⟩ := statsBegin_totals hbegin
  obtain ⟨next, hworkers⟩ := storeOpen_workers hopen
  refine ⟨⟨hready, ?_⟩, htotals, fun slot hkept => ?_⟩
  · exact ⟨1, Nat.one_lt_two, hnow.symm⟩
  · rw [show (Coordinator.start ctx clock).store.workers = _ from hworkers,
      show (WorkerRegistry.restored next).worker slot = unusedWorker from
        worker_init slot] at hkept
    cases hkept

-- ==================================================== the snapshot

theorem Job.Valid.countable {job : Job} (h : job.Valid) : job.Countable := by
  refine ⟨h.retries_le, ?_⟩
  have hfields := h.fields
  unfold Job.StateFields at hfields
  unfold Job.attemptsUsed
  cases hstate : job.state with
  | queued =>
      simp only [hstate] at hfields
      rw [hfields.2.1]
      exact (UInt64.add_zero _).symm
  | _ =>
      simp only [hstate] at hfields
      exact hfields.2.1

theorem Job.Valid.timed {job : Job} (h : job.Valid) : job.Timed := by
  intro hdone
  have hfields := h.fields
  simp only [Job.StateFields, hdone] at hfields
  obtain ⟨-, -, -, hassigned, hstarted, hfinished, -⟩ := hfields
  exact ⟨h.created_nonneg,
    Int64.le_trans hassigned (Int64.le_trans hstarted hfinished)⟩

/-- What is collected of a table of jobs. -/
def collected (jobs : List Job) : StatsPayload :=
  { counted { statsZero with jobsSubmittedTotal := .ofNat jobs.length } jobs with
    completedLatencyAvgMs := meanLatency (.ofNat (countIn .done jobs))
      (latencySums (UInt64.ofNat (countIn .done jobs)).toNat
        (latencies jobs)) }

/-- The statistics of a store. -/
def statsAt (session : StatsSession) (store : CoordinatorStore)
    (nowMs timeoutMs : Int64) : StatsPayload :=
  tallied store.jobs nowMs timeoutMs
    ((collected store.jobs.jobs).since session nowMs timeoutMs)
    store.workers.slots

theorem collectJobs_live (opened : store.opened = true)
    (healthy : store.failure = .none) (hrep : store.jobs.Rep) :
    collectJobs store = some (collected store.jobs.jobs) :=
  collectJobs_eq_some.mpr ⟨opened, healthy, hrep.inv.jobs_le,
    fun job hjob => (hrep.inv.valid job hjob).countable,
    fun job hjob => (hrep.inv.valid job hjob).timed, rfl⟩

/-- The counters of a valid table are exact. -/
theorem toNat_collected (hrep : jobs.Rep) :
    (collected jobs.jobs).jobsSubmittedTotal.toNat = jobs.jobs.length
      ∧ (collected jobs.jobs).jobsQueued.toNat = countIn .queued jobs.jobs
      ∧ (collected jobs.jobs).jobsAssigned.toNat = countIn .assigned jobs.jobs
      ∧ (collected jobs.jobs).jobsRunning.toNat = countIn .running jobs.jobs
      ∧ (collected jobs.jobs).jobsCompletedTotal.toNat
        = countIn .done jobs.jobs
      ∧ (collected jobs.jobs).jobsFailedTotal.toNat
        = countIn .failed jobs.jobs
      ∧ (collected jobs.jobs).jobAttemptsTotal.toNat
        = (jobs.jobs.map (·.attempt.toNat)).sum
      ∧ (collected jobs.jobs).jobRetriesTotal.toNat
        = (jobs.jobs.map (·.retryCount.toNat)).sum := by
  have hlength : jobs.jobs.length ≤ 256 := hrep.inv.jobs_le
  have hcount (state : JobState) :
      ((0 : UInt64) + .ofNat (countIn state jobs.jobs)).toNat
        = countIn state jobs.jobs := by
    have hle := @countIn_le jobs.jobs state
    exact toNat_zero_add_ofNat (by omega)
  obtain ⟨hattempts, hretries⟩ :=
    @toNat_totals jobs.jobs (.ofNat jobs.jobs.length) hlength
      fun job hjob => (hrep.inv.valid job hjob).countable
  exact ⟨toNat_ofNat (by omega), hcount _, hcount _, hcount _, hcount _,
    hcount _, hattempts, hretries⟩

/-- So are those of the registry. -/
theorem toNat_statsAt :
    (statsAt session store nowMs timeoutMs).workersRetained.toNat
        = store.workers.slots.countP Worker.kept
      ∧ (statsAt session store nowMs timeoutMs).workersAlive.toNat
        = store.workers.slots.countP (Worker.living · nowMs timeoutMs)
      ∧ (statsAt session store nowMs timeoutMs).workersExpired.toNat
        = store.workers.slots.countP (Worker.expired · nowMs timeoutMs)
      ∧ (statsAt session store nowMs timeoutMs).workersDead.toNat
        = store.workers.slots.countP (·.state == .dead)
      ∧ (statsAt session store nowMs timeoutMs).workersBusy.toNat
        = store.workers.slots.countP
          (Worker.busy · store.jobs nowMs timeoutMs)
      ∧ (statsAt session store nowMs timeoutMs).workersIdle.toNat
        = store.workers.slots.countP
          (Worker.idle · store.jobs nowMs timeoutMs) := by
  have hlength : store.workers.slots.length = 64 := by
    rw [WorkerRegistry.slots, List.length_map, List.length_finRange]
  have hcount (counts : Worker → Bool) :
      ((0 : UInt64) + .ofNat (store.workers.slots.countP counts)).toNat
        = store.workers.slots.countP counts := by
    have hle := @List.countP_le_length _ counts store.workers.slots
    exact toNat_zero_add_ofNat (by omega)
  exact ⟨hcount _, hcount _, hcount _, hcount _, hcount _, hcount _⟩

/-- A store that works, at a time that is not too early for its views. -/
structure CoordinatorStore.Viewed (session : StatsSession) (nowMs : Int64)
    (store : CoordinatorStore) : Prop where
  opened : store.opened = true
  healthy : store.failure = .none
  rep : store.jobs.Rep
  ready : 0 ≤ session.readyAtMs ∧ session.readyAtMs ≤ nowMs
  totals : Totals session store.jobs.jobs
  dated : ∀ slot, (store.workers.worker slot).kept = true →
    (store.workers.worker slot).Dated nowMs

theorem CoordinatorStore.Viewed.dated_slots
    (h : store.Viewed session nowMs) :
    ∀ worker ∈ store.workers.slots, worker.kept = true →
      worker.Dated nowMs := by
  intro worker hmem hkept
  obtain ⟨slot, -, rfl⟩ := List.mem_map.mp hmem
  exact h.dated slot hkept

/-- A session's statistics are there. -/
theorem CoordinatorStore.Viewed.statsSnapshot_eq
    (h : store.Viewed session nowMs) (htimeout : 1 ≤ timeoutMs) :
    statsSnapshot session store nowMs timeoutMs
      = some (statsAt session store nowMs timeoutMs) := by
  obtain ⟨hsubmitted, -, -, -, hcompleted, hfailed, -, hretries⟩ :=
    toNat_collected h.rep
  obtain ⟨h₁, h₂, h₃, h₄⟩ := h.totals
  unfold statsSnapshot
  have hpos : ¬ timeoutMs ≤ 0 :=
    Int64.not_le.mpr (Int64.lt_of_lt_of_le (by decide) htimeout)
  rw [if_neg (by
    simp [Int64.not_lt.mpr h.ready.1, Int64.not_lt.mpr h.ready.2, hpos]),
    collectJobs_live h.opened h.healthy h.rep, Option.bind_eq_bind,
    Option.bind_some, if_neg]
  · refine foldlM_countWorker.mpr ⟨fun worker hmem halive => ?_, rfl⟩
    exact h.dated_slots worker hmem (by simp [Worker.kept, halive])
  · simp only [Bool.or_eq_true, decide_eq_true_eq, not_or, UInt64.not_lt,
      UInt64.le_iff_toNat_le]
    omega

/-- The rows of the workers, sorted. -/
def workersAt (store : CoordinatorStore) (nowMs timeoutMs : Int64) :
    WorkersPayload :=
  { heartbeatTimeoutMs := timeoutMs.toUInt64.toUInt32
    entries := ((store.workers.slots.filter Worker.kept).map
      (workerSummary store.jobs nowMs)).mergeSort
        fun a b => a.workerId ≤ b.workerId }

/-- The listing of the workers is there, too. -/
theorem CoordinatorStore.Viewed.workersListing_eq
    (h : store.Viewed session nowMs) :
    workersListing store nowMs timeoutMs
      = some (workersAt store nowMs timeoutMs) := by
  unfold workersListing
  rw [workerRows_eq_some.mpr ⟨h.dated_slots, rfl⟩, Option.map_some]
  rfl

-- ====================================================== agreement

/-- The statistics count the rows of the jobs. -/
structure JobRowsCounted (rows : List JobSummary) (stats : StatsPayload) :
    Prop where
  submitted : stats.jobsSubmittedTotal.toNat = rows.length
  queued : stats.jobsQueued.toNat
    = rows.countP (·.state == JobState.queued.code)
  assigned : stats.jobsAssigned.toNat
    = rows.countP (·.state == JobState.assigned.code)
  running : stats.jobsRunning.toNat
    = rows.countP (·.state == JobState.running.code)
  completed : stats.jobsCompletedTotal.toNat
    = rows.countP (·.state == JobState.done.code)
  failed : stats.jobsFailedTotal.toNat
    = rows.countP (·.state == JobState.failed.code)
  attempts : stats.jobAttemptsTotal.toNat
    = (rows.map (·.attempt.toNat)).sum
  retries : stats.jobRetriesTotal.toNat
    = (rows.map (·.retryCount.toNat)).sum

/-- The statistics count the rows of the workers, as they are displayed. -/
structure WorkerRowsCounted (listing : WorkersPayload) (stats : StatsPayload) :
    Prop where
  dead : stats.workersDead.toNat = listing.entries.countP
    (displayedLiveness listing.heartbeatTimeoutMs · == .dead)
  expired : stats.workersExpired.toNat = listing.entries.countP
    (displayedLiveness listing.heartbeatTimeoutMs · == .expired)
  alive : stats.workersAlive.toNat = listing.entries.countP
    (displayedLiveness listing.heartbeatTimeoutMs · == .alive)
  retained : stats.workersRetained.toNat = listing.entries.length
  busy : stats.workersBusy.toNat = listing.entries.countP fun row =>
    displayedLiveness listing.heartbeatTimeoutMs row == .alive
      && row.jobId != 0

/-- A row and a status reply say the same of a job. -/
structure JobSummary.Agrees (row : JobSummary) (reply : JobStatusPayload) :
    Prop where
  jobId : reply.jobId = row.jobId
  state : reply.state = row.state
  workerId : reply.workerId = row.workerId
  attempt : reply.attempt = row.attempt
  retryCount : reply.retryCount = row.retryCount
  maxRetries : reply.maxRetries = row.maxRetries
  failure : reply.failure = row.failure
  resultSize : reply.result.length = row.resultSize.toNat

/-- The row of a job that a worker has. -/
def JobSummary.Active (row : JobSummary) : Prop :=
  row.state = JobState.assigned.code ∨ row.state = JobState.running.code

theorem mem_jobsListing {row : JobSummary} :
    row ∈ jobsListing jobs ↔ ∃ job ∈ jobs.jobs, jobSummary job = row := by
  unfold jobsListing
  rw [(List.mergeSort_perm _ _).mem_iff, List.mem_map]

theorem jobSummary_active {job : Job} :
    (jobSummary job).Active ↔ job.state.active = true := by
  cases hstate : job.state <;>
    simp [JobSummary.Active, jobSummary, hstate, JobState.active, JobState.code]

theorem jobRows_counted (hrep : jobs.Rep) :
    JobRowsCounted (jobsListing jobs) (collected jobs.jobs) := by
  obtain ⟨h₁, h₂, h₃, h₄, h₅, h₆, h₇, h₈⟩ := toNat_collected hrep
  have hlength : (jobsListing jobs).length = jobs.jobs.length := by
    unfold jobsListing
    rw [(List.mergeSort_perm _ _).length_eq, List.length_map]
  exact ⟨h₁.trans hlength.symm, h₂.trans (countP_jobRows _ _).symm,
    h₃.trans (countP_jobRows _ _).symm, h₄.trans (countP_jobRows _ _).symm,
    h₅.trans (countP_jobRows _ _).symm, h₆.trans (countP_jobRows _ _).symm,
    h₇.trans (sum_jobRows (·.attempt.toNat) jobs).symm,
    h₈.trans (sum_jobRows (·.retryCount.toNat) jobs).symm⟩

/-- What a worker's row says of a job. -/
theorem workerSummary_job (hrep : jobs.Rep)
    (hjob : (workerSummary jobs nowMs worker).jobId ≠ 0
      ∨ (workerSummary jobs nowMs worker).attempt ≠ 0) :
    ∃ job ∈ jobs.jobs, job.state.active = true
      ∧ (workerSummary jobs nowMs worker).jobId = job.id
      ∧ (workerSummary jobs nowMs worker).attempt = job.attempt
      ∧ (workerSummary jobs nowMs worker).workerId = job.workerId
      ∧ ∀ other ∈ jobs.jobs, other.state.active = true →
        other.workerId = job.workerId → other = job := by
  unfold workerSummary at hjob ⊢
  cases halive : worker.state == .alive with
  | false => simp [halive] at hjob
  | true =>
      cases hactive : schedulerActive jobs worker.id with
      | none => simp [halive, hactive] at hjob
      | some job =>
          obtain ⟨-, hmem, hworker, hact⟩ := schedulerActive_some hactive
          refine ⟨job, hmem, hact, rfl, rfl, hworker.symm,
            fun other hother hact' hsame => ?_⟩
          have hother' := hrep.active_eq hother hact'
          rw [hsame, hrep.active_eq hmem hact] at hother'
          exact (Option.some.inj hother').symm

theorem jobSummary_agrees {job : Job} (h : job.Valid) :
    (jobSummary job).Agrees (jobStatusReply job) := by
  have hresult : job.result.length ≤ 65536 := h.result_le.trans (by decide)
  refine ⟨rfl, rfl, rfl, rfl, rfl, rfl, rfl, ?_⟩
  exact (UInt32.toNat_ofNat_of_lt' (Nat.lt_of_le_of_lt hresult (by decide))).symm

theorem schedulerFind_some {jobId : UInt64} {job : Job}
    (h : schedulerFind jobs jobId = some job) :
    job ∈ jobs.jobs ∧ job.id = jobId := by
  unfold schedulerFind at h
  split at h
  · cases h
  unfold findSlot at h
  obtain ⟨hlt, hget⟩ := List.getElem?_eq_some_iff.mp h
  have hid := List.findIdx_getElem (w := hlt)
  rw [hget] at hid
  exact ⟨List.mem_of_getElem? h, by simpa using hid⟩

theorem workerRows_counted (h : store.Viewed session nowMs)
    (htimeout : 1 ≤ timeoutMs ∧ timeoutMs ≤ 2147483647) :
    WorkerRowsCounted (workersAt store nowMs timeoutMs)
      (statsAt session store nowMs timeoutMs) := by
  obtain ⟨hretained, hliving, hexpires, hdies, hworks, -⟩ :=
    @toNat_statsAt nowMs timeoutMs store session
  obtain ⟨hdead, hexpired, halive, hbusy⟩ :=
    countP_displayed htimeout h.dated_slots
      fun job hjob => (h.rep.inv.valid job hjob).id_ne
  unfold workersAt
  constructor
  · rw [hdies, (List.mergeSort_perm _ _).countP_eq]
    exact hdead.symm
  · rw [hexpires, (List.mergeSort_perm _ _).countP_eq]
    exact hexpired.symm
  · rw [hliving, (List.mergeSort_perm _ _).countP_eq]
    exact halive.symm
  · rw [hretained, (List.mergeSort_perm _ _).length_eq, List.length_map,
      List.countP_eq_length_filter]
  · rw [hworks, (List.mergeSort_perm _ _).countP_eq]
    exact hbusy.symm

/-- In every state the loop can reach while the store works, at a time not
before the session's begin or a heartbeat: there are statistics and a listing
of workers. The statistics count the rows of both listings, those of the
workers by what is displayed of them. A job named in a worker's row is the
active job of that worker in the listing of jobs. The status replies are those
of the listed jobs, field by field. -/
theorem views_agree (settings : LoopSettings) (s : Coordinator)
    (h : s.Reachable settings) (healthy : s.store.failure = .none)
    (nowMs timeoutMs : Int64)
    (htimeout : 1 ≤ timeoutMs ∧ timeoutMs ≤ 2147483647)
    (hready : settings.session.readyAtMs ≤ nowMs)
    (hbeats : ∀ slot, (s.store.workers.worker slot).state ≠ .unused →
      (s.store.workers.worker slot).lastHeartbeatMs ≤ nowMs) :
    ∃ stats listing,
      statsSnapshot settings.session s.store nowMs timeoutMs = some stats
      ∧ workersListing s.store nowMs timeoutMs = some listing
      ∧ JobRowsCounted (jobsListing s.store.jobs) stats
      ∧ WorkerRowsCounted listing stats
      ∧ (∀ row ∈ listing.entries, row.jobId ≠ 0 ∨ row.attempt ≠ 0 →
        ∃ job ∈ jobsListing s.store.jobs, job.Active
          ∧ job.jobId = row.jobId ∧ job.attempt = row.attempt
          ∧ job.workerId = row.workerId
          ∧ ∀ other ∈ jobsListing s.store.jobs, other.Active →
            other.workerId = row.workerId → other = job)
      ∧ (∀ row ∈ jobsListing s.store.jobs, ∃ reply,
        statusReply s.store.jobs row.jobId = .jobStatusResponse reply
          ∧ row.Agrees reply)
      ∧ ∀ jobId reply,
        statusReply s.store.jobs jobId = .jobStatusResponse reply →
          ∃ row ∈ jobsListing s.store.jobs, row.jobId = jobId := by
  have hrep : s.store.jobs.Rep := h.live.rep healthy
  have hview := h.viewable
  have hviewed : s.store.Viewed settings.session nowMs :=
    ⟨h.live.opened, healthy, hrep, ⟨hview.ready.1, hready⟩, hview.totals,
      fun slot hkept => ⟨(hview.dated slot hkept).1,
        hbeats slot (by simpa [Worker.kept] using hkept)⟩⟩
  have hstats := hviewed.statsSnapshot_eq htimeout.1
  have hlisting := @CoordinatorStore.Viewed.workersListing_eq nowMs timeoutMs
    s.store settings.session hviewed
  have hrows := jobRows_counted hrep
  refine ⟨_, _, hstats, hlisting, ?_, ?_, fun row hrow hjob => ?_,
    fun row hrow => ?_, fun jobId reply hreply => ?_⟩
  · obtain ⟨h₁, h₂, h₃, h₄, h₅, h₆, h₇, h₈⟩ := hrows
    exact ⟨h₁, h₂, h₃, h₄, h₅, h₆, h₇, h₈⟩
  · exact workerRows_counted hviewed htimeout
  · unfold workersAt at hrow
    rw [(List.mergeSort_perm _ _).mem_iff, List.mem_map] at hrow
    obtain ⟨worker, -, rfl⟩ := hrow
    obtain ⟨job, hmem, hact, hid, hattempt, hworker, hunique⟩ :=
      workerSummary_job hrep hjob
    refine ⟨jobSummary job, mem_jobsListing.mpr ⟨job, hmem, rfl⟩,
      jobSummary_active.mpr hact, hid.symm, hattempt.symm, hworker.symm, ?_⟩
    intro other hother hactive hsame
    obtain ⟨k, hk, rfl⟩ := mem_jobsListing.mp hother
    rw [hunique k hk (jobSummary_active.mp hactive) (hsame.trans hworker)]
  · obtain ⟨job, hmem, rfl⟩ := mem_jobsListing.mp hrow
    refine ⟨jobStatusReply job, ?_, jobSummary_agrees (hrep.inv.valid job hmem)⟩
    unfold statusReply
    rw [show (jobSummary job).jobId = job.id from rfl, hrep.find hmem]
  · unfold statusReply at hreply
    split at hreply
    · cases hreply
    · rename_i job hfind
      obtain ⟨hmem, hid⟩ := schedulerFind_some hfind
      exact ⟨jobSummary job, mem_jobsListing.mpr ⟨job, hmem, rfl⟩, hid⟩

/-- A worker has just registered. -/
theorem views_agree_registered : ∃ stats listing,
    statsSnapshot quietSettings.session registered.store 5 1000 = some stats
      ∧ workersListing registered.store 5 1000 = some listing
      ∧ listing.entries.length = 1 ∧ stats.workersRetained.toNat = 1 := by
  have hslots : registered.store.failure = .none
      ∧ ∀ slot, (registered.store.workers.worker slot).state ≠ .unused →
        (registered.store.workers.worker slot).lastHeartbeatMs ≤ 5 := by
    decide +kernel
  have hlisted : ∀ listing,
      workersListing registered.store 5 1000 = some listing →
        listing.entries.length = 1 := by
    intro listing hlisting
    have hone : (workersListing registered.store 5 1000).map
        (·.entries.length) = some 1 := by decide +kernel
    rw [hlisting] at hone
    exact Option.some.inj hone
  obtain ⟨stats, listing, hstats, hlisting, -, hrows, -⟩ :=
    views_agree quietSettings registered registered_reachable hslots.1 5 1000
      (by decide) (by decide) hslots.2
  have hlength := hlisted listing hlisting
  exact ⟨stats, listing, hstats, hlisting, hlength, hrows.retained.trans hlength⟩

end Faultline
