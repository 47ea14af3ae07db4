/-
The rows of the inspection views.

The rows of the workers listing are the entries of the registry that are kept
(`workerRows_eq_some`), the statistics count the same entries
(`foldlM_countWorker`), and what the command line displays of a row is how
the statistics counted its worker (`displayedLiveness_summary`). The rows of
the jobs listing are the stored jobs, sorted.
-/
import Mathlib.Data.List.Basic
import Faultline.Cli.Printing
import Faultline.Coordinator.Views
import Faultline.Proofs.StatsCounts

namespace Faultline

variable {jobs : Scheduler} {worker : Worker} {workers : List Worker}
  {rows : List WorkerSummary} {stats stats' : StatsPayload}
  {nowMs timeoutMs : Int64} {store : CoordinatorStore}

-- ================================================= rows of workers

/-- The worker's last sign of life has a time that lies behind. -/
def Worker.Dated (worker : Worker) (nowMs : Int64) : Prop :=
  0 ≤ worker.lastHeartbeatMs ∧ worker.lastHeartbeatMs ≤ nowMs

/-- The entries that are listed. -/
def Worker.kept (worker : Worker) : Bool := worker.state != .unused

/-- The rows are the workers that are kept, if all of them are dated. -/
theorem workerRows_eq_some : workerRows jobs nowMs workers = some rows
    ↔ (∀ worker ∈ workers, worker.kept = true → worker.Dated nowMs)
      ∧ rows = (workers.filter Worker.kept).map (workerSummary jobs nowMs) := by
  induction workers generalizing rows with
  | nil =>
      simp only [workerRows, Option.some.injEq, List.not_mem_nil,
        false_implies, implies_true, List.filter_nil, List.map_nil, true_and]
      exact eq_comm
  | cons worker workers ih =>
      unfold workerRows
      by_cases hunused : worker.state = .unused
      · have hkept : worker.kept = false := by simp [Worker.kept, hunused]
        simp only [hunused, beq_self_eq_true, if_true, ih, List.mem_cons,
          List.filter_cons, hkept]
        grind
      · have hkept : worker.kept = true := by simp [Worker.kept, hunused]
        rw [if_neg (by simpa using hunused)]
        split
        · rename_i hlate
          refine iff_of_false nofun ?_
          rintro ⟨hdated, -⟩
          obtain ⟨hnonneg, hle⟩ := hdated worker (List.mem_cons_self ..) hkept
          simp only [Bool.or_eq_true, decide_eq_true_eq] at hlate
          rcases hlate with hlate | hlate
          · exact absurd hnonneg (Int64.not_le.mpr hlate)
          · exact absurd hle (Int64.not_le.mpr hlate)
        · rename_i hdated
          simp only [Bool.or_eq_true, decide_eq_true_eq, not_or,
            Int64.not_lt] at hdated
          simp only [Option.map_eq_some_iff, ih, List.mem_cons,
            List.filter_cons, hkept, if_true, List.map_cons]
          constructor
          · rintro ⟨rest, ⟨hrest, rfl⟩, rfl⟩
            refine ⟨?_, rfl⟩
            rintro other (rfl | hother) hother'
            · exact hdated
            · exact hrest other hother hother'
          · rintro ⟨hall, rfl⟩
            exact ⟨_, ⟨fun other hother => hall other (.inr hother), rfl⟩, rfl⟩

-- ============================================== counts of workers

/-- A live worker whose deadline has passed. -/
def Worker.expired (worker : Worker) (nowMs timeoutMs : Int64) : Bool :=
  worker.state == .alive && workerTimedOut worker nowMs timeoutMs

/-- A live worker whose deadline has not passed. -/
def Worker.living (worker : Worker) (nowMs timeoutMs : Int64) : Bool :=
  worker.state == .alive && !workerTimedOut worker nowMs timeoutMs

/-- A living worker with a job. -/
def Worker.busy (worker : Worker) (jobs : Scheduler)
    (nowMs timeoutMs : Int64) : Bool :=
  worker.living nowMs timeoutMs && (schedulerActive jobs worker.id).isSome

/-- A living worker without one. -/
def Worker.idle (worker : Worker) (jobs : Scheduler)
    (nowMs timeoutMs : Int64) : Bool :=
  worker.living nowMs timeoutMs && (schedulerActive jobs worker.id).isNone

/-- Statistics with some workers counted. -/
def tallied (jobs : Scheduler) (nowMs timeoutMs : Int64)
    (stats : StatsPayload) (workers : List Worker) : StatsPayload :=
  { stats with
    workersRetained := stats.workersRetained + .ofNat (workers.countP Worker.kept)
    workersAlive := stats.workersAlive
      + .ofNat (workers.countP (Worker.living · nowMs timeoutMs))
    workersExpired := stats.workersExpired
      + .ofNat (workers.countP (Worker.expired · nowMs timeoutMs))
    workersDead := stats.workersDead
      + .ofNat (workers.countP (·.state == .dead))
    workersBusy := stats.workersBusy
      + .ofNat (workers.countP (Worker.busy · jobs nowMs timeoutMs))
    workersIdle := stats.workersIdle
      + .ofNat (workers.countP (Worker.idle · jobs nowMs timeoutMs)) }

theorem tallied_append {later : List Worker} :
    tallied jobs nowMs timeoutMs (tallied jobs nowMs timeoutMs stats workers)
        later
      = tallied jobs nowMs timeoutMs stats (workers ++ later) := by
  simp only [tallied, List.countP_append, UInt64.ofNat_add, UInt64.add_assoc]

theorem countWorker_eq_some :
    countWorker jobs nowMs timeoutMs stats worker = some stats'
      ↔ (worker.state = .alive → worker.Dated nowMs)
        ∧ stats' = tallied jobs nowMs timeoutMs stats [worker] := by
  have hone : UInt64.ofNat 1 = 1 := rfl
  have hzero : UInt64.ofNat 0 = 0 := rfl
  have hsome {x : StatsPayload}
      (hdated : worker.state = .alive → worker.Dated nowMs)
      (hx : x = tallied jobs nowMs timeoutMs stats [worker]) :
      some x = some stats'
        ↔ (worker.state = .alive → worker.Dated nowMs)
          ∧ stats' = tallied jobs nowMs timeoutMs stats [worker] :=
    ⟨fun h => ⟨hdated, (Option.some.inj h).symm.trans hx⟩,
      fun h => congrArg some (hx.trans h.2.symm)⟩
  unfold countWorker
  split
  · rename_i hstate
    refine hsome (fun halive => ?_) ?_
    · rw [hstate] at halive
      cases halive
    · simp [tallied, Worker.kept, Worker.living, Worker.expired, Worker.busy,
        Worker.idle, hstate, hzero]
  · rename_i hstate
    refine hsome (fun halive => ?_) ?_
    · rw [hstate] at halive
      cases halive
    · simp [tallied, Worker.kept, Worker.living, Worker.expired, Worker.busy,
        Worker.idle, hstate, hone, hzero]
  · rename_i hstate
    split
    · rename_i hlate
      refine iff_of_false nofun ?_
      rintro ⟨hdated, -⟩
      obtain ⟨hnonneg, hle⟩ := hdated hstate
      simp only [Bool.or_eq_true, decide_eq_true_eq] at hlate
      rcases hlate with hlate | hlate
      · exact absurd hnonneg (Int64.not_le.mpr hlate)
      · exact absurd hle (Int64.not_le.mpr hlate)
    · rename_i hdated
      simp only [Bool.or_eq_true, decide_eq_true_eq, not_or,
        Int64.not_lt] at hdated
      cases hout : workerTimedOut worker nowMs timeoutMs <;>
        cases hbusy : schedulerActive jobs worker.id <;>
        exact hsome (fun _ => hdated) (by
          simp [tallied, Worker.kept, Worker.living, Worker.expired,
            Worker.busy, Worker.idle, hstate, hone, hzero, hout, hbusy])

/-- The loop over the registry counts the workers, if the live ones are
dated. -/
theorem foldlM_countWorker :
    workers.foldlM (countWorker jobs nowMs timeoutMs) stats = some stats'
      ↔ (∀ worker ∈ workers, worker.state = .alive → worker.Dated nowMs)
        ∧ stats' = tallied jobs nowMs timeoutMs stats workers := by
  induction workers generalizing stats with
  | nil =>
      simp [tallied, eq_comm]
  | cons worker workers ih =>
      rw [List.foldlM_cons]
      simp only [Option.bind_eq_bind, Option.bind_eq_some_iff,
        countWorker_eq_some, ih, List.mem_cons]
      constructor
      · rintro ⟨_, ⟨hworker, rfl⟩, hrest, rfl⟩
        refine ⟨?_, by rw [tallied_append, List.singleton_append]⟩
        rintro other (rfl | hother)
        · exact hworker
        · exact hrest other hother
      · rintro ⟨hall, rfl⟩
        exact ⟨_, ⟨hall worker (.inl rfl), rfl⟩,
          fun other hother => hall other (.inr hother),
          by rw [tallied_append, List.singleton_append]⟩

-- ======================================================= display

/-- A timeout keeps its value in every width it is sent in. -/
theorem toInt_timeout (h : 1 ≤ timeoutMs ∧ timeoutMs ≤ 2147483647) :
    1 ≤ timeoutMs.toInt ∧ timeoutMs.toInt ≤ 2147483647
      ∧ (timeoutMs.toUInt64.toNat : Int) = timeoutMs.toInt
      ∧ (timeoutMs.toUInt64.toUInt32.toNat : Int) = timeoutMs.toInt := by
  have hlow := Int64.le_iff_toInt_le.mp h.1
  have hhigh := Int64.le_iff_toInt_le.mp h.2
  have hone : (1 : Int64).toInt = 1 := by decide
  have hmax : (2147483647 : Int64).toInt = 2147483647 := by decide
  have hwide := @toNat_toUInt64 timeoutMs (by omega)
  refine ⟨by omega, by omega, hwide, ?_⟩
  rw [UInt64.toNat_toUInt32, Nat.mod_eq_of_lt (by omega), hwide]

/-- An age is compared as it was meant. -/
theorem age_ge_iff (htimeout : 1 ≤ timeoutMs ∧ timeoutMs ≤ 2147483647)
    (h : worker.Dated nowMs) :
    (nowMs - worker.lastHeartbeatMs).toUInt64
        ≥ timeoutMs.toUInt64.toUInt32.toUInt64
      ↔ nowMs - worker.lastHeartbeatMs ≥ timeoutMs := by
  obtain ⟨hnonneg, hle⟩ := h
  have hdiff := Int64.toInt_sub_of_le nowMs worker.lastHeartbeatMs hnonneg hle
  have hage := toNat_elapsed hnonneg hle
  obtain ⟨-, -, -, hnarrow⟩ := toInt_timeout htimeout
  rw [ge_iff_le, ge_iff_le, UInt64.le_iff_toNat_le, Int64.le_iff_toInt_le,
    UInt32.toNat_toUInt64]
  omega

/-- What is displayed of a worker's row. -/
theorem displayedLiveness_summary
    (htimeout : 1 ≤ timeoutMs ∧ timeoutMs ≤ 2147483647)
    (hkept : worker.kept = true) (h : worker.Dated nowMs) :
    displayedLiveness timeoutMs.toUInt64.toUInt32
        (workerSummary jobs nowMs worker)
      = if worker.state = .dead then .dead
        else if worker.expired nowMs timeoutMs then .expired else .alive := by
  have hage := age_ge_iff htimeout h
  have hpos : timeoutMs > 0 := Int64.lt_of_lt_of_le (by decide) htimeout.1
  cases hstate : worker.state with
  | unused => simp [Worker.kept, hstate] at hkept
  | dead =>
      simp [displayedLiveness, workerSummary, hstate, workerViewDead]
  | alive =>
      have hexpired : worker.expired nowMs timeoutMs
          = decide (nowMs - worker.lastHeartbeatMs ≥ timeoutMs) := by
        simp [Worker.expired, workerTimedOut, hstate, hpos, h.1, h.2]
      simp only [displayedLiveness, workerSummary, hstate, hexpired, hage]
      simp [workerViewAlive, workerViewDead]

-- ========================================================= counts

theorem countP_rows {test : WorkerSummary → Bool} {counts : Worker → Bool}
    (h : ∀ worker ∈ workers,
      (test (workerSummary jobs nowMs worker) && worker.kept) = counts worker) :
    ((workers.filter Worker.kept).map (workerSummary jobs nowMs)).countP test
      = workers.countP counts := by
  rw [List.countP_map, List.countP_filter]
  refine List.countP_congr fun worker hmem => ?_
  rw [← h worker hmem]
  rfl

/-- Rows that display one liveness are the workers counted so. -/
theorem countP_displayed
    (htimeout : 1 ≤ timeoutMs ∧ timeoutMs ≤ 2147483647)
    (hdated : ∀ worker ∈ workers, worker.kept = true → worker.Dated nowMs)
    (hids : ∀ job ∈ jobs.jobs, job.id ≠ 0) :
    let display := displayedLiveness timeoutMs.toUInt64.toUInt32
    let rows := (workers.filter Worker.kept).map (workerSummary jobs nowMs)
    rows.countP (display · == .dead) = workers.countP (·.state == .dead)
      ∧ rows.countP (display · == .expired)
        = workers.countP (Worker.expired · nowMs timeoutMs)
      ∧ rows.countP (display · == .alive)
        = workers.countP (Worker.living · nowMs timeoutMs)
      ∧ rows.countP (fun row => display row == .alive && row.jobId != 0)
        = workers.countP (Worker.busy · jobs nowMs timeoutMs) := by
  intro display rows
  have hlive : (Liveness.dead == .expired) = false
      ∧ (Liveness.dead == .alive) = false
      ∧ (Liveness.expired == .alive) = false
      ∧ (Liveness.alive == .expired) = false
      ∧ (Liveness.expired == .dead) = false
      ∧ (Liveness.alive == .dead) = false
      ∧ (WorkerState.dead == .alive) = false
      ∧ (WorkerState.alive == .dead) = false := by decide
  have hrow (worker : Worker) (hmem : worker ∈ workers)
      (hkept : worker.kept = true) :
      display (workerSummary jobs nowMs worker)
        = if worker.state = .dead then .dead
          else if worker.expired nowMs timeoutMs then .expired else .alive :=
    displayedLiveness_summary htimeout hkept (hdated worker hmem hkept)
  have hjob (worker : Worker) (halive : worker.state = .alive) :
      ((workerSummary jobs nowMs worker).jobId != 0)
        = (schedulerActive jobs worker.id).isSome := by
    simp only [workerSummary, halive, beq_self_eq_true, if_true]
    cases hactive : schedulerActive jobs worker.id with
    | none => rfl
    | some job =>
        have hne := hids job (schedulerActive_some hactive).2.1
        simpa using hne
  refine ⟨countP_rows fun worker hmem => ?_, countP_rows fun worker hmem => ?_,
    countP_rows fun worker hmem => ?_, countP_rows fun worker hmem => ?_⟩ <;>
    cases hstate : worker.state with
    | unused =>
        simp [Worker.kept, Worker.expired, Worker.living, Worker.busy, hstate]
    | dead =>
        have hkept : worker.kept = true := by simp [Worker.kept, hstate]
        simp [hrow worker hmem hkept, hkept, Worker.expired, Worker.living,
          Worker.busy, hstate, hlive]
    | alive =>
        have hkept : worker.kept = true := by simp [Worker.kept, hstate]
        cases hout : workerTimedOut worker nowMs timeoutMs <;>
          simp [hrow worker hmem hkept, hjob worker hstate, hkept,
            Worker.expired, Worker.living, Worker.busy, hstate, hout, hlive]

theorem JobState.code_inj {a b : JobState} (h : a.code = b.code) : a = b := by
  have hcode := JobState.ofCode_code a
  rw [h, JobState.ofCode_code] at hcode
  exact (Option.some.inj hcode).symm

/-- The rows of the jobs in a state. -/
theorem countP_jobRows (state : JobState) (jobs : Scheduler) :
    (jobsListing jobs).countP (·.state == state.code)
      = countIn state jobs.jobs := by
  unfold jobsListing countIn
  rw [(List.mergeSort_perm _ _).countP_eq, List.countP_map]
  refine List.countP_congr fun job _ => ?_
  simp only [Function.comp_apply, jobSummary, beq_iff_eq]
  exact ⟨JobState.code_inj, congrArg JobState.code⟩

theorem sum_jobRows (field : JobSummary → Nat) (jobs : Scheduler) :
    ((jobsListing jobs).map field).sum
      = (jobs.jobs.map fun job => field (jobSummary job)).sum := by
  unfold jobsListing
  rw [((List.mergeSort_perm _ _).map field).sum_eq, List.map_map]
  rfl

end Faultline
