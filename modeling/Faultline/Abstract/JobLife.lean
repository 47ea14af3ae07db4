/-
The life of one job, as the log tells it.

`Job.Valid` is the snapshot invariant: which fields are set, and in which
order the timestamps stand, in each of the five states. `JobStep` is the
event alphabet's meaning on a single record: the job-model call an event
stands for takes the old snapshot to exactly the new one. Creation has no
old snapshot and is not a `JobStep`; `jobInit` starts the life.

Every later fact about a step is read off one inversion lemma per event
(`jobStep_assigned` and its siblings), each of which says what the old
record had to be and gives the new one in full.
-/
import Faultline.Job

namespace Faultline

-- ========================================== snapshot invariant

/-- What the current state says about the other fields. -/
def Job.StateFields (job : Job) : Prop :=
  match job.state with
  | .queued =>
      job.workerId = 0 ∧ job.attempt = job.retryCount.toUInt64
        ∧ job.result = [] ∧ job.assignedAtMs = jobTimeUnset
        ∧ job.startedAtMs = jobTimeUnset ∧ job.finishedAtMs = jobTimeUnset
        ∧ job.createdAtMs ≤ job.updatedAtMs
        ∧ (job.retryCount = 0 →
            job.failure = .none ∧ job.updatedAtMs = job.createdAtMs)
        ∧ (job.retryCount ≠ 0 → job.failure ≠ .none)
  | .assigned =>
      job.workerId ≠ 0 ∧ job.attempt = job.retryCount.toUInt64 + 1
        ∧ job.result = [] ∧ job.failure = .none
        ∧ job.startedAtMs = jobTimeUnset ∧ job.finishedAtMs = jobTimeUnset
        ∧ job.createdAtMs ≤ job.assignedAtMs
        ∧ job.updatedAtMs = job.assignedAtMs
  | .running =>
      job.workerId ≠ 0 ∧ job.attempt = job.retryCount.toUInt64 + 1
        ∧ job.result = [] ∧ job.failure = .none
        ∧ job.finishedAtMs = jobTimeUnset
        ∧ job.createdAtMs ≤ job.assignedAtMs
        ∧ job.assignedAtMs ≤ job.startedAtMs
        ∧ job.updatedAtMs = job.startedAtMs
  | .done =>
      job.workerId ≠ 0 ∧ job.attempt = job.retryCount.toUInt64 + 1
        ∧ job.failure = .none
        ∧ job.createdAtMs ≤ job.assignedAtMs
        ∧ job.assignedAtMs ≤ job.startedAtMs
        ∧ job.startedAtMs ≤ job.finishedAtMs
        ∧ job.updatedAtMs = job.finishedAtMs
  | .failed =>
      job.workerId ≠ 0 ∧ job.attempt = job.retryCount.toUInt64 + 1
        ∧ job.result = [] ∧ job.failure ≠ .none
        ∧ job.retryCount = job.maxRetries
        ∧ job.createdAtMs ≤ job.assignedAtMs
        ∧ job.assignedAtMs ≤ job.finishedAtMs
        ∧ (job.startedAtMs = jobTimeUnset
            ∨ job.assignedAtMs ≤ job.startedAtMs
              ∧ job.startedAtMs ≤ job.finishedAtMs)
        ∧ job.updatedAtMs = job.finishedAtMs

/-- A snapshot the scheduler may hold. -/
structure Job.Valid (job : Job) : Prop where
  id_ne : job.id ≠ 0
  arguments_le : job.arguments.length ≤ jobMaxArgumentSize
  result_le : job.result.length ≤ jobMaxResultSize
  retries_le : job.retryCount ≤ job.maxRetries
  created_nonneg : 0 ≤ job.createdAtMs
  fields : job.StateFields

/-- A snapshot's last change is not before its creation. -/
theorem Job.Valid.created_le {job : Job} (h : job.Valid) :
    job.createdAtMs ≤ job.updatedAtMs := by
  have hf := h.fields
  unfold Job.StateFields at hf
  cases hs : job.state <;> simp only [hs] at hf <;> grind

/-- A timestamp that is unset or a point in time. -/
def TimeOk (t : Int64) : Prop := t = jobTimeUnset ∨ 0 ≤ t

/-- Every timestamp of a valid snapshot is unset or a point in time. -/
theorem Job.Valid.times {job : Job} (h : job.Valid) :
    TimeOk job.createdAtMs ∧ TimeOk job.updatedAtMs
      ∧ TimeOk job.assignedAtMs ∧ TimeOk job.startedAtMs
      ∧ TimeOk job.finishedAtMs := by
  have hc := h.created_nonneg
  have hu := h.created_le
  have hf := h.fields
  unfold Job.StateFields at hf
  unfold TimeOk
  cases hs : job.state <;> simp only [hs] at hf <;> grind

/-- The attempt number, counted without wraparound. -/
theorem Job.Valid.attempt_toNat {job : Job} (h : job.Valid) :
    job.attempt.toNat
      = job.retryCount.toNat + if job.state = .queued then 0 else 1 := by
  have hf := h.fields
  have hr := job.retryCount.toNat_lt
  have hsucc : (job.retryCount.toUInt64 + 1).toNat
      = job.retryCount.toNat + 1 := by
    rw [UInt64.toNat_add, UInt32.toNat_toUInt64]
    exact Nat.mod_eq_of_lt (by simp; omega)
  unfold Job.StateFields at hf
  cases hs : job.state with
  | queued =>
      simp only [hs] at hf
      rw [hf.2.1, UInt32.toNat_toUInt64]
      rfl
  | assigned =>
      simp only [hs] at hf
      rw [hf.2.1, hsucc]
      rfl
  | running =>
      simp only [hs] at hf
      rw [hf.2.1, hsucc]
      rfl
  | done =>
      simp only [hs] at hf
      rw [hf.2.1, hsucc]
      rfl
  | failed =>
      simp only [hs] at hf
      rw [hf.2.1, hsucc]
      rfl

/-- An attempt that has begun has a number. -/
theorem Job.Valid.attempt_ne {job : Job} (h : job.Valid)
    (hstate : job.state ≠ .queued) : job.attempt ≠ 0 := by
  have hcount := h.attempt_toNat
  intro hzero
  rw [hzero, if_neg hstate] at hcount
  simp at hcount

/-- A fresh job is a valid snapshot. -/
theorem jobInit_valid {id : UInt64} {code : UInt16} {args : List UInt8}
    {retries : UInt32} {now : Int64} {job : Job}
    (h : jobInit id code args retries now = .ok job) : job.Valid := by
  obtain ⟨hid, hnow, hargs, task, -, rfl⟩ := jobInit_ok_iff.mp h
  refine ⟨hid, hargs, Nat.zero_le _, UInt32.zero_le, hnow, ?_⟩
  simp [Job.StateFields]

-- ============================================== job-level steps

/-- The job-model call `event` stands for takes `old` to `new`. -/
def JobStep (event : JobEvent) (old new : Job) : Prop :=
  match event with
  | .created => False
  | .assigned => jobAssign old new.workerId new.updatedAtMs = .ok new
  | .started =>
      jobStart old new.workerId new.attempt new.updatedAtMs = .ok new
  | .completed =>
      jobComplete old new.workerId new.attempt new.result new.updatedAtMs
        = .ok new
  | .requeued =>
      jobFail old old.workerId new.attempt new.failure new.updatedAtMs
        = .ok new ∧ new.state = .queued
  | .failed =>
      jobFail old old.workerId new.attempt new.failure new.updatedAtMs
        = .ok new ∧ new.state = .failed

variable {event : JobEvent} {old new : Job}

theorem jobStep_assigned (h : JobStep .assigned old new) :
    old.state = .queued ∧ ∃ worker now, worker ≠ 0 ∧ 0 ≤ now
      ∧ old.updatedAtMs ≤ now
      ∧ new = { old with
          state := .assigned, workerId := worker,
          attempt := old.attempt + 1, assignedAtMs := now,
          updatedAtMs := now, failure := .none } := by
  obtain ⟨hstate, hnow, hle, hw, heq⟩ := jobAssign_ok_iff.mp h
  exact ⟨hstate, _, _, hw, hnow, hle, heq⟩

theorem jobStep_started (h : JobStep .started old new) :
    old.state = .assigned ∧ ∃ now, 0 ≤ now ∧ old.updatedAtMs ≤ now
      ∧ new = { old with
          state := .running, startedAtMs := now, updatedAtMs := now } := by
  obtain ⟨hstate, hnow, hle, -, -, -, -, heq⟩ := jobStart_ok_iff.mp h
  exact ⟨hstate, _, hnow, hle, heq⟩

theorem jobStep_completed (h : JobStep .completed old new) :
    old.state = .running ∧ ∃ now data, 0 ≤ now ∧ old.updatedAtMs ≤ now
      ∧ data.length ≤ jobMaxResultSize
      ∧ new = { old with
          result := data, state := .done, finishedAtMs := now,
          updatedAtMs := now } := by
  obtain ⟨hstate, hnow, hle, -, -, -, -, hdata, heq⟩ :=
    jobComplete_ok_iff.mp h
  exact ⟨hstate, _, _, hnow, hle, hdata, heq⟩

theorem jobStep_requeued (h : JobStep .requeued old new) :
    old.state.active = true ∧ old.retryCount < old.maxRetries
      ∧ ∃ now failure, 0 ≤ now ∧ old.updatedAtMs ≤ now ∧ failure ≠ .none
      ∧ new = { old with
          state := .queued, updatedAtMs := now, failure,
          retryCount := old.retryCount + 1, workerId := 0,
          assignedAtMs := jobTimeUnset, startedAtMs := jobTimeUnset,
          finishedAtMs := jobTimeUnset } := by
  obtain ⟨hok, hstate⟩ := h
  obtain ⟨hact, hnow, hle, -, -, -, -, hfail, heq⟩ := jobFail_ok_iff.mp hok
  unfold failedAttempt at heq
  split at heq
  · rename_i hlt
    exact ⟨hact, hlt, _, _, hnow, hle, hfail, heq⟩
  · rw [heq] at hstate
    cases hstate

theorem jobStep_failed (h : JobStep .failed old new) :
    old.state.active = true ∧ ¬ old.retryCount < old.maxRetries
      ∧ ∃ now failure, 0 ≤ now ∧ old.updatedAtMs ≤ now ∧ failure ≠ .none
      ∧ new = { old with
          state := .failed, updatedAtMs := now, failure,
          finishedAtMs := now } := by
  obtain ⟨hok, hstate⟩ := h
  obtain ⟨hact, hnow, hle, -, -, -, -, hfail, heq⟩ := jobFail_ok_iff.mp hok
  unfold failedAttempt at heq
  split at heq
  · rw [heq] at hstate
    cases hstate
  · rename_i hlt
    exact ⟨hact, hlt, _, _, hnow, hle, hfail, heq⟩

/-- The state an event leaves its job in. -/
def JobEvent.Leaves (event : JobEvent) (job : Job) : Prop :=
  match event with
  | .created => job.state = .queued ∧ job.retryCount = 0
  | .requeued => job.state = .queued ∧ job.retryCount ≠ 0
  | .assigned => job.state = .assigned
  | .started => job.state = .running
  | .completed => job.state = .done
  | .failed => job.state = .failed

theorem JobStep.leaves (h : JobStep event old new) : event.Leaves new := by
  cases event with
  | created => cases h
  | assigned =>
      obtain ⟨-, _, _, -, -, -, rfl⟩ := jobStep_assigned h
      rfl
  | started =>
      obtain ⟨-, _, -, -, rfl⟩ := jobStep_started h
      rfl
  | completed =>
      obtain ⟨-, _, _, -, -, -, rfl⟩ := jobStep_completed h
      rfl
  | requeued =>
      obtain ⟨-, hlt, _, _, -, -, -, rfl⟩ := jobStep_requeued h
      exact ⟨rfl, by grind⟩
  | failed =>
      obtain ⟨-, -, _, _, -, -, -, rfl⟩ := jobStep_failed h
      rfl

theorem jobInit_leaves {id : UInt64} {code : UInt16} {args : List UInt8}
    {retries : UInt32} {now : Int64} {job : Job}
    (h : jobInit id code args retries now = .ok job) :
    JobEvent.created.Leaves job := by
  obtain ⟨-, -, -, task, -, rfl⟩ := jobInit_ok_iff.mp h
  exact ⟨rfl, rfl⟩

/-- Nothing happens to a job that is done or failed. -/
theorem JobStep.not_terminal
    (hold : old.state = .done ∨ old.state = .failed) :
    ¬ JobStep event old new := by
  intro h
  have hquiet : old.state ≠ .queued ∧ old.state.active = false := by
    rcases hold with hs | hs <;> rw [hs] <;> exact ⟨by simp, rfl⟩
  cases event with
  | created => cases h
  | assigned => exact hquiet.1 (jobStep_assigned h).1
  | started =>
      rw [(jobStep_started h).1] at hquiet
      cases hquiet.2
  | completed =>
      rw [(jobStep_completed h).1] at hquiet
      cases hquiet.2
  | requeued =>
      rw [(jobStep_requeued h).1] at hquiet
      cases hquiet.2
  | failed =>
      rw [(jobStep_failed h).1] at hquiet
      cases hquiet.2

-- ===================================== what a step never changes

/-- The fields fixed at creation. -/
structure SameJob (old new : Job) : Prop where
  id_eq : new.id = old.id
  task_eq : new.taskType = old.taskType
  arguments_eq : new.arguments = old.arguments
  retries_eq : new.maxRetries = old.maxRetries
  created_eq : new.createdAtMs = old.createdAtMs

theorem SameJob.trans {a b c : Job} (h₁ : SameJob a b) (h₂ : SameJob b c) :
    SameJob a c :=
  ⟨h₂.id_eq.trans h₁.id_eq, h₂.task_eq.trans h₁.task_eq,
    h₂.arguments_eq.trans h₁.arguments_eq,
    h₂.retries_eq.trans h₁.retries_eq,
    h₂.created_eq.trans h₁.created_eq⟩

theorem JobStep.same (h : JobStep event old new) : SameJob old new := by
  cases event with
  | created => cases h
  | assigned =>
      obtain ⟨-, _, _, -, -, -, rfl⟩ := jobStep_assigned h
      exact ⟨rfl, rfl, rfl, rfl, rfl⟩
  | started =>
      obtain ⟨-, _, -, -, rfl⟩ := jobStep_started h
      exact ⟨rfl, rfl, rfl, rfl, rfl⟩
  | completed =>
      obtain ⟨-, _, _, -, -, -, rfl⟩ := jobStep_completed h
      exact ⟨rfl, rfl, rfl, rfl, rfl⟩
  | requeued =>
      obtain ⟨-, -, _, _, -, -, -, rfl⟩ := jobStep_requeued h
      exact ⟨rfl, rfl, rfl, rfl, rfl⟩
  | failed =>
      obtain ⟨-, -, _, _, -, -, -, rfl⟩ := jobStep_failed h
      exact ⟨rfl, rfl, rfl, rfl, rfl⟩

/-- No retry count below the budget wraps when it is charged. -/
theorem toNat_succ {retries budget : UInt32} (h : retries < budget) :
    (retries + 1).toNat = retries.toNat + 1 := by
  have hlt : retries.toNat < budget.toNat := h
  have hb := budget.toNat_lt
  rw [UInt32.toNat_add]
  exact Nat.mod_eq_of_lt (by simp; omega)

theorem toUInt64_succ {retries budget : UInt32} (h : retries < budget) :
    (retries + 1).toUInt64 = retries.toUInt64 + 1 := by
  apply UInt64.toNat.inj
  have hr := toNat_succ h
  have hb := (retries + 1).toNat_lt
  rw [UInt32.toNat_toUInt64, hr, UInt64.toNat_add, UInt32.toNat_toUInt64]
  exact (Nat.mod_eq_of_lt (by simp; omega)).symm

/-- Steps keep snapshots valid. -/
theorem JobStep.valid (h : JobStep event old new) (hold : old.Valid) :
    new.Valid := by
  obtain ⟨hid, hargs, hres, hretry, hcreated, hfields⟩ := hold
  unfold Job.StateFields at hfields
  cases event with
  | created => cases h
  | assigned =>
      obtain ⟨hs, w, now, hw, hnow, hle, rfl⟩ := jobStep_assigned h
      simp only [hs] at hfields
      refine ⟨hid, hargs, hres, hretry, hcreated, ?_⟩
      simp only [Job.StateFields]
      grind
  | started =>
      obtain ⟨hs, now, hnow, hle, rfl⟩ := jobStep_started h
      simp only [hs] at hfields
      refine ⟨hid, hargs, hres, hretry, hcreated, ?_⟩
      simp only [Job.StateFields]
      grind
  | completed =>
      obtain ⟨hs, now, data, hnow, hle, hdata, rfl⟩ := jobStep_completed h
      simp only [hs] at hfields
      refine ⟨hid, hargs, hdata, hretry, hcreated, ?_⟩
      simp only [Job.StateFields]
      grind
  | requeued =>
      obtain ⟨hact, hlt, now, f, hnow, hle, hf, rfl⟩ := jobStep_requeued h
      have hsucc := toUInt64_succ hlt
      refine ⟨hid, hargs, hres, by grind, hcreated, ?_⟩
      simp only [Job.StateFields]
      cases hs : old.state <;> simp only [hs] at hfields hact <;>
        simp only [JobState.active] at hact <;> grind
  | failed =>
      obtain ⟨hact, hlt, now, f, hnow, hle, hf, rfl⟩ := jobStep_failed h
      refine ⟨hid, hargs, hres, hretry, hcreated, ?_⟩
      simp only [Job.StateFields]
      cases hs : old.state <;> simp only [hs] at hfields hact <;>
        simp only [JobState.active] at hact <;> grind

end Faultline
