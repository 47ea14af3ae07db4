/-
The job record and its transitions (include/job.h, src/coordinator/job.c).

A job is a coordinator-owned record; each transition checks everything
before it writes, so a rejected call is an error and leaves the record
alone. Arguments and results are the active bytes of their fixed arrays:
`argument_size` and `result_size` are the lengths of these lists. Values
that arrive as raw integers and are range-checked here (the task type of
a submission) stay raw until the check.

Each transition comes with one `_ok_iff` lemma that says exactly when it
succeeds and what record it leaves; nothing later unfolds a transition.
-/
import Mathlib.Data.List.Basic

namespace Faultline

-- ======================================================== types

def jobMaxArgumentSize : Nat := 1024
def jobMaxResultSize : Nat := 1024

/-- `FAULTLINE_JOB_TIME_UNSET`. -/
def jobTimeUnset : Int64 := -1

inductive TaskType where
  | sleep
  | primeCount
  | fibonacci
  | hash
deriving DecidableEq, Repr

/-- The integer a task type is stored and sent as. -/
def TaskType.code : TaskType → UInt16
  | .sleep => 1
  | .primeCount => 2
  | .fibonacci => 3
  | .hash => 4

/-- The range check `SLEEP ≤ task_type ≤ HASH` on a raw task type. -/
def TaskType.ofCode (code : UInt16) : Option TaskType :=
  if code == 1 then some .sleep
  else if code == 2 then some .primeCount
  else if code == 3 then some .fibonacci
  else if code == 4 then some .hash
  else none

inductive JobState where
  | queued
  | assigned
  | running
  | done
  | failed
deriving DecidableEq, Repr

def JobState.code : JobState → UInt16
  | .queued => 1
  | .assigned => 2
  | .running => 3
  | .done => 4
  | .failed => 5

def JobState.ofCode (code : UInt16) : Option JobState :=
  if code == 1 then some .queued
  else if code == 2 then some .assigned
  else if code == 3 then some .running
  else if code == 4 then some .done
  else if code == 5 then some .failed
  else none

inductive JobFailure where
  | none
  | task
  | workerLost
deriving DecidableEq, Repr

def JobFailure.code : JobFailure → UInt16
  | .none => 0
  | .task => 1
  | .workerLost => 2

def JobFailure.ofCode (code : UInt16) : Option JobFailure :=
  if code == 0 then some .none
  else if code == 1 then some .task
  else if code == 2 then some .workerLost
  else Option.none

structure Job where
  id : UInt64
  taskType : TaskType
  arguments : List UInt8
  state : JobState
  /-- Zero while queued; terminal states retain the last owner. -/
  workerId : UInt32
  /-- Zero before assignment, incremented on every assignment. -/
  attempt : UInt64
  retryCount : UInt32
  maxRetries : UInt32
  createdAtMs : Int64
  updatedAtMs : Int64
  assignedAtMs : Int64
  startedAtMs : Int64
  finishedAtMs : Int64
  result : List UInt8
  failure : JobFailure
deriving DecidableEq, Repr

/-- The non-OK members of `enum faultline_job_result`. -/
inductive JobError where
  | invalidArgument
  | payloadTooLarge
  | invalidTransition
  | timeReversed
  | wrongWorker
  | staleAttempt
deriving DecidableEq, Repr

/-- What the log can say about a job: the six job record types. -/
inductive JobEvent where
  | created
  | assigned
  | started
  | completed
  | requeued
  | failed
deriving DecidableEq, Repr

/-- ASSIGNED or RUNNING: some worker holds the job's current attempt. -/
def JobState.active : JobState → Bool
  | .assigned => true
  | .running => true
  | _ => false

-- ================================================== transitions

def jobCanTransition : JobState → JobState → Bool
  | .queued, next => next == .assigned
  | .assigned, next =>
      next == .running || next == .queued || next == .failed
  | .running, next =>
      next == .done || next == .queued || next == .failed
  | _, _ => false

def checkPayload (data : List UInt8) (capacity : Nat) : Except JobError Unit :=
  if data.length > capacity then .error .payloadTooLarge else .ok ()

def checkTransition (job : Job) (next : JobState) (nowMs : Int64) :
    Except JobError Unit :=
  if nowMs < 0 then .error .invalidArgument
  else if !jobCanTransition job.state next then .error .invalidTransition
  else if nowMs < job.updatedAtMs then .error .timeReversed
  else .ok ()

def checkAttempt (job : Job) (workerId : UInt32) (attempt : UInt64) :
    Except JobError Unit :=
  if workerId == 0 || attempt == 0 then .error .invalidArgument
  else if workerId != job.workerId then .error .wrongWorker
  else if attempt != job.attempt then .error .staleAttempt
  else .ok ()

def jobInit (id : UInt64) (taskType : UInt16) (arguments : List UInt8)
    (maxRetries : UInt32) (nowMs : Int64) : Except JobError Job :=
  if id == 0 || nowMs < 0 then .error .invalidArgument
  else
    match TaskType.ofCode taskType with
    | none => .error .invalidArgument
    | some task => do
        checkPayload arguments jobMaxArgumentSize
        .ok { id, taskType := task, arguments, state := .queued,
              workerId := 0, attempt := 0, retryCount := 0, maxRetries,
              createdAtMs := nowMs, updatedAtMs := nowMs,
              assignedAtMs := jobTimeUnset, startedAtMs := jobTimeUnset,
              finishedAtMs := jobTimeUnset, result := [],
              failure := .none }

def jobAssign (job : Job) (workerId : UInt32) (nowMs : Int64) :
    Except JobError Job := do
  checkTransition job .assigned nowMs
  if workerId == 0 then .error .invalidArgument
  else
    .ok { job with
      state := .assigned
      workerId
      attempt := job.attempt + 1
      assignedAtMs := nowMs
      updatedAtMs := nowMs
      failure := .none }

def jobStart (job : Job) (workerId : UInt32) (attempt : UInt64)
    (nowMs : Int64) : Except JobError Job := do
  checkTransition job .running nowMs
  checkAttempt job workerId attempt
  .ok { job with state := .running, startedAtMs := nowMs, updatedAtMs := nowMs }

def jobComplete (job : Job) (workerId : UInt32) (attempt : UInt64)
    (data : List UInt8) (nowMs : Int64) : Except JobError Job := do
  checkTransition job .done nowMs
  checkAttempt job workerId attempt
  checkPayload data jobMaxResultSize
  .ok { job with
    result := data
    state := .done
    finishedAtMs := nowMs
    updatedAtMs := nowMs }

/-- The state `faultline_job_fail` moves to: a retry while any is left. -/
def jobFailNext (job : Job) : JobState :=
  if job.retryCount < job.maxRetries then .queued else .failed

def jobFail (job : Job) (workerId : UInt32) (attempt : UInt64)
    (failure : JobFailure) (nowMs : Int64) : Except JobError Job := do
  if failure != .task && failure != .workerLost then .error .invalidArgument
  else
    checkTransition job (jobFailNext job) nowMs
    checkAttempt job workerId attempt
    if jobFailNext job == .queued then
      .ok { job with
        state := .queued
        updatedAtMs := nowMs
        failure
        retryCount := job.retryCount + 1
        workerId := 0
        assignedAtMs := jobTimeUnset
        startedAtMs := jobTimeUnset
        finishedAtMs := jobTimeUnset }
    else
      .ok { job with
        state := .failed, updatedAtMs := nowMs, failure, finishedAtMs := nowMs }

-- =============================================== what succeeds

@[simp] theorem TaskType.ofCode_code (t : TaskType) :
    TaskType.ofCode t.code = some t := by
  cases t <;> rfl

@[simp] theorem JobState.ofCode_code (s : JobState) :
    JobState.ofCode s.code = some s := by
  cases s <;> rfl

@[simp] theorem JobFailure.ofCode_code (f : JobFailure) :
    JobFailure.ofCode f.code = some f := by
  cases f <;> rfl

/-- A raw task type that passes the range check is that task's code. -/
theorem TaskType.code_of_ofCode {code : UInt16} {t : TaskType}
    (h : TaskType.ofCode code = some t) : t.code = code := by
  grind [TaskType.ofCode, TaskType.code]

theorem JobState.code_of_ofCode {code : UInt16} {s : JobState}
    (h : JobState.ofCode code = some s) : s.code = code := by
  grind [JobState.ofCode, JobState.code]

theorem JobFailure.code_of_ofCode {code : UInt16} {f : JobFailure}
    (h : JobFailure.ofCode code = some f) : f.code = code := by
  grind [JobFailure.ofCode, JobFailure.code]

theorem checkPayload_ok_iff {data : List UInt8} {capacity : Nat} :
    checkPayload data capacity = .ok () ↔ data.length ≤ capacity := by
  unfold checkPayload
  split <;> simp <;> omega

theorem checkTransition_ok_iff {job : Job} {next : JobState} {now : Int64} :
    checkTransition job next now = .ok ()
      ↔ 0 ≤ now ∧ jobCanTransition job.state next = true
        ∧ job.updatedAtMs ≤ now := by
  unfold checkTransition
  split
  · simp; grind
  split
  · simp_all
  split
  · simp; grind
  · simp_all

theorem checkAttempt_ok_iff {job : Job} {worker : UInt32}
    {attempt : UInt64} :
    checkAttempt job worker attempt = .ok ()
      ↔ worker ≠ 0 ∧ attempt ≠ 0 ∧ worker = job.workerId
        ∧ attempt = job.attempt := by
  unfold checkAttempt
  split
  · simp_all; grind
  split
  · simp_all
  split
  · simp_all
  · simp_all

/-- A two-stage check succeeds when both stages do. -/
theorem except_bind_ok_iff {ε α : Type} {check : Except ε Unit}
    {next : Except ε α} {a : α} :
    (check >>= fun _ => next) = .ok a ↔ check = .ok () ∧ next = .ok a := by
  cases check with
  | error e => simp [bind, Except.bind]
  | ok u => simp [bind, Except.bind]

theorem jobInit_ok_iff {id : UInt64} {code : UInt16} {args : List UInt8}
    {retries : UInt32} {now : Int64} {job : Job} :
    jobInit id code args retries now = .ok job
      ↔ id ≠ 0 ∧ 0 ≤ now ∧ args.length ≤ jobMaxArgumentSize
        ∧ ∃ task, TaskType.ofCode code = some task
          ∧ job =
            { id, taskType := task, arguments := args,
              state := .queued, workerId := 0, attempt := 0,
              retryCount := 0, maxRetries := retries, createdAtMs := now,
              updatedAtMs := now, assignedAtMs := jobTimeUnset,
              startedAtMs := jobTimeUnset, finishedAtMs := jobTimeUnset,
              result := [], failure := .none } := by
  unfold jobInit
  split
  · rename_i h
    simp only [Bool.or_eq_true, beq_iff_eq, decide_eq_true_eq] at h
    constructor
    · intro h'; cases h'
    · rintro ⟨hid, hnow, -⟩
      rcases h with h | h
      · exact absurd h hid
      · grind
  · rename_i h
    simp only [Bool.or_eq_true, beq_iff_eq, decide_eq_true_eq,
      not_or] at h
    have hnow : 0 ≤ now := by grind
    cases htask : TaskType.ofCode code with
    | none => simp
    | some task =>
        simp only [except_bind_ok_iff, checkPayload_ok_iff,
          Except.ok.injEq, Option.some.injEq, exists_eq_left', h.1, ne_eq,
          not_false_eq_true, hnow, true_and]
        rw [eq_comm (a := job)]

theorem jobAssign_ok_iff {job job' : Job} {worker : UInt32} {now : Int64} :
    jobAssign job worker now = .ok job'
      ↔ job.state = .queued ∧ 0 ≤ now ∧ job.updatedAtMs ≤ now ∧ worker ≠ 0
        ∧ job' = { job with
            state := .assigned, workerId := worker,
            attempt := job.attempt + 1, assignedAtMs := now,
            updatedAtMs := now, failure := .none } := by
  unfold jobAssign
  rw [except_bind_ok_iff, checkTransition_ok_iff]
  have hcan : jobCanTransition job.state .assigned = true
      ↔ job.state = .queued := by
    cases job.state <;> simp [jobCanTransition]
  rw [hcan]
  split
  · simp_all
  · simp_all only [beq_iff_eq, Except.ok.injEq]
    constructor
    · rintro ⟨⟨h₁, h₂, h₃⟩, rfl⟩
      exact ⟨h₂, h₁, h₃, by assumption, rfl⟩
    · rintro ⟨h₁, h₂, h₃, -, rfl⟩
      exact ⟨⟨h₂, h₁, h₃⟩, rfl⟩

theorem jobStart_ok_iff {job job' : Job} {worker : UInt32}
    {attempt : UInt64} {now : Int64} :
    jobStart job worker attempt now = .ok job'
      ↔ job.state = .assigned ∧ 0 ≤ now ∧ job.updatedAtMs ≤ now
        ∧ worker ≠ 0 ∧ attempt ≠ 0 ∧ worker = job.workerId
        ∧ attempt = job.attempt
        ∧ job' = { job with
            state := .running, startedAtMs := now, updatedAtMs := now } := by
  unfold jobStart
  rw [except_bind_ok_iff, except_bind_ok_iff, checkTransition_ok_iff,
    checkAttempt_ok_iff]
  have hcan : jobCanTransition job.state .running = true
      ↔ job.state = .assigned := by
    cases job.state <;> simp [jobCanTransition]
  rw [hcan, Except.ok.injEq]
  constructor
  · rintro ⟨⟨h₁, h₂, h₃⟩, ⟨h₄, h₅, h₆, h₇⟩, rfl⟩
    exact ⟨h₂, h₁, h₃, h₄, h₅, h₆, h₇, rfl⟩
  · rintro ⟨h₁, h₂, h₃, h₄, h₅, h₆, h₇, rfl⟩
    exact ⟨⟨h₂, h₁, h₃⟩, ⟨h₄, h₅, h₆, h₇⟩, rfl⟩

theorem jobComplete_ok_iff {job job' : Job} {worker : UInt32}
    {attempt : UInt64} {data : List UInt8} {now : Int64} :
    jobComplete job worker attempt data now = .ok job'
      ↔ job.state = .running ∧ 0 ≤ now ∧ job.updatedAtMs ≤ now
        ∧ worker ≠ 0 ∧ attempt ≠ 0 ∧ worker = job.workerId
        ∧ attempt = job.attempt ∧ data.length ≤ jobMaxResultSize
        ∧ job' = { job with
            result := data, state := .done, finishedAtMs := now,
            updatedAtMs := now } := by
  unfold jobComplete
  rw [except_bind_ok_iff, except_bind_ok_iff, except_bind_ok_iff,
    checkTransition_ok_iff, checkAttempt_ok_iff, checkPayload_ok_iff]
  have hcan : jobCanTransition job.state .done = true
      ↔ job.state = .running := by
    cases job.state <;> simp [jobCanTransition]
  rw [hcan, Except.ok.injEq]
  constructor
  · rintro ⟨⟨h₁, h₂, h₃⟩, ⟨h₄, h₅, h₆, h₇⟩, h₈, rfl⟩
    exact ⟨h₂, h₁, h₃, h₄, h₅, h₆, h₇, h₈, rfl⟩
  · rintro ⟨h₁, h₂, h₃, h₄, h₅, h₆, h₇, h₈, rfl⟩
    exact ⟨⟨h₂, h₁, h₃⟩, ⟨h₄, h₅, h₆, h₇⟩, h₈, rfl⟩

/-- The record a failed attempt leaves: back in the queue while a retry
is left, terminal otherwise. -/
def failedAttempt (job : Job) (failure : JobFailure) (nowMs : Int64) : Job :=
  if job.retryCount < job.maxRetries then
    { job with
      state := .queued, updatedAtMs := nowMs, failure,
      retryCount := job.retryCount + 1, workerId := 0,
      assignedAtMs := jobTimeUnset, startedAtMs := jobTimeUnset,
      finishedAtMs := jobTimeUnset }
  else
    { job with
      state := .failed, updatedAtMs := nowMs, failure, finishedAtMs := nowMs }

theorem jobFail_ok_iff {job job' : Job} {worker : UInt32}
    {attempt : UInt64} {failure : JobFailure} {now : Int64} :
    jobFail job worker attempt failure now = .ok job'
      ↔ job.state.active = true ∧ 0 ≤ now ∧ job.updatedAtMs ≤ now
        ∧ worker ≠ 0 ∧ attempt ≠ 0 ∧ worker = job.workerId
        ∧ attempt = job.attempt ∧ failure ≠ .none
        ∧ job' = failedAttempt job failure now := by
  unfold jobFail
  split
  · rename_i h
    cases failure <;> simp_all
  · rename_i h
    have hfail : failure ≠ .none := by
      intro hf
      subst hf
      simp at h
    rw [except_bind_ok_iff, except_bind_ok_iff, checkTransition_ok_iff,
      checkAttempt_ok_iff]
    have hcan : jobCanTransition job.state (jobFailNext job) = true
        ↔ job.state.active = true := by
      unfold jobFailNext
      split <;> cases job.state <;> simp [jobCanTransition, JobState.active]
    have hout : (if jobFailNext job == .queued then
          (.ok { job with
            state := .queued, updatedAtMs := now, failure,
            retryCount := job.retryCount + 1, workerId := 0,
            assignedAtMs := jobTimeUnset, startedAtMs := jobTimeUnset,
            finishedAtMs := jobTimeUnset } : Except JobError Job)
        else
          .ok { job with
            state := .failed, updatedAtMs := now, failure,
            finishedAtMs := now })
        = .ok (failedAttempt job failure now) := by
      unfold jobFailNext failedAttempt
      split <;> rfl
    rw [hcan, hout, Except.ok.injEq]
    constructor
    · rintro ⟨⟨h₁, h₂, h₃⟩, ⟨h₄, h₅, h₆, h₇⟩, rfl⟩
      exact ⟨h₂, h₁, h₃, h₄, h₅, h₆, h₇, hfail, rfl⟩
    · rintro ⟨h₁, h₂, h₃, h₄, h₅, h₆, h₇, -, rfl⟩
      exact ⟨⟨h₂, h₁, h₃⟩, ⟨h₄, h₅, h₆, h₇⟩, rfl⟩

end Faultline
