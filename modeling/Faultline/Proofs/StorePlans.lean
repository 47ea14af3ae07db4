/-
Prepare, append, publish.

Every store operation decides from the store alone what it will do: answer
without I/O, or append one entry and then publish a change. `Plan` is that
decision, `StoreOp.plan` computes it, and `StoreOp.run_eq` says that an
operation is the run of its plan. `StoreOp.plan_cases` then says once what
a plan over a well-formed job table can be; nothing later unfolds one.
-/
import Faultline.Proofs.SchedulerProgress
import Faultline.Store

namespace Faultline

open Lib StoreCtx Scheduler

-- ======================================================== plans

/-- What an operation hands back besides its result. -/
inductive StoreOutput where
  | none
  | workerId (id : UInt32)
  | jobId (id : UInt64)
  | assignment (payload : JobAssignPayload)
deriving DecidableEq, Repr

/-- A call on an open store. -/
inductive StoreOp where
  | register (fd : Int) (nowMs : Int64)
  | submit (payload : JobSubmitPayload) (nowMs : Int64)
  | assign (workerId : UInt32) (nowMs : Int64)
  | report (workerId : UInt32) (message : Message) (nowMs : Int64)
  | workerLost (workerId : UInt32) (nowMs : Int64)
  | heartbeat (workerId : UInt32) (fd : Int) (nowMs : Int64)
  | markDead (workerId : UInt32) (fd : Int)
deriving DecidableEq, Repr

/-- Tag an optional output. -/
def tagged {α : Type} (tag : α → StoreOutput)
    (p : Prog StoreCtx (StoreResult × Option α)) :
    Prog StoreCtx (StoreResult × StoreOutput) := do
  let (result, output) ← p
  return (result, (output.map tag).getD .none)

/-- An update of the registry through its own interface. -/
def updateRegistry
    (update : WorkerRegistry → Except RegistryError WorkerRegistry) :
    Prog StoreCtx (StoreResult × StoreOutput) := do
  let store ← getStore
  match update store.workers with
  | .error _ => return (.rejected, .none)
  | .ok workers => do
      setStore fun store => { store with workers }
      return (.ok, .none)

def StoreOp.run : StoreOp → Prog StoreCtx (StoreResult × StoreOutput)
  | .register fd nowMs => tagged .workerId (storeRegister fd nowMs)
  | .submit payload nowMs => tagged .jobId (storeSubmit payload nowMs)
  | .assign workerId nowMs => tagged .assignment (storeAssign workerId nowMs)
  | .report workerId message nowMs => do
      return (← storeReport workerId message nowMs, .none)
  | .workerLost workerId nowMs => do
      return (← storeWorkerLost workerId nowMs, .none)
  | .heartbeat workerId fd nowMs =>
      updateRegistry (workerHeartbeat · workerId fd nowMs)
  | .markDead workerId fd => updateRegistry (workerMarkDead · workerId fd)

/-- What an operation will do. -/
inductive Plan where
  /-- Answer at once and leave this store. -/
  | quiet (result : StoreResult) (store : CoordinatorStore)
  /-- Append the entry; on success publish and hand out the output. -/
  | append (entry : WalEntry)
      (publish : CoordinatorStore → CoordinatorStore) (output : StoreOutput)

def Plan.run : Plan → Prog StoreCtx (StoreResult × StoreOutput)
  | .quiet result after => do
      setStore fun _ => after
      return (result, .none)
  | .append entry publish output => do
      match ← Faultline.append entry with
      | .ok => do
          setStore publish
          return (.ok, output)
      | _ => return (.fatal, .none)

/-- The plan of a `commitJob`. -/
def commitPlan (store : CoordinatorStore) (scratch : Scheduler) (id : UInt64)
    (event : JobEvent) (output : StoreOutput) : Plan :=
  match schedulerFind scratch id with
  | none => .quiet .fatal (store.fail .internal)
  | some job =>
      .append (.job event job)
        (fun store =>
          { store with jobs := scratch, lastJobTimeMs := job.updatedAtMs })
        output

/-- The plan of a `commitWorkerLoss`. -/
def lossPlan (store : CoordinatorStore) (workerId : UInt32) (nowMs : Int64) :
    Plan :=
  match schedulerActive store.jobs workerId with
  | none => .quiet .empty store
  | some active =>
      match store.jobTime nowMs with
      | none => .quiet .fatal (store.fail .clock)
      | some time =>
          match schedulerWorkerLost store.jobs workerId time with
          | (.ok, scratch) =>
              commitPlan store scratch active.id
                (if candidateState scratch active.id == .queued
                 then .requeued else .failed) .none
          | _ => .quiet .fatal (store.fail .internal)

/-- The plan of a registry update. -/
def registryPlan (store : CoordinatorStore)
    (update : WorkerRegistry → Except RegistryError WorkerRegistry) : Plan :=
  match update store.workers with
  | .error _ => .quiet .rejected store
  | .ok workers => .quiet .ok { store with workers }

def StoreOp.plan (store : CoordinatorStore) : StoreOp → Plan
  | .register fd nowMs =>
      if !store.usable then .quiet .fatal store
      else if nowMs < 0 then .quiet .fatal (store.fail .clock)
      else
        match workerRegister store.workers fd nowMs with
        | .error _ => .quiet .rejected store
        | .ok (id, candidate) =>
            .append (.workerIdAllocated id)
              (fun store => { store with workers := candidate })
              (.workerId id)
  | .submit payload nowMs =>
      if !store.usable then .quiet .fatal store
      else
        match store.jobTime nowMs with
        | none => .quiet .fatal (store.fail .clock)
        | some time =>
            match schedulerSubmit store.jobs payload time with
            | (.ok, scratch, some id) =>
                commitPlan store scratch id .created (.jobId id)
            | (.queueError, _, _) => .quiet .fatal (store.fail .internal)
            | _ => .quiet .rejected store
  | .assign workerId nowMs =>
      if !store.usable then .quiet .fatal store
      else if !workerIsAlive store.workers workerId then
        .quiet .rejected store
      else
        match store.jobTime nowMs with
        | none => .quiet .fatal (store.fail .clock)
        | some time =>
            match schedulerAssign store.jobs workerId time with
            | (.ok, scratch, some candidate) =>
                commitPlan store scratch candidate.identity.jobId .assigned
                  (.assignment candidate)
            | (.empty, _, _) => .quiet .empty store
            | (.workerBusy, _, _) => .quiet .rejected store
            | _ => .quiet .fatal (store.fail .internal)
  | .report workerId message nowMs =>
      if !store.usable then .quiet .fatal store
      else if !workerIsAlive store.workers workerId then
        .quiet .rejected store
      else
        match schedulerActive store.jobs workerId with
        | none => .quiet .rejected store
        | some active =>
            match store.jobTime nowMs with
            | none => .quiet .fatal (store.fail .clock)
            | some time =>
                match schedulerReport store.jobs workerId message time with
                | (.ok, scratch) =>
                    commitPlan store scratch active.id
                      (outcomeEvent (candidateState scratch active.id)) .none
                | (.queueError, _) => .quiet .fatal (store.fail .internal)
                | _ => .quiet .rejected store
  | .workerLost workerId nowMs =>
      if !store.usable then .quiet .fatal store
      else lossPlan store workerId nowMs
  | .heartbeat workerId fd nowMs =>
      registryPlan store (workerHeartbeat · workerId fd nowMs)
  | .markDead workerId fd => registryPlan store (workerMarkDead · workerId fd)

-- ============================================= running the plan

variable {c : StoreCtx} {store : CoordinatorStore}

@[simp] theorem getStore_run : getStore c = .done c.store c := rfl

@[simp] theorem setStore_run {update : CoordinatorStore → CoordinatorStore} :
    setStore update c = .done () { c with store := update c.store } := rfl

@[simp] theorem failStore_run {failure : StoreFailure} :
    failStore failure c
      = .done .fatal { c with store := c.store.fail failure } := rfl

theorem Plan.run_quiet {result : StoreResult} :
    (Plan.quiet result store).run c
      = .done (result, .none) { c with store } := rfl

/-- A commit without an output is its plan. -/
theorem commitJob_run {scratch : Scheduler} {id : UInt64}
    {event : JobEvent} :
    (do return (← commitJob scratch id event, StoreOutput.none)
      : Prog StoreCtx _) c
      = (commitPlan c.store scratch id event .none).run c := by
  unfold commitJob commitPlan
  cases schedulerFind scratch id with
  | none => rfl
  | some job =>
      simp only [Plan.run, Prog.bind_run]
      cases append (.job event job) c with
      | crash c' => rfl
      | done result c' => cases result <;> rfl

/-- A commit with an output is its plan. -/
theorem commitOutput_run {α : Type} {scratch : Scheduler} {id : UInt64}
    {event : JobEvent} (tag : α → StoreOutput) (output : α) :
    tagged tag (commitOutput (commitJob scratch id event) output) c
      = (commitPlan c.store scratch id event (tag output)).run c := by
  unfold tagged commitOutput commitJob commitPlan
  cases schedulerFind scratch id with
  | none => rfl
  | some job =>
      simp only [Plan.run, Prog.bind_run]
      cases append (.job event job) c with
      | crash c' => rfl
      | done result c' => cases result <;> rfl

theorem commitWorkerLoss_run {workerId : UInt32} {nowMs : Int64} :
    (do return (← commitWorkerLoss workerId nowMs, StoreOutput.none)
      : Prog StoreCtx _) c
      = (lossPlan c.store workerId nowMs).run c := by
  unfold commitWorkerLoss lossPlan
  simp only [Prog.bind_run, getStore_run]
  cases schedulerActive c.store.jobs workerId with
  | none => rfl
  | some active =>
      cases c.store.jobTime nowMs with
      | none => rfl
      | some time =>
          simp only
          generalize schedulerWorkerLost c.store.jobs workerId time = lost
          obtain ⟨result, scratch⟩ := lost
          cases result <;> first | exact commitJob_run | rfl

/-- An operation is the run of its plan. -/
theorem StoreOp.run_eq (op : StoreOp) (c : StoreCtx) :
    op.run c = (op.plan c.store).run c := by
  cases op with
  | register fd nowMs =>
      simp only [run, plan, tagged, storeRegister, Prog.bind_run,
        getStore_run]
      cases c.store.usable with
      | false => rfl
      | true =>
          simp only [Bool.not_true, Bool.false_eq_true, if_false]
          by_cases hnow : nowMs < 0
          · rw [if_pos hnow, if_pos hnow]
            rfl
          rw [if_neg hnow, if_neg hnow]
          cases workerRegister c.store.workers fd nowMs with
          | error e => rfl
          | ok registered =>
              obtain ⟨id, candidate⟩ := registered
              simp only [Plan.run, Prog.bind_run]
              cases append (.workerIdAllocated id) c with
              | crash c' => rfl
              | done result c' => cases result <;> rfl
  | submit payload nowMs =>
      simp only [run, plan, tagged, storeSubmit, Prog.bind_run, getStore_run]
      cases c.store.usable with
      | false => rfl
      | true =>
          cases c.store.jobTime nowMs with
          | none => rfl
          | some time =>
              simp only [Bool.not_true, Bool.false_eq_true, if_false]
              generalize schedulerSubmit c.store.jobs payload time = prepared
              obtain ⟨result, scratch, output⟩ := prepared
              cases result <;> cases output <;>
                first | exact commitOutput_run .jobId _ | rfl
  | assign workerId nowMs =>
      simp only [run, plan, tagged, storeAssign, Prog.bind_run, getStore_run]
      cases c.store.usable with
      | false => rfl
      | true =>
          cases workerIsAlive c.store.workers workerId with
          | false => rfl
          | true =>
              cases c.store.jobTime nowMs with
              | none => rfl
              | some time =>
                  simp only [Bool.not_true, Bool.false_eq_true, if_false]
                  generalize schedulerAssign c.store.jobs workerId time
                    = prepared
                  obtain ⟨result, scratch, output⟩ := prepared
                  cases result <;> cases output <;>
                    first | exact commitOutput_run .assignment _ | rfl
  | report workerId message nowMs =>
      simp only [run, plan, storeReport, Prog.bind_run, getStore_run]
      cases c.store.usable with
      | false => rfl
      | true =>
          cases workerIsAlive c.store.workers workerId with
          | false => rfl
          | true =>
              cases schedulerActive c.store.jobs workerId with
              | none => rfl
              | some active =>
                  cases c.store.jobTime nowMs with
                  | none => rfl
                  | some time =>
                      simp only [Bool.not_true, Bool.false_eq_true, if_false]
                      generalize schedulerReport c.store.jobs workerId message
                        time = prepared
                      obtain ⟨result, scratch⟩ := prepared
                      cases result <;> first | exact commitJob_run | rfl
  | workerLost workerId nowMs =>
      simp only [run, plan, storeWorkerLost, Prog.bind_run, getStore_run]
      cases c.store.usable with
      | false => rfl
      | true => exact commitWorkerLoss_run
  | heartbeat workerId fd nowMs =>
      simp only [run, plan, updateRegistry, registryPlan, Prog.bind_run,
        getStore_run]
      cases workerHeartbeat c.store.workers workerId fd nowMs <;> rfl
  | markDead workerId fd =>
      simp only [run, plan, updateRegistry, registryPlan, Prog.bind_run,
        getStore_run]
      cases workerMarkDead c.store.workers workerId fd <;> rfl

-- ===================================== what a plan can be

/-- The assignment message of a job just assigned. -/
def Job.assignment (job : Job) : JobAssignPayload :=
  { identity :=
      { jobId := job.id, workerId := job.workerId, attempt := job.attempt }
    taskType := job.taskType.code
    arguments := job.arguments }

/-- Log a job event and publish its commit. -/
def jobPlan (store : CoordinatorStore) (event : JobEvent) (job : Job)
    (output : StoreOutput) : Plan :=
  .append (.job event job)
    (fun s => { s with
      jobs := store.jobs.commit event job
      lastJobTimeMs := job.updatedAtMs })
    output

/-- The job event an accepted operation records, and its output. -/
def StoreOp.Emits (store : CoordinatorStore) (event : JobEvent) (job : Job)
    (output : StoreOutput) : StoreOp → Prop
  | .submit _ _ => event = .created ∧ output = .jobId job.id
  | .assign workerId _ =>
      event = .assigned ∧ job.workerId = workerId
        ∧ workerIsAlive store.workers workerId = true
        ∧ output = .assignment job.assignment
  | .report workerId message _ =>
      event = outcomeEvent job.state ∧ output = .none
        ∧ ∃ old, schedulerActive store.jobs workerId = some old
          ∧ message.reportIdentity = some
            { jobId := old.id, workerId := old.workerId,
              attempt := old.attempt }
          ∧ applyReport old workerId old.attempt message job.updatedAtMs
            = .ok job
  | .workerLost workerId _ =>
      event = outcomeEvent job.state ∧ output = .none
        ∧ ∃ old, schedulerActive store.jobs workerId = some old
          ∧ jobFail old workerId old.attempt .workerLost job.updatedAtMs
            = .ok job
  | _ => False

/-- Everything an operation's plan can be. -/
inductive StoreOp.Planned (store : CoordinatorStore) (op : StoreOp) :
    Plan → Prop where
  | refused {result : StoreResult} (hne : result ≠ .ok) :
      Planned store op (.quiet result store)
  | latched (failure : StoreFailure)
      (hkind : failure = .clock ∨ failure = .internal)
      (husable : store.usable = true) :
      Planned store op (.quiet .fatal (store.fail failure))
  | heartbeat {workerId : UInt32} {fd : Int} {nowMs : Int64}
      {workers : WorkerRegistry} (hop : op = .heartbeat workerId fd nowMs)
      (hok : workerHeartbeat store.workers workerId fd nowMs = .ok workers) :
      Planned store op (.quiet .ok { store with workers })
  | markDead {workerId : UInt32} {fd : Int} {workers : WorkerRegistry}
      (hop : op = .markDead workerId fd)
      (hok : workerMarkDead store.workers workerId fd = .ok workers) :
      Planned store op (.quiet .ok { store with workers })
  | register {fd : Int} {nowMs : Int64} {id : UInt32}
      {candidate : WorkerRegistry} (hop : op = .register fd nowMs)
      (husable : store.usable = true)
      (hok : workerRegister store.workers fd nowMs = .ok (id, candidate)) :
      Planned store op (.append (.workerIdAllocated id)
        (fun s => { s with workers := candidate }) (.workerId id))
  | job {event : JobEvent} {job : Job} {output : StoreOutput} {b' : Board}
      (husable : store.usable = true)
      (hstep : store.jobs.board.Step event job b')
      (htime : store.lastJobTimeMs ≤ job.updatedAtMs)
      (hemits : op.Emits store event job output) :
      Planned store op (jobPlan store event job output)

theorem CoordinatorStore.jobTime_some {raw time : Int64}
    (h : store.jobTime raw = some time) :
    store.lastJobTimeMs ≤ time
      ∧ time = store.timeBaseMs + (raw - store.sessionStartMs) := by
  unfold CoordinatorStore.jobTime at h
  split at h
  · cases h
  split at h
  · cases h
  · rename_i hlast
    cases h
    exact ⟨Int64.not_lt.mp hlast, rfl⟩

/-- A stored job is found by its id. -/
theorem Scheduler.Rep.find {s : Scheduler} {k : Job} (h : s.Rep)
    (hk : k ∈ s.jobs) : schedulerFind s k.id = some k := by
  unfold schedulerFind
  rw [if_neg (by simpa using (h.inv.valid k hk).id_ne)]
  exact h.slot hk

/-- After a commit the job is found, so the commit is planned. -/
theorem commitPlan_step (hrep : store.jobs.Rep) {event : JobEvent} {job : Job}
    {b' : Board} (hstep : store.jobs.board.Step event job b') :
    schedulerFind (store.jobs.commit event job) job.id = some job
      ∧ ∀ output, commitPlan store (store.jobs.commit event job) job.id event
          output = jobPlan store event job output := by
  obtain ⟨hboard, hrep'⟩ := commit_refines hrep hstep
  have hin : job ∈ (store.jobs.commit event job).jobs := by
    rw [show (store.jobs.commit event job).jobs = b'.jobs from
      congrArg Board.jobs hboard]
    exact hstep.mem_self
  have hfind := hrep'.find hin
  refine ⟨hfind, fun output => ?_⟩
  rw [commitPlan, hfind]
  rfl

/-- A lost attempt is requeued or failed, as its record shows. -/
theorem lossEvent_eq {old job : Job} {workerId : UInt32} {attempt : UInt64}
    {failure : JobFailure} {time : Int64}
    (h : jobFail old workerId attempt failure time = .ok job) :
    (if job.state == .queued then JobEvent.requeued else .failed)
      = outcomeEvent job.state := by
  obtain ⟨-, -, -, -, -, -, -, -, rfl⟩ := jobFail_ok_iff.mp h
  unfold failedAttempt
  split <;> rfl

theorem failedAttempt_time (old : Job) (failure : JobFailure)
    (time : Int64) :
    (failedAttempt old failure time).updatedAtMs = time := by
  unfold failedAttempt
  split <;> rfl

/-- A report's outcome carries the time it was applied. -/
theorem applyReport_time {old job : Job} {workerId : UInt32}
    {attempt : UInt64} {message : Message} {time : Int64}
    (h : applyReport old workerId attempt message time = .ok job) :
    job.updatedAtMs = time := by
  unfold applyReport at h
  split at h
  · obtain ⟨-, -, -, -, -, -, -, rfl⟩ := jobStart_ok_iff.mp h
    rfl
  · obtain ⟨-, -, -, -, -, -, -, -, rfl⟩ := jobComplete_ok_iff.mp h
    rfl
  · split at h
    · cases h
    · obtain ⟨-, -, -, -, -, -, -, -, rfl⟩ := jobFail_ok_iff.mp h
      exact failedAttempt_time _ _ _
  · cases h

section Cases

variable (hrep : store.jobs.Rep)
include hrep

theorem submit_planned {payload : JobSubmitPayload} {nowMs time : Int64}
    (husable : store.usable = true) (htime : store.lastJobTimeMs ≤ time) :
    (StoreOp.submit payload nowMs).Planned store
      (match schedulerSubmit store.jobs payload time with
        | (.ok, scratch, some id) =>
            commitPlan store scratch id .created (.jobId id)
        | (.queueError, _, _) => .quiet .fatal (store.fail .internal)
        | _ => .quiet .rejected store) := by
  rcases schedulerSubmit_cases hrep.fits payload time with
    ⟨result, hne, heq⟩ | ⟨job, hinit, hroom, heq⟩
  · rw [heq]
    cases result <;> first
      | exact absurd rfl hne
      | exact .latched _ (by simp) husable
      | exact .refused (by simp)
  · obtain ⟨b', hstep⟩ := submit_step hrep hinit hroom
    rw [heq]
    simp only [(commitPlan_step hrep hstep).2]
    refine .job husable hstep ?_ ⟨rfl, rfl⟩
    rw [(jobInit_self hinit).2.1]
    exact htime

theorem assign_planned {workerId : UInt32} {nowMs time : Int64}
    (husable : store.usable = true)
    (halive : workerIsAlive store.workers workerId = true)
    (htime : store.lastJobTimeMs ≤ time) :
    (StoreOp.assign workerId nowMs).Planned store
      (match schedulerAssign store.jobs workerId time with
        | (.ok, scratch, some candidate) =>
            commitPlan store scratch candidate.identity.jobId .assigned
              (.assignment candidate)
        | (.empty, _, _) => .quiet .empty store
        | (.workerBusy, _, _) => .quiet .rejected store
        | _ => .quiet .fatal (store.fail .internal)) := by
  rcases schedulerAssign_cases store.jobs workerId time with
    ⟨result, hne, heq⟩ | ⟨old, job, hw, hidle, hfront, hslot, hassign, heq⟩
  · rw [heq]
    cases result <;> first
      | exact absurd rfl hne
      | exact .latched _ (by simp) husable
      | exact .refused (by simp)
  · obtain ⟨-, b', hstep⟩ := assign_step hw hidle hfront hslot hassign
    obtain ⟨-, -, -, -, hjob⟩ := jobAssign_ok_iff.mp hassign
    have hworker : job.workerId = workerId := by rw [hjob]
    rw [heq]
    simp only [(commitPlan_step hrep hstep).2]
    refine .job husable hstep ?_ ⟨rfl, hworker, halive, ?_⟩
    · rw [show job.updatedAtMs = time by rw [hjob]]
      exact htime
    · rw [Job.assignment, hworker]

/-- An accepted report is about the worker's active job, and is committed. -/
theorem reportPlan_ok {workerId : UInt32} {message : Message} {time : Int64}
    {active : Job}
    (hactive : schedulerActive store.jobs workerId = some active)
    (hok : (schedulerReport store.jobs workerId message time).1 = .ok) :
    ∃ job b', store.jobs.board.Step (outcomeEvent job.state) job b'
      ∧ message.reportIdentity = some
        { jobId := active.id, workerId := active.workerId,
          attempt := active.attempt }
      ∧ applyReport active workerId active.attempt message time = .ok job
      ∧ schedulerReport store.jobs workerId message time
        = (.ok, store.jobs.commit (outcomeEvent job.state) job)
      ∧ commitPlan store (store.jobs.commit (outcomeEvent job.state) job)
          active.id
          (outcomeEvent (candidateState
            (store.jobs.commit (outcomeEvent job.state) job) active.id)) .none
        = jobPlan store (outcomeEvent job.state) job .none := by
  obtain ⟨old, job, hold, hact, hworker, hident, happly, hj, hnext⟩ :=
    report_ok hrep hok
  obtain ⟨-, hmem, hown, hactive'⟩ := schedulerActive_some hactive
  -- The reported job is the worker's only active one.
  have hsame : active = old :=
    hrep.owner_unique hmem hold hactive' hact (hown.trans hworker.symm)
  subst hsame
  obtain ⟨b', hstep⟩ := outcome_step hold (outcomeEvent_ne_assigned _) hj
  obtain ⟨hfind, hplan⟩ := commitPlan_step hrep hstep
  have hid : active.id = job.id := hj.same.id_eq.symm
  have hstate : candidateState
      (store.jobs.commit (outcomeEvent job.state) job) active.id
        = job.state := by
    rw [candidateState, hid, hfind]
    rfl
  refine ⟨job, b', hstep, hident, happly, Prod.ext hok hnext, ?_⟩
  rw [hstate, hid]
  exact hplan .none

theorem report_planned {workerId : UInt32} {message : Message}
    {nowMs time : Int64} {active : Job} (husable : store.usable = true)
    (hactive : schedulerActive store.jobs workerId = some active)
    (htime : store.lastJobTimeMs ≤ time) :
    (StoreOp.report workerId message nowMs).Planned store
      (match schedulerReport store.jobs workerId message time with
        | (.ok, scratch) =>
            commitPlan store scratch active.id
              (outcomeEvent (candidateState scratch active.id)) .none
        | (.queueError, _) => .quiet .fatal (store.fail .internal)
        | _ => .quiet .rejected store) := by
  by_cases hok : (schedulerReport store.jobs workerId message time).1 = .ok
  · obtain ⟨job, b', hstep, hident, happly, heq, hplan⟩ :=
      reportPlan_ok hrep hactive hok
    have hupdated := applyReport_time happly
    rw [heq]
    simp only [hplan]
    exact .job husable hstep (hupdated ▸ htime)
      ⟨rfl, rfl, active, hactive, hident, hupdated ▸ happly⟩
  · generalize schedulerReport store.jobs workerId message time = prepared
      at hok
    obtain ⟨result, scratch⟩ := prepared
    cases result <;> first
      | exact absurd rfl hok
      | exact .latched _ (by simp) husable
      | exact .refused (by simp)

/-- An accepted loss is committed. -/
theorem lossPlan_ok {old job : Job} {nowMs : Int64} {workerId : UInt32}
    (hactive : schedulerActive store.jobs workerId = some old)
    (htime : store.jobTime nowMs = some job.updatedAtMs)
    (hfail : jobFail old workerId old.attempt .workerLost job.updatedAtMs
      = .ok job)
    (hlost : schedulerWorkerLost store.jobs workerId job.updatedAtMs
      = (.ok, store.jobs.commit (outcomeEvent job.state) job)) :
    (∃ b', store.jobs.board.Step (outcomeEvent job.state) job b')
      ∧ lossPlan store workerId nowMs
        = jobPlan store (outcomeEvent job.state) job .none := by
  have hj := jobFail_step hfail
  obtain ⟨b', hstep⟩ := outcome_step (schedulerActive_some hactive).2.1
    (outcomeEvent_ne_assigned _) hj
  obtain ⟨hfind, hplan⟩ := commitPlan_step hrep hstep
  refine ⟨⟨b', hstep⟩, ?_⟩
  unfold lossPlan
  simp only [hactive, htime, hlost, candidateState, ← hj.same.id_eq, hfind,
    Option.map_some, Option.getD_some, lossEvent_eq hfail]
  exact hplan _

/-- The plan of a loss, also before the store is opened. -/
theorem lossPlan_cases (workerId : UInt32) (nowMs : Int64) :
    lossPlan store workerId nowMs = .quiet .empty store
    ∨ (∃ failure, (failure = .clock ∨ failure = .internal)
        ∧ lossPlan store workerId nowMs
          = .quiet .fatal (store.fail failure))
    ∨ ∃ old job b', schedulerActive store.jobs workerId = some old
        ∧ jobFail old workerId old.attempt .workerLost job.updatedAtMs
          = .ok job
        ∧ store.jobTime nowMs = some job.updatedAtMs
        ∧ store.jobs.board.Step (outcomeEvent job.state) job b'
        ∧ lossPlan store workerId nowMs
          = jobPlan store (outcomeEvent job.state) job .none := by
  cases hactive : schedulerActive store.jobs workerId with
  | none => exact Or.inl (by simp only [lossPlan, hactive])
  | some active =>
      cases htime : store.jobTime nowMs with
      | none =>
          exact Or.inr (Or.inl ⟨.clock, by simp,
            by simp only [lossPlan, hactive, htime]⟩)
      | some time =>
          rcases schedulerWorkerLost_cases hrep.fits workerId time with
            ⟨result, hne, heq⟩ | ⟨old, job, hold, hfail, heq⟩
          · refine Or.inr (Or.inl ⟨.internal, by simp, ?_⟩)
            simp only [lossPlan, hactive, htime, heq]
            cases result <;> first | exact absurd rfl hne | rfl
          · obtain rfl : active = old :=
              Option.some.inj (hactive.symm.trans hold)
            obtain rfl : job.updatedAtMs = time := by
              obtain ⟨-, -, -, -, -, -, -, -, rfl⟩ := jobFail_ok_iff.mp hfail
              exact failedAttempt_time _ _ _
            obtain ⟨⟨b', hstep⟩, hplan⟩ :=
              lossPlan_ok hrep hactive htime hfail heq
            exact Or.inr (Or.inr
              ⟨active, job, b', rfl, hfail, rfl, hstep, hplan⟩)

/-- Everything an operation on a well-formed job table can plan. -/
theorem StoreOp.plan_cases (op : StoreOp) : op.Planned store (op.plan store) := by
  cases op with
  | register fd nowMs =>
      unfold plan
      by_cases husable : store.usable = true
      · simp only [husable, Bool.not_true, Bool.false_eq_true, if_false]
        by_cases hnow : nowMs < 0
        · rw [if_pos hnow]
          exact .latched _ (by simp) husable
        rw [if_neg hnow]
        cases hok : workerRegister store.workers fd nowMs with
        | error e => exact .refused (by simp)
        | ok registered => exact .register rfl husable hok
      · simp only [husable, Bool.not_false, if_true]
        exact .refused (by simp)
  | submit payload nowMs =>
      unfold plan
      by_cases husable : store.usable = true
      · simp only [husable, Bool.not_true, Bool.false_eq_true, if_false]
        cases htime : store.jobTime nowMs with
        | none => exact .latched _ (by simp) husable
        | some time =>
            exact submit_planned hrep husable
              (CoordinatorStore.jobTime_some htime).1
      · simp only [husable, Bool.not_false, if_true]
        exact .refused (by simp)
  | assign workerId nowMs =>
      unfold plan
      by_cases husable : store.usable = true
      · by_cases halive : workerIsAlive store.workers workerId = true
        · simp only [husable, halive, Bool.not_true, Bool.false_eq_true,
            if_false]
          cases htime : store.jobTime nowMs with
          | none => exact .latched _ (by simp) husable
          | some time =>
              exact assign_planned hrep husable halive
                (CoordinatorStore.jobTime_some htime).1
        · simp only [husable, halive, Bool.not_true, Bool.false_eq_true,
            if_false, Bool.not_false, if_true]
          exact .refused (by simp)
      · simp only [husable, Bool.not_false, if_true]
        exact .refused (by simp)
  | report workerId message nowMs =>
      unfold plan
      by_cases husable : store.usable = true
      · by_cases halive : workerIsAlive store.workers workerId = true
        · simp only [husable, halive, Bool.not_true, Bool.false_eq_true,
            if_false]
          cases hactive : schedulerActive store.jobs workerId with
          | none => exact .refused (by simp)
          | some active =>
              cases htime : store.jobTime nowMs with
              | none => exact .latched _ (by simp) husable
              | some time =>
                  exact report_planned hrep husable hactive
                    (CoordinatorStore.jobTime_some htime).1
        · simp only [husable, halive, Bool.not_true, Bool.false_eq_true,
            if_false, Bool.not_false, if_true]
          exact .refused (by simp)
      · simp only [husable, Bool.not_false, if_true]
        exact .refused (by simp)
  | workerLost workerId nowMs =>
      unfold plan
      by_cases husable : store.usable = true
      · simp only [husable, Bool.not_true, Bool.false_eq_true, if_false]
        rcases lossPlan_cases hrep workerId nowMs with
          heq | ⟨failure, hkind, heq⟩
            | ⟨old, job, b', hactive, hfail, htime, hstep, heq⟩
        · rw [heq]
          exact .refused (by simp)
        · rw [heq]
          exact .latched _ hkind husable
        · rw [heq]
          exact .job husable hstep (CoordinatorStore.jobTime_some htime).1
            ⟨rfl, rfl, old, hactive, hfail⟩
      · simp only [husable, Bool.not_false, if_true]
        exact .refused (by simp)
  | heartbeat workerId fd nowMs =>
      simp only [plan, registryPlan]
      cases hok : workerHeartbeat store.workers workerId fd nowMs with
      | error e => exact .refused (by simp)
      | ok workers => exact .heartbeat rfl hok
  | markDead workerId fd =>
      simp only [plan, registryPlan]
      cases hok : workerMarkDead store.workers workerId fd with
      | error e => exact .refused (by simp)
      | ok workers => exact .markDead rfl hok

end Cases

end Faultline
