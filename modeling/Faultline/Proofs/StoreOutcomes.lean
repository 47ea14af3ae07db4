/-
What one store operation can do, and what it never does.

`StoreOp.transition` is the change an operation prepares; with an OK it is
published whole, behind one durable record. `plan_fatal` says that an
operation on a healthy store plans to fail only because of its clock: the
queue errors and missing jobs the code guards against do not occur. Every
store that was opened on some log, and used since, is healthy or latched
(`Running.standing`), so both hold for every operation of every run.
-/
import Faultline.Proofs.SessionRuns

namespace Faultline

open Lib StoreCtx Scheduler

variable {store store' : CoordinatorStore} {entries : List WalEntry}
  {entry : WalEntry} {l l' : Ledger} {op : StoreOp} {c c' : StoreCtx}
  {m : Machine} {raw time nowMs : Int64}

-- ==================================================== operations

/-- The operations that log what they do. -/
def StoreOp.logs : StoreOp → Bool
  | .heartbeat _ _ _ => false
  | .markDead _ _ => false
  | _ => true

/-- A raw reading the job clock refuses: negative, before the session,
too late to represent, or behind the last job time. -/
def CoordinatorStore.RefusesClock (store : CoordinatorStore) (raw : Int64) :
    Prop :=
  raw < 0 ∨ raw < store.sessionStartMs
    ∨ 0x7fffffffffffffff - store.timeBaseMs < raw - store.sessionStartMs
    ∨ store.timeBaseMs + (raw - store.sessionStartMs) < store.lastJobTimeMs

theorem CoordinatorStore.jobTime_none_iff :
    store.jobTime raw = none ↔ store.RefusesClock raw := by
  unfold CoordinatorStore.jobTime CoordinatorStore.RefusesClock
  split
  · rename_i h
    simp only [Bool.or_eq_true, decide_eq_true_eq] at h
    grind
  · rename_i h
    simp only [Bool.or_eq_true, decide_eq_true_eq, not_or] at h
    split <;> grind

/-- The clock check of an operation fails. -/
def StoreOp.RefusesClock (store : CoordinatorStore) : StoreOp → Prop
  | .register _ nowMs => nowMs < 0
  | .submit _ nowMs => store.RefusesClock nowMs
  | .assign _ nowMs => store.RefusesClock nowMs
  | .report _ _ nowMs => store.RefusesClock nowMs
  | .workerLost _ nowMs => store.RefusesClock nowMs
  | _ => False

/-- The prepared transition: the tables, the job time and the output an
operation publishes once its record is durable. -/
def StoreOp.transition (store : CoordinatorStore) :
    StoreOp → Option (Scheduler × WorkerRegistry × Int64 × StoreOutput)
  | .register fd nowMs =>
      match workerRegister store.workers fd nowMs with
      | .error _ => none
      | .ok (id, workers) =>
          some (store.jobs, workers, store.lastJobTimeMs, .workerId id)
  | .submit payload nowMs =>
      (store.jobTime nowMs).bind fun time =>
        match schedulerSubmit store.jobs payload time with
        | (.ok, jobs, some id) => some (jobs, store.workers, time, .jobId id)
        | _ => none
  | .assign workerId nowMs =>
      (store.jobTime nowMs).bind fun time =>
        match schedulerAssign store.jobs workerId time with
        | (.ok, jobs, some candidate) =>
            some (jobs, store.workers, time, .assignment candidate)
        | _ => none
  | .report workerId message nowMs =>
      (store.jobTime nowMs).bind fun time =>
        match schedulerReport store.jobs workerId message time with
        | (.ok, jobs) => some (jobs, store.workers, time, .none)
        | _ => none
  | .workerLost workerId nowMs =>
      (store.jobTime nowMs).bind fun time =>
        match schedulerWorkerLost store.jobs workerId time with
        | (.ok, jobs) => some (jobs, store.workers, time, .none)
        | _ => none
  | _ => none

/-- What a store publishes of a transition. -/
def CoordinatorStore.published (store : CoordinatorStore)
    (output : StoreOutput) :
    Scheduler × WorkerRegistry × Int64 × StoreOutput :=
  (store.jobs, store.workers, store.lastJobTimeMs, output)

-- ======================================================== plans

/-- How the plan of a logging operation on a healthy store relates to its
transition: it publishes the transition, or refuses, or its clock failed. -/
inductive StoreOp.Decides (store : CoordinatorStore) (op : StoreOp) :
    Plan → Prop where
  | refused {result : StoreResult}
      (why : result = .rejected ∨ result = .empty) :
      Decides store op (.quiet result store)
  | clock (why : op.RefusesClock store) :
      Decides store op (.quiet .fatal (store.fail .clock))
  | publishes {entry : WalEntry}
      {publish : CoordinatorStore → CoordinatorStore} {output : StoreOutput}
      (changes : ∀ s, SamePublished s store →
        op.transition store = some ((publish s).published output))
      (keeps : ∀ s, (publish s).writeResult = s.writeResult) :
      Decides store op (.append entry publish output)

/-- A committed job event publishes its own time. -/
theorem jobPlan_decides {event : JobEvent} {job : Job} {output : StoreOutput}
    (h : op.transition store
      = some (store.jobs.commit event job, store.workers, job.updatedAtMs,
          output)) :
    op.Decides store (jobPlan store event job output) := by
  refine .publishes (fun s hs => ?_) fun s => rfl
  rw [h, CoordinatorStore.published, ← hs.workers]

section Healthy

variable (h : Agrees store entries l)
include h

/-- Every stored job was last changed before a time the clock accepts. -/
theorem Agrees.times_le (htime : store.jobTime raw = some time) :
    0 ≤ time ∧ ∀ k ∈ store.jobs.jobs, k.updatedAtMs ≤ time := by
  obtain ⟨-, hboard, hclock⟩ := h.rep
  have hinv := h.run.inv Ledger.inv_init
  have hle := (CoordinatorStore.jobTime_some htime).1
  rw [hclock] at hle
  refine ⟨Int64.le_trans hinv.clock_nonneg hle, fun k hk => ?_⟩
  refine Int64.le_trans (hinv.times_le k ?_) hle
  rw [← hboard]
  exact hk

theorem submit_decides (husable : store.usable = true)
    (payload : JobSubmitPayload) (nowMs : Int64) :
    (StoreOp.submit payload nowMs).Decides store
      ((StoreOp.submit payload nowMs).plan store) := by
  obtain ⟨hrep, -, -⟩ := h.rep
  cases htime : store.jobTime nowMs with
  | none =>
      simp only [StoreOp.plan, husable, htime]
      exact .clock (CoordinatorStore.jobTime_none_iff.mp htime)
  | some time =>
      rcases schedulerSubmit_cases hrep.fits payload time with
        ⟨result, hne, heq⟩ | ⟨job, hinit, hroom, heq⟩
      · have hqueue := submit_noQueueError hrep payload time
        rw [heq] at hqueue
        simp only [StoreOp.plan, husable, htime, heq]
        cases result <;> first
          | exact absurd rfl hne
          | exact absurd rfl hqueue
          | exact .refused (Or.inl rfl)
      · obtain ⟨b', hstep⟩ := submit_step hrep hinit hroom
        simp only [StoreOp.plan, husable, htime, heq,
          (commitPlan_step hrep hstep).2]
        refine jobPlan_decides ?_
        rw [(jobInit_self hinit).2.1]
        simp only [StoreOp.transition, htime, Option.bind_some, heq]

theorem assign_decides (husable : store.usable = true) (workerId : UInt32)
    (nowMs : Int64) :
    (StoreOp.assign workerId nowMs).Decides store
      ((StoreOp.assign workerId nowMs).plan store) := by
  obtain ⟨hrep, -, -⟩ := h.rep
  cases halive : workerIsAlive store.workers workerId with
  | false =>
      simp only [StoreOp.plan, husable, halive]
      exact .refused (Or.inl rfl)
  | true =>
  cases htime : store.jobTime nowMs with
  | none =>
      simp only [StoreOp.plan, husable, halive, htime]
      exact .clock (CoordinatorStore.jobTime_none_iff.mp htime)
  | some time =>
      obtain ⟨hnonneg, htimes⟩ := h.times_le htime
      rcases schedulerAssign_cases store.jobs workerId time with
        ⟨result, hne, heq⟩ | ⟨old, job, hw, hidle, hfront, hslot, hassign, heq⟩
      · have hresults := assign_results hrep (workerIsAlive_slot halive).1
          hnonneg htimes
        rw [heq] at hresults
        simp only [StoreOp.plan, husable, halive, htime, heq]
        rcases hresults with rfl | rfl | rfl
        · exact absurd rfl hne
        · exact .refused (Or.inr rfl)
        · exact .refused (Or.inl rfl)
      · obtain ⟨-, b', hstep⟩ := assign_step hw hidle hfront hslot hassign
        obtain ⟨-, -, -, -, hjob⟩ := jobAssign_ok_iff.mp hassign
        simp only [StoreOp.plan, husable, halive, htime, heq,
          (commitPlan_step hrep hstep).2]
        refine jobPlan_decides ?_
        rw [show job.updatedAtMs = time by rw [hjob]]
        simp only [StoreOp.transition, htime, Option.bind_some, heq]

theorem report_decides (husable : store.usable = true) (workerId : UInt32)
    (message : Message) (nowMs : Int64) :
    (StoreOp.report workerId message nowMs).Decides store
      ((StoreOp.report workerId message nowMs).plan store) := by
  obtain ⟨hrep, -, -⟩ := h.rep
  cases halive : workerIsAlive store.workers workerId with
  | false =>
      simp only [StoreOp.plan, husable, halive]
      exact .refused (Or.inl rfl)
  | true =>
  cases hactive : schedulerActive store.jobs workerId with
  | none =>
      simp only [StoreOp.plan, husable, halive, hactive]
      exact .refused (Or.inl rfl)
  | some active =>
  cases htime : store.jobTime nowMs with
  | none =>
      simp only [StoreOp.plan, husable, halive, hactive, htime]
      exact .clock (CoordinatorStore.jobTime_none_iff.mp htime)
  | some time =>
      simp only [StoreOp.plan, husable, halive, hactive, htime]
      by_cases hok :
          (schedulerReport store.jobs workerId message time).1 = .ok
      · obtain ⟨job, b', -, -, happly, heq, hplan⟩ :=
          reportPlan_ok hrep hactive hok
        simp only [heq, hplan]
        refine jobPlan_decides ?_
        rw [applyReport_time happly]
        simp only [StoreOp.transition, htime, Option.bind_some, heq]
      · have hqueue := report_noQueueError hrep workerId message time
        generalize schedulerReport store.jobs workerId message time = prepared
          at hok hqueue
        obtain ⟨result, scratch⟩ := prepared
        cases result <;> first
          | exact absurd rfl hok
          | exact absurd rfl hqueue
          | exact .refused (Or.inl rfl)

/-- The loss of a worker, also before the store is opened. -/
theorem lossPlan_decides (workerId : UInt32) (nowMs : Int64) :
    (StoreOp.workerLost workerId nowMs).Decides store
      (lossPlan store workerId nowMs) := by
  obtain ⟨hrep, -, -⟩ := h.rep
  cases hactive : schedulerActive store.jobs workerId with
  | none =>
      simp only [lossPlan, hactive]
      exact .refused (Or.inr rfl)
  | some old =>
  cases htime : store.jobTime nowMs with
  | none =>
      simp only [lossPlan, hactive, htime]
      exact .clock (CoordinatorStore.jobTime_none_iff.mp htime)
  | some time =>
      obtain ⟨hnonneg, htimes⟩ := h.times_le htime
      obtain ⟨-, hmem, rfl, hact⟩ := schedulerActive_some hactive
      have hupdated := failedAttempt_time old .workerLost time
      have hfail := jobFail_active (hrep.inv.valid old hmem) hact hnonneg
        (htimes old hmem)
      have hlost := workerLost_accepted hrep hmem hact hnonneg
        (htimes old hmem)
      have hplan := (lossPlan_ok hrep hactive (hupdated ▸ htime)
        (hupdated.symm ▸ hfail) (hupdated.symm ▸ hlost)).2
      rw [hplan]
      refine jobPlan_decides ?_
      rw [hupdated]
      simp only [StoreOp.transition, htime, Option.bind_some, hlost]

/-- A logging operation on a healthy store publishes its transition,
refuses, or its clock fails. -/
theorem StoreOp.decides (husable : store.usable = true)
    (hop : op.logs = true) : op.Decides store (op.plan store) := by
  cases op with
  | register fd nowMs =>
      by_cases hnow : nowMs < 0
      · simp only [StoreOp.plan, husable, hnow]
        exact .clock hnow
      cases hok : workerRegister store.workers fd nowMs with
      | error e =>
          simp only [StoreOp.plan, husable, hnow, hok]
          exact .refused (Or.inl rfl)
      | ok registered =>
          simp only [StoreOp.plan, husable, hnow, hok]
          refine .publishes (fun s hs => ?_) fun s => rfl
          simp only [StoreOp.transition, CoordinatorStore.published, hok,
            hs.jobs, hs.clock]
  | submit payload nowMs => exact submit_decides h husable payload nowMs
  | assign workerId nowMs => exact assign_decides h husable workerId nowMs
  | report workerId message nowMs =>
      exact report_decides h husable workerId message nowMs
  | workerLost workerId nowMs =>
      simp only [StoreOp.plan, husable]
      exact lossPlan_decides h workerId nowMs
  | heartbeat workerId fd nowMs => cases hop
  | markDead workerId fd => cases hop

end Healthy

-- ============================================== running stores

/-- A store that some open made or refused, after any operations and
perhaps a close. Between two calls the environment may change, the disk
may not. -/
inductive StoreCtx.Running : StoreCtx → Prop where
  | fresh (m : Machine) : Running ⟨storeInit, m⟩
  | opened {initializing : Bool} {nowMs : Int64} {m : Machine}
      {result : StoreResult} {c : StoreCtx}
      (run : storeOpen initializing nowMs ⟨storeInit, m⟩ = .done result c) :
      Running c
  | operation {c c' : StoreCtx} {op : StoreOp} {m : Machine}
      {out : StoreResult × StoreOutput} (before : Running c)
      (disk : m.disk = c.machine.disk)
      (run : op.run ⟨c.store, m⟩ = .done out c') : Running c'
  | closed {c c' : StoreCtx} {m : Machine} {result : StoreResult}
      (before : Running c) (disk : m.disk = c.machine.disk)
      (run : storeClose ⟨c.store, m⟩ = .done result c') : Running c'

/-- No internal failure is latched, and no append was refused. -/
structure CoordinatorStore.Sound (store : CoordinatorStore) : Prop where
  failure : store.failure ≠ .internal
  writeResult : store.writeResult = .ok ∨ store.writeResult = .ioError

/-- Every store is disabled, or stands on the durable log of its history. -/
structure StoreCtx.Standing (c : StoreCtx) : Prop where
  sound : c.store.Sound
  healthy : c.store.usable = true →
    ∃ entries l, Logged c.store entries l ∧ c.machine.disk = logDisk entries

-- ===================================================== recovery

/-- A store in startup recovery: healthy, and its clock stands still. -/
structure StoreCtx.Recovers (nowMs : Int64) (c : StoreCtx) : Prop where
  logged : ∃ entries l, Logged c.store entries l
    ∧ c.machine.disk = logDisk entries
  failure : c.store.failure = .none
  writeResult : c.store.writeResult = .ok
  clock : c.store.jobTime nowMs = some c.store.lastJobTimeMs

/-- Recovery ended in a failed append. -/
def StoreCtx.LossFailed (c : StoreCtx) : Prop :=
  c.store.failure = .wal ∧ c.store.writeResult = .ioError

theorem jobTime_congr {s t : CoordinatorStore}
    (hbase : s.timeBaseMs = t.timeBaseMs)
    (hstart : s.sessionStartMs = t.sessionStartMs)
    (hlast : s.lastJobTimeMs = t.lastJobTimeMs) :
    s.jobTime raw = t.jobTime raw := by
  unfold CoordinatorStore.jobTime
  rw [hbase, hstart, hlast]

/-- Recovering an active job of the table. -/
theorem commitLoss_recovers {job : Job} (hact : job.state.active = true) :
    Prog.Triple (fun c => c.Recovers nowMs ∧ job ∈ c.store.jobs.jobs)
      (commitWorkerLoss job.workerId nowMs)
      (fun r c => r = .ok ∧ c.Recovers nowMs ∨ r = .fatal ∧ c.LossFailed)
      (fun c => c.store.Sound) := by
  intro c hc
  obtain ⟨h, hjob⟩ := hc
  obtain ⟨entries, l, hlog, hdisk⟩ := h.logged
  obtain ⟨hnonneg, -⟩ := hlog.agrees.times_le h.clock
  obtain ⟨hplan, heff⟩ :=
    lossPlan_active hlog.agrees hjob hact h.clock hnonneg rfl
  refine (commitWorkerLoss_spec False (n := 0) hlog heff).conseq
    (fun _ hc => hc) ?_ ?_ c ⟨hdisk, rfl, False.elim⟩
  · intro r c' hperf
    generalize hout : (r, StoreOutput.none) = out at hperf
    rw [hplan, jobPlan] at hperf
    cases hperf with
    | quiet heq => cases heq
    | committed heq step logged session here =>
        injection heq with hentry hpublish
        subst hentry hpublish
        have hlast : c'.store.lastJobTimeMs = c.store.lastJobTimeMs := by
          rw [here.store]
          exact failedAttempt_time _ _ _
        refine Or.inl ⟨congrArg Prod.fst hout, ⟨_, _, logged, here.disk⟩,
          session.1.trans h.failure, ?_, ?_⟩
        · rw [here.store]
          rfl
        · rw [jobTime_congr session.2.2.1 session.2.2.2 hlast, hlast]
          exact h.clock
    | broke heq step hbad hstore disk =>
        obtain ⟨w, hstore⟩ := hstore
        refine Or.inr ⟨congrArg Prod.fst hout, ?_⟩
        unfold StoreCtx.LossFailed
        rw [hstore]
        simp [CoordinatorStore.broken, CoordinatorStore.fail, h.failure]
  · intro c' hstop
    obtain ⟨w, hstore⟩ := hstop.store_eq
    refine ⟨?_, ?_⟩ <;> rw [hstore]
    · simp [h.failure]
    · exact Or.inl h.writeResult

/-- The recovery loop finishes, or ends in a failed append. -/
theorem recoverFrom_recovers :
    ∀ left i : Nat, Prog.Triple (fun c => c.Recovers nowMs)
      (recoverFrom nowMs left i)
      (fun r c => r = .ok ∧ c.Recovers nowMs ∨ r = .fatal ∧ c.LossFailed)
      (fun c => c.store.Sound)
  | 0, i => Prog.Triple.pure fun _ h => Or.inl ⟨rfl, h⟩
  | left + 1, i => by
      intro c h
      unfold recoverFrom
      rw [Prog.bind_run, getStore_run]
      cases hget : c.store.jobs.jobs[i]? with
      | none =>
          simp only [hget]
          exact Or.inl ⟨rfl, h⟩
      | some job =>
          by_cases hact : job.state.active = true
          · simp only [hget, hact, if_true]
            refine Prog.Triple.bind (commitLoss_recovers hact)
              (fun r c hc => ?_) c ⟨h, List.mem_of_getElem? hget⟩
            rcases hc with ⟨rfl, h'⟩ | ⟨rfl, hfailed⟩
            · obtain ⟨entries, l, hlog, hdisk⟩ := h'.logged
              exact recoverFrom_recovers left (i + 1) _
                ⟨⟨entries, l, ⟨hlog.agrees.of_same ⟨rfl, rfl, rfl⟩,
                  hlog.state, hlog.next⟩, hdisk⟩, h'.failure,
                  h'.writeResult, h'.clock⟩
            · exact Or.inr ⟨rfl, hfailed⟩
          · simp only [hget, hact]
            exact recoverFrom_recovers left (i + 1) c h

-- ====================================================== opening

/-- The store and machine when the session's clock has been started. -/
def StoreCtx.started (nowMs : Int64) (c : StoreCtx) : StoreCtx :=
  { c with store := { c.store with
      sessionStartMs := nowMs, lastJobTimeMs := c.store.timeBaseMs } }

/-- Opening a log publishes a store that can recover, or fails closed. -/
def StoreCtx.LogOpened (nowMs : Int64) (r : StoreResult) (c : StoreCtx) :
    Prop :=
  r = .ok ∧ c.store.opened = false ∧ (c.started nowMs).Recovers nowMs
  ∨ r = .fatal ∧ c.store.failure = .open ∧ c.store.Sound

/-- A clock that is started reads its base. -/
theorem Recovers.of_started (entries : List WalEntry) (l : Ledger)
    (hnow : 0 ≤ nowMs)
    (hlog : Logged (c.started nowMs).store entries l)
    (hdisk : c.machine.disk = logDisk entries)
    (hfailure : c.store.failure = .none)
    (hwrite : c.store.writeResult = .ok) :
    (c.started nowMs).Recovers nowMs := by
  have hclock := hlog.agrees.rep.2.2
  have hnonneg := (hlog.agrees.run.inv Ledger.inv_init).clock_nonneg
  rw [← hclock] at hnonneg
  exact ⟨⟨entries, l, hlog, hdisk⟩, hfailure, hwrite,
    CoordinatorStore.jobTime_start hnow hnonneg rfl rfl rfl⟩

theorem createLog_opened (hnow : 0 ≤ nowMs) :
    Prog.Triple (fun c => c.store = storeInit) createLog
      (StoreCtx.LogOpened nowMs) (fun c => c.store.Sound) := by
  intro c hc
  have hcreate := onWal_triple
    (steps_create_closed walWriterInit_closed c.machine) storeInit
  refine Prog.Triple.bind (hcreate.conseq (fun _ hc => hc)
    (fun _ _ hc => hc) ?_) (fun r c hc => ?_) c ⟨hc, rfl⟩
  · rintro c ⟨w, -, rfl⟩
    exact ⟨by simp [storeInit], Or.inl rfl⟩
  · obtain ⟨w, ⟨rfl, hdisk, hwriter⟩ | ⟨rfl, -⟩, rfl⟩ := hc
    · refine Or.inl ⟨rfl, rfl, Recovers.of_started [] .init
        hnow ⟨⟨.nil, rfl, fun slot halive => ?_⟩, ?_, ?_⟩ hdisk rfl rfl⟩
      · simp [StoreCtx.started, storeInit, worker_init, unusedWorker] at halive
      all_goals
        simp only [StoreCtx.started, hwriter]
        rfl
    · exact Or.inr ⟨rfl, rfl, StoreFailure.noConfusion, Or.inr rfl⟩

/-- A store that no open has changed beyond its writer. -/
structure CoordinatorStore.Untouched (store : CoordinatorStore) : Prop where
  failure : store.failure = .none
  writeResult : store.writeResult = .ok
  opened : store.opened = false

/-- A replay fails closed. -/
theorem replayLog_closed :
    Prog.Triple (fun c => c.store.Untouched) replayLog
      (fun r c => r = .ok ∧ c.store.Untouched
        ∨ r = .fatal ∧ c.store.failure = .open ∧ c.store.Sound)
      (fun c => c.store.Untouched) := by
  have hkeeps {α : Type} (p : Prog WalCtx α) :=
    onWal_keeps p (K := CoordinatorStore.Untouched)
      fun _ _ h => ⟨h.failure, h.writeResult, h.opened⟩
  have hfails {store : CoordinatorStore} (h : store.Untouched) :
      (store.fail .open).failure = .open ∧ (store.fail .open).Sound := by
    have hfail : store.fail .open = { store with failure := .open } := by
      simp [CoordinatorStore.fail, h.failure]
    rw [hfail]
    exact ⟨rfl, by simp, Or.inl h.writeResult⟩
  refine Prog.Triple.bind (hkeeps _) fun r c hc => ?_
  cases r with
  | error e => exact Or.inr ⟨rfl, hfails ⟨hc.failure, hc.writeResult, hc.opened⟩⟩
  | ok u =>
      refine Prog.Triple.bind (hkeeps _) (fun r c hc => ?_) c hc
      obtain ⟨result, report, state⟩ := r
      cases state with
      | none =>
          exact Or.inr ⟨rfl, hfails ⟨hc.failure, hc.writeResult, hc.opened⟩⟩
      | some state => exact Or.inl ⟨rfl, hc.failure, hc.writeResult, hc.opened⟩

/-- There is nothing to replay without a file. -/
theorem replayLog_absent :
    Prog.Triple
      (fun c => c.store = storeInit ∧ c.machine.disk.present = false)
      replayLog (fun r _ => r ≠ .ok) (fun _ => True) := by
  rintro c ⟨hstore, hp⟩
  have hcall := onWal_triple (show Calls False (fun _ => True)
      (At False c.machine.disk c.machine.offset walWriterInit (3 + 1))
      WalCtx.call (At False c.machine.disk c.machine.offset walWriterInit 3)
    from calls_call trivial) storeInit
  refine Prog.Triple.bind (hcall.conseq (fun _ hc => hc) (fun _ _ hc => hc)
    fun _ _ => trivial) (fun r c₁ hc₁ => ?_) c ⟨hstore, rfl, rfl, rfl,
      False.elim⟩
  obtain ⟨w, ⟨rfl, hat⟩ | ⟨errno, rfl, -⟩, rfl⟩ := hc₁
  swap
  · simp [Prog.bind_run]
  have hopen := onWal_triple
    (walReplayOpen_absent (o := c.machine.offset) walWriterInit_closed hp)
    storeInit
  have hwriter : ({ storeInit with wal := w.writer } : CoordinatorStore)
      = storeInit := by
    rw [hat.writer]
    rfl
  refine Prog.Triple.bind (hopen.conseq (fun _ hc => hc) (fun _ _ hc => hc)
    fun _ _ => trivial) (fun r c₂ hc₂ => ?_) _ ⟨hwriter, hat.disk, hat.offset,
      rfl, False.elim⟩
  obtain ⟨result, report, state⟩ := r
  obtain ⟨w₂, rfl, rfl⟩ := hc₂
  simp [Prog.bind_run, publishRecovered]

theorem CoordinatorStore.Untouched.sound (h : store.Untouched) :
    store.Sound :=
  ⟨by simp [h.failure], Or.inl h.writeResult⟩

theorem storeInit_untouched : storeInit.Untouched := ⟨rfl, rfl, rfl⟩

theorem replayLog_opened (hnow : 0 ≤ nowMs) :
    Prog.Triple (fun c => c.store = storeInit) replayLog
      (StoreCtx.LogOpened nowMs) (fun c => c.store.Sound) := by
  intro c hc
  have hclosed : Prog.Triple (· = c) replayLog _ _ :=
    replayLog_closed.from (hc ▸ storeInit_untouched)
  cases hp : c.machine.disk.present with
  | false =>
      have habsent : Prog.Triple (· = c) replayLog _ _ :=
        replayLog_absent.from ⟨hc, hp⟩
      refine (hclosed.and habsent).conseq (fun _ h => h) (fun r c' h => ?_)
        (fun _ h => h.1.sound) c rfl
      exact Or.inr (h.1.resolve_left fun hok => h.2 hok.1)
  | true =>
      have hspec : Prog.Triple (· = c) replayLog _ _ :=
        (replayLog_spec False (n := 0) hp).from ⟨rfl, hc, False.elim⟩
      refine (hclosed.and hspec).conseq (fun _ h => h) (fun r c' h => ?_)
        (fun _ h => h.1.sound) c rfl
      rcases h.2 with ⟨rfl, entries, tail, l, holds, hat⟩ | ⟨rfl, -, hne, -⟩
      · refine Or.inl ⟨rfl, ?_, Recovers.of_started entries l
          hnow ?_ hat.disk ?_ ?_⟩
        · rw [hat.store]
          rfl
        · unfold StoreCtx.started
          rw [hat.store]
          exact replayedStore_logged tail holds.run nowMs
        · rw [hat.store]
          rfl
        · rw [hat.store]
          rfl
      · refine Or.inr (h.1.resolve_left fun hok => ?_)
        exact absurd hok.1 (by simp)

/-- The returns of an open: a healthy store, or a latched failure. -/
def StoreCtx.Opened (r : StoreResult) (c : StoreCtx) : Prop :=
  r = .ok ∧ c.store.usable = true ∧ c.store.Sound
    ∧ (∃ entries l, Logged c.store entries l
        ∧ c.machine.disk = logDisk entries)
  ∨ r = .fatal ∧ c.store.failure ≠ .none ∧ c.store.Sound

/-- Recovery, started on an open log. -/
theorem startSession_opened :
    Prog.Triple (fun c => c.store.opened = false
        ∧ (c.started nowMs).Recovers nowMs)
      (startSession nowMs) StoreCtx.Opened (fun c => c.store.Sound) := by
  rintro c ⟨-, hc⟩
  refine Prog.Triple.bind (recoverFrom_recovers
    c.store.jobs.jobs.length 0) (fun r c' hc' => ?_) (c.started nowMs) hc
  rcases hc' with ⟨rfl, h⟩ | ⟨rfl, hfailure, hwrite⟩
  · obtain ⟨entries, l, hlog, hdisk⟩ := h.logged
    refine Or.inl ⟨rfl, ?_, ⟨?_, Or.inl h.writeResult⟩, entries, l,
      ⟨hlog.agrees.of_same ⟨rfl, rfl, rfl⟩, hlog.state, hlog.next⟩, hdisk⟩
    · simp [CoordinatorStore.usable, h.failure]
    · simp [h.failure]
  · refine Or.inr ⟨rfl, ?_, ?_, Or.inr hwrite⟩ <;> simp [hfailure]

/-- An open of a fresh store. -/
theorem storeOpen_opened (initializing : Bool) (nowMs : Int64) :
    Prog.Triple (fun c => c.store = storeInit) (storeOpen initializing nowMs)
      StoreCtx.Opened (fun c => c.store.Sound) := by
  intro c hc
  unfold storeOpen
  rw [Prog.bind_run, getStore_run]
  simp only [hc]
  by_cases hnow : nowMs < 0
  · rw [if_pos hnow]
    refine Or.inr ⟨rfl, ?_, ?_, ?_⟩ <;> simp only [hc]
    · exact StoreFailure.noConfusion
    · exact StoreFailure.noConfusion
    · exact Or.inl rfl
  rw [if_neg hnow]
  have hnow' : 0 ≤ nowMs := Int64.not_lt.mp hnow
  have hlog : Prog.Triple (fun c => c.store = storeInit)
      (openLog initializing) (StoreCtx.LogOpened nowMs)
      (fun c => c.store.Sound) := by
    cases initializing with
    | true => exact createLog_opened hnow'
    | false => exact replayLog_opened hnow'
  refine Prog.Triple.bind hlog (fun r c hc => ?_) c hc
  rcases hc with ⟨rfl, hopened⟩ | ⟨rfl, hfailure, hsound⟩
  · exact startSession_opened c hopened
  · exact Or.inr ⟨rfl, by simp [hfailure], hsound⟩

-- ================================================== operations

/-- An operation returns once it has been answered often enough. -/
theorem StoreOp.run_returns (op : StoreOp)
    (h : appendRoom ≤ answers c.machine.script) :
    ∃ out c', op.run c = .done out c' := by
  rw [op.run_eq]
  cases op.plan c.store with
  | quiet result store => exact ⟨_, _, rfl⟩
  | append entry publish output =>
      have hret := append_returns ⟨c.store.wal.nextSequence, entry⟩ 0
        ⟨c.store.wal, c.machine⟩
        (show 0 + appendRoom ≤ _ from (Nat.zero_add _).symm ▸ h)
      simp only [Plan.run, append, Prog.bind_run, getStore_run, onWal,
        Prog.zoom]
      cases hrun : walWriterAppend ⟨c.store.wal.nextSequence, entry⟩
          ⟨c.store.wal, c.machine⟩ with
      | crash w =>
          rw [hrun] at hret
          exact hret.elim
      | done result w => cases result <;> exact ⟨_, _, rfl⟩

/-- A disabled store refuses to log. -/
theorem StoreOp.plan_disabled (hop : op.logs = true)
    (h : store.usable = false) : op.plan store = .quiet .fatal store := by
  cases op with
  | heartbeat workerId fd nowMs => cases hop
  | markDead workerId fd => cases hop
  | _ =>
      simp only [StoreOp.plan, h]
      rfl

/-- The other operations only touch the registry. -/
theorem StoreOp.plan_unlogged (store : CoordinatorStore)
    (hop : op.logs = false) :
    ∃ result workers, result ≠ .fatal
      ∧ op.plan store = .quiet result { store with workers } := by
  cases op with
  | heartbeat workerId fd nowMs =>
      simp only [StoreOp.plan, registryPlan]
      split <;> exact ⟨_, _, by simp, rfl⟩
  | markDead workerId fd =>
      simp only [StoreOp.plan, registryPlan]
      split <;> exact ⟨_, _, by simp, rfl⟩
  | _ => cases hop

/-- A logging operation on a healthy store: its whole transition behind one
record, a refusal, a failed clock or a failed append. -/
inductive StoreOp.Ends (op : StoreOp) (c : StoreCtx) :
    StoreResult × StoreOutput → StoreCtx → Prop where
  | refused {result : StoreResult}
      (why : result = .rejected ∨ result = .empty) :
      Ends op c (result, .none) c
  | clock (why : op.RefusesClock c.store) :
      Ends op c (.fatal, .none)
        { c with store := { c.store with failure := .clock } }
  | committed {entry : WalEntry} {output : StoreOutput} {c' : StoreCtx}
      (valid : entry.encodable = true)
      (file : c'.machine.disk.file = c.machine.disk.file
        ++ recordBytes ⟨c.store.wal.nextSequence, entry⟩)
      (synced : c'.machine.disk.synced = c'.machine.disk.file.length)
      (sequence : c'.store.wal.syncedSequence = c.store.wal.nextSequence)
      (changes : op.transition c.store = some (c'.store.published output)) :
      Ends op c (.ok, output) c'
  | broke {c' : StoreCtx} {wal : WalWriter}
      (store : c'.store = { c.store with
        wal, writeResult := .ioError, failure := .wal }) :
      Ends op c (.fatal, .none) c'

theorem StoreCtx.Standing.ends (h : c.Standing) (hop : op.logs = true)
    (hm : m.disk = c.machine.disk) (husable : c.store.usable = true) :
    Prog.Triple (· = ⟨c.store, m⟩) op.run
      (fun out c' => op.Ends ⟨c.store, m⟩ out c' ∧ c'.Standing)
      (fun c' => c'.store.Sound) := by
  intro c₀ hc₀
  subst hc₀
  obtain ⟨entries, l, hlog, hdisk⟩ := h.healthy husable
  have hfailure : c.store.failure = .none := by
    simpa using c.store.failure_of_usable husable
  have hdecides := op.decides hlog.agrees husable hop
  have heff := hlog.agrees.planned (op.plan_cases hlog.agrees.rep.1)
  rw [op.run_eq]
  simp only
  generalize op.plan c.store = plan at hdecides heff
  cases hdecides with
  | refused why =>
      exact ⟨.refused why, h.sound, fun _ => ⟨entries, l, hlog, hm.trans hdisk⟩⟩
  | clock why =>
      have hfail : c.store.fail .clock
          = { c.store with failure := .clock } := by
        simp [CoordinatorStore.fail, hfailure]
      rw [hfail, Plan.run_quiet]
      refine ⟨.clock why, ⟨by simp, h.sound.writeResult⟩, fun hu => ?_⟩
      simp [CoordinatorStore.usable] at hu
  | @publishes entry publish output changes keeps =>
      have hwal : (publish c.store.appended).wal = c.store.appended.wal := by
        cases heff with
        | append step agrees session => exact (session _).wal
      refine (plan_spec False (n := 0) hlog heff).conseq
        (fun _ h => h) (fun out c' hperf => ?_) (fun c' hstop => ?_)
        ⟨c.store, m⟩ ⟨hm.trans hdisk, rfl, False.elim⟩
      · cases hperf with
        | quiet heq => cases heq
        | committed heq step logged session here =>
            injection heq with hentry hpublish houtput
            subst hentry hpublish houtput
            refine ⟨.committed
              (step.encodable (hlog.agrees.run.inv Ledger.inv_init))
              ?_ ?_ ?_ ?_, ⟨?_, ?_⟩, fun _ => ⟨_, _, logged, here.disk⟩⟩
            · rw [here.disk, ← logDisk_snoc, hm.trans hdisk, hlog.next]
              rfl
            · rw [here.disk]
              rfl
            · rw [here.store, hwal]
              rfl
            · rw [here.store]
              exact changes _ ⟨rfl, rfl, rfl⟩
            · rw [session.1]
              exact h.sound.failure
            · rw [here.store, keeps]
              exact Or.inl rfl
        | broke heq step hbad hstore disk =>
            obtain ⟨w, hstore⟩ := hstore
            have hbroken : c'.store = { c.store with
                wal := w, writeResult := .ioError, failure := .wal } := by
              rw [hstore]
              simp [CoordinatorStore.broken, CoordinatorStore.fail, hfailure]
            refine ⟨.broke hbroken, ⟨?_, ?_⟩, fun hu => ?_⟩
            · simp [hbroken]
            · simp [hbroken]
            · simp [hbroken, CoordinatorStore.usable] at hu
      · obtain ⟨w, hstore⟩ := hstop.store_eq
        refine ⟨?_, ?_⟩ <;> rw [hstore]
        · exact h.sound.failure
        · exact h.sound.writeResult

theorem CoordinatorStore.Sound.of_fields (h : store.Sound)
    (hfailure : store'.failure = store.failure)
    (hwrite : store'.writeResult = store.writeResult) : store'.Sound :=
  ⟨hfailure ▸ h.failure, hwrite ▸ h.writeResult⟩

/-- An operation that does not log keeps the store standing. -/
theorem StoreCtx.Standing.unlogged (h : c.Standing) (hop : op.logs = false)
    (hm : m.disk = c.machine.disk) :
    Prog.Triple (· = ⟨c.store, m⟩) op.run (fun _ c' => c'.Standing)
      (fun _ => False) := by
  intro c₀ hc₀
  subst hc₀
  obtain ⟨result, workers, -, hplan⟩ := op.plan_unlogged c.store hop
  rw [op.run_eq]
  simp only [hplan, Plan.run_quiet]
  refine ⟨h.sound.of_fields rfl rfl, fun hu => ?_⟩
  obtain ⟨entries, l, hlog, hdisk⟩ := h.healthy hu
  have heff := hlog.agrees.planned (op.plan_cases hlog.agrees.rep.1)
  rw [hplan] at heff
  cases heff with
  | quiet agrees wal opened failure =>
      exact ⟨entries, l, ⟨agrees, hlog.state, hlog.next⟩, hm.trans hdisk⟩

/-- A logging operation on a disabled store. -/
theorem StoreOp.run_disabled (hop : op.logs = true)
    (h : c.store.usable = false) : op.run c = .done (.fatal, .none) c := by
  rw [op.run_eq, op.plan_disabled hop h]
  rfl

/-- Every operation keeps a store standing. -/
theorem StoreCtx.Standing.operation (h : c.Standing)
    (hm : m.disk = c.machine.disk) (op : StoreOp) :
    Prog.Triple (· = ⟨c.store, m⟩) op.run (fun _ c' => c'.Standing)
      (fun c' => c'.store.Sound) := by
  cases hop : op.logs with
  | false =>
      exact (h.unlogged hop hm).conseq (fun _ h => h) (fun _ _ h => h)
        fun _ hf => hf.elim
  | true =>
      cases husable : c.store.usable with
      | true =>
          exact (h.ends hop hm husable).conseq (fun _ h => h)
            (fun _ _ h => h.2) fun _ h => h
      | false =>
          intro c₀ hc₀
          subst hc₀
          rw [op.run_disabled (c := ⟨c.store, m⟩) hop husable]
          exact ⟨h.sound, fun hu => absurd (husable.symm.trans hu) (by simp)⟩

/-- Closing disables a store and latches nothing but a writer's failure. -/
theorem StoreCtx.Standing.close (h : c.Standing) :
    Prog.Triple (· = ⟨c.store, m⟩) storeClose (fun _ c' => c'.Standing)
      (fun c' => c'.store.Sound) := by
  intro c₀ hc₀
  subst hc₀
  refine Prog.Triple.bind ((onWal_keeps walWriterClose
      (K := fun store => store.Sound ∧ store.opened = false)
      fun _ _ h => ⟨h.1.of_fields rfl rfl, h.2⟩).conseq
      (fun _ h => h) (fun _ _ h => h) fun _ h => h.1)
    (fun r c' hc' => ?_) ⟨{ c.store with opened := false }, m⟩
    ⟨h.sound.of_fields rfl rfl, rfl⟩
  have hshut {store : CoordinatorStore} {m : Machine} (hs : store.Sound)
      (ho : store.opened = false) : StoreCtx.Standing ⟨store, m⟩ :=
    ⟨hs, fun hu => by simp [CoordinatorStore.usable, ho] at hu⟩
  have hlatch : (c'.store.fail .wal).Sound
      ∧ (c'.store.fail .wal).opened = false := by
    unfold CoordinatorStore.fail
    split
    · exact ⟨⟨by simp, hc'.1.writeResult⟩, hc'.2⟩
    · exact hc'
  cases r with
  | ok => exact hshut hc'.1 hc'.2
  | _ => exact hshut hlatch.1 hlatch.2

/-- Every running store is standing. -/
theorem StoreCtx.Running.standing (h : c.Running) : c.Standing := by
  induction h with
  | fresh m =>
      exact ⟨storeInit_untouched.sound, fun hu => by cases hu⟩
  | opened run =>
      rcases (storeOpen_opened _ _).done rfl run with
        ⟨-, -, hsound, hlog⟩ | ⟨-, hlatched, hsound⟩
      · exact ⟨hsound, fun _ => hlog⟩
      · refine ⟨hsound, fun hu => absurd ?_ hlatched⟩
        simpa using CoordinatorStore.failure_of_usable _ hu
  | operation before disk run ih =>
      exact (ih.operation disk _).done rfl run
  | closed before disk run ih => exact ih.close.done rfl run

-- =============================================== the guarantees

/-- Run the operations one after the other, whatever they answer. -/
def StoreOp.runEach :
    List StoreOp → Prog StoreCtx (List (StoreResult × StoreOutput))
  | [] => return []
  | op :: ops => do
      let out ← op.run
      let outs ← StoreOp.runEach ops
      return out :: outs

/-- On a disabled store nothing is ever written or synced again, and
whatever would have to be logged is fatal. -/
theorem StoreOp.runEach_disabled (ops : List StoreOp) (m : Machine)
    (h : store.usable = false) :
    ∃ outs store', StoreOp.runEach ops ⟨store, m⟩ = .done outs ⟨store', m⟩
      ∧ outs.length = ops.length
      ∧ ∀ pair ∈ ops.zip outs, pair.1.logs = true →
          pair.2 = (.fatal, .none) := by
  induction ops generalizing store with
  | nil => exact ⟨[], store, rfl, rfl, by simp⟩
  | cons op ops ih =>
      have hfirst : ∃ out store₁, op.run ⟨store, m⟩ = .done out ⟨store₁, m⟩
          ∧ store₁.usable = false
          ∧ (op.logs = true → out = (.fatal, .none)) := by
        cases hop : op.logs with
        | true => exact ⟨_, store, op.run_disabled hop h, h, fun _ => rfl⟩
        | false =>
            obtain ⟨result, workers, -, hplan⟩ := op.plan_unlogged
              store hop
            refine ⟨(result, .none), { store with workers }, ?_, h, by simp⟩
            rw [op.run_eq]
            simp only [hplan, Plan.run_quiet]
      obtain ⟨out, store₁, hrun, husable, hout⟩ := hfirst
      obtain ⟨outs, store', hrest, hlen, houts⟩ := ih husable
      refine ⟨out :: outs, store', ?_, by simp [hlen], ?_⟩
      · unfold StoreOp.runEach
        simp only [Prog.bind_run, hrun, hrest]
        rfl
      · intro pair hpair hlogs
        rw [List.zip_cons_cons, List.mem_cons] at hpair
        rcases hpair with rfl | hpair
        · exact hout hlogs
        · exact houts pair hpair hlogs

/-- An operation that logs is all or nothing, and fails closed. -/
theorem operation_all_or_nothing (c : StoreCtx) (hc : c.Running)
    (op : StoreOp) (hop : op.logs = true) (m : Machine)
    (hm : m.disk = c.machine.disk) :
    (appendRoom ≤ answers m.script →
      ∃ out c', op.run ⟨c.store, m⟩ = .done out c')
    ∧ ∀ result output c',
      op.run ⟨c.store, m⟩ = .done (result, output) c' →
      (result = .ok →
        (∃ entry, entry.encodable = true
          ∧ c'.machine.disk.file = m.disk.file
            ++ recordBytes ⟨c.store.wal.nextSequence, entry⟩)
        ∧ c'.machine.disk.synced = c'.machine.disk.file.length
        ∧ c'.store.wal.syncedSequence = c.store.wal.nextSequence
        ∧ op.transition c.store = some (c'.store.published output))
      ∧ (result = .rejected ∨ result = .empty →
        output = .none ∧ c' = ⟨c.store, m⟩)
      ∧ (result = .fatal →
        output = .none
        ∧ c'.store.published .none = c.store.published .none
        ∧ (c.store.opened = true →
          c'.store.failure ≠ .none
          ∧ ∀ ops m', ∃ outs store',
              StoreOp.runEach ops ⟨c'.store, m'⟩ = .done outs ⟨store', m'⟩
              ∧ outs.length = ops.length
              ∧ ∀ pair ∈ ops.zip outs, pair.1.logs = true →
                  pair.2 = (.fatal, .none))) := by
  refine ⟨fun hroom => op.run_returns hroom, fun result output c' hrun => ?_⟩
  have hlater {store : CoordinatorStore} (h : store.failure ≠ .none)
      (ops : List StoreOp) (m' : Machine) :=
    StoreOp.runEach_disabled ops m' (CoordinatorStore.usable_of_latched h)
  cases husable : c.store.usable with
  | false =>
      rw [op.run_disabled (c := ⟨c.store, m⟩) hop husable] at hrun
      cases hrun
      refine ⟨by simp, by simp, fun _ => ⟨rfl, rfl, fun hopened => ?_⟩⟩
      have hlatched : c.store.failure ≠ .none := by
        intro hnone
        simp [CoordinatorStore.usable, hopened, hnone] at husable
      exact ⟨hlatched, hlater hlatched⟩
  | true =>
      have hends := ((hc.standing.ends hop hm husable).done rfl hrun).1
      generalize hout : (result, output) = out at hends
      cases hends with
      | refused why =>
          cases hout
          refine ⟨?_, fun _ => ⟨rfl, rfl⟩, ?_⟩ <;>
            (intro heq; rw [heq] at why; simp at why)
      | clock why =>
          cases hout
          exact ⟨by simp, by simp, fun _ => ⟨rfl, rfl, fun _ =>
            ⟨by simp, hlater (by simp)⟩⟩⟩
      | committed valid file synced sequence changes =>
          cases hout
          exact ⟨fun _ => ⟨⟨_, valid, file⟩, synced, sequence, changes⟩,
            by simp, by simp⟩
      | broke hstore =>
          cases hout
          refine ⟨by simp, by simp, fun _ => ⟨rfl, ?_, fun _ => ?_⟩⟩
          · rw [hstore]
            rfl
          · have hlatched : c'.store.failure ≠ .none := by simp [hstore]
            exact ⟨hlatched, hlater hlatched⟩

theorem first_submission : ((StoreOp.submit emptyJob 6).run
    ⟨firstStore, firstMachine⟩).returned = some (.ok, .jobId 1) := by
  decide +kernel

theorem operation_all_or_nothing_submission :
    ∃ c', (StoreOp.submit emptyJob 6).run ⟨firstStore, firstMachine⟩
        = .done (.ok, .jobId 1) c'
      ∧ c'.machine.disk.synced = c'.machine.disk.file.length
      ∧ (StoreOp.submit emptyJob 6).transition firstStore
        = some (c'.store.published (.jobId 1)) := by
  obtain ⟨c', hrun⟩ := Outcome.returned_some first_submission
  have h := ((operation_all_or_nothing _ (.opened firstStore_opened)
    (.submit emptyJob 6) rfl firstMachine rfl).2 _ _ c' hrun).1 rfl
  exact ⟨c', hrun, h.2.1, h.2.2.2⟩

/-- What the code guards against in its own tables does not occur. -/
structure CoordinatorStore.Consistent (store : CoordinatorStore) : Prop where
  /-- The queue never refuses. -/
  submit : ∀ payload time,
    (schedulerSubmit store.jobs payload time).1 ≠ .queueError
  assign : ∀ workerId time,
    (schedulerAssign store.jobs workerId time).1 ≠ .queueError
  report : ∀ workerId message time,
    (schedulerReport store.jobs workerId message time).1 ≠ .queueError
  lost : ∀ workerId time,
    (schedulerWorkerLost store.jobs workerId time).1 ≠ .queueError
  /-- A pending head is a stored job that can be assigned. -/
  head : ∀ id workerId nowMs time,
    jobQueuePeek store.jobs.pending = .ok id → workerId ≠ 0 →
    store.jobTime nowMs = some time →
    ∃ old job, store.jobs.jobs[findSlot store.jobs id]? = some old
      ∧ jobAssign old workerId time = .ok job
  /-- An active job can be requeued, or failed for good. -/
  requeue : ∀ old ∈ store.jobs.jobs, old.state.active = true →
    ∀ nowMs time, store.jobTime nowMs = some time →
    (schedulerWorkerLost store.jobs old.workerId time).1 = .ok

theorem Agrees.consistent (h : Agrees store entries l) : store.Consistent := by
  obtain ⟨hrep, -, -⟩ := h.rep
  refine ⟨submit_noQueueError hrep, assign_noQueueError,
    report_noQueueError hrep, workerLost_noQueueError hrep, ?_, ?_⟩
  · intro id workerId nowMs time hpeek hw htime
    obtain ⟨hnonneg, htimes⟩ := h.times_le htime
    exact hrep.head_assignable hpeek hw hnonneg htimes
  · intro old hold hact nowMs time htime
    obtain ⟨hnonneg, htimes⟩ := h.times_le htime
    rw [workerLost_accepted hrep hold hact hnonneg (htimes old hold)]

/-- The internal-error exits are unreachable: no open, startup recovery or
operation latches an internal failure or has an append refused, and a
healthy store fails only through its clock or its log. -/
theorem internal_errors_unreachable :
    (∀ initializing nowMs m,
      (storeOpen initializing nowMs ⟨storeInit, m⟩).state.store.Sound)
    ∧ ∀ c : StoreCtx, c.Running → ∀ (op : StoreOp) (m : Machine),
      m.disk = c.machine.disk →
      c.store.Sound ∧ (op.run ⟨c.store, m⟩).state.store.Sound
      ∧ (c.store.usable = true →
        c.store.Consistent
        ∧ (∀ entry publish output,
            op.plan c.store = .append entry publish output →
            entry.encodable = true)
        ∧ ∀ output c', op.run ⟨c.store, m⟩ = .done (.fatal, output) c' →
          op.RefusesClock c.store
          ∨ c'.store.failure = .wal ∧ c'.store.writeResult = .ioError) := by
  refine ⟨fun initializing nowMs m => ?_, fun c hc op m hm =>
    ⟨hc.standing.sound, ?_, fun husable => ?_⟩⟩
  · have hopen := storeOpen_opened initializing nowMs ⟨storeInit, m⟩ rfl
    cases hrun : storeOpen initializing nowMs ⟨storeInit, m⟩ with
    | crash c =>
        rw [hrun] at hopen
        exact hopen
    | done r c =>
        rw [hrun] at hopen
        rcases hopen with ⟨-, -, hsound, -⟩ | ⟨-, -, hsound⟩ <;> exact hsound
  · have hspec := hc.standing.operation hm op ⟨c.store, m⟩ rfl
    cases hrun : op.run ⟨c.store, m⟩ with
    | crash c' =>
        rw [hrun] at hspec
        exact hspec
    | done out c' =>
        rw [hrun] at hspec
        exact hspec.sound
  · obtain ⟨entries, l, hlog, hdisk⟩ := hc.standing.healthy husable
    refine ⟨hlog.agrees.consistent, fun entry publish output hplan => ?_,
      fun output c' hrun => ?_⟩
    · have heff := hlog.agrees.planned (op.plan_cases hlog.agrees.rep.1)
      rw [hplan] at heff
      cases heff with
      | append step agrees session =>
          exact step.encodable (hlog.agrees.run.inv Ledger.inv_init)
    · cases hop : op.logs with
      | false =>
          obtain ⟨result, workers, hne, hplan⟩ := op.plan_unlogged
            c.store hop
          rw [op.run_eq] at hrun
          simp only [hplan, Plan.run_quiet] at hrun
          cases hrun
          exact absurd rfl hne
      | true =>
          have hends := ((hc.standing.ends hop hm husable).done rfl hrun).1
          generalize hout : (StoreResult.fatal, output) = out at hends
          cases hends with
          | refused why =>
              cases hout
              simp at why
          | clock why => exact Or.inl why
          | committed => cases hout
          | broke hstore =>
              rw [hstore]
              exact Or.inr ⟨rfl, rfl⟩

theorem internal_errors_unreachable_submission :
    firstStore.Consistent
      ∧ ((StoreOp.submit emptyJob 6).run
        ⟨firstStore, firstMachine⟩).state.store.Sound := by
  have h := internal_errors_unreachable.2 _ (.opened firstStore_opened)
    (.submit emptyJob 6) firstMachine rfl
  exact ⟨(h.2.2 rfl).1, h.2.1⟩

end Faultline
