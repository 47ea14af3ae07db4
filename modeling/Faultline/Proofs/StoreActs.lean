/-
The store as the event loop sees it.

A live store was opened and stands on the log of its history, or has latched
a failure. `StoreOp.Acts` lists what one operation makes of a live store;
only the published tables and the latch matter here, the machine does not.
-/
import Faultline.Proofs.StoreOutcomes

namespace Faultline

open Lib StoreCtx Scheduler

variable {store store' : CoordinatorStore} {op : StoreOp} {c c' : StoreCtx}
  {out : StoreResult × StoreOutput}

/-- An open store in use. -/
structure StoreCtx.Live (c : StoreCtx) : Prop where
  standing : c.Standing
  opened : c.store.opened = true

/-- What one operation makes of a store. -/
inductive StoreOp.Acts (op : StoreOp) (store : CoordinatorStore) :
    StoreResult × StoreOutput → CoordinatorStore → Prop where
  | refused {result : StoreResult}
      (why : result = .rejected ∨ result = .empty) :
      Acts op store (result, .none) store
  | fatal {wal : WalWriter} {writeResult : WalWriterResult}
      {failure : StoreFailure} (latched : failure ≠ .none) :
      Acts op store (.fatal, .none) { store with wal, writeResult, failure }
  | heartbeat {workerId : UInt32} {fd : Int} {nowMs : Int64}
      {workers : WorkerRegistry} (hop : op = .heartbeat workerId fd nowMs)
      (hok : workerHeartbeat store.workers workerId fd nowMs = .ok workers) :
      Acts op store (.ok, .none) { store with workers }
  | markDead {workerId : UInt32} {fd : Int} {workers : WorkerRegistry}
      (hop : op = .markDead workerId fd)
      (hok : workerMarkDead store.workers workerId fd = .ok workers) :
      Acts op store (.ok, .none) { store with workers }
  | register {fd : Int} {nowMs : Int64} {id : UInt32}
      {workers : WorkerRegistry} {wal : WalWriter}
      (hop : op = .register fd nowMs)
      (hok : workerRegister store.workers fd nowMs = .ok (id, workers)) :
      Acts op store (.ok, .workerId id)
        { store with workers, wal, writeResult := .ok }
  | job {event : JobEvent} {job : Job} {output : StoreOutput} {b' : Board}
      {wal : WalWriter} (rep : store.jobs.Rep)
      (step : store.jobs.board.Step event job b')
      (time : store.lastJobTimeMs ≤ job.updatedAtMs)
      (emits : op.Emits store event job output) :
      Acts op store (.ok, output)
        { store with
          jobs := store.jobs.commit event job
          lastJobTimeMs := job.updatedAtMs
          wal, writeResult := .ok }

/-- An operation never reopens or closes a store. -/
theorem StoreOp.Acts.opened (h : op.Acts store out store') :
    store'.opened = store.opened := by
  cases h <;> rfl

/-- A failure that leaves everything else alone. -/
theorem StoreOp.Acts.latches {failure : StoreFailure}
    (hstore : store' = { store with failure }) (h : failure ≠ .none) :
    op.Acts store (.fatal, .none) store' := by
  rw [hstore]
  exact .fatal h

/-- A latched failure stays. -/
theorem StoreOp.Acts.healthy (h : op.Acts store out store')
    (hnone : store'.failure = .none) : store.failure = .none := by
  cases h with
  | fatal latched => exact absurd hnone latched
  | _ => exact hnone

/-- The registry's own operations. -/
theorem StoreOp.acts_unlogged (hop : op.logs = false)
    (h : op.run c = .done out c') : op.Acts c.store out c'.store := by
  rw [op.run_eq] at h
  cases op with
  | heartbeat workerId fd nowMs =>
      simp only [StoreOp.plan, registryPlan] at h
      cases hbeat : workerHeartbeat c.store.workers workerId fd nowMs with
      | error e =>
          simp only [hbeat] at h
          cases h
          exact .refused (Or.inl rfl)
      | ok workers =>
          simp only [hbeat] at h
          cases h
          exact .heartbeat rfl hbeat
  | markDead workerId fd =>
      simp only [StoreOp.plan, registryPlan] at h
      cases hdead : workerMarkDead c.store.workers workerId fd with
      | error e =>
          simp only [hdead] at h
          cases h
          exact .refused (Or.inl rfl)
      | ok workers =>
          simp only [hdead] at h
          cases h
          exact .markDead rfl hdead
  | _ => cases hop

/-- An operation that logs, on a store that works. -/
theorem StoreCtx.Standing.acts (h : c.Standing) (hop : op.logs = true)
    (husable : c.store.usable = true) (hrun : op.run c = .done out c') :
    op.Acts c.store out c'.store := by
  obtain ⟨hends, -⟩ := (h.ends hop (m := c.machine) rfl husable).done rfl hrun
  cases hends with
  | refused why => exact .refused why
  | clock why =>
      exact StoreOp.Acts.latches rfl (by simp)
  | broke hstore =>
      rw [hstore]
      exact .fatal (by simp)
  | committed valid file synced sequence changes =>
      obtain ⟨entries, l, hlog, hdisk⟩ := h.healthy husable
      have hrep := hlog.agrees.rep.1
      have hplanned := op.plan_cases hrep
      have hperf := (storeOp_spec False (n := 0) hlog op).done
        ⟨hdisk, rfl, False.elim⟩ hrun
      generalize op.plan c.store = plan at hplanned hperf
      cases hplanned with
      | register hop husable hok =>
          cases hperf with
          | committed hplan step logged session here =>
              injection hplan with hentry hpublish houtput
              subst hentry hpublish
              rw [here.store]
              exact .register hop hok
          | quiet hplan => cases hplan
      | job husable hstep htime hemits =>
          cases hperf with
          | committed hplan step logged session here =>
              injection hplan with hentry hpublish houtput
              subst hentry hpublish
              rw [here.store, ← houtput]
              exact .job hrep hstep htime hemits
          | quiet hplan => cases hplan
      | refused hne =>
          cases hperf with
          | quiet hplan =>
              injection hplan with hresult
              exact absurd hresult hne
          | committed hplan => cases hplan
      | latched failure hkind husable =>
          cases hperf with
          | quiet hplan => cases hplan
          | committed hplan => cases hplan
      | heartbeat hop' hok =>
          subst hop'
          cases hop
      | markDead hop' hok =>
          subst hop'
          cases hop

/-- What an operation does to a live store, which stays live. -/
theorem StoreCtx.Live.acts (h : c.Live) (hrun : op.run c = .done out c') :
    c'.Live ∧ op.Acts c.store out c'.store := by
  have hacts : op.Acts c.store out c'.store := by
    cases hop : op.logs with
    | false => exact op.acts_unlogged hop hrun
    | true =>
        cases husable : c.store.usable with
        | true => exact h.standing.acts hop husable hrun
        | false =>
            rw [op.run_disabled hop husable] at hrun
            cases hrun
            refine .latches rfl fun hnone => ?_
            simp [CoordinatorStore.usable, h.opened, hnone] at husable
  refine ⟨⟨?_, hacts.opened.trans h.opened⟩, hacts⟩
  exact (h.standing.operation (m := c.machine) rfl op).done rfl hrun

/-- Another machine with the same disk. -/
theorem StoreCtx.Live.environment (h : c.Live) {m : Machine}
    (hdisk : m.disk = c.machine.disk) : StoreCtx.Live ⟨c.store, m⟩ := by
  refine ⟨⟨h.standing.sound, fun hu => ?_⟩, h.opened⟩
  obtain ⟨entries, l, hlog, hlogdisk⟩ := h.standing.healthy hu
  exact ⟨entries, l, hlog, hdisk.trans hlogdisk⟩

/-- The job table of a live store that has not failed is well formed. -/
theorem StoreCtx.Live.rep (h : c.Live) (hnone : c.store.failure = .none) :
    c.store.jobs.Rep := by
  have husable : c.store.usable = true := by
    simp [CoordinatorStore.usable, h.opened, hnone]
  obtain ⟨entries, l, hlog, -⟩ := h.standing.healthy husable
  exact hlog.agrees.rep.1

end Faultline
