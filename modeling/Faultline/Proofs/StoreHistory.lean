/-
The store and the history behind it.

A store agrees with a history (`Agrees`) when the history is legal and the
store publishes exactly what replaying it gives. The entry an operation
plans is then a legal next entry, and publishing it leaves a store that
agrees with the longer history (`Agrees.planned`); an operation that plans
no entry leaves the agreement alone.
-/
import Faultline.Proofs.StorePlans

namespace Faultline

open Lib StoreCtx Scheduler

variable {store : CoordinatorStore}

-- ==================================================== agreement

/-- What a store publishes: all jobs and their order, the two allocators
and the job clock. -/
structure View where
  jobs : Scheduler
  nextWorkerId : UInt32
  jobTimeMs : Int64
deriving DecidableEq, Repr

def CoordinatorStore.view (store : CoordinatorStore) : View :=
  { jobs := store.jobs, nextWorkerId := store.workers.nextWorkerId,
    jobTimeMs := store.lastJobTimeMs }

def WalReplayState.view (state : WalReplayState) : View :=
  { jobs := state.scheduler, nextWorkerId := state.workers.nextWorkerId,
    jobTimeMs := state.jobTimeBaseMs }

/-- The store publishes the state of a legal history, and its live workers
were allocated there. -/
structure Agrees (store : CoordinatorStore) (entries : List WalEntry)
    (l : Ledger) : Prop where
  run : Ledger.Run .init entries l
  view : store.view = (recovered entries).view
  known : ∀ slot : Fin maxWorkers,
    (store.workers.worker slot).state = .alive →
    (store.workers.worker slot).id ∈ l.workers

/-- Both stores publish the same. -/
structure SamePublished (s t : CoordinatorStore) : Prop where
  jobs : s.jobs = t.jobs
  workers : s.workers = t.workers
  clock : s.lastJobTimeMs = t.lastJobTimeMs

variable {entries : List WalEntry} {l l' : Ledger} {entry : WalEntry}
  {event : JobEvent} {job : Job} {b' : Board}

namespace Agrees

theorem jobs_eq (h : Agrees store entries l) :
    store.jobs = (recovered entries).scheduler :=
  congrArg View.jobs h.view

theorem nextWorker_eq (h : Agrees store entries l) :
    store.workers.nextWorkerId = (recovered entries).workers.nextWorkerId :=
  congrArg View.nextWorkerId h.view

theorem clock_eq (h : Agrees store entries l) :
    store.lastJobTimeMs = (recovered entries).jobTimeBaseMs :=
  congrArg View.jobTimeMs h.view

theorem rep (h : Agrees store entries l) :
    store.jobs.Rep ∧ store.jobs.board = l.board
      ∧ store.lastJobTimeMs = l.clock := by
  obtain ⟨index, ht⟩ := tracks_recovered h.run
  rw [h.jobs_eq, h.clock_eq]
  exact ⟨ht.rep, ht.board, ht.clock⟩

theorem of_same {s : CoordinatorStore} (h : Agrees store entries l)
    (hs : SamePublished s store) : Agrees s entries l := by
  refine ⟨h.run, ?_, ?_⟩
  · rw [← h.view]
    simp [CoordinatorStore.view, hs.jobs, hs.workers, hs.clock]
  · rw [hs.workers]
    exact h.known

/-- The view after one more entry. -/
theorem view_snoc_job (h : Agrees store entries l) :
    (recovered (entries ++ [.job event job])).view
      = { jobs := store.jobs.commit event job,
          nextWorkerId := store.workers.nextWorkerId,
          jobTimeMs := job.updatedAtMs } := by
  rw [recovered_snoc, h.jobs_eq, h.nextWorker_eq]
  rfl

/-- Publishing a legal job event. -/
theorem publish_job (h : Agrees store entries l)
    (hstep : l.Step (.job event job) l') {s : CoordinatorStore}
    (hs : SamePublished s store) :
    Agrees { s with
        jobs := store.jobs.commit event job
        lastJobTimeMs := job.updatedAtMs }
      (entries ++ [.job event job]) l' := by
  refine ⟨h.run.snoc hstep, ?_, ?_⟩
  · rw [h.view_snoc_job]
    simp [CoordinatorStore.view, hs.workers]
  · intro slot halive
    have hknown := h.known slot
    rw [← hs.workers] at hknown
    cases hstep with
    | job => exact hknown halive

/-- An id the allocator hands out is above all earlier ones. -/
theorem fresh_worker (h : Agrees store entries l)
    (hne : store.workers.nextWorkerId ≠ 0) :
    ∀ w ∈ l.workers, w < store.workers.nextWorkerId := by
  obtain ⟨index, ht⟩ := tracks_recovered h.run
  have hnext : store.workers.nextWorkerId
      = nextWorkerIdAfter (recovered entries).highestWorkerId := by
    rw [h.nextWorker_eq, ht.workers]
  refine ((ht.fresh_iff store.workers.nextWorkerId).mp ?_).2
  rw [hnext] at hne ⊢
  unfold nextWorkerIdAfter at hne ⊢
  grind

/-- Publishing a registration. -/
theorem publish_worker (h : Agrees store entries l) {fd : Int}
    {nowMs : Int64} {id : UInt32} {candidate : WorkerRegistry}
    (hok : workerRegister store.workers fd nowMs = .ok (id, candidate)) :
    ∃ l', l.Step (.workerIdAllocated id) l'
      ∧ ∀ s, SamePublished s store →
        Agrees { s with workers := candidate }
          (entries ++ [.workerIdAllocated id]) l' := by
  obtain ⟨hid, hne, -, -, -, slot, -, hcand⟩ := workerRegister_ok hok
  have hstep : l.Step (.workerIdAllocated id) _ :=
    .worker hne (hid ▸ h.fresh_worker (hid ▸ hne))
  refine ⟨_, hstep, fun s hs => ⟨h.run.snoc hstep, ?_, ?_⟩⟩
  · rw [recovered_snoc, hcand]
    simp [CoordinatorStore.view, WalReplayState.view, WalReplayState.record,
      hs.jobs, hs.clock, h.jobs_eq, h.clock_eq]
  · rw [hcand]
    intro i halive
    by_cases hi : i = slot
    · subst hi
      simp
    · rw [WorkerRegistry.worker_put_of_ne hi] at halive ⊢
      exact List.mem_append_left _ (h.known i halive)

/-- Replacing the registry by one with no new live worker. -/
theorem of_registry (h : Agrees store entries l) {workers : WorkerRegistry}
    (hnext : workers.nextWorkerId = store.workers.nextWorkerId)
    (hlive : ∀ slot : Fin maxWorkers, (workers.worker slot).state = .alive →
      (store.workers.worker slot).state = .alive
        ∧ (workers.worker slot).id = (store.workers.worker slot).id) :
    Agrees { store with workers } entries l := by
  refine ⟨h.run, ?_, fun slot halive => ?_⟩
  · rw [← h.view]
    simp only [CoordinatorStore.view, hnext]
  · obtain ⟨hold, hid⟩ := hlive slot halive
    show (workers.worker slot).id ∈ l.workers
    rw [hid]
    exact h.known slot hold

end Agrees

-- ====================================== an operation's effect

/-- What the client of an entry is handed. -/
def WalEntry.output : WalEntry → StoreOutput
  | .workerIdAllocated id => .workerId id
  | .job .created job => .jobId job.id
  | .job .assigned job => .assignment job.assignment
  | .job _ _ => .none

/-- The fields of the log session. -/
structure SameSession (s t : CoordinatorStore) : Prop where
  wal : s.wal = t.wal
  failure : s.failure = t.failure
  opened : s.opened = t.opened
  timeBase : s.timeBaseMs = t.timeBaseMs
  sessionStart : s.sessionStartMs = t.sessionStartMs

/-- A live worker stands in some slot. -/
theorem workerIsAlive_slot {workers : WorkerRegistry} {workerId : UInt32}
    (h : workerIsAlive workers workerId = true) :
    workerId ≠ 0 ∧ ∃ slot : Fin maxWorkers,
      (workers.worker slot).state = .alive
        ∧ (workers.worker slot).id = workerId := by
  unfold workerIsAlive workerFind at h
  by_cases hzero : workerId = 0
  · simp [hzero] at h
  cases hslot : workerFindSlot workers workerId with
  | none => simp [hslot] at h
  | some slot =>
      have htest := firstSlot_some hslot
      simp only [Bool.and_eq_true, beq_iff_eq] at htest
      refine ⟨hzero, slot, ?_, htest.2⟩
      simpa [hzero, hslot] using h

/-- An assignment names a live worker. -/
theorem StoreOp.Emits.alive {op : StoreOp} {output : StoreOutput}
    (h : op.Emits store event job output) (hev : event = .assigned) :
    workerIsAlive store.workers job.workerId = true := by
  subst hev
  cases op with
  | assign workerId nowMs =>
      obtain ⟨-, hworker, halive, -⟩ := h
      rw [hworker]
      exact halive
  | submit payload nowMs => cases h.1
  | report workerId message nowMs =>
      exact absurd h.1.symm (outcomeEvent_ne_assigned _)
  | workerLost workerId nowMs =>
      exact absurd h.1.symm (outcomeEvent_ne_assigned _)
  | register fd nowMs => exact h.elim
  | heartbeat workerId fd nowMs => exact h.elim
  | markDead workerId fd => exact h.elim

/-- The output is the one its entry stands for. -/
theorem StoreOp.Emits.output_eq {op : StoreOp} {output : StoreOutput}
    (h : op.Emits store event job output) :
    output = (WalEntry.job event job).output := by
  have houtcome (state : JobState) :
      (WalEntry.job (outcomeEvent state) job).output = .none := by
    cases state <;> rfl
  cases op with
  | submit payload nowMs =>
      obtain ⟨rfl, rfl⟩ := h
      rfl
  | assign workerId nowMs =>
      obtain ⟨rfl, -, -, rfl⟩ := h
      rfl
  | report workerId message nowMs =>
      obtain ⟨rfl, rfl, -⟩ := h
      exact (houtcome _).symm
  | workerLost workerId nowMs =>
      obtain ⟨rfl, rfl, -⟩ := h
      exact (houtcome _).symm
  | register fd nowMs => exact h.elim
  | heartbeat workerId fd nowMs => exact h.elim
  | markDead workerId fd => exact h.elim

/-- Rewriting a live worker without its id changes no other worker. -/
theorem live_of_put {workers : WorkerRegistry} {slot : Fin maxWorkers}
    {worker : Worker} (halive : (workers.worker slot).state = .alive)
    (hid : worker.id = (workers.worker slot).id) (i : Fin maxWorkers)
    (h : ((workers.put slot worker).worker i).state = .alive) :
    (workers.worker i).state = .alive
      ∧ ((workers.put slot worker).worker i).id = (workers.worker i).id := by
  by_cases hi : i = slot
  · subst hi
    exact ⟨halive, by simpa using hid⟩
  · rw [WorkerRegistry.worker_put_of_ne hi] at h ⊢
    exact ⟨h, rfl⟩

theorem CoordinatorStore.failure_of_usable (store : CoordinatorStore)
    (h : store.usable = true) : (store.failure == .none) = true := by
  unfold CoordinatorStore.usable at h
  exact (Bool.and_eq_true_iff.mp h).2

/-- A plan of an operation on a store that agrees with a history. -/
inductive Agrees.Effect (store : CoordinatorStore) (entries : List WalEntry)
    (l : Ledger) : Plan → Prop where
  | quiet {result : StoreResult} {store' : CoordinatorStore}
      (agrees : Agrees store' entries l) (wal : store'.wal = store.wal)
      (opened : store'.opened = store.opened)
      (failure : store'.failure = store.failure
        ∨ store'.failure = .clock ∨ store'.failure = .internal) :
      Effect store entries l (.quiet result store')
  | append {entry : WalEntry} {publish : CoordinatorStore → CoordinatorStore}
      {l' : Ledger} (step : l.Step entry l')
      (agrees : ∀ s, SamePublished s store →
        Agrees (publish s) (entries ++ [entry]) l')
      (session : ∀ s, SameSession (publish s) s) :
      Effect store entries l (.append entry publish entry.output)

/-- Committing a board step is a legal next entry. -/
theorem Agrees.jobPlan_effect (h : Agrees store entries l)
    (hstep : store.jobs.board.Step event job b')
    (htime : store.lastJobTimeMs ≤ job.updatedAtMs)
    (hknown : event = .assigned → job.workerId ∈ l.workers)
    {output : StoreOutput} (hout : output = (WalEntry.job event job).output) :
    Agrees.Effect store entries l (jobPlan store event job output) := by
  obtain ⟨-, hboard, hclock⟩ := h.rep
  rw [hboard] at hstep
  rw [hclock] at htime
  have hl : l.Step (.job event job) _ := .job htime hknown hstep
  rw [jobPlan, hout]
  exact .append hl (fun s hs => h.publish_job hl hs)
    fun s => ⟨rfl, rfl, rfl, rfl, rfl⟩

/-- An operation keeps the agreement, or plans a legal next entry. -/
theorem Agrees.planned (h : Agrees store entries l) {op : StoreOp}
    {plan : Plan} (hplan : op.Planned store plan) :
    Agrees.Effect store entries l plan := by
  cases hplan with
  | refused hne => exact .quiet h rfl rfl (Or.inl rfl)
  | latched failure hkind husable =>
      have hfail : store.fail failure = { store with failure } := by
        unfold CoordinatorStore.fail
        rw [if_pos (store.failure_of_usable husable)]
      rw [hfail]
      exact .quiet (h.of_same ⟨rfl, rfl, rfl⟩) rfl rfl (Or.inr hkind)
  | heartbeat hop hok =>
      obtain ⟨slot, halive, -, -, rfl⟩ := workerHeartbeat_ok hok
      exact .quiet (h.of_registry rfl (live_of_put halive rfl)) rfl rfl
        (Or.inl rfl)
  | markDead hop hok =>
      obtain ⟨slot, halive, -, -, rfl⟩ := workerMarkDead_ok hok
      exact .quiet (h.of_registry rfl (live_of_put halive rfl)) rfl rfl
        (Or.inl rfl)
  | register hop husable hok =>
      obtain ⟨l', hstep, hpub⟩ := h.publish_worker hok
      exact .append hstep hpub fun s => ⟨rfl, rfl, rfl, rfl, rfl⟩
  | @job event job output b' husable hstep htime hemits =>
      refine h.jobPlan_effect hstep htime (fun hev => ?_) hemits.output_eq
      obtain ⟨slot, halive, hid⟩ := (workerIsAlive_slot (hemits.alive hev)).2
      rw [← hid]
      exact h.known slot halive

end Faultline
