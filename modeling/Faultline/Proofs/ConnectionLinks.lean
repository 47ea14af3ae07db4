/-
Connections, live registry entries and active jobs belong together.

Three tables tell who is a worker: the connections, the registry and the job
table. While the store works they agree (`Coordinator.Linked`): the
connections with a worker id are the live entries, id by id and descriptor by
descriptor, and every active job belongs to one of them. A close detaches a
worker from all three; that is the only way a live entry dies.
-/
import Faultline.Proofs.LoopActs
import Faultline.Proofs.RegistryRuns
import Faultline.Proofs.Segmentation

namespace Faultline

open Lib Coordinator

-- ========================================================= jobs

namespace Board

variable {b b' : Board} {event : JobEvent} {job old : Job}
  {pre suf : List Job} {worker : UInt32}

theorem Inv.eq_of_id (hinv : b.Inv) {k : Job} (hk : k ∈ b.jobs)
    (hjob : job ∈ b.jobs) (hid : k.id = job.id) : k = job := by
  obtain ⟨pre, suf, hjobs⟩ := List.append_of_mem hjob
  rw [hjobs, List.mem_append, List.mem_cons] at hk
  rcases hk with hk | rfl | hk
  · exact absurd hid (ids_ne hinv hjobs (.inl hk))
  · rfl
  · exact absurd hid (ids_ne hinv hjobs (.inr hk))

end Board

/-- The owner of a job that ends or goes back to the queue owns none. -/
theorem Scheduler.Rep.releases {sched : Scheduler} {b' : Board}
    {event : JobEvent} {job old : Job} (h : sched.Rep)
    (hstep : sched.board.Step event job b') (hnew : job.state.active = false)
    (hold : old ∈ sched.jobs) (hact : old.state.active = true)
    (hid : old.id = job.id) : old.workerId ∉ Board.ownersIn b'.jobs := by
  intro hw
  obtain ⟨k, hk, hkact, hsame⟩ := Board.mem_ownersIn.mp hw
  rcases hstep.mem hk with rfl | hmem
  · rw [hnew] at hkact
    cases hkact
  -- a worker owns one job, so the other owner is the old job itself
  have hkold : k = old := by
    have hactive := h.active_eq hmem hkact
    rw [hsame, h.active_eq hold hact] at hactive
    exact (Option.some.inj hactive).symm
  subst hkold
  have hjob := (hstep.inv h.inv).eq_of_id hk hstep.mem_self hid
  rw [hjob, hnew] at hkact
  cases hkact

-- ====================================================== the store

section Store

variable {op : StoreOp} {store store' : CoordinatorStore} {c c' : StoreCtx}
  {out : StoreResult × StoreOutput} {worker : UInt32} {nowMs : Int64}

theorem Scheduler.Rep.commit_owners {sched : Scheduler} {event : JobEvent}
    {job : Job} {b' : Board} (h : sched.Rep)
    (hstep : sched.board.Step event job b') :
    Board.ownersIn (sched.commit event job).jobs = Board.ownersIn b'.jobs :=
  congrArg (fun b : Board => Board.ownersIn b.jobs) (commit_refines h hstep).1

/-- Only an assignment gives a worker a job. -/
theorem StoreOp.Acts.owner (h : op.Acts store out store')
    (hw : worker ∈ Board.ownersIn store'.jobs.jobs) :
    worker ∈ Board.ownersIn store.jobs.jobs
      ∨ ∃ nowMs, op = .assign worker nowMs := by
  cases h with
  | job rep step time emits =>
      replace hw : worker ∈ Board.ownersIn _ := rep.commit_owners step ▸ hw
      rcases step.owner hw with hw | ⟨rfl, rfl⟩
      · exact .inl hw
      · cases op with
        | assign workerId nowMs =>
            obtain ⟨-, rfl, -, -⟩ := emits
            exact .inr ⟨nowMs, rfl⟩
        | submit payload nowMs => cases emits.1
        | report workerId message nowMs =>
            have hevent := emits.1
            unfold outcomeEvent at hevent
            split at hevent <;> cases hevent
        | workerLost workerId nowMs =>
            have hevent := emits.1
            unfold outcomeEvent at hevent
            split at hevent <;> cases hevent
        | _ => exact emits.elim
  | _ => exact .inl hw

theorem StoreOp.Acts.fatal_latched {output : StoreOutput}
    (h : op.Acts store (.fatal, output) store') : store'.failure ≠ .none := by
  cases h with
  | refused why => rcases why with why | why <;> cases why
  | fatal latched => exact latched

theorem StoreOp.Acts.refused_store {result : StoreResult}
    {output : StoreOutput} (h : op.Acts store (result, output) store')
    (why : result = .rejected ∨ result = .empty) : store' = store := by
  cases h with
  | refused => rfl
  | _ => rcases why with why | why <;> cases why

theorem StoreOp.Acts.registered {fd : Int} {id : UInt32}
    (h : (StoreOp.register fd nowMs).Acts store (.ok, .workerId id) store') :
    workerRegister store.workers fd nowMs = .ok (id, store'.workers)
      ∧ store'.jobs = store.jobs := by
  cases h with
  | register hop hok =>
      cases hop
      exact ⟨hok, rfl⟩
  | job rep step time emits => exact emits.elim

/-- A worker whose loss is recorded owns nothing. -/
theorem StoreOp.Acts.lost {output : StoreOutput}
    (h : (StoreOp.workerLost worker nowMs).Acts store (.ok, output) store') :
    worker ∉ Board.ownersIn store'.jobs.jobs := by
  cases h with
  | @job event job _ b' wal rep step time emits =>
      obtain ⟨-, -, old, hactive, hfail⟩ := emits
      obtain ⟨-, hmem, rfl, hact⟩ := schedulerActive_some hactive
      obtain ⟨-, -, -, -, -, -, -, -, hjob⟩ := jobFail_ok_iff.mp hfail
      have hidle : job.state.active = false := by
        rw [hjob, failedAttempt]
        split <;> rfl
      have hid : old.id = job.id := by
        rw [hjob, failedAttempt_id]
      have hreleases := rep.releases step hidle hmem hact hid
      rwa [← rep.commit_owners step] at hreleases
  | refused why => rcases why with why | why <;> cases why
  | heartbeat hop => cases hop
  | markDead hop => cases hop
  | register hop => cases hop

/-- What is to be committed is, unless the store fails. -/
theorem commitPlan_effective {scratch : Scheduler} {id : UInt64}
    {event : JobEvent} {planned output : StoreOutput} {result : StoreResult}
    (h : (commitPlan store scratch id event planned).run c
      = .done (result, output) c') : result = .ok ∨ result = .fatal := by
  unfold commitPlan at h
  split at h
  · cases h
    exact .inr rfl
  · obtain ⟨r, c₁, -, h⟩ := Prog.bind_done h
    cases r with
    | ok =>
        cases h
        exact .inl rfl
    | _ =>
        cases h
        exact .inr rfl

/-- The loss of a worker with a job is recorded, unless the store fails. -/
theorem workerLost_effective {old : Job} {result : StoreResult}
    {output : StoreOutput}
    (hactive : schedulerActive c.store.jobs worker = some old)
    (h : (StoreOp.workerLost worker nowMs).run c = .done (result, output) c') :
    result = .ok ∨ result = .fatal := by
  have hquiet {after : CoordinatorStore}
      (h : (Plan.quiet .fatal after).run c = .done (result, output) c') :
      result = .ok ∨ result = .fatal := by
    cases h
    exact .inr rfl
  rw [StoreOp.run_eq] at h
  simp only [StoreOp.plan, lossPlan, hactive] at h
  repeat' split at h
  all_goals first
    | exact hquiet h
    | exact commitPlan_effective h

end Store

-- =================================================== the registry

section Registry

variable {registry registry' : WorkerRegistry} {id : UInt32} {fd : Int}
  {nowMs : Int64}

/-- Some entry is alive with this id on this descriptor. -/
def WorkerRegistry.AliveAt (registry : WorkerRegistry) (id : UInt32)
    (fd : Int) : Prop :=
  ∃ i, (registry.worker i).state = .alive ∧ (registry.worker i).id = id
    ∧ (registry.worker i).fd = fd

theorem workerRegister_alive (hs : registry.Sound)
    (h : workerRegister registry fd nowMs = .ok (id, registry')) :
    registry'.Sound ∧ id ≠ 0 ∧ 0 ≤ fd ∧ (∀ x, ¬ registry.AliveAt x fd)
      ∧ ∀ x g, registry'.AliveAt x g
        ↔ x = id ∧ g = fd ∨ registry.AliveAt x g := by
  obtain ⟨rfl, hid, hfd, hnow, hunused, slot, hfree, rfl⟩ :=
    workerRegister_ok h
  refine ⟨hs.step (.registered hid hfd hnow hunused hfree), hid, hfd,
    fun x ⟨i, halive, _, hsame⟩ => hunused i halive hsame, fun x g => ?_⟩
  have hworker (i : Fin maxWorkers) := @WorkerRegistry.worker_put
    { registry with nextWorkerId := nextWorkerIdAfter registry.nextWorkerId }
    slot i { id := registry.nextWorkerId, fd, state := .alive,
             lastHeartbeatMs := nowMs }
  constructor
  · rintro ⟨i, halive, hx, hg⟩
    rw [hworker] at halive hx hg
    by_cases hi : i = slot
    · rw [if_pos hi] at hx hg
      exact .inl ⟨hx.symm, hg.symm⟩
    · rw [if_neg hi] at halive hx hg
      exact .inr ⟨i, halive, hx, hg⟩
  · rintro (⟨rfl, rfl⟩ | ⟨i, halive, hx, hg⟩)
    · refine ⟨slot, ?_, ?_, ?_⟩ <;> rw [hworker, if_pos rfl]
    · have hi : i ≠ slot := by
        rintro rfl
        exact hfree halive
      refine ⟨i, ?_, ?_, ?_⟩ <;> rw [hworker, if_neg hi]
      exacts [halive, hx, hg]

theorem workerHeartbeat_alive (hs : registry.Sound)
    (h : workerHeartbeat registry id fd nowMs = .ok registry') :
    registry'.Sound
      ∧ ∀ x g, registry'.AliveAt x g ↔ registry.AliveAt x g := by
  obtain ⟨slot, halive, rfl, rfl, hlater, rfl⟩ := workerHeartbeat_later h
  refine ⟨hs.step (.beat halive hlater), fun x g => ?_⟩
  have hsame (i : Fin maxWorkers) :
      ((registry.put slot { registry.worker slot with
          lastHeartbeatMs := nowMs }).worker i).state
            = (registry.worker i).state
        ∧ ((registry.put slot { registry.worker slot with
          lastHeartbeatMs := nowMs }).worker i).id = (registry.worker i).id
        ∧ ((registry.put slot { registry.worker slot with
          lastHeartbeatMs := nowMs }).worker i).fd
            = (registry.worker i).fd := by
    rw [WorkerRegistry.worker_put]
    split
    · rename_i hi
      rw [hi]
      exact ⟨rfl, rfl, rfl⟩
    · exact ⟨rfl, rfl, rfl⟩
  unfold WorkerRegistry.AliveAt
  simp only [hsame]

/-- Marking a live entry dead works, and takes this entry only. -/
theorem workerMarkDead_alive (hs : registry.Sound)
    (h : workerMarkDead registry id fd = .ok registry') :
    registry'.Sound ∧ ∀ x g, registry'.AliveAt x g
      ↔ registry.AliveAt x g ∧ g ≠ fd := by
  obtain ⟨slot, halive, rfl, rfl, rfl⟩ := workerMarkDead_ok h
  refine ⟨hs.step (.died halive), fun x g => ?_⟩
  constructor
  · rintro ⟨i, hi, hx, hg⟩
    rw [WorkerRegistry.worker_put] at hi hx hg
    by_cases hslot : i = slot
    · rw [if_pos hslot] at hi
      cases hi
    · rw [if_neg hslot] at hi hx hg
      refine ⟨⟨i, hi, hx, hg⟩, fun hsame => hslot ?_⟩
      exact hs.connections i slot hi halive (hg.trans hsame)
  · rintro ⟨⟨i, hi, hx, hg⟩, hne⟩
    have hslot : i ≠ slot := by
      rintro rfl
      exact hne hg.symm
    refine ⟨i, ?_, ?_, ?_⟩ <;> rw [WorkerRegistry.worker_put, if_neg hslot]
    exacts [hi, hx, hg]

/-- A live entry is found by its id. -/
theorem WorkerRegistry.Sound.find_alive (hs : registry.Sound)
    {slot : Fin maxWorkers} (halive : (registry.worker slot).state = .alive) :
    workerFindSlot registry (registry.worker slot).id = some slot := by
  have hused : (registry.worker slot).state ≠ .unused := by
    rw [halive]
    decide
  cases hfound : workerFindSlot registry (registry.worker slot).id with
  | none =>
      have hnone := firstSlot_none.mp hfound slot
      simp [hused] at hnone
  | some i =>
      have htest := firstSlot_some hfound
      simp only [Bool.and_eq_true, bne_iff_ne, beq_iff_eq] at htest
      rw [hs.ids i slot htest.1 hused htest.2]

theorem workerMarkDead_accepts (hs : registry.Sound)
    (h : registry.AliveAt id fd) :
    ∃ registry', workerMarkDead registry id fd = .ok registry' := by
  obtain ⟨slot, halive, rfl, rfl⟩ := h
  have hlive : findLiveConnection registry (registry.worker slot).id
      (registry.worker slot).fd = .ok slot := by
    unfold findLiveConnection
    rw [if_neg (Int.not_lt.mpr (hs.descriptors slot halive))]
    simp [hs.find_alive halive, halive]
  exact ⟨registry.put slot { registry.worker slot with state := .dead, fd := -1 },
    by rw [workerMarkDead, hlive]⟩

end Registry

-- ===================================================== the links

variable {s s' : Coordinator} {c c' : Client} {settings : LoopSettings}
  {i j : Fin maxClients} {nowMs : Int64}

/-- Connections, live entries and active jobs belong together. -/
structure Coordinator.Linked (s : Coordinator) : Prop where
  registry : s.store.workers.Sound
  distinct : s.DistinctFds
  /-- A connection with a worker id has its live entry, and is no job
  client. -/
  member : ∀ i, (s.client i).workerId ≠ 0 → 0 ≤ (s.client i).fd
    ∧ (s.client i).jobClient = false
    ∧ s.store.workers.AliveAt (s.client i).workerId (s.client i).fd
  /-- A live entry has its connection. -/
  alive : ∀ id fd, s.store.workers.AliveAt id fd →
    ∃ i, (s.client i).workerId = id ∧ (s.client i).fd = fd
  /-- An active job has its connection. -/
  owner : ∀ worker ∈ Board.ownersIn s.store.jobs.jobs,
    ∃ i, (s.client i).workerId = worker

/-- The same worker, or still none. -/
def Client.SameWorker (c c' : Client) : Prop :=
  c'.workerId = c.workerId ∧ c'.fd = c.fd
    ∧ (c.workerId ≠ 0 → c'.jobClient = c.jobClient)

theorem Client.SameWorker.refl : c.SameWorker c := ⟨rfl, rfl, fun _ => rfl⟩

theorem Client.SameWorker.put {t : Coordinator}
    (hsame : ∀ j, (s.client j).SameWorker (t.client j))
    (h : (s.client i).SameWorker c) (j : Fin maxClients) :
    (s.client j).SameWorker ((t.put i c).client j) := by
  by_cases hj : j = i
  · subst hj
    rw [client_put_self]
    exact h
  · rw [client_put_of_ne hj]
    exact hsame j

/-- The links depend on who the connections are, which entries live and who
owns a job. -/
theorem Coordinator.Linked.keep (h : s.Linked)
    (clients : ∀ j, (s.client j).SameWorker (s'.client j))
    (sound : s'.store.workers.Sound)
    (entries : ∀ id fd, s'.store.workers.AliveAt id fd
      ↔ s.store.workers.AliveAt id fd)
    (owners : ∀ worker ∈ Board.ownersIn s'.store.jobs.jobs,
      worker ∈ Board.ownersIn s.store.jobs.jobs
        ∨ ∃ i, (s.client i).workerId = worker) : s'.Linked where
  registry := sound
  distinct := h.distinct.of_kept fun i => .inl (clients i).2.1
  member i hi := by
    obtain ⟨hid, hfd, hjob⟩ := clients i
    rw [hid] at hi
    obtain ⟨hopen, hclient, halive⟩ := h.member i hi
    rw [hid, hfd, hjob hi]
    exact ⟨hopen, hclient, (entries _ _).mpr halive⟩
  alive id fd halive := by
    obtain ⟨i, hid, hfd⟩ := h.alive id fd ((entries id fd).mp halive)
    exact ⟨i, (clients i).1.trans hid, (clients i).2.1.trans hfd⟩
  owner worker hw := by
    have hi : ∃ i, (s.client i).workerId = worker :=
      (owners worker hw).elim (h.owner worker) id
    obtain ⟨i, hid⟩ := hi
    exact ⟨i, (clients i).1.trans hid⟩

/-- Nothing but the connections' other fields has changed. -/
theorem Coordinator.Linked.frame (h : s.Linked)
    (clients : ∀ j, (s.client j).SameWorker (s'.client j))
    (store : s'.store = s.store) : s'.Linked := by
  refine h.keep clients ?_ ?_ ?_ <;> rw [store]
  · exact h.registry
  · exact fun _ _ => Iff.rfl
  · exact fun _ hw => .inl hw

theorem Coordinator.Linked.put (h : s.Linked)
    (hc : (s.client i).SameWorker c) : (s.put i c).Linked :=
  h.frame (Client.SameWorker.put (fun _ => .refl) hc) rfl

theorem Coordinator.Linked.ticked (h : s.Linked) : s.ticked.Linked :=
  h.frame (fun _ => .refl) rfl

/-- An operation that is neither a registration nor the end of a worker. -/
theorem Coordinator.Linked.acts {op : StoreOp} {store' : CoordinatorStore}
    {out : StoreResult × StoreOutput} (h : s.Linked)
    (hacts : op.Acts s.store out store') (hstore : s'.store = store')
    (healthy : s'.store.failure = .none)
    (clients : ∀ j, (s.client j).SameWorker (s'.client j))
    (register : ∀ fd nowMs, op ≠ .register fd nowMs)
    (markDead : ∀ worker fd, op ≠ .markDead worker fd)
    (assign : ∀ worker nowMs, op = .assign worker nowMs →
      ∃ i, (s.client i).workerId = worker) : s'.Linked := by
  have howners : ∀ worker ∈ Board.ownersIn s'.store.jobs.jobs,
      worker ∈ Board.ownersIn s.store.jobs.jobs
        ∨ ∃ i, (s.client i).workerId = worker := by
    intro worker hw
    rw [hstore] at hw
    exact (hacts.owner hw).imp_right fun ⟨nowMs, hop⟩ => assign worker nowMs hop
  rw [hstore] at healthy
  have hregistry : s'.store.workers.Sound
      ∧ ∀ id fd, s'.store.workers.AliveAt id fd
        ↔ s.store.workers.AliveAt id fd := by
    rw [hstore]
    cases hacts with
    | fatal latched => exact absurd healthy latched
    | heartbeat hop hok => exact workerHeartbeat_alive h.registry hok
    | markDead hop hok => exact absurd hop (markDead _ _)
    | register hop hok => exact absurd hop (register _ _)
    | _ => exact ⟨h.registry, fun _ _ => Iff.rfl⟩
  exact h.keep clients hregistry.1 hregistry.2 howners

-- ======================================================== closing

/-- A connection goes, with its entry and its job. -/
theorem Coordinator.Linked.drop (h : s.Linked)
    (others : ∀ j, j ≠ i → s'.client j = s.client j)
    (gone : (s'.client i).workerId = 0 ∧ (s'.client i).fd < 0)
    (sound : s'.store.workers.Sound)
    (entries : ∀ id fd, s'.store.workers.AliveAt id fd
      ↔ s.store.workers.AliveAt id fd ∧ fd ≠ (s.client i).fd)
    (owners : ∀ worker ∈ Board.ownersIn s'.store.jobs.jobs,
      worker ∈ Board.ownersIn s.store.jobs.jobs
        ∧ worker ≠ (s.client i).workerId) : s'.Linked where
  registry := sound
  distinct := h.distinct.of_kept fun j => by
    by_cases hj : j = i
    · exact .inr (hj ▸ gone.2)
    · exact .inl (congrArg Client.fd (others j hj))
  member j hworker := by
    have hj : j ≠ i := by
      rintro rfl
      exact hworker gone.1
    rw [others j hj] at hworker ⊢
    obtain ⟨hopen, hclient, halive⟩ := h.member j hworker
    exact ⟨hopen, hclient, (entries _ _).mpr
      ⟨halive, fun hsame => hj (h.distinct j i hopen hsame)⟩⟩
  alive id fd halive := by
    obtain ⟨halive, hne⟩ := (entries id fd).mp halive
    obtain ⟨j, hid, hfd⟩ := h.alive id fd halive
    have hj : j ≠ i := by
      rintro rfl
      exact hne hfd.symm
    rw [← others j hj] at hid hfd
    exact ⟨j, hid, hfd⟩
  owner worker hw := by
    obtain ⟨hw, hne⟩ := owners worker hw
    obtain ⟨j, hid⟩ := h.owner worker hw
    have hj : j ≠ i := by
      rintro rfl
      exact hne hid.symm
    rw [← others j hj] at hid
    exact ⟨j, hid⟩

theorem markDead_done {ctx ctx' : StoreCtx} {worker : UInt32} {fd : Int}
    {out : StoreResult × StoreOutput} (hs : ctx.store.workers.Sound)
    (halive : ctx.store.workers.AliveAt worker fd)
    (h : (StoreOp.markDead worker fd).run ctx = .done out ctx') :
    ctx'.store.failure = ctx.store.failure
      ∧ ctx'.store.jobs = ctx.store.jobs
      ∧ ctx'.store.workers.Sound
      ∧ ∀ id g, ctx'.store.workers.AliveAt id g
        ↔ ctx.store.workers.AliveAt id g ∧ g ≠ fd := by
  obtain ⟨registry', hok⟩ := workerMarkDead_accepts hs halive
  rw [StoreOp.run_eq] at h
  simp only [StoreOp.plan, registryPlan, hok] at h
  cases h
  exact ⟨rfl, rfl, workerMarkDead_alive hs hok⟩

theorem workerLost_workers {worker : UInt32} {store store' : CoordinatorStore}
    {out : StoreResult × StoreOutput}
    (h : (StoreOp.workerLost worker nowMs).Acts store out store') :
    store'.workers = store.workers := by
  cases h with
  | heartbeat hop => cases hop
  | markDead hop => cases hop
  | register hop => cases hop
  | _ => rfl

/-- What detaching a worker leaves of the store. -/
theorem Detaches.store {worker : UInt32} {fd : Int}
    (h : Detaches worker fd s s') (live : s.ctx.Live)
    (healthy : s'.store.failure = .none) (hworker : worker ≠ 0)
    (hs : s.store.workers.Sound)
    (halive : s.store.workers.AliveAt worker fd) :
    s'.store.workers.Sound
      ∧ (∀ id g, s'.store.workers.AliveAt id g
        ↔ s.store.workers.AliveAt id g ∧ g ≠ fd)
      ∧ ∀ other ∈ Board.ownersIn s'.store.jobs.jobs,
        other ∈ Board.ownersIn s.store.jobs.jobs ∧ other ≠ worker := by
  cases h with
  | idle idle mark =>
      obtain ⟨hfailure, hjobs, hsound, hentries⟩ := markDead_done hs halive mark
      refine ⟨hsound, hentries, fun other hw => ?_⟩
      rw [store_withCtx, hjobs] at hw
      refine ⟨hw, ?_⟩
      rintro rfl
      have hnone := idle.resolve_right fun hlatched =>
        hlatched (hfailure.symm.trans healthy)
      obtain ⟨job, hjob, hact, hsame⟩ := Board.mem_ownersIn.mp hw
      exact (schedulerActive_none hworker).mp hnone job hjob hact hsame
  | @lost job result ctx₁ ctx out active _ lost mark =>
      obtain ⟨hlive, hacts⟩ := live.acts lost
      have hworkers := workerLost_workers hacts
      obtain ⟨hfailure, hjobs, hsound, hentries⟩ := markDead_done
        (hworkers ▸ hs) (hworkers ▸ halive) mark
      rw [hworkers] at hentries
      have hok : result = .ok := by
        refine (workerLost_effective active lost).resolve_right ?_
        rintro rfl
        exact hacts.fatal_latched (hfailure.symm.trans healthy)
      subst hok
      refine ⟨hsound, hentries, fun other hw => ?_⟩
      rw [store_withCtx, hjobs] at hw
      refine ⟨?_, ?_⟩
      · refine (hacts.owner hw).resolve_right ?_
        rintro ⟨_, hop⟩
        cases hop
      · rintro rfl
        exact hacts.lost hw

/-- A connection is closed. -/
theorem Coordinator.Linked.closes {reason : CloseReason} (h : s.Linked)
    (live : s.ctx.Live) (hcloses : Closes i reason s s')
    (healthy : s'.store.failure = .none) : s'.Linked := by
  cases hcloses with
  | client role =>
      refine h.drop (fun j hj => client_put_of_ne hj) ?_ h.registry
        (fun id fd => ?_) fun worker hw => ⟨hw, ?_⟩
      · rw [client_put_self]
        exact ⟨rfl, Int.negSucc_lt_zero 0⟩
      · -- the entry would make this connection a worker
        rw [store_put]
        refine ⟨fun halive => ⟨halive, ?_⟩, And.left⟩
        rintro rfl
        obtain ⟨j, hid, hfd⟩ := h.alive id _ halive
        obtain ⟨slot, hslot, rfl, hopen⟩ := halive
        have hi : j = i := h.distinct j i
          (by rw [hfd, ← hopen]; exact h.registry.descriptors slot hslot) hfd
        subst hi
        refine h.registry.nonzero slot (by rw [hslot]; decide) ?_
        rw [← hid, role]
      · rw [role]
        obtain ⟨job, hjob, hact, rfl⟩ := Board.mem_ownersIn.mp hw
        exact ((live.rep healthy).inv.valid job hjob).owner_ne hact
  | @worker s₁ role detach =>
      obtain ⟨-, -, halive⟩ := h.member i role
      obtain ⟨hsound, hentries, howners⟩ :=
        detach.store live healthy role h.registry halive
      refine h.drop (fun j hj => ?_) ?_ hsound hentries howners
      · rw [client_put_of_ne hj, detach.client]
      · rw [client_put_self]
        exact ⟨rfl, Int.negSucc_lt_zero 0⟩

/-- A message is queued, or the connection is closed over it. -/
theorem Coordinator.Linked.queues {message : Message} (h : s.Linked)
    (live : s.ctx.Live) (hqueues : Queues i message s s')
    (healthy : s'.store.failure = .none) : s'.Linked := by
  cases hqueues with
  | unencodable encode close =>
      refine Linked.closes ?_ ?_ close healthy
      · exact h.put ⟨rfl, rfl, fun _ => rfl⟩
      · exact live
  | clockFailed encode clock close =>
      refine Linked.closes ?_ ?_ close healthy
      · exact h.ticked.put ⟨rfl, rfl, fun _ => rfl⟩
      · exact live
  | queued encode clock => exact h.ticked.put ⟨rfl, rfl, fun _ => rfl⟩

theorem Coordinator.Linked.reacts {reaction : Reaction} (h : s.Linked)
    (live : s.ctx.Live) (hreacts : Reacts i s reaction s')
    (healthy : s'.store.failure = .none) : s'.Linked := by
  cases hreacts with
  | none => exact h
  | close closes => exact h.closes live closes healthy
  | reply queues => exact h.queues live queues healthy
  | resetInput => exact h.put ⟨rfl, rfl, fun _ => rfl⟩

theorem Coordinator.Linked.stalls (h : s.Linked) (live : s.ctx.Live)
    (hstalls : Stalls i nowMs s s') (healthy : s'.store.failure = .none) :
    s'.Linked := by
  cases hstalls with
  | moving progress => exact h
  | stalled stalled closes => exact h.closes live closes healthy

/-- An assignment to a connection, and its message. -/
theorem Coordinator.Linked.offers {timeoutMs : Int64} (h : s.Linked)
    (live : s.ctx.Live) (hoffers : Offers timeoutMs i s s')
    (healthy : s'.store.failure = .none) : s'.Linked := by
  cases hoffers with
  | done => exact h
  | skipped => exact h.ticked
  | refused before clock idle run why =>
      exact h.acts (live.acts run).2 rfl healthy (fun _ => .refl)
        (fun _ _ => nofun) (fun _ _ => nofun) fun worker now hop => by
          cases hop
          exact ⟨i, rfl⟩
  | @assigned assignment ctx _ before clock idle run queues =>
      have hran : (s.ticked.withCtx ctx).ctx.Live := (live.acts run).1
      have hhealthy := (queues.after hran).healthy healthy
      have hassigned : (s.ticked.withCtx ctx).Linked :=
        h.acts (live.acts run).2 rfl hhealthy (fun _ => .refl)
          (fun _ _ => nofun) (fun _ _ => nofun) fun worker now hop => by
            cases hop
            exact ⟨i, rfl⟩
      exact hassigned.queues hran queues healthy

-- ======================================================= handling

/-- Only connections that are no workers may ask. -/
theorem Role.allows_query {role : Role} {type : MessageType}
    (query : type = .jobStatusRequest ∨ type = .jobsRequest
      ∨ type = .workersRequest ∨ type = .statsRequest)
    (h : role.allows type.code = true) : role.worker = false := by
  obtain ⟨jobClient, worker⟩ := role
  rcases query with rfl | rfl | rfl | rfl <;>
    cases jobClient <;> cases worker <;> first | rfl | cases h

theorem Client.sameWorker_asJobClient (h : c.role.worker = false) :
    c.SameWorker c.asJobClient := by
  refine ⟨rfl, rfl, fun hne => ?_⟩
  simp only [Client.role, bne_eq_false_iff_eq] at h
  exact absurd h hne

/-- A connection becomes a worker. -/
theorem Coordinator.Linked.registered {id : UInt32} {ctx : StoreCtx}
    (h : s.Linked) (live : s.ctx.Live)
    (role : (s.client i).jobClient = false)
    (run : (StoreOp.register (s.client i).fd nowMs).run s.ctx
      = .done (.ok, .workerId id) ctx) (healthy : ctx.store.failure = .none) :
    ((s.ticked.withCtx ctx).put i
      { s.client i with workerId := id }).Linked := by
  obtain ⟨-, hacts⟩ := live.acts run
  obtain ⟨hok, hjobs⟩ := hacts.registered
  obtain ⟨hsound, hid, hopen, hnone, hentries⟩ :=
    workerRegister_alive h.registry hok
  have hself : ((s.ticked.withCtx ctx).put i
      { s.client i with workerId := id }).client i
        = { s.client i with workerId := id } := client_put_self
  have hother {j : Fin maxClients} (hj : j ≠ i) :
      ((s.ticked.withCtx ctx).put i { s.client i with workerId := id }).client j
        = s.client j := client_put_of_ne hj
  refine ⟨hsound, h.distinct.of_kept fun j => .inl ?_, fun j hj => ?_,
    fun x g halive => ?_, fun worker hw => ?_⟩
  · by_cases hj : j = i
    · rw [hj, hself]
    · rw [hother hj]
  · by_cases hji : j = i
    · rw [hji, hself]
      exact ⟨hopen, role, (hentries _ _).mpr (.inl ⟨rfl, rfl⟩)⟩
    · rw [hother hji] at hj ⊢
      obtain ⟨hfd, hclient, halive⟩ := h.member j hj
      exact ⟨hfd, hclient, (hentries _ _).mpr (.inr halive)⟩
  · rcases (hentries x g).mp halive with ⟨rfl, rfl⟩ | hlives
    · exact ⟨i, by rw [hself], by rw [hself]⟩
    · obtain ⟨j, hx, hg⟩ := h.alive x g hlives
      have hj : j ≠ i := by
        rintro rfl
        exact hnone x (hg ▸ hlives)
      exact ⟨j, (hother hj).symm ▸ hx, (hother hj).symm ▸ hg⟩
  · replace hw : worker ∈ Board.ownersIn s.store.jobs.jobs := hjobs ▸ hw
    obtain ⟨j, hworker⟩ := h.owner worker hw
    have hj : j ≠ i := by
      rintro rfl
      obtain ⟨job, hjob, hact, rfl⟩ := Board.mem_ownersIn.mp hw
      have hne := ((live.rep (hacts.healthy healthy)).inv.valid job
        hjob).owner_ne hact
      exact hnone _ (h.member j (hworker ▸ hne)).2.2
    exact ⟨j, (hother hj).symm ▸ hworker⟩

/-- A message is handled. -/
theorem Coordinator.Linked.handles {message : Message} {reaction : Reaction}
    (h : s.Linked) (live : s.ctx.Live)
    (allowed : (s.client i).role.allows message.messageType = true)
    (hhandles : Handles settings i nowMs s message reaction s')
    (healthy : s'.store.failure = .none) : s'.Linked := by
  cases hhandles with
  | ping => exact h
  | status =>
      exact h.put (Client.sameWorker_asJobClient
        (Role.allows_query (.inl rfl) allowed))
  | jobs =>
      exact h.ticked.put (Client.sameWorker_asJobClient
        (Role.allows_query (.inr (.inl rfl)) allowed))
  | workers =>
      exact h.ticked.put (Client.sameWorker_asJobClient
        (Role.allows_query (.inr (.inr (.inl rfl))) allowed))
  | workersFailed =>
      exact h.ticked.put (Client.sameWorker_asJobClient
        (Role.allows_query (.inr (.inr (.inl rfl))) allowed))
  | listingClock => exact h.ticked
  | stats =>
      exact h.ticked.put (Client.sameWorker_asJobClient
        (Role.allows_query (.inr (.inr (.inr rfl))) allowed))
  | statsFailed =>
      exact h.ticked.put (Client.sameWorker_asJobClient
        (Role.allows_query (.inr (.inr (.inr rfl))) allowed))
  | jobClientRegisters => exact h
  | registered role run => exact h.registered live role run healthy
  | workerSubmits => exact h
  | submitted role run =>
      refine h.acts (live.acts run).2 rfl healthy
        (Client.SameWorker.put (fun _ => .refl)
          ⟨rfl, rfl, fun hne => absurd role hne⟩)
        (fun _ _ => nofun) (fun _ _ => nofun) fun _ _ => nofun
  | reported report run =>
      exact h.acts (live.acts run).2 rfl healthy (fun _ => .refl)
        (fun _ _ => nofun) (fun _ _ => nofun) fun _ _ => nofun
  | refused asks run why =>
      refine h.frame (fun _ => .refl) ?_
      exact (live.acts run).2.refused_store why
  | fatal asks run => exact absurd healthy (live.acts run).2.fatal_latched
  | strangeHeartbeat => exact h
  | lateHeartbeat => exact h
  | heartbeat role run =>
      exact h.acts (live.acts run).2 rfl healthy (fun _ => .refl)
        (fun _ _ => nofun) (fun _ _ => nofun) fun _ _ => nofun
  | unexpected => exact h

/-- Bytes are read, and a message that they complete is handled. -/
theorem Coordinator.Linked.reads {reply : RecvReply} {reaction : Reaction}
    (h : s.Linked) (live : s.ctx.Live) (input : (s.client i).Input False)
    (fd : 0 ≤ (s.client i).fd) (phase : (s.client i).phase = .readingMessage)
    (possible : (s.client i).CanReceive reply)
    (hreads : Reads settings i nowMs s reply reaction s')
    (healthy : s'.store.failure = .none) : s'.Linked := by
  cases hreads with
  | short => exact h.put ⟨rfl, rfl, fun _ => rfl⟩
  | @complete chunk _ _ full inspects =>
      have hgather : (s.client i).SameWorker
          ((s.client i).gather chunk nowMs) := by
        unfold Client.gather
        split <;> exact ⟨rfl, rfl, fun _ => rfl⟩
      cases inspects with
      | need inspect =>
          rw [put_put, client_put_self]
          exact h.put hgather
      | reject inspect => exact h.put hgather
      | @deliver message _ _ inspect handles =>
          obtain ⟨-, hjudged⟩ := input.gathered
            ⟨fd, phase, possible.1, possible.2⟩ full nowMs
          rw [client_put_self, Client.gather_role, Client.gather_input]
            at inspect
          rw [inspect] at hjudged
          cases hjudged with
          | deliver verdict =>
              obtain ⟨-, hallowed⟩ := nextFrame_deliver verdict
              rw [put_put, client_put_self] at handles
              have hput : (s.put i (((s.client i).gather chunk nowMs).deliver
                  message)).Linked := h.put hgather
              refine hput.handles live ?_ handles healthy
              rw [client_put_self]
              exact (congrArg (Role.allows · message.messageType)
                Client.gather_role).trans hallowed
  | _ => exact h

/-- A read or a write. -/
theorem Coordinator.Linked.transfers {ready : Readiness} {reaction : Reaction}
    (h : s.Linked) (live : s.ctx.Live) (input : (s.client i).Input False)
    (fd : 0 ≤ (s.client i).fd) (possible : ready.Possible (s.client i))
    (htransfers : Transfers settings i ready nowMs s reaction s')
    (healthy : s'.store.failure = .none) : s'.Linked := by
  cases htransfers with
  | idle => exact h
  | reads phase reads =>
      unfold Readiness.Possible at possible
      rw [phase] at possible
      exact h.reads live input fd phase possible reads healthy
  | sendFailed phase why => exact h
  | sends phase send =>
      refine h.put ?_
      dsimp only [Client.advance]
      split <;> exact ⟨rfl, rfl, fun _ => rfl⟩

theorem Coordinator.Linked.serves {ready : Readiness} (h : s.Linked)
    (live : s.ctx.Live) (input : (s.client i).Input False)
    (possible : ready.Possible (s.client i))
    (hserves : Serves settings i ready nowMs s s')
    (healthy : s'.store.failure = .none) : s'.Linked := by
  cases hserves with
  | vacant fd => exact h
  | cut fd why closes => exact h.closes live closes healthy
  | @served reaction s₁ s₂ _ fd transfers reacts stalls =>
      have hlive₁ := transfers.after live
      have hlive₂ := reacts.after hlive₁.live
      have healthy₂ := (stalls.after hlive₂.live).healthy healthy
      have h₁ := h.transfers live input fd possible transfers
        (hlive₂.healthy healthy₂)
      exact (h₁.reacts hlive₁.live reacts healthy₂).stalls hlive₂.live stalls
        healthy

/-- A new connection is nobody yet. -/
theorem Coordinator.Linked.accept {fd : Int} (h : s.Linked)
    (settings : LoopSettings) (live : s.ctx.Live) (fresh : s.FreshFd fd)
    (vacant : (s.client i).fd < 0)
    (healthy : s.store.failure = .none) :
    (s.put i (Client.accepted fd nowMs)).Linked := by
  have hother {j : Fin maxClients} (hj : j ≠ i) :
      (s.put i (Client.accepted fd nowMs)).client j = s.client j :=
    client_put_of_ne hj
  have hself : ((s.put i (Client.accepted fd nowMs)).client i).workerId
      = 0 := by
    rw [client_put_self]
    rfl
  have hturn : s.Turn settings (s.put i (Client.accepted fd nowMs)) :=
    .accept fresh vacant
  refine ⟨h.registry, hturn.distinctFds live h.distinct, fun j hworker => ?_,
    fun id g halive => ?_, fun worker hw => ?_⟩
  · have hj : j ≠ i := by
      rintro rfl
      exact hworker hself
    rw [hother hj] at hworker ⊢
    exact h.member j hworker
  · obtain ⟨j, hid, hfd⟩ := h.alive id g halive
    obtain ⟨slot, hslot, -, rfl⟩ := halive
    have hopen := h.registry.descriptors slot hslot
    have hj : j ≠ i := by
      rintro rfl
      rw [hfd] at vacant
      exact absurd hopen (Int.not_le.mpr vacant)
    exact ⟨j, (hother hj).symm ▸ hid, (hother hj).symm ▸ hfd⟩
  · obtain ⟨j, hworker⟩ := h.owner worker hw
    obtain ⟨job, hjob, hact, rfl⟩ := Board.mem_ownersIn.mp hw
    have hne := ((live.rep healthy).inv.valid job hjob).owner_ne hact
    have hj : j ≠ i := by
      rintro rfl
      exact absurd (h.member j (hworker ▸ hne)).1 (Int.not_le.mpr vacant)
    exact ⟨j, (hother hj).symm ▸ hworker⟩

/-- Every event keeps the links, or the store has failed. -/
theorem Coordinator.Turn.linked (hturn : s.Turn settings s') (h : s.Linked)
    (live : s.ctx.Live) (input : ∀ i, (s.client i).Input False)
    (healthy : s'.store.failure = .none) : s'.Linked := by
  cases hturn with
  | same => exact h
  | tick => exact h.ticked
  | environment disk => exact h.frame (fun _ => .refl) rfl
  | serve before clock possible serves =>
      exact h.ticked.serves live (input _) possible serves healthy
  | @accept k fd nowMs fresh vacant =>
      exact h.accept settings live fresh vacant healthy
  | offer offers => exact h.offers live offers healthy

-- ======================================================== opening

/-- A log recovers ids, never workers. -/
theorem recovered_workers (entries : List WalEntry) :
    ∃ next, (recovered entries).workers = WorkerRegistry.restored next := by
  suffices h : ∀ state : WalReplayState,
      (∃ next, state.workers = WorkerRegistry.restored next) →
      ∃ next, (entries.foldl WalReplayState.record state).workers
        = WorkerRegistry.restored next from
    h walReplayStateInit ⟨1, rfl⟩
  induction entries with
  | nil => exact fun state h => h
  | cons entry entries ih =>
      intro state h
      refine ih _ ?_
      obtain ⟨next, hnext⟩ := h
      cases entry with
      | workerIdAllocated id =>
          refine ⟨nextWorkerIdAfter id, ?_⟩
          simp [WalReplayState.record, hnext, WorkerRegistry.restored]
      | job event job => exact ⟨next, by simp [WalReplayState.record, hnext]⟩

theorem restored_empty {next id : UInt32} {fd : Int} :
    ¬ (WorkerRegistry.restored next).AliveAt id fd := by
  rintro ⟨slot, halive, -⟩
  have hslot : (WorkerRegistry.restored next).worker slot = unusedWorker :=
    worker_init slot
  rw [hslot] at halive
  cases halive

/-- A successful open opens the log and starts a session. -/
theorem storeOpen_parts {initializing : Bool} {m : Machine} {c : StoreCtx}
    (h : storeOpen initializing nowMs ⟨storeInit, m⟩ = .done .ok c) :
    ∃ c₁, openLog initializing ⟨storeInit, m⟩ = .done .ok c₁
      ∧ startSession nowMs c₁ = .done .ok c := by
  unfold storeOpen at h
  rw [Prog.bind_run, Faultline.getStore_run] at h
  simp only at h
  rw [if_neg (by decide)] at h
  by_cases hnow : nowMs < 0
  · rw [if_pos hnow] at h
    cases h
  rw [if_neg hnow] at h
  obtain ⟨result, c₁, hlog, hstart⟩ := Prog.bind_done h
  cases result with
  | ok => exact ⟨c₁, hlog, hstart⟩
  | _ => cases hstart

theorem replayLog_present {m : Machine} {c : StoreCtx}
    (h : replayLog ⟨storeInit, m⟩ = .done .ok c) : m.disk.present = true := by
  cases hp : m.disk.present with
  | true => rfl
  | false =>
      exact absurd rfl (replayLog_absent.done (s := ⟨storeInit, m⟩)
        ⟨rfl, hp⟩ h)

/-- A store that was opened has no live workers. -/
theorem storeOpen_workers {initializing : Bool} {m : Machine} {c : StoreCtx}
    (h : storeOpen initializing nowMs ⟨storeInit, m⟩ = .done .ok c) :
    ∃ next, c.store.workers = WorkerRegistry.restored next := by
  obtain ⟨c₁, hlog, hstart⟩ := storeOpen_parts h
  have hlogged : ∃ next, c₁.store.workers = WorkerRegistry.restored next := by
    cases initializing with
    | true =>
        rw [(createLog_ok hlog).2]
        exact ⟨1, rfl⟩
    | false =>
        rcases (replayLog_spec False (n := 0) (replayLog_present hlog)).done
            (s := ⟨storeInit, m⟩) ⟨rfl, rfl, False.elim⟩ hlog with
          ⟨-, entries, tail, l, -, here⟩ | ⟨hfatal, -⟩
        · rw [here.store]
          exact recovered_workers entries
        · cases hfatal
  obtain ⟨next, hnext⟩ := hlogged
  -- recovery changes jobs only
  unfold startSession at hstart
  obtain ⟨_, _, hset, hstart⟩ := Prog.bind_done hstart
  cases hset
  obtain ⟨result, c₂, hrecover, hend⟩ := Prog.bind_done hstart
  have hrun : recoverFrom nowMs c₁.store.jobs.jobs.length 0 (c₁.started nowMs)
      = .done result c₂ := hrecover
  have hkeeps := @keepsSession_recoverFrom nowMs c₁.store.jobs.jobs.length 0
    (c₁.started nowMs)
  rw [hrun] at hkeeps
  cases result with
  | ok =>
      cases hend
      exact ⟨next, (congrArg Prod.snd hkeeps).trans hnext⟩
  | _ => cases hend

/-- A store that was opened has no active jobs. -/
theorem storeOpen_owners {initializing : Bool} {m : Machine} {c : StoreCtx}
    (h : storeOpen initializing nowMs ⟨storeInit, m⟩ = .done .ok c) :
    Board.ownersIn c.store.jobs.jobs = [] := by
  cases initializing with
  | true =>
      obtain ⟨-, hlogged⟩ := storeCreate_ok h
      rw [hlogged.agrees.jobs_eq]
      rfl
  | false =>
      obtain ⟨c₁, hlog, -⟩ := storeOpen_parts h
      have hspec := (storeOpen_spec False nowMs (n := 0)
        (replayLog_present hlog)).done (s := ⟨storeInit, m⟩)
        ⟨rfl, rfl, False.elim⟩ h
      generalize hr : StoreResult.ok = r at hspec
      cases hspec with
      | opened holds recovery isOpen here =>
          rw [recovery.table, List.take_length, List.drop_length,
            List.append_nil, List.eq_nil_iff_forall_not_mem]
          intro worker hw
          obtain ⟨job, hjob, hact, -⟩ := Board.mem_ownersIn.mp hw
          obtain ⟨old, -, rfl⟩ := List.mem_map.mp hjob
          rw [recoverJob_idle] at hact
          cases hact
      | halted => cases hr
      | early => cases hr

/-- The links of every state, while the store works. -/
theorem Coordinator.Reachable.linked (h : s.Reachable settings)
    (healthy : s.store.failure = .none) : s.Linked := by
  induction h with
  | start opened session =>
      obtain ⟨next, hworkers⟩ := storeOpen_workers opened
      refine ⟨?_, ?_, fun i hi => ?_, fun id fd halive => ?_, fun w hw => ?_⟩
      · exact hworkers ▸ restored_sound next
      · exact (Coordinator.Reachable.start opened session).distinctFds
      · rw [client_start] at hi
        exact absurd rfl hi
      · rw [show (Coordinator.start _ _).store.workers = _ from hworkers]
          at halive
        exact absurd halive restored_empty
      · rw [show Board.ownersIn (Coordinator.start _ _).store.jobs.jobs = _
          from storeOpen_owners opened] at hw
        exact absurd hw List.not_mem_nil
  | step before step ih =>
      have hbefore := (step.turn.after before.live).healthy healthy
      exact step.turn.linked (ih hbefore) before.live
        (fun i => (before.input i).mono (absurd hbefore)) healthy

-- ==================================================== all states

/-- No two connections are the same worker. -/
theorem Coordinator.Linked.unique (h : s.Linked)
    (hworker : (s.client i).workerId ≠ 0)
    (hsame : (s.client i).workerId = (s.client j).workerId) : i = j := by
  obtain ⟨hopen, -, slot, halive, hid, hfd⟩ := h.member i hworker
  obtain ⟨-, -, slot', halive', hid', hfd'⟩ := h.member j (hsame ▸ hworker)
  have hslot : slot = slot' := by
    refine h.registry.ids slot slot' ?_ ?_ ?_
    · rw [halive]
      decide
    · rw [halive']
      decide
    · rw [hid, hid', hsame]
  subst hslot
  exact h.distinct i j hopen (hfd.symm.trans hfd')

/-- In every state the loop can reach while the store works: connections with
a worker id and live entries are the same, one to one; every active job
belongs to exactly one of these connections, none of which is a job client;
and no entry lives on a descriptor that no connection has. -/
theorem no_orphaned_assignment (settings : LoopSettings) (s : Coordinator)
    (h : s.Reachable settings) (healthy : s.store.failure = .none) :
    (∀ i, (s.client i).workerId ≠ 0 →
      ∃! slot, (s.store.workers.worker slot).state = .alive
        ∧ (s.store.workers.worker slot).id = (s.client i).workerId
        ∧ (s.store.workers.worker slot).fd = (s.client i).fd)
    ∧ (∀ slot, (s.store.workers.worker slot).state = .alive →
      ∃! i, (s.client i).workerId ≠ 0
        ∧ (s.client i).workerId = (s.store.workers.worker slot).id
        ∧ (s.client i).fd = (s.store.workers.worker slot).fd)
    ∧ (∀ job ∈ s.store.jobs.jobs, job.state.active = true →
      ∃! i, (s.client i).workerId ≠ 0 ∧ 0 ≤ (s.client i).fd
        ∧ (s.client i).workerId = job.workerId)
    ∧ (∀ i, (s.client i).workerId ≠ 0 →
      0 ≤ (s.client i).fd ∧ (s.client i).jobClient = false)
    ∧ ∀ fd, (∀ i, (s.client i).fd ≠ fd) →
      ∀ slot, (s.store.workers.worker slot).state = .alive →
        (s.store.workers.worker slot).fd ≠ fd := by
  have hlinked := h.linked healthy
  refine ⟨fun i hi => ?_, fun slot halive => ?_, fun job hjob hact => ?_,
    fun i hi => ?_, fun fd hfd slot halive hsame => ?_⟩
  · obtain ⟨-, -, slot, halive, hid, hfd⟩ := hlinked.member i hi
    refine ⟨slot, ⟨halive, hid, hfd⟩, fun other hother => ?_⟩
    exact hlinked.registry.connections other slot hother.1 halive
      (hother.2.2.trans hfd.symm)
  · obtain ⟨i, hid, hfd⟩ := hlinked.alive _ _ ⟨slot, halive, rfl, rfl⟩
    have hne : (s.client i).workerId ≠ 0 := by
      rw [hid]
      exact hlinked.registry.nonzero slot (by rw [halive]; decide)
    exact ⟨i, ⟨hne, hid, hfd⟩, fun other hother =>
      hlinked.unique hother.1 (hother.2.1.trans hid.symm)⟩
  · obtain ⟨i, hid⟩ := hlinked.owner job.workerId
      (Board.mem_ownersIn.mpr ⟨job, hjob, hact, rfl⟩)
    have hne : (s.client i).workerId ≠ 0 := by
      rw [hid]
      exact ((h.live.rep healthy).inv.valid job hjob).owner_ne hact
    exact ⟨i, ⟨hne, (hlinked.member i hne).1, hid⟩, fun other hother =>
      hlinked.unique hother.1 (hother.2.2.trans hid.symm)⟩
  · obtain ⟨hopen, hclient, -⟩ := hlinked.member i hi
    exact ⟨hopen, hclient⟩
  · obtain ⟨i, -, hi⟩ := hlinked.alive _ _ ⟨slot, halive, rfl, rfl⟩
    exact hfd i (hi.trans hsame)

/-- The coordinator with a connection, on a disk that takes everything. -/
def workingDisk : Coordinator :=
  quietClient.withCtx
    ⟨quietClient.store, ⟨logDisk [], 0, List.replicate appendRoom (.moved 99)⟩⟩

/-- A registration has been read, and there is a worker. -/
def registered : Coordinator :=
  (serveClient quietSettings onlySlot
    (arriving (Message.workerRegister 0).wire) workingDisk.now
    workingDisk.ticked).state

theorem registered_step : workingDisk.Step quietSettings registered :=
  ReadsAlone.step (by decide +kernel)

theorem registered_reachable : registered.Reachable quietSettings := by
  have hdisk : workingDisk.Reachable quietSettings :=
    quietClient_reachable.step (.environment rfl)
  exact hdisk.step registered_step

theorem no_orphaned_assignment_registered :
    (registered.client onlySlot).workerId = 1
      ∧ ∃! slot, (registered.store.workers.worker slot).state = .alive
        ∧ (registered.store.workers.worker slot).id
          = (registered.client onlySlot).workerId
        ∧ (registered.store.workers.worker slot).fd
          = (registered.client onlySlot).fd := by
  have hid : registered.store.failure = .none
      ∧ (registered.client onlySlot).workerId = 1 := by
    decide +kernel
  refine ⟨hid.2, (no_orphaned_assignment quietSettings registered
    registered_reachable hid.1).1 onlySlot ?_⟩
  rw [hid.2]
  decide

end Faultline
