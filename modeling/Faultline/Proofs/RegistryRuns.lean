/-
Identities in the worker registry.

Slots and descriptors are used again, ids are not. `WorkerRegistry.Sound` is
what every sequence of calls keeps; `Follows` is what one slot's worker can
become in a call, and from it what becomes of an id over a run: it lives on
in its slot with a heartbeat that never falls, or it is gone for good
(`Gone`).
-/
import Faultline.WorkerRegistry

namespace Faultline

/-- A call of the registry's interface. -/
inductive RegistryCall where
  | register (fd : Int) (nowMs : Int64)
  | heartbeat (workerId : UInt32) (fd : Int) (nowMs : Int64)
  | markDead (workerId : UInt32) (fd : Int)
deriving DecidableEq, Repr

/-- The storage a call works on: the registry and the output cell. -/
structure RegistryCells where
  registry : WorkerRegistry
  workerId : UInt32
deriving DecidableEq, Repr

/-- A call in place; `none` is `FAULTLINE_REGISTRY_OK`. -/
def RegistryCall.run (call : RegistryCall) (cells : RegistryCells) :
    Option RegistryError × RegistryCells :=
  match call with
  | .register fd nowMs =>
      match workerRegister cells.registry fd nowMs with
      | .error e => (some e, cells)
      | .ok (workerId, registry) => (none, { registry, workerId })
  | .heartbeat workerId fd nowMs =>
      match workerHeartbeat cells.registry workerId fd nowMs with
      | .error e => (some e, cells)
      | .ok registry => (none, { cells with registry })
  | .markDead workerId fd =>
      match workerMarkDead cells.registry workerId fd with
      | .error e => (some e, cells)
      | .ok registry => (none, { cells with registry })

/-- The storage after a sequence of calls. -/
def RegistryCall.runAll (calls : List RegistryCall) (cells : RegistryCells) :
    RegistryCells :=
  calls.foldl (fun cells call => (call.run cells).2) cells

/-- A registry with no workers whose next id is given. -/
def WorkerRegistry.restored (nextWorkerId : UInt32) : WorkerRegistry :=
  { workerRegistryInit with nextWorkerId }

variable {registry registry' : WorkerRegistry} {cells : RegistryCells}
  {call : RegistryCall} {id : UInt32} {i j : Fin maxWorkers}

-- ===================================================== one call

/-- What a successful call does. -/
inductive RegistryStep (registry : WorkerRegistry) :
    RegistryCall → WorkerRegistry → Prop where
  | registered {fd : Int} {nowMs : Int64} {slot : Fin maxWorkers}
      (ids : registry.nextWorkerId ≠ 0) (descriptor : 0 ≤ fd)
      (clock : 0 ≤ nowMs)
      (unused : ∀ i, (registry.worker i).state = .alive →
        (registry.worker i).fd ≠ fd)
      (free : (registry.worker slot).state ≠ .alive) :
      RegistryStep registry (.register fd nowMs)
        (WorkerRegistry.put
          { registry with
            nextWorkerId := nextWorkerIdAfter registry.nextWorkerId }
          slot { id := registry.nextWorkerId, fd, state := .alive,
                 lastHeartbeatMs := nowMs })
  | beat {nowMs : Int64} {slot : Fin maxWorkers}
      (alive : (registry.worker slot).state = .alive)
      (later : (registry.worker slot).lastHeartbeatMs ≤ nowMs) :
      RegistryStep registry
        (.heartbeat (registry.worker slot).id (registry.worker slot).fd nowMs)
        (registry.put slot
          { registry.worker slot with lastHeartbeatMs := nowMs })
  | died {slot : Fin maxWorkers}
      (alive : (registry.worker slot).state = .alive) :
      RegistryStep registry
        (.markDead (registry.worker slot).id (registry.worker slot).fd)
        (registry.put slot
          { registry.worker slot with state := .dead, fd := -1 })

/-- A heartbeat is never dated before the last one. -/
theorem workerHeartbeat_later {fd : Int} {nowMs : Int64}
    (h : workerHeartbeat registry id fd nowMs = .ok registry') :
    ∃ slot, (registry.worker slot).state = .alive
      ∧ (registry.worker slot).id = id ∧ (registry.worker slot).fd = fd
      ∧ (registry.worker slot).lastHeartbeatMs ≤ nowMs
      ∧ registry' = registry.put slot
          { registry.worker slot with lastHeartbeatMs := nowMs } := by
  unfold workerHeartbeat at h
  split at h
  · cases h
  split at h
  · cases h
  rename_i slot hslot
  split at h
  · cases h
  rename_i hlater
  cases h
  obtain ⟨-, halive, hid, hfd⟩ := findLiveConnection_ok hslot
  exact ⟨slot, halive, hid, hfd, Int64.not_lt.mp hlater, rfl⟩

/-- A call fails and changes nothing, or takes a step. -/
theorem RegistryCall.run_cases (call : RegistryCall) (cells : RegistryCells) :
    ((call.run cells).1 ≠ none ∧ (call.run cells).2 = cells)
      ∨ ((call.run cells).1 = none
        ∧ RegistryStep cells.registry call (call.run cells).2.registry) := by
  cases call with
  | register fd nowMs =>
      cases hrun : workerRegister cells.registry fd nowMs with
      | error e => exact .inl (by simp [run, hrun])
      | ok found =>
          obtain ⟨workerId, registry⟩ := found
          obtain ⟨rfl, hids, hfd, hclock, hunused, slot, hfree, rfl⟩ :=
            workerRegister_ok hrun
          refine .inr ⟨by simp [run, hrun], ?_⟩
          simp only [run, hrun]
          exact .registered hids hfd hclock hunused hfree
  | heartbeat workerId fd nowMs =>
      cases hrun : workerHeartbeat cells.registry workerId fd nowMs with
      | error e => exact .inl (by simp [run, hrun])
      | ok registry =>
          obtain ⟨slot, halive, rfl, rfl, hlater, rfl⟩ :=
            workerHeartbeat_later hrun
          refine .inr ⟨by simp [run, hrun], ?_⟩
          simp only [run, hrun]
          exact .beat halive hlater
  | markDead workerId fd =>
      cases hrun : workerMarkDead cells.registry workerId fd with
      | error e => exact .inl (by simp [run, hrun])
      | ok registry =>
          obtain ⟨slot, halive, rfl, rfl, rfl⟩ := workerMarkDead_ok hrun
          refine .inr ⟨by simp [run, hrun], ?_⟩
          simp only [run, hrun]
          exact .died halive

/-- What every step keeps, every sequence of calls keeps. -/
theorem RegistryCall.runAll_keeps {P : WorkerRegistry → Prop}
    (step : ∀ {registry registry' call}, P registry →
      RegistryStep registry call registry' → P registry')
    (calls : List RegistryCall) (h : P cells.registry) :
    P (runAll calls cells).registry := by
  induction calls generalizing cells with
  | nil => exact h
  | cons call calls ih =>
      refine @ih (call.run cells).2 ?_
      rcases call.run_cases cells with ⟨-, hsame⟩ | ⟨-, hstep⟩
      · rw [hsame]
        exact h
      · exact step h hstep

/-- A slot of the registry after a step. -/
theorem WorkerRegistry.worker_put {worker : Worker} :
    (registry.put i worker).worker j
      = if j = i then worker else registry.worker j := by
  split
  · rename_i h
    rw [h, worker_put_self]
  · rename_i h
    exact worker_put_of_ne h

-- ==================================================== invariant

/-- The id has been given out. -/
def WorkerRegistry.Issued (registry : WorkerRegistry) (id : UInt32) : Prop :=
  registry.nextWorkerId = 0 ∨ id < registry.nextWorkerId

structure WorkerRegistry.Sound (registry : WorkerRegistry) : Prop where
  nonzero : ∀ i, (registry.worker i).state ≠ .unused →
    (registry.worker i).id ≠ 0
  issued : ∀ i, (registry.worker i).state ≠ .unused →
    registry.Issued (registry.worker i).id
  ids : ∀ i j, (registry.worker i).state ≠ .unused →
    (registry.worker j).state ≠ .unused →
    (registry.worker i).id = (registry.worker j).id → i = j
  descriptors : ∀ i, (registry.worker i).state = .alive →
    0 ≤ (registry.worker i).fd
  connections : ∀ i j, (registry.worker i).state = .alive →
    (registry.worker j).state = .alive →
    (registry.worker i).fd = (registry.worker j).fd → i = j
  dead : ∀ i, (registry.worker i).state = .dead → (registry.worker i).fd = -1

theorem restored_sound (nextWorkerId : UInt32) :
    (WorkerRegistry.restored nextWorkerId).Sound := by
  have hunused (i : Fin maxWorkers) :
      (WorkerRegistry.restored nextWorkerId).worker i = unusedWorker :=
    worker_init i
  constructor <;> simp [hunused, unusedWorker]

/-- The next id lies above the one before. -/
theorem issued_next {next : UInt32} (h : next ≠ 0)
    (hid : id < next ∨ id = next) :
    nextWorkerIdAfter next = 0 ∨ id < nextWorkerIdAfter next := by
  unfold nextWorkerIdAfter
  split
  · exact .inl rfl
  · rename_i hmax
    right
    have hbound : next.toNat ≠ 0xffffffff := fun heq =>
      hmax (by rw [beq_iff_eq]; exact UInt32.toNat.inj heq)
    have hlt := next.toNat_lt
    rw [UInt32.lt_iff_toNat_lt, UInt32.toNat_add, UInt32.toNat_one,
      Nat.mod_eq_of_lt (by omega)]
    rcases hid with hid | rfl
    · have hid' : id.toNat < next.toNat := hid
      omega
    · omega

/-- Ids stay given out. -/
theorem WorkerRegistry.Issued.step (h : registry.Issued id)
    (hstep : RegistryStep registry call registry') : registry'.Issued id := by
  cases hstep with
  | registered ids descriptor clock unused free =>
      exact issued_next ids (.inl (h.resolve_left ids))
  | beat alive later => exact h
  | died alive => exact h

/-- One slot is given a worker that clashes with no other. -/
theorem WorkerRegistry.Sound.put {next : UInt32} {slot : Fin maxWorkers}
    {worker : Worker} (h : registry.Sound)
    (issued : ∀ id, registry.Issued id →
      WorkerRegistry.Issued { registry with nextWorkerId := next } id)
    (nonzero : worker.id ≠ 0)
    (given : WorkerRegistry.Issued { registry with nextWorkerId := next }
      worker.id)
    (ids : ∀ j, j ≠ slot → (registry.worker j).state ≠ .unused →
      (registry.worker j).id ≠ worker.id)
    (alive : worker.state = .alive → 0 ≤ worker.fd
      ∧ ∀ j, j ≠ slot → (registry.worker j).state = .alive →
        (registry.worker j).fd ≠ worker.fd)
    (dead : worker.state = .dead → worker.fd = -1) :
    (WorkerRegistry.put { registry with nextWorkerId := next } slot
      worker).Sound := by
  have hslot (j : Fin maxWorkers) :
      (WorkerRegistry.put { registry with nextWorkerId := next } slot
        worker).worker j = if j = slot then worker else registry.worker j :=
    worker_put
  constructor
  · intro i hi
    rw [hslot] at hi ⊢
    split
    · exact nonzero
    · rename_i hne
      rw [if_neg hne] at hi
      exact h.nonzero i hi
  · intro i hi
    rw [hslot] at hi ⊢
    split
    · exact given
    · rename_i hne
      rw [if_neg hne] at hi
      exact issued _ (h.issued i hi)
  · intro i j hi hj hid
    rw [hslot] at hi hj
    rw [hslot, hslot] at hid
    by_cases hislot : i = slot <;> by_cases hjslot : j = slot
    · rw [hislot, hjslot]
    · rw [if_pos hislot, if_neg hjslot] at hid
      rw [if_neg hjslot] at hj
      exact absurd hid.symm (ids j hjslot hj)
    · rw [if_neg hislot, if_pos hjslot] at hid
      rw [if_neg hislot] at hi
      exact absurd hid (ids i hislot hi)
    · rw [if_neg hislot, if_neg hjslot] at hid
      rw [if_neg hislot] at hi
      rw [if_neg hjslot] at hj
      exact h.ids i j hi hj hid
  · intro i hi
    rw [hslot] at hi ⊢
    split at hi <;> rename_i hcase
    · rw [if_pos hcase]
      exact (alive hi).1
    · rw [if_neg hcase]
      exact h.descriptors i hi
  · intro i j hi hj hfd
    rw [hslot] at hi hj
    rw [hslot, hslot] at hfd
    by_cases hislot : i = slot <;> by_cases hjslot : j = slot
    · rw [hislot, hjslot]
    · rw [if_pos hislot] at hi
      rw [if_pos hislot, if_neg hjslot] at hfd
      rw [if_neg hjslot] at hj
      exact absurd hfd.symm ((alive hi).2 j hjslot hj)
    · rw [if_pos hjslot] at hj
      rw [if_neg hislot, if_pos hjslot] at hfd
      rw [if_neg hislot] at hi
      exact absurd hfd ((alive hj).2 i hislot hi)
    · rw [if_neg hislot, if_neg hjslot] at hfd
      rw [if_neg hislot] at hi
      rw [if_neg hjslot] at hj
      exact h.connections i j hi hj hfd
  · intro i hi
    rw [hslot] at hi ⊢
    split at hi <;> rename_i hcase
    · rw [if_pos hcase]
      exact dead hi
    · rw [if_neg hcase]
      exact h.dead i hi

/-- No step breaks the registry. -/
theorem WorkerRegistry.Sound.step (h : registry.Sound)
    (hstep : RegistryStep registry call registry') : registry'.Sound := by
  cases hstep with
  | @registered fd nowMs slot ids descriptor clock unused free =>
      refine h.put (fun id hid => ?_) ids (issued_next ids (.inr rfl))
        (fun j _ hj heq => ?_)
        (fun _ => ⟨descriptor, fun j _ hj => unused j hj⟩) nofun
      · exact issued_next ids (.inl (hid.resolve_left ids))
      · rcases h.issued j hj with hzero | hlt
        · exact ids hzero
        · rw [heq] at hlt
          exact UInt32.lt_irrefl _ hlt
  | @beat nowMs slot alive later =>
      have hused : (registry.worker slot).state ≠ .unused := by
        rw [alive]
        decide
      refine h.put (fun _ hid => hid) (h.nonzero slot hused)
        (h.issued slot hused)
        (fun j hne hj heq => hne (h.ids j slot hj hused heq))
        (fun _ => ⟨h.descriptors slot alive, fun j hne hj heq =>
          hne (h.connections j slot hj alive heq)⟩) (fun hdead => ?_)
      rw [alive] at hdead
      cases hdead
  | @died slot alive =>
      have hused : (registry.worker slot).state ≠ .unused := by
        rw [alive]
        decide
      exact h.put (fun _ hid => hid) (h.nonzero slot hused)
        (h.issued slot hused)
        (fun j hne hj heq => hne (h.ids j slot hj hused heq)) nofun
        (fun _ => rfl)

-- =================================================== identities

/-- What a live worker's slot holds after a call: the worker, with no
earlier heartbeat, or the worker dead. -/
inductive Worker.Follows (old : Worker) : Worker → Prop where
  | lives {new : Worker} (alive : new.state = .alive) (id : new.id = old.id)
      (fd : new.fd = old.fd)
      (later : old.lastHeartbeatMs ≤ new.lastHeartbeatMs) : Follows old new
  | dies {new : Worker} (dead : new.state = .dead) (id : new.id = old.id) :
      Follows old new

/-- A live worker's slot is left to it. -/
theorem RegistryStep.follows (h : RegistryStep registry call registry')
    (halive : (registry.worker i).state = .alive) :
    (registry.worker i).Follows (registry'.worker i) := by
  have hsame : (registry.worker i).Follows (registry.worker i) :=
    .lives halive rfl rfl (Int64.le_refl _)
  cases h with
  | @registered fd nowMs slot ids descriptor clock unused free =>
      have hne : i ≠ slot := by
        rintro rfl
        exact free halive
      rw [WorkerRegistry.worker_put_of_ne hne]
      exact hsame
  | @beat nowMs slot alive later =>
      rw [WorkerRegistry.worker_put]
      split
      · rename_i heq
        subst heq
        exact .lives halive rfl rfl later
      · exact hsame
  | @died slot alive =>
      rw [WorkerRegistry.worker_put]
      split
      · rename_i heq
        subst heq
        exact .dies rfl rfl
      · exact hsame

/-- The id was given out and no live worker has it. -/
structure WorkerRegistry.Gone (registry : WorkerRegistry) (id : UInt32) :
    Prop where
  issued : registry.Issued id
  dead : ∀ i, (registry.worker i).state = .alive → (registry.worker i).id ≠ id

/-- An id that is gone stays gone. -/
theorem WorkerRegistry.Gone.step (h : registry.Gone id)
    (hstep : RegistryStep registry call registry') : registry'.Gone id := by
  refine ⟨h.issued.step hstep, fun i => ?_⟩
  cases hstep with
  | @registered fd nowMs slot ids descriptor clock unused free =>
      rw [worker_put]
      split
      · rintro - heq
        have hlt := h.issued.resolve_left ids
        rw [← heq] at hlt
        exact UInt32.lt_irrefl _ hlt
      · exact h.dead i
  | @beat nowMs slot alive later =>
      rw [worker_put]
      split
      · exact fun _ => h.dead slot alive
      · exact h.dead i
  | @died slot alive =>
      rw [worker_put]
      split
      · nofun
      · exact h.dead i

/-- A worker that was marked dead is gone. -/
theorem WorkerRegistry.Sound.gone (h : registry.Sound)
    (hdead : (registry.worker i).state = .dead)
    (hid : (registry.worker i).id = id) : registry.Gone id := by
  subst hid
  have hused : (registry.worker i).state ≠ .unused := by
    rw [hdead]
    decide
  refine ⟨h.issued i hused, fun j hj heq => ?_⟩
  have hij := h.ids j i (by rw [hj]; decide) hused heq
  rw [hij, hdead] at hj
  cases hj

/-- The worker in a slot has sent no earlier heartbeat, or is gone. -/
def WorkerRegistry.Lasts (registry : WorkerRegistry) (i : Fin maxWorkers)
    (worker : Worker) : Prop :=
  registry.Sound ∧ ((registry.worker i).state = .alive
      ∧ (registry.worker i).id = worker.id
      ∧ worker.lastHeartbeatMs ≤ (registry.worker i).lastHeartbeatMs
    ∨ registry.Gone worker.id)

theorem WorkerRegistry.Lasts.step {worker : Worker}
    (h : registry.Lasts i worker)
    (hstep : RegistryStep registry call registry') :
    registry'.Lasts i worker := by
  refine ⟨h.1.step hstep, ?_⟩
  rcases h.2 with ⟨halive, hid, hlater⟩ | hgone
  · cases hstep.follows halive with
    | lives alive id fd later =>
        exact .inl ⟨alive, id.trans hid, Int64.le_trans hlater later⟩
    | dies dead id => exact .inr ((h.1.step hstep).gone dead (id.trans hid))
  · exact .inr (hgone.step hstep)

/-- A registry that says it is full is. -/
theorem workerRegister_full {fd : Int} {nowMs : Int64}
    (h : workerRegister registry fd nowMs = .error .full)
    (i : Fin maxWorkers) : (registry.worker i).state = .alive := by
  unfold workerRegister at h
  split at h
  · cases h
  split at h
  · cases h
  split at h
  · rename_i hnone
    have htest := firstSlot_none.mp hnone i
    simpa using htest
  · split at h <;> cases h

/-- A registration leaves every live worker's slot alone. -/
theorem RegistryStep.register_keeps {fd : Int} {nowMs : Int64}
    (h : RegistryStep registry (.register fd nowMs) registry')
    (halive : (registry.worker i).state = .alive) :
    registry'.worker i = registry.worker i := by
  cases h with
  | registered ids descriptor clock unused free =>
      refine WorkerRegistry.worker_put_of_ne ?_
      rintro rfl
      exact free halive

/-- The other calls name a live worker by id and descriptor, and touch only
its slot. -/
theorem RegistryStep.exact_pair {fd : Int}
    (h : RegistryStep registry call registry')
    (hcall : (∃ nowMs, call = .heartbeat id fd nowMs)
      ∨ call = .markDead id fd) :
    ∃ i, (registry.worker i).state = .alive ∧ (registry.worker i).id = id
      ∧ (registry.worker i).fd = fd
      ∧ ∀ j, j ≠ i → registry'.worker j = registry.worker j := by
  cases h with
  | registered ids descriptor clock unused free =>
      rcases hcall with ⟨nowMs, hcall⟩ | hcall <;> cases hcall
  | @beat nowMs slot alive later =>
      rcases hcall with ⟨nowMs', hcall⟩ | hcall
      · cases hcall
        exact ⟨slot, alive, rfl, rfl, fun j hj =>
          WorkerRegistry.worker_put_of_ne hj⟩
      · cases hcall
  | @died slot alive =>
      rcases hcall with ⟨nowMs, hcall⟩ | hcall
      · cases hcall
      · cases hcall
        exact ⟨slot, alive, rfl, rfl, fun j hj =>
          WorkerRegistry.worker_put_of_ne hj⟩

/-- A worker just marked dead is gone. -/
theorem RegistryStep.dies {fd : Int} (h : registry.Sound)
    (hstep : RegistryStep registry (.markDead id fd) registry') :
    registry'.Gone id := by
  have hsound := h.step hstep
  cases hstep with
  | @died slot alive =>
      refine @WorkerRegistry.Sound.gone _ _ slot hsound ?_ ?_
      · rw [WorkerRegistry.worker_put_self]
      · rw [WorkerRegistry.worker_put_self]

/-- Whatever calls are made on a registry that starts without workers: ids
are nonzero, distinct and given out in order; live workers have distinct
descriptors and dead ones none; a registration overwrites no live worker; a
worker that was marked dead never lives again; no heartbeat goes back; the
other calls succeed only for a live worker's own id and descriptor and touch
no other slot; a call that fails changes nothing; and the registry is full
only of live workers. -/
theorem registry_identities (nextWorkerId : UInt32)
    (calls : List RegistryCall) (workerId : UInt32) :
    let cells := RegistryCall.runAll calls
      ⟨WorkerRegistry.restored nextWorkerId, workerId⟩
    let registry := cells.registry
    (∀ i, (registry.worker i).state ≠ .unused → (registry.worker i).id ≠ 0
        ∧ (registry.nextWorkerId = 0
          ∨ (registry.worker i).id < registry.nextWorkerId))
      ∧ (∀ i j, (registry.worker i).state ≠ .unused →
        (registry.worker j).state ≠ .unused →
        (registry.worker i).id = (registry.worker j).id → i = j)
      ∧ (∀ i, (registry.worker i).state = .alive → 0 ≤ (registry.worker i).fd)
      ∧ (∀ i j, (registry.worker i).state = .alive →
        (registry.worker j).state = .alive →
        (registry.worker i).fd = (registry.worker j).fd → i = j)
      ∧ (∀ i, (registry.worker i).state = .dead →
        (registry.worker i).fd = -1)
      ∧ (∀ fd nowMs i, (registry.worker i).state = .alive →
        ((RegistryCall.register fd nowMs).run cells).2.registry.worker i
          = registry.worker i)
      ∧ (∀ id fd, ((RegistryCall.markDead id fd).run cells).1 = none →
        ∀ later i, ((RegistryCall.runAll later ((RegistryCall.markDead id
            fd).run cells).2).registry.worker i).state = .alive →
          ((RegistryCall.runAll later ((RegistryCall.markDead id
            fd).run cells).2).registry.worker i).id ≠ id)
      ∧ (∀ later i j, (registry.worker i).state = .alive →
        ((RegistryCall.runAll later cells).registry.worker j).state
          = .alive →
        ((RegistryCall.runAll later cells).registry.worker j).id
          = (registry.worker i).id →
        (registry.worker i).lastHeartbeatMs
          ≤ ((RegistryCall.runAll later cells).registry.worker
            j).lastHeartbeatMs)
      ∧ (∀ call id fd, ((∃ nowMs, call = RegistryCall.heartbeat id fd nowMs)
          ∨ call = .markDead id fd) → (call.run cells).1 = none →
        ∃ i, (registry.worker i).state = .alive
          ∧ (registry.worker i).id = id ∧ (registry.worker i).fd = fd
          ∧ ∀ j, j ≠ i →
            (call.run cells).2.registry.worker j = registry.worker j)
      ∧ (∀ call : RegistryCall, (call.run cells).1 ≠ none →
        (call.run cells).2 = cells)
      ∧ ∀ fd nowMs,
        ((RegistryCall.register fd nowMs).run cells).1 = some .full →
        ∀ i, (registry.worker i).state = .alive := by
  intro cells registry
  have h : registry.Sound := RegistryCall.runAll_keeps
    WorkerRegistry.Sound.step calls (restored_sound nextWorkerId)
  have hok (call : RegistryCall) (hnone : (call.run cells).1 = none) :
      RegistryStep registry call (call.run cells).2.registry := by
    rcases call.run_cases cells with ⟨hsome, -⟩ | ⟨-, hstep⟩
    · exact absurd hnone hsome
    · exact hstep
  refine ⟨fun i hi => ⟨h.nonzero i hi, h.issued i hi⟩, h.ids, h.descriptors,
    h.connections, h.dead, fun fd nowMs i hi => ?_,
    fun id fd hnone later i hi => ?_, fun later i j hi hj hid => ?_,
    fun call id fd hcall hnone => (hok call hnone).exact_pair hcall,
    fun call hfailed => ?_, fun fd nowMs hfull i => ?_⟩
  · rcases (RegistryCall.register fd nowMs).run_cases cells with
      ⟨-, hsame⟩ | ⟨-, hstep⟩
    · rw [hsame]
    · exact hstep.register_keeps hi
  · have hgone : (RegistryCall.runAll later ((RegistryCall.markDead id
        fd).run cells).2).registry.Gone id :=
      RegistryCall.runAll_keeps WorkerRegistry.Gone.step later
        ((hok _ hnone).dies h)
    exact hgone.dead i hi
  · have hlasts : (RegistryCall.runAll later cells).registry.Lasts i
        (registry.worker i) :=
      RegistryCall.runAll_keeps WorkerRegistry.Lasts.step later
        ⟨h, .inl ⟨hi, rfl, Int64.le_refl _⟩⟩
    obtain ⟨hsound, ⟨halive, hsame, hlater⟩ | hgone⟩ := hlasts
    · have hij := hsound.ids j i (by rw [hj]; decide) (by rw [halive]; decide)
        (hid.trans hsame.symm)
      rw [hij]
      exact hlater
    · exact absurd hid (hgone.dead j hj)
  · rcases call.run_cases cells with ⟨-, hsame⟩ | ⟨hnone, -⟩
    · exact hsame
    · exact absurd hnone hfailed
  · refine @workerRegister_full registry fd nowMs ?_ i
    simp only [RegistryCall.run] at hfull
    split at hfull
    · rename_i e hrun
      cases hfull
      exact hrun
    · cases hfull

end Faultline
