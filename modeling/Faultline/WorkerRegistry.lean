/-
The live worker registry (include/worker_registry.h,
src/coordinator/worker_registry.c): 64 slots and the id allocator.

A slot is UNUSED, ALIVE on an open descriptor, or DEAD and kept for
inspection until a registration reuses it. Loops over the slots are
searches for the first index that satisfies a test.
-/
import Mathlib.Data.List.FinRange
import Mathlib.Data.List.Basic

namespace Faultline

abbrev maxWorkers : Nat := 64

inductive WorkerState where
  | unused
  | alive
  | dead
deriving DecidableEq, Repr

structure Worker where
  id : UInt32
  fd : Int
  state : WorkerState
  lastHeartbeatMs : Int64
deriving DecidableEq, Repr

structure WorkerRegistry where
  workers : Vector Worker maxWorkers
  nextWorkerId : UInt32
deriving DecidableEq, Repr

/-- The non-OK members of `enum faultline_registry_result`. -/
inductive RegistryError where
  | invalidArgument
  | alreadyRegistered
  | full
  | idExhausted
  | notFound
  | notAlive
  | connectionMismatch
deriving DecidableEq, Repr

def unusedWorker : Worker :=
  { id := 0, fd := -1, state := .unused, lastHeartbeatMs := 0 }

def workerRegistryInit : WorkerRegistry :=
  { workers := Vector.replicate maxWorkers unusedWorker, nextWorkerId := 1 }

/-- `workers[i]`. -/
def WorkerRegistry.worker (registry : WorkerRegistry) (i : Fin maxWorkers) :
    Worker :=
  registry.workers.get i

/-- `workers[i] = worker`. -/
def WorkerRegistry.put (registry : WorkerRegistry) (i : Fin maxWorkers)
    (worker : Worker) : WorkerRegistry :=
  { registry with workers := registry.workers.set i worker i.isLt }

/-- The first slot whose worker passes a test. -/
def WorkerRegistry.firstSlot (registry : WorkerRegistry)
    (test : Worker → Bool) : Option (Fin maxWorkers) :=
  (List.finRange maxWorkers).find? fun i => test (registry.worker i)

def workerFindSlot (registry : WorkerRegistry) (workerId : UInt32) :
    Option (Fin maxWorkers) :=
  registry.firstSlot fun worker =>
    worker.state != .unused && worker.id == workerId

def workerFind (registry : WorkerRegistry) (workerId : UInt32) :
    Option Worker :=
  if workerId == 0 then none
  else (workerFindSlot registry workerId).map fun i => registry.worker i

def workerTimedOut (worker : Worker) (nowMs timeoutMs : Int64) : Bool :=
  worker.state == .alive && timeoutMs > 0 && worker.lastHeartbeatMs ≥ 0
    && nowMs ≥ worker.lastHeartbeatMs
    && nowMs - worker.lastHeartbeatMs ≥ timeoutMs

/-- `id == UINT32_MAX ? 0 : id + 1`: zero means ids are exhausted. -/
def nextWorkerIdAfter (id : UInt32) : UInt32 :=
  if id == 0xffffffff then 0 else id + 1

def workerRegister (registry : WorkerRegistry) (fd : Int) (nowMs : Int64) :
    Except RegistryError (UInt32 × WorkerRegistry) :=
  if fd < 0 || nowMs < 0 then .error .invalidArgument
  else if (registry.firstSlot fun worker =>
      worker.state == .alive && worker.fd == fd).isSome then
    .error .alreadyRegistered
  else
    match registry.firstSlot fun worker => worker.state != .alive with
    | none => .error .full
    | some slot =>
        if registry.nextWorkerId == 0 then .error .idExhausted
        else
          .ok (registry.nextWorkerId,
            WorkerRegistry.put
              { registry with
                nextWorkerId := nextWorkerIdAfter registry.nextWorkerId }
              slot
              { id := registry.nextWorkerId, fd, state := .alive,
                lastHeartbeatMs := nowMs })

def findLiveConnection (registry : WorkerRegistry) (workerId : UInt32)
    (fd : Int) : Except RegistryError (Fin maxWorkers) :=
  if fd < 0 then .error .invalidArgument
  else
    match workerFindSlot registry workerId with
    | none => .error .notFound
    | some slot =>
        if (registry.worker slot).state != .alive then .error .notAlive
        else if (registry.worker slot).fd != fd then
          .error .connectionMismatch
        else .ok slot

def workerHeartbeat (registry : WorkerRegistry) (workerId : UInt32)
    (fd : Int) (nowMs : Int64) : Except RegistryError WorkerRegistry :=
  if nowMs < 0 then .error .invalidArgument
  else
    match findLiveConnection registry workerId fd with
    | .error e => .error e
    | .ok slot =>
        if nowMs < (registry.worker slot).lastHeartbeatMs then
          .error .invalidArgument
        else
          .ok (registry.put slot
            { registry.worker slot with lastHeartbeatMs := nowMs })

def workerMarkDead (registry : WorkerRegistry) (workerId : UInt32)
    (fd : Int) : Except RegistryError WorkerRegistry :=
  match findLiveConnection registry workerId fd with
  | .error e => .error e
  | .ok slot =>
      .ok (registry.put slot
        { registry.worker slot with state := .dead, fd := -1 })

-- ========================================== what the calls do

@[simp]
theorem WorkerRegistry.worker_put_self (registry : WorkerRegistry)
    (i : Fin maxWorkers) (worker : Worker) :
    (registry.put i worker).worker i = worker :=
  Vector.getElem_set_self i.isLt

theorem WorkerRegistry.worker_put_of_ne {registry : WorkerRegistry}
    {i j : Fin maxWorkers} {worker : Worker} (h : j ≠ i) :
    (registry.put i worker).worker j = registry.worker j := by
  have hval : i.val ≠ j.val := fun hv => h (Fin.ext hv.symm)
  exact Vector.getElem_set_ne i.isLt j.isLt hval

@[simp]
theorem WorkerRegistry.nextWorkerId_put (registry : WorkerRegistry)
    (i : Fin maxWorkers) (worker : Worker) :
    (registry.put i worker).nextWorkerId = registry.nextWorkerId :=
  rfl

theorem worker_init (i : Fin maxWorkers) :
    workerRegistryInit.worker i = unusedWorker :=
  Vector.getElem_replicate i.isLt

theorem firstSlot_some {registry : WorkerRegistry} {test : Worker → Bool}
    {slot : Fin maxWorkers} (h : registry.firstSlot test = some slot) :
    test (registry.worker slot) = true := by
  have hfound := List.find?_some h
  exact hfound

theorem firstSlot_none {registry : WorkerRegistry} {test : Worker → Bool} :
    registry.firstSlot test = none
      ↔ ∀ slot : Fin maxWorkers, test (registry.worker slot) = false := by
  unfold WorkerRegistry.firstSlot
  rw [List.find?_eq_none]
  exact ⟨fun h slot => by simpa using h slot (List.mem_finRange slot),
    fun h slot _ => by simpa using h slot⟩

/-- A registration takes the allocator's id and a slot no live worker
holds, for a descriptor no live worker has. -/
theorem workerRegister_ok {registry registry' : WorkerRegistry} {fd : Int}
    {now : Int64} {id : UInt32}
    (h : workerRegister registry fd now = .ok (id, registry')) :
    id = registry.nextWorkerId ∧ id ≠ 0 ∧ 0 ≤ fd ∧ 0 ≤ now
      ∧ (∀ slot : Fin maxWorkers, (registry.worker slot).state = .alive →
          (registry.worker slot).fd ≠ fd)
      ∧ ∃ slot : Fin maxWorkers, (registry.worker slot).state ≠ .alive
        ∧ registry' =
          WorkerRegistry.put
            { registry with nextWorkerId := nextWorkerIdAfter id } slot
            { id, fd, state := .alive, lastHeartbeatMs := now } := by
  unfold workerRegister at h
  split at h
  · cases h
  rename_i hargs
  simp only [Bool.or_eq_true, decide_eq_true_eq, not_or] at hargs
  split at h
  · cases h
  rename_i hfd
  rw [Bool.not_eq_true, Option.isSome_eq_false_iff, Option.isNone_iff_eq_none,
    firstSlot_none] at hfd
  split at h
  · cases h
  rename_i slot hslot
  have hdead := firstSlot_some hslot
  split at h
  · cases h
  rename_i hnext
  cases h
  refine ⟨rfl, by simpa using hnext, by omega, by grind, ?_, slot, ?_, rfl⟩
  · intro i hi hfdi
    have := hfd i
    simp_all
  · simpa using hdead

theorem findLiveConnection_ok {registry : WorkerRegistry} {id : UInt32}
    {fd : Int} {slot : Fin maxWorkers}
    (h : findLiveConnection registry id fd = .ok slot) :
    0 ≤ fd ∧ (registry.worker slot).state = .alive
      ∧ (registry.worker slot).id = id ∧ (registry.worker slot).fd = fd := by
  unfold findLiveConnection at h
  split at h
  · cases h
  rename_i hfd
  split at h
  · cases h
  rename_i i hi
  have htest := firstSlot_some hi
  simp only [Bool.and_eq_true, beq_iff_eq] at htest
  split at h
  · cases h
  rename_i halive
  split at h
  · cases h
  rename_i hsame
  cases h
  exact ⟨by omega, by simpa using halive, htest.2, by simpa using hsame⟩

theorem workerHeartbeat_ok {registry registry' : WorkerRegistry}
    {id : UInt32} {fd : Int} {now : Int64}
    (h : workerHeartbeat registry id fd now = .ok registry') :
    ∃ slot : Fin maxWorkers, (registry.worker slot).state = .alive
      ∧ (registry.worker slot).id = id ∧ (registry.worker slot).fd = fd
      ∧ registry' = registry.put slot
          { registry.worker slot with lastHeartbeatMs := now } := by
  unfold workerHeartbeat at h
  split at h
  · cases h
  split at h
  · cases h
  rename_i slot hslot
  split at h
  · cases h
  cases h
  obtain ⟨-, h₁, h₂, h₃⟩ := findLiveConnection_ok hslot
  exact ⟨slot, h₁, h₂, h₃, rfl⟩

theorem workerMarkDead_ok {registry registry' : WorkerRegistry}
    {id : UInt32} {fd : Int}
    (h : workerMarkDead registry id fd = .ok registry') :
    ∃ slot : Fin maxWorkers, (registry.worker slot).state = .alive
      ∧ (registry.worker slot).id = id ∧ (registry.worker slot).fd = fd
      ∧ registry' = registry.put slot
          { registry.worker slot with state := .dead, fd := -1 } := by
  unfold workerMarkDead at h
  split at h
  · cases h
  rename_i slot hslot
  cases h
  obtain ⟨-, h₁, h₂, h₃⟩ := findLiveConnection_ok hslot
  exact ⟨slot, h₁, h₂, h₃, rfl⟩

end Faultline
