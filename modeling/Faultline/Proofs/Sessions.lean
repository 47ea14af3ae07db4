/-
Sessions on one log.

A world is the disk, the store of the running session if there is one, and
what its clients know: the view published last, the view one unfinished
operation was about to publish, and everything handed out so far. A step is
an operation that returns or stops with the machine, a close, a power loss,
or the open of the next session; scripts, clocks and arguments are
arbitrary throughout. The worlds reached this way start with the open that
creates the log (`World.Reachable`).
-/
import Faultline.Proofs.StartupRecovery

namespace Faultline

open Lib StoreCtx Scheduler

-- ======================================================= worlds

/-- The view an operation publishes when all its system calls succeed. -/
def StoreOp.intended (op : StoreOp) (c : StoreCtx) : Option View :=
  match op.run { c with machine := { c.machine with
      script := List.replicate appendRoom (.moved 0) } } with
  | .done (.ok, _) c' => some c'.store.view
  | _ => none

/-- The view of the next recovery step: the worker of the first active job
is lost, at the replayed job time. -/
def View.nextLoss (view : View) : Option View :=
  (view.jobs.jobs.find? fun job => job.state.active).map fun job =>
    { view with
      jobs := (schedulerWorkerLost view.jobs job.workerId view.jobTimeMs).2 }

structure World where
  disk : Disk
  /-- The store of the running session. -/
  live : Option CoordinatorStore
  /-- What the last operation that returned OK, or the last committed
  recovery step, published. -/
  published : View
  /-- What an operation that stopped, or failed in its I/O, was about to
  publish. -/
  uncertain : Option View
  /-- The outputs of all operations that returned OK, in order. -/
  issued : List StoreOutput

namespace World

/-- After an operation returned. -/
def returned (w : World) (op : StoreOp) (before : StoreCtx)
    (result : StoreResult) (output : StoreOutput) (after : StoreCtx) :
    World where
  disk := after.machine.disk
  live := some after.store
  published := if result = .ok then after.store.view else w.published
  uncertain :=
    if before.store.failure = .none ∧ after.store.failure = .wal then
      op.intended before
    else w.uncertain
  issued := if result = .ok then w.issued ++ [output] else w.issued

/-- After the machine stopped, with this content left. -/
def stopped (w : World) (disk : Disk) (content : List UInt8) : World :=
  { w with disk := disk.reboot content, live := none }

/-- After an open returned or stopped: what its store has replayed and
recovered is published. -/
def reopened (w : World) (result : Option StoreResult) (after : StoreCtx) :
    World where
  disk := after.machine.disk
  live := some after.store
  published := if after.store.replayed then after.store.view else w.published
  uncertain :=
    if result = some .ok then none
    else if after.store.replayed then after.store.view.nextLoss
    else w.uncertain
  issued := w.issued

inductive Step (w : World) : World → Prop where
  | operation {op : StoreOp} {store : CoordinatorStore} {m : Machine}
      {result : StoreResult} {output : StoreOutput} {c : StoreCtx}
      (live : w.live = some store) (disk : m.disk = w.disk)
      (run : op.run ⟨store, m⟩ = .done (result, output) c) :
      Step w (w.returned op ⟨store, m⟩ result output c)
  | operationStopped {op : StoreOp} {store : CoordinatorStore} {m : Machine}
      {c : StoreCtx} {content : List UInt8}
      (live : w.live = some store) (disk : m.disk = w.disk)
      (run : op.run ⟨store, m⟩ = .crash c)
      (survives : c.machine.disk.Survives content) :
      Step w { w.stopped c.machine.disk content with
        uncertain := op.intended ⟨store, m⟩ }
  | close {store : CoordinatorStore} {m : Machine} {result : StoreResult}
      {c : StoreCtx} (live : w.live = some store) (disk : m.disk = w.disk)
      (run : storeClose ⟨store, m⟩ = .done result c) :
      Step w { w with disk := c.machine.disk, live := none }
  | closeStopped {store : CoordinatorStore} {m : Machine} {c : StoreCtx}
      {content : List UInt8} (live : w.live = some store)
      (disk : m.disk = w.disk) (run : storeClose ⟨store, m⟩ = .crash c)
      (survives : c.machine.disk.Survives content) :
      Step w (w.stopped c.machine.disk content)
  | powerLoss {content : List UInt8} (survives : w.disk.Survives content) :
      Step w (w.stopped w.disk content)
  | opened {nowMs : Int64} {m : Machine} {result : StoreResult}
      {c : StoreCtx} (ended : w.live = none) (disk : m.disk = w.disk)
      (run : storeOpen false nowMs ⟨storeInit, m⟩ = .done result c) :
      Step w (w.reopened (some result) c)
  | openStopped {nowMs : Int64} {m : Machine} {c : StoreCtx}
      {content : List UInt8} (ended : w.live = none) (disk : m.disk = w.disk)
      (run : storeOpen false nowMs ⟨storeInit, m⟩ = .crash c)
      (survives : c.machine.disk.Survives content) :
      Step w ((w.reopened none c).stopped c.machine.disk content)

/-- Worlds reached from a first session whose open, which created the log,
succeeded. -/
inductive Reachable : World → Prop where
  | start {nowMs : Int64} {m : Machine} {c : StoreCtx}
      (run : storeOpen true nowMs ⟨storeInit, m⟩ = .done .ok c) :
      Reachable
        { disk := c.machine.disk, live := some c.store,
          published := c.store.view, uncertain := none, issued := [] }
  | step {w w' : World} (before : Reachable w) (step : Step w w') :
      Reachable w'

end World

-- ============================================ the first session

variable {entries base : List WalEntry} {l l' : Ledger} {w w' : World}
  {store : CoordinatorStore} {d : Disk} {content : List UInt8}

/-- A log is created empty and durable, or not at all. -/
theorem steps_create_closed {writer : WalWriter} (hw : writer.Closed)
    (m : Machine) :
    Steps False (fun _ => True) (fun c => c = ⟨writer, m⟩) walWriterCreate
      (fun c => c.machine.disk = logDisk [] ∧ c.writer = writer.created) := by
  cases hp : m.disk.present with
  | true =>
      have hopen := steps_openFile_refused (D := fun _ => True)
        (o := m.offset) (n := 0) hw hp trivial
      refine (hopen.andThen fun _ hc => hc.elim).pre fun c hc => ?_
      rw [hc]
      exact ⟨rfl, rfl, rfl, False.elim⟩
  | false =>
      have hsteps : Steps False (fun _ => True)
          (At False m.disk m.offset writer
            (0 + 2 + walFileHeaderEncode.length + 5)) walWriterCreate _ :=
        steps_create hw hp trivial (fun _ _ => trivial) trivial
      refine (hsteps.conseq (fun c hc => ?_) (fun r c hc => ?_)
        fun _ hc => hc)
      · rw [hc]
        exact ⟨rfl, rfl, rfl, False.elim⟩
      · refine hc.imp_left fun hok => ⟨hok.1, ?_, hok.2.writer⟩
        rw [hok.2.disk]
        simp [logDisk, Disk.create, Disk.append, Disk.sync, logBytes,
          recordsFrom]

theorem walWriterCreate_ok {writer : WalWriter} (hw : writer.Closed)
    {m : Machine} {c : WalCtx}
    (h : walWriterCreate ⟨writer, m⟩ = .done .ok c) :
    c.machine.disk = logDisk [] ∧ c.writer = writer.created := by
  rcases (steps_create_closed hw m).done rfl h with ⟨-, hcreated⟩ | ⟨hio, -⟩
  · exact hcreated
  · cases hio

theorem createLog_ok {m : Machine} {c : StoreCtx}
    (h : createLog ⟨storeInit, m⟩ = .done .ok c) :
    c.machine.disk = logDisk []
      ∧ c.store = { storeInit with wal := walWriterInit.created } := by
  obtain ⟨result, c₁, hcreate, hrest⟩ := Prog.bind_done h
  obtain ⟨w, hrun, rfl⟩ := onWal_done hcreate
  rw [Prog.bind_run, setStore_run] at hrest
  cases result with
  | ok =>
      obtain ⟨hdisk, hwriter⟩ := walWriterCreate_ok walWriterInit_closed hrun
      cases hrest
      refine ⟨hdisk, ?_⟩
      simp only [hwriter]
      rfl
  | _ => cases hrest

/-- The first session starts with an empty durable log. -/
theorem storeCreate_ok {nowMs : Int64} {m : Machine} {c : StoreCtx}
    (h : storeOpen true nowMs ⟨storeInit, m⟩ = .done .ok c) :
    c.machine.disk = logDisk [] ∧ Logged c.store [] .init := by
  unfold storeOpen at h
  rw [Prog.bind_run, getStore_run] at h
  simp only at h
  rw [if_neg (by decide)] at h
  by_cases hnow : nowMs < 0
  · rw [if_pos hnow] at h
    cases h
  rw [if_neg hnow] at h
  obtain ⟨result, c₁, hcreate, hstart⟩ := Prog.bind_done h
  cases result with
  | ok =>
      obtain ⟨hdisk, hstore⟩ := createLog_ok hcreate
      obtain ⟨store₁, m₁⟩ := c₁
      obtain rfl : store₁ = _ := hstore
      cases hstart
      refine ⟨hdisk, ⟨.nil, rfl, fun slot halive => ?_⟩, rfl, rfl⟩
      simp [storeInit, worker_init, unusedWorker] at halive
  | _ => cases hstart

-- ============================================= what the parts do

/-- A program that leaves the disk alone, returning or stopping. -/
def KeepsDisk {α : Type} (p : Prog WalCtx α) : Prop :=
  ∀ c, (p c).state.machine.disk = c.machine.disk

theorem KeepsDisk.bind {α β : Type} {p : Prog WalCtx α}
    {f : α → Prog WalCtx β} (hp : KeepsDisk p) (hf : ∀ a, KeepsDisk (f a)) :
    KeepsDisk (p >>= f) := by
  intro c
  have hfirst := hp c
  rw [Prog.bind_run]
  cases hrun : p c with
  | crash c' =>
      rw [hrun] at hfirst
      exact hfirst
  | done a c' =>
      rw [hrun] at hfirst
      exact (hf a c').trans hfirst

theorem keepsDisk_setWriter (update : WalWriter → WalWriter) :
    KeepsDisk (WalCtx.setWriter update) :=
  fun _ => rfl

theorem keepsDisk_closeDescriptor (isOpen : Bool)
    (operation : WalWriterOperation) :
    KeepsDisk (closeDescriptor isOpen operation) := by
  have honce : KeepsDisk (WalCtx.onMachine Machine.once) := by
    intro c
    have hdisk := Machine.once_disk c.machine
    unfold WalCtx.onMachine Prog.zoom
    cases hrun : Machine.once c.machine <;> (rw [hrun] at hdisk; exact hdisk)
  cases isOpen with
  | false => exact fun _ => rfl
  | true =>
      refine honce.bind fun a => ?_
      cases a with
      | ok => exact fun _ => rfl
      | error errno => exact keepsDisk_setWriter _

theorem keepsDisk_closeState : KeepsDisk closeState := by
  intro c
  unfold closeState
  split <;> rfl

theorem keepsDisk_walWriterClose : KeepsDisk walWriterClose := by
  intro c
  unfold walWriterClose
  split
  · rfl
  · exact ((keepsDisk_setWriter _).bind fun _ =>
      (keepsDisk_closeDescriptor _ _).bind fun _ =>
      (keepsDisk_setWriter _).bind fun _ =>
      (keepsDisk_closeDescriptor _ _).bind fun _ => keepsDisk_closeState) c

/-- Closing a store does not write. -/
theorem storeClose_disk (c : StoreCtx) :
    (storeClose c).state.machine.disk = c.machine.disk := by
  have hclose := keepsDisk_walWriterClose ⟨c.store.wal, c.machine⟩
  unfold storeClose
  rw [Prog.bind_run, setStore_run]
  simp only [Prog.bind_run, onWal, Prog.zoom]
  cases hrun : walWriterClose ⟨c.store.wal, c.machine⟩ with
  | crash w =>
      rw [hrun] at hclose
      exact hclose
  | done result w =>
      rw [hrun] at hclose
      cases result <;> exact hclose

/-- With all calls succeeding, an operation publishes its planned entry. -/
theorem StoreOp.intended_eq (h : Logged store entries l) {op : StoreOp}
    {m : Machine} (hdisk : m.disk = logDisk entries) {entry : WalEntry}
    {publish : CoordinatorStore → CoordinatorStore}
    (hplan : op.plan store = .append entry publish entry.output) :
    op.intended ⟨store, m⟩
      = some (recovered (entries ++ [entry])).view := by
  have hspec := storeOp_spec True (n := 0) h op
    ⟨store, { m with script := List.replicate appendRoom (.moved 0) }⟩
    ⟨hdisk, rfl, fun _ => by
      rw [Nat.zero_add]
      exact Machine.ready_replicate _ _ _ _⟩
  unfold intended
  cases hrun : op.run
      ⟨store, { m with script := List.replicate appendRoom (.moved 0) }⟩ with
  | crash c =>
      rw [hrun] at hspec
      exact absurd trivial hspec.hbad
  | done r c =>
      rw [hrun, hplan] at hspec
      cases hspec with
      | quiet heq => cases heq
      | committed heq step logged session here =>
          injection heq with hentry
          subst hentry
          exact congrArg some logged.agrees.view
      | broke heq step hbad => exact absurd trivial hbad

/-- The next recovery step of a halted recovery is its unfinished entry. -/
theorem nextLoss_eq {time : Int64} {pre suf : List Job} {job : Job}
    (h : Agrees store entries l)
    (htable : store.jobs.jobs = pre.map (recoverJob time) ++ job :: suf)
    (hact : job.state.active = true) (htime : store.lastJobTimeMs = time) :
    store.view.nextLoss
      = some (recovered (entries ++ [lossEntry time job])).view := by
  obtain ⟨hrep, hboard, hclock⟩ := h.rep
  have hinv := h.run.inv Ledger.inv_init
  have hmem : job ∈ store.jobs.jobs := by
    rw [htable]
    simp
  have hle : job.updatedAtMs ≤ time := by
    rw [← htime, hclock]
    refine hinv.times_le job ?_
    rw [← hboard]
    exact hmem
  have hnonneg : 0 ≤ time := by
    rw [← htime, hclock]
    exact hinv.clock_nonneg
  have hfind : (store.jobs.jobs.find? fun job => job.state.active)
      = some job := by
    rw [htable, List.find?_append]
    have hnone : ((pre.map (recoverJob time)).find? fun job =>
        job.state.active) = none := by
      rw [List.find?_eq_none]
      intro k hk
      obtain ⟨old, -, rfl⟩ := List.mem_map.mp hk
      rw [recoverJob_idle]
      simp
    rw [hnone, Option.none_or, List.find?_cons, hact]
  unfold View.nextLoss
  rw [show store.view.jobs.jobs = store.jobs.jobs from rfl, hfind,
    Option.map_some]
  rw [show store.view.jobTimeMs = time from htime,
    show store.view.jobs = store.jobs from rfl,
    workerLost_accepted hrep hmem hact hnonneg hle, lossEntry,
    h.view_snoc_job, failedAttempt_time]
  rw [← htime]
  rfl

end Faultline
