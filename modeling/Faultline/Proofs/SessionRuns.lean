/-
What every run of sessions keeps.

`World.Holding entries` ties a world to one legal history: every content
the disk can show, now or after a power loss, is that history, or that
history and the one entry whose view is uncertain; the published view is
the history's; and everything handed out is the output of one of its
entries. The history only ever grows. Each step keeps this
(`Holding.step`), so every reachable world has it.
-/
import Faultline.Proofs.Sessions

namespace Faultline

open Lib StoreCtx Scheduler

variable {entries base : List WalEntry} {entry : WalEntry} {l l' : Ledger}
  {w w' : World} {store : CoordinatorStore} {d d' : Disk}
  {content tail : List UInt8} {uncertain : Option View}

-- ===================================================== contents

/-- The file content is the history, or the history and one more entry
whose effect is the uncertain view. -/
def Allowed (uncertain : Option View) (entries : List WalEntry) (l : Ledger)
    (content : List UInt8) : Prop :=
  (∃ tail, Holds content entries tail l)
    ∨ ∃ entry l', l.Step entry l' ∧ Holds content (entries ++ [entry]) [] l'
      ∧ uncertain = some (recovered (entries ++ [entry])).view

theorem holds_logBytes (h : Ledger.Run .init entries l) :
    Holds (logBytes entries) entries [] l :=
  ⟨(List.append_nil _).symm, h, torn_nil _⟩

theorem admits_logDisk (h : Ledger.Run .init entries l) :
    (logDisk entries).Admits (Allowed uncertain entries l) := by
  have hallowed : Allowed uncertain entries l (logBytes entries) :=
    Or.inl ⟨[], holds_logBytes h⟩
  refine ⟨hallowed, fun content hs => ?_⟩
  rw [survives_logDisk hs]
  exact hallowed

theorem admits_unfinished (h : Unfinished entries entry d)
    (hrun : Ledger.Run .init entries l) (hstep : l.Step entry l') :
    d.Admits (Allowed (some (recovered (entries ++ [entry])).view)
      entries l) := by
  have hpart {part : List UInt8}
      (hpart : part <+: recordBytes (nextRecord entries entry)) :
      Allowed (some (recovered (entries ++ [entry])).view) entries l
        (logBytes entries ++ part) := by
    rcases holds_part hrun hstep hpart with holds | holds
    · exact Or.inl ⟨_, holds⟩
    · exact Or.inr ⟨entry, l', hstep, holds, rfl⟩
  refine ⟨?_, fun content hs => ?_⟩
  · obtain ⟨part, hfront, rfl⟩ := h
    exact hpart hfront
  · obtain ⟨part, hfront, rfl⟩ := h.survives hs
    exact hpart hfront

/-- Cutting the tail of an allowed content leaves an allowed content. -/
theorem Allowed.cut {l₁ : Ledger} (h : Allowed uncertain entries l content)
    (holds : Holds content base tail l₁) :
    Allowed uncertain entries l (logBytes base) := by
  rcases h with ⟨tail', holds'⟩ | ⟨entry, l', hstep, holds', hview⟩
  · obtain ⟨rfl, -⟩ := holds_unique holds holds'
    exact Or.inl ⟨[], holds_logBytes holds'.run⟩
  · obtain ⟨rfl, -⟩ := holds_unique holds holds'
    exact Or.inr ⟨entry, l', hstep, holds_logBytes holds'.run, hview⟩

/-- Replay's own changes to the disk are allowed. -/
theorem admits_recovering (hp : d.present = true)
    (h : d.Admits (Allowed uncertain entries l)) (hr : Recovering d d') :
    d'.Admits (Allowed uncertain entries l) := by
  cases hr with
  | untouched => exact h
  | cut holds =>
      refine ⟨?_, fun content hs =>
        h.2 content (Disk.survives_truncate.mp hs)⟩
      rw [show (d.truncate _).file = _ from file_of_holds holds]
      exact h.1.cut holds
  | synced holds =>
      rw [logDisk_of_holds hp holds]
      refine ⟨h.1.cut holds, fun content hs => ?_⟩
      rw [survives_logDisk hs]
      exact h.1.cut holds

-- =================================================== the invariant

/-- The running session: its store publishes the history, or its open
failed before it had one. -/
inductive Serving (w : World) (entries : List WalEntry) (l : Ledger)
    (store : CoordinatorStore) : Prop where
  | logged (agrees : Agrees store entries l)
      (published : w.published = store.view)
      (durable : w.disk.file.take w.disk.synced = logBytes entries)
      (healthy : store.failure = .none →
        Logged store entries l ∧ w.disk = logDisk entries)
  | refused (latched : store.failure ≠ .none)
      (jobs : store.jobs = schedulerInit)
      (workers : store.workers = workerRegistryInit)

namespace World

structure Holding (w : World) (entries : List WalEntry) (l : Ledger) :
    Prop where
  run : Ledger.Run .init entries l
  present : w.disk.present = true
  contents : w.disk.Admits (Allowed w.uncertain entries l)
  known : w.published = (recovered entries).view
    ∨ w.uncertain = some (recovered entries).view
  issued : (w.issued.filter (· ≠ .none)).Sublist (entries.map WalEntry.output)
  live : ∀ store, w.live = some store → Serving w entries l store

end World

open World

/-- An operation on a store that is not usable answers at once. -/
theorem StoreOp.Planned.quiet_of_unusable {op : StoreOp} {plan : Plan}
    (h : op.Planned store plan) (hun : store.usable = false) :
    ∃ result store', plan = .quiet result store'
      ∧ (result ≠ .ok ∧ store' = store
        ∨ ∃ slot : Fin maxWorkers,
          (store.workers.worker slot).state = .alive) := by
  have habsurd {α : Prop} (husable : store.usable = true) : α := by
    rw [hun] at husable
    cases husable
  cases h with
  | refused hne => exact ⟨_, _, rfl, Or.inl ⟨hne, rfl⟩⟩
  | latched failure hkind husable => exact habsurd husable
  | heartbeat hop hok =>
      obtain ⟨slot, halive, -⟩ := workerHeartbeat_ok hok
      exact ⟨_, _, rfl, Or.inr ⟨slot, halive⟩⟩
  | markDead hop hok =>
      obtain ⟨slot, halive, -⟩ := workerMarkDead_ok hok
      exact ⟨_, _, rfl, Or.inr ⟨slot, halive⟩⟩
  | register hop husable hok => exact habsurd husable
  | job husable hstep htime hemits => exact habsurd husable

theorem CoordinatorStore.usable_of_latched (h : store.failure ≠ .none) :
    store.usable = false := by
  simp [CoordinatorStore.usable, h]

/-- An operation that appends nothing. -/
theorem World.Holding.quiet (h : w.Holding entries l)
    (hagrees : Agrees store entries l) (hpublished : w.published = store.view)
    (hdurable : w.disk.file.take w.disk.synced = logBytes entries)
    (hhealthy : store.failure = .none →
      Logged store entries l ∧ w.disk = logDisk entries)
    {op : StoreOp} {m : Machine} {result : StoreResult} {c : StoreCtx}
    (hdisk : c.machine.disk = w.disk)
    (heff : Agrees.Effect store entries l (.quiet result c.store)) :
    (w.returned op ⟨store, m⟩ result .none c).Holding entries l := by
  obtain ⟨agrees, hwal, -, hfailure⟩ := heff
  have hview : (if result = .ok then c.store.view else w.published)
      = (recovered entries).view := by
    split
    · exact agrees.view
    · exact hpublished.trans hagrees.view
  have hnot : ¬ (store.failure = .none ∧ c.store.failure = .wal) := by
    rintro ⟨hnone, hw⟩
    rw [hw, hnone] at hfailure
    simp at hfailure
  have huncertain : (w.returned op ⟨store, m⟩ result .none c).uncertain
      = w.uncertain := if_neg hnot
  have hdisk' : (w.returned op ⟨store, m⟩ result .none c).disk = w.disk :=
    hdisk
  refine ⟨h.run, hdisk' ▸ h.present, ?_, Or.inl hview, ?_, ?_⟩
  · rw [hdisk', huncertain]
    exact h.contents
  · show ((if result = .ok then w.issued ++ [.none] else w.issued).filter
      (· ≠ .none)).Sublist _
    split
    · simpa using h.issued
    · exact h.issued
  · rintro s hs
    obtain rfl : c.store = s := Option.some.inj hs
    refine .logged agrees (hview.trans agrees.view.symm) ?_ fun hnone => ?_
    · rw [hdisk']
      exact hdurable
    · have hold : store.failure = .none := by
        rcases hfailure with hsame | hclock | hinternal
        · rw [← hsame, hnone]
        · rw [hclock] at hnone
          cases hnone
        · rw [hinternal] at hnone
          cases hnone
      obtain ⟨hlogged, hlogDisk⟩ := hhealthy hold
      exact ⟨⟨agrees, by rw [hwal]; exact hlogged.state,
        by rw [hwal]; exact hlogged.next⟩, hdisk'.trans hlogDisk⟩

/-- A refused operation of a session without a history. -/
theorem World.Holding.refuse (h : w.Holding entries l)
    (hlatched : store.failure ≠ .none) (hjobs : store.jobs = schedulerInit)
    (hworkers : store.workers = workerRegistryInit) (op : StoreOp)
    {m : Machine} (hm : m.disk = w.disk) :
    ∃ result, op.run ⟨store, m⟩ = .done (result, .none) ⟨store, m⟩
      ∧ (w.returned op ⟨store, m⟩ result .none ⟨store, m⟩).Holding
          entries l := by
  have hrep : store.jobs.Rep := by
    rw [hjobs]
    exact rep_init
  obtain ⟨result, store', hplan, hquiet⟩ :=
    (op.plan_cases hrep).quiet_of_unusable
      (CoordinatorStore.usable_of_latched hlatched)
  rcases hquiet with ⟨hne, rfl⟩ | ⟨slot, halive⟩
  · refine ⟨result, ?_, h.run, ?_, ?_, ?_, ?_, ?_⟩
    · rw [op.run_eq, hplan]
      rfl
    all_goals simp only [World.returned, hne, hlatched, false_and, if_false, hm]
    · exact h.present
    · exact h.contents
    · exact h.known
    · exact h.issued
    · rintro s hs
      obtain rfl : store' = s := Option.some.inj hs
      exact .refused hlatched hjobs hworkers
  · rw [hworkers] at halive
    simp [worker_init, unusedWorker] at halive

/-- An operation whose entry became durable. -/
theorem World.Holding.committed (h : w.Holding entries l) {op : StoreOp}
    {m : Machine} {c : StoreCtx} (hstep : l.Step entry l')
    (logged : Logged c.store (entries ++ [entry]) l')
    (hdisk : c.machine.disk = logDisk (entries ++ [entry])) :
    (w.returned op ⟨store, m⟩ .ok entry.output c).Holding
      (entries ++ [entry]) l' := by
  have hdisk' : (w.returned op ⟨store, m⟩ .ok entry.output c).disk
      = logDisk (entries ++ [entry]) := hdisk
  refine ⟨h.run.snoc hstep, by rw [hdisk']; rfl, ?_,
    Or.inl (by simp only [World.returned, if_true]; exact logged.agrees.view), ?_, ?_⟩
  · rw [hdisk']
    exact admits_logDisk (h.run.snoc hstep)
  · simp only [World.returned, if_true, List.filter_append, List.map_append]
    exact h.issued.append (List.filter_sublist)
  · rintro s hs
    obtain rfl : c.store = s := Option.some.inj hs
    refine .logged logged.agrees ?_ ?_ fun _ => ⟨logged, hdisk'⟩
    · simp only [World.returned, if_true]
    · rw [hdisk']
      exact List.take_length

/-- An operation that failed in its append. -/
theorem World.Holding.broke (h : w.Holding entries l)
    (hlogged : Logged store entries l) (hlogDisk : w.disk = logDisk entries)
    (hpublished : w.published = store.view) (hnone : store.failure = .none)
    {op : StoreOp} {m : Machine} (hm : m.disk = w.disk) {c : StoreCtx}
    {publish : CoordinatorStore → CoordinatorStore}
    (hplan : op.plan store = .append entry publish entry.output)
    (hstep : l.Step entry l') {writer : WalWriter}
    (hstore : c.store = store.broken writer)
    (hdisk : Unfinished entries entry c.machine.disk) :
    (w.returned op ⟨store, m⟩ .fatal .none c).Holding entries l := by
  have hbroken : store.broken writer
      = { store with wal := writer, writeResult := .ioError,
                     failure := .wal } := by
    simp [CoordinatorStore.broken, CoordinatorStore.fail, hnone]
  rw [hbroken] at hstore
  have hwal : c.store.failure = .wal := by rw [hstore]
  have huncertain : (w.returned op ⟨store, m⟩ .fatal .none c).uncertain
      = some (recovered (entries ++ [entry])).view := by
    show (if _ then _ else _) = _
    rw [if_pos ⟨hnone, hwal⟩]
    exact StoreOp.intended_eq hlogged (hm.trans hlogDisk) hplan
  have hagrees : Agrees c.store entries l := by
    rw [hstore]
    exact hlogged.agrees.of_same ⟨rfl, rfl, rfl⟩
  refine ⟨h.run, ?_, ?_, Or.inl (hpublished.trans hlogged.agrees.view),
    h.issued, ?_⟩
  · obtain ⟨part, -, hpart⟩ := hdisk
    show c.machine.disk.present = true
    rw [hpart]
    rfl
  · rw [huncertain]
    exact admits_unfinished hdisk h.run hstep
  · rintro s hs
    obtain rfl : c.store = s := Option.some.inj hs
    refine .logged hagrees ?_ ?_ fun hfailure => ?_
    · show w.published = _
      rw [hpublished, hstore]
      rfl
    · obtain ⟨part, -, hpart⟩ := hdisk
      show c.machine.disk.file.take c.machine.disk.synced = _
      rw [hpart]
      exact List.take_left' rfl
    · rw [hwal] at hfailure
      cases hfailure

/-- An operation that returned. -/
theorem World.Holding.operation (h : w.Holding entries l) {op : StoreOp}
    {m : Machine} {result : StoreResult} {output : StoreOutput}
    {c : StoreCtx} (hlive : w.live = some store) (hm : m.disk = w.disk)
    (hrun : op.run ⟨store, m⟩ = .done (result, output) c) :
    ∃ more l', (w.returned op ⟨store, m⟩ result output c).Holding
      (entries ++ more) l' := by
  cases h.live store hlive with
  | refused hlatched hjobs hworkers =>
      obtain ⟨r, hquiet, hholding⟩ :=
        h.refuse hlatched hjobs hworkers op hm
      rw [hrun] at hquiet
      cases hquiet
      exact ⟨[], l, by simpa using hholding⟩
  | logged hagrees hpublished hdurable hhealthy =>
      have heff := hagrees.planned (op.plan_cases hagrees.rep.1)
      by_cases hnone : store.failure = .none
      · obtain ⟨hlogged, hlogDisk⟩ := hhealthy hnone
        have hspec := (storeOp_spec False (n := 0) hlogged op).done
          ⟨hm.trans hlogDisk, rfl, False.elim⟩ hrun
        cases hspec with
        | quiet hplan here =>
            rw [hplan] at heff
            exact ⟨[], l, by
              simpa using h.quiet hagrees hpublished hdurable hhealthy
                (here.disk.trans hlogDisk.symm) heff⟩
        | committed hplan hstep logged session here =>
            exact ⟨_, _, h.committed hstep logged here.disk⟩
        | broke hplan hstep hbad hstore hdisk =>
            obtain ⟨writer, hstore⟩ := hstore
            exact ⟨[], l, by
              simpa using h.broke hlogged hlogDisk hpublished hnone hm hplan
                hstep hstore hdisk⟩
      · obtain ⟨r, store', hplan, -⟩ :=
          (op.plan_cases hagrees.rep.1).quiet_of_unusable
            (CoordinatorStore.usable_of_latched hnone)
        rw [op.run_eq, hplan] at hrun
        cases hrun
        rw [hplan] at heff
        exact ⟨[], l, by
          simpa using h.quiet hagrees hpublished hdurable hhealthy hm heff⟩

/-- An operation the machine stopped in. -/
theorem World.Holding.operationStopped (h : w.Holding entries l)
    {op : StoreOp} {m : Machine} {c : StoreCtx} (hlive : w.live = some store)
    (hm : m.disk = w.disk) (hrun : op.run ⟨store, m⟩ = .crash c)
    (hs : c.machine.disk.Survives content) :
    World.Holding { w.stopped c.machine.disk content with
      uncertain := op.intended ⟨store, m⟩ } entries l := by
  cases h.live store hlive with
  | refused hlatched hjobs hworkers =>
      obtain ⟨r, hquiet, -⟩ := h.refuse hlatched hjobs hworkers op hm
      rw [hrun] at hquiet
      cases hquiet
  | logged hagrees hpublished hdurable hhealthy =>
      by_cases hnone : store.failure = .none
      · obtain ⟨hlogged, hlogDisk⟩ := hhealthy hnone
        have hspec := (storeOp_spec False (n := 0) hlogged op).crash
          ⟨hm.trans hlogDisk, rfl, False.elim⟩ hrun
        obtain ⟨entry, publish, l', hplan, hstep, hdisk⟩ := hspec.planned
        have hintended :=
          StoreOp.intended_eq hlogged (hm.trans hlogDisk) hplan
        refine ⟨h.run, ?_, ?_, Or.inl (hpublished.trans hagrees.view),
          h.issued, fun s hs => by cases hs⟩
        · obtain ⟨part, -, hpart⟩ := hdisk
          show c.machine.disk.present = true
          rw [hpart]
          rfl
        · simp only [hintended]
          exact (admits_unfinished hdisk h.run hstep).reboot hs
      · obtain ⟨r, store', hplan, -⟩ :=
          (op.plan_cases hagrees.rep.1).quiet_of_unusable
            (CoordinatorStore.usable_of_latched hnone)
        rw [op.run_eq, hplan] at hrun
        cases hrun

/-- The end of a session, with the disk as it is. -/
theorem World.Holding.ended (h : w.Holding entries l) :
    World.Holding { w with live := none } entries l :=
  ⟨h.run, h.present, h.contents, h.known, h.issued, fun _ hs => by cases hs⟩

/-- The end of a session by a power loss. -/
theorem World.Holding.stopped (h : w.Holding entries l)
    (hs : w.disk.Survives content) :
    (w.stopped w.disk content).Holding entries l :=
  ⟨h.run, h.present, h.contents.reboot hs, h.known, h.issued,
    fun _ hs => by cases hs⟩

/-- A running session on a world without one. -/
theorem World.Holding.serve
    (h : World.Holding { w with live := none } entries l)
    (hlive : w.live = some store) (hserving : Serving w entries l store) :
    w.Holding entries l := by
  refine ⟨h.run, h.present, h.contents, h.known, h.issued, fun s hs => ?_⟩
  obtain rfl : store = s := Option.some.inj (hlive.symm.trans hs)
  exact hserving

/-- A replayed history continues the known one. -/
theorem Allowed.extends {l₁ : Ledger}
    (h : Allowed uncertain entries l content)
    (holds : Holds content base tail l₁) : ∃ more, base = entries ++ more := by
  rcases h with ⟨tail', holds'⟩ | ⟨entry, l', -, holds', -⟩
  · exact ⟨[], by rw [List.append_nil]; exact (holds_unique holds holds').1⟩
  · exact ⟨[entry], (holds_unique holds holds').1⟩

theorem Recovering.present (h : Recovering d d') (hp : d.present = true) :
    d'.present = true := by
  cases h <;> exact hp

/-- An open that ended before it published anything. -/
theorem World.Holding.early (h : w.Holding entries l) {c : StoreCtx}
    (hearly : Early w.disk c) (result : Option StoreResult)
    (hresult : result ≠ some .ok) :
    World.Holding { w.reopened result c with live := none } entries l := by
  refine ⟨h.run, hearly.disk.present h.present, ?_, ?_, h.issued,
    fun _ hs => by cases hs⟩ <;>
    simp only [World.reopened, hearly.unpublished, hresult, if_false,
      Bool.false_eq_true]
  · exact admits_recovering h.present h.contents hearly.disk
  · exact h.known

/-- An open whose recovery halted. -/
theorem World.Holding.halted (h : w.Holding entries l) {c : StoreCtx}
    {l₁ : Ledger} (holds : Holds w.disk.file base tail l₁)
    (hhalted : Halted l₁.clock l₁.board.jobs base (reportOf base tail) c)
    (result : Option StoreResult) (hresult : result ≠ some .ok) :
    ∃ more l', World.Holding { w.reopened result c with live := none }
        (entries ++ more) l'
      ∧ Agrees c.store (entries ++ more) l'
      ∧ c.machine.disk.file.take c.machine.disk.synced
        = logBytes (entries ++ more) := by
  obtain ⟨more, rfl⟩ := h.contents.1.extends holds
  obtain ⟨pre, job, suf, l', l'', hjobs, hact, htable, htime, hagrees, hstep,
    hdisk⟩ := hhalted.progress
  have hreplayed := CoordinatorStore.replayed_reportOf hhalted.replayed
  have hnext := nextLoss_eq hagrees htable hact htime
  refine ⟨more ++ lossEntries l₁.clock pre, l', ?_, ?_⟩ <;>
    rw [← List.append_assoc]
  · refine ⟨hagrees.run, ?_, ?_, ?_, ?_, fun _ hs => by cases hs⟩ <;>
      simp only [World.reopened, hreplayed, hresult, if_false, if_true]
    · obtain ⟨part, -, hpart⟩ := hdisk
      rw [hpart]
      rfl
    · rw [hnext]
      exact admits_unfinished hdisk hagrees.run hstep
    · exact Or.inl hagrees.view
    · rw [List.append_assoc, List.map_append]
      exact h.issued.trans (List.sublist_append_left _ _)
  · refine ⟨hagrees, ?_⟩
    obtain ⟨part, -, hpart⟩ := hdisk
    rw [hpart]
    exact List.take_left' rfl

/-- The open of the next session. -/
theorem World.Holding.opened (h : w.Holding entries l) {nowMs : Int64}
    {m : Machine} {result : StoreResult} {c : StoreCtx}
    (hm : m.disk = w.disk)
    (hrun : storeOpen false nowMs ⟨storeInit, m⟩ = .done result c) :
    ∃ more l', (w.reopened (some result) c).Holding (entries ++ more) l' := by
  have hspec := (storeOpen_spec False nowMs (n := 0)
    h.present).done ⟨hm, rfl, False.elim⟩ hrun
  cases hspec with
  | @opened _ _ l₁ _ holds recovery isOpen here =>
      obtain ⟨more, rfl⟩ := h.contents.1.extends holds
      obtain ⟨l', hlogged⟩ := recovery.logged
      rw [List.take_length] at hlogged
      have hreplayed := CoordinatorStore.replayed_reportOf recovery.replayed
      refine ⟨more ++ lossEntries l₁.clock l₁.board.jobs, l', ?_⟩
      rw [← List.append_assoc]
      refine ⟨hlogged.agrees.run, ?_, ?_, ?_, ?_, ?_⟩ <;>
        simp only [World.reopened, hreplayed, here.disk, if_true]
      · rfl
      · exact admits_logDisk hlogged.agrees.run
      · exact Or.inl hlogged.agrees.view
      · rw [List.append_assoc, List.map_append]
        exact h.issued.trans (List.sublist_append_left _ _)
      · rintro s hs
        obtain rfl : c.store = s := Option.some.inj hs
        exact .logged hlogged.agrees rfl List.take_length
          fun _ => ⟨hlogged, rfl⟩
  | halted holds halted latched _ =>
      obtain ⟨more, l', hholding, hagrees, hdurable⟩ :=
        h.halted holds halted (some .fatal) (by simp)
      refine ⟨more, l', hholding.serve rfl (.logged hagrees ?_ hdurable
        fun hnone => absurd hnone latched)⟩
      simp only [World.reopened,
        CoordinatorStore.replayed_reportOf halted.replayed, if_true]
  | early early latched _ =>
      refine ⟨[], l, ?_⟩
      rw [List.append_nil]
      exact (h.early early (some .fatal) (by simp)).serve rfl
        (.refused latched early.jobs early.workers)

/-- An open the machine stopped in. -/
theorem World.Holding.openStopped (h : w.Holding entries l) {nowMs : Int64}
    {m : Machine} {c : StoreCtx} (hm : m.disk = w.disk)
    (hrun : storeOpen false nowMs ⟨storeInit, m⟩ = .crash c)
    (hs : c.machine.disk.Survives content) :
    ∃ more l', ((w.reopened none c).stopped c.machine.disk content).Holding
      (entries ++ more) l' := by
  have hspec := (storeOpen_spec False nowMs (n := 0)
    h.present).crash ⟨hm, rfl, False.elim⟩ hrun
  cases hspec with
  | halted holds halted _ =>
      obtain ⟨more, l', hholding, -, -⟩ :=
        h.halted holds halted none (by simp)
      exact ⟨more, l', hholding.stopped hs⟩
  | early early _ =>
      refine ⟨[], l, ?_⟩
      rw [List.append_nil]
      exact (h.early early none (by simp)).stopped hs

/-- Every step keeps the invariant and only extends the history. -/
theorem World.Holding.step (h : w.Holding entries l) (hstep : w.Step w') :
    ∃ more l', w'.Holding (entries ++ more) l' := by
  have hsame {w' : World} (h' : w'.Holding entries l) :
      ∃ more l', w'.Holding (entries ++ more) l' :=
    ⟨[], l, by rw [List.append_nil]; exact h'⟩
  cases hstep with
  | operation live disk run => exact h.operation live disk run
  | operationStopped live disk run survives =>
      exact hsame (h.operationStopped live disk run survives)
  | @close store m result c live disk run =>
      have hdisk : c.machine.disk = w.disk := by
        have hclose := storeClose_disk ⟨store, m⟩
        rw [run] at hclose
        exact hclose.trans disk
      rw [hdisk]
      exact hsame h.ended
  | @closeStopped store m c content live disk run survives =>
      have hdisk : c.machine.disk = w.disk := by
        have hclose := storeClose_disk ⟨store, m⟩
        rw [run] at hclose
        exact hclose.trans disk
      rw [hdisk] at survives ⊢
      exact hsame (h.stopped survives)
  | powerLoss survives => exact hsame (h.stopped survives)
  | opened ended disk run => exact h.opened disk run
  | openStopped ended disk run survives =>
      exact h.openStopped disk run survives

/-- Every reachable world holds a history. -/
theorem World.Reachable.holding (h : w.Reachable) :
    ∃ entries l, w.Holding entries l := by
  induction h with
  | start run =>
      obtain ⟨hdisk, hlogged⟩ := storeCreate_ok run
      refine ⟨[], .init, .nil, by rw [hdisk]; rfl, ?_,
        Or.inl hlogged.agrees.view, List.Sublist.refl _, ?_⟩
      · rw [hdisk]
        exact admits_logDisk .nil
      · rintro s hs
        obtain rfl := Option.some.inj hs
        refine .logged hlogged.agrees rfl ?_ fun _ => ⟨hlogged, hdisk⟩
        rw [hdisk]
        exact List.take_length
  | step before step ih =>
      obtain ⟨entries, l, h⟩ := ih
      obtain ⟨more, l', h'⟩ := h.step step
      exact ⟨_, l', h'⟩

-- =================================================== instances

/-- Run operations one after the other, as long as they return OK. -/
def StoreOp.runAll : List StoreOp → StoreCtx →
    Option (List StoreOutput × StoreCtx)
  | [], c => some ([], c)
  | op :: ops, c =>
      match op.run c with
      | .done (.ok, output) c' =>
          (runAll ops c').map fun (outputs, last) => (output :: outputs, last)
      | _ => none

/-- A session that continues with operations that all return OK. -/
theorem World.Reachable.runAll {ops : List StoreOp} {c c' : StoreCtx}
    {outputs : List StoreOutput} (h : w.Reachable)
    (hlive : w.live = some c.store) (hdisk : c.machine.disk = w.disk)
    (hrun : StoreOp.runAll ops c = some (outputs, c')) :
    ∃ w' : World, w'.Reachable ∧ w'.live = some c'.store
      ∧ w'.disk = c'.machine.disk ∧ w'.issued = w.issued ++ outputs := by
  induction ops generalizing w c outputs with
  | nil =>
      obtain ⟨rfl, rfl⟩ := Prod.mk.inj (Option.some.inj hrun)
      exact ⟨w, h, hlive, hdisk.symm, (List.append_nil _).symm⟩
  | cons op ops ih =>
      unfold StoreOp.runAll at hrun
      split at hrun
      · rename_i output c₁ hop
        obtain ⟨⟨rest, last⟩, hrest, heq⟩ := Option.map_eq_some_iff.mp hrun
        obtain ⟨rfl, rfl⟩ := Prod.mk.inj heq
        obtain ⟨w', hreach, hlive', hdisk', hissued⟩ :=
          ih (.step h (.operation hlive hdisk hop)) rfl rfl hrest
        refine ⟨w', hreach, hlive', hdisk', ?_⟩
        rw [hissued]
        simp [World.returned]
      · cases hrun

/-- The store of a first session that was opened at time 5. -/
def firstStore : CoordinatorStore :=
  { storeInit with
    wal := walWriterInit.created, opened := true, sessionStartMs := 5 }

/-- A machine without a log. -/
def emptyMachine : Machine :=
  { disk := .blank, offset := 0, script := List.replicate 8 (.moved 99) }

theorem firstStore_opened : storeOpen true 5 ⟨storeInit, emptyMachine⟩
    = .done .ok ⟨firstStore, ⟨logDisk [], 0, []⟩⟩ := by
  decide +kernel

/-- A machine that holds the log of a first session. -/
def firstMachine : Machine :=
  ⟨logDisk [], 0, List.replicate (2 * appendRoom) (.moved 99)⟩

def emptyJob : JobSubmitPayload :=
  { taskType := 4, maxRetries := 1, arguments := [] }

end Faultline
