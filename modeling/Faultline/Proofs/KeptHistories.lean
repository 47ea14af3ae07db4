/-
What a disk can show, and what it shows across restarts.

`DiskKeeps P` says that every content the disk can show, now or after a power
loss, is a legal history with the property `P`, torn tail or not. A store keeps
`P` if its own history has it and its disk does, which shows that history or a
longer one (`StoreKeeps`). An operation keeps both as long as `P` holds of the
history with the operation's entry, be it committed, half written or lost; so
does an open, whose recovery only appends losses. Nothing is said about how a
session ended: a process that exits or is killed and a machine that loses power
leave a disk that keeps `P` (`DiskLeft`).
-/
import Faultline.Proofs.JobsEvolve
import Faultline.Proofs.SessionRuns

namespace Faultline

open Lib StoreCtx Scheduler

variable {P : List WalEntry → Prop} {entries base : List WalEntry}
  {entry : WalEntry} {l l' : Ledger} {d d' : Disk} {c c' : StoreCtx}
  {Good : Job → Prop} {op : StoreOp} {out : StoreResult × StoreOutput}
  {tail : List UInt8}

-- ======================================================== disks

structure DiskKeeps (P : List WalEntry → Prop) (d : Disk) : Prop where
  present : d.present = true
  shows : d.Admits fun content =>
    ∃ base tail l, Holds content base tail l ∧ P base

/-- What is left of a disk when a process ends, or the power fails. -/
inductive DiskLeft (d : Disk) : Disk → Prop where
  | process : DiskLeft d d
  | power {content : List UInt8} (survives : d.Survives content) :
      DiskLeft d (d.reboot content)

theorem DiskKeeps.left (h : DiskKeeps P d) (left : DiskLeft d d') :
    DiskKeeps P d' := by
  cases left with
  | process => exact h
  | power survives => exact ⟨h.present, h.shows.reboot survives⟩

theorem diskKeeps_logDisk (run : Ledger.Run .init entries l)
    (kept : P entries) : DiskKeeps P (logDisk entries) := by
  have hshown : ∃ base tail l, Holds (logBytes entries) base tail l ∧ P base :=
    ⟨entries, [], l, holds_logBytes run, kept⟩
  refine ⟨rfl, hshown, fun content hs => ?_⟩
  rw [survives_logDisk hs]
  exact hshown

/-- An unfinished append shows the history with its entry, or without. -/
theorem diskKeeps_unfinished (h : Unfinished entries entry d)
    (run : Ledger.Run .init entries l) (step : l.Step entry l')
    (kept : P entries) (grown : P (entries ++ [entry])) : DiskKeeps P d := by
  have hshown {part : List UInt8}
      (hpart : part <+: recordBytes (nextRecord entries entry)) :
      ∃ base tail l, Holds (logBytes entries ++ part) base tail l
        ∧ P base := by
    rcases holds_part run step hpart with holds | holds
    · exact ⟨entries, part, l, holds, kept⟩
    · exact ⟨entries ++ [entry], [], l', holds, grown⟩
  refine ⟨?_, ?_, fun content hs => ?_⟩
  · obtain ⟨part, -, rfl⟩ := h
    rfl
  · obtain ⟨part, hfront, rfl⟩ := h
    exact hshown hfront
  · obtain ⟨part, hfront, rfl⟩ := h.survives hs
    exact hshown hfront

/-- The history a disk shows now. -/
theorem DiskKeeps.held (h : DiskKeeps P d) (holds : Holds d.file base tail l) :
    P base := by
  obtain ⟨base', tail', l', holds', hP⟩ := h.shows.1
  obtain ⟨rfl, -⟩ := holds_unique holds holds'
  exact hP

/-- A replay cuts the torn tail, and keeps the rest. -/
theorem DiskKeeps.recovering (h : DiskKeeps P d) (hr : Recovering d d') :
    DiskKeeps P d' := by
  cases hr with
  | untouched => exact h
  | @cut base tail l holds =>
      refine ⟨h.present, ?_, fun content hs =>
        h.shows.2 content (Disk.survives_truncate.mp hs)⟩
      rw [show (d.truncate _).file = _ from file_of_holds holds]
      exact ⟨base, [], l, holds_logBytes holds.run, h.held holds⟩
  | synced holds =>
      rw [logDisk_of_holds h.present holds]
      exact diskKeeps_logDisk holds.run (h.held holds)

-- ======================================================= stores

structure StoreKeeps (P : List WalEntry → Prop) (c : StoreCtx)
    (entries : List WalEntry) (l : Ledger) : Prop where
  agrees : Agrees c.store entries l
  kept : P entries
  disk : DiskKeeps P c.machine.disk
  ahead : DiskKeeps (entries <+: ·) c.machine.disk
  healthy : c.store.failure = .none →
    Logged c.store entries l ∧ c.machine.disk = logDisk entries

/-- The store keeps `P`, with some history. -/
def StoreKept (P : List WalEntry → Prop) (c : StoreCtx) : Prop :=
  ∃ entries l, StoreKeeps P c entries l

/-- A store on the durable log of its history. -/
theorem storeKeeps_logged (logged : Logged c.store entries l)
    (disk : c.machine.disk = logDisk entries) (kept : P entries) :
    StoreKeeps P c entries l :=
  ⟨logged.agrees, kept, disk ▸ diskKeeps_logDisk logged.agrees.run kept,
    disk ▸ diskKeeps_logDisk logged.agrees.run List.prefix_rfl,
    fun _ => ⟨logged, disk⟩⟩

/-- The machine under a store changes, its disk does not. -/
theorem StoreKeeps.environment (h : StoreKeeps P c entries l) {m : Machine}
    (disk : m.disk = c.machine.disk) :
    StoreKeeps P ⟨c.store, m⟩ entries l := by
  obtain ⟨agrees, kept, hdisk, ahead, healthy⟩ := h
  refine ⟨agrees, kept, ?_, ?_, fun hnone => ⟨(healthy hnone).1, ?_⟩⟩
  · show DiskKeeps P m.disk
    rw [disk]
    exact hdisk
  · show DiskKeeps (entries <+: ·) m.disk
    rw [disk]
    exact ahead
  · exact disk.trans (healthy hnone).2

/-- The history with the operation's entry, if it has one, is in order. -/
def StoreOp.Grows (op : StoreOp) (P : List WalEntry → Prop)
    (store : CoordinatorStore) (entries : List WalEntry) : Prop :=
  ∀ entry publish output, op.plan store = .append entry publish output →
    P (entries ++ [entry])

/-- An operation that answers without an append. -/
theorem StoreKeeps.quiet (h : StoreKeeps P c entries l) {result : StoreResult}
    (effect : Agrees.Effect c.store entries l (.quiet result c'.store))
    (disk : c'.machine.disk = c.machine.disk) :
    StoreKeeps P c' entries l := by
  obtain ⟨agrees, hwal, -, hfailure⟩ := effect
  refine ⟨agrees, h.kept, disk ▸ h.disk, disk ▸ h.ahead, fun hnone => ?_⟩
  have hold : c.store.failure = .none := by
    rcases hfailure with hsame | hclock | hinternal
    · rw [← hsame, hnone]
    · rw [hclock] at hnone
      cases hnone
    · rw [hinternal] at hnone
      cases hnone
  obtain ⟨hlogged, hlogDisk⟩ := h.healthy hold
  exact ⟨⟨agrees, by rw [hwal]; exact hlogged.state,
    by rw [hwal]; exact hlogged.next⟩, disk.trans hlogDisk⟩

/-- A store that failed only answers. -/
theorem StoreKeeps.latched (h : StoreKeeps P c entries l)
    (latched : c.store.failure ≠ .none) (op : StoreOp) :
    ∃ result c', op.run c = .done (result, .none) c'
      ∧ StoreKeeps P c' entries l := by
  have heffect := h.agrees.planned (op.plan_cases h.agrees.rep.1)
  obtain ⟨result, store', hplan, -⟩ :=
    (op.plan_cases h.agrees.rep.1).quiet_of_unusable
      (CoordinatorStore.usable_of_latched latched)
  rw [hplan] at heffect
  refine ⟨result, ⟨store', c.machine⟩, ?_, h.quiet heffect rfl⟩
  rw [op.run_eq, hplan]
  rfl

theorem StoreKeeps.operation (h : StoreKeeps P c entries l)
    (grows : op.Grows P c.store entries) (run : op.run c = .done out c') :
    ∃ more l', StoreKeeps P c' (entries ++ more) l' := by
  have hsame {c₁ : StoreCtx} (h₁ : StoreKeeps P c₁ entries l) :
      ∃ more l', StoreKeeps P c₁ (entries ++ more) l' :=
    ⟨[], l, by rw [List.append_nil]; exact h₁⟩
  by_cases hnone : c.store.failure = .none
  · obtain ⟨hlogged, hlogDisk⟩ := h.healthy hnone
    have heffect := h.agrees.planned (op.plan_cases h.agrees.rep.1)
    have hspec := (storeOp_spec False (n := 0) hlogged op).done
      ⟨hlogDisk, rfl, False.elim⟩ run
    cases hspec with
    | quiet hplan here =>
        rw [hplan] at heffect
        exact hsame (h.quiet heffect (here.disk.trans hlogDisk.symm))
    | committed hplan step logged session here =>
        exact ⟨_, _, storeKeeps_logged logged here.disk
          (grows _ _ _ hplan)⟩
    | broke hplan step hbad hstore hdisk =>
        obtain ⟨writer, hstore⟩ := hstore
        refine hsame ⟨hstore ▸ h.agrees.broken writer, h.kept,
          diskKeeps_unfinished hdisk h.agrees.run step h.kept
            (grows _ _ _ hplan),
          diskKeeps_unfinished hdisk h.agrees.run step List.prefix_rfl
            (List.prefix_append _ _), fun hfailure => ?_⟩
        rw [hstore] at hfailure
        simp [CoordinatorStore.broken, CoordinatorStore.fail, hnone]
          at hfailure
  · obtain ⟨result, c₁, hquiet, hkeeps⟩ := h.latched hnone op
    rw [run] at hquiet
    cases hquiet
    exact hsame hkeeps

/-- The machine stops inside an operation. -/
theorem StoreKeeps.stops (h : StoreKeeps P c entries l)
    (grows : op.Grows P c.store entries) (run : op.run c = .crash c') :
    DiskKeeps P c'.machine.disk := by
  by_cases hnone : c.store.failure = .none
  · obtain ⟨hlogged, hlogDisk⟩ := h.healthy hnone
    obtain ⟨entry, publish, l', hplan, step, hdisk⟩ :=
      ((storeOp_spec False (n := 0) hlogged op).crash
        ⟨hlogDisk, rfl, False.elim⟩ run).planned
    exact diskKeeps_unfinished hdisk h.agrees.run step h.kept
      (grows _ _ _ hplan)
  · obtain ⟨result, c₁, hquiet, -⟩ := h.latched hnone op
    rw [run] at hquiet
    cases hquiet

-- ===================================================== restarts

/-- The completion an entry records. -/
def WalEntry.completed : WalEntry → Option Job
  | .job .completed done => some done
  | _ => none

/-- The property lasts as long as the jobs that are done are good ones. -/
def Lasting (Good : Job → Prop) (P : List WalEntry → Prop) : Prop :=
  ∀ base entry, P base → (∀ job ∈ entry.completed, Good job) →
    P (base ++ [entry])

theorem lossEntry_completed (time : Int64) (job : Job) :
    (lossEntry time job).completed = none := by
  unfold lossEntry failedAttempt
  split <;> rfl

theorem Lasting.loss (h : Lasting Good P) (kept : P base) (time : Int64)
    (job : Job) : P (base ++ [lossEntry time job]) :=
  h base _ kept fun done hdone => by
    rw [lossEntry_completed] at hdone
    cases hdone

theorem Lasting.losses (h : Lasting Good P) (kept : P base) (time : Int64)
    (jobs : List Job) : P (base ++ lossEntries time jobs) := by
  unfold lossEntries
  generalize jobs.filter (fun job => job.state.active) = active
  induction active generalizing base with
  | nil =>
      rw [List.map_nil, List.append_nil]
      exact kept
  | cons job active ih =>
      rw [List.map_cons, List.append_cons]
      exact ih (h.loss kept time job)

/-- A recovery that did not come to its end. -/
theorem DiskKeeps.halted (h : DiskKeeps P d) (lasting : Lasting Good P)
    (holds : Holds d.file base tail l) {report : WalReplayReport}
    (halted : Halted l.clock l.board.jobs base report c) :
    DiskKeeps P c.machine.disk := by
  obtain ⟨pre, job, suf, l', l'', -, -, -, -, hagrees, step, hdisk⟩ :=
    halted.progress
  have hkept := lasting.losses (h.held holds) l.clock pre
  exact diskKeeps_unfinished hdisk hagrees.run step hkept
    (lasting.loss hkept _ _)

/-- The next open. -/
theorem DiskKeeps.opens {m : Machine} (h : DiskKeeps P m.disk)
    (lasting : Lasting Good P) {nowMs : Int64} {result : StoreResult}
    (run : storeOpen false nowMs ⟨storeInit, m⟩ = .done result c') :
    DiskKeeps P c'.machine.disk
      ∧ (result = .ok → StoreKept P c') := by
  have hspec := (storeOpen_spec False nowMs (n := 0) h.present).done
    ⟨rfl, rfl, False.elim⟩ run
  cases hspec with
  | @opened base tail l _ holds recovery isOpen here =>
      obtain ⟨l', hlogged⟩ := recovery.logged
      rw [List.take_length] at hlogged
      have hkeeps := storeKeeps_logged hlogged here.disk
        (lasting.losses (h.held holds) _ _)
      exact ⟨hkeeps.disk, fun _ => ⟨_, _, hkeeps⟩⟩
  | halted holds halted latched _ =>
      exact ⟨h.halted lasting holds halted, nofun⟩
  | early early latched _ => exact ⟨h.recovering early.disk, nofun⟩

/-- The machine stops inside the open. -/
theorem DiskKeeps.openStops {m : Machine} (h : DiskKeeps P m.disk)
    (lasting : Lasting Good P) {nowMs : Int64}
    (run : storeOpen false nowMs ⟨storeInit, m⟩ = .crash c') :
    DiskKeeps P c'.machine.disk := by
  have hspec := (storeOpen_spec False nowMs (n := 0) h.present).crash
    ⟨rfl, rfl, False.elim⟩ run
  cases hspec with
  | halted holds halted _ => exact h.halted lasting holds halted
  | early early _ => exact h.recovering early.disk

-- =================================================== operations

/-- What the operation completes is good. -/
def StoreOp.Sound (Good : Job → Prop) (op : StoreOp)
    (store : CoordinatorStore) : Prop :=
  ∀ job, op.Completes store job → Good job

theorem StoreOp.Sound.grows (h : op.Sound Good c.store)
    (lasting : Lasting Good P) (rep : c.store.jobs.Rep) (kept : P entries) :
    op.Grows P c.store entries := by
  intro entry publish output hplan
  refine lasting entries entry kept fun job hjob => ?_
  have hplanned := op.plan_cases rep
  rw [hplan] at hplanned
  generalize hp : Plan.append entry publish output = plan at hplanned
  cases hplanned with
  | @job event job' output b' usable step time emits =>
      cases hp
      cases event with
      | completed =>
          cases hjob
          exact h job (emits.completes rep step (step.valid rep.inv).2)
      | _ => cases hjob
  | register hop usable hok =>
      cases hp
      cases hjob
  | _ => cases hp

theorem StoreKept.operation (h : StoreKept P c) (lasting : Lasting Good P)
    (sound : op.Sound Good c.store) (run : op.run c = .done out c') :
    StoreKept P c' := by
  obtain ⟨entries, l, h⟩ := h
  obtain ⟨more, l', hkeeps⟩ :=
    h.operation (sound.grows lasting h.agrees.rep.1 h.kept) run
  exact ⟨_, l', hkeeps⟩

theorem StoreKept.stops (h : StoreKept P c) (lasting : Lasting Good P)
    (sound : op.Sound Good c.store) (run : op.run c = .crash c') :
    DiskKeeps P c'.machine.disk := by
  obtain ⟨entries, l, h⟩ := h
  exact h.stops (sound.grows lasting h.agrees.rep.1 h.kept) run

-- ====================================================== ledgers

/-- Every job that is done was recorded when it was completed. -/
theorem Ledger.Run.done_recorded (h : Ledger.Run .init base l) :
    ∀ job ∈ l.board.jobs, job.state = .done →
      ∃ entry ∈ base, job ∈ entry.completed := by
  refine Trace.snoc_induction
    (P := fun base l => ∀ job ∈ l.board.jobs, job.state = .done →
      ∃ entry ∈ base, job ∈ entry.completed)
    (fun job hjob => absurd hjob List.not_mem_nil) ?_ h
  intro base l entry l' hrun ih hstep job hjob done
  have hbefore (hold : job ∈ l.board.jobs) :
      ∃ e ∈ base ++ [entry], job ∈ e.completed := by
    obtain ⟨e, he, hdone⟩ := ih job hold done
    exact ⟨e, List.mem_append_left _ he, hdone⟩
  cases hstep with
  | worker nonzero fresh => exact hbefore hjob
  | @job event new b' time known step =>
      rcases step.mem hjob with rfl | hold
      swap
      · exact hbefore hold
      refine ⟨_, List.mem_append_right _ (List.mem_singleton_self _), ?_⟩
      have hleaves := (step.valid (Ledger.Run.inv hrun inv_init).board).2
      cases event with
      | completed => rfl
      | created => exact absurd (hleaves.1.symm.trans done) (by decide)
      | requeued => exact absurd (hleaves.1.symm.trans done) (by decide)
      | assigned => exact absurd (hleaves.symm.trans done) (by decide)
      | started => exact absurd (hleaves.symm.trans done) (by decide)
      | failed => exact absurd (hleaves.symm.trans done) (by decide)

/-- Jobs evolve along a history. -/
theorem Ledger.Run.evolves {more : List WalEntry} (h : Ledger.Run l more l') :
    ∀ job ∈ l.board.jobs, ∃ later ∈ l'.board.jobs, job.Evolves later := by
  induction h with
  | nil => exact fun job hjob => ⟨job, hjob, .refl⟩
  | @cons l₁ l₂ l₃ entry more first rest ih =>
      intro job hjob
      have hfirst : ∃ middle ∈ l₂.board.jobs, job.Evolves middle := by
        cases first with
        | worker nonzero fresh => exact ⟨job, hjob, .refl⟩
        | job time known step =>
            rcases step.keeps hjob with hkept | ⟨hstep, hin⟩
            · exact ⟨job, hkept, .refl⟩
            · exact ⟨_, hin, .single ⟨_, hstep⟩⟩
      obtain ⟨middle, hmiddle, hbefore⟩ := hfirst
      obtain ⟨later, hlater, hafter⟩ := ih middle hmiddle
      exact ⟨later, hlater, hbefore.trans hafter⟩

end Faultline
