/-
What store operations do to the log.

Every point between two operations of a healthy store stands on the
durable log of its history. `Performed` and `Interrupted` are the possible
ends of a plan: the log is untouched, or longer by the planned entry, or a
prefix of that entry's record was written behind it. As for the writer, the
ghost `good` makes one statement do for hostile and for cooperating
environments.
-/
import Faultline.Abstract.LogDisk
import Faultline.Proofs.StoreHistory

namespace Faultline

open Lib StoreCtx

-- ======================================================= points

/-- Sequence numbers count up; no history is long enough to end them. -/
theorem nextSequenceAfter_ofNat {n : Nat} (h : n < 2 ^ 44) :
    nextSequenceAfter (UInt64.ofNat n) = sequenceAfter n := by
  have hne : UInt64.ofNat n ≠ 0xffffffffffffffff := by
    intro heq
    have hnat := congrArg UInt64.toNat heq
    rw [UInt64.toNat_ofNat', Nat.mod_eq_of_lt (by omega)] at hnat
    have hmax : (0xffffffffffffffff : UInt64).toNat = 2 ^ 64 - 1 := rfl
    omega
  unfold nextSequenceAfter
  rw [if_neg (by simpa using hne), sequenceAfter, UInt64.ofNat_add]
  rfl

/-- A point between two calls of the store: the disk, the store, and how
many more calls a cooperating environment completes. -/
structure StoreAt (good : Prop) (d : Disk) (store : CoordinatorStore)
    (n : Nat) (c : StoreCtx) : Prop where
  disk : c.machine.disk = d
  store : c.store = store
  ready : good → c.machine.Ready n

/-- The store agrees with a history and its writer stands behind it. -/
structure Logged (store : CoordinatorStore) (entries : List WalEntry)
    (l : Ledger) : Prop where
  agrees : Agrees store entries l
  state : store.wal.state = .ready
  next : store.wal.nextSequence = sequenceAfter entries.length

variable {good : Prop} {d : Disk} {store store' : CoordinatorStore} {n : Nat}
  {c : StoreCtx} {entries : List WalEntry} {entry : WalEntry}
  {l l' : Ledger} {plan : Plan}

/-- A program on the log leaves the rest of the store alone. -/
theorem onWal_triple {α : Type} {p : Prog WalCtx α} {P R : WalCtx → Prop}
    {Q : α → WalCtx → Prop} (h : Prog.Triple P p Q R)
    (store : CoordinatorStore) :
    Prog.Triple (fun c => c.store = store ∧ P ⟨store.wal, c.machine⟩)
      (onWal p)
      (fun r c => ∃ w, Q r w ∧ c = ⟨{ store with wal := w.writer }, w.machine⟩)
      (fun c => ∃ w, R w ∧ c = ⟨{ store with wal := w.writer }, w.machine⟩) := by
  rintro c ⟨rfl, hP⟩
  have hrun := h _ hP
  unfold onWal Prog.zoom
  cases hp : p ⟨c.store.wal, c.machine⟩ with
  | done r w =>
      rw [hp] at hrun
      exact ⟨w, hrun, rfl⟩
  | crash w =>
      rw [hp] at hrun
      exact ⟨w, hrun, rfl⟩

/-- What does not depend on the writer is kept. -/
theorem onWal_keeps {α : Type} (p : Prog WalCtx α)
    {K : CoordinatorStore → Prop}
    (hK : ∀ store wal, K store → K { store with wal }) :
    Prog.Triple (fun c => K c.store) (onWal p) (fun _ c => K c.store)
      (fun c => K c.store) := by
  intro c hc
  unfold onWal Prog.zoom
  cases hp : p ⟨c.store.wal, c.machine⟩ with
  | done r w => exact hK _ _ hc
  | crash w => exact hK _ _ hc

theorem onWal_done {α : Type} {p : Prog WalCtx α} {r : α} {c' : StoreCtx}
    (h : onWal p c = .done r c') :
    ∃ w, p ⟨c.store.wal, c.machine⟩ = .done r w
      ∧ c' = ⟨{ c.store with wal := w.writer }, w.machine⟩ := by
  unfold onWal Prog.zoom at h
  cases hp : p ⟨c.store.wal, c.machine⟩ with
  | done r' w =>
      simp only [hp] at h
      cases h
      exact ⟨w, rfl, rfl⟩
  | crash w =>
      simp only [hp] at h
      cases h

-- ======================================================= append

/-- The most completions one append can take. -/
def appendRoom : Nat := walMaxRecordSize + 1

/-- The store after a successful append, before anything is published. -/
def CoordinatorStore.appended (store : CoordinatorStore) : CoordinatorStore :=
  { store with
    wal := store.wal.appended store.wal.nextSequence, writeResult := .ok }

/-- The store after a failed append. -/
def CoordinatorStore.broken (store : CoordinatorStore) (w : WalWriter) :
    CoordinatorStore :=
  ({ store with wal := w, writeResult := .ioError }).fail .wal

theorem append_spec (h : Logged store entries l) (hstep : l.Step entry l') :
    Prog.Triple (StoreAt good (logDisk entries) store (n + appendRoom))
      (append entry)
      (fun r c =>
        r = .ok ∧ StoreAt good (logDisk (entries ++ [entry])) store.appended n c
        ∨ r = .fatal ∧ ¬ good ∧ (∃ w, c.store = store.broken w)
          ∧ Unfinished entries entry c.machine.disk)
      (fun c => ¬ good ∧ (∃ w, c.store = { store with wal := w })
        ∧ Unfinished entries entry c.machine.disk) := by
  have hinv := h.agrees.run.inv Ledger.inv_init
  have hlt := Ledger.run_length_lt h.agrees.run
  have henc := hstep.encodable hinv
  have hlen : (recordBytes (nextRecord entries entry)).length
      ≤ walMaxRecordSize := length_recordBytes_le henc
  intro c hc
  have happend : Steps good (Unfinished entries entry)
      (At good (logDisk entries) c.machine.offset store.wal
        (n + 1 + (recordBytes (nextRecord entries entry)).length))
      (walWriterAppend (nextRecord entries entry))
      (At good ((logDisk entries).append
          (recordBytes (nextRecord entries entry))).sync c.machine.offset
        (store.wal.appended (nextRecord entries entry).sequence) n) :=
    steps_append h.state h.next.symm (sequenceAfter_ne_zero hlt) henc
      fun part hpart => ⟨part, hpart, rfl⟩
  have hrun := onWal_triple happend store c ⟨hc.store,
    hc.disk, rfl, rfl, fun hg => (hc.ready hg).mono
      (by unfold appendRoom; omega)⟩
  have hrecord : (⟨c.store.wal.nextSequence, entry⟩ : WalRecord)
      = nextRecord entries entry := by
    rw [hc.store, h.next]
    rfl
  unfold append
  rw [Prog.bind_run, getStore_run]
  simp only [hrecord]
  rw [Prog.bind_run]
  cases hdone : onWal (walWriterAppend (nextRecord entries entry)) c with
  | crash c' =>
      rw [hdone] at hrun
      obtain ⟨w, hstop, rfl⟩ := hrun
      exact ⟨hstop.uncooperative, ⟨_, rfl⟩, hstop.disk⟩
  | done r c' =>
      rw [hdone] at hrun
      obtain ⟨w, ⟨rfl, hat⟩ | ⟨rfl, hbroke⟩, rfl⟩ := hrun
      · refine Or.inl ⟨rfl, ?_, ?_, hat.ready⟩
        · rw [← logDisk_snoc]
          exact hat.disk
        · simp only [CoordinatorStore.appended, hat.writer, h.next]
          rfl
      · exact Or.inr ⟨rfl, hbroke.uncooperative, ⟨w.writer, rfl⟩, hbroke.disk⟩

-- ======================================================== plans

/-- The returns of a plan. -/
inductive Performed (good : Prop) (store : CoordinatorStore)
    (entries : List WalEntry) (l : Ledger) (n : Nat) (plan : Plan) :
    StoreResult × StoreOutput → StoreCtx → Prop where
  | quiet {result : StoreResult} {c : StoreCtx}
      (hplan : plan = .quiet result c.store)
      (here : StoreAt good (logDisk entries) c.store n c) :
      Performed good store entries l n plan (result, .none) c
  | committed {entry : WalEntry}
      {publish : CoordinatorStore → CoordinatorStore} {l' : Ledger}
      {c : StoreCtx} (hplan : plan = .append entry publish entry.output)
      (step : l.Step entry l')
      (logged : Logged c.store (entries ++ [entry]) l')
      (session : c.store.failure = store.failure
        ∧ c.store.opened = store.opened
        ∧ c.store.timeBaseMs = store.timeBaseMs
        ∧ c.store.sessionStartMs = store.sessionStartMs)
      (here : StoreAt good (logDisk (entries ++ [entry]))
        (publish store.appended) n c) :
      Performed good store entries l n plan (.ok, entry.output) c
  | broke {entry : WalEntry} {publish : CoordinatorStore → CoordinatorStore}
      {l' : Ledger} {c : StoreCtx}
      (hplan : plan = .append entry publish entry.output)
      (step : l.Step entry l') (hbad : ¬ good)
      (store_eq : ∃ w, c.store = store.broken w)
      (disk : Unfinished entries entry c.machine.disk) :
      Performed good store entries l n plan (.fatal, .none) c

/-- The stops inside a plan: always in the append. -/
structure Interrupted (good : Prop) (store : CoordinatorStore)
    (entries : List WalEntry) (l : Ledger) (plan : Plan) (c : StoreCtx) :
    Prop where
  planned : ∃ entry publish l', plan = .append entry publish entry.output
    ∧ l.Step entry l' ∧ Unfinished entries entry c.machine.disk
  store_eq : ∃ w, c.store = { store with wal := w }
  hbad : ¬ good

theorem Agrees.broken (h : Agrees store entries l) (w : WalWriter) :
    Agrees (store.broken w) entries l := by
  unfold CoordinatorStore.broken CoordinatorStore.fail
  split <;> exact h.of_same ⟨rfl, rfl, rfl⟩

/-- Publishing after the append leaves the writer behind the longer
history. -/
theorem Logged.publish (h : Logged store entries l)
    {publish : CoordinatorStore → CoordinatorStore}
    (hagrees : Agrees (publish store.appended) (entries ++ [entry]) l')
    (hwal : (publish store.appended).wal = store.appended.wal) :
    Logged (publish store.appended) (entries ++ [entry]) l' := by
  refine ⟨hagrees, ?_, ?_⟩
  · rw [hwal]
    exact h.state
  · rw [hwal]
    show nextSequenceAfter store.wal.nextSequence = _
    have hlt := Ledger.run_length_lt h.agrees.run
    rw [h.next, sequenceAfter, nextSequenceAfter_ofNat (by omega)]
    simp

variable (good) in
theorem plan_spec (h : Logged store entries l)
    (heff : Agrees.Effect store entries l plan) :
    Prog.Triple (StoreAt good (logDisk entries) store (n + appendRoom))
      plan.run (Performed good store entries l n plan)
      (Interrupted good store entries l plan) := by
  cases heff with
  | @quiet result store' agrees wal opened failure =>
      intro c hc
      exact .quiet rfl ⟨hc.disk, rfl, fun hg =>
        (hc.ready hg).mono (Nat.le_add_right _ _)⟩
  | @append entry publish l' step agrees session =>
      refine Prog.Triple.bind (Q := fun r c => _) ((append_spec h step).conseq
        (fun _ hc => hc) (fun _ _ hc => hc) ?_) fun r c hc => ?_
      · rintro c ⟨hbad, hstore, hdisk⟩
        exact ⟨⟨entry, publish, l', rfl, step, hdisk⟩, hstore, hbad⟩
      · rcases hc with ⟨rfl, hat⟩ | ⟨rfl, hbad, hstore, hdisk⟩
        · have hpub := h.publish (agrees store.appended ⟨rfl, rfl, rfl⟩)
            (session store.appended).wal
          have hsession := session store.appended
          refine .committed rfl step ?_ ?_ ⟨hat.disk, ?_, hat.ready⟩
          · rw [show (publish c.store) = publish store.appended from
              congrArg publish hat.store]
            exact hpub
          · rw [show (publish c.store) = publish store.appended from
              congrArg publish hat.store]
            exact ⟨hsession.failure, hsession.opened, hsession.timeBase,
              hsession.sessionStart⟩
          · exact congrArg publish hat.store
        · exact .broke rfl step hbad hstore hdisk

variable (good) in
/-- An operation on a healthy store. -/
theorem storeOp_spec (h : Logged store entries l) (op : StoreOp) :
    Prog.Triple (StoreAt good (logDisk entries) store (n + appendRoom))
      op.run (Performed good store entries l n (op.plan store))
      (Interrupted good store entries l (op.plan store)) := by
  intro c hc
  rw [op.run_eq, hc.store]
  exact plan_spec good h (h.agrees.planned (op.plan_cases h.agrees.rep.1)) c hc

/-- The specification of a program is that of its result. -/
theorem triple_of_paired {α β : Type} {p : Prog StoreCtx α} {b : β}
    {P R : StoreCtx → Prop} {Q : α × β → StoreCtx → Prop}
    (h : Prog.Triple P (do return (← p, b)) Q R) :
    Prog.Triple P p (fun a => Q (a, b)) R := by
  intro c hc
  have hrun := h c hc
  rw [Prog.bind_run] at hrun
  cases hp : p c <;> (rw [hp] at hrun; exact hrun)

variable (good) in
/-- A worker's loss, also before the store is opened. -/
theorem commitWorkerLoss_spec (h : Logged store entries l)
    {workerId : UInt32} {nowMs : Int64}
    (heff : Agrees.Effect store entries l (lossPlan store workerId nowMs)) :
    Prog.Triple (StoreAt good (logDisk entries) store (n + appendRoom))
      (commitWorkerLoss workerId nowMs)
      (fun r => Performed good store entries l n
        (lossPlan store workerId nowMs) (r, .none))
      (Interrupted good store entries l (lossPlan store workerId nowMs)) := by
  refine triple_of_paired fun c hc => ?_
  rw [commitWorkerLoss_run, hc.store]
  exact plan_spec good h heff c hc

end Faultline
