/-
The loop as a sequence of small acts.

Whatever a branch of the loop does, it does by reading the clock, writing a
connection's entry, and running store operations at times it has read
(`Coordinator.Act`). An invariant of the store and the clock therefore needs
one case for each act, and holds of every reachable state
(`Reachable.acted`).
-/
import Faultline.Proofs.LoopLive
import Mathlib.Logic.Relation

namespace Faultline

open Lib Coordinator StoreCtx

variable {s s' s₁ : Coordinator} {i : Fin maxClients} {ctx : StoreCtx}
  {settings : LoopSettings} {nowMs : Int64} {op : StoreOp}
  {out : StoreResult × StoreOutput}

-- ========================================================= acts

/-- The clock reading an operation is given. -/
def StoreOp.reading : StoreOp → Option Int64
  | .register _ nowMs | .submit _ nowMs | .assign _ nowMs
  | .report _ _ nowMs | .workerLost _ nowMs | .heartbeat _ _ nowMs =>
      some nowMs
  | .markDead _ _ => none

/-- The clock has read this. -/
def Coordinator.HasRead (s : Coordinator) (nowMs : Int64) : Prop :=
  ∃ k < s.ticks, s.clock k = nowMs

/-- One small act of the loop. -/
inductive Coordinator.Act (s : Coordinator) : Coordinator → Prop where
  | tick : Act s s.ticked
  | client {i : Fin maxClients} {c : Client} : Act s (s.put i c)
  | environment {m : Machine} (disk : m.disk = s.ctx.machine.disk) :
      Act s (s.withCtx ⟨s.store, m⟩)
  | store {op : StoreOp} {out : StoreResult × StoreOutput} {ctx : StoreCtx}
      (timed : ∀ nowMs ∈ op.reading, s.HasRead nowMs)
      (run : op.run s.ctx = .done out ctx) : Act s (s.withCtx ctx)

abbrev Coordinator.Acted : Coordinator → Coordinator → Prop :=
  Relation.ReflTransGen Coordinator.Act

theorem Coordinator.hasRead_now : s.ticked.HasRead s.now :=
  ⟨s.ticks, Nat.lt_succ_self _, rfl⟩

theorem Coordinator.Act.ticks (h : s.Act s') :
    s'.clock = s.clock ∧ s.ticks ≤ s'.ticks := by
  cases h with
  | tick => exact ⟨rfl, Nat.le_succ _⟩
  | _ => exact ⟨rfl, Nat.le_refl _⟩

theorem Coordinator.HasRead.acted (h : s.HasRead nowMs) (hacted : s.Acted s') :
    s'.HasRead nowMs := by
  induction hacted with
  | refl => exact h
  | tail _ hact ih =>
      obtain ⟨k, hk, hread⟩ := ih
      obtain ⟨hclock, hticks⟩ := hact.ticks
      exact ⟨k, Nat.lt_of_lt_of_le hk hticks, hclock ▸ hread⟩

/-- A store operation at a time just read. -/
theorem Coordinator.Acted.operation (hop : op.reading = some s.now)
    (run : op.run s.ctx = .done out ctx) :
    s.Acted (s.ticked.withCtx ctx) := by
  refine (Relation.ReflTransGen.single .tick).tail (.store ?_ run)
  rintro nowMs hnow
  rw [hop] at hnow
  cases hnow
  exact hasRead_now

/-- A mark needs no time. -/
theorem Coordinator.Acted.mark {workerId : UInt32} {fd : Int}
    (run : (StoreOp.markDead workerId fd).run s.ctx = .done out ctx) :
    s.Acted (s.withCtx ctx) :=
  .single (.store (fun _ h => by cases h) run)

-- ===================================================== branches

theorem Detaches.acted {workerId : UInt32} {fd : Int}
    (h : Detaches workerId fd s s') : s.Acted s' := by
  cases h with
  | idle idle mark => exact .mark mark
  | @lost job result ctx₁ ctx out active healthy lost mark =>
      exact (Acted.operation rfl lost).trans
        (Acted.mark (s := s.ticked.withCtx ctx₁) mark)

theorem Closes.acted {reason : CloseReason} (h : Closes i reason s s') :
    s.Acted s' := by
  cases h with
  | client role => exact .single .client
  | worker role detach => exact detach.acted.tail .client

theorem Queues.acted {message : Message} (h : Queues i message s s') :
    s.Acted s' := by
  cases h with
  | unencodable encode close => exact .head .client close.acted
  | clockFailed encode clock close =>
      exact .head .tick (.head .client close.acted)
  | queued encode clock => exact .head .tick (.single .client)

theorem Reacts.acted {reaction : Reaction} (h : Reacts i s reaction s') :
    s.Acted s' := by
  cases h with
  | none => exact .refl
  | close closes => exact closes.acted
  | reply queues => exact queues.acted
  | resetInput => exact .single .client

theorem Client.request_reading {c : Client} {message : Message}
    {reason : CloseReason} (h : c.request nowMs message = some (op, reason)) :
    op.reading = some nowMs := by
  cases message <;> cases h <;> rfl

theorem Handles.acted {message : Message} {reaction : Reaction}
    (h : Handles settings i nowMs s message reaction s')
    (read : s.HasRead nowMs) : s.Acted s' := by
  cases h with
  | status => exact .single .client
  | jobs clock => exact .head .tick (.single .client)
  | workers clock listed => exact .head .tick (.single .client)
  | workersFailed clock listed => exact .head .tick (.single .client)
  | listingClock clock asks => exact .single .tick
  | stats taken => exact .head .tick (.single .client)
  | statsFailed taken => exact .head .tick (.single .client)
  | registered role run => exact (Acted.operation rfl run).tail .client
  | submitted role run => exact (Acted.operation rfl run).tail .client
  | reported report run => exact .operation rfl run
  | refused asks run why => exact .operation (Client.request_reading asks) run
  | fatal asks run => exact .operation (Client.request_reading asks) run
  | heartbeat role run =>
      refine .single (.store ?_ run)
      rintro nowMs' hnow
      cases hnow
      exact read
  | _ => exact .refl

theorem Inspects.acted {reaction : Reaction}
    (h : Inspects settings i nowMs s reaction s') (read : s.HasRead nowMs) :
    s.Acted s' := by
  cases h with
  | need inspect => exact .single .client
  | reject inspect => exact .refl
  | deliver inspect handles => exact .head .client (handles.acted read)

theorem Reads.acted {reply : RecvReply} {reaction : Reaction}
    (h : Reads settings i nowMs s reply reaction s')
    (read : s.HasRead nowMs) : s.Acted s' := by
  cases h with
  | short short => exact .single .client
  | complete full inspects => exact .head .client (inspects.acted read)
  | _ => exact .refl

theorem Transfers.acted {ready : Readiness} {reaction : Reaction}
    (h : Transfers settings i ready nowMs s reaction s')
    (read : s.HasRead nowMs) : s.Acted s' := by
  cases h with
  | reads phase reads => exact reads.acted read
  | sends phase send => exact .single .client
  | _ => exact .refl

theorem Stalls.acted (h : Stalls i nowMs s s') : s.Acted s' := by
  cases h with
  | moving progress => exact .refl
  | stalled stalled closes => exact closes.acted

theorem Serves.acted {ready : Readiness}
    (h : Serves settings i ready nowMs s s') (read : s.HasRead nowMs) :
    s.Acted s' := by
  cases h with
  | vacant fd => exact .refl
  | cut fd why closes => exact closes.acted
  | served fd transfers reacts stalls =>
      exact ((transfers.acted read).trans reacts.acted).trans stalls.acted

theorem Offers.acted {timeoutMs : Int64} (h : Offers timeoutMs i s s') :
    s.Acted s' := by
  cases h with
  | done => exact .refl
  | skipped => exact .single .tick
  | refused healthy clock idle run why => exact .operation rfl run
  | assigned healthy clock idle run queues =>
      exact (Acted.operation rfl run).trans queues.acted

/-- A step of the loop is a sequence of acts. -/
theorem Coordinator.Turn.acted (h : s.Turn settings s') : s.Acted s' := by
  cases h with
  | same => exact .refl
  | tick => exact .single .tick
  | environment disk => exact .single (.environment disk)
  | serve healthy clock possible serves =>
      exact .head .tick (serves.acted hasRead_now)
  | accept fresh vacant => exact .single .client
  | offer offers => exact offers.acted

theorem Coordinator.Act.live (h : s.Act s') (live : s.ctx.Live) :
    s'.ctx.Live := by
  cases h with
  | environment disk => exact live.environment disk
  | store timed run => exact (live.acts run).1
  | _ => exact live

/-- What holds after the open and survives every act on a live store holds
of every reachable state. -/
theorem Coordinator.Reachable.acted {P : Coordinator → Prop}
    (start : ∀ {initializing m ctx clock},
      storeOpen initializing (clock 0) ⟨storeInit, m⟩ = .done .ok ctx →
      statsBegin ctx.store (clock 1) = some settings.session →
      P (Coordinator.start ctx clock))
    (act : ∀ {s s' : Coordinator}, s.ctx.Live → P s → s.Act s' → P s')
    (h : s.Reachable settings) : P s := by
  induction h with
  | start opened session => exact start opened session
  | @step s s' before step ih =>
      have hboth : ∀ {t}, s.Acted t → t.ctx.Live ∧ P t := by
        intro t hacted
        induction hacted with
        | refl => exact ⟨before.live, ih⟩
        | tail _ hact both => exact ⟨hact.live both.1, act both.1 both.2 hact⟩
      exact (hboth step.turn.acted).2

-- ======================================================== clock

/-- The time a transition publishes is the old one, or the job clock's at
the operation's reading. -/
theorem StoreOp.transition_time {store : CoordinatorStore} {jobs : Scheduler}
    {workers : WorkerRegistry} {time : Int64} {output : StoreOutput}
    (h : op.transition store = some (jobs, workers, time, output)) :
    time = store.lastJobTimeMs
      ∨ ∃ nowMs ∈ op.reading, store.jobTime nowMs = some time := by
  have hbind {nowMs : Int64}
      {f : Int64 → Option (Scheduler × WorkerRegistry × Int64 × StoreOutput)}
      (hreading : op.reading = some nowMs)
      (hf : ∀ t r, f t = some r → r.2.2.1 = t)
      (heq : (store.jobTime nowMs).bind f
        = some (jobs, workers, time, output)) :
      ∃ nowMs ∈ op.reading, store.jobTime nowMs = some time := by
    obtain ⟨t, htime, hft⟩ := Option.bind_eq_some_iff.mp heq
    obtain rfl : time = t := hf t _ hft
    exact ⟨nowMs, hreading, htime⟩
  cases op with
  | register fd nowMs =>
      simp only [StoreOp.transition] at h
      split at h <;> cases h
      exact .inl rfl
  | submit payload nowMs =>
      refine .inr (hbind rfl (fun t r hr => ?_) h)
      split at hr <;> cases hr
      rfl
  | assign workerId nowMs =>
      refine .inr (hbind rfl (fun t r hr => ?_) h)
      split at hr <;> cases hr
      rfl
  | report workerId message nowMs =>
      refine .inr (hbind rfl (fun t r hr => ?_) h)
      split at hr <;> cases hr
      rfl
  | workerLost workerId nowMs =>
      refine .inr (hbind rfl (fun t r hr => ?_) h)
      split at hr <;> cases hr
      rfl
  | heartbeat workerId fd nowMs => cases h
  | markDead workerId fd => cases h

/-- An operation keeps the session's clock, and only one that logs moves the
job time. -/
theorem StoreOp.Acts.clock {store store' : CoordinatorStore}
    (h : op.Acts store out store') :
    store'.timeBaseMs = store.timeBaseMs
      ∧ store'.sessionStartMs = store.sessionStartMs
      ∧ (op.logs = false → store'.lastJobTimeMs = store.lastJobTimeMs) := by
  cases h with
  | job rep step time emits =>
      refine ⟨rfl, rfl, fun hop => ?_⟩
      cases op with
      | heartbeat => exact emits.elim
      | markDead => exact emits.elim
      | _ => cases hop
  | _ => exact ⟨rfl, rfl, fun _ => rfl⟩

/-- An operation keeps the session's clock, and moves the job time only to
what the clock gives for its reading. -/
theorem StoreCtx.Live.clock {c c' : StoreCtx} (h : c.Live)
    (run : op.run c = .done out c') :
    c'.store.timeBaseMs = c.store.timeBaseMs
      ∧ c'.store.sessionStartMs = c.store.sessionStartMs
      ∧ (c'.store.lastJobTimeMs = c.store.lastJobTimeMs
        ∨ ∃ nowMs ∈ op.reading,
          c.store.jobTime nowMs = some c'.store.lastJobTimeMs) := by
  obtain ⟨hbase, hstart, hlast⟩ := (h.acts run).2.clock
  refine ⟨hbase, hstart, ?_⟩
  cases hop : op.logs with
  | false => exact .inl (hlast hop)
  | true =>
      cases husable : c.store.usable with
      | false =>
          rw [op.run_disabled hop husable] at run
          cases run
          exact .inl rfl
      | true =>
          obtain ⟨hends, -⟩ :=
            (h.standing.ends hop (m := c.machine) rfl husable).done rfl run
          cases hends with
          | refused why => exact .inl rfl
          | clock why => exact .inl rfl
          | broke hstore =>
              rw [hstore]
              exact .inl rfl
          | committed _ _ _ _ changes => exact StoreOp.transition_time changes

/-- The session began at a time, and the job time is what the clock gave for
some reading. -/
structure Coordinator.Clocked (s : Coordinator) : Prop where
  start : 0 ≤ s.store.sessionStartMs
  reading : ∃ nowMs, s.HasRead nowMs
    ∧ s.store.jobTime nowMs = some s.store.lastJobTimeMs

/-- A clock that gave the job time gives it again. -/
theorem jobTime_again {store store' : CoordinatorStore}
    (hbase : store'.timeBaseMs = store.timeBaseMs)
    (hstart : store'.sessionStartMs = store.sessionStartMs)
    (h : store.jobTime nowMs = some store'.lastJobTimeMs) :
    store'.jobTime nowMs = some store'.lastJobTimeMs := by
  have htime := (CoordinatorStore.jobTime_some h).2
  unfold CoordinatorStore.jobTime at h ⊢
  rw [hbase, hstart]
  split at h
  · cases h
  · rename_i hrange
    rw [if_neg hrange, htime, if_neg fun h => Int64.lt_irrefl h]

theorem Coordinator.Clocked.act (h : s.Clocked) (live : s.ctx.Live)
    (hact : s.Act s') : s'.Clocked := by
  obtain ⟨nowMs, hread, htime⟩ := h.reading
  have hread' : s'.HasRead nowMs := hread.acted (.single hact)
  cases hact with
  | store timed run =>
      obtain ⟨hbase, hstart, hlast⟩ := live.clock run
      refine ⟨le_of_le_of_eq h.start hstart.symm, ?_⟩
      rcases hlast with hlast | ⟨nowMs', hreading, htime'⟩
      · refine ⟨nowMs, hread', ?_⟩
        exact (jobTime_congr hbase hstart hlast).trans
          (htime.trans (congrArg some hlast.symm))
      · exact ⟨nowMs', timed nowMs' hreading,
          jobTime_again hbase hstart htime'⟩
  | _ => exact ⟨h.start, nowMs, hread', htime⟩

/-- A program that leaves the session's start and the registry alone. -/
def KeepsSession {α : Type} (p : Prog StoreCtx α) : Prop :=
  ∀ c, ((p c).state.store.sessionStartMs, (p c).state.store.workers)
    = (c.store.sessionStartMs, c.store.workers)

theorem KeepsSession.bind {α β : Type} {p : Prog StoreCtx α}
    {f : α → Prog StoreCtx β} (hp : KeepsSession p)
    (hf : ∀ a, KeepsSession (f a)) : KeepsSession (p >>= f) := by
  intro c
  have hfirst := hp c
  rw [Prog.bind_run]
  cases hrun : p c with
  | crash c' =>
      rw [hrun] at hfirst
      exact hfirst
  | done a c' =>
      rw [hrun] at hfirst
      exact (hf a c').trans hfirst

theorem keepsSession_failStore (failure : StoreFailure) :
    KeepsSession (failStore failure) := by
  intro c
  rw [failStore_run]
  show ((c.store.fail failure).sessionStartMs, (c.store.fail failure).workers) = _
  unfold CoordinatorStore.fail
  split <;> rfl

theorem keepsSession_append (entry : WalEntry) : KeepsSession (append entry) := by
  have hwal {α : Type} (p : Prog WalCtx α) : KeepsSession (onWal p) := by
    intro c
    unfold onWal Prog.zoom
    cases p ⟨c.store.wal, c.machine⟩ <;> rfl
  refine KeepsSession.bind (fun _ => rfl) fun store =>
    (hwal _).bind fun result => KeepsSession.bind (fun _ => rfl) fun _ => ?_
  split
  · exact keepsSession_failStore _
  · exact fun _ => rfl

theorem keepsSession_commitJob (scratch : Scheduler) (id : UInt64)
    (event : JobEvent) : KeepsSession (commitJob scratch id event) := by
  unfold commitJob
  split
  · exact keepsSession_failStore _
  · refine (keepsSession_append _).bind fun result => ?_
    split
    · exact KeepsSession.bind (fun _ => rfl) fun _ _ => rfl
    · exact fun _ => rfl

theorem keepsSession_commitWorkerLoss (workerId : UInt32) :
    KeepsSession (commitWorkerLoss workerId nowMs) := by
  refine KeepsSession.bind (fun _ => rfl) fun store => ?_
  split
  · exact fun _ => rfl
  · split
    · exact keepsSession_failStore _
    · split
      · exact keepsSession_commitJob _ _ _
      · exact keepsSession_failStore _

theorem keepsSession_recoverFrom :
    ∀ left i : Nat, KeepsSession (recoverFrom nowMs left i)
  | 0, _ => fun _ => rfl
  | left + 1, i => by
      refine KeepsSession.bind (fun _ => rfl) fun store => ?_
      split
      · exact fun _ => rfl
      · split
        · refine (keepsSession_commitWorkerLoss _).bind fun result => ?_
          split
          · exact KeepsSession.bind (fun _ => rfl) fun _ =>
              keepsSession_recoverFrom left (i + 1)
          · exact fun _ => rfl
        · exact keepsSession_recoverFrom left (i + 1)

/-- Sums of a session's readings are in order, as far as the last of them can
be represented. -/
theorem session_sum_le {base start early late : Int64} (hstart : 0 ≤ start)
    (hearly : start ≤ early) (hlate : early ≤ late)
    (hspan : ¬ 0x7fffffffffffffff - base < late - start) :
    base + (early - start) ≤ base + (late - start) := by
  have hdiff := Int64.toInt_sub_of_le early start hstart hearly
  have hdiff' := Int64.toInt_sub_of_le late start hstart
    (Int64.le_trans hearly hlate)
  have hmax : (0x7fffffffffffffff : Int64).toInt = 2 ^ 63 - 1 := by decide
  have hbase := base.toInt_lt
  have hbase' := base.le_toInt
  have hbound := (late - start).toInt_lt
  rw [Int64.le_iff_toInt_le] at hearly hlate ⊢
  rw [Int64.lt_iff_toInt_lt, Int64.toInt_sub, hmax] at hspan
  rw [Int64.toInt_add, Int64.toInt_add]
  by_cases hneg : base.toInt < 0
  · -- The check of a negative base would have wrapped around.
    refine absurd ?_ hspan
    rw [Int.bmod_def]
    split <;> omega
  · rw [Int.bmod_eq_of_le (by omega) (by omega)] at hspan
    rw [Int.bmod_eq_of_le (by omega) (by omega),
      Int.bmod_eq_of_le (by omega) (by omega)]
    omega

/-- A reading that is not before the others and can be represented is a job
time. -/
theorem Coordinator.Clocked.later (h : s.Clocked)
    (hlater : ∀ k < s.ticks, s.clock k ≤ nowMs)
    (hspan : ¬ 0x7fffffffffffffff - s.store.timeBaseMs
      < nowMs - s.store.sessionStartMs) :
    0 ≤ nowMs ∧ ∃ time, s.store.jobTime nowMs = some time := by
  obtain ⟨early, ⟨k, hk, rfl⟩, htime⟩ := h.reading
  have hlate := hlater k hk
  have haccepted : ¬ s.store.RefusesClock (s.clock k) := fun hrefused => by
    rw [CoordinatorStore.jobTime_none_iff.mpr hrefused] at htime
    cases htime
  simp only [CoordinatorStore.RefusesClock, not_or, Int64.not_lt] at haccepted
  obtain ⟨hnonneg, hstart, -, -⟩ := haccepted
  refine ⟨Int64.le_trans hnonneg hlate, Option.ne_none_iff_exists'.mp ?_⟩
  intro hnone
  rcases CoordinatorStore.jobTime_none_iff.mp hnone with
    hneg | hbefore | hover | hbehind
  · exact Int64.not_lt.mpr (Int64.le_trans hnonneg hlate) hneg
  · exact Int64.not_lt.mpr (Int64.le_trans hstart hlate) hbefore
  · exact hspan hover
  · rw [(CoordinatorStore.jobTime_some htime).2] at hbehind
    exact Int64.not_lt.mpr (session_sum_le h.start hstart hlate hspan) hbehind

end Faultline
