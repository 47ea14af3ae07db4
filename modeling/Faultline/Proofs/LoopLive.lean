/-
The store under the event loop.

Whatever the loop does, its store stays live, a latched failure stays
latched, and the clock only moves on (`After`). Hence the store of every
reachable state is live, and a state without a latched failure was reached
through such states only.
-/
import Faultline.Proofs.LoopTurns

namespace Faultline

open Lib Coordinator

variable {s s' s₁ s₂ : Coordinator} {i : Fin maxClients} {ctx : StoreCtx}
  {settings : LoopSettings} {nowMs : Int64} {op : StoreOp}
  {out : StoreResult × StoreOutput}

/-- What no part of the loop can undo. -/
structure Coordinator.After (s s' : Coordinator) : Prop where
  live : s'.ctx.Live
  healthy : s'.store.failure = .none → s.store.failure = .none
  clock : s'.clock = s.clock
  ticks : s.ticks ≤ s'.ticks

namespace Coordinator.After

theorem refl (live : s.ctx.Live) : s.After s :=
  ⟨live, id, rfl, Nat.le_refl _⟩

theorem trans (h₁ : s.After s₁) (h₂ : s₁.After s₂) : s.After s₂ :=
  ⟨h₂.live, h₁.healthy ∘ h₂.healthy, h₂.clock.trans h₁.clock,
    Nat.le_trans h₁.ticks h₂.ticks⟩

theorem put (h : s.After s') {c : Client} : s.After (s'.put i c) :=
  ⟨h.live, h.healthy, h.clock, h.ticks⟩

theorem of_put {c : Client} (h : (s.put i c).After s') : s.After s' :=
  ⟨h.live, h.healthy, h.clock, h.ticks⟩

theorem ticked (live : s.ctx.Live) : s.After s.ticked :=
  ⟨live, id, rfl, Nat.le_succ _⟩

/-- A store operation. -/
theorem ran (live : s.ctx.Live) (run : op.run s.ctx = .done out ctx) :
    s.After (s.withCtx ctx) := by
  obtain ⟨hlive, hacts⟩ := live.acts run
  exact ⟨hlive, hacts.healthy, rfl, Nat.le_refl _⟩

theorem ticked_ran (live : s.ctx.Live) (run : op.run s.ctx = .done out ctx) :
    s.After (s.ticked.withCtx ctx) :=
  (ticked live).trans (ran live run)

end Coordinator.After

theorem StoreOp.Acts.latched {store store' : CoordinatorStore}
    {output : StoreOutput} (h : op.Acts store (.fatal, output) store') :
    store'.failure ≠ .none := by
  cases h with
  | refused why => rcases why with h | h <;> cases h
  | fatal latched => exact latched

-- ======================================================== pieces

theorem Detaches.after {workerId : UInt32} {fd : Int}
    (h : Detaches workerId fd s s') (live : s.ctx.Live) : s.After s' := by
  cases h with
  | idle idle mark => exact .ran live mark
  | lost active healthy lost mark =>
      have hlost := After.ticked_ran live lost
      exact hlost.trans (.ran hlost.live mark)

theorem Closes.after {reason : CloseReason} (h : Closes i reason s s')
    (live : s.ctx.Live) : s.After s' := by
  cases h with
  | client role => exact (After.refl live).put
  | worker role detach => exact (detach.after live).put

theorem Queues.after {message : Message} (h : Queues i message s s')
    (live : s.ctx.Live) : s.After s' := by
  cases h with
  | unencodable encode close => exact (close.after live).of_put
  | clockFailed encode clock close =>
      exact (After.ticked live).trans (close.after live).of_put
  | queued encode clock => exact (After.ticked live).put

theorem Reacts.after {reaction : Reaction} (h : Reacts i s reaction s')
    (live : s.ctx.Live) : s.After s' := by
  cases h with
  | none => exact .refl live
  | close closes => exact closes.after live
  | reply queues => exact queues.after live
  | resetInput => exact (After.refl live).put

theorem Handles.after {message : Message} {reaction : Reaction}
    (h : Handles settings i nowMs s message reaction s')
    (live : s.ctx.Live) : s.After s' := by
  cases h with
  | status => exact (After.refl live).put
  | jobs clock => exact (After.ticked live).put
  | workers clock listed => exact (After.ticked live).put
  | workersFailed clock listed => exact (After.ticked live).put
  | listingClock clock asks => exact .ticked live
  | stats taken => exact (After.ticked live).put
  | statsFailed taken => exact (After.ticked live).put
  | registered role run => exact (After.ticked_ran live run).put
  | submitted role run => exact (After.ticked_ran live run).put
  | reported report run => exact .ticked_ran live run
  | refused asks run why => exact .ticked_ran live run
  | fatal asks run => exact .ticked_ran live run
  | heartbeat role run => exact .ran live run
  | _ => exact .refl live

theorem Inspects.after {reaction : Reaction}
    (h : Inspects settings i nowMs s reaction s') (live : s.ctx.Live) :
    s.After s' := by
  cases h with
  | need inspect => exact (After.refl live).put
  | reject inspect => exact .refl live
  | deliver inspect handles => exact (handles.after live).of_put

theorem Reads.after {reply : RecvReply} {reaction : Reaction}
    (h : Reads settings i nowMs s reply reaction s') (live : s.ctx.Live) :
    s.After s' := by
  cases h with
  | short short => exact (After.refl live).put
  | complete full inspects => exact (inspects.after live).of_put
  | _ => exact .refl live

theorem Transfers.after {ready : Readiness} {reaction : Reaction}
    (h : Transfers settings i ready nowMs s reaction s')
    (live : s.ctx.Live) : s.After s' := by
  cases h with
  | reads phase reads => exact reads.after live
  | sends phase send => exact (After.refl live).put
  | _ => exact .refl live

theorem Stalls.after (h : Stalls i nowMs s s') (live : s.ctx.Live) :
    s.After s' := by
  cases h with
  | moving progress => exact .refl live
  | stalled stalled closes => exact closes.after live

theorem Serves.after {ready : Readiness}
    (h : Serves settings i ready nowMs s s') (live : s.ctx.Live) :
    s.After s' := by
  cases h with
  | vacant fd => exact .refl live
  | cut fd why closes => exact closes.after live
  | served fd transfers reacts stalls =>
      have h₁ := transfers.after live
      have h₂ := h₁.trans (reacts.after h₁.live)
      exact h₂.trans (stalls.after h₂.live)

theorem Offers.after {timeoutMs : Int64} (h : Offers timeoutMs i s s')
    (live : s.ctx.Live) : s.After s' := by
  cases h with
  | done => exact .refl live
  | skipped => exact .ticked live
  | refused healthy clock idle run why => exact .ticked_ran live run
  | assigned healthy clock idle run queues =>
      have hran := After.ticked_ran live run
      exact hran.trans (queues.after hran.live)

-- ========================================================= runs

theorem Coordinator.Turn.after (h : s.Turn settings s')
    (live : s.ctx.Live) : s.After s' := by
  cases h with
  | same => exact .refl live
  | tick => exact .ticked live
  | environment disk =>
      exact ⟨live.environment disk, id, rfl, Nat.le_refl _⟩
  | serve healthy clock possible serves =>
      exact (After.ticked live).trans (serves.after live)
  | accept fresh vacant => exact (After.refl live).put
  | offer offers => exact offers.after live

/-- A store that was just opened. -/
theorem storeOpen_live {initializing : Bool} {m : Machine}
    (h : storeOpen initializing nowMs ⟨storeInit, m⟩ = .done .ok ctx) :
    ctx.Live ∧ ctx.store.failure = .none := by
  rcases (storeOpen_opened _ _).done rfl h with
    ⟨-, husable, hsound, hlog⟩ | ⟨hfatal, -⟩
  · have hfields : ctx.store.opened = true ∧ ctx.store.failure = .none := by
      simpa [CoordinatorStore.usable] using husable
    exact ⟨⟨⟨hsound, fun _ => hlog⟩, hfields.1⟩, hfields.2⟩
  · cases hfatal

theorem Coordinator.Reachable.live (h : s.Reachable settings) :
    s.ctx.Live := by
  induction h with
  | start opened session => exact (storeOpen_live opened).1
  | step before step ih => exact (step.turn.after ih).live

-- ======================================================= example

/-- A coordinator on a new log, whose clock stands still. -/
def quietStart : Coordinator :=
  Coordinator.start ⟨firstStore, ⟨logDisk [], 0, []⟩⟩ fun _ => 5

/-- Its settings: heartbeats every second, and nothing to report yet. -/
def quietSettings : LoopSettings :=
  { timeoutMs := 1000
    session :=
      { readyAtMs := 5, startupDurationMs := 0, startupInterruptedJobs := 0,
        submittedAtStart := 0, completedAtStart := 0, failedAtStart := 0,
        retriesAtStart := 0 } }

theorem quietStart_reachable : quietStart.Reachable quietSettings :=
  .start firstStore_opened (by decide +kernel)

/-- The same coordinator with a connection. -/
def quietClient : Coordinator := quietStart.put 0 (Client.accepted 7 5)

theorem quietClient_reachable : quietClient.Reachable quietSettings := by
  have hvacant (j : Fin maxClients) : quietStart.client j = Client.vacant :=
    client_start
  have hslot : quietStart.vacantSlot = some 0 := by
    unfold Coordinator.vacantSlot
    simp only [hvacant]
    decide +kernel
  refine .step quietStart_reachable (.accept (s := quietStart) ⟨by decide, fun j => ?_⟩
    (?_ : acceptClient 7 true 5 quietStart = .done () quietClient))
  · rw [hvacant j]
    decide
  · simp only [acceptClient, hslot]
    rfl

end Faultline
