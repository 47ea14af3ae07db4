/-
Turns keep histories.

Whatever a turn of the loop does, its store keeps a property of histories that
lasts (`StoreKept.event`), and so does the disk if the machine stops in the
middle of the turn (`StoreKept.turnStops`). The jobs completed are those the
delivered messages report, so all that is asked of the peers is that these
reports are good ones (`Coordinator.Reports`).
-/
import Faultline.Proofs.KeptHistories
import Faultline.Proofs.LoopEvents
import Faultline.Proofs.LoopStops

namespace Faultline

open Lib Coordinator

variable {Good : Job → Prop} {P : List WalEntry → Prop} {c c' : StoreCtx}
  {s s' : Coordinator} {i : Fin maxClients} {settings : LoopSettings}
  {nowMs : Int64} {message : Message} {reaction : Reaction} {op : StoreOp}
  {ready : Readiness}

-- =================================================== operations

/-- Only reports complete jobs. -/
theorem StoreOp.sound_of_ne {store : CoordinatorStore}
    (h : ∀ worker report time, op ≠ .report worker report time) :
    op.Sound Good store := by
  rintro job ⟨_, _, _, _, hop, -⟩
  exact absurd hop (h _ _ _)

theorem StoreOp.sound_incidental {store : CoordinatorStore}
    (h : op.incidental = true) : op.Sound Good store := by
  refine StoreOp.sound_of_ne fun worker report time hop => ?_
  rw [hop] at h
  cases h

theorem StoreKept.environment (h : StoreKept P c) {m : Machine}
    (disk : m.disk = c.machine.disk) : StoreKept P ⟨c.store, m⟩ := by
  obtain ⟨entries, l, h⟩ := h
  exact ⟨entries, l, h.environment disk⟩

theorem StoreKept.drifts (h : StoreKept P c) (lasting : Lasting Good P)
    (drifts : c.Drifts c') : StoreKept P c' := by
  induction drifts with
  | refl => exact h
  | tail _ drift ih =>
      cases drift with
      | operation incidental run =>
          exact ih.operation lasting (StoreOp.sound_incidental incidental) run
      | environment disk => exact ih.environment disk

/-- What the message reports on the connection is good. -/
def Coordinator.Reports (Good : Job → Prop) (s : Coordinator)
    (i : Fin maxClients) (message : Message) : Prop :=
  ∀ nowMs, (StoreOp.report (s.client i).workerId message nowMs).Sound Good
    s.store

theorem Coordinator.Reports.request (h : s.Reports Good i message)
    {reason : CloseReason}
    (asks : (s.client i).request nowMs message = some (op, reason)) :
    op.Sound Good s.store := by
  cases message with
  | workerRegister w =>
      cases asks
      exact StoreOp.sound_of_ne fun _ _ _ hop => by cases hop
  | jobSubmit payload =>
      cases asks
      exact StoreOp.sound_of_ne fun _ _ _ hop => by cases hop
  | jobStarted identity =>
      cases asks
      exact h nowMs
  | jobCompleted payload =>
      cases asks
      exact h nowMs
  | jobFailed payload =>
      cases asks
      exact h nowMs
  | _ => cases asks

theorem Coordinator.Reports.received {chunk : List UInt8} {heard : Message}
    (h : s.Reports Good i message) :
    (s.received i nowMs chunk heard).Reports Good i message := by
  intro time
  have hworker : ((s.received i nowMs chunk heard).client i).workerId
      = (s.client i).workerId :=
    (congrArg Client.workerId client_put_self).trans Client.gather_workerId
  rw [hworker]
  exact h time

-- ======================================================== turns

theorem StoreKept.handles (h : StoreKept P s.ctx) (lasting : Lasting Good P)
    (handles : Handles settings i nowMs s message reaction s')
    (reports : s.Reports Good i message) : StoreKept P s'.ctx := by
  cases handles with
  | registered role run =>
      exact h.operation lasting (reports.request rfl) run
  | submitted role run =>
      exact h.operation lasting (reports.request rfl) run
  | reported report run => exact h.operation lasting (reports s.now) run
  | refused asks run why => exact h.operation lasting (reports.request asks) run
  | fatal asks run => exact h.operation lasting (reports.request asks) run
  | heartbeat role run =>
      refine h.operation lasting (StoreOp.sound_of_ne fun _ _ _ hop => ?_) run
      cases hop
  | _ => exact h

theorem StoreKept.event (h : StoreKept P s.ctx) (lasting : Lasting Good P)
    (event : s.Event settings s')
    (reports : s.store.failure = .none → ∀ i,
      ∀ message ∈ (s'.client i).history.delivered,
        s.Reports Good i message) :
    StoreKept P s'.ctx := by
  cases event with
  | quiet drifts clients => exact h.drifts lasting drifts
  | assigns healthy run fd others drifts =>
      exact (h.operation lasting (StoreOp.sound_incidental rfl) run).drifts
        lasting drifts
  | @handles i nowMs message reaction t s₁ healthy fd ctx role handles others
      drifts delivered queued worker =>
      have hstore : t.store = s.store := congrArg StoreCtx.store ctx
      refine (StoreKept.handles (ctx ▸ h) lasting handles ?_).drifts lasting
        drifts
      intro time
      rw [hstore, role.2]
      refine reports healthy i message ?_ time
      rw [delivered]
      exact List.mem_append_right _ (List.mem_singleton_self _)

-- ======================================================= stopping

theorem StoreKept.lossStops (h : StoreKept P s.ctx) (lasting : Lasting Good P)
    (stops : s.LossStops s') : DiskKeeps P s'.ctx.machine.disk := by
  obtain ⟨workerId, nowMs, run⟩ := stops
  exact h.stops lasting (StoreOp.sound_incidental rfl) run

theorem StoreKept.transfers (h : StoreKept P s.ctx) (lasting : Lasting Good P)
    (fd : 0 ≤ (s.client i).fd)
    (transfers : Transfers settings i ready nowMs s reaction s')
    (reports : ∀ chunk message,
      (s.client i).Receives ready nowMs chunk message →
      s.Reports Good i message) : StoreKept P s'.ctx := by
  rcases transfers.handled fd with hctx | ⟨chunk, message, hreceives, handles⟩
  · exact hctx ▸ h
  · exact StoreKept.handles (s := s.received i nowMs chunk message) h lasting
      handles (reports chunk message hreceives).received

theorem StoreKept.turnStops (h : StoreKept P s.ctx) (lasting : Lasting Good P)
    (stops : Stops settings i ready nowMs s s')
    (reports : ∀ chunk message,
      (s.client i).Receives ready nowMs chunk message →
      s.Reports Good i message) : DiskKeeps P s'.ctx.machine.disk := by
  cases stops with
  | closing fd stops => exact h.lossStops lasting stops
  | handling receives stops =>
      obtain ⟨time, op, reason, asks, run, -⟩ := stops
      exact h.stops lasting ((reports _ _ receives).received.request asks) run
  | settling fd transfers stops =>
      exact (h.transfers lasting fd transfers reports).lossStops lasting stops
  | stalling fd transfers reacts stops =>
      have hkept := h.transfers lasting fd transfers reports
      exact (hkept.drifts lasting reacts.drifts).lossStops lasting stops

theorem StoreKept.offerStops (h : StoreKept P s.ctx)
    (lasting : Lasting Good P) (stops : OfferStops i s s') :
    DiskKeeps P s'.ctx.machine.disk := by
  cases stops with
  | assigning stops =>
      exact h.stops lasting (StoreOp.sound_incidental rfl) stops
  | closing run stops =>
      exact (h.operation lasting (StoreOp.sound_incidental rfl) run).lossStops
        lasting stops

end Faultline
