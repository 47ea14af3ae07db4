/-
One turn, as a connection and the job table see it.

A turn of the loop handles one message, gives out one job, or does neither
(`Coordinator.Event`). Whatever else belongs to the turn, closing a connection
for instance, neither creates a job nor completes one (`StoreCtx.Drifts`).
-/
import Faultline.Proofs.AssignmentTalk
import Faultline.Proofs.JobsEvolve

namespace Faultline

open Lib Coordinator

variable {s s₁ s' : Coordinator} {i j : Fin maxClients} {c c' : Client}
  {settings : LoopSettings} {nowMs : Int64} {message : Message}
  {reaction : Reaction} {reason : CloseReason}

-- ===================================================== drifting

/-- The operations a turn makes besides handling a message. -/
def StoreOp.incidental : StoreOp → Bool
  | .assign _ _ | .workerLost _ _ | .markDead _ _ => true
  | _ => false

/-- What a turn does to the store besides handling a message. -/
inductive StoreCtx.Drift (ctx : StoreCtx) : StoreCtx → Prop where
  | operation {op : StoreOp} {out : StoreResult × StoreOutput}
      {ctx' : StoreCtx} (incidental : op.incidental = true)
      (run : op.run ctx = .done out ctx') : Drift ctx ctx'
  | environment {m : Machine} (disk : m.disk = ctx.machine.disk) :
      Drift ctx ⟨ctx.store, m⟩

abbrev StoreCtx.Drifts : StoreCtx → StoreCtx → Prop :=
  Relation.ReflTransGen StoreCtx.Drift

theorem StoreCtx.Drifts.after {ctx ctx' : StoreCtx} (h : ctx.Drifts ctx')
    (live : ctx.Live) :
    ctx'.Live ∧ ctx.store.jobs.Evolves ctx'.store.jobs := by
  induction h with
  | refl => exact ⟨live, .refl _⟩
  | tail _ drift ih =>
      obtain ⟨hlive, hevolves⟩ := ih
      cases drift with
      | operation incidental run =>
          obtain ⟨hlive', hacts⟩ := hlive.acts run
          exact ⟨hlive', hevolves.trans hacts.evolves⟩
      | environment disk => exact ⟨hlive.environment disk, hevolves⟩

theorem Detaches.drifts {workerId : UInt32} {fd : Int}
    (h : Detaches workerId fd s s') : s.ctx.Drifts s'.ctx := by
  cases h with
  | idle idle mark => exact .single (.operation rfl mark)
  | lost active healthy lost mark =>
      exact (Relation.ReflTransGen.single (.operation rfl lost)).tail
        (.operation rfl mark)

theorem Closes.drifts (h : Closes i reason s s') : s.ctx.Drifts s'.ctx := by
  cases h with
  | client role => exact .refl
  | worker role detach => exact detach.drifts

theorem Queues.drifts (h : Queues i message s s') : s.ctx.Drifts s'.ctx := by
  cases h with
  | unencodable encode close => exact (close.drifts :)
  | clockFailed encode clock close => exact (close.drifts :)
  | queued encode clock => exact .refl

theorem Reacts.drifts (h : Reacts i s reaction s') : s.ctx.Drifts s'.ctx := by
  cases h with
  | none => exact .refl
  | close closes => exact closes.drifts
  | reply queues => exact queues.drifts
  | resetInput => exact .refl

theorem Stalls.drifts (h : Stalls i nowMs s s') : s.ctx.Drifts s'.ctx := by
  cases h with
  | moving progress => exact .refl
  | stalled stalled closes => exact closes.drifts

-- ==================================================== one turn

/-- Nothing was handled or queued on a connection; a vacant entry may have
been given to a new one. -/
inductive Client.Silent (c c' : Client) : Prop where
  | same (delivered : c'.history.delivered = c.history.delivered)
      (queued : c'.history.queued = c.history.queued)
      (worker : c'.workerId = c.workerId ∨ c'.workerId = 0)
  | fresh (vacant : c.fd < 0) (delivered : c'.history.delivered = [])
      (queued : c'.history.queued = []) (worker : c'.workerId = 0)

theorem Client.Silent.refl (c : Client) : c.Silent c :=
  .same rfl rfl (.inl rfl)

/-- What a reaction queues. -/
def Reaction.queued : Reaction → List Message
  | .reply message => [message]
  | _ => []

/-- What a turn does: nothing that concerns a message, an assignment, or the
handling of one message in a state `t` with the same store. -/
inductive Coordinator.Event (settings : LoopSettings) (s s' : Coordinator) :
    Prop where
  | quiet (drifts : s.ctx.Drifts s'.ctx)
      (clients : ∀ i, (s.client i).Silent (s'.client i))
  | assigns {i : Fin maxClients} {assignment : JobAssignPayload}
      {ctx : StoreCtx} (healthy : s.store.failure = .none)
      (run : (StoreOp.assign (s.client i).workerId s.now).run s.ctx
        = .done (.ok, .assignment assignment) ctx)
      (fd : 0 ≤ (s.client i).fd)
      (others : ∀ j, j ≠ i → s'.client j = s.client j)
      (drifts : ctx.Drifts s'.ctx)
      (delivered : (s'.client i).history.delivered
        = (s.client i).history.delivered)
      (queued : (s'.client i).history.queued
        = (s.client i).history.queued ++ [.jobAssign assignment])
      (worker : (s'.client i).workerId = (s.client i).workerId
        ∨ (s'.client i).workerId = 0)
  | handles {i : Fin maxClients} {nowMs : Int64} {message : Message}
      {reaction : Reaction} {t s₁ : Coordinator}
      (healthy : s.store.failure = .none)
      (fd : 0 ≤ (s.client i).fd) (ctx : t.ctx = s.ctx)
      (role : (t.client i).role = (s.client i).role
        ∧ (t.client i).workerId = (s.client i).workerId)
      (handles : Handles settings i nowMs t message reaction s₁)
      (others : ∀ j, j ≠ i → s'.client j = s.client j)
      (drifts : s₁.ctx.Drifts s'.ctx)
      (delivered : (s'.client i).history.delivered
        = (s.client i).history.delivered ++ [message])
      (queued : (s'.client i).history.queued
        = (s.client i).history.queued ++ reaction.queued)
      (worker : (s'.client i).workerId = (s₁.client i).workerId
        ∨ (s'.client i).workerId = 0)

theorem Queues.queued_eq (h : Queues i message s s') :
    (s'.client i).history.queued
      = (s.client i).history.queued ++ [message] := by
  have hstarts := h.result
  generalize s'.client i = c at hstarts
  cases hstarts <;> rfl

theorem Reacts.queued_eq (h : Reacts i s reaction s') :
    (s'.client i).history.queued
      = (s.client i).history.queued ++ reaction.queued := by
  cases h with
  | none => exact (List.append_nil _).symm
  | close closes =>
      rw [closes.result]
      exact (List.append_nil _).symm
  | reply queues => exact queues.queued_eq
  | resetInput =>
      rw [client_put_self]
      exact (List.append_nil _).symm

theorem Stalls.queued_eq (h : Stalls i nowMs s s') :
    (s'.client i).history.queued = (s.client i).history.queued := by
  cases h with
  | moving progress => rfl
  | stalled stalled closes =>
      rw [closes.result]
      rfl

/-- Closing ends a registration, nothing else does. -/
theorem Queues.worker (h : Queues i message s s') :
    (s'.client i).workerId = (s.client i).workerId
      ∨ (s'.client i).workerId = 0 := by
  have hstarts := h.result
  generalize s'.client i = c at hstarts
  cases hstarts with
  | unencodable encode => exact .inr rfl
  | clockFailed encode => exact .inr rfl
  | started encode => exact .inl rfl

theorem Reacts.worker (h : Reacts i s reaction s') :
    (s'.client i).workerId = (s.client i).workerId
      ∨ (s'.client i).workerId = 0 := by
  cases h with
  | none => exact .inl rfl
  | close closes =>
      rw [closes.result]
      exact .inr rfl
  | reply queues => exact queues.worker
  | resetInput =>
      rw [client_put_self]
      exact .inl rfl

theorem Stalls.worker (h : Stalls i nowMs s s') :
    (s'.client i).workerId = (s.client i).workerId
      ∨ (s'.client i).workerId = 0 := by
  cases h with
  | moving progress => exact .inl rfl
  | stalled stalled closes =>
      rw [closes.result]
      exact .inr rfl

/-- Entries that a turn of one connection leaves alone are silent. -/
theorem Client.Silent.others
    (others : ∀ j, j ≠ i → s'.client j = s.client j)
    (own : (s.client i).Silent (s'.client i)) (j : Fin maxClients) :
    (s.client j).Silent (s'.client j) := by
  by_cases hj : j = i
  · subst hj
    exact own
  · rw [others j hj]
    exact .refl _

/-- A connection's own turn. -/
theorem Serves.event {ready : Readiness}
    (h : Serves settings i ready nowMs s.ticked s')
    (healthy : s.store.failure = .none) : s.Event settings s' := by
  have hothers (j : Fin maxClients) (hj : j ≠ i) :
      s'.client j = s.client j := h.other hj
  cases h with
  | vacant fd => exact .quiet .refl fun _ => .refl _
  | cut fd why closes =>
      refine .quiet (closes.drifts :) (Client.Silent.others hothers ?_)
      rw [closes.result]
      exact .same rfl rfl (.inr rfl)
  | @served reaction s₁ s₂ _ fd transfers reacts stalls =>
      have hdrifts : s₁.ctx.Drifts s'.ctx :=
        reacts.drifts.trans stalls.drifts
      have hdelivered : (s'.client i).history.delivered
          = (s₁.client i).history.delivered :=
        stalls.delivered.trans reacts.delivered
      have hqueued : (s'.client i).history.queued
          = (s₁.client i).history.queued ++ reaction.queued :=
        stalls.queued_eq.trans reacts.queued_eq
      have hworker : (s'.client i).workerId = (s₁.client i).workerId
          ∨ (s'.client i).workerId = 0 := by
        rcases stalls.worker with hstalls | hnone
        · rw [hstalls]
          exact reacts.worker
        · exact .inr hnone
      -- a transfer that hands nothing on
      have hquiet (hctx : s₁.ctx = s.ctx)
          (hsame : (s₁.client i).history.delivered
              = (s.client i).history.delivered
            ∧ (s₁.client i).history.queued = (s.client i).history.queued
            ∧ (s₁.client i).workerId = (s.client i).workerId)
          (hnone : reaction.queued = []) : s.Event settings s' := by
        refine .quiet (hctx ▸ hdrifts) (Client.Silent.others hothers ?_)
        refine .same (hdelivered.trans hsame.1) ?_ (hsame.2.2 ▸ hworker)
        rw [hqueued, hsame.2.1, hnone, List.append_nil]
      cases transfers with
      | idle => exact hquiet rfl ⟨rfl, rfl, rfl⟩ rfl
      | sendFailed phase why => exact hquiet rfl ⟨rfl, rfl, rfl⟩ rfl
      | sends phase send =>
          refine hquiet rfl ?_ rfl
          rw [client_put_self]
          dsimp only [Client.advance]
          split <;> exact ⟨rfl, rfl, rfl⟩
      | reads phase reads =>
          generalize ready.recv = reply at reads
          cases reads with
          | eof => exact hquiet rfl ⟨rfl, rfl, rfl⟩ rfl
          | again => exact hquiet rfl ⟨rfl, rfl, rfl⟩ rfl
          | failed => exact hquiet rfl ⟨rfl, rfl, rfl⟩ rfl
          | short short =>
              refine hquiet rfl ?_ rfl
              rw [client_put_self]
              exact ⟨rfl, rfl, rfl⟩
          | @complete chunk _ _ full inspects =>
              have hgather : ((s.client i).gather chunk nowMs).history.delivered
                    = (s.client i).history.delivered
                  ∧ ((s.client i).gather chunk nowMs).history.queued
                    = (s.client i).history.queued
                  ∧ ((s.client i).gather chunk nowMs).workerId
                    = (s.client i).workerId :=
                ⟨Client.gather_history.2.1, Client.gather_handed.2.1,
                  Client.gather_workerId⟩
              cases inspects with
              | need inspect =>
                  refine hquiet rfl ?_ rfl
                  rw [client_put_self, client_put_self]
                  exact hgather
              | reject inspect =>
                  refine hquiet rfl ?_ rfl
                  rw [client_put_self]
                  exact hgather
              | @deliver message _ _ inspect handles =>
                  obtain ⟨-, hhistory⟩ := handles.client
                  rw [client_put_self, client_put_self] at hhistory
                  refine .handles healthy fd ?_ ⟨?_, ?_⟩ handles hothers
                    hdrifts ?_ ?_ hworker
                  · rfl
                  · rw [client_put_self, client_put_self]
                    exact Client.gather_role
                  · rw [client_put_self, client_put_self]
                    exact Client.gather_workerId
                  · rw [hdelivered, hhistory]
                    exact congrArg (· ++ [message]) hgather.1
                  · rw [hqueued, hhistory]
                    exact congrArg (· ++ reaction.queued) hgather.2.1

theorem Offers.event (h : Offers settings.timeoutMs i s s') :
    s.Event settings s' := by
  have hothers (j : Fin maxClients) (hj : j ≠ i) :
      s'.client j = s.client j := h.other hj
  cases h with
  | done => exact .quiet .refl fun _ => .refl _
  | skipped => exact .quiet .refl fun _ => .refl _
  | refused healthy clock idle run why =>
      exact .quiet (.single (.operation rfl run)) fun _ => .refl _
  | assigned healthy clock idle run queues =>
      exact .assigns healthy run (Client.assignable_iff.mp idle).1 hothers
        queues.drifts queues.delivered queues.queued_eq queues.worker

/-- Every turn is one of these. -/
theorem Coordinator.Turn.event (h : s.Turn settings s') :
    s.Event settings s' := by
  cases h with
  | same => exact .quiet .refl fun _ => .refl _
  | tick => exact .quiet .refl fun _ => .refl _
  | environment disk =>
      exact .quiet (.single (.environment disk)) fun _ => .refl _
  | serve healthy clock possible serves => exact serves.event healthy
  | @accept k fd nowMs fresh vacant =>
      refine .quiet .refl
        (Client.Silent.others (fun j hj => client_put_of_ne hj) ?_)
      rw [client_put_self]
      exact .fresh vacant rfl rfl rfl
  | offer offers => exact offers.event

-- ==================================================== messages

/-- Where a message comes from that is queued behind a turn. -/
inductive Coordinator.Enqueued (settings : LoopSettings) (s s' : Coordinator)
    (i : Fin maxClients) : Message → Prop where
  | before {m : Message} (queued : m ∈ (s.client i).history.queued) :
      Enqueued settings s s' i m
  | assigned {assignment : JobAssignPayload} {ctx : StoreCtx}
      (run : (StoreOp.assign (s.client i).workerId s.now).run s.ctx
        = .done (.ok, .assignment assignment) ctx)
      (drifts : ctx.Drifts s'.ctx) :
      Enqueued settings s s' i (.jobAssign assignment)
  | reply {nowMs : Int64} {message m : Message} {reaction : Reaction}
      {t s₁ : Coordinator} (ctx : t.ctx = s.ctx)
      (handles : Handles settings i nowMs t message reaction s₁)
      (drifts : s₁.ctx.Drifts s'.ctx) (queued : m ∈ reaction.queued) :
      Enqueued settings s s' i m

theorem Coordinator.Event.enqueued {m : Message} (h : s.Event settings s')
    (hmem : m ∈ (s'.client i).history.queued) :
    s.Enqueued settings s' i m := by
  cases h with
  | quiet drifts clients =>
      cases clients i with
      | same delivered queued => exact .before (queued ▸ hmem)
      | fresh vacant delivered queued =>
          rw [queued] at hmem
          cases hmem
  | @assigns k given ctx healthy run fd others drifts delivered queued =>
      by_cases hik : i = k
      · subst hik
        rw [queued] at hmem
        rcases List.mem_append.mp hmem with hmem | hmem
        · exact .before hmem
        · obtain rfl := List.mem_singleton.mp hmem
          exact .assigned run drifts
      · exact .before (others i hik ▸ hmem)
  | @handles k nowMs message reaction t s₁ healthy fd ctx role handles others
      drifts delivered queued =>
      by_cases hik : i = k
      · subst hik
        rw [queued] at hmem
        rcases List.mem_append.mp hmem with hmem | hmem
        · exact .before hmem
        · exact .reply ctx handles drifts hmem
      · exact .before (others i hik ▸ hmem)

end Faultline
