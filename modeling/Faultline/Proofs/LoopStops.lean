/-
Where the machine stops under the event loop.

A turn of the loop only stops inside a store operation. The operation is the
one a request asks for, with nothing done before it but receiving the request
(`Stops.handling`); or one that makes no results: an assignment, or the loss of
a worker's job when its connection is closed, possibly behind a request that
was handled (`Stops.closing`, `Stops.settling`).
-/
import Faultline.Proofs.LoopTurns

namespace Faultline

open Lib Coordinator

variable {s s₁ s' : Coordinator} {i : Fin maxClients} {ctx ctx' : StoreCtx}
  {settings : LoopSettings} {nowMs : Int64} {message : Message}
  {reaction : Reaction} {reason : CloseReason}

-- ============================================== store operations

theorem onStore_crash {α : Type} {p : Prog StoreCtx α}
    (h : onStore p s = .crash s') :
    p s.ctx = .crash s'.ctx ∧ s'.clients = s.clients := by
  unfold onStore Prog.zoom at h
  cases hp : p s.ctx with
  | done b ctx =>
      simp only [hp] at h
      cases h
  | crash ctx =>
      simp only [hp] at h
      cases h
      exact ⟨rfl, rfl⟩

theorem tagged_crash {α : Type} (tag : α → StoreOutput)
    {p : Prog StoreCtx (StoreResult × Option α)}
    (h : p ctx = .crash ctx') : tagged tag p ctx = .crash ctx' := by
  rw [tagged, Prog.bind_run, h]

theorem storeWorkerLost_crash {workerId : UInt32}
    (h : storeWorkerLost workerId nowMs ctx = .crash ctx') :
    (StoreOp.workerLost workerId nowMs).run ctx = .crash ctx' := by
  rw [StoreOp.run, Prog.bind_run, h]

theorem storeReport_crash {workerId : UInt32} {report : Message}
    (h : storeReport workerId report nowMs ctx = .crash ctx') :
    (StoreOp.report workerId report nowMs).run ctx = .crash ctx' := by
  rw [StoreOp.run, Prog.bind_run, h]

/-- The loss of a worker's job stops. -/
def Coordinator.LossStops (s s' : Coordinator) : Prop :=
  ∃ workerId nowMs,
    (StoreOp.workerLost workerId nowMs).run s.ctx = .crash s'.ctx

-- ====================================================== closing

theorem detachWorker_crash {workerId : UInt32} {fd : Int}
    (h : detachWorker workerId fd s = .crash s') : s.LossStops s' := by
  rw [detachWorker, bind_getStore] at h
  rcases Prog.bind_crash h with hlose | ⟨_, t, -, hmark⟩
  · unfold Prog.when at hlose
    split at hlose
    · rw [loseJob, bind_monotonicMs] at hlose
      rcases Prog.bind_crash hlose with hlost | ⟨_, t, -, hdone⟩
      · exact ⟨workerId, s.now, storeWorkerLost_crash (onStore_crash hlost).1⟩
      · cases hdone
    · cases hlose
  · obtain ⟨_, _, -, hrun⟩ := markDead_run workerId fd t
    rw [hrun] at hmark
    cases hmark

theorem closeClient_crash (h : closeClient i reason s = .crash s') :
    s.LossStops s' := by
  rw [closeClient, bind_getClient] at h
  rcases Prog.bind_crash h with hdetach | ⟨_, t, -, hset⟩
  · unfold Prog.when at hdetach
    split at hdetach
    · exact detachWorker_crash hdetach
    · cases hdetach
  · cases hset

theorem queueMessage_crash (h : queueMessage i message s = .crash s') :
    s.LossStops s' := by
  rw [queueMessage, bind_setClient] at h
  cases hencode : encodeOutput message with
  | error e =>
      simp only [hencode] at h
      exact (closeClient_crash h :)
  | ok output =>
      simp only [hencode, bind_setClient, bind_monotonicMs] at h
      split at h
      · exact (closeClient_crash h :)
      · cases h

theorem Reaction.run_crash (h : reaction.run i s = .crash s') :
    s.LossStops s' := by
  cases reaction with
  | none => cases h
  | close reason => exact closeClient_crash h
  | reply message => exact queueMessage_crash h
  | resetInput => cases h

theorem closeStalled_crash (h : closeStalled i nowMs s = .crash s') :
    s.LossStops s' := by
  rw [closeStalled, bind_getClient] at h
  unfold Prog.when at h
  split at h
  · exact closeClient_crash h
  · cases h

-- ===================================================== requests

/-- The operation a request asks for stops. -/
def Coordinator.RequestStops (s : Coordinator) (i : Fin maxClients)
    (message : Message) (s' : Coordinator) : Prop :=
  ∃ nowMs op reason, (s.client i).request nowMs message = some (op, reason)
    ∧ op.run s.ctx = .crash s'.ctx ∧ s'.clients = s.clients

theorem handleRegister_crash {w : UInt32}
    (h : handleRegister i s = .crash s') :
    s.RequestStops i (.workerRegister w) s' := by
  rw [handleRegister, bind_getClient] at h
  split at h
  · cases h
  rw [bind_monotonicMs] at h
  rcases Prog.bind_crash h with hstore | ⟨registered, t, -, hrest⟩
  · obtain ⟨hrun, hclients⟩ := onStore_crash hstore
    exact ⟨s.now, _, _, rfl, tagged_crash _ hrun, hclients⟩
  · obtain ⟨result, output⟩ := registered
    cases result <;> cases output <;> cases hrest

theorem handleSubmit_crash {payload : JobSubmitPayload}
    (h : handleSubmit i payload s = .crash s') :
    s.RequestStops i (.jobSubmit payload) s' := by
  rw [handleSubmit, bind_getClient] at h
  split at h
  · cases h
  rw [bind_monotonicMs] at h
  rcases Prog.bind_crash h with hstore | ⟨submitted, t, -, hrest⟩
  · obtain ⟨hrun, hclients⟩ := onStore_crash hstore
    exact ⟨s.now, _, _, rfl, tagged_crash _ hrun, hclients⟩
  · obtain ⟨result, output⟩ := submitted
    cases result <;> cases output <;> cases hrest

/-- A report, which is one of three messages. -/
theorem handleReport_crash
    (asks : (s.client i).request s.now message
      = some (.report (s.client i).workerId message s.now, reason))
    (h : handleReport i message s = .crash s') :
    s.RequestStops i message s' := by
  rw [handleReport, bind_getClient, bind_monotonicMs] at h
  rcases Prog.bind_crash h with hstore | ⟨result, t, -, hrest⟩
  · obtain ⟨hrun, hclients⟩ := onStore_crash hstore
    exact ⟨s.now, _, _, asks, storeReport_crash hrun, hclients⟩
  · cases result <;> cases hrest

theorem handleMessage_crash
    (h : handleMessage settings i message nowMs s = .crash s') :
    s.RequestStops i message s' := by
  cases message with
  | workerRegister w => exact handleRegister_crash h
  | jobSubmit payload => exact handleSubmit_crash h
  | jobStarted identity => exact handleReport_crash rfl h
  | jobCompleted payload => exact handleReport_crash rfl h
  | jobFailed payload => exact handleReport_crash rfl h
  | heartbeat w =>
      rw [handleMessage, handleHeartbeat, bind_getClient] at h
      split at h
      · cases h
      rw [bind_getStore] at h
      cases hbeat : workerHeartbeat s.store.workers w (s.client i).fd nowMs with
      | error e =>
          simp only [hbeat] at h
          cases h
      | ok workers =>
          simp only [hbeat] at h
          cases h
  | jobsRequest w =>
      rw [handleMessage, handleJobs, bind_monotonicMs] at h
      split at h <;> cases h
  | workersRequest w =>
      rw [handleMessage, handleWorkers, bind_monotonicMs] at h
      split at h
      · cases h
      · simp only [becomeJobClient, bind_setClient, bind_getStore] at h
        generalize workersListing _ _ _ = listing at h
        cases listing <;> cases h
  | statsRequest w =>
      rw [handleMessage, handleStats, becomeJobClient, bind_setClient,
        bind_monotonicMs, bind_getStore] at h
      generalize statsSnapshot _ _ _ _ = stats at h
      cases stats <;> cases h
  | _ => cases h

-- ======================================================== turns

/-- A turn completes a message. -/
structure Client.Receives (c : Client) (ready : Readiness) (nowMs : Int64)
    (chunk : List UInt8) (message : Message) : Prop where
  fd : 0 ≤ c.fd
  phase : c.phase = .readingMessage
  recv : ready.recv = .data chunk
  full : c.expected ≤ (c.input ++ chunk).length
  inspect : inspectInput (c.gather chunk nowMs).role
    (c.gather chunk nowMs).input = .deliver message

/-- The state it is handled in. -/
def Coordinator.received (s : Coordinator) (i : Fin maxClients)
    (nowMs : Int64) (chunk : List UInt8) (message : Message) : Coordinator :=
  s.put i (((s.client i).gather chunk nowMs).deliver message)

/-- A transfer handles a message, or leaves the store alone. -/
theorem Transfers.handled {ready : Readiness}
    (h : Transfers settings i ready nowMs s reaction s')
    (fd : 0 ≤ (s.client i).fd) :
    s'.ctx = s.ctx
      ∨ ∃ chunk message, (s.client i).Receives ready nowMs chunk message
        ∧ Handles settings i nowMs (s.received i nowMs chunk message) message
          reaction s' := by
  cases h with
  | idle => exact .inl rfl
  | sendFailed phase why => exact .inl rfl
  | sends phase send => exact .inl rfl
  | reads phase reads =>
      generalize hrecv : ready.recv = reply at reads
      cases reads with
      | eof => exact .inl rfl
      | again => exact .inl rfl
      | failed => exact .inl rfl
      | short short => exact .inl rfl
      | @complete chunk _ _ full inspects =>
          cases inspects with
          | need inspect => exact .inl rfl
          | reject inspect => exact .inl rfl
          | @deliver message _ _ inspect handles =>
              rw [client_put_self] at inspect
              rw [client_put_self, put_put] at handles
              exact .inr ⟨chunk, message, ⟨fd, phase, hrecv, full, inspect⟩,
                handles⟩

/-- A turn of a connection stops. -/
inductive Stops (settings : LoopSettings) (i : Fin maxClients)
    (ready : Readiness) (nowMs : Int64) (s s' : Coordinator) : Prop where
  | closing (fd : 0 ≤ (s.client i).fd) (stops : s.LossStops s')
  | handling {chunk : List UInt8} {message : Message}
      (receives : (s.client i).Receives ready nowMs chunk message)
      (stops : (s.received i nowMs chunk message).RequestStops i message s')
  | settling {reaction : Reaction} {s₁ : Coordinator}
      (fd : 0 ≤ (s.client i).fd)
      (transfers : Transfers settings i ready nowMs s reaction s₁)
      (stops : s₁.LossStops s')
  | stalling {reaction : Reaction} {s₁ s₂ : Coordinator}
      (fd : 0 ≤ (s.client i).fd)
      (transfers : Transfers settings i ready nowMs s reaction s₁)
      (reacts : Reacts i s₁ reaction s₂) (stops : s₂.LossStops s')

theorem handleInput_crash
    (h : handleInput settings i nowMs s = .crash s') :
    ∃ message, inspectInput (s.client i).role (s.client i).input
        = .deliver message
      ∧ (s.put i ((s.client i).deliver message)).RequestStops i message
        s' := by
  rw [handleInput, bind_getClient] at h
  cases hinspect : inspectInput (s.client i).role (s.client i).input with
  | need expected =>
      simp only [hinspect] at h
      cases h
  | reject reason =>
      simp only [hinspect] at h
      cases h
  | deliver message =>
      simp only [hinspect, bind_setClient] at h
      exact ⟨message, rfl, handleMessage_crash h⟩

theorem readMessage_crash {reply : RecvReply}
    (h : readMessage settings i reply nowMs s = .crash s') :
    ∃ chunk, reply = .data chunk
      ∧ (s.client i).expected ≤ ((s.client i).input ++ chunk).length
      ∧ handleInput settings i nowMs
          (s.put i ((s.client i).gather chunk nowMs)) = .crash s' := by
  rw [readMessage, bind_getClient] at h
  cases reply with
  | eof => cases h
  | again => cases h
  | failed => cases h
  | data chunk =>
      simp only [bind_setClient] at h
      by_cases hshort :
          ((s.client i).input ++ chunk).length < (s.client i).expected
      · rw [if_pos hshort] at h
        cases h
      rw [if_neg hshort] at h
      refine ⟨chunk, rfl, Nat.not_lt.mp hshort, ?_⟩
      unfold Client.gather
      by_cases hheader : ((s.client i).input ++ chunk).length = headerSize
      · rw [if_pos hheader]
        rw [Prog.when, if_pos (by simpa using hheader), bind_setClient,
          client_put_self, put_put] at h
        exact h
      · rw [if_neg hheader]
        rw [Prog.when, if_neg (by simpa using hheader)] at h
        exact h

theorem transfer_crash {ready : Readiness} (fd : 0 ≤ (s.client i).fd)
    (h : transfer settings i ready nowMs s = .crash s') :
    Stops settings i ready nowMs s s' := by
  rw [transfer, bind_getClient] at h
  cases hphase : (s.client i).phase with
  | readingMessage =>
      simp only [hphase] at h
      split at h
      · obtain ⟨chunk, hrecv, hfull, hinput⟩ := readMessage_crash h
        obtain ⟨message, hinspect, hstops⟩ := handleInput_crash hinput
        rw [client_put_self] at hinspect
        rw [client_put_self, put_put] at hstops
        exact .handling ⟨fd, hphase, hrecv, hfull, hinspect⟩ hstops
      · cases h
  | writingReply =>
      simp only [hphase] at h
      split at h
      · cases hsend : ready.send with
        | taken count =>
            rw [hsend] at h
            cases count <;> cases h
        | _ =>
            rw [hsend] at h
            cases h
      · cases h

theorem serveClient_crash {ready : Readiness}
    (h : serveClient settings i ready nowMs s = .crash s') :
    Stops settings i ready nowMs s s' := by
  rw [serveClient, bind_getClient, bind_getStore] at h
  by_cases hfd : (s.client i).fd < 0
  · rw [if_pos hfd] at h
    cases h
  rw [if_neg hfd] at h
  have hopen : 0 ≤ (s.client i).fd := Int.not_lt.mp hfd
  split at h
  · exact .closing hopen (closeClient_crash h)
  split at h
  · exact .closing hopen (closeClient_crash h)
  rcases Prog.bind_crash h with htransfer | ⟨reaction, s₁, htransfer, hrest⟩
  · exact transfer_crash hopen htransfer
  have htransfers := transfer_done htransfer
  rcases Prog.bind_crash hrest with hreact | ⟨_, s₂, hreact, hstall⟩
  · exact .settling hopen htransfers (Reaction.run_crash hreact)
  · exact .stalling hopen htransfers (Reaction.run_done hreact)
      (closeStalled_crash hstall)

/-- An offer stops in its assignment, or when its connection is closed. -/
inductive OfferStops (i : Fin maxClients) (s s' : Coordinator) : Prop where
  | assigning {workerId : UInt32} {nowMs : Int64}
      (stops : (StoreOp.assign workerId nowMs).run s.ctx = .crash s'.ctx)
  | closing {workerId : UInt32} {nowMs : Int64}
      {out : StoreResult × StoreOutput} {s₁ : Coordinator}
      (run : (StoreOp.assign workerId nowMs).run s.ctx = .done out s₁.ctx)
      (stops : s₁.LossStops s')

theorem scheduleFrom_crash {timeoutMs : Int64}
    (h : scheduleFrom timeoutMs [i] s = .crash s') : OfferStops i s s' := by
  have hresult {t : Coordinator} : scheduleResult t ≠ .crash s' := nofun
  unfold scheduleFrom at h
  rw [bind_getStore] at h
  split at h
  · exact absurd h hresult
  rw [bind_monotonicMs] at h
  split at h
  · cases h
  rw [bind_getClient] at h
  split at h
  · rcases Prog.bind_crash h with hassign | ⟨assigned, t, hassign, hrest⟩
    · exact .assigning (tagged_crash _ (onStore_crash hassign).1)
    · obtain ⟨result, output⟩ := assigned
      obtain ⟨ctx, hrun, rfl⟩ := onStore_done hassign
      cases result with
      | ok =>
          cases output with
          | none => cases hrest
          | some assignment =>
              rcases Prog.bind_crash hrest with hqueue | ⟨_, t, -, hnext⟩
              · exact .closing (tagged_done _ hrun) (queueMessage_crash hqueue)
              · exact absurd hnext hresult
      | _ => cases hrest
  · exact absurd h hresult

end Faultline
