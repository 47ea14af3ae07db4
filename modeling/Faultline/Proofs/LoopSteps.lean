/-
What one step of the event loop can do.

A branch of the loop first decides, then reacts: it closes the connection,
queues a reply, makes room for the next message, or does nothing
(`Reaction`). `Handles` lists the decisions on a message with everything they
change; it is read off the program once, as are the turns of the loop built on
it, and every invariant of the loop is proved from these lists. Store
operations appear as the runs of `StoreOp`.
-/
import Faultline.Coordinator.Loop
import Faultline.Proofs.StoreActs

namespace Faultline

open Lib Coordinator

variable {s s' : Coordinator} {i j : Fin maxClients} {c : Client}
  {ctx ctx' : StoreCtx} {settings : LoopSettings} {nowMs : Int64}

-- ======================================================== state

namespace Coordinator

@[simp] theorem client_put_self : (s.put i c).client i = c :=
  Vector.getElem_set_self i.isLt

theorem client_put_of_ne (h : j ≠ i) : (s.put i c).client j = s.client j := by
  have hval : i.val ≠ j.val := fun hv => h (Fin.ext hv.symm)
  exact Vector.getElem_set_ne i.isLt j.isLt hval

@[simp] theorem put_put {c' : Client} :
    (s.put i c).put i c' = s.put i c' := by
  simp [put, Vector.set_set]

@[simp] theorem ctx_put : (s.put i c).ctx = s.ctx := rfl

@[simp] theorem store_put : (s.put i c).store = s.store := rfl

@[simp] theorem clock_put : (s.put i c).clock = s.clock := rfl

@[simp] theorem ticks_put : (s.put i c).ticks = s.ticks := rfl

/-- What the clock reads next. -/
def now (s : Coordinator) : Int64 := s.clock s.ticks

/-- The clock was read. -/
def ticked (s : Coordinator) : Coordinator := { s with ticks := s.ticks + 1 }

@[simp] theorem ticked_put : (s.put i c).ticked = s.ticked.put i c := rfl

@[simp] theorem now_put : (s.put i c).now = s.now := rfl

@[simp] theorem client_ticked : s.ticked.client i = s.client i := rfl

@[simp] theorem store_ticked : s.ticked.store = s.store := rfl

@[simp] theorem clock_ticked : s.ticked.clock = s.clock := rfl

/-- The store has run. -/
def withCtx (s : Coordinator) (ctx : StoreCtx) : Coordinator := { s with ctx }

@[simp] theorem withCtx_put :
    (s.put i c).withCtx ctx = (s.withCtx ctx).put i c := rfl

@[simp] theorem client_withCtx :
    (s.withCtx ctx).client i = s.client i := rfl

@[simp] theorem ctx_withCtx : (s.withCtx ctx).ctx = ctx := rfl

@[simp] theorem store_withCtx : (s.withCtx ctx).store = ctx.store := rfl

@[simp] theorem clock_withCtx : (s.withCtx ctx).clock = s.clock := rfl

@[simp] theorem ticks_withCtx : (s.withCtx ctx).ticks = s.ticks := rfl

-- ===================================================== programs

@[simp] theorem getClient_run : getClient i s = .done (s.client i) s := rfl

@[simp] theorem setClient_run {update : Client → Client} :
    setClient i update s = .done () (s.put i (update (s.client i))) := rfl

@[simp] theorem getStore_run : getStore s = .done s.store s := rfl

@[simp] theorem monotonicMs_run : monotonicMs s = .done s.now s.ticked := rfl

@[simp] theorem setWorkers_run {workers : WorkerRegistry} :
    setWorkers workers s = .done ()
      (s.withCtx { s.ctx with store := { s.store with workers } }) := rfl

/-- A program that begins by looking at a client. -/
@[simp] theorem bind_getClient {α : Type} {f : Client → Prog Coordinator α} :
    (getClient i >>= f) s = f (s.client i) s := rfl

@[simp] theorem bind_setClient {α : Type} {update : Client → Client}
    {f : Unit → Prog Coordinator α} :
    (setClient i update >>= f) s = f () (s.put i (update (s.client i))) := rfl

@[simp] theorem bind_getStore {α : Type}
    {f : CoordinatorStore → Prog Coordinator α} :
    (getStore >>= f) s = f s.store s := rfl

@[simp] theorem bind_monotonicMs {α : Type} {f : Int64 → Prog Coordinator α} :
    (monotonicMs >>= f) s = f s.now s.ticked := rfl

@[simp] theorem bind_setWorkers {α : Type} {workers : WorkerRegistry}
    {f : Unit → Prog Coordinator α} :
    (setWorkers workers >>= f) s = f ()
      (s.withCtx { s.ctx with store := { s.store with workers } }) := rfl

theorem pure_done {α : Type} {a b : α}
    (h : (pure a : Prog Coordinator α) s = .done b s') : a = b ∧ s = s' := by
  cases h
  exact ⟨rfl, rfl⟩

theorem onStore_done {α : Type} {p : Prog StoreCtx α} {a : α}
    (h : onStore p s = .done a s') :
    ∃ ctx, p s.ctx = .done a ctx ∧ s' = s.withCtx ctx := by
  unfold onStore Prog.zoom at h
  cases hp : p s.ctx with
  | done b ctx =>
      simp only [hp] at h
      cases h
      exact ⟨ctx, rfl, rfl⟩
  | crash ctx =>
      simp only [hp] at h
      cases h

end Coordinator

-- ============================================== store operations

/-- A tagged program is its operation's run. -/
theorem tagged_done {α : Type} (tag : α → StoreOutput)
    {p : Prog StoreCtx (StoreResult × Option α)} {result : StoreResult}
    {output : Option α} (h : p ctx = .done (result, output) ctx') :
    tagged tag p ctx = .done (result, (output.map tag).getD .none) ctx' := by
  rw [tagged, Prog.bind_run, h]
  rfl

theorem storeWorkerLost_done {workerId : UInt32} {result : StoreResult}
    (h : storeWorkerLost workerId nowMs ctx = .done result ctx') :
    (StoreOp.workerLost workerId nowMs).run ctx
      = .done (result, .none) ctx' := by
  rw [StoreOp.run, Prog.bind_run, h]
  rfl

theorem storeReport_done {workerId : UInt32} {report : Message}
    {result : StoreResult}
    (h : storeReport workerId report nowMs ctx = .done result ctx') :
    (StoreOp.report workerId report nowMs).run ctx
      = .done (result, .none) ctx' := by
  rw [StoreOp.run, Prog.bind_run, h]
  rfl

/-- A registry update that went through. -/
theorem heartbeat_run {workerId : UInt32} {fd : Int}
    {workers : WorkerRegistry}
    (h : workerHeartbeat ctx.store.workers workerId fd nowMs = .ok workers) :
    (StoreOp.heartbeat workerId fd nowMs).run ctx
      = .done (.ok, .none)
        { ctx with store := { ctx.store with workers } } := by
  simp only [StoreOp.run, updateRegistry, Prog.bind_run, getStore_run, h,
    setStore_run]
  rfl

theorem markDead_run (workerId : UInt32) (fd : Int) (s : Coordinator) :
    ∃ out ctx, (StoreOp.markDead workerId fd).run s.ctx = .done out ctx
      ∧ markDead workerId fd s = .done () (s.withCtx ctx) := by
  simp only [StoreOp.run, updateRegistry, markDead, Prog.bind_run,
    getStore_run, Coordinator.getStore_run]
  cases h : workerMarkDead s.ctx.store.workers workerId fd with
  | error e =>
      refine ⟨_, s.ctx, rfl, ?_⟩
      simp only [Coordinator.store, h]
      rfl
  | ok workers =>
      refine ⟨_, _, rfl, ?_⟩
      simp only [Coordinator.store, h, setWorkers_run]

/-- An OK comes with its output. -/
def Outputs {α : Type} (p : Prog StoreCtx (StoreResult × Option α)) : Prop :=
  ∀ {ctx ctx' : StoreCtx} {output : Option α},
    p ctx = .done (.ok, output) ctx' → ∃ value, output = some value

theorem commitOutput_outputs {α : Type} (commit : Prog StoreCtx StoreResult)
    (value : α) : Outputs (commitOutput commit value) := by
  intro ctx ctx' output h
  obtain ⟨result, t, -, hret⟩ := Prog.bind_done h
  cases result <;> cases hret
  exact ⟨value, rfl⟩

theorem storeRegister_outputs (fd : Int) (nowMs : Int64) :
    Outputs (storeRegister fd nowMs) := by
  intro ctx ctx' output h
  obtain ⟨store, t, hget, h⟩ := Prog.bind_done h
  cases hget
  split at h
  · cases h
  split at h
  · cases h
  cases hworker : workerRegister ctx.store.workers fd nowMs with
  | error e =>
      simp only [hworker] at h
      cases h
  | ok registered =>
      simp only [hworker] at h
      obtain ⟨result, t, -, hret⟩ := Prog.bind_done h
      cases result <;> cases hret
      exact ⟨_, rfl⟩

theorem storeSubmit_outputs (payload : JobSubmitPayload) (nowMs : Int64) :
    Outputs (storeSubmit payload nowMs) := by
  intro ctx ctx' output h
  obtain ⟨store, t, hget, h⟩ := Prog.bind_done h
  cases hget
  split at h
  · cases h
  cases htime : ctx.store.jobTime nowMs with
  | none =>
      simp only [htime] at h
      cases h
  | some time =>
      simp only [htime] at h
      generalize schedulerSubmit ctx.store.jobs payload time = prepared at h
      obtain ⟨result, scratch, id⟩ := prepared
      cases result <;> cases id <;>
        first | exact commitOutput_outputs _ _ h | cases h

theorem storeAssign_outputs (workerId : UInt32) (nowMs : Int64) :
    Outputs (storeAssign workerId nowMs) := by
  intro ctx ctx' output h
  obtain ⟨store, t, hget, h⟩ := Prog.bind_done h
  cases hget
  split at h
  · cases h
  split at h
  · cases h
  cases htime : ctx.store.jobTime nowMs with
  | none =>
      simp only [htime] at h
      cases h
  | some time =>
      simp only [htime] at h
      generalize schedulerAssign ctx.store.jobs workerId time = prepared at h
      obtain ⟨result, scratch, candidate⟩ := prepared
      cases result <;> cases candidate <;>
        first | exact commitOutput_outputs _ _ h | cases h

-- ====================================================== closing

/-- A worker's connection is given up: its job is lost, if it has one and
the store still works, and its registration ends. -/
inductive Detaches (workerId : UInt32) (fd : Int) (s : Coordinator) :
    Coordinator → Prop where
  | idle {out : StoreResult × StoreOutput} {ctx : StoreCtx}
      (idle : schedulerActive s.store.jobs workerId = none
        ∨ s.store.failure ≠ .none)
      (mark : (StoreOp.markDead workerId fd).run s.ctx = .done out ctx) :
      Detaches workerId fd s (s.withCtx ctx)
  | lost {job : Job} {result : StoreResult} {ctx₁ ctx : StoreCtx}
      {out : StoreResult × StoreOutput}
      (active : schedulerActive s.store.jobs workerId = some job)
      (healthy : s.store.failure = .none)
      (lost : (StoreOp.workerLost workerId s.now).run s.ctx
        = .done (result, .none) ctx₁)
      (mark : (StoreOp.markDead workerId fd).run ctx₁ = .done out ctx) :
      Detaches workerId fd s (s.ticked.withCtx ctx)

inductive Closes (i : Fin maxClients) (reason : CloseReason)
    (s : Coordinator) : Coordinator → Prop where
  | client (role : (s.client i).workerId = 0) :
      Closes i reason s (s.put i ((s.client i).closed reason))
  | worker {s₁ : Coordinator} (role : (s.client i).workerId ≠ 0)
      (detach : Detaches (s.client i).workerId (s.client i).fd s s₁) :
      Closes i reason s (s₁.put i ((s.client i).closed reason))

theorem Detaches.client {workerId : UInt32} {fd : Int}
    (h : Detaches workerId fd s s') : s'.client j = s.client j := by
  cases h <;> rfl

theorem detachWorker_done {workerId : UInt32} {fd : Int}
    (h : detachWorker workerId fd s = .done () s') :
    Detaches workerId fd s s' := by
  obtain ⟨store, t, hget, h⟩ := Prog.bind_done h
  cases hget
  obtain ⟨u, t, hlose, h⟩ := Prog.bind_done h
  obtain ⟨out, ctx, hmark, hrun⟩ := markDead_run workerId fd t
  rw [hrun] at h
  cases h
  cases hcase : (schedulerActive s.store.jobs workerId).isSome
      && s.store.failure == .none with
  | false =>
      rw [hcase] at hlose
      cases hlose
      refine .idle ?_ hmark
      rw [Bool.and_eq_false_iff, Option.isSome_eq_false_iff,
        Option.isNone_iff_eq_none] at hcase
      exact hcase.imp_right fun hf => by simpa using hf
  | true =>
      rw [hcase] at hlose
      simp only [Bool.and_eq_true, Option.isSome_iff_exists, beq_iff_eq]
        at hcase
      obtain ⟨⟨job, hjob⟩, hfailure⟩ := hcase
      obtain ⟨now, t₁, hnow, hlose⟩ := Prog.bind_done hlose
      cases hnow
      obtain ⟨result, t₂, hlost, hret⟩ := Prog.bind_done hlose
      obtain ⟨ctx₁, hop, rfl⟩ := onStore_done hlost
      cases hret
      exact .lost hjob hfailure (storeWorkerLost_done hop) hmark

theorem closeClient_done {reason : CloseReason}
    (h : closeClient i reason s = .done () s') : Closes i reason s s' := by
  unfold closeClient at h
  simp only [Prog.bind_run, getClient_run] at h
  by_cases hrole : (s.client i).workerId = 0
  · simp only [hrole, Prog.when] at h
    cases h
    exact .client hrole
  · simp only [bne_iff_ne, ne_eq, hrole, not_false_eq_true, Prog.when,
      if_true] at h
    cases hd : detachWorker (s.client i).workerId (s.client i).fd s with
    | crash t =>
        simp [hd] at h
    | done u t =>
        have hdetach := detachWorker_done hd
        simp [hd] at h
        rw [hdetach.client] at h
        rw [← h]
        exact .worker hrole hdetach

/-- Closing one connection leaves the others alone. -/
theorem Closes.other {reason : CloseReason} (h : Closes i reason s s')
    (hj : j ≠ i) : s'.client j = s.client j := by
  cases h with
  | client role => exact client_put_of_ne hj
  | worker role detach => rw [client_put_of_ne hj, detach.client]

-- ====================================================== replies

/-- A message is encoded, and sent from now on, or the connection is
closed. -/
inductive Queues (i : Fin maxClients) (message : Message) (s : Coordinator) :
    Coordinator → Prop where
  | unencodable {e : ProtocolError} {s' : Coordinator}
      (encode : encodeOutput message = .error e)
      (close : Closes i .encodeError
        (s.put i ((s.client i).queueing message)) s') : Queues i message s s'
  | clockFailed {output : List UInt8} {s' : Coordinator}
      (encode : encodeOutput message = .ok output) (clock : s.now < 0)
      (close : Closes i .clockError (s.ticked.put i
        { (s.client i).queueing message with output }) s') :
      Queues i message s s'
  | queued {output : List UInt8}
      (encode : encodeOutput message = .ok output) (clock : 0 ≤ s.now) :
      Queues i message s (s.ticked.put i
        (Client.startReply { (s.client i).queueing message with output }
          s.now))

theorem queueMessage_done {message : Message}
    (h : queueMessage i message s = .done () s') : Queues i message s s' := by
  unfold queueMessage at h
  simp only [Prog.bind_run, setClient_run] at h
  cases hencode : encodeOutput message with
  | error e =>
      simp only [hencode] at h
      exact .unencodable hencode (closeClient_done h)
  | ok output =>
      simp only [hencode, Prog.bind_run, setClient_run, monotonicMs_run,
        client_put_self, put_put, now_put, ticked_put] at h
      by_cases hclock : s.now < 0
      · rw [if_pos hclock] at h
        exact .clockFailed hencode hclock (closeClient_done h)
      · rw [if_neg hclock, setClient_run, client_put_self, put_put] at h
        cases h
        exact .queued hencode (Int64.not_lt.mp hclock)

theorem Queues.other {message : Message} (h : Queues i message s s')
    (hj : j ≠ i) : s'.client j = s.client j := by
  cases h with
  | unencodable encode close => rw [close.other hj, client_put_of_ne hj]
  | clockFailed encode clock close =>
      rw [close.other hj, client_put_of_ne hj, client_ticked]
  | queued encode clock => rw [client_put_of_ne hj, client_ticked]

/-- A reaction, carried out. -/
inductive Reacts (i : Fin maxClients) (s : Coordinator) :
    Reaction → Coordinator → Prop where
  | none : Reacts i s .none s
  | close {reason : CloseReason} {s' : Coordinator}
      (closes : Closes i reason s s') : Reacts i s (.close reason) s'
  | reply {message : Message} {s' : Coordinator}
      (queues : Queues i message s s') : Reacts i s (.reply message) s'
  | resetInput :
      Reacts i s .resetInput (s.put i (s.client i).resetInput)

theorem Reaction.run_done {reaction : Reaction}
    (h : reaction.run i s = .done () s') : Reacts i s reaction s' := by
  cases reaction with
  | none =>
      cases h
      exact .none
  | close reason => exact .close (closeClient_done h)
  | reply message => exact .reply (queueMessage_done h)
  | resetInput =>
      cases h
      exact .resetInput

theorem Reacts.other {reaction : Reaction} (h : Reacts i s reaction s')
    (hj : j ≠ i) : s'.client j = s.client j := by
  cases h with
  | none => rfl
  | close closes => exact closes.other hj
  | reply queues => exact queues.other hj
  | resetInput => exact client_put_of_ne hj

-- ===================================================== requests

/-- The client's flag after a submission or a query. -/
def Client.asJobClient (client : Client) : Client :=
  { client with jobClient := true }

/-- The store operation a request asks for, and why the connection is
closed when it is refused. -/
def Client.request (client : Client) (nowMs : Int64) :
    Message → Option (StoreOp × CloseReason)
  | .workerRegister _ =>
      some (.register client.fd nowMs, .registrationRejected)
  | .jobSubmit payload => some (.submit payload nowMs, .submissionRejected)
  | .jobStarted identity =>
      some (.report client.workerId (.jobStarted identity) nowMs,
        .invalidJobReport)
  | .jobCompleted payload =>
      some (.report client.workerId (.jobCompleted payload) nowMs,
        .invalidJobReport)
  | .jobFailed payload =>
      some (.report client.workerId (.jobFailed payload) nowMs,
        .invalidJobReport)
  | _ => none

/-- The messages a coordinator has an answer for. -/
def Message.expected : Message → Bool
  | .ping _ | .workerRegister _ | .heartbeat _ | .jobSubmit _
  | .jobStatusRequest _ | .jobStarted _ | .jobCompleted _ | .jobFailed _
  | .jobsRequest _ | .workersRequest _ | .statsRequest _ => true
  | _ => false

/-- The decision about one message: the state it leaves, and the call that
is left to make. -/
inductive Handles (settings : LoopSettings) (i : Fin maxClients)
    (nowMs : Int64) (s : Coordinator) :
    Message → Reaction → Coordinator → Prop where
  | ping {w : UInt32} :
      Handles settings i nowMs s (.ping w) (.reply (.pong 0)) s
  | status {id : UInt64} :
      Handles settings i nowMs s (.jobStatusRequest id)
        (.reply (statusReply s.store.jobs id))
        (s.put i (s.client i).asJobClient)
  | jobs {w : UInt32} (clock : 0 ≤ s.now) :
      Handles settings i nowMs s (.jobsRequest w)
        (.reply (.jobsResponse (jobsListing s.store.jobs)))
        (s.ticked.put i (s.client i).asJobClient)
  | workers {w : UInt32} {listing : WorkersPayload} (clock : 0 ≤ s.now)
      (listed : workersListing s.store s.now settings.timeoutMs
        = some listing) :
      Handles settings i nowMs s (.workersRequest w)
        (.reply (.workersResponse listing))
        (s.ticked.put i (s.client i).asJobClient)
  | workersFailed {w : UInt32} (clock : 0 ≤ s.now)
      (listed : workersListing s.store s.now settings.timeoutMs = none) :
      Handles settings i nowMs s (.workersRequest w) (.close .clockError)
        (s.ticked.put i (s.client i).asJobClient)
  | listingClock {message : Message} (clock : s.now < 0)
      (asks : (∃ w, message = .jobsRequest w)
        ∨ ∃ w, message = .workersRequest w) :
      Handles settings i nowMs s message (.close .clockError) s.ticked
  | stats {w : UInt32} {stats : StatsPayload}
      (taken : statsSnapshot settings.session s.store s.now
        settings.timeoutMs = some stats) :
      Handles settings i nowMs s (.statsRequest w)
        (.reply (.statsResponse stats))
        (s.ticked.put i (s.client i).asJobClient)
  | statsFailed {w : UInt32}
      (taken : statsSnapshot settings.session s.store s.now
        settings.timeoutMs = none) :
      Handles settings i nowMs s (.statsRequest w)
        (.close .statsSnapshotError)
        (s.ticked.put i (s.client i).asJobClient)
  | jobClientRegisters {w : UInt32} (role : (s.client i).jobClient = true) :
      Handles settings i nowMs s (.workerRegister w)
        (.close .jobClientCannotRegister) s
  | registered {w id : UInt32} {ctx : StoreCtx}
      (role : (s.client i).jobClient = false)
      (run : (StoreOp.register (s.client i).fd s.now).run s.ctx
        = .done (.ok, .workerId id) ctx) :
      Handles settings i nowMs s (.workerRegister w)
        (.reply (.workerRegisterAck id))
        ((s.ticked.withCtx ctx).put i { s.client i with workerId := id })
  | workerSubmits {payload : JobSubmitPayload}
      (role : (s.client i).workerId ≠ 0) :
      Handles settings i nowMs s (.jobSubmit payload)
        (.close .workerCannotSubmit) s
  | submitted {payload : JobSubmitPayload} {id : UInt64} {ctx : StoreCtx}
      (role : (s.client i).workerId = 0)
      (run : (StoreOp.submit payload s.now).run s.ctx
        = .done (.ok, .jobId id) ctx) :
      Handles settings i nowMs s (.jobSubmit payload)
        (.reply (.jobSubmitAck id))
        ((s.ticked.withCtx ctx).put i (s.client i).asJobClient)
  | reported {message : Message} {ctx : StoreCtx}
      (report : message.reportIdentity.isSome = true)
      (run : (StoreOp.report (s.client i).workerId message s.now).run s.ctx
        = .done (.ok, .none) ctx) :
      Handles settings i nowMs s message .resetInput (s.ticked.withCtx ctx)
  | refused {message : Message} {op : StoreOp} {reason : CloseReason}
      {result : StoreResult} {output : StoreOutput} {ctx : StoreCtx}
      (asks : (s.client i).request s.now message = some (op, reason))
      (run : op.run s.ctx = .done (result, output) ctx)
      (why : result = .rejected ∨ result = .empty) :
      Handles settings i nowMs s message (.close reason)
        (s.ticked.withCtx ctx)
  | fatal {message : Message} {op : StoreOp} {reason : CloseReason}
      {output : StoreOutput} {ctx : StoreCtx}
      (asks : (s.client i).request s.now message = some (op, reason))
      (run : op.run s.ctx = .done (.fatal, output) ctx) :
      Handles settings i nowMs s message .none (s.ticked.withCtx ctx)
  | strangeHeartbeat {w : UInt32}
      (role : (s.client i).workerId = 0 ∨ w ≠ (s.client i).workerId) :
      Handles settings i nowMs s (.heartbeat w)
        (.close .heartbeatIdentityMismatch) s
  | lateHeartbeat {e : RegistryError}
      (beat : workerHeartbeat s.store.workers (s.client i).workerId
        (s.client i).fd nowMs = .error e) :
      Handles settings i nowMs s (.heartbeat (s.client i).workerId)
        (.close .heartbeatRejected) s
  | heartbeat {ctx : StoreCtx} (role : (s.client i).workerId ≠ 0)
      (run : (StoreOp.heartbeat (s.client i).workerId (s.client i).fd
        nowMs).run s.ctx = .done (.ok, .none) ctx) :
      Handles settings i nowMs s (.heartbeat (s.client i).workerId)
        .resetInput (s.withCtx ctx)
  | unexpected {message : Message} (type : message.expected = false) :
      Handles settings i nowMs s message (.close .unexpectedMessage) s

theorem Handles.other {message : Message} {reaction : Reaction}
    (h : Handles settings i nowMs s message reaction s') (hj : j ≠ i) :
    s'.client j = s.client j := by
  cases h <;> first | rfl | exact client_put_of_ne hj

theorem handleRegister_done {w : UInt32} {reaction : Reaction}
    (h : handleRegister i s = .done reaction s') :
    Handles settings i nowMs s (.workerRegister w) reaction s' := by
  rw [handleRegister, bind_getClient] at h
  by_cases hrole : (s.client i).jobClient = true
  · rw [if_pos hrole] at h
    obtain ⟨rfl, rfl⟩ := pure_done h
    exact .jobClientRegisters hrole
  rw [if_neg hrole, bind_monotonicMs] at h
  obtain ⟨⟨result, output⟩, t, hop, h⟩ := Prog.bind_done h
  obtain ⟨ctx, hstore, rfl⟩ := onStore_done hop
  have hrun := tagged_done .workerId hstore
  cases result with
  | ok =>
      obtain ⟨id, rfl⟩ := storeRegister_outputs _ _ hstore
      obtain ⟨rfl, rfl⟩ := pure_done h
      exact .registered (Bool.not_eq_true _ ▸ hrole) hrun
  | fatal =>
      obtain ⟨rfl, rfl⟩ := pure_done h
      exact .fatal rfl hrun
  | rejected =>
      obtain ⟨rfl, rfl⟩ := pure_done h
      exact .refused rfl hrun (Or.inl rfl)
  | empty =>
      obtain ⟨rfl, rfl⟩ := pure_done h
      exact .refused rfl hrun (Or.inr rfl)

theorem handleSubmit_done {payload : JobSubmitPayload} {reaction : Reaction}
    (h : handleSubmit i payload s = .done reaction s') :
    Handles settings i nowMs s (.jobSubmit payload) reaction s' := by
  rw [handleSubmit, bind_getClient] at h
  by_cases hrole : (s.client i).workerId ≠ 0
  · rw [if_pos (by simpa using hrole)] at h
    obtain ⟨rfl, rfl⟩ := pure_done h
    exact .workerSubmits hrole
  rw [if_neg (by simpa using hrole), bind_monotonicMs] at h
  rw [ne_eq, not_not] at hrole
  obtain ⟨⟨result, output⟩, t, hop, h⟩ := Prog.bind_done h
  obtain ⟨ctx, hstore, rfl⟩ := onStore_done hop
  have hrun := tagged_done .jobId hstore
  cases result with
  | ok =>
      obtain ⟨id, rfl⟩ := storeSubmit_outputs _ _ hstore
      obtain ⟨rfl, rfl⟩ := pure_done h
      exact .submitted hrole hrun
  | fatal =>
      obtain ⟨rfl, rfl⟩ := pure_done h
      exact .fatal rfl hrun
  | rejected =>
      obtain ⟨rfl, rfl⟩ := pure_done h
      exact .refused rfl hrun (Or.inl rfl)
  | empty =>
      obtain ⟨rfl, rfl⟩ := pure_done h
      exact .refused rfl hrun (Or.inr rfl)

theorem handleReport_done {message : Message} {reaction : Reaction}
    (asks : ∀ now, (s.client i).request now message
      = some (.report (s.client i).workerId message now, .invalidJobReport))
    (report : message.reportIdentity.isSome = true)
    (h : handleReport i message s = .done reaction s') :
    Handles settings i nowMs s message reaction s' := by
  rw [handleReport, bind_getClient, bind_monotonicMs] at h
  obtain ⟨result, t, hop, h⟩ := Prog.bind_done h
  obtain ⟨ctx, hstore, rfl⟩ := onStore_done hop
  have hrun := storeReport_done hstore
  cases result with
  | ok =>
      obtain ⟨rfl, rfl⟩ := pure_done h
      exact .reported report hrun
  | fatal =>
      obtain ⟨rfl, rfl⟩ := pure_done h
      exact .fatal (asks _) hrun
  | rejected =>
      obtain ⟨rfl, rfl⟩ := pure_done h
      exact .refused (asks _) hrun (Or.inl rfl)
  | empty =>
      obtain ⟨rfl, rfl⟩ := pure_done h
      exact .refused (asks _) hrun (Or.inr rfl)

theorem handleHeartbeat_done {w : UInt32} {reaction : Reaction}
    (h : handleHeartbeat i w nowMs s = .done reaction s') :
    Handles settings i nowMs s (.heartbeat w) reaction s' := by
  rw [handleHeartbeat, bind_getClient] at h
  by_cases hrole : (s.client i).workerId = 0 ∨ w ≠ (s.client i).workerId
  · rw [if_pos (by simpa using hrole)] at h
    obtain ⟨rfl, rfl⟩ := pure_done h
    exact .strangeHeartbeat hrole
  rw [if_neg (by simpa using hrole), bind_getStore] at h
  rw [not_or, ne_eq, not_not] at hrole
  obtain ⟨hne, rfl⟩ := hrole
  cases hbeat : workerHeartbeat s.store.workers (s.client i).workerId
      (s.client i).fd nowMs with
  | error e =>
      simp only [hbeat] at h
      obtain ⟨rfl, rfl⟩ := pure_done h
      exact .lateHeartbeat hbeat
  | ok workers =>
      simp only [hbeat, bind_setWorkers] at h
      obtain ⟨rfl, rfl⟩ := pure_done h
      exact .heartbeat hne (heartbeat_run hbeat)

theorem handleJobs_done {w : UInt32} {reaction : Reaction}
    (h : handleJobs i s = .done reaction s') :
    Handles settings i nowMs s (.jobsRequest w) reaction s' := by
  rw [handleJobs, bind_monotonicMs] at h
  by_cases hclock : s.now < 0
  · rw [if_pos hclock] at h
    obtain ⟨rfl, rfl⟩ := pure_done h
    exact .listingClock hclock (Or.inl ⟨w, rfl⟩)
  · rw [if_neg hclock, becomeJobClient, bind_setClient, bind_getStore] at h
    obtain ⟨rfl, rfl⟩ := pure_done h
    exact .jobs (Int64.not_lt.mp hclock)

theorem handleWorkers_done {w : UInt32} {reaction : Reaction}
    (h : handleWorkers settings i s = .done reaction s') :
    Handles settings i nowMs s (.workersRequest w) reaction s' := by
  rw [handleWorkers, bind_monotonicMs] at h
  by_cases hclock : s.now < 0
  · rw [if_pos hclock] at h
    obtain ⟨rfl, rfl⟩ := pure_done h
    exact .listingClock hclock (Or.inr ⟨w, rfl⟩)
  rw [if_neg hclock, becomeJobClient, bind_setClient, bind_getStore] at h
  have hnow := Int64.not_lt.mp hclock
  cases hlist : workersListing s.store s.now settings.timeoutMs with
  | none =>
      simp only [store_put, store_ticked, hlist] at h
      obtain ⟨rfl, rfl⟩ := pure_done h
      exact .workersFailed hnow hlist
  | some listing =>
      simp only [store_put, store_ticked, hlist] at h
      obtain ⟨rfl, rfl⟩ := pure_done h
      exact .workers hnow hlist

theorem handleStats_done {w : UInt32} {reaction : Reaction}
    (h : handleStats settings i s = .done reaction s') :
    Handles settings i nowMs s (.statsRequest w) reaction s' := by
  rw [handleStats, becomeJobClient, bind_setClient, bind_monotonicMs,
    bind_getStore] at h
  cases htaken : statsSnapshot settings.session s.store s.now
      settings.timeoutMs with
  | none =>
      simp only [now_put, ticked_put, store_put, store_ticked, htaken] at h
      obtain ⟨rfl, rfl⟩ := pure_done h
      exact .statsFailed htaken
  | some stats =>
      simp only [now_put, ticked_put, store_put, store_ticked, htaken] at h
      obtain ⟨rfl, rfl⟩ := pure_done h
      exact .stats htaken

/-- Every message is handled in one of these ways. -/
theorem handleMessage_done {message : Message} {reaction : Reaction}
    (h : handleMessage settings i message nowMs s = .done reaction s') :
    Handles settings i nowMs s message reaction s' := by
  cases message with
  | ping w =>
      obtain ⟨rfl, rfl⟩ := pure_done h
      exact .ping
  | workerRegister w => exact handleRegister_done h
  | heartbeat w => exact handleHeartbeat_done h
  | jobSubmit payload => exact handleSubmit_done h
  | jobStatusRequest id =>
      obtain ⟨rfl, rfl⟩ := pure_done h
      exact .status
  | jobStarted identity => exact handleReport_done (fun _ => rfl) rfl h
  | jobCompleted payload => exact handleReport_done (fun _ => rfl) rfl h
  | jobFailed payload => exact handleReport_done (fun _ => rfl) rfl h
  | jobsRequest w => exact handleJobs_done h
  | workersRequest w => exact handleWorkers_done h
  | statsRequest w => exact handleStats_done h
  | _ =>
      obtain ⟨rfl, rfl⟩ := pure_done h
      exact .unexpected rfl

end Faultline
