/-
What a connection of the coordinator has said and heard about its worker's
job.

While a connection is open, the assignments queued on it, the reports that
arrived on it and the worker's active job belong together
(`Coordinator.Told`). Turns of other connections do not touch this
(`Turn.spares`); a turn of its own keeps it as long as the reports it
delivers are those that are due, and then no report is refused
(`Turn.talking`).
-/
import Faultline.Proofs.ActiveJobs

namespace Faultline

open Lib Coordinator

variable {s s₁ s' : Coordinator} {i j : Fin maxClients} {c c' : Client}
  {settings : LoopSettings} {nowMs : Int64} {worker : UInt32}
  {message : Message} {reaction : Reaction} {reason : CloseReason}

/-- The identities handed out on a connection, in order. -/
def Client.given (c : Client) : List JobIdentity :=
  c.history.queued.filterMap Message.assigned

/-- The notices that arrived on a connection, in order. -/
def Client.heard (c : Client) : List (JobIdentity × Notice) :=
  c.history.delivered.filterMap Message.notice

/-- What is out on a connection. -/
def Coordinator.outAt (s : Coordinator) (i : Fin maxClients) :
    Option (JobIdentity × Bool) :=
  s.store.jobs.out (s.client i).workerId

/-- The assignments of a connection, its reports and its worker's job belong
together. -/
structure Coordinator.Told (s : Coordinator) (i : Fin maxClients) : Prop where
  talks : Given (s.client i).given (s.client i).heard (s.outAt i)
  silent : (s.client i).workerId = 0 → (s.client i).given = []

/-- The connection is over, and not for a report. -/
structure Client.Parted (c : Client) : Prop where
  fd : c.fd < 0
  talks : ∃ out, Lib.Given c.given c.heard out
  why : c.history.closing ≠ some .invalidJobReport

/-- Where a turn can leave a connection. -/
inductive Coordinator.Talking (s : Coordinator) (i : Fin maxClients) : Prop
    where
  | on (fd : 0 ≤ (s.client i).fd) (told : s.Told i)
  | off (parted : (s.client i).Parted)

theorem Scheduler.out_zero {scheduler : Scheduler} :
    scheduler.out 0 = none := by
  simp [Scheduler.out, schedulerActive]

theorem Coordinator.Told.frame (h : s.Told i)
    (given : (s'.client i).given = (s.client i).given)
    (heard : (s'.client i).heard = (s.client i).heard)
    (workerId : (s'.client i).workerId = (s.client i).workerId)
    (out : s'.outAt i = s.outAt i) : s'.Told i := by
  refine ⟨?_, ?_⟩
  · rw [given, heard, out]
    exact h.talks
  · rw [given, workerId]
    exact h.silent

theorem Coordinator.Told.ticked (h : s.Told i) : s.ticked.Told i :=
  h.frame rfl rfl rfl rfl

/-- Another state of the same connection. -/
theorem Coordinator.Told.put (h : s.Told i)
    (queued : c.history.queued = (s.client i).history.queued)
    (delivered : c.history.delivered = (s.client i).history.delivered)
    (workerId : c.workerId = (s.client i).workerId) : (s.put i c).Told i := by
  refine h.frame ?_ ?_ ?_ ?_
  · rw [client_put_self, Client.given, queued]
    rfl
  · rw [client_put_self, Client.heard, delivered]
    rfl
  · rw [client_put_self, workerId]
  · unfold outAt
    rw [client_put_self, workerId]
    rfl

-- =============================================== other workers

section Spares

/-- The job of a worker is what it was. -/
def Coordinator.Spares (worker : UInt32) (s s' : Coordinator) : Prop :=
  s'.store.jobs.out worker = s.store.jobs.out worker

theorem Coordinator.Spares.ran {op : StoreOp} {ctx : StoreCtx}
    {out : StoreResult × StoreOutput} (live : s.ctx.Live)
    (run : op.run s.ctx = .done out ctx)
    (hactor : op.actor ≠ some worker) : s.Spares worker (s.withCtx ctx) :=
  (live.acts run).2.out_spares hactor

theorem Detaches.spares {other : UInt32} {fd : Int}
    (h : Detaches other fd s s') (live : s.ctx.Live)
    (hne : other ≠ worker) : s.Spares worker s' := by
  cases h with
  | idle idle mark => exact Spares.ran live mark nofun
  | lost active healthy lost mark =>
      have hother : (StoreOp.workerLost other s.now).actor ≠ some worker :=
        fun hsame => hne (Option.some.inj hsame)
      obtain ⟨hlive, hacts⟩ := live.acts lost
      exact ((hlive.acts mark).2.out_spares nofun).trans
        (hacts.out_spares hother)

theorem Closes.spares (h : Closes j reason s s') (live : s.ctx.Live)
    (hne : (s.client j).workerId ≠ worker) : s.Spares worker s' := by
  cases h with
  | client role => rfl
  | worker role detach => exact detach.spares live hne

theorem Queues.spares (h : Queues j message s s') (live : s.ctx.Live)
    (hne : (s.client j).workerId ≠ worker) : s.Spares worker s' := by
  cases h with
  | unencodable encode close =>
      refine close.spares live ?_
      rw [client_put_self]
      exact hne
  | clockFailed encode clock close =>
      refine close.spares live ?_
      rw [client_put_self]
      exact hne
  | queued encode clock => rfl

theorem Reacts.spares (h : Reacts j s reaction s') (live : s.ctx.Live)
    (hne : (s.client j).workerId ≠ worker) : s.Spares worker s' := by
  cases h with
  | none => rfl
  | close closes => exact closes.spares live hne
  | reply queues => exact queues.spares live hne
  | resetInput => rfl

theorem Stalls.spares (h : Stalls j nowMs s s') (live : s.ctx.Live)
    (hne : (s.client j).workerId ≠ worker) : s.Spares worker s' := by
  cases h with
  | moving progress => rfl
  | stalled stalled closes => exact closes.spares live hne

/-- A request acts for the worker that makes it, or for none. -/
theorem Client.request_actor {op : StoreOp}
    (h : c.request nowMs message = some (op, reason))
    (hne : c.workerId ≠ worker) : op.actor ≠ some worker := by
  have hother : some c.workerId ≠ some worker :=
    fun hsame => hne (Option.some.inj hsame)
  cases message <;> cases h <;> first | exact hother | exact nofun

theorem Handles.spares
    (h : Handles settings j nowMs s message reaction s')
    (live : s.ctx.Live) (hne : (s.client j).workerId ≠ worker) :
    s.Spares worker s' := by
  cases h with
  | registered role run => exact Spares.ran live run nofun
  | submitted role run => exact Spares.ran live run nofun
  | reported report run =>
      exact Spares.ran live run fun hsame => hne (Option.some.inj hsame)
  | refused asks run why =>
      exact Spares.ran live run (Client.request_actor asks hne)
  | fatal asks run => exact Spares.ran live run (Client.request_actor asks hne)
  | heartbeat role run => exact Spares.ran live run nofun
  | _ => rfl

theorem Client.gather_workerId {chunk : List UInt8} :
    (c.gather chunk nowMs).workerId = c.workerId := by
  unfold Client.gather
  split <;> rfl

theorem Reads.spares {reply : RecvReply}
    (h : Reads settings j nowMs s reply reaction s')
    (live : s.ctx.Live) (hne : (s.client j).workerId ≠ worker) :
    s.Spares worker s' := by
  cases h with
  | complete full inspects =>
      cases inspects with
      | deliver inspect handles =>
          refine handles.spares live ?_
          rw [client_put_self, client_put_self]
          exact fun hsame => hne (Client.gather_workerId.symm.trans hsame)
      | _ => rfl
  | _ => rfl

theorem Transfers.spares {ready : Readiness}
    (h : Transfers settings j ready nowMs s reaction s')
    (live : s.ctx.Live) (hne : (s.client j).workerId ≠ worker) :
    s.Spares worker s' := by
  cases h with
  | reads phase reads => exact reads.spares live hne
  | _ => rfl

theorem Serves.spares {ready : Readiness}
    (h : Serves settings j ready nowMs s s') (linked : s.Linked)
    (live : s.ctx.Live) (input : (s.client j).Input False)
    (possible : ready.Possible (s.client j)) (hij : i ≠ j)
    (worker_ne : (s.client i).workerId ≠ 0)
    (healthy : s'.store.failure = .none) :
    s.Spares (s.client i).workerId s' := by
  have hother {t : Coordinator} (hlinked : t.Linked)
      (hsame : t.client i = s.client i) :
      (t.client j).workerId ≠ (s.client i).workerId := by
    intro hids
    rw [← hsame] at hids worker_ne
    exact hij (hlinked.unique worker_ne hids.symm)
  cases h with
  | vacant fd => rfl
  | cut fd why closes => exact closes.spares live (hother linked rfl)
  | @served reaction s₁ s₂ _ fd transfers reacts stalls =>
      have hlive₁ := transfers.after live
      have hlive₂ := reacts.after hlive₁.live
      have healthy₂ := (stalls.after hlive₂.live).healthy healthy
      have linked₁ := linked.transfers live input fd possible transfers
        (hlive₂.healthy healthy₂)
      have linked₂ := linked₁.reacts hlive₁.live reacts healthy₂
      have hsame₁ := transfers.other hij
      have hsame₂ := (reacts.other hij).trans hsame₁
      have h₁ := transfers.spares live (hother linked rfl)
      have h₂ := reacts.spares hlive₁.live (hother linked₁ hsame₁)
      have h₃ := stalls.spares hlive₂.live (hother linked₂ hsame₂)
      exact h₃.trans (h₂.trans h₁)

theorem Offers.spares {timeoutMs : Int64} (h : Offers timeoutMs j s s')
    (live : s.ctx.Live) (hne : (s.client j).workerId ≠ worker) :
    s.Spares worker s' := by
  have hactor : (StoreOp.assign (s.client j).workerId s.now).actor
      ≠ some worker := fun hsame => hne (Option.some.inj hsame)
  cases h with
  | done => rfl
  | skipped => rfl
  | refused healthy clock idle run why => exact Spares.ran live run hactor
  | assigned healthy clock idle run queues =>
      obtain ⟨hlive, hacts⟩ := live.acts run
      exact (queues.spares hlive hne).trans (hacts.out_spares hactor)

end Spares

-- ====================================================== parting

theorem Closes.parted (h : Closes i reason s s')
    (talks : ∃ out, Given (s.client i).given (s.client i).heard out)
    (why : reason ≠ .invalidJobReport) : (s'.client i).Parted := by
  rw [h.result]
  exact ⟨Client.closed_fd, talks, fun hsame => why (Option.some.inj hsame)⟩

theorem Client.given_queueing :
    (c.queueing message).given = c.given ++ message.assigned.toList := by
  unfold Client.given
  rw [show (c.queueing message).history.queued = c.history.queued ++ [message]
    from rfl, List.filterMap_append]
  cases hassigned : message.assigned <;> simp [hassigned]

theorem Client.heard_deliver :
    (c.deliver message).heard = c.heard ++ message.notice.toList := by
  unfold Client.heard
  rw [show (c.deliver message).history.delivered
    = c.history.delivered ++ [message] from rfl, List.filterMap_append]
  cases hnotice : message.notice <;> simp [hnotice]

/-- A message is queued, and what it hands out is out. -/
theorem Queues.talking (h : Queues i message s s')
    (fd : 0 ≤ (s.client i).fd)
    (talks : Given ((s.client i).given ++ message.assigned.toList)
      (s.client i).heard (s.outAt i))
    (silent : (s.client i).workerId = 0 →
      (s.client i).given ++ message.assigned.toList = []) :
    s'.Talking i := by
  rw [← Client.given_queueing] at talks silent
  cases h with
  | unencodable encode close =>
      refine .off (close.parted ?_ nofun)
      rw [client_put_self]
      exact ⟨_, talks⟩
  | clockFailed encode clock close =>
      refine .off (close.parted ?_ nofun)
      rw [client_put_self]
      exact ⟨_, talks⟩
  | queued encode clock =>
      refine .on ?_ ⟨?_, ?_⟩
      · rw [client_put_self]
        exact fd
      · unfold outAt
        rw [client_put_self]
        exact talks
      · rw [client_put_self]
        exact silent

/-- What is left to do keeps the talk in order. -/
def Reaction.Keeps (s : Coordinator) (i : Fin maxClients) : Reaction → Prop
  | .close reason =>
      (∃ out, Given (s.client i).given (s.client i).heard out)
        ∧ reason ≠ .invalidJobReport
  | .reply message => s.Told i ∧ message.assigned = Option.none
  | _ => s.Told i

theorem Reacts.talking (h : Reacts i s reaction s')
    (keeps : reaction.Keeps s i) (fd : 0 ≤ (s.client i).fd) :
    s'.Talking i := by
  cases h with
  | none => exact .on fd keeps
  | close closes => exact .off (closes.parted keeps.1 keeps.2)
  | @reply message _ queues =>
      obtain ⟨told, hnone⟩ := keeps
      refine queues.talking fd ?_ ?_ <;>
        rw [hnone, Option.toList_none, List.append_nil]
      · exact told.talks
      · exact told.silent
  | resetInput =>
      refine .on ?_ (Told.put keeps rfl rfl rfl)
      rw [client_put_self]
      exact fd

theorem Stalls.talking (h : Stalls i nowMs s s') (before : s.Talking i) :
    s'.Talking i := by
  cases h with
  | moving progress => exact before
  | stalled stalled closes =>
      cases before with
      | on fd told => exact .off (closes.parted ⟨_, told.talks⟩ nofun)
      | off parted =>
          have hfd := Client.stalled_fd stalled
          have hclosed := parted.fd
          omega

-- ===================================================== handling

/-- A new worker has no job. -/
theorem Coordinator.Linked.registered_out {id : UInt32} {ctx : StoreCtx}
    (h : s.Linked) (live : s.ctx.Live)
    (role : (s.client i).jobClient = false)
    (run : (StoreOp.register (s.client i).fd nowMs).run s.ctx
      = .done (.ok, .workerId id) ctx) (healthy : ctx.store.failure = .none) :
    (s.client i).workerId = 0 ∧ ctx.store.jobs.out id = none := by
  obtain ⟨-, hacts⟩ := live.acts run
  obtain ⟨hok, hjobs⟩ := hacts.registered
  obtain ⟨-, hid, -, hnone, -⟩ := workerRegister_alive h.registry hok
  have hzero : (s.client i).workerId = 0 := by
    by_contra hworker
    exact hnone _ (h.member i hworker).2.2
  refine ⟨hzero, ?_⟩
  have hlinked := h.registered live role run healthy
  unfold Scheduler.out
  cases hactive : schedulerActive ctx.store.jobs id with
  | none => rfl
  | some job =>
      rw [hjobs] at hactive
      obtain ⟨-, hmem, hworker, hact⟩ := schedulerActive_some hactive
      obtain ⟨j, hj⟩ := h.owner id
        (Board.mem_ownersIn.mpr ⟨job, hmem, hact, hworker⟩)
      have hji : j ≠ i := by
        rintro rfl
        exact hid (hj.symm.trans hzero)
      refine absurd (@Linked.unique _ i j hlinked ?_ ?_) hji.symm
      · rw [client_put_self]
        exact hid
      · rw [client_put_self, client_put_of_ne hji]
        exact hj.symm

theorem notice_of_identity (h : message.reportIdentity.isSome = true) :
    ∃ notice, message.notice = some notice := by
  cases message <;> first | exact ⟨_, rfl⟩ | cases h

/-- A message has just arrived; what was heard before it is in order, and it
is due. -/
structure Coordinator.Hearing (s : Coordinator) (i : Fin maxClients)
    (message : Message) : Prop where
  talks : ∃ before, (s.client i).heard = before ++ message.notice.toList
    ∧ Given (s.client i).given before (s.outAt i)
  silent : (s.client i).workerId = 0 → (s.client i).given = []
  encodable : message.Encodable
  due : ∀ notice, message.notice = some notice → Due (s.outAt i) notice

/-- A message that is no report says nothing. -/
theorem Coordinator.Hearing.told (h : s.Hearing i message)
    (hnone : message.notice = none) : s.Told i := by
  obtain ⟨before, hheard, talks⟩ := h.talks
  rw [hnone, Option.toList_none, List.append_nil] at hheard
  exact ⟨hheard ▸ talks, h.silent⟩

/-- The store has run for others, or not at all. -/
theorem Coordinator.Told.withCtx {ctx : StoreCtx} (h : s.Told i)
    (out : ctx.store.jobs.out (s.client i).workerId = s.outAt i) :
    (s.withCtx ctx).Told i :=
  h.frame rfl rfl rfl out

/-- A connection becomes a worker's. -/
theorem Coordinator.Hearing.registered {id : UInt32} {ctx : StoreCtx}
    (h : s.Hearing i message) (hnone : message.notice = none)
    (worker : (s.client i).workerId = 0) (out : ctx.store.jobs.out id = none) :
    ((s.ticked.withCtx ctx).put i { s.client i with workerId := id }).Told i
    := by
  have htold := h.told hnone
  have hgiven := htold.silent worker
  have htalks := htold.talks
  rw [hgiven, outAt, worker, Scheduler.out_zero] at htalks
  refine ⟨?_, fun _ => ?_⟩
  · unfold outAt
    rw [client_put_self]
    show Given (s.client i).given (s.client i).heard (ctx.store.jobs.out id)
    rw [out, hgiven]
    exact htalks
  · rw [client_put_self]
    exact hgiven

/-- A report that is due is not refused. -/
theorem Coordinator.Hearing.accepted {op : StoreOp} {result : StoreResult}
    {output : StoreOutput} {ctx : StoreCtx} (h : s.Hearing i message)
    (linked : s.Linked) (live : s.ctx.Live)
    (healthy : s.store.failure = .none)
    (asks : (s.client i).request s.now message = some (op, reason))
    (run : op.run s.ctx = .done (result, output) ctx)
    (why : result = .rejected ∨ result = .empty) :
    message.notice = none ∧ reason ≠ .invalidJobReport := by
  cases hnotice : message.notice with
  | none =>
      refine ⟨rfl, ?_⟩
      cases message <;> cases asks <;> cases hnotice <;> exact nofun
  | some notice =>
      exfalso
      have hdue := h.due notice hnotice
      have hop : op = .report (s.client i).workerId message s.now := by
        cases message <;> cases hnotice <;> cases asks <;> rfl
      subst hop
      have hworker : (s.client i).workerId ≠ 0 := by
        intro hzero
        rw [outAt, hzero, Scheduler.out_zero] at hdue
        exact hdue
      have halive := workerIsAlive_of_aliveAt linked.registry
        (linked.member i hworker).2.2
      rcases report_effective live healthy halive h.encodable hnotice hdue
        run with rfl | rfl <;> rcases why with why | why <;> cases why

theorem assigned_none (h : ∀ assignment, message ≠ .jobAssign assignment) :
    message.assigned = none := by
  cases message with
  | jobAssign assignment => exact absurd rfl (h assignment)
  | _ => rfl

/-- A message that has arrived is handled. -/
theorem Handles.keeps (h : Handles settings i nowMs s message reaction s')
    (hearing : s.Hearing i message) (linked : s.Linked) (live : s.ctx.Live)
    (healthy : s'.store.failure = .none) : reaction.Keeps s' i := by
  have hbefore := (h.after live).healthy healthy
  have hkind (reply : Message) (hreply : reaction = .reply reply) :
      reply.assigned = none :=
    assigned_none ((h.reaction_cases live).2.2 reply hreply)
  have hnothing (hnone : message.notice = none) :
      ∃ out, Given (s.client i).given (s.client i).heard out :=
    ⟨_, (hearing.told hnone).talks⟩
  cases h with
  | ping => exact ⟨hearing.told rfl, rfl⟩
  | status => exact ⟨(hearing.told rfl).put rfl rfl rfl, hkind _ rfl⟩
  | jobs clock =>
      exact ⟨(hearing.told rfl).ticked.put rfl rfl rfl, rfl⟩
  | workers clock listed =>
      exact ⟨(hearing.told rfl).ticked.put rfl rfl rfl, rfl⟩
  | stats taken =>
      exact ⟨(hearing.told rfl).ticked.put rfl rfl rfl, rfl⟩
  | workersFailed clock listed =>
      have htold := (hearing.told rfl).ticked
      exact ⟨⟨_, (htold.put (c := (s.client i).asJobClient) rfl rfl
        rfl).talks⟩, nofun⟩
  | statsFailed taken =>
      have htold := (hearing.told rfl).ticked
      exact ⟨⟨_, (htold.put (c := (s.client i).asJobClient) rfl rfl
        rfl).talks⟩, nofun⟩
  | listingClock clock asks =>
      refine ⟨hnothing ?_, nofun⟩
      rcases asks with ⟨_, rfl⟩ | ⟨_, rfl⟩ <;> rfl
  | jobClientRegisters role => exact ⟨hnothing rfl, nofun⟩
  | @registered w id ctx role run =>
      obtain ⟨hzero, hout⟩ := linked.registered_out live role run healthy
      exact ⟨hearing.registered rfl hzero hout, rfl⟩
  | workerSubmits role => exact ⟨hnothing rfl, nofun⟩
  | @submitted payload id ctx role run =>
      have htold : (s.ticked.withCtx ctx).Told i :=
        Told.withCtx (hearing.told rfl).ticked (Spares.ran live run nofun)
      exact ⟨htold.put rfl rfl rfl, rfl⟩
  | @reported _ ctx report run =>
      obtain ⟨notice, hnotice⟩ := notice_of_identity report
      obtain ⟨before, hheard, talks⟩ := hearing.talks
      have hhears := talks.hear (hearing.due notice hnotice)
      rw [← (live.acts run).2.out_reported hnotice] at hhears
      rw [hnotice] at hheard
      refine ⟨?_, hearing.silent⟩
      show Given (s.client i).given (s.client i).heard _
      rw [hheard]
      exact hhears
  | refused asks run why =>
      obtain ⟨hnone, hreason⟩ := hearing.accepted linked live hbefore asks run
        why
      exact ⟨hnothing hnone, hreason⟩
  | fatal asks run => exact absurd healthy (live.acts run).2.fatal_latched
  | strangeHeartbeat role => exact ⟨hnothing rfl, nofun⟩
  | lateHeartbeat beat => exact ⟨hnothing rfl, nofun⟩
  | heartbeat role run =>
      exact Told.withCtx (hearing.told rfl) (Spares.ran live run nofun)
  | unexpected type =>
      refine ⟨hnothing ?_, nofun⟩
      cases message <;> first | rfl | cases type

-- ========================================================= turns

/-- What a connection delivers next, if anything, can be encoded, and as a
report it is due. -/
def Client.Conforms (c : Client) (out : Option (JobIdentity × Bool))
    (c' : Client) : Prop :=
  ∀ message, c'.history.delivered = c.history.delivered ++ [message] →
    message.Encodable
      ∧ ∀ notice, message.notice = some notice → Due out notice

theorem Handles.client (h : Handles settings i nowMs s message reaction s') :
    (s'.client i).fd = (s.client i).fd
      ∧ (s'.client i).history = (s.client i).history := by
  obtain ⟨workerId, jobClient, hclient⟩ := h.result
  rw [hclient]
  exact ⟨rfl, rfl⟩

/-- Bytes that complete a message. -/
theorem Coordinator.Told.hearing {chunk : List UInt8} (h : s.Told i)
    (encodable : message.Encodable)
    (due : ∀ notice, message.notice = some notice → Due (s.outAt i) notice) :
    (s.put i (((s.client i).gather chunk nowMs).deliver message)).Hearing i
      message := by
  have hgather : (s.put i ((s.client i).gather chunk nowMs)).Told i :=
    h.put Client.gather_handed.2.1 Client.gather_history.2.1
      Client.gather_workerId
  have hout : (s.put i (((s.client i).gather chunk nowMs).deliver
      message)).outAt i = s.outAt i := by
    unfold outAt
    rw [client_put_self]
    exact congrArg s.store.jobs.out Client.gather_workerId
  have hsame : (s.put i ((s.client i).gather chunk nowMs)).outAt i
      = s.outAt i := by
    unfold outAt
    rw [client_put_self, Client.gather_workerId]
    rfl
  have htalks := hgather.talks
  have hsilent := hgather.silent
  rw [client_put_self] at htalks hsilent
  refine ⟨⟨((s.client i).gather chunk nowMs).heard, ?_, ?_⟩, ?_, encodable,
    ?_⟩
  · rw [client_put_self]
    exact Client.heard_deliver
  · rw [client_put_self, hout, ← hsame]
    exact htalks
  · rw [client_put_self]
    exact hsilent
  · rw [hout]
    exact due

theorem Reads.keeps {reply : RecvReply}
    (h : Reads settings i nowMs s reply reaction s') (told : s.Told i)
    (linked : s.Linked) (live : s.ctx.Live)
    (conforms : (s.client i).Conforms (s.outAt i) (s'.client i))
    (healthy : s'.store.failure = .none) :
    reaction.Keeps s' i ∧ (s'.client i).fd = (s.client i).fd := by
  cases h with
  | eof =>
      refine ⟨⟨⟨_, told.talks⟩, ?_⟩, rfl⟩
      split <;> exact nofun
  | again => exact ⟨told, rfl⟩
  | failed => exact ⟨⟨⟨_, told.talks⟩, nofun⟩, rfl⟩
  | short short =>
      rw [client_put_self]
      exact ⟨told.put rfl rfl rfl, rfl⟩
  | @complete chunk _ _ full inspects =>
      have hgather : (s.put i ((s.client i).gather chunk nowMs)).Told i :=
        told.put Client.gather_handed.2.1 Client.gather_history.2.1
          Client.gather_workerId
      cases inspects with
      | need inspect =>
          rw [put_put, client_put_self]
          refine ⟨told.put Client.gather_handed.2.1 Client.gather_history.2.1
            Client.gather_workerId, ?_⟩
          rw [client_put_self]
          exact Client.gather_fd
      | reject inspect =>
          have hframing := inspectInput_reject inspect
          rw [client_put_self]
          refine ⟨⟨⟨_, hgather.talks⟩, fun hreason => ?_⟩, Client.gather_fd⟩
          rw [hreason] at hframing
          cases hframing
      | @deliver message _ _ inspect handles =>
          rw [put_put, client_put_self] at handles
          obtain ⟨hfd, hhistory⟩ := handles.client
          rw [client_put_self] at hfd hhistory
          have hdelivered : (s'.client i).history.delivered
              = (s.client i).history.delivered ++ [message] := by
            rw [hhistory]
            exact congrArg (· ++ [message]) Client.gather_history.2.1
          obtain ⟨encodable, due⟩ := conforms message hdelivered
          have hlinked : (s.put i (((s.client i).gather chunk nowMs).deliver
              message)).Linked := by
            refine linked.put ?_
            unfold Client.gather
            split <;> exact ⟨rfl, rfl, fun _ => rfl⟩
          exact ⟨handles.keeps (told.hearing encodable due) hlinked live
            healthy, hfd.trans Client.gather_fd⟩

theorem Transfers.keeps {ready : Readiness}
    (h : Transfers settings i ready nowMs s reaction s') (told : s.Told i)
    (linked : s.Linked) (live : s.ctx.Live)
    (conforms : (s.client i).Conforms (s.outAt i) (s'.client i))
    (healthy : s'.store.failure = .none) :
    reaction.Keeps s' i ∧ (s'.client i).fd = (s.client i).fd := by
  cases h with
  | idle => exact ⟨told, rfl⟩
  | reads phase reads => exact reads.keeps told linked live conforms healthy
  | sendFailed phase why =>
      refine ⟨⟨⟨_, told.talks⟩, ?_⟩, rfl⟩
      rcases why with rfl | rfl <;> exact nofun
  | sends phase send =>
      rw [client_put_self]
      dsimp only [Client.advance]
      split <;> exact ⟨told.put rfl rfl rfl, rfl⟩

theorem Queues.delivered (h : Queues i message s s') :
    (s'.client i).history.delivered = (s.client i).history.delivered := by
  have hstarts := h.result
  generalize s'.client i = c at hstarts
  cases hstarts <;> rfl

theorem Reacts.delivered (h : Reacts i s reaction s') :
    (s'.client i).history.delivered = (s.client i).history.delivered := by
  cases h with
  | none => rfl
  | close closes =>
      rw [closes.result]
      rfl
  | reply queues => exact queues.delivered
  | resetInput =>
      rw [client_put_self]
      rfl

theorem Stalls.delivered (h : Stalls i nowMs s s') :
    (s'.client i).history.delivered = (s.client i).history.delivered := by
  cases h with
  | moving progress => rfl
  | stalled stalled closes =>
      rw [closes.result]
      rfl

/-- A connection's own turn. -/
theorem Serves.talking {ready : Readiness}
    (h : Serves settings i ready nowMs s s') (told : s.Told i)
    (linked : s.Linked) (live : s.ctx.Live) (fd : 0 ≤ (s.client i).fd)
    (conforms : (s.client i).Conforms (s.outAt i) (s'.client i))
    (healthy : s'.store.failure = .none) : s'.Talking i := by
  cases h with
  | vacant closed => omega
  | cut _ why closes =>
      refine .off (closes.parted ⟨_, told.talks⟩ ?_)
      rcases why with rfl | rfl <;> exact nofun
  | @served reaction s₁ s₂ _ _ transfers reacts stalls =>
      have hlive₁ := transfers.after live
      have hlive₂ := reacts.after hlive₁.live
      have healthy₂ := (stalls.after hlive₂.live).healthy healthy
      have conforms₁ : (s.client i).Conforms (s.outAt i) (s₁.client i) := by
        intro message hdelivered
        refine conforms message ?_
        rw [stalls.delivered, reacts.delivered, hdelivered]
      obtain ⟨hkeeps, hfd⟩ := transfers.keeps told linked live conforms₁
        (hlive₂.healthy healthy₂)
      exact stalls.talking (reacts.talking hkeeps (hfd.symm ▸ fd))

/-- A connection is offered a job. -/
theorem Offers.talking {timeoutMs : Int64} (h : Offers timeoutMs i s s')
    (told : s.Told i) (live : s.ctx.Live) (fd : 0 ≤ (s.client i).fd) :
    s'.Talking i := by
  cases h with
  | done => exact .on fd told
  | skipped => exact .on fd told.ticked
  | @refused result output ctx _ clock idle run why =>
      refine .on fd (told.ticked.withCtx ?_)
      rw [(live.acts run).2.refused_jobs why]
      rfl
  | @assigned assignment ctx _ _ clock idle run queues =>
      obtain ⟨-, ⟨worker, hfind, -⟩, -, -, hidle⟩ :=
        Client.assignable_iff.mp idle
      have hout : s.outAt i = none := by
        unfold outAt Scheduler.out
        rw [hidle]
        rfl
      have htalks := told.talks
      rw [hout] at htalks
      refine queues.talking fd ?_ fun hzero => ?_
      · have hgiven : Given ((s.client i).given ++ [assignment.identity])
            (s.client i).heard (some (assignment.identity, false)) :=
          htalks.give
        rw [← (live.acts run).2.out_assigned] at hgiven
        exact hgiven
      · -- nobody with this id is found
        have hzero : (s.client i).workerId = 0 := hzero
        rw [hzero] at hfind
        cases hfind

/-- A turn leaves a connection whose reports are due in order. -/
theorem Coordinator.Turn.talking (h : s.Turn settings s') (told : s.Told i)
    (linked : s.Linked) (live : s.ctx.Live)
    (input : ∀ k, (s.client k).Input False) (fd : 0 ≤ (s.client i).fd)
    (conforms : (s.client i).Conforms (s.outAt i) (s'.client i))
    (healthy : s'.store.failure = .none) : s'.Talking i := by
  -- a turn of another connection
  have hother (hclient : s'.client i = s.client i)
      (spares : (s.client i).workerId ≠ 0 →
        s.Spares (s.client i).workerId s') : s'.Talking i := by
    refine .on (hclient ▸ fd) (told.frame ?_ ?_ ?_ ?_)
    · rw [hclient]
    · rw [hclient]
    · rw [hclient]
    · unfold outAt
      rw [hclient]
      by_cases hzero : (s.client i).workerId = 0
      · rw [hzero, Scheduler.out_zero, Scheduler.out_zero]
      · exact spares hzero
  cases h with
  | same => exact .on fd told
  | tick => exact .on fd told.ticked
  | environment disk => exact .on fd (told.withCtx rfl)
  | @serve k ready _ before clock possible serves =>
      by_cases hik : i = k
      · subst hik
        exact serves.talking told.ticked linked.ticked live fd conforms healthy
      · exact hother (serves.other hik) fun hworker =>
          serves.spares linked.ticked live (input k) possible hik hworker
            healthy
  | @accept k fd nowMs fresh vacant =>
      have hik : i ≠ k := by
        rintro rfl
        omega
      exact hother (client_put_of_ne hik) fun _ => rfl
  | @offer k _ offers =>
      by_cases hik : i = k
      · subst hik
        exact offers.talking told live fd
      · refine hother (offers.other hik) fun hworker =>
          offers.spares live fun hsame => ?_
        exact hik (linked.unique hworker hsame.symm)

end Faultline
