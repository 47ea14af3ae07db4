/-
One connection, on its own.

`Client.Move` is what the loop can do to a single connection: bytes arrive
and are judged, a message is answered, reply bytes leave, the connection is
closed or given to a new peer. A turn of the loop is at most one move of one
connection, followed perhaps by a close (`Turn.client`), so what every move
preserves holds of every connection of every reachable state.
-/
import Faultline.Proofs.LoopLive

namespace Faultline

open Lib Coordinator

variable {s s₁ s' : Coordinator} {i : Fin maxClients} {c c' : Client}
  {settings : LoopSettings} {nowMs : Int64} {latched : Prop}
  {message : Message} {reaction : Reaction} {reason : CloseReason}

/-- The reasons that lie in the bytes received. -/
def CloseReason.framing : CloseReason → Bool
  | .invalidHeader | .unexpectedMessage | .unsupportedPayload
  | .invalidMessage => true
  | _ => false

/-- Bytes are refused for what they are. -/
theorem inspectInput_reject {role : Role} {input : List UInt8}
    (h : inspectInput role input = .reject reason) :
    reason.framing = true := by
  have hdecode (h : decodeInput input = .reject reason) :
      reason.framing = true := by
    unfold decodeInput at h
    split at h
    · split at h
      · cases h
        rfl
      · split at h <;> cases h
        rfl
    · cases h
      rfl
    · cases h
  unfold inspectInput at h
  split at h
  · split at h
    · cases h
      rfl
    · split at h
      · cases h
        rfl
      · exact hdecode h
  · exact hdecode h

/-- The same connection in another role. -/
def Client.withRole (c : Client) (workerId : UInt32) (jobClient : Bool) :
    Client :=
  { c with workerId, jobClient }

/-- A message is put into the output buffer, or the connection is closed. -/
inductive Client.Starts (message : Message) (c : Client) : Client → Prop where
  | unencodable {e : ProtocolError}
      (encode : encodeOutput message = .error e) :
      Starts message c ((c.queueing message).closed .encodeError)
  | clockFailed {output : List UInt8}
      (encode : encodeOutput message = .ok output) :
      Starts message c
        (Client.closed { c.queueing message with output } .clockError)
  | started {output : List UInt8} {nowMs : Int64}
      (encode : encodeOutput message = .ok output) :
      Starts message c
        (Client.startReply { c.queueing message with output } nowMs)

/-- What becomes of a connection whose message was handled. Only a store
that has latched a failure leaves it without an answer. -/
inductive Client.Answers (latched : Prop) (message : Message) (c : Client) :
    Client → Prop where
  | stuck (why : latched) : Answers latched message c c
  | resets : Answers latched message c c.resetInput
  | closes {reason : CloseReason}
      (why : reason.framing = true → message.expected = false) :
      Answers latched message c (c.closed reason)
  | replies {reply : Message} {c' : Client}
      (kind : ∀ assignment, reply ≠ .jobAssign assignment)
      (starts : c.Starts reply c') : Answers latched message c c'

/-- The bytes a reading connection is given, as many as it asked for. -/
structure Client.Gathers (c : Client) (chunk : List UInt8) : Prop where
  fd : 0 ≤ c.fd
  phase : c.phase = .readingMessage
  nonempty : chunk ≠ []
  bounded : chunk.length ≤ c.expected - c.input.length

/-- One event of a connection. -/
inductive Client.Move (latched : Prop) (c : Client) : Client → Prop where
  | accepted {fd : Int} {nowMs : Int64} (vacant : c.fd < 0)
      (fresh : 0 ≤ fd) : Move latched c (Client.accepted fd nowMs)
  | short {chunk : List UInt8} {nowMs : Int64} (gathers : c.Gathers chunk)
      (short : (c.input ++ chunk).length < c.expected) :
      Move latched c (c.receive chunk nowMs)
  | asks {chunk : List UInt8} {nowMs : Int64} {expected : Nat}
      (gathers : c.Gathers chunk)
      (full : c.expected ≤ (c.input ++ chunk).length)
      (inspect : inspectInput c.role (c.input ++ chunk) = .need expected) :
      Move latched c { c.gather chunk nowMs with expected }
  | refuses {chunk : List UInt8} {nowMs : Int64} {reason : CloseReason}
      (gathers : c.Gathers chunk)
      (full : c.expected ≤ (c.input ++ chunk).length)
      (inspect : inspectInput c.role (c.input ++ chunk) = .reject reason) :
      Move latched c ((c.gather chunk nowMs).closed reason)
  | delivers {chunk : List UInt8} {nowMs : Int64} {message : Message}
      {workerId : UInt32} {jobClient : Bool} {c' : Client}
      (gathers : c.Gathers chunk)
      (full : c.expected ≤ (c.input ++ chunk).length)
      (inspect : inspectInput c.role (c.input ++ chunk) = .deliver message)
      (answers : Client.Answers latched message
        (((c.gather chunk nowMs).deliver message).withRole workerId
          jobClient) c') : Move latched c c'
  | sends {count : Nat} {nowMs : Int64} (fd : 0 ≤ c.fd)
      (phase : c.phase = .writingReply)
      (bounded : count + 1 ≤ c.output.length - c.sent) :
      Move latched c (c.advance (count + 1) nowMs)
  | closes {reason : CloseReason} (fd : 0 ≤ c.fd)
      (why : reason.framing = false) : Move latched c (c.closed reason)
  | assigns {assignment : JobAssignPayload} {c' : Client} (fd : 0 ≤ c.fd)
      (phase : c.phase = .readingMessage) (idle : c.input = [])
      (starts : c.Starts (.jobAssign assignment) c') : Move latched c c'

theorem Client.Answers.mono {latched' : Prop} (h : c.Answers latched message c')
    (himp : latched → latched') : c.Answers latched' message c' := by
  cases h with
  | stuck why => exact .stuck (himp why)
  | resets => exact .resets
  | closes why => exact .closes why
  | replies kind starts => exact .replies kind starts

theorem Client.Move.mono {latched' : Prop} (h : c.Move latched c')
    (himp : latched → latched') : c.Move latched' c' := by
  cases h with
  | accepted vacant fresh => exact .accepted vacant fresh
  | short gathers short => exact .short gathers short
  | asks gathers full inspect => exact .asks gathers full inspect
  | refuses gathers full inspect => exact .refuses gathers full inspect
  | delivers gathers full inspect answers =>
      exact .delivers gathers full inspect (answers.mono himp)
  | sends fd phase bounded => exact .sends fd phase bounded
  | closes fd why => exact .closes fd why
  | assigns fd phase idle starts => exact .assigns fd phase idle starts

-- ========================================== what the loop does

@[simp] theorem Client.gather_input {chunk : List UInt8} :
    (c.gather chunk nowMs).input = c.input ++ chunk := by
  unfold Client.gather
  split <;> rfl

@[simp] theorem Client.gather_role {chunk : List UInt8} :
    (c.gather chunk nowMs).role = c.role := by
  unfold Client.gather
  split <;> rfl

theorem Closes.result (h : Closes i reason s s') :
    s'.client i = (s.client i).closed reason := by
  cases h <;> exact client_put_self

theorem Queues.result (h : Queues i message s s') :
    (s.client i).Starts message (s'.client i) := by
  cases h with
  | unencodable encode close =>
      rw [close.result, client_put_self]
      exact .unencodable encode
  | clockFailed encode clock close =>
      rw [close.result, client_put_self]
      exact .clockFailed encode
  | queued encode clock =>
      rw [client_put_self]
      exact .started encode

/-- Handling a message changes nothing of its connection but the role. -/
theorem Handles.result
    (h : Handles settings i nowMs s message reaction s') :
    ∃ workerId jobClient,
      s'.client i = (s.client i).withRole workerId jobClient := by
  cases h with
  | status => exact ⟨_, true, client_put_self⟩
  | jobs clock => exact ⟨_, true, client_put_self⟩
  | workers clock listed => exact ⟨_, true, client_put_self⟩
  | workersFailed clock listed => exact ⟨_, true, client_put_self⟩
  | stats taken => exact ⟨_, true, client_put_self⟩
  | statsFailed taken => exact ⟨_, true, client_put_self⟩
  | submitted role run => exact ⟨_, true, client_put_self⟩
  | registered role run => exact ⟨_, _, client_put_self⟩
  | _ => exact ⟨_, _, rfl⟩

/-- What a message's handler leaves to do. -/
theorem Handles.reaction_cases
    (h : Handles settings i nowMs s message reaction s')
    (live : s.ctx.Live) :
    (reaction = .none → s'.store.failure ≠ .none)
      ∧ (∀ reason, reaction = .close reason → reason.framing = true →
        message.expected = false)
      ∧ ∀ reply, reaction = .reply reply →
        ∀ assignment, reply ≠ .jobAssign assignment := by
  cases h with
  | fatal asks run => exact ⟨fun _ => (live.acts run).2.latched, nofun, nofun⟩
  | refused asks run why =>
      refine ⟨nofun, fun reason hr hframing => ?_, nofun⟩
      cases hr
      cases message <;> cases asks <;> cases hframing
  | unexpected type => exact ⟨nofun, fun _ _ _ => type, nofun⟩
  | status =>
      refine ⟨nofun, nofun, fun reply hr assignment => ?_⟩
      cases hr
      unfold statusReply
      split <;> exact nofun
  | _ =>
      refine ⟨nofun, fun reason hr hframing => ?_, fun reply hr => ?_⟩
      · cases hr <;> cases hframing
      · cases hr <;> exact nofun

/-- A handled message is answered. -/
theorem Handles.answers
    (h : Handles settings i nowMs s message reaction s₁)
    (live : s.ctx.Live) (reacts : Reacts i s₁ reaction s') :
    Client.Answers (s'.store.failure ≠ .none) message (s₁.client i)
      (s'.client i) := by
  obtain ⟨hstuck, hclose, hreply⟩ := h.reaction_cases live
  cases reacts with
  | none => exact .stuck (hstuck rfl)
  | close closes =>
      rw [closes.result]
      exact .closes (hclose _ rfl)
  | reply queues => exact .replies (hreply _ rfl) queues.result
  | resetInput =>
      rw [client_put_self]
      exact .resets

/-- A read and its reaction move the connection, or leave it alone. -/
theorem Reads.move (live : s.ctx.Live) (fd : 0 ≤ (s.client i).fd)
    (phase : (s.client i).phase = .readingMessage) {reply : RecvReply}
    (possible : (s.client i).CanReceive reply)
    (h : Reads settings i nowMs s reply reaction s₁)
    (reacts : Reacts i s₁ reaction s') :
    s'.client i = s.client i
      ∨ Client.Move (s'.store.failure ≠ .none) (s.client i)
        (s'.client i) := by
  cases h with
  | again =>
      cases reacts
      exact Or.inl rfl
  | failed =>
      cases reacts with
      | close closes =>
          rw [closes.result]
          exact Or.inr (.closes fd rfl)
  | eof =>
      cases reacts with
      | close closes =>
          rw [closes.result]
          refine Or.inr (.closes fd ?_)
          split <;> rfl
  | @short chunk short =>
      cases reacts
      rw [client_put_self]
      exact Or.inr (.short ⟨fd, phase, possible.1, possible.2⟩ short)
  | @complete chunk _ _ full inspects =>
      have gathers : (s.client i).Gathers chunk :=
        ⟨fd, phase, possible.1, possible.2⟩
      refine Or.inr ?_
      cases inspects with
      | need inspect =>
          rw [client_put_self, Client.gather_role, Client.gather_input]
            at inspect
          cases reacts
          rw [client_put_self, client_put_self]
          exact .asks gathers full inspect
      | reject inspect =>
          rw [client_put_self, Client.gather_role, Client.gather_input]
            at inspect
          cases reacts with
          | close closes =>
              rw [closes.result, client_put_self]
              exact .refuses gathers full inspect
      | deliver inspect handles =>
          rw [client_put_self, Client.gather_role, Client.gather_input]
            at inspect
          have answers := handles.answers live reacts
          obtain ⟨workerId, jobClient, hrole⟩ := handles.result
          rw [hrole, client_put_self, client_put_self] at answers
          exact .delivers gathers full inspect answers

theorem Transfers.move (live : s.ctx.Live) (fd : 0 ≤ (s.client i).fd)
    {ready : Readiness} (possible : ready.Possible (s.client i))
    (h : Transfers settings i ready nowMs s reaction s₁)
    (reacts : Reacts i s₁ reaction s') :
    s'.client i = s.client i
      ∨ Client.Move (s'.store.failure ≠ .none) (s.client i)
        (s'.client i) := by
  cases h with
  | idle =>
      cases reacts
      exact Or.inl rfl
  | reads phase reads =>
      have hreceive : (s.client i).CanReceive ready.recv := by
        simpa only [Readiness.Possible, phase] using possible
      exact reads.move live fd phase hreceive reacts
  | sendFailed phase why =>
      cases reacts with
      | close closes =>
          rw [closes.result]
          refine Or.inr (.closes fd ?_)
          rcases why with rfl | rfl <;> rfl
  | sends phase send =>
      have hsend : (s.client i).CanSend ready.send := by
        simpa only [Readiness.Possible, phase] using possible
      rw [send] at hsend
      cases reacts
      rw [client_put_self]
      exact Or.inr (.sends fd phase hsend)

/-- A turn of the loop, as one of its connections sees it: at most one move
of its own, and perhaps a close. -/
inductive Client.Turn (latched : Prop) (c : Client) : Client → Prop where
  | same : Turn latched c c
  | move {c' : Client} (move : c.Move latched c') : Turn latched c c'
  | moveClose {c' : Client} {reason : CloseReason} (move : c.Move latched c')
      (fd : 0 ≤ c'.fd) (why : reason.framing = false) :
      Turn latched c (c'.closed reason)

/-- A stalled connection is open. -/
theorem Client.stalled_fd (h : c.stalled nowMs = true) : 0 ≤ c.fd := by
  simp only [Client.stalled, Bool.and_eq_true, decide_eq_true_eq] at h
  exact h.1.1

/-- A connection's own turn. -/
theorem Serves.turn {ready : Readiness}
    (h : Serves settings i ready nowMs s s') (live : s.ctx.Live)
    (possible : ready.Possible (s.client i)) :
    Client.Turn (s'.store.failure ≠ .none) (s.client i) (s'.client i) := by
  cases h with
  | vacant fd => exact .same
  | cut fd why closes =>
      rw [closes.result]
      refine .move (.closes fd ?_)
      rcases why with rfl | rfl <;> rfl
  | @served _ s₁ s₂ _ fd transfers reacts stalls =>
      have hmove := transfers.move live fd possible reacts
      cases stalls with
      | moving progress =>
          rcases hmove with hsame | hmove
          · rw [hsame]
            exact .same
          · exact .move hmove
      | stalled stalled closes =>
          have hfd := Client.stalled_fd stalled
          have hlive₁ := (transfers.after live).live
          have hlatch := (closes.after (reacts.after hlive₁).live).healthy
          rw [closes.result]
          rcases hmove with hsame | hmove
          · rw [hsame]
            exact .move (.closes fd rfl)
          · exact .moveClose (hmove.mono fun hne hnone => hne (hlatch hnone))
              hfd rfl

/-- What a connection that can be given a job looks like. -/
theorem Client.assignable_iff {store : CoordinatorStore}
    {timeoutMs : Int64} :
    c.assignable store nowMs timeoutMs = true ↔
      0 ≤ c.fd
        ∧ (∃ worker, workerFind store.workers c.workerId = some worker
          ∧ worker.state = .alive ∧ worker.fd = c.fd
          ∧ workerTimedOut worker nowMs timeoutMs = false)
        ∧ c.phase = .readingMessage ∧ c.input = []
        ∧ schedulerActive store.jobs c.workerId = none := by
  unfold Client.assignable
  cases workerFind store.workers c.workerId <;> simp [and_assoc]

theorem Offers.turn {timeoutMs : Int64} (h : Offers timeoutMs i s s') :
    Client.Turn (s'.store.failure ≠ .none) (s.client i) (s'.client i) := by
  cases h with
  | done => exact .same
  | skipped => exact .same
  | refused healthy clock idle run why => exact .same
  | assigned healthy clock idle run queues =>
      obtain ⟨fd, -, phase, input, -⟩ := Client.assignable_iff.mp idle
      exact .move (.assigns fd phase input queues.result)

/-- A step of the loop is a turn of every connection. -/
theorem Coordinator.Turn.client (h : s.Turn settings s')
    (live : s.ctx.Live) (i : Fin maxClients) :
    Client.Turn (s'.store.failure ≠ .none) (s.client i) (s'.client i) := by
  cases h with
  | same => exact .same
  | tick => exact .same
  | environment disk => exact .same
  | @serve k ready _ healthy clock possible serves =>
      by_cases hik : i = k
      · subst hik
        exact serves.turn live possible
      · rw [serves.other hik]
        exact .same
  | @accept k fd nowMs fresh vacant =>
      by_cases hik : i = k
      · subst hik
        rw [client_put_self]
        exact .move (.accepted vacant fresh.1)
      · rw [client_put_of_ne hik]
        exact .same
  | @offer k _ offers =>
      by_cases hik : i = k
      · subst hik
        exact offers.turn
      · rw [offers.other hik]
        exact .same

-- ================================================== descriptors

theorem Client.closed_fd : (c.closed reason).fd < 0 := Int.negSucc_lt_zero 0

theorem Client.Starts.fd (h : c.Starts message c') :
    c'.fd = c.fd ∨ c'.fd < 0 := by
  cases h with
  | started encode => exact Or.inl rfl
  | _ => exact Or.inr Client.closed_fd

/-- An open connection keeps its descriptor until it is closed. -/
theorem Client.Move.fd (h : c.Move latched c') (hopen : 0 ≤ c.fd) :
    c'.fd = c.fd ∨ c'.fd < 0 := by
  have hgather {chunk : List UInt8} {nowMs : Int64} :
      (c.gather chunk nowMs).fd = c.fd := by
    unfold Client.gather
    split <;> rfl
  cases h with
  | accepted vacant fresh => omega
  | short gathers short => exact Or.inl rfl
  | asks gathers full inspect => exact Or.inl hgather
  | refuses gathers full inspect => exact Or.inr Client.closed_fd
  | delivers gathers full inspect answers =>
      cases answers with
      | stuck why => exact Or.inl hgather
      | resets => exact Or.inl hgather
      | closes why => exact Or.inr Client.closed_fd
      | replies kind starts =>
          exact starts.fd.imp_left fun hfd => hfd.trans hgather
  | sends fd phase bounded =>
      unfold Client.advance
      dsimp only
      split <;> exact Or.inl rfl
  | closes fd why => exact Or.inr Client.closed_fd
  | assigns fd phase idle starts => exact starts.fd

theorem Client.Turn.fd (h : c.Turn latched c') (hopen : 0 ≤ c.fd) :
    c'.fd = c.fd ∨ c'.fd < 0 := by
  cases h with
  | same => exact Or.inl rfl
  | move move => exact move.fd hopen
  | moveClose move fd why => exact Or.inr Client.closed_fd

/-- Open connections have different descriptors. -/
def Coordinator.DistinctFds (s : Coordinator) : Prop :=
  ∀ i j, 0 ≤ (s.client i).fd → (s.client i).fd = (s.client j).fd → i = j

/-- Descriptors that stay or are closed stay different. -/
theorem Coordinator.DistinctFds.of_kept (h : s.DistinctFds)
    (hkept : ∀ i, (s'.client i).fd = (s.client i).fd ∨ (s'.client i).fd < 0) :
    s'.DistinctFds := by
  intro i j hopen hsame
  rcases hkept i with hi | hi
  · rcases hkept j with hj | hj
    · exact h i j (hi ▸ hopen) (by rw [← hi, ← hj, hsame])
    · omega
  · omega

theorem Coordinator.Turn.distinctFds (h : s.Turn settings s')
    (live : s.ctx.Live) (hs : s.DistinctFds) : s'.DistinctFds := by
  have hclient := fun i => h.client live i
  cases h with
  | @accept k fd nowMs fresh vacant =>
      intro i j hopen hsame
      have hother {j : Fin maxClients} (hj : j ≠ k) :
          ((s.put k (Client.accepted fd nowMs)).client j).fd
            = (s.client j).fd := by
        rw [client_put_of_ne hj]
      have hself : ((s.put k (Client.accepted fd nowMs)).client k).fd = fd := by
        rw [client_put_self]
        rfl
      by_cases hi : i = k <;> by_cases hj : j = k
      · rw [hi, hj]
      · rw [hi, hself, hother hj] at hsame
        exact absurd hsame.symm (fresh.2 j)
      · rw [hj, hself, hother hi] at hsame
        exact absurd hsame (fresh.2 i)
      · rw [hother hi] at hopen hsame
        rw [hother hj] at hsame
        exact hs i j hopen hsame
  | @serve k ready _ healthy clock possible serves =>
      refine hs.of_kept fun i => ?_
      by_cases hopen : 0 ≤ (s.client i).fd
      · exact (hclient i).fd hopen
      -- A free entry is left alone.
      by_cases hik : i = k
      · subst hik
        cases serves with
        | vacant fd => exact Or.inl rfl
        | cut fd => exact absurd fd hopen
        | served fd => exact absurd fd hopen
      · rw [serves.other hik]
        exact Or.inl rfl
  | @offer k _ offers =>
      refine hs.of_kept fun i => ?_
      by_cases hopen : 0 ≤ (s.client i).fd
      · exact (hclient i).fd hopen
      by_cases hik : i = k
      · subst hik
        cases offers with
        | assigned healthy clock idle run queues =>
            exact absurd (Client.assignable_iff.mp idle).1 hopen
        | _ => exact Or.inl rfl
      · rw [offers.other hik]
        exact Or.inl rfl
  | _ => exact hs

theorem Coordinator.Reachable.distinctFds (h : s.Reachable settings) :
    s.DistinctFds := by
  induction h with
  | start opened session =>
      intro i j hopen
      rw [client_start] at hopen
      exact absurd hopen (by decide)
  | step before step ih => exact step.turn.distinctFds before.live ih

end Faultline
