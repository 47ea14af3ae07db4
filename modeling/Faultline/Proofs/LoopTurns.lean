/-
The turns of the event loop, and the states it can reach.

A turn reads or writes one connection, offers a job to one worker or accepts
a connection; each is read off its program once. `Coordinator.Step` takes
turns in any order, with any answers of the operating system that its calls
allow. A pass of `run_coordinator` is a run of such steps, so what holds of
every reachable state holds throughout the program.
-/
import Faultline.Proofs.LoopSteps

namespace Faultline

open Lib Coordinator

variable {s s' : Coordinator} {i j : Fin maxClients} {c : Client}
  {settings : LoopSettings} {nowMs : Int64}

-- ====================================================== reading

/-- Bytes arrive, and a header that is now complete is about to be
checked. -/
def Client.gather (client : Client) (chunk : List UInt8) (nowMs : Int64) :
    Client :=
  if (client.input ++ chunk).length = headerSize then
    (client.receive chunk nowMs).checking
  else client.receive chunk nowMs

/-- The bytes asked for are inspected. -/
inductive Inspects (settings : LoopSettings) (i : Fin maxClients)
    (nowMs : Int64) (s : Coordinator) : Reaction → Coordinator → Prop where
  | need {expected : Nat}
      (inspect : inspectInput (s.client i).role (s.client i).input
        = .need expected) :
      Inspects settings i nowMs s .none (s.put i { s.client i with expected })
  | reject {reason : CloseReason}
      (inspect : inspectInput (s.client i).role (s.client i).input
        = .reject reason) :
      Inspects settings i nowMs s (.close reason) s
  | deliver {message : Message} {reaction : Reaction} {s' : Coordinator}
      (inspect : inspectInput (s.client i).role (s.client i).input
        = .deliver message)
      (handles : Handles settings i nowMs
        (s.put i ((s.client i).deliver message)) message reaction s') :
      Inspects settings i nowMs s reaction s'

theorem Inspects.other {reaction : Reaction}
    (h : Inspects settings i nowMs s reaction s') (hj : j ≠ i) :
    s'.client j = s.client j := by
  cases h with
  | need inspect => exact client_put_of_ne hj
  | reject inspect => rfl
  | deliver inspect handles => rw [handles.other hj, client_put_of_ne hj]

theorem handleInput_done {reaction : Reaction}
    (h : handleInput settings i nowMs s = .done reaction s') :
    Inspects settings i nowMs s reaction s' := by
  rw [handleInput, bind_getClient] at h
  cases hin : inspectInput (s.client i).role (s.client i).input with
  | need expected =>
      simp only [hin, bind_setClient] at h
      obtain ⟨rfl, rfl⟩ := pure_done h
      exact .need hin
  | reject reason =>
      simp only [hin] at h
      obtain ⟨rfl, rfl⟩ := pure_done h
      exact .reject hin
  | deliver message =>
      simp only [hin, bind_setClient] at h
      exact .deliver hin (handleMessage_done h)

/-- One call of `read_message`. -/
inductive Reads (settings : LoopSettings) (i : Fin maxClients)
    (nowMs : Int64) (s : Coordinator) :
    RecvReply → Reaction → Coordinator → Prop where
  | eof : Reads settings i nowMs s .eof
      (.close (if (s.client i).input.isEmpty then .eof
        else .truncatedMessage)) s
  | again : Reads settings i nowMs s .again .none s
  | failed : Reads settings i nowMs s .failed (.close .recvError) s
  | short {chunk : List UInt8}
      (short : ((s.client i).input ++ chunk).length
        < (s.client i).expected) :
      Reads settings i nowMs s (.data chunk) .none
        (s.put i ((s.client i).receive chunk nowMs))
  | complete {chunk : List UInt8} {reaction : Reaction} {s' : Coordinator}
      (full : (s.client i).expected
        ≤ ((s.client i).input ++ chunk).length)
      (inspects : Inspects settings i nowMs
        (s.put i ((s.client i).gather chunk nowMs)) reaction s') :
      Reads settings i nowMs s (.data chunk) reaction s'

theorem Reads.other {reply : RecvReply} {reaction : Reaction}
    (h : Reads settings i nowMs s reply reaction s') (hj : j ≠ i) :
    s'.client j = s.client j := by
  cases h with
  | short short => exact client_put_of_ne hj
  | complete full inspects => rw [inspects.other hj, client_put_of_ne hj]
  | _ => rfl

theorem readMessage_done {reply : RecvReply} {reaction : Reaction}
    (h : readMessage settings i reply nowMs s = .done reaction s') :
    Reads settings i nowMs s reply reaction s' := by
  rw [readMessage, bind_getClient] at h
  cases reply with
  | eof =>
      obtain ⟨rfl, rfl⟩ := pure_done h
      exact .eof
  | again =>
      obtain ⟨rfl, rfl⟩ := pure_done h
      exact .again
  | failed =>
      obtain ⟨rfl, rfl⟩ := pure_done h
      exact .failed
  | data chunk =>
      simp only [bind_setClient] at h
      by_cases hshort :
          ((s.client i).input ++ chunk).length < (s.client i).expected
      · rw [if_pos hshort] at h
        obtain ⟨rfl, rfl⟩ := pure_done h
        exact .short hshort
      rw [if_neg hshort] at h
      refine .complete (Nat.not_lt.mp hshort) (handleInput_done ?_)
      unfold Client.gather
      by_cases hheader : ((s.client i).input ++ chunk).length = headerSize
      · rw [if_pos hheader]
        rw [Prog.when, if_pos (by simpa using hheader), bind_setClient,
          client_put_self, put_put] at h
        exact h
      · rw [if_neg hheader]
        rw [Prog.when, if_neg (by simpa using hheader)] at h
        exact h

-- ====================================================== serving

/-- A read or a write, if the connection is ready for it. -/
inductive Transfers (settings : LoopSettings) (i : Fin maxClients)
    (ready : Readiness) (nowMs : Int64) (s : Coordinator) :
    Reaction → Coordinator → Prop where
  | idle : Transfers settings i ready nowMs s .none s
  | reads {reaction : Reaction} {s' : Coordinator}
      (phase : (s.client i).phase = .readingMessage)
      (reads : Reads settings i nowMs s ready.recv reaction s') :
      Transfers settings i ready nowMs s reaction s'
  | sendFailed {reason : CloseReason}
      (phase : (s.client i).phase = .writingReply)
      (why : reason = .sendError ∨ reason = .sendClosed) :
      Transfers settings i ready nowMs s (.close reason) s
  | sends {count : Nat} (phase : (s.client i).phase = .writingReply)
      (send : ready.send = .taken (count + 1)) :
      Transfers settings i ready nowMs s .none
        (s.put i ((s.client i).advance (count + 1) nowMs))

theorem Transfers.other {ready : Readiness} {reaction : Reaction}
    (h : Transfers settings i ready nowMs s reaction s') (hj : j ≠ i) :
    s'.client j = s.client j := by
  cases h with
  | reads phase reads => exact reads.other hj
  | sends phase send => exact client_put_of_ne hj
  | _ => rfl

theorem transfer_done {ready : Readiness} {reaction : Reaction}
    (h : transfer settings i ready nowMs s = .done reaction s') :
    Transfers settings i ready nowMs s reaction s' := by
  rw [transfer, bind_getClient] at h
  cases hphase : (s.client i).phase with
  | readingMessage =>
      simp only [hphase] at h
      by_cases hready : ready.readable = true
      · rw [if_pos hready] at h
        exact .reads hphase (readMessage_done h)
      · rw [if_neg hready] at h
        obtain ⟨rfl, rfl⟩ := pure_done h
        exact .idle
  | writingReply =>
      simp only [hphase] at h
      by_cases hready : ready.writable = true
      · rw [if_pos hready] at h
        cases hsend : ready.send with
        | again =>
            rw [hsend] at h
            obtain ⟨rfl, rfl⟩ := pure_done h
            exact .idle
        | failed =>
            rw [hsend] at h
            obtain ⟨rfl, rfl⟩ := pure_done h
            exact .sendFailed hphase (Or.inl rfl)
        | taken count =>
            rw [hsend] at h
            cases count with
            | zero =>
                obtain ⟨rfl, rfl⟩ := pure_done h
                exact .sendFailed hphase (Or.inr rfl)
            | succ count =>
                rw [writeReply, bind_setClient] at h
                obtain ⟨rfl, rfl⟩ := pure_done h
                exact .sends hphase hsend
      · rw [if_neg hready] at h
        obtain ⟨rfl, rfl⟩ := pure_done h
        exact .idle

/-- The check for a connection that makes no progress. -/
inductive Stalls (i : Fin maxClients) (nowMs : Int64) (s : Coordinator) :
    Coordinator → Prop where
  | moving (progress : (s.client i).stalled nowMs = false) :
      Stalls i nowMs s s
  | stalled {s' : Coordinator} (stalled : (s.client i).stalled nowMs = true)
      (closes : Closes i .ioTimeout s s') : Stalls i nowMs s s'

/-- One connection's turn. -/
inductive Serves (settings : LoopSettings) (i : Fin maxClients)
    (ready : Readiness) (nowMs : Int64) (s : Coordinator) :
    Coordinator → Prop where
  | vacant (fd : (s.client i).fd < 0) : Serves settings i ready nowMs s s
  | cut {reason : CloseReason} {s' : Coordinator} (fd : 0 ≤ (s.client i).fd)
      (why : reason = .heartbeatTimeout ∨ reason = .invalidDescriptor)
      (closes : Closes i reason s s') : Serves settings i ready nowMs s s'
  | served {reaction : Reaction} {s₁ s₂ s' : Coordinator}
      (fd : 0 ≤ (s.client i).fd)
      (transfers : Transfers settings i ready nowMs s reaction s₁)
      (reacts : Reacts i s₁ reaction s₂) (stalls : Stalls i nowMs s₂ s') :
      Serves settings i ready nowMs s s'

theorem Stalls.other (h : Stalls i nowMs s s') (hj : j ≠ i) :
    s'.client j = s.client j := by
  cases h with
  | moving progress => rfl
  | stalled stalled closes => exact closes.other hj

/-- A turn concerns one connection. -/
theorem Serves.other {ready : Readiness}
    (h : Serves settings i ready nowMs s s') (hj : j ≠ i) :
    s'.client j = s.client j := by
  cases h with
  | vacant fd => rfl
  | cut fd why closes => exact closes.other hj
  | served fd transfers reacts stalls =>
      rw [stalls.other hj, reacts.other hj, transfers.other hj]

theorem closeStalled_done (h : closeStalled i nowMs s = .done () s') :
    Stalls i nowMs s s' := by
  rw [closeStalled, bind_getClient, Prog.when] at h
  by_cases hstalled : (s.client i).stalled nowMs = true
  · rw [if_pos hstalled] at h
    exact .stalled hstalled (closeClient_done h)
  · rw [if_neg hstalled] at h
    obtain ⟨-, rfl⟩ := pure_done h
    exact .moving (Bool.not_eq_true _ ▸ hstalled)

theorem serveClient_done {ready : Readiness}
    (h : serveClient settings i ready nowMs s = .done () s') :
    Serves settings i ready nowMs s s' := by
  rw [serveClient, bind_getClient, bind_getStore] at h
  by_cases hfd : (s.client i).fd < 0
  · rw [if_pos hfd] at h
    obtain ⟨-, rfl⟩ := pure_done h
    exact .vacant hfd
  rw [if_neg hfd] at h
  have hopen : 0 ≤ (s.client i).fd := Int.not_lt.mp hfd
  split at h
  · exact .cut hopen (Or.inl rfl) (closeClient_done h)
  split at h
  · exact .cut hopen (Or.inr rfl) (closeClient_done h)
  obtain ⟨reaction, s₁, htransfer, h⟩ := Prog.bind_done h
  obtain ⟨u, s₂, hreact, h⟩ := Prog.bind_done h
  exact .served hopen (transfer_done htransfer) (Reaction.run_done hreact)
    (closeStalled_done h)

-- =================================================== scheduling

/-- One connection's turn in a scheduling pass. -/
inductive Offers (timeoutMs : Int64) (i : Fin maxClients) (s : Coordinator) :
    Coordinator → Prop where
  | done : Offers timeoutMs i s s
  | skipped : Offers timeoutMs i s s.ticked
  | refused {result : StoreResult} {output : StoreOutput} {ctx : StoreCtx}
      (healthy : s.store.failure = .none) (clock : 0 ≤ s.now)
      (idle : (s.client i).assignable s.store s.now timeoutMs = true)
      (run : (StoreOp.assign (s.client i).workerId s.now).run s.ctx
        = .done (result, output) ctx) (why : result ≠ .ok) :
      Offers timeoutMs i s (s.ticked.withCtx ctx)
  | assigned {assignment : JobAssignPayload} {ctx : StoreCtx}
      {s' : Coordinator} (healthy : s.store.failure = .none)
      (clock : 0 ≤ s.now)
      (idle : (s.client i).assignable s.store s.now timeoutMs = true)
      (run : (StoreOp.assign (s.client i).workerId s.now).run s.ctx
        = .done (.ok, .assignment assignment) ctx)
      (queues : Queues i (.jobAssign assignment) (s.ticked.withCtx ctx) s') :
      Offers timeoutMs i s s'

theorem Offers.other {timeoutMs : Int64} (h : Offers timeoutMs i s s')
    (hj : j ≠ i) : s'.client j = s.client j := by
  cases h with
  | assigned healthy clock idle run queues => rw [queues.other hj]; rfl
  | _ => rfl

theorem scheduleResult_done {status : ExitStatus}
    (h : scheduleResult s = .done status s') : s' = s := by
  rw [scheduleResult, bind_getStore] at h
  exact (pure_done h).2.symm

/-- A scheduling pass gives the first connection its turn, and ends there or
goes on with the others. -/
theorem scheduleFrom_cons {timeoutMs : Int64} {slots : List (Fin maxClients)}
    {status : ExitStatus}
    (h : scheduleFrom timeoutMs (i :: slots) s = .done status s') :
    ∃ s₁, Offers timeoutMs i s s₁
      ∧ (∃ st, scheduleFrom timeoutMs [i] s = .done st s₁)
      ∧ (s' = s₁ ∨ scheduleFrom timeoutMs slots s₁ = .done status s') := by
  rw [scheduleFrom, bind_getStore] at h ⊢
  by_cases hgo : (s.store.jobs.pending.count == 0
      || s.store.failure != .none) = true
  · rw [if_pos hgo] at h ⊢
    exact ⟨s, .done, ⟨_, rfl⟩, Or.inl (scheduleResult_done h)⟩
  rw [if_neg hgo, bind_monotonicMs] at h ⊢
  have hhealthy : s.store.failure = .none := by
    simp only [Bool.or_eq_true, bne_iff_ne, ne_eq, not_or, not_not] at hgo
    exact hgo.2
  by_cases hclock : s.now < 0
  · rw [if_pos hclock] at h ⊢
    exact ⟨s.ticked, .skipped, ⟨_, rfl⟩, Or.inl (pure_done h).2.symm⟩
  rw [if_neg hclock, bind_getClient, client_ticked] at h ⊢
  by_cases hidle : (s.client i).assignable s.store s.now timeoutMs = true
  swap
  · rw [if_neg hidle] at h ⊢
    exact ⟨s.ticked, .skipped, ⟨_, rfl⟩, Or.inr h⟩
  rw [if_pos hidle] at h ⊢
  obtain ⟨⟨result, output⟩, t, hop, h⟩ := Prog.bind_done h
  rw [Prog.bind_run, hop]
  obtain ⟨ctx, hstore, rfl⟩ := onStore_done hop
  have hrun := tagged_done .assignment hstore
  have hnow := Int64.not_lt.mp hclock
  by_cases hok : result = .ok
  · subst hok
    obtain ⟨assignment, rfl⟩ := storeAssign_outputs _ _ hstore
    obtain ⟨u, t, hqueue, h⟩ := Prog.bind_done h
    refine ⟨t, .assigned hhealthy hnow hidle hrun (queueMessage_done hqueue),
      ⟨if t.store.failure == .none then .success else .failure, ?_⟩,
      Or.inr h⟩
    simp only [Prog.bind_run, hqueue]
    rfl
  · refine ⟨_, .refused hhealthy hnow hidle hrun hok, ⟨.failure, ?_⟩,
      Or.inl ?_⟩
    · cases result <;> first | exact absurd rfl hok | rfl
    · cases result <;>
        first | exact absurd rfl hok | exact (pure_done h).2.symm

-- ======================================================== steps

/-- What `recv` can answer to a request for the bytes still expected. -/
def Client.CanReceive (client : Client) : RecvReply → Prop
  | .data chunk =>
      chunk ≠ [] ∧ chunk.length ≤ client.expected - client.input.length
  | _ => True

/-- What `send` can answer when offered the rest of a reply. -/
def Client.CanSend (client : Client) : SendReply → Prop
  | .taken count => count ≤ client.output.length - client.sent
  | _ => True

/-- The answers of the operating system to the call this connection would
make. -/
def Readiness.Possible (ready : Readiness) (client : Client) : Prop :=
  match client.phase with
  | .readingMessage => client.CanReceive ready.recv
  | .writingReply => client.CanSend ready.send

/-- A descriptor that is not in use. -/
def Coordinator.FreshFd (s : Coordinator) (fd : Int) : Prop :=
  0 ≤ fd ∧ ∀ j, (s.client j).fd ≠ fd

/-- One event of the loop. The machine under the log may change between two
events, its disk may not. -/
inductive Coordinator.Step (settings : LoopSettings) (s : Coordinator) :
    Coordinator → Prop where
  | tick : Step settings s s.ticked
  | environment {m : Machine} (disk : m.disk = s.ctx.machine.disk) :
      Step settings s (s.withCtx ⟨s.store, m⟩)
  | serve {i : Fin maxClients} {ready : Readiness} {s' : Coordinator}
      (healthy : s.store.failure = .none) (clock : 0 ≤ s.now)
      (possible : ready.Possible (s.client i))
      (run : serveClient settings i ready s.now s.ticked = .done () s') :
      Step settings s s'
  | accept {fd : Int} {nonblocking : Bool} {nowMs : Int64}
      {s' : Coordinator} (fresh : s.FreshFd fd)
      (run : acceptClient fd nonblocking nowMs s = .done () s') :
      Step settings s s'
  | offer {i : Fin maxClients} {status : ExitStatus} {s' : Coordinator}
      (run : scheduleFrom settings.timeoutMs [i] s = .done status s') :
      Step settings s s'

/-- The loop's first state: no connections, on a store just opened. -/
def Coordinator.start (ctx : StoreCtx) (clock : Nat → Int64) : Coordinator :=
  { clients := Vector.replicate maxClients Client.vacant, ctx, clock,
    ticks := 2 }

@[simp] theorem Coordinator.client_start {ctx : StoreCtx}
    {clock : Nat → Int64} :
    (Coordinator.start ctx clock).client i = Client.vacant :=
  Vector.getElem_replicate i.isLt

/-- The states the loop can be in, after a successful open and the start of
the statistics. -/
inductive Coordinator.Reachable (settings : LoopSettings) :
    Coordinator → Prop where
  | start {initializing : Bool} {m : Machine} {ctx : StoreCtx}
      {clock : Nat → Int64}
      (opened : storeOpen initializing (clock 0) ⟨storeInit, m⟩
        = .done .ok ctx)
      (session : statsBegin ctx.store (clock 1) = some settings.session) :
      Reachable settings (Coordinator.start ctx clock)
  | step {s s' : Coordinator} (before : Reachable settings s)
      (step : s.Step settings s') : Reachable settings s'

-- ======================================================= passes

/-- A step, by what it does. -/
inductive Coordinator.Turn (settings : LoopSettings) (s : Coordinator) :
    Coordinator → Prop where
  | same : Turn settings s s
  | tick : Turn settings s s.ticked
  | environment {m : Machine} (disk : m.disk = s.ctx.machine.disk) :
      Turn settings s (s.withCtx ⟨s.store, m⟩)
  | serve {i : Fin maxClients} {ready : Readiness} {s' : Coordinator}
      (healthy : s.store.failure = .none) (clock : 0 ≤ s.now)
      (possible : ready.Possible (s.client i))
      (serves : Serves settings i ready s.now s.ticked s') :
      Turn settings s s'
  | accept {i : Fin maxClients} {fd : Int} {nowMs : Int64}
      (fresh : s.FreshFd fd) (vacant : (s.client i).fd < 0) :
      Turn settings s (s.put i (Client.accepted fd nowMs))
  | offer {i : Fin maxClients} {s' : Coordinator}
      (offers : Offers settings.timeoutMs i s s') : Turn settings s s'

/-- A connection is put into a free entry, or dropped. -/
theorem acceptClient_done {fd : Int} {nonblocking : Bool}
    (h : acceptClient fd nonblocking nowMs s = .done () s') :
    s' = s ∨ ∃ i, (s.client i).fd < 0
      ∧ s' = s.put i (Client.accepted fd nowMs) := by
  unfold acceptClient at h
  cases hslot : s.vacantSlot with
  | none =>
      simp only [hslot] at h
      cases h
      exact Or.inl rfl
  | some i =>
      have hvacant : (s.client i).fd < 0 := by
        have hfound := List.find?_some hslot
        simpa using hfound
      simp only [hslot] at h
      cases nonblocking <;> cases h
      · exact Or.inl rfl
      · exact Or.inr ⟨i, hvacant, rfl⟩

theorem Coordinator.Step.turn (h : s.Step settings s') :
    s.Turn settings s' := by
  cases h with
  | tick => exact .tick
  | environment disk => exact .environment disk
  | serve healthy clock possible run =>
      exact .serve healthy clock possible (serveClient_done run)
  | accept fresh run =>
      rcases acceptClient_done run with rfl | ⟨i, vacant, rfl⟩
      · exact .same
      · exact .accept fresh vacant
  | offer run =>
      obtain ⟨s₁, offers, -, rfl | hrest⟩ := scheduleFrom_cons run
      · exact .offer offers
      · rw [scheduleResult_done hrest]
        exact .offer offers

/-- Steps, one after the other. -/
abbrev Coordinator.Run (settings : LoopSettings) :
    Coordinator → Coordinator → Prop :=
  Relation.ReflTransGen (Coordinator.Step settings)

theorem Coordinator.Reachable.run (h : s.Reachable settings)
    (run : s.Run settings s') : s'.Reachable settings := by
  induction run with
  | refl => exact h
  | tail _ step ih => exact ih.step step

theorem scheduleFrom_run {slots : List (Fin maxClients)} {status : ExitStatus}
    (h : scheduleFrom settings.timeoutMs slots s = .done status s') :
    s.Run settings s' := by
  induction slots generalizing s with
  | nil =>
      rw [scheduleResult_done h]
  | cons i slots ih =>
      obtain ⟨s₁, -, ⟨st, hone⟩, rfl | hrest⟩ := scheduleFrom_cons h
      · exact .single (.offer hone)
      · exact .head (.offer hone) (ih hrest)

/-- Every connection is offered what it can be. -/
theorem serveClients_run {ready : Fin maxClients → Readiness}
    {slots : List (Fin maxClients)} {last : Option Int64}
    (distinct : slots.Nodup)
    (possible : ∀ i ∈ slots, (ready i).Possible (s.client i))
    (h : serveClients settings ready nowMs slots s = .done last s') :
    s.Run settings s' := by
  induction slots generalizing s nowMs with
  | nil =>
      rw [(pure_done h).2]
  | cons i slots ih =>
      rw [serveClients, bind_getStore] at h
      by_cases hlatched : (s.store.failure != .none) = true
      · rw [if_pos hlatched] at h
        rw [(pure_done h).2]
      rw [if_neg hlatched, bind_monotonicMs] at h
      by_cases hclock : s.now < 0
      · rw [if_pos hclock] at h
        rw [← (pure_done h).2]
        exact .single .tick
      rw [if_neg hclock] at h
      obtain ⟨u, s₁, hserve, h⟩ := Prog.bind_done h
      have hstep : s.Step settings s₁ :=
        .serve (by simpa using hlatched) (Int64.not_lt.mp hclock)
          (possible i (by simp)) hserve
      rw [List.nodup_cons] at distinct
      refine .head hstep (ih distinct.2 (fun j hj => ?_) h)
      have hne : j ≠ i := fun he => distinct.1 (he ▸ hj)
      rw [(serveClient_done hserve).other hne]
      exact possible j (List.mem_cons_of_mem _ hj)

/-- The descriptors a batch of accepts is given are not in use. -/
def AcceptsFresh (nowMs : Int64) : List AcceptReply → Coordinator → Prop
  | .connection fd nonblocking :: replies, s =>
      s.FreshFd fd ∧ ∀ s', acceptClient fd nonblocking nowMs s = .done () s' →
        AcceptsFresh nowMs replies s'
  | .interrupted :: replies, s => AcceptsFresh nowMs replies s
  | _, _ => True

theorem acceptClients_run {replies : List AcceptReply}
    (fresh : AcceptsFresh nowMs replies s)
    (h : acceptClients nowMs replies s = .done () s') :
    s.Run settings s' := by
  induction replies generalizing s with
  | nil =>
      rw [(pure_done h).2]
  | cons reply replies ih =>
      cases reply with
      | interrupted => exact ih fresh h
      | failed =>
          rw [(pure_done h).2]
      | connection fd nonblocking =>
          obtain ⟨u, s₁, haccept, h⟩ := Prog.bind_done h
          exact .head (.accept fresh.1 haccept) (ih (fresh.2 s₁ haccept) h)

/-- What the operating system may answer during a pass. -/
structure PassInput.Possible (settings : LoopSettings) (input : PassInput)
    (s : Coordinator) : Prop where
  ready : ∀ i, (input.ready i).Possible (s.client i)
  fresh : ∀ {nowMs last : Int64} {s₁ : Coordinator},
    serveClients settings input.ready nowMs
      ((List.finRange maxClients).take input.served) s.ticked.ticked
        = .done (some last) s₁ →
    AcceptsFresh last (input.accepts.take maxClients) s₁

/-- The end of a pass is a run. -/
theorem finishPass_run {input : PassInput} {status : Option ExitStatus}
    (fresh : AcceptsFresh nowMs (input.accepts.take maxClients) s)
    (h : finishPass settings input nowMs s = .done status s') :
    s.Run settings s' := by
  obtain ⟨u, s₁, haccept, h⟩ := Prog.bind_done h
  have hfirst : s.Run settings s₁ := by
    rw [Prog.when] at haccept
    split at haccept
    · exact acceptClients_run fresh haccept
    · rw [(pure_done haccept).2]
  refine hfirst.trans ?_
  split at h
  · rw [(pure_done h).2]
  rw [bind_monotonicMs] at h
  refine .head .tick ?_
  split at h
  · rw [(pure_done h).2]
  obtain ⟨result, s₂, hschedule, h⟩ := Prog.bind_done h
  have hlast : s₂ = s' := by
    cases result <;> exact (pure_done h).2
  rw [← hlast]
  exact scheduleFrom_run hschedule

/-- A pass of the loop is a run of steps. -/
theorem coordinatorPass_run {input : PassInput} {status : Option ExitStatus}
    (possible : input.Possible settings s)
    (h : coordinatorPass settings input s = .done status s') :
    s.Run settings s' := by
  rw [coordinatorPass, bind_monotonicMs] at h
  refine .head .tick ?_
  split at h
  · rw [(pure_done h).2]
  cases hpoll : input.poll with
  | interrupted =>
      simp only [hpoll] at h
      rw [(pure_done h).2]
  | failed =>
      simp only [hpoll] at h
      rw [(pure_done h).2]
  | ready =>
      simp only [hpoll, bind_monotonicMs] at h
      refine .head .tick ?_
      split at h
      · rw [(pure_done h).2]
      obtain ⟨last, s₁, hserve, h⟩ := Prog.bind_done h
      have hready : ∀ i ∈ (List.finRange maxClients).take input.served,
          (input.ready i).Possible (s.ticked.ticked.client i) :=
        fun i _ => possible.ready i
      refine (serveClients_run
        ((List.nodup_finRange _).sublist (List.take_sublist _ _))
        hready hserve).trans ?_
      cases last with
      | none =>
          rw [(pure_done h).2]
      | some now =>
          simp only [bind_getStore] at h
          split at h
          · rw [(pure_done h).2]
          split at h
          · rw [(pure_done h).2]
          exact finishPass_run (possible.fresh hserve) h

end Faultline
