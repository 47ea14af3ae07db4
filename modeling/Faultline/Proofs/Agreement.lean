/-
The coordinator and its workers agree on who has which job.

A network is a coordinator and any number of worker processes, each on a
connection of its own. The channels of a connection are first in, first out
and lose nothing, so they are the difference between what one end has sent and
what the other has received. Each side keeps its own books
(`Coordinator.Told`, `WorkerProcess.Reporting`); joined by the channels they
are one exchange (`Party.Joined.place`), in every state of every run
(`Network.Reachable.good`).
-/
import Faultline.Proofs.AssignmentTalk

namespace Faultline

open Lib Coordinator

-- ================================================== the network

/-- The coordinator's end of a connection: an entry of its table, or what was
left in the entry when it was closed. -/
inductive Link where
  | active (i : Fin maxClients)
  | closed (client : Client)

def Link.client (s : Coordinator) : Link → Client
  | .active i => s.client i
  | .closed client => client

/-- The coordinator has moved, and may have closed its end. -/
def Link.after (s : Coordinator) : Link → Link
  | .active i =>
      if (s.client i).fd < 0 then .closed (s.client i) else .active i
  | .closed client => .closed client

/-- A worker process, how it has ended, and its connection. -/
structure Party where
  process : WorkerProcess
  status : Option ExitStatus
  link : Link

/-- The coordinator's end. -/
def Party.client (p : Party) (s : Coordinator) : Client := p.link.client s

/-- The messages sent by the worker that the coordinator has not handled. -/
def Party.unheard (p : Party) (s : Coordinator) : List Message :=
  p.process.history.sent.drop (p.client s).history.delivered.length

def Party.after (s : Coordinator) (p : Party) : Party :=
  { p with link := p.link.after s }

/-- A new worker whose connection was just accepted. -/
def Party.Joins (s s' : Coordinator) (p : Party) : Prop :=
  ∃ i intervalMs clock, (s.client i).fd < 0 ∧ 0 ≤ (s'.client i).fd
    ∧ p = ⟨.start intervalMs clock, none, .active i⟩

structure Network where
  coordinator : Coordinator
  parties : List Party

/-- The coordinator makes a step, in which perhaps a worker joins, or one of
the workers does. Whoever receives, receives what the other end has sent. -/
inductive Network.Step (settings : LoopSettings) (n : Network) :
    Network → Prop where
  | coordinator {s' : Coordinator} {joining : Option Party}
      (step : n.coordinator.Step settings s')
      (fifo : ∀ p ∈ n.parties,
        (p.client s').history.arrived <+: p.process.history.handed)
      (joins : ∀ p ∈ joining, p.Joins n.coordinator s') :
      Step settings n ⟨s', n.parties.map (Party.after s') ++ joining.toList⟩
  | worker {before after : List Party} {p : Party}
      {status : Option ExitStatus} {w' : WorkerProcess}
      (parties : n.parties = before ++ p :: after)
      (running : p.status = none) (step : p.process.Step status w')
      (fifo : w'.history.received
        <+: (p.client n.coordinator).history.handed) :
      Step settings n ⟨n.coordinator,
        before ++ { p with process := w', status } :: after⟩

/-- Runs that begin before any of the workers is there. -/
inductive Network.Reachable (settings : LoopSettings) : Network → Prop where
  | start {s : Coordinator} (reachable : s.Reachable settings) :
      Reachable settings ⟨s, []⟩
  | step {n n' : Network} (before : Reachable settings n)
      (step : n.Step settings n') : Reachable settings n'

variable {s s' : Coordinator} {p : Party} {n n' : Network}
  {settings : LoopSettings} {i : Fin maxClients} {c : Client}
  {out : Option (JobIdentity × Bool)}

-- =============================================== one connection

theorem Party.client_active (link : p.link = .active i) :
    p.client s = s.client i := by
  rw [Party.client, link]
  rfl

/-- The coordinator's books of a connection are in order. -/
def Link.Agreed (s : Coordinator) : Link → Prop
  | .active i => 0 ≤ (s.client i).fd ∧ s.Told i
      ∧ (s.client i).history.closing = none
  | .closed client => client.Parted

/-- A connection and its worker. -/
structure Party.Joined (s : Coordinator) (p : Party) : Prop where
  arrived : (p.client s).history.arrived <+: p.process.history.handed
  received : p.process.history.received <+: (p.client s).history.handed
  input : (p.client s).Input True
  handed : (p.client s).history.handed
    <+: encodings (p.client s).history.queued
  encoded : (p.client s).Encoded
  agreed : p.link.Agreed s

/-- What the coordinator has handled was sent. -/
theorem Party.Joined.delivered (h : p.Joined s)
    (hw : p.process.Conforming) :
    (p.client s).history.delivered <+: p.process.history.sent :=
  h.input.delivered_sent hw.sending.encodable
    (hw.sending.handed ▸ h.arrived)

/-- What the worker has received are messages that were queued. -/
theorem Party.Joined.queued (h : p.Joined s) :
    ∃ whole, whole <+: (p.client s).history.queued
      ∧ (∀ m ∈ whole, m.Encodable)
      ∧ (p.client s).history.handed <+: encodings whole := by
  obtain ⟨whole, hwhole, hall, hsame, -⟩ := h.encoded
  exact ⟨whole, hwhole, hall, hsame ▸ h.handed⟩

/-- What the worker has accepted was assigned. -/
theorem Party.Joined.taken (h : p.Joined s) (hw : p.process.Conforming) :
    p.process.taken <+: (p.client s).given := by
  obtain ⟨whole, hwhole, hall, hhanded⟩ := h.queued
  exact (hw.greeted.taken_assigned hw.input hall
    (h.received.trans hhanded)).trans (hwhole.filterMap _)

/-- Both sides' books, joined. -/
theorem Party.Joined.place (h : p.Joined s) (hw : p.process.Conforming)
    (talks : Given (p.client s).given (p.client s).heard out) :
    Place (p.client s).given (p.client s).heard p.process.taken
      p.process.said out p.process.holding :=
  talks.place hw.reporting.takes (h.taken hw)
    ((h.delivered hw).filterMap _)

theorem Link.Agreed.talks {link : Link} (h : link.Agreed s) :
    ∃ out, Given (link.client s).given (link.client s).heard out := by
  cases link with
  | active i => exact ⟨_, h.2.1.talks⟩
  | closed client => exact Client.Parted.talks h

-- ========================================= the coordinator moves

theorem Client.Starts.handed {message : Message} {c' : Client}
    (h : c.Starts message c') : c'.history.handed = c.history.handed := by
  cases h <;> rfl

/-- What an open connection has sent stays sent. -/
theorem Client.Move.handed {latched : Prop} {c' : Client}
    (h : c.Move latched c') (fd : 0 ≤ c.fd) :
    c.history.handed <+: c'.history.handed := by
  have hgather {chunk : List UInt8} {nowMs : Int64} :
      (c.gather chunk nowMs).history.handed = c.history.handed :=
    Client.gather_handed.1
  cases h with
  | accepted vacant fresh => omega
  | short gathers short => exact List.prefix_refl _
  | asks gathers full inspect => rw [hgather]
  | @refuses chunk nowMs reason gathers full inspect =>
      show _ <+: (c.gather chunk nowMs).history.handed
      rw [hgather]
  | @delivers chunk nowMs message workerId jobClient _ gathers full inspect
      answers =>
      have hdeliver : (((c.gather chunk nowMs).deliver message).withRole
          workerId jobClient).history.handed = c.history.handed := hgather
      cases answers with
      | stuck why => rw [hdeliver]
      | resets => exact hdeliver ▸ List.prefix_refl _
      | closes why => exact hdeliver ▸ List.prefix_refl _
      | replies kind starts => rw [starts.handed, hdeliver]
  | sends _ phase bounded =>
      dsimp only [Client.advance]
      split <;> exact List.prefix_append _ _
  | closes _ why => exact List.prefix_refl _
  | assigns _ phase idle starts => rw [starts.handed]

theorem Client.Turn.handed {latched : Prop} {c' : Client}
    (h : c.Turn latched c') (fd : 0 ≤ c.fd) :
    c.history.handed <+: c'.history.handed := by
  cases h with
  | same => exact List.prefix_refl _
  | move move => exact move.handed fd
  | moveClose move => exact move.handed fd

/-- The reports a connection delivers are due. -/
theorem Party.Joined.conforms (h : p.Joined s) (hw : p.process.Conforming)
    (link : p.link = .active i) (told : s.Told i)
    (input : (s'.client i).Input True)
    (arrived : (s'.client i).history.arrived
      <+: p.process.history.handed) :
    (s.client i).Conforms (s.outAt i) (s'.client i) := by
  have hclient : p.client s = s.client i := Party.client_active link
  intro message hdelivered
  have hsent := input.delivered_sent hw.sending.encodable
    (hw.sending.handed ▸ arrived)
  rw [hdelivered] at hsent
  refine ⟨hw.sending.encodable message (hsent.subset (by simp)),
    fun notice hnotice => ?_⟩
  have htalks : Given (p.client s).given (p.client s).heard (s.outAt i) :=
    hclient ▸ told.talks
  refine (h.place hw htalks).next ?_
  rw [hclient]
  have hsaid := hsent.filterMap Message.notice
  rw [List.filterMap_append] at hsaid
  have hone : [message].filterMap Message.notice = [notice] := by
    simp [hnotice]
  exact hone ▸ hsaid

/-- A party, at all times. A worker that has ended has sent a part of what
another would have sent that goes on (`w`). -/
structure Party.Good (s : Coordinator) (p : Party) : Prop where
  busy : ∀ b ∈ p.process.history.busy, b = false
  joined : ∃ w : WorkerProcess, w.Conforming
    ∧ p.process.history.handed <+: w.history.handed
    ∧ Party.Joined s { p with process := w }
    ∧ (p.status = none → w = p.process)

theorem Party.Good.running (h : p.Good s) (running : p.status = none) :
    p.process.Conforming ∧ p.Joined s := by
  obtain ⟨w, hw, -, hjoined, hself⟩ := h.joined
  rw [hself running] at hw hjoined
  exact ⟨hw, hjoined⟩

theorem Coordinator.Reachable.framed (h : s.Reachable settings)
    (i : Fin maxClients) :
    (s.client i).Input True ∧ (s.client i).Encoded
      ∧ (s.client i).history.handed
        <+: encodings (s.client i).history.queued :=
  ⟨(h.input i).mono fun _ => trivial, h.encoded i,
    (h.output i).handed_take⟩

/-- A step of the coordinator, as one worker sees it. -/
theorem Party.Joined.after (h : p.Joined s) (hw : p.process.Conforming)
    (reachable : s.Reachable settings) (step : s.Step settings s')
    (healthy : s'.store.failure = .none)
    (arrived : (p.client s').history.arrived
      <+: p.process.history.handed) : (p.after s').Joined s' := by
  obtain ⟨process, status, link⟩ := p
  cases link with
  | closed client =>
      exact ⟨h.arrived, h.received, h.input, h.handed, h.encoded, h.agreed⟩
  | active i =>
      obtain ⟨fd, told, -⟩ := h.agreed
      have hbefore := (step.turn.after reachable.live).healthy healthy
      obtain ⟨hinput, hencoded, houtput⟩ := (reachable.step step).framed i
      have hinput' (k : Fin maxClients) : (s.client k).Input False :=
        (reachable.input k).mono (absurd hbefore)
      have hreceived : process.history.received
          <+: (s'.client i).history.handed :=
        h.received.trans ((step.turn.client reachable.live i).handed fd)
      have htalking := step.turn.talking told (reachable.linked hbefore)
        reachable.live hinput' fd (h.conforms hw rfl told hinput arrived)
        healthy
      cases htalking with
      | on fd' told' =>
          have hopen := (((reachable.step step).input i).mono
            (absurd healthy)).isOpen fd'
          have hlink : Link.after s' (.active i) = .active i :=
            if_neg (Int.not_lt.mpr fd')
          rw [Party.after, hlink]
          exact ⟨arrived, hreceived, hinput, houtput, hencoded, fd', told',
            hopen⟩
      | off parted =>
          have hlink : Link.after s' (.active i) = .closed (s'.client i) :=
            if_pos parted.fd
          rw [Party.after, hlink]
          exact ⟨arrived, hreceived, hinput, houtput, hencoded, parted⟩

/-- A worker joins. -/
theorem Party.Joins.good (h : p.Joins s s') (reachable : s.Reachable settings)
    (step : s.Step settings s') : p.Good s' := by
  obtain ⟨i, intervalMs, clock, vacant, opened, rfl⟩ := h
  have hfresh : ∃ fd nowMs, s'.client i = Client.accepted fd nowMs := by
    have hturn := step.turn.client reachable.live i
    generalize s'.client i = c at hturn opened
    cases hturn with
    | same => omega
    | moveClose => exact absurd opened (Int.not_le.mpr Client.closed_fd)
    | move move =>
        cases move with
        | accepted => exact ⟨_, _, rfl⟩
        | short gathers => exact absurd gathers.fd (Int.not_le.mpr vacant)
        | asks gathers => exact absurd gathers.fd (Int.not_le.mpr vacant)
        | refuses gathers => exact absurd gathers.fd (Int.not_le.mpr vacant)
        | delivers gathers => exact absurd gathers.fd (Int.not_le.mpr vacant)
        | sends fd => omega
        | closes fd => omega
        | assigns fd => omega
  obtain ⟨fd, nowMs, hclient⟩ := hfresh
  refine ⟨fun b hb => absurd hb List.not_mem_nil, _,
    WorkerProcess.conforming_start intervalMs clock, List.prefix_refl _, ?_,
    fun _ => rfl⟩
  obtain ⟨hinput, hencoded, houtput⟩ := (reachable.step step).framed i
  refine ⟨?_, List.nil_prefix, hinput, houtput, hencoded, opened, ⟨?_, ?_⟩, ?_⟩
  · show (s'.client i).history.arrived <+: _
    rw [hclient]
    exact List.nil_prefix
  · unfold outAt
    rw [hclient]
    exact Scheduler.out_zero.symm ▸ .home rfl
  · rw [hclient]
    exact fun _ => rfl
  · rw [hclient]
    rfl

-- =============================================== a worker moves

/-- Where a worker completes a frame it holds nothing. -/
theorem Party.Joined.idle (h : p.Joined s) {w : WorkerProcess}
    {chunk : List UInt8} (hw : w.Conforming) (working : w.phase = .working)
    (arrived : (p.client s).history.arrived <+: w.history.handed)
    (received : w.history.received ++ chunk
      <+: (p.client s).history.handed)
    (possible : w.CanReceive (.data chunk))
    (completes : w.completes chunk = true) : w.held = 0 := by
  have hjoined : Party.Joined s { p with process := w } :=
    ⟨arrived, (List.prefix_append _ _).trans received, h.input, h.handed,
      h.encoded, h.agreed⟩
  obtain ⟨out, talks⟩ := h.agreed.talks
  obtain ⟨whole, hwhole, hall, hhanded⟩ := h.queued
  obtain ⟨identity, hmore⟩ := hw.greeted.more (hw.input.reader working) working
    hall (received.trans hhanded) possible completes
  have hplace : Place (p.client s).given (p.client s).heard w.taken w.said out
      w.holding := hjoined.place hw talks
  have hidle := hplace.idle (hmore.trans (hwhole.filterMap _))
  unfold WorkerProcess.holding at hidle
  by_contra hheld
  rw [if_neg hheld] at hidle
  cases hidle

/-- A step of the worker. -/
theorem Party.Good.moves (h : p.Good s) (running : p.status = none)
    {status : Option ExitStatus} {w' : WorkerProcess}
    (step : p.process.Step status w')
    (fifo : w'.history.received <+: (p.client s).history.handed) :
    Party.Good s { p with process := w', status } := by
  obtain ⟨hw, hjoined⟩ := h.running running
  refine ⟨step.busy h.busy ?_, ?_⟩
  · intro working w₁ chunk moves possible completes hreceived
    rw [hreceived] at fifo
    exact hjoined.idle (hw.moves moves working)
      ((WorkerProcess.moves_phase moves).trans working)
      (hjoined.arrived.trans (WorkerProcess.moves_handed moves)) fifo possible
      completes
  · cases status with
    | none =>
        exact ⟨w', step.conforming hw, List.prefix_refl _,
          ⟨hjoined.arrived.trans step.handed, fifo, hjoined.input,
            hjoined.handed, hjoined.encoded, hjoined.agreed⟩, fun _ => rfl⟩
    | some exit =>
        obtain ⟨w₂, hw₂, hbefore, hafter, hreceived⟩ := step.within hw
        exact ⟨w₂, hw₂, hafter,
          ⟨hjoined.arrived.trans hbefore, hreceived.trans fifo, hjoined.input,
            hjoined.handed, hjoined.encoded, hjoined.agreed⟩, nofun⟩

-- ========================================================= runs

theorem Network.Step.coordinator_step (h : n.Step settings n') :
    n'.coordinator = n.coordinator
      ∨ n.coordinator.Step settings n'.coordinator := by
  cases h with
  | coordinator step fifo joins => exact .inr step
  | worker parties running step fifo => exact .inl rfl

theorem Network.Reachable.coordinator (h : n.Reachable settings) :
    n.coordinator.Reachable settings := by
  induction h with
  | start reachable => exact reachable
  | step before step ih =>
      rcases step.coordinator_step with hsame | hstep
      · rw [hsame]
        exact ih
      · exact ih.step hstep

/-- In every state of a network while the store works. -/
theorem Network.Reachable.good (h : n.Reachable settings)
    (healthy : n.coordinator.store.failure = .none) :
    ∀ p ∈ n.parties, p.Good n.coordinator := by
  induction h with
  | start reachable => exact fun p hp => absurd hp List.not_mem_nil
  | @step n n' before step ih =>
      have hreachable := before.coordinator
      cases step with
      | @coordinator s' joining step fifo joins =>
          have hbefore := (step.turn.after hreachable.live).healthy healthy
          intro p hp
          rcases List.mem_append.mp hp with hp | hp
          · obtain ⟨q, hq, rfl⟩ := List.mem_map.mp hp
            have hgood := ih hbefore q hq
            obtain ⟨w, hw, hhanded, hjoined, hself⟩ := hgood.joined
            exact ⟨hgood.busy, w, hw, hhanded,
              hjoined.after hw hreachable step healthy
                ((fifo q hq).trans hhanded), hself⟩
          · exact (joins p (Option.mem_toList.mp hp)).good hreachable step
      | @worker left right q status w' parties running step fifo =>
          have hgood := ih healthy
          rw [parties] at hgood
          intro p hp
          rcases List.mem_append.mp hp with hp | hp
          · exact hgood p (List.mem_append_left _ hp)
          · rcases List.mem_cons.mp hp with rfl | hp
            · exact (hgood q (by simp)).moves running step fifo
            · exact hgood p (List.mem_append_right _
                (List.mem_cons_of_mem _ hp))

-- ==================================================== agreement

theorem Link.Agreed.why {link : Link} (h : link.Agreed s) :
    (link.client s).history.closing ≠ some .invalidJobReport := by
  cases link with
  | active i =>
      show (s.client i).history.closing ≠ _
      rw [h.2.2]
      exact Option.some_ne_none _ |>.symm
  | closed client => exact Client.Parted.why h

instance {reply : RecvReply} : Decidable (c.CanReceive reply) :=
  match reply with
  | .data chunk => inferInstanceAs (Decidable (chunk ≠ [] ∧ _ ≤ _))
  | .again | .eof | .failed => .isTrue trivial

instance {reply : SendReply} : Decidable (c.CanSend reply) :=
  match reply with
  | .taken count => inferInstanceAs (Decidable (count ≤ _))
  | .again | .failed => .isTrue trivial

instance {ready : Readiness} : Decidable (ready.Possible c) := by
  unfold Readiness.Possible
  exact match c.phase with
    | .readingMessage => inferInstance
    | .writingReply => inferInstance

/-- The only worker of a network moves. -/
theorem Network.Reachable.work {w w' : WorkerProcess}
    (h : Network.Reachable settings ⟨s, [⟨w, none, .active i⟩]⟩)
    (step : w.Step none w')
    (fifo : w'.history.received <+: (s.client i).history.handed) :
    Network.Reachable settings ⟨s, [⟨w', none, .active i⟩]⟩ :=
  h.step (@Network.Step.worker _ _ [] [] ⟨w, none, .active i⟩ none w' rfl rfl
    step fifo)

/-- Its coordinator does. -/
theorem Network.Reachable.coordinate {w : WorkerProcess}
    (h : Network.Reachable settings ⟨s, [⟨w, none, .active i⟩]⟩)
    (step : s.Step settings s') (opened : 0 ≤ (s'.client i).fd)
    (fifo : (s'.client i).history.arrived <+: w.history.handed) :
    Network.Reachable settings ⟨s', [⟨w, none, .active i⟩]⟩ := by
  have hlink : Link.after s' (.active i) = .active i :=
    if_neg (Int.not_lt.mpr opened)
  have hparty (p : Party) (hp : p ∈ [⟨w, none, .active i⟩]) :
      (p.client s').history.arrived <+: p.process.history.handed := by
    rw [List.mem_singleton.mp hp]
    exact fifo
  have hnext := h.step (.coordinator step hparty
    fun p hp => absurd hp (Option.not_mem_none p))
  rwa [List.map_singleton, Party.after, hlink] at hnext

/-- The worker's connection is served and stays. -/
abbrev Coordinator.ServesWorker (s : Coordinator) (i : Fin maxClients)
    (ready : Readiness) (w : WorkerProcess) (s' : Coordinator) : Prop :=
  s.store.failure = .none ∧ 0 ≤ s.now ∧ ready.Possible (s.client i)
    ∧ (serveClient quietSettings i ready s.now s.ticked).returned = some ()
    ∧ 0 ≤ (s'.client i).fd
    ∧ (s'.client i).history.arrived <+: w.history.handed

theorem Network.Reachable.serve {w : WorkerProcess} {ready : Readiness}
    (h : Network.Reachable quietSettings ⟨s, [⟨w, none, .active i⟩]⟩)
    (serves : s.ServesWorker i ready w
      (serveClient quietSettings i ready s.now s.ticked).state) :
    Network.Reachable quietSettings
      ⟨(serveClient quietSettings i ready s.now s.ticked).state,
        [⟨w, none, .active i⟩]⟩ := by
  obtain ⟨healthy, clock, possible, returns, opened, fifo⟩ := serves
  exact h.coordinate
    (.serve healthy clock possible (Outcome.eq_done returns)) opened fifo

/-- The coordinator with a connection, on a disk that takes everything. -/
def jobDisk : Coordinator :=
  quietClient.withCtx ⟨quietClient.store,
    ⟨logDisk [], 0, List.replicate (maxClients * appendRoom) (.moved 99)⟩⟩

/-- The connection submits a job. -/
def jobHeader : Coordinator :=
  (serveClient quietSettings onlySlot (arriving (submission.take headerSize))
    jobDisk.now jobDisk.ticked).state

def jobSubmitted : Coordinator :=
  (serveClient quietSettings onlySlot (arriving (submission.drop headerSize))
    jobHeader.now jobHeader.ticked).state

/-- A worker joins in the second entry. -/
def workerSlot : Fin maxClients := ⟨1, by decide⟩

def freshWorker : WorkerProcess := .start 1000 fun _ => 5

end Faultline
