/-
Commands and the coordinator.

A command talks to a slot of the coordinator: each has received a beginning of
what the other has sent (`Cli.Connected`). Nothing else is known about either,
nor about the other connections. What the command then shows was so while it
was connected (`command_shows_coordinator`): a reply to a query was true of the
tables at one moment, and an acknowledged submission has become one job.
-/
import Faultline.Proofs.CliSessions
import Faultline.Proofs.ResultIntegrity
import Faultline.Proofs.Visits

namespace Faultline

open Lib Coordinator

variable {s₀ c : Coordinator} {i : Fin maxClients} {settings : LoopSettings}
  {env : Cli.Env} {argv : List (List UInt8)} {exit : Cli.Exit}
  {program : Prog Socket Cli.Exit} {socket socket' : Socket}
  {request reply : Message} {payload : JobSubmitPayload}

/-- The coordinator vouches for a reply: it was true at some moment, or the job
it names is the one that was asked for, and is there. -/
inductive Coordinator.Vouches (settings : LoopSettings)
    (s₀ c : Coordinator) : Message → Message → Prop where
  | tells {t : Coordinator} {request reply : Message}
      (asks : request.asks = true) (earlier : s₀.Run settings t)
      (later : t.Run settings c) (healthy : t.store.failure = .none)
      (tells : t.Tells settings request reply) :
      Vouches settings s₀ c request reply
  | submits {t t' : Coordinator} {payload : JobSubmitPayload} {new job : Job}
      (earlier : s₀.Run settings t) (step : t.Step settings t')
      (later : t'.Run settings c) (submits : new.Submits payload)
      (fresh : ∀ old ∈ t.store.jobs.jobs, old.id < new.id)
      (there : job ∈ c.store.jobs.jobs) (evolves : new.Evolves job) :
      Vouches settings s₀ c (.jobSubmit payload) (.jobSubmitAck new.id)

theorem Coordinator.Handled.vouches {reaction : Reaction}
    (h : s₀.Handled settings i request reaction c)
    (reachable : s₀.Reachable settings)
    (kind : request.asks = true ∨ ∃ payload, request = .jobSubmit payload)
    (queued : reaction.queued = [reply]) :
    s₀.Vouches settings c request reply := by
  rcases kind with hasks | ⟨payload, rfl⟩
  · obtain ⟨t, earlier, later, healthy, htells⟩ := h.tells hasks queued
    exact .tells hasks earlier later healthy htells
  · obtain ⟨t, t', new, earlier, step, later, rfl, hsubmits, hfresh, young,
      hyoung, hfirst⟩ := h.submitted reachable queued
    obtain ⟨job, hjob, hevolves⟩ :=
      later.evolves ((reachable.run earlier).step step) young hyoung
    exact .submits earlier step later hsubmits hfresh hjob
      (hfirst.trans hevolves)

/-- A reaction queues at most one message. -/
theorem Reaction.queued_cons {reaction : Reaction} {rest : List Message}
    (h : reply :: rest = reaction.queued) : reaction.queued = [reply] := by
  cases reaction with
  | reply message =>
      cases h
      rfl
  | _ => cases h

/-- A command and its slot, from the moment the connection was accepted. -/
structure Cli.Connected (settings : LoopSettings) (i : Fin maxClients)
    (s₀ c : Coordinator) (socket socket' : Socket) : Prop where
  reachable : s₀.Reachable settings
  visit : s₀.Visit settings i c
  unused : socket.outbound = []
  requests : (c.client i).history.arrived <+: socket'.outbound
  replies : socket.inbound <+: (c.client i).history.handed

/-- What the slot has been handled was sent. -/
theorem Cli.Connected.delivered {sent : List Message}
    (h : Connected settings i s₀ c socket socket')
    (encodable : ∀ m ∈ sent, m.Encodable)
    (begins : socket'.outbound <+: encodings sent) :
    (c.client i).history.delivered <+: sent :=
  ((h.reachable.run h.visit.run).input i).delivered_sent encodable
    (h.requests.trans begins)

/-- The coordinator handles the request, at most once. -/
theorem Cli.Connected.exchange
    (h : Connected settings i s₀ c socket socket')
    (kind : request.asks = true ∨ ∃ payload, request = .jobSubmit payload)
    (encodable : request.Encodable)
    (begins : socket'.outbound <+: request.encoding) :
    s₀.Exchange settings i request c := by
  refine h.visit.exchange h.reachable (fun w => ?_)
    (h.delivered (fun m hm => ?_) ?_)
  · rintro rfl
    rcases kind with hasks | ⟨payload, hsubmit⟩
    · cases hasks
    · cases hsubmit
  · rw [List.mem_singleton.mp hm]
    exact encodable
  · simpa [encodings] using begins

/-- The reply to one request comes from the coordinator. -/
theorem Cli.Connected.vouches {received : List UInt8}
    (h : Connected settings i s₀ c socket socket')
    (kind : request.asks = true ∨ ∃ payload, request = .jobSubmit payload)
    (encodable : request.Encodable)
    (moves : socket.Moves socket' request.encoding received)
    (decoded : messageDecode received = .ok (reply, received.length)) :
    s₀.Vouches settings c request reply := by
  have hreachable := h.reachable.run h.visit.run
  -- what was received begins what was queued
  obtain ⟨whole, hwhole, hencodable, hencodings, -⟩ := hreachable.encoded i
  have hreceived : received <+: encodings whole := by
    rw [hencodings]
    exact (moves.inbound ▸ List.prefix_append _ _).trans
      (h.replies.trans (hreachable.output i).handed_take)
  obtain ⟨more, rfl, -⟩ := encodings_front hencodable decoded hreceived
  obtain ⟨rest, hqueued⟩ := hwhole
  have hbegins : socket'.outbound <+: request.encoding := by
    rw [moves.outbound, h.unused, List.nil_append]
  cases h.exchange kind encodable hbegins with
  | waiting delivered queued =>
      rw [queued] at hqueued
      cases hqueued
  | @handled reaction delivered queued handled =>
      rw [queued] at hqueued
      exact handled.vouches h.reachable kind (Reaction.queued_cons hqueued)

/-- What a command shows that does not fail. -/
theorem Cli.Connected.shows
    (h : Connected settings i s₀ c socket socket')
    (kind : request.asks = true ∨ ∃ payload, request = .jobSubmit payload)
    (encodable : request.Encodable)
    (talks : Performs program socket (Cli.Talks env request))
    (ends : program socket = .done exit socket') (succeeds : exit.status ≠ 1) :
    socket'.outbound = request.encoding
      ∧ ∃ reply, Shows env request reply exit
        ∧ s₀.Vouches settings c request reply := by
  obtain ⟨sent, received, moves, htalks⟩ := talks
  rw [ends] at moves htalks
  have hmoves : socket.Moves socket' sent received := moves
  obtain ⟨rfl, reply, decoded, shows⟩ := htalks.shows exit rfl succeeds
  refine ⟨?_, reply, shows, h.vouches kind encodable hmoves decoded⟩
  rw [hmoves.outbound, h.unused, List.nil_append]

/-- What commands ask for. -/
theorem Cli.Asks.kind (h : Asks env argv request) :
    request.asks = true ∨ ∃ payload, request = .jobSubmit payload := by
  cases h with
  | ping coordinator => exact .inl rfl
  | submit known parsed => exact .inr ⟨_, rfl⟩
  | status parsed coordinator => exact .inl rfl
  | @inspect name inspection options endpoint coordinator =>
      cases inspection <;> exact .inl rfl

/-- Nothing is handled for a command that sends nothing. -/
theorem Cli.Connected.silent
    (h : Connected settings i s₀ c socket socket')
    (nothing : socket'.outbound = []) :
    (c.client i).history.delivered = []
      ∧ (c.client i).history.queued = [] := by
  have hping := (Message.encodable_of_valid validateMessage_ping).1
  cases h.exchange (.inl rfl) hping (nothing ▸ List.nil_prefix) with
  | waiting delivered queued => exact ⟨delivered, queued⟩
  | handled delivered queued handled =>
      have hnone := h.delivered (fun m hm => absurd hm List.not_mem_nil)
        (nothing ▸ List.nil_prefix)
      rw [delivered] at hnone
      exact absurd (List.prefix_nil.mp hnone) (List.cons_ne_nil _ _)

/-- Whatever becomes of a command, and however much of its request arrives:
its slot has been handled nothing, or the one request its arguments ask for,
once. -/
theorem command_handled_once (main : Cli.main env argv = .ok program)
    (connected : Cli.Connected settings i s₀ c socket
      (program socket).state) :
    ((c.client i).history.delivered = []
        ∧ (c.client i).history.queued = [])
      ∨ ∃ request reaction, Cli.Asks env argv request
        ∧ (c.client i).history.delivered = [request]
        ∧ (c.client i).history.queued = reaction.queued
        ∧ s₀.Handled settings i request reaction c := by
  cases Cli.main_goes main with
  | fails complaints => exact .inl (connected.silent connected.unused)
  | helps alone => exact .inl (connected.silent connected.unused)
  | @talks _ request asks encodable talks =>
      obtain ⟨sent, received, moves, htalks⟩ := talks socket
      have hbegins : (program socket).state.outbound <+: request.encoding := by
        rw [moves.outbound, connected.unused, List.nil_append]
        exact htalks.begins
      cases connected.exchange asks.kind encodable hbegins with
      | waiting delivered queued => exact .inl ⟨delivered, queued⟩
      | handled delivered queued handled =>
          exact .inr ⟨request, _, asks, delivered, queued, handled⟩

/-- A command that does not fail, and has not asked for help, has shown a reply
to the request its arguments ask for, and the coordinator at the other end of
its connection vouches for it, whatever the other connections do, and however
the bytes are cut: a query's reply was true at a moment between the connection's
being accepted and now; a submission has become a job of its own, with a new id
and the fields that were given, and the job is still there. -/
theorem command_shows_coordinator
    (main : Cli.main env argv = .ok program)
    (ends : program socket = .done exit socket')
    (connected : Cli.Connected settings i s₀ c socket socket')
    (succeeds : exit.status ≠ 1) :
    (exit = Cli.success Cli.usageText ∧ socket' = socket
        ∧ ∃ name, argv = [name, ascii "--help"])
      ∨ ∃ request reply, Cli.Asks env argv request
        ∧ socket'.outbound = request.encoding
        ∧ Cli.Shows env request reply exit
        ∧ s₀.Vouches settings c request reply := by
  cases Cli.main_goes main with
  | fails complaints =>
      cases ends
      exact absurd rfl succeeds
  | helps alone =>
      cases ends
      exact .inl ⟨rfl, rfl, _, alone⟩
  | @talks _ request asks encodable talks =>
      obtain ⟨hsent, reply, shows, vouches⟩ :=
        connected.shows asks.kind encodable (talks socket) ends succeeds
      exact .inr ⟨request, reply, asks, hsent, shows, vouches⟩

/-- A system without surprises. -/
def calmEnv : Cli.Env :=
  { inetPton := fun host => host == defaultHost
    sigpipeFails := false
    replies :=
      { socket := .ok 3, reuse := none, nonblocking := none, bind := none
        listen := none, connect := .pending, socketError := .ok 0 }
    flushFails := false
    rate := fun _ _ => [] }

/-- A connection that moves a few bytes at a time. -/
def slowSocket (inbound : List UInt8) : Socket :=
  { clock := fun _ => 10
    ticks := 0
    polls :=
      [.interrupted] ++ List.replicate 20 (.ready ⟨true, true, false, false, false⟩)
    sends := [.moved 8, .again, .moved 99]
    recvs := [.moved 4, .again] ++ List.replicate 9 (.moved 99)
    inbound
    outbound := []
    waits := []
    descriptors := [] }

def submitSleep : List (List UInt8) :=
  [ascii "faultline", ascii "submit", ascii "sleep"]

/-- The acknowledgement of `jobSubmitted` is sent. -/
def jobAcknowledged : Coordinator :=
  (serveClient quietSettings onlySlot (writing 20) jobSubmitted.now
    jobSubmitted.ticked).state

/-- A visit goes on when a connection is served. -/
theorem Coordinator.Visit.serve {s : Coordinator} {ready : Readiness}
    (h : s₀.Visit settings i s)
    (serves : 0 ≤ (s.client i).fd ∧ s.store.failure = .none ∧ 0 ≤ s.now
      ∧ ready.Possible (s.client i)
      ∧ (serveClient settings i ready s.now s.ticked).returned = some ()) :
    s₀.Visit settings i
      (serveClient settings i ready s.now s.ticked).state := by
  obtain ⟨opened, healthy, clock, possible, returns⟩ := serves
  exact h.step opened
    (.serve healthy clock possible (Outcome.eq_done returns))

theorem jobAcknowledged_visit :
    jobDisk.Visit quietSettings onlySlot jobAcknowledged := by
  have hjoined : jobDisk.Visit quietSettings onlySlot jobDisk :=
    .joined (by decide +kernel) (by decide +kernel)
  have hheader : jobDisk.Visit quietSettings onlySlot jobHeader :=
    hjoined.serve (by decide +kernel)
  have hsubmitted : jobDisk.Visit quietSettings onlySlot jobSubmitted :=
    hheader.serve (by decide +kernel)
  exact hsubmitted.serve (by decide +kernel)

/-- A command and a slot whose streams fit. -/
theorem Cli.connected_of_streams (sent received : List UInt8)
    (runs : (Cli.main env argv).toOption.map (fun program =>
        let outcome := program (slowSocket received)
        (outcome.returned, outcome.state.outbound))
      = some (some exit, sent))
    (reachable : s₀.Reachable settings) (visit : s₀.Visit settings i c)
    (streams : (c.client i).history.arrived = sent
      ∧ (c.client i).history.handed = received) :
    ∃ program socket', Cli.main env argv = .ok program
      ∧ program (slowSocket received) = .done exit socket'
      ∧ Cli.Connected settings i s₀ c (slowSocket received) socket' := by
  cases hmain : Cli.main env argv with
  | error fault =>
      rw [hmain] at runs
      cases runs
  | ok program =>
      rw [hmain] at runs
      obtain ⟨hreturned, houtbound⟩ := Prod.mk.inj (Option.some.inj runs)
      refine ⟨program, _, rfl, Outcome.eq_done hreturned, reachable, visit, rfl,
        ?_, ?_⟩
      · rw [streams.1, houtbound]
      · rw [streams.2, slowSocket]

/-- `faultline submit sleep`, at that coordinator. -/
theorem submitSleep_connected :
    ∃ program socket', Cli.main calmEnv submitSleep = .ok program
      ∧ program (slowSocket (Message.jobSubmitAck 1).wire)
        = .done (Cli.success (ascii "job_id=1\n")) socket'
      ∧ Cli.Connected quietSettings onlySlot jobDisk jobAcknowledged
        (slowSocket (Message.jobSubmitAck 1).wire) socket' :=
  Cli.connected_of_streams submission _ (by decide +kernel)
    (quietClient_reachable.step (.environment rfl)) jobAcknowledged_visit
    (by decide +kernel)

theorem command_shows_coordinator_submit :
    ∃ request reply, Cli.Asks calmEnv submitSleep request
      ∧ Cli.Shows calmEnv request reply (Cli.success (ascii "job_id=1\n"))
      ∧ jobDisk.Vouches quietSettings jobAcknowledged request reply := by
  obtain ⟨program, socket', hmain, hends, hconnected⟩ := submitSleep_connected
  rcases command_shows_coordinator hmain hends hconnected (by decide) with
    ⟨hhelp, -⟩ | ⟨request, reply, asks, -, shows, vouches⟩
  · exact absurd hhelp (by decide)
  · exact ⟨request, reply, asks, shows, vouches⟩

theorem command_handled_once_submit :
    ∃ request reaction, Cli.Asks calmEnv submitSleep request
      ∧ jobDisk.Handled quietSettings onlySlot request reaction
        jobAcknowledged := by
  obtain ⟨program, socket', hmain, hends, hconnected⟩ := submitSleep_connected
  have hstate : (program (slowSocket (Message.jobSubmitAck 1).wire)).state
      = socket' := by
    rw [hends]
    rfl
  rcases command_handled_once hmain (hstate ▸ hconnected) with
    ⟨-, hqueued⟩ | ⟨request, reaction, asks, -, -, handled⟩
  · exact absurd hqueued (by decide +kernel)
  · exact ⟨request, reaction, asks, handled⟩

end Faultline
