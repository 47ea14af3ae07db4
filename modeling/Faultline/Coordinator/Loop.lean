/-
The coordinator's event loop (src/coordinator/main.c).

The state is the table of connections, the store with the machine under its
log, and the clock. Programs follow the source's functions; what the
operating system answers (`poll`, `accept`, `recv`, `send`) is an argument.
Every reading of the clock takes the next element of an arbitrary sequence.
Log lines are left out. A signal only ends loops early, so a loop takes the
part of its range that it gets through.
-/
import Faultline.Coordinator.Client
import Faultline.Coordinator.Views
import Faultline.Lib.Exact

namespace Faultline

open Lib

-- ======================================================== state

structure Coordinator where
  clients : Vector Client maxClients
  ctx : StoreCtx
  /-- All readings the clock will ever give. -/
  clock : Nat → Int64
  /-- How many of them were taken. -/
  ticks : Nat

/-- What does not change while the loop runs. -/
structure LoopSettings where
  timeoutMs : Int64
  session : StatsSession
deriving DecidableEq, Repr

namespace Coordinator

/-- `clients[i]`. -/
def client (s : Coordinator) (i : Fin maxClients) : Client := s.clients.get i

/-- `clients[i] = client`. -/
def put (s : Coordinator) (i : Fin maxClients) (client : Client) :
    Coordinator :=
  { s with clients := s.clients.set i client i.isLt }

def store (s : Coordinator) : CoordinatorStore := s.ctx.store

def getClient (i : Fin maxClients) : Prog Coordinator Client :=
  fun s => .done (s.client i) s

def setClient (i : Fin maxClients) (update : Client → Client) :
    Prog Coordinator Unit :=
  fun s => .done () (s.put i (update (s.client i)))

def getStore : Prog Coordinator CoordinatorStore := fun s => .done s.store s

/-- Run a store operation. -/
def onStore {α : Type} (p : Prog StoreCtx α) : Prog Coordinator α :=
  Prog.zoom (·.ctx) (fun ctx s => { s with ctx }) p

/-- The registry is changed in place. -/
def setWorkers (workers : WorkerRegistry) : Prog Coordinator Unit :=
  onStore (StoreCtx.setStore fun store => { store with workers })

/-- `faultline_monotonic_ms`; a negative reading is a failure. -/
def monotonicMs : Prog Coordinator Int64 :=
  fun s => .done (s.clock s.ticks) { s with ticks := s.ticks + 1 }

end Coordinator

open Coordinator

-- ====================================================== closing

/-- Report the loss of a worker's job. -/
def loseJob (workerId : UInt32) : Prog Coordinator Unit := do
  let now ← monotonicMs
  let _ ← onStore (storeWorkerLost workerId now)
  return ()

def markDead (workerId : UInt32) (fd : Int) : Prog Coordinator Unit := do
  let store ← getStore
  match workerMarkDead store.workers workerId fd with
  | .error _ => return ()
  | .ok workers => setWorkers workers

def detachWorker (workerId : UInt32) (fd : Int) : Prog Coordinator Unit := do
  let store ← getStore
  Prog.when ((schedulerActive store.jobs workerId).isSome
    && store.failure == .none) (loseJob workerId)
  markDead workerId fd

def closeClient (i : Fin maxClients) (reason : CloseReason) :
    Prog Coordinator Unit := do
  let client ← getClient i
  Prog.when (client.workerId != 0) (detachWorker client.workerId client.fd)
  setClient i (·.closed reason)

-- ====================================================== replies

def queueMessage (i : Fin maxClients) (message : Message) :
    Prog Coordinator Unit := do
  setClient i (·.queueing message)
  match encodeOutput message with
  | .error _ => closeClient i .encodeError
  | .ok output => do
      setClient i fun client => { client with output }
      -- A preceding synchronous commit may have taken substantial time.
      let now ← monotonicMs
      if now < 0 then closeClient i .clockError
      else setClient i (·.startReply now)

/-- The call a branch of `handle_message` or `read_message` ends with. -/
inductive Reaction where
  | none
  | close (reason : CloseReason)
  | reply (message : Message)
  | resetInput
deriving DecidableEq, Repr

def Reaction.run (i : Fin maxClients) : Reaction → Prog Coordinator Unit
  | .none => return ()
  | .close reason => closeClient i reason
  | .reply message => queueMessage i message
  | .resetInput => setClient i Client.resetInput

-- ===================================================== requests

/-- A connection that asked for anything but a registration. -/
def becomeJobClient (i : Fin maxClients) : Prog Coordinator Unit :=
  setClient i fun client => { client with jobClient := true }

/-- `queue_listing` for jobs. -/
def handleJobs (i : Fin maxClients) : Prog Coordinator Reaction := do
  let now ← monotonicMs
  if now < 0 then return .close .clockError
  else do
    becomeJobClient i
    let store ← getStore
    return .reply (.jobsResponse (jobsListing store.jobs))

/-- `queue_listing` for workers. -/
def handleWorkers (settings : LoopSettings) (i : Fin maxClients) :
    Prog Coordinator Reaction := do
  let now ← monotonicMs
  if now < 0 then return .close .clockError
  else do
    becomeJobClient i
    let store ← getStore
    match workersListing store now settings.timeoutMs with
    | none => return .close .clockError
    | some listing => return .reply (.workersResponse listing)

def handleStats (settings : LoopSettings) (i : Fin maxClients) :
    Prog Coordinator Reaction := do
  becomeJobClient i
  let now ← monotonicMs
  let store ← getStore
  match statsSnapshot settings.session store now settings.timeoutMs with
  | none => return .close .statsSnapshotError
  | some stats => return .reply (.statsResponse stats)

def handleStatus (i : Fin maxClients) (jobId : UInt64) :
    Prog Coordinator Reaction := do
  becomeJobClient i
  let store ← getStore
  return .reply (statusReply store.jobs jobId)

def handleRegister (i : Fin maxClients) : Prog Coordinator Reaction := do
  let client ← getClient i
  if client.jobClient then return .close .jobClientCannotRegister
  else do
    let now ← monotonicMs
    match ← onStore (storeRegister client.fd now) with
    | (.ok, some workerId) => do
        setClient i fun client => { client with workerId }
        return .reply (.workerRegisterAck workerId)
    | (.fatal, _) => return .none
    | _ => return .close .registrationRejected

def handleHeartbeat (i : Fin maxClients) (workerId : UInt32) (nowMs : Int64) :
    Prog Coordinator Reaction := do
  let client ← getClient i
  if client.workerId == 0 || workerId != client.workerId then
    return .close .heartbeatIdentityMismatch
  else do
    let store ← getStore
    match workerHeartbeat store.workers workerId client.fd nowMs with
    | .error _ => return .close .heartbeatRejected
    | .ok workers => do
        setWorkers workers
        return .resetInput

def handleSubmit (i : Fin maxClients) (payload : JobSubmitPayload) :
    Prog Coordinator Reaction := do
  let client ← getClient i
  if client.workerId != 0 then return .close .workerCannotSubmit
  else do
    let now ← monotonicMs
    match ← onStore (storeSubmit payload now) with
    | (.ok, some jobId) => do
        becomeJobClient i
        return .reply (.jobSubmitAck jobId)
    | (.fatal, _) => return .none
    | _ => return .close .submissionRejected

def handleReport (i : Fin maxClients) (report : Message) :
    Prog Coordinator Reaction := do
  let client ← getClient i
  let now ← monotonicMs
  match ← onStore (storeReport client.workerId report now) with
  | .ok => return .resetInput
  | .fatal => return .none
  | _ => return .close .invalidJobReport

def handleMessage (settings : LoopSettings) (i : Fin maxClients)
    (message : Message) (nowMs : Int64) : Prog Coordinator Reaction :=
  match message with
  | .ping _ => return .reply (.pong 0)
  | .workerRegister _ => handleRegister i
  | .heartbeat workerId => handleHeartbeat i workerId nowMs
  | .jobSubmit payload => handleSubmit i payload
  | .jobStatusRequest jobId => handleStatus i jobId
  | .jobStarted _ | .jobCompleted _ | .jobFailed _ => handleReport i message
  | .jobsRequest _ => handleJobs i
  | .workersRequest _ => handleWorkers settings i
  | .statsRequest _ => handleStats settings i
  | _ => return .close .unexpectedMessage

-- ====================================================== sockets

/-- What `recv` answers. -/
inductive RecvReply where
  | data (chunk : List UInt8)
  | eof
  /-- EAGAIN, EWOULDBLOCK or EINTR. -/
  | again
  | failed
deriving DecidableEq, Repr

/-- What `send` answers. -/
inductive SendReply where
  | taken (count : Nat)
  | again
  | failed
deriving DecidableEq, Repr

/-- What `accept` answers, and whether the new descriptor could be made
nonblocking. -/
inductive AcceptReply where
  | connection (fd : Int) (nonblocking : Bool)
  | interrupted
  | failed
deriving DecidableEq, Repr

/-- The bytes that were asked for are there. -/
def handleInput (settings : LoopSettings) (i : Fin maxClients)
    (nowMs : Int64) : Prog Coordinator Reaction := do
  let client ← getClient i
  match inspectInput client.role client.input with
  | .need expected => do
      setClient i fun client => { client with expected }
      return .none
  | .reject reason => return .close reason
  | .deliver message => do
      setClient i (·.deliver message)
      handleMessage settings i message nowMs

def readMessage (settings : LoopSettings) (i : Fin maxClients)
    (reply : RecvReply) (nowMs : Int64) : Prog Coordinator Reaction := do
  let client ← getClient i
  match reply with
  | .eof =>
      return .close
        (if client.input.isEmpty then .eof else .truncatedMessage)
  | .again => return .none
  | .failed => return .close .recvError
  | .data chunk => do
      setClient i (·.receive chunk nowMs)
      if (client.input ++ chunk).length < client.expected then return .none
      else do
        Prog.when ((client.input ++ chunk).length == headerSize)
          (setClient i Client.checking)
        handleInput settings i nowMs

def writeReply (i : Fin maxClients) (reply : SendReply) (nowMs : Int64) :
    Prog Coordinator Reaction :=
  match reply with
  | .again => return .none
  | .failed => return .close .sendError
  | .taken 0 => return .close .sendClosed
  | .taken (count + 1) => do
      setClient i (·.advance (count + 1) nowMs)
      return .none

/-- The first free entry of the table. -/
def Coordinator.vacantSlot (s : Coordinator) : Option (Fin maxClients) :=
  (List.finRange maxClients).find? fun i => (s.client i).fd < 0

/-- One connection of the accept loop; without a free entry, or if it
cannot be made nonblocking, the descriptor is closed at once. -/
def acceptClient (fd : Int) (nonblocking : Bool) (nowMs : Int64) :
    Prog Coordinator Unit :=
  fun s =>
    match s.vacantSlot with
    | none => .done () s
    | some i =>
        if nonblocking then .done () (s.put i (Client.accepted fd nowMs))
        else .done () s

def acceptClients (nowMs : Int64) : List AcceptReply → Prog Coordinator Unit
  | [] => return ()
  | .interrupted :: replies => acceptClients nowMs replies
  | .failed :: _ => return ()
  | .connection fd nonblocking :: replies => do
      acceptClient fd nonblocking nowMs
      acceptClients nowMs replies

-- ====================================================== waiting

/-- The loop of `heartbeat_poll_timeout` over the given workers. -/
def pollTimeoutFrom (nowMs timeoutMs : Int64) (waitMs : Int) :
    List Worker → Except Fault Int
  | [] => .ok waitMs
  | worker :: workers =>
      if worker.state == .alive then do
        let silent ← fittingInt64 (nowMs.toInt - worker.lastHeartbeatMs.toInt)
        let remaining ← fittingInt64 (timeoutMs.toInt - silent)
        if remaining ≤ 0 then return 0
        else if remaining < waitMs then do
          -- `(int)remaining`
          let waitMs ← fittingInt remaining
          pollTimeoutFrom nowMs timeoutMs waitMs workers
        else pollTimeoutFrom nowMs timeoutMs waitMs workers
      else pollTimeoutFrom nowMs timeoutMs waitMs workers

/-- How long `poll` may wait: until the first deadline of a live worker, and
at most a second. -/
def heartbeatPollTimeout (registry : WorkerRegistry)
    (nowMs timeoutMs : Int64) : Except Fault Int :=
  pollTimeoutFrom nowMs timeoutMs 1000 registry.slots

-- =================================================== scheduling

inductive ExitStatus where
  | success
  | failure
deriving DecidableEq, Repr

/-- An idle worker that no reply or partial frame is in the way of. -/
def Client.assignable (client : Client) (store : CoordinatorStore)
    (nowMs timeoutMs : Int64) : Bool :=
  0 ≤ client.fd
    && (workerFind store.workers client.workerId).any (fun worker =>
      worker.state == .alive && worker.fd == client.fd
        && !workerTimedOut worker nowMs timeoutMs)
    && client.phase == .readingMessage && client.input.isEmpty
    && (schedulerActive store.jobs client.workerId).isNone

/-- The result of a scheduling pass that was not cut off. -/
def scheduleResult : Prog Coordinator ExitStatus := do
  let store ← getStore
  return if store.failure == .none then .success else .failure

/-- The loop of `schedule_jobs` over the given entries. -/
def scheduleFrom (timeoutMs : Int64) :
    List (Fin maxClients) → Prog Coordinator ExitStatus
  | [] => scheduleResult
  | i :: slots => do
      let store ← getStore
      if store.jobs.pending.count == 0 || store.failure != .none then
        scheduleResult
      else do
        let now ← monotonicMs
        if now < 0 then return .failure
        else do
          let client ← getClient i
          if client.assignable store now timeoutMs then do
            match ← onStore (storeAssign client.workerId now) with
            | (.ok, some assignment) => do
                queueMessage i (.jobAssign assignment)
                scheduleFrom timeoutMs slots
            | _ => return .failure
          else scheduleFrom timeoutMs slots

/-- `schedule_jobs`, as far as it gets before a signal. -/
def scheduleJobs (timeoutMs : Int64) (reach : Nat) :
    Prog Coordinator ExitStatus :=
  scheduleFrom timeoutMs ((List.finRange maxClients).take reach)

-- ======================================================== the loop

/-- What `poll` reported about a descriptor, and what the calls on it will
answer. -/
structure Readiness where
  /-- POLLNVAL. -/
  invalid : Bool
  /-- POLLIN, POLLHUP or POLLERR. -/
  readable : Bool
  /-- POLLOUT, POLLHUP or POLLERR. -/
  writable : Bool
  recv : RecvReply
  send : SendReply
deriving DecidableEq, Repr

/-- Read or write, whichever the connection waits for. -/
def transfer (settings : LoopSettings) (i : Fin maxClients)
    (ready : Readiness) (nowMs : Int64) : Prog Coordinator Reaction := do
  let client ← getClient i
  match client.phase with
  | .readingMessage =>
      if ready.readable then readMessage settings i ready.recv nowMs
      else return .none
  | .writingReply =>
      if ready.writable then writeReply i ready.send nowMs else return .none

/-- Only an idle worker may stay silent. -/
def Client.stalled (client : Client) (nowMs : Int64) : Bool :=
  0 ≤ client.fd
    && (client.workerId == 0 || client.phase == .writingReply
      || !client.input.isEmpty)
    && nowMs - client.lastProgressMs ≥ ioTimeoutMs

def closeStalled (i : Fin maxClients) (nowMs : Int64) :
    Prog Coordinator Unit := do
  let client ← getClient i
  Prog.when (client.stalled nowMs) (closeClient i .ioTimeout)

/-- The body of the loop over the connections. -/
def serveClient (settings : LoopSettings) (i : Fin maxClients)
    (ready : Readiness) (nowMs : Int64) : Prog Coordinator Unit := do
  let client ← getClient i
  let store ← getStore
  if client.fd < 0 then return ()
  -- Expire before reading: late bytes cannot revive an expired identity.
  else if (workerFind store.workers client.workerId).any
      (workerTimedOut · nowMs settings.timeoutMs) then
    closeClient i .heartbeatTimeout
  else if ready.invalid then closeClient i .invalidDescriptor
  else do
    let reaction ← transfer settings i ready nowMs
    reaction.run i
    closeStalled i nowMs

/-- The loop over the given connections; the last clock reading, or none if
the clock failed. -/
def serveClients (settings : LoopSettings)
    (ready : Fin maxClients → Readiness) (nowMs : Int64) :
    List (Fin maxClients) → Prog Coordinator (Option Int64)
  | [] => return some nowMs
  | i :: slots => do
      let store ← getStore
      if store.failure != .none then return some nowMs
      else do
        let now ← monotonicMs
        if now < 0 then return none
        else do
          serveClient settings i (ready i) now
          serveClients settings ready now slots

inductive PollReply where
  | ready
  | interrupted
  | failed
deriving DecidableEq, Repr

/-- What the operating system answers during one pass, and how far the
loops get before a signal. -/
structure PassInput where
  poll : PollReply
  ready : Fin maxClients → Readiness
  /-- POLLERR, POLLHUP or POLLNVAL on the listener. -/
  listenerFailed : Bool
  /-- POLLIN on the listener. -/
  listenerReady : Bool
  accepts : List AcceptReply
  served : Nat
  scheduled : Nat
  stopping : Bool

/-- The end of a pass: new connections, then assignments. -/
def finishPass (settings : LoopSettings) (input : PassInput)
    (nowMs : Int64) : Prog Coordinator (Option ExitStatus) := do
  Prog.when input.listenerReady
    (acceptClients nowMs (input.accepts.take maxClients))
  if input.stopping then return none
  else do
    let now ← monotonicMs
    if now < 0 then return some .failure
    else
      match ← scheduleJobs settings.timeoutMs input.scheduled with
      | .success => return none
      | .failure => return some .failure

/-- One pass of the loop of `run_coordinator`; a status ends it. -/
def coordinatorPass (settings : LoopSettings) (input : PassInput) :
    Prog Coordinator (Option ExitStatus) := do
  let now ← monotonicMs
  if now < 0 then return some .failure
  else
    match input.poll with
    | .interrupted => return none
    | .failed => return some .failure
    | .ready => do
        let now ← monotonicMs
        if now < 0 then return some .failure
        else
          match ← serveClients settings input.ready now
              ((List.finRange maxClients).take input.served) with
          | none => return some .failure
          | some now => do
              let store ← getStore
              if store.failure != .none then return some .failure
              else if input.listenerFailed then return some .failure
              else finishPass settings input now

end Faultline
