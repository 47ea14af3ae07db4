/-
The worker (src/worker/main.c): registration, then the loop that receives
assignments, runs them on a second thread and reports.

Programs follow the source's functions. What the environment decides is an
argument: how a wait ends, what `recv` and `send_all` answer, whether the
task has finished, whether a signal has arrived. Deadlines only bound waits,
so they are left to the answers. A returned status ends the process; `none`
goes on. The history is not in the source: it records what has passed
through the connection, and no code depends on it.
-/
import Faultline.Coordinator.Loop

namespace Faultline

open Lib

-- ======================================================== state

/-- `struct execution`: a job id of zero means that no job is held. -/
structure Execution where
  assignment : JobAssignPayload
  threadCreated : Bool
deriving DecidableEq, Repr

/-- Where the process is: before its registration, waiting for the answer, or
in `worker_loop`. -/
inductive WorkerPhase where
  | connected
  | registering
  | working
deriving DecidableEq, Repr

structure WorkerHistory where
  /-- Every byte received by the loop. -/
  arrived : List UInt8 := []
  /-- Whether a job was held, at each complete frame. -/
  busy : List Bool := []
  accepted : List JobAssignPayload := []
  rejected : Bool := false
  /-- Every byte received at all. -/
  received : List UInt8 := []
  /-- Every message sent whole. -/
  sent : List Message := []
  /-- Every byte sent. -/
  handed : List UInt8 := []
deriving DecidableEq, Repr

structure WorkerProcess where
  phase : WorkerPhase
  workerId : UInt32
  intervalMs : Int64
  input : List UInt8
  expected : Nat
  frameStarted : Int64
  nextHeartbeat : Int64
  execution : Execution
  /-- All readings the clock will ever give. -/
  clock : Nat → Int64
  /-- How many of them were taken. -/
  ticks : Nat
  history : WorkerHistory

/-- `{0}`. -/
def noAssignment : JobAssignPayload :=
  { identity := { jobId := 0, workerId := 0, attempt := 0 }
    taskType := 0, arguments := [] }

namespace WorkerProcess

/-- The job held, or zero. -/
def held (w : WorkerProcess) : UInt64 := w.execution.assignment.identity.jobId

/-- The process before it has sent its registration. -/
def start (intervalMs : Int64) (clock : Nat → Int64) : WorkerProcess :=
  { phase := .connected, workerId := 0, intervalMs, input := [],
    expected := headerSize, frameStarted := -1, nextHeartbeat := 0,
    execution := { assignment := noAssignment, threadCreated := false },
    clock, ticks := 0, history := {} }

def get : Prog WorkerProcess WorkerProcess := fun w => .done w w

def modify (update : WorkerProcess → WorkerProcess) :
    Prog WorkerProcess Unit :=
  fun w => .done () (update w)

/-- `faultline_monotonic_ms`; a negative reading is a failure. -/
def monotonicMs : Prog WorkerProcess Int64 :=
  fun w => .done (w.clock w.ticks) { w with ticks := w.ticks + 1 }

end WorkerProcess

open WorkerProcess

-- ====================================================== sending

/-- What `faultline_send_all` does: everything, or some bytes and an
error. -/
inductive SendAll where
  | sent
  | failed (count : Nat)
deriving DecidableEq, Repr

def WorkerProcess.handOver (w : WorkerProcess) (bytes : List UInt8) :
    WorkerProcess :=
  { w with history := { w.history with handed := w.history.handed ++ bytes } }

def WorkerProcess.noteSent (w : WorkerProcess) (message : Message) :
    WorkerProcess :=
  { w with
    history := { w.history with sent := w.history.sent ++ [message] } }

/-- Encode and send a message; whether all of it went out. -/
def sendMessage (message : Message) (answer : SendAll) :
    Prog WorkerProcess Bool :=
  match encodeOutput message with
  | .error _ => return false
  | .ok wire =>
      match answer with
      | .failed count => do
          modify (·.handOver (wire.take count))
          return false
      | .sent => do
          modify (·.handOver wire)
          modify (·.noteSent message)
          return true

-- ======================================================== tasks

/-- `enum faultline_task_status`, of a task that has ended. -/
inductive TaskStatus where
  | ok
  | invalidArgument
  | cancelled
  | systemError
deriving DecidableEq, Repr

structure TaskOutcome where
  status : TaskStatus
  result : List UInt8
deriving DecidableEq, Repr

/-- The report on an ended task. -/
def taskReport (identity : JobIdentity) (outcome : TaskOutcome) : Message :=
  if outcome.status == .ok then
    .jobCompleted { identity, result := outcome.result }
  else .jobFailed { identity, failure := JobFailure.task.code }

def reportExecution (outcome : TaskOutcome) (answer : SendAll) :
    Prog WorkerProcess Bool := do
  let w ← get
  sendMessage (taskReport w.execution.assignment.identity outcome) answer

/-- `job_id = 0`. -/
def WorkerProcess.release (w : WorkerProcess) : WorkerProcess :=
  { w with
    execution := { w.execution with
      assignment := { w.execution.assignment with
        identity := { w.execution.assignment.identity with jobId := 0 } } } }

def WorkerProcess.setThread (w : WorkerProcess) (threadCreated : Bool) :
    WorkerProcess :=
  { w with execution := { w.execution with threadCreated } }

/-- Report, and give the job up once the whole report was sent. -/
def reportAndRelease (outcome : TaskOutcome) (answer : SendAll) :
    Prog WorkerProcess (Option ExitStatus) := do
  if ← reportExecution outcome answer then do
    modify (·.release)
    return none
  else return some .failure

/-- The end of a task, as the loop finds it. -/
structure TaskEnd where
  joinFails : Bool
  stopping : Bool
  outcome : TaskOutcome
  answer : SendAll
deriving DecidableEq, Repr

/-- The task thread has ended: join it, report, release. -/
def finishTask (ending : TaskEnd) : Prog WorkerProcess (Option ExitStatus) :=
  if ending.joinFails then return some .failure
  else do
    modify (·.setThread false)
    if ending.stopping then return some .success
    else reportAndRelease ending.outcome ending.answer

/-- What `start_execution` does. -/
inductive TaskStart where
  | started
  /-- The mask could not be restored. -/
  | startedFailed
  | failed
deriving DecidableEq, Repr

-- ==================================================== receiving

/-- What the loop does with what it has of an assignment. -/
inductive AssignmentStep where
  | wait
  | need (expected : Nat)
  | reject
  | accept (assignment : JobAssignPayload)
deriving DecidableEq, Repr

/-- The first bytes of every frame. -/
def framePrefix : List UInt8 := [0x46, 0x4c, 0x49, 0x4e, 0, 1]

/-- `memcmp(input, prefix, prefix_size) == 0`. -/
def prefixMatches (input : List UInt8) : Bool :=
  input.take framePrefix.length == framePrefix.take input.length

/-- The check of an assignment's header. -/
def assignmentHeader (header : ProtocolHeader) : Bool :=
  header.messageType == MessageType.jobAssign.code
    && MessageType.jobAssign.minimum ≤ header.payloadLength.toNat
    && header.payloadLength.toNat ≤ messageMaxFrameSize - headerSize

/-- The check of a complete frame. -/
def acceptAssignment (workerId : UInt32) (busy : Bool) (input : List UInt8) :
    Option JobAssignPayload :=
  match messageDecode input with
  | .ok (.jobAssign assignment, _) =>
      if assignment.identity.workerId != workerId || busy then none
      else some assignment
  | _ => none

def inspectAssignment (workerId : UInt32) (busy : Bool) (expected : Nat)
    (input : List UInt8) : AssignmentStep :=
  if !prefixMatches input then .reject
  else if input.length < expected then .wait
  else if input.length = headerSize then
    match headerDecode input with
    | .error _ => .reject
    | .ok header =>
        if assignmentHeader header then
          .need (headerSize + header.payloadLength.toNat)
        else .reject
  else
    match acceptAssignment workerId busy input with
    | none => .reject
    | some assignment => .accept assignment

namespace WorkerProcess

/-- Bytes from `recv`. -/
def receive (w : WorkerProcess) (chunk : List UInt8) (nowMs : Int64) :
    WorkerProcess :=
  { w with
    input := w.input ++ chunk
    frameStarted := if w.input.isEmpty then nowMs else w.frameStarted
    history := { w.history with
      arrived := w.history.arrived ++ chunk
      received := w.history.received ++ chunk } }

/-- A complete frame is about to be decoded. -/
def noteBusy (w : WorkerProcess) : WorkerProcess :=
  { w with
    history := { w.history with busy := w.history.busy ++ [w.held != 0] } }

def noteReject (w : WorkerProcess) : WorkerProcess :=
  { w with history := { w.history with rejected := true } }

/-- `execution->assignment = message.payload.job_assign`. -/
def hold (w : WorkerProcess) (assignment : JobAssignPayload) :
    WorkerProcess :=
  { w with
    execution := { w.execution with assignment }
    history := { w.history with
      accepted := w.history.accepted ++ [assignment] } }

/-- Ready for the next frame. -/
def resetInput (w : WorkerProcess) : WorkerProcess :=
  { w with input := [], expected := headerSize, frameStarted := -1 }

end WorkerProcess

/-- How a new assignment gets started. -/
structure AssignmentStart where
  stopping : Bool
  /-- For the JOB_STARTED. -/
  answer : SendAll
  start : TaskStart
  /-- For the report, if no thread could be made. -/
  failedAnswer : SendAll
deriving DecidableEq, Repr

/-- An assignment was accepted: announce it and start the task. -/
def beginAssignment (assignment : JobAssignPayload)
    (startup : AssignmentStart) : Prog WorkerProcess (Option ExitStatus) := do
  modify (·.hold assignment)
  if startup.stopping then return some .success
  else if ← sendMessage (.jobStarted assignment.identity) startup.answer then
    match startup.start with
    | .startedFailed => do
        modify (·.setThread true)
        return some .failure
    | .started => do
        modify (·.setThread true)
        modify (·.resetInput)
        return none
    | .failed => do
        match ← reportAndRelease { status := .systemError, result := [] }
            startup.failedAnswer with
        | some status => return some status
        | none => do
            modify (·.resetInput)
            return none
  else return some .failure

/-- Bytes have arrived. -/
def handleChunk (chunk : List UInt8) (startup : AssignmentStart)
    (nowMs : Int64) : Prog WorkerProcess (Option ExitStatus) := do
  modify (·.receive chunk nowMs)
  let w ← get
  Prog.when (prefixMatches w.input && w.expected ≤ w.input.length
    && w.input.length != headerSize) (modify (·.noteBusy))
  match inspectAssignment w.workerId (w.held != 0) w.expected w.input with
  | .wait => return none
  | .need expected => do
      modify fun w => { w with expected }
      return none
  | .reject => do
      modify (·.noteReject)
      return some .failure
  | .accept assignment => beginAssignment assignment startup

-- ===================================================== the loop

/-- What `wait_for_input` answers. -/
inductive WaitResult where
  | error
  | stop
  | input
  | deadline
deriving DecidableEq, Repr

/-- What one pass through the loop meets. -/
structure IterationInput where
  /-- The task thread's end, if it is there. -/
  ending : Option TaskEnd
  wait : WaitResult
  /-- For a heartbeat. -/
  answer : SendAll
  recv : RecvReply
  startup : AssignmentStart
deriving DecidableEq, Repr

/-- The part of a pass behind the heartbeat. -/
def receiveAssignment (input : IterationInput) (nowMs : Int64) :
    Prog WorkerProcess (Option ExitStatus) :=
  if input.wait != .input then return none
  else
    match input.recv with
    | .again => return none
    | .eof => return some .failure
    | .failed => return some .failure
    | .data chunk => handleChunk chunk input.startup nowMs

/-- Send a heartbeat. -/
def heartbeat (answer : SendAll) : Prog WorkerProcess (Option ExitStatus) := do
  let w ← get
  if ← sendMessage (.heartbeat w.workerId) answer then do
    let now ← monotonicMs
    if now < 0 then return some .failure
    else do
      modify fun w => { w with nextHeartbeat := now + w.intervalMs }
      return none
  else return some .failure

/-- The part of a pass behind the task: wait, keep the heartbeat, receive. -/
def waitAndReceive (input : IterationInput) :
    Prog WorkerProcess (Option ExitStatus) := do
  let now ← monotonicMs
  if now < 0 then return some .failure
  else
    match input.wait with
    | .stop => return some .success
    | .error => return some .failure
    | _ => do
        let now ← monotonicMs
        let w ← get
        if now < 0 then return some .failure
        else if 0 ≤ w.frameStarted && now - w.frameStarted ≥ ioTimeoutMs then
          return some .failure
        else if now ≥ w.nextHeartbeat then heartbeat input.answer
        else receiveAssignment input now

/-- One pass through the loop of `worker_loop`. -/
def workerIteration (input : IterationInput) :
    Prog WorkerProcess (Option ExitStatus) := do
  let w ← get
  match w.execution.threadCreated, input.ending with
  | true, some ending => do
      match ← finishTask ending with
      | some status => return some status
      | none => waitAndReceive input
  | _, _ => waitAndReceive input

-- ================================================= registration

/-- The check of an acknowledgement's header. -/
def ackHeader (header : ProtocolHeader) : Bool :=
  header.messageType == MessageType.workerRegisterAck.code
    && header.payloadLength.toNat == MessageType.workerRegisterAck.minimum

/-- The worker id of a complete acknowledgement. -/
def acceptAck (input : List UInt8) : Option UInt32 :=
  match messageDecode input with
  | .ok (.workerRegisterAck workerId, _) => some workerId
  | _ => none

namespace WorkerProcess

def receiveAck (w : WorkerProcess) (chunk : List UInt8) : WorkerProcess :=
  { w with
    input := w.input ++ chunk
    history := { w.history with received := w.history.received ++ chunk } }

/-- `worker_loop` begins. -/
def work (w : WorkerProcess) (workerId : UInt32) (nowMs : Int64) :
    WorkerProcess :=
  { w with
    phase := .working, workerId, input := [], expected := headerSize
    frameStarted := -1, nextHeartbeat := nowMs + w.intervalMs }

end WorkerProcess

/-- The acknowledgement is complete. -/
def finishRegistration (input : List UInt8) :
    Prog WorkerProcess (Option ExitStatus) :=
  match acceptAck input with
  | none => return some .failure
  | some workerId => do
      let now ← monotonicMs
      if now < 0 then return some .failure
      else do
        modify (·.work workerId now)
        return none

/-- One pass through the loop of `receive_registration_ack`. -/
def receiveRegistrationAck (reply : RecvReply) :
    Prog WorkerProcess (Option ExitStatus) :=
  match reply with
  | .again => return none
  | .eof => return some .failure
  | .failed => return some .failure
  | .data chunk => do
      modify (·.receiveAck chunk)
      let w ← get
      if w.input.length = headerSize then
        match headerDecode w.input with
        | .error _ => return some .failure
        | .ok header =>
            if ackHeader header then do
              modify fun w => { w with
                expected := headerSize
                  + MessageType.workerRegisterAck.minimum }
              return none
            else return some .failure
      else if w.input.length < w.expected then return none
      else finishRegistration w.input

/-- The registration is sent first. -/
def sendRegistration (answer : SendAll) :
    Prog WorkerProcess (Option ExitStatus) := do
  if ← sendMessage (.workerRegister 0) answer then do
    modify fun w => { w with phase := .registering }
    return none
  else return some .failure

end Faultline
