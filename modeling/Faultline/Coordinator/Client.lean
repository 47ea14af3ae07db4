/-
A connection of the coordinator (`struct client`, src/coordinator/main.c)
and the part of `read_message` and `write_reply` that concerns one
connection only.

The two buffers hold the bytes in use: `received` is the length of `input`
and `output_size` the length of `output`. What lies behind them in the
source's arrays is never read. The history is not in the source: it records
what has passed through the connection, and no code depends on it.
-/
import Faultline.Protocol.Codec

namespace Faultline

abbrev maxClients : Nat := 64

/-- `CLIENT_FRAME_CAPACITY`. -/
def clientFrameCapacity : Nat := messageMaxFrameSize

/-- `FAULTLINE_IO_TIMEOUT_MS`. -/
def ioTimeoutMs : Int64 := 5000

inductive ClientPhase where
  | readingMessage
  | writingReply
deriving DecidableEq, Repr

/-- The reasons given to `close_client`. -/
inductive CloseReason where
  | encodeError
  | clockError
  | jobClientCannotRegister
  | registrationRejected
  | heartbeatIdentityMismatch
  | heartbeatRejected
  | workerCannotSubmit
  | submissionRejected
  | invalidJobReport
  | statsSnapshotError
  | unexpectedMessage
  | eof
  | truncatedMessage
  | recvError
  | invalidHeader
  | unsupportedPayload
  | invalidMessage
  | sendError
  | sendClosed
  | heartbeatTimeout
  | invalidDescriptor
  | ioTimeout
deriving DecidableEq, Repr

-- ======================================================== roles

/-- What a connection has become: a job client, a worker, or neither
yet. -/
structure Role where
  jobClient : Bool
  worker : Bool
deriving DecidableEq, Repr

/-- `allowed` in `read_message`. -/
def Role.allows (role : Role) (messageType : UInt16) : Bool :=
  messageType == MessageType.ping.code
    || (messageType == MessageType.workerRegister.code && !role.jobClient)
    || ((messageType == MessageType.jobSubmit.code
        || messageType == MessageType.jobStatusRequest.code
        || messageType == MessageType.jobsRequest.code
        || messageType == MessageType.workersRequest.code
        || messageType == MessageType.statsRequest.code) && !role.worker)
    || ((messageType == MessageType.heartbeat.code
        || messageType == MessageType.jobStarted.code
        || messageType == MessageType.jobCompleted.code
        || messageType == MessageType.jobFailed.code) && role.worker)

-- ====================================================== clients

structure ClientHistory where
  /-- Every byte received. -/
  arrived : List UInt8 := []
  /-- The role at each header check. -/
  roles : List Role := []
  /-- Every message given to `handle_message`. -/
  delivered : List Message := []
  /-- Every message given to `queue_message`. -/
  queued : List Message := []
  /-- Every byte `send` has taken. -/
  handed : List UInt8 := []
  closing : Option CloseReason := none
deriving DecidableEq, Repr

structure Client where
  fd : Int
  phase : ClientPhase
  workerId : UInt32
  jobClient : Bool
  input : List UInt8
  expected : Nat
  output : List UInt8
  sent : Nat
  lastProgressMs : Int64
  history : ClientHistory
deriving DecidableEq, Repr

namespace Client

/-- `{.fd = -1}`. -/
def vacant : Client :=
  { fd := -1, phase := .readingMessage, workerId := 0, jobClient := false,
    input := [], expected := 0, output := [], sent := 0, lastProgressMs := 0,
    history := {} }

/-- A connection that was just accepted. -/
def accepted (fd : Int) (nowMs : Int64) : Client :=
  { vacant with fd, expected := headerSize, lastProgressMs := nowMs }

def role (client : Client) : Role :=
  { jobClient := client.jobClient, worker := client.workerId != 0 }

/-- `reset_input`. -/
def resetInput (client : Client) : Client :=
  { client with
    input := [], expected := headerSize, phase := .readingMessage }

/-- The end of `close_client`. -/
def closed (client : Client) (reason : CloseReason) : Client :=
  { client with
    fd := -1
    workerId := 0
    history := { client.history with closing := some reason } }

-- ====================================================== reading

/-- Bytes from `recv`. -/
def receive (client : Client) (chunk : List UInt8) (nowMs : Int64) : Client :=
  { client with
    input := client.input ++ chunk
    lastProgressMs := nowMs
    history := { client.history with
      arrived := client.history.arrived ++ chunk } }

/-- The header check is about to be made. -/
def checking (client : Client) : Client :=
  { client with
    history := { client.history with
      roles := client.history.roles ++ [client.role] } }

def deliver (client : Client) (message : Message) : Client :=
  { client with
    history := { client.history with
      delivered := client.history.delivered ++ [message] } }

end Client

/-- What `read_message` does with the bytes it asked for: ask for more,
close, or hand a message on. -/
inductive InputStep where
  | need (expected : Nat)
  | reject (reason : CloseReason)
  | deliver (message : Message)
deriving DecidableEq, Repr

/-- The decoding stage. -/
def decodeInput (input : List UInt8) : InputStep :=
  match messageDecode input with
  | .error .bufferTooSmall =>
      match headerDecode input with
      | .error _ => .reject .unsupportedPayload
      | .ok header =>
          if header.payloadLength.toNat > clientFrameCapacity - headerSize then
            .reject .unsupportedPayload
          else .need (headerSize + header.payloadLength.toNat)
  | .error _ => .reject .invalidMessage
  | .ok (message, _) => .deliver message

/-- A complete header is checked before anything is decoded. -/
def inspectInput (role : Role) (input : List UInt8) : InputStep :=
  if input.length = headerSize then
    match headerDecode input with
    | .error _ => .reject .invalidHeader
    | .ok header =>
        if !role.allows header.messageType then .reject .unexpectedMessage
        else decodeInput input
  else decodeInput input

-- ====================================================== writing

/-- What `faultline_message_encode` leaves in an output buffer. -/
def encodeOutput (message : Message) : Except ProtocolError (List UInt8) :=
  match messageEncode (List.replicate clientFrameCapacity 0) message with
  | .error e => .error e
  | .ok (wire, written) => .ok (wire.take written)

namespace Client

/-- A message is about to be encoded. -/
def queueing (client : Client) (message : Message) : Client :=
  { client with
    history := { client.history with
      queued := client.history.queued ++ [message] } }

/-- `queue_message`, once the message is encoded and the clock read. -/
def startReply (client : Client) (nowMs : Int64) : Client :=
  { client with sent := 0, lastProgressMs := nowMs, phase := .writingReply }

/-- Bytes taken by `send`; a reply that is out makes room for the next
message. -/
def advance (client : Client) (count : Nat) (nowMs : Int64) : Client :=
  let moved : Client :=
    { client with
      sent := client.sent + count
      lastProgressMs := nowMs
      history := { client.history with
        handed := client.history.handed
          ++ (client.output.drop client.sent).take count } }
  if moved.sent == moved.output.length then moved.resetInput else moved

end Client

end Faultline
