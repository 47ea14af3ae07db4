/-
The command line (src/cli/main.c): one request, one reply, and what is printed.

Arguments are read first, and may only fault where the source has no defined
behaviour; what is left is a program over the socket. Replies are received in
stages that share a deadline (`receive_query`, `receive_submit_ack`).
-/
import Faultline.Cli.Printing
import Faultline.Cli.Query
import Faultline.Net

namespace Faultline.Cli

open Lib

/-- What the commands find around them. -/
structure Env where
  /-- What the system takes for a numeric address. -/
  inetPton : List UInt8 → Bool
  sigpipeFails : Bool
  replies : SocketReplies
  flushFails : Bool
  /-- `"%.3f"`, see `printStats`. -/
  rate : UInt64 → UInt64 → List UInt8

/-- A line on stderr; `perror` adds the error's text. -/
inductive Complaint where
  | usage
  | perror (what : List UInt8)
  | line (text : List UInt8)
deriving DecidableEq, Repr

structure Exit where
  stdout : List UInt8
  stderr : List Complaint
  status : Nat
deriving DecidableEq, Repr

/-- `EXIT_FAILURE`. -/
def failure (stderr : List Complaint) : Exit :=
  { stdout := [], stderr, status := 1 }

/-- `EXIT_FAILURE` after one line. -/
def complain (text : String) : Exit := failure [.line (ascii text)]

/-- `EXIT_SUCCESS`. -/
def success (stdout : List UInt8) : Exit :=
  { stdout, stderr := [], status := 0 }

def usageText : List UInt8 :=
  ascii "Usage: faultline ping [--coordinator IPv4:PORT]\n"
    ++ ascii "       faultline submit TASK [--args TEXT | --args-hex HEX]\n"
    ++ ascii "                        [--max-retries N] [--coordinator IPv4:PORT]\n"
    ++ ascii "       faultline status ID [--coordinator IPv4:PORT]\n"
    ++ ascii "       faultline jobs [--coordinator IPv4:PORT]\n"
    ++ ascii "       faultline workers [--coordinator IPv4:PORT]\n"
    ++ ascii "       faultline stats [--coordinator IPv4:PORT]\n"
    ++ ascii "Tasks: sleep, prime_count, fibonacci, hash. Arguments: at most 1024 bytes.\n"
    ++ ascii "sleep: milliseconds 0..86400000; prime_count: inclusive bound 0..100000000.\n"
    ++ ascii "fibonacci: index 0..93; hash: raw bytes, FNV-1a 64-bit checksum.\n"
    ++ ascii "Numeric arguments must be decimal digits. Workers validate task inputs.\n"
    ++ ascii "Submission prints a job ID; status displays its state and saved result.\n"
    ++ ascii "Status ID: decimal 1..18446744073709551615. Exit: 0 found, 2 not found, 1 error.\n"
    ++ ascii "Default coordinator: 127.0.0.1:9000; max retries: 0.\n"

/-- `FAULTLINE_IO_TIMEOUT_MS`, as an `int`. -/
def ioTimeout : Int32 := 5000

-- ==================================================== arguments

def defaultEndpoint : Endpoint := ⟨defaultHost, defaultPort⟩

/-- The arguments behind a command that takes `--coordinator` only. -/
def coordinatorOption (env : Env) :
    List (List UInt8) → Except Fault (Option Endpoint)
  | [] => .ok (some defaultEndpoint)
  | [name, text] =>
      if name != ascii "--coordinator" then .ok none
      else
        match parseEndpoint env.inetPton text defaultEndpoint with
        | .error fault => .error fault
        | .ok (parsed, endpoint) => .ok (if parsed then some endpoint else none)
  | _ => .ok none

def hexDigit (byte : UInt8) : Option Nat :=
  if byte ≥ 48 && byte ≤ 57 then some (byte.toNat - 48)
  else if byte ≥ 97 && byte ≤ 102 then some (byte.toNat - 97 + 10)
  else if byte ≥ 65 && byte ≤ 70 then some (byte.toNat - 65 + 10)
  else none

/-- The loop over the digits of `--args-hex`, whose number is even. -/
def hexArguments : List UInt8 → Option (List UInt8)
  | high :: low :: rest => do
      let high ← hexDigit high
      let low ← hexDigit low
      let bytes ← hexArguments rest
      return .ofNat (high * 16 + low) :: bytes
  | _ => some []

/-- What the options of a submission have set, and which were seen. -/
structure SubmitOptions where
  endpoint : Endpoint := defaultEndpoint
  retries : Nat := 0
  arguments : List UInt8 := []
  argumentsSeen : Bool := false
  retriesSeen : Bool := false
  endpointSeen : Bool := false
deriving DecidableEq, Repr

/-- One option of a submission; `none` is a usage error. -/
def submitOption (env : Env) (options : SubmitOptions)
    (name value : List UInt8) : Except Fault (Option SubmitOptions) :=
  if name == ascii "--coordinator" && !options.endpointSeen then
    match parseEndpoint env.inetPton value options.endpoint with
    | .error fault => .error fault
    | .ok (false, _) => .ok none
    | .ok (true, endpoint) =>
        .ok (some { options with endpoint, endpointSeen := true })
  else if name == ascii "--max-retries" && !options.retriesSeen then
    match parseRetries value options.retries with
    | .error fault => .error fault
    | .ok (false, _) => .ok none
    | .ok (true, retries) =>
        .ok (some { options with retries, retriesSeen := true })
  else if name == ascii "--args" && !options.argumentsSeen
      && value.length ≤ jobMaxArgumentSize then
    .ok (some { options with arguments := value, argumentsSeen := true })
  else if name == ascii "--args-hex" && !options.argumentsSeen
      && value.length ≤ 2 * jobMaxArgumentSize && value.length % 2 == 0 then
    .ok ((hexArguments value).map fun arguments =>
      { options with arguments, argumentsSeen := true })
  else .ok none

/-- The loop over the options, two arguments at a time. -/
def submitOptions (env : Env) (options : SubmitOptions) :
    List (List UInt8) → Except Fault (Option SubmitOptions)
  | [] => .ok (some options)
  | [_] => .ok none
  | name :: value :: rest =>
      match submitOption env options name value with
      | .error fault => .error fault
      | .ok none => .ok none
      | .ok (some options) => submitOptions env options rest

/-- `tasks`, in the order of the types. -/
def tasks : List (List UInt8) :=
  [ascii "sleep", ascii "prime_count", ascii "fibonacci", ascii "hash"]

/-- The loop over `tasks`: the type of the last match, or zero. -/
def taskType (name : List UInt8) : UInt16 :=
  (tasks.zipIdx 1).foldl
    (fun found entry => if name == entry.1 then .ofNat entry.2 else found) 0

-- ===================================================== sessions

/-- Encode into a buffer. -/
def encodeInto (size : Nat) (message : Message) :
    Except ProtocolError (List UInt8) :=
  match messageEncode (List.replicate size 0) message with
  | .error e => .error e
  | .ok (wire, written) => .ok (wire.take written)

/-- Connect, do something, close. -/
def session (env : Env) (endpoint : Endpoint)
    (body : Nat → Prog Socket Exit) : Prog Socket Exit :=
  if env.sigpipeFails then
    return failure [.perror (ascii "faultline: configure SIGPIPE")]
  else do
    match ← connectTo env.inetPton endpoint ioTimeout env.replies with
    | .error _ => return failure [.perror (ascii "faultline: connect")]
    | .ok fd => do
        let exit ← body fd
        closeSocket fd
        return exit

-- ========================================================= ping

def pingHeader : ProtocolHeader :=
  { magic := protocolMagic, version := protocolVersion,
    messageType := MessageType.ping.code, payloadLength := 0 }

/-- The number in `enum faultline_protocol_result`, where OK is zero. -/
def protocolErrorCode (e : ProtocolError) : Nat := e.ctorIdx + 1

def protocolErrorText (e : ProtocolError) : List UInt8 :=
  ascii " (protocol error " ++ printfUnsigned (protocolErrorCode e)
    ++ ascii ")"

/-- What becomes of the header of a reply to a ping. -/
def acceptPong (wire : List UInt8) : Exit :=
  match headerDecode wire with
  | .error e => failure
      [.line (ascii "faultline: invalid PONG header" ++ protocolErrorText e)]
  | .ok header =>
      if header.messageType != MessageType.pong.code
          || header.payloadLength != 0 then
        complain "faultline: expected PONG with an empty payload"
      else success (ascii "PONG\n")

def pingBody (fd : Nat) : Prog Socket Exit :=
  match headerEncode (List.replicate headerSize 0) pingHeader with
  | .error e =>
      return failure
        [.line (ascii "faultline: encode PING failed" ++ protocolErrorText e)]
  | .ok wire => do
      match ← sendAll fd wire ioTimeout with
      | .error _ => return failure [.perror (ascii "faultline: send PING")]
      | .ok () => do
          match ← recvExact fd headerSize ioTimeout with
          | (.ok, wire) => return acceptPong wire
          | (.eof, _) =>
              return complain "faultline: coordinator closed before PONG"
          | (.truncated, _) =>
              return complain "faultline: coordinator closed during PONG"
          | (.error _, _) =>
              return failure [.perror (ascii "faultline: receive PONG")]

def usageError : Prog Socket Exit := return failure [.usage]

/-- `run_ping`, which also prints the help. -/
def runPing (env : Env) (argv : List (List UInt8)) :
    Except Fault (Prog Socket Exit) :=
  match argv with
  | _ :: command :: options =>
      if options.isEmpty && command == ascii "--help" then
        .ok (return success usageText)
      else if command != ascii "ping" then .ok usageError
      else
        match coordinatorOption env options with
        | .error fault => .error fault
        | .ok none => .ok usageError
        | .ok (some endpoint) => .ok (session env endpoint pingBody)
  | _ => .ok usageError

-- ======================================================= submit

/-- The check of an acknowledgement's header. -/
def submitAckHeader (wire : List UInt8) : Bool :=
  match headerDecode wire with
  | .error _ => false
  | .ok header => header.messageType == MessageType.jobSubmitAck.code
      && header.payloadLength.toNat == MessageType.jobSubmitAck.minimum

def refuse (text : String) : Except (List Complaint) UInt64 :=
  .error [.line (ascii text)]

/-- The job id of a complete acknowledgement. -/
def acceptSubmitAck (wire : List UInt8) : Except (List Complaint) UInt64 :=
  match messageDecode wire with
  | .ok (.jobSubmitAck jobId, _) => .ok jobId
  | _ => refuse "faultline: invalid submission ACK payload"

/-- What is left of the shared deadline. -/
def remaining (start now : Int64) : Int32 :=
  ioTimeout - (now - start).toInt32

def receiveSubmitAck (fd : Nat) :
    Prog Socket (Except (List Complaint) UInt64) := do
  let start ← Socket.monotonicMs
  if start < 0 then return .error []
  else
    match ← recvExact fd headerSize ioTimeout with
    | (.ok, wire) =>
        if submitAckHeader wire then do
          let now ← Socket.monotonicMs
          let incomplete :=
            refuse "faultline: failed to receive submission ACK payload"
          if now < 0 || now - start ≥ ioTimeoutMs then return incomplete
          else
            match ← recvExact fd MessageType.jobSubmitAck.minimum
                (remaining start now) with
            | (.ok, payload) => return acceptSubmitAck (wire ++ payload)
            | _ => return incomplete
        else
          return refuse
            "faultline: expected submission ACK with an 8-byte job ID"
    | _ =>
        return refuse "faultline: failed to receive submission ACK header"

/-- The last line of a submission that did not end well. -/
def unconfirmed : Complaint :=
  .line (ascii "faultline: submission unconfirmed; the coordinator may already "
    ++ ascii "have accepted it")

def submitBody (wire : List UInt8) (fd : Nat) : Prog Socket Exit := do
  match ← sendAll fd wire ioTimeout with
  | .error _ =>
      return failure
        [.perror (ascii "faultline: send submission"), unconfirmed]
  | .ok () => do
      match ← receiveSubmitAck fd with
      | .error complaints => return failure (complaints ++ [unconfirmed])
      | .ok jobId =>
          return success
            (ascii "job_id=" ++ printfUnsigned jobId.toNat ++ ascii "\n")

/-- The request of a submission. -/
def submitRequest (task : List UInt8) (options : SubmitOptions) : Message :=
  .jobSubmit
    { taskType := taskType task, maxRetries := .ofNat options.retries
      arguments := options.arguments }

def runSubmit (env : Env) (argv : List (List UInt8)) :
    Except Fault (Prog Socket Exit) :=
  match argv with
  | _ :: _ :: task :: options =>
      if taskType task == 0 then .ok usageError
      else
        match submitOptions env {} options with
        | .error fault => .error fault
        | .ok none => .ok usageError
        | .ok (some options) =>
            match encodeInto messageMaxFrameSize
                (submitRequest task options) with
            | .error _ =>
                .ok (return complain "faultline: could not encode submission")
            | .ok wire => .ok (session env options.endpoint (submitBody wire))
  | _ => .ok usageError

-- ====================================================== queries

/-- Why a query has no reply: the clock fails, or what arrives is refused. -/
inductive QueryFailure where
  | clock
  | refused (e : QueryError)
deriving DecidableEq, Repr

/-- `receive_query_bytes`: the bytes, if they arrive before the deadline. -/
def receiveQueryBytes (fd : Nat) (size : Nat) (start : Int64) :
    Prog Socket (Option (List UInt8)) := do
  let now ← Socket.monotonicMs
  if now < 0 || now - start ≥ ioTimeoutMs then return none
  else
    match ← recvExact fd size (remaining start now) with
    | (.ok, bytes) => return some bytes
    | _ => return none

/-- The fixed part is there: decode, and only if that is too little receive the
rest and decode again. -/
def decodeQuery (fd rest : Nat) (start : Int64) (wire : List UInt8) :
    Prog Socket (Except QueryFailure Message) := do
  if messageDecode wire = .error .bufferTooSmall then
    match ← receiveQueryBytes fd rest start with
    | none => return .error (.refused .incomplete)
    | some bytes =>
        let wire := wire ++ bytes
        return (acceptQuery (messageDecode wire) wire.length).mapError .refused
  else return (acceptQuery (messageDecode wire) wire.length).mapError .refused

/-- The header is there. -/
def receiveQueryPayload (fd : Nat) (expectedType : UInt16) (start : Int64)
    (wire : List UInt8) : Prog Socket (Except QueryFailure Message) :=
  match headerDecode wire with
  | .error _ => return .error (.refused .invalidHeader)
  | .ok header =>
      let bounds := queryBounds header.messageType
      if !queryExpects expectedType header.messageType then
        return .error (.refused .unexpectedType)
      else if header.payloadLength.toNat < bounds.1
          || header.payloadLength.toNat > bounds.2 then
        return .error (.refused .invalidLength)
      else do
        match ← receiveQueryBytes fd bounds.1 start with
        | none => return .error (.refused .incomplete)
        | some fixed =>
            decodeQuery fd (header.payloadLength.toNat - bounds.1) start
              (wire ++ fixed)

/-- `receive_query`. -/
def receiveQuery (fd : Nat) (expectedType : UInt16) :
    Prog Socket (Except QueryFailure Message) := do
  let start ← Socket.monotonicMs
  if start < 0 then return .error .clock
  else
    match ← receiveQueryBytes fd headerSize start with
    | none => return .error (.refused .incomplete)
    | some wire => receiveQueryPayload fd expectedType start wire

/-- What `receive_query` says about a query called `name`. -/
def QueryFailure.complaint (name : List UInt8) : QueryFailure → Complaint
  | .clock => .perror (ascii "faultline: clock")
  | .refused .incomplete => .line (ascii "faultline: " ++ name
      ++ ascii " response incomplete (connection closed, timed out, or read failed)")
  | .refused .invalidHeader => .line (ascii "faultline: invalid " ++ name
      ++ ascii " response header")
  | .refused .unexpectedType => .line (ascii "faultline: unexpected " ++ name
      ++ ascii " response type")
  | .refused .invalidLength => .line (ascii "faultline: invalid " ++ name
      ++ ascii " response length")
  | .refused .invalidPayload => .line (ascii "faultline: invalid " ++ name
      ++ ascii " response payload")

/-- The end of the printing functions. -/
def flushed (env : Env) (stdout what : List UInt8) : Exit :=
  if env.flushFails then
    { stdout, stderr := [.perror what], status := 1 }
  else success stdout

-- ======================================================= status

/-- What `run_status` makes of a reply. -/
def acceptStatus (env : Env) (jobId : UInt64) (reply : Message) : Exit :=
  let mismatch :=
    complain "faultline: status response job ID does not match request"
  match reply with
  | .jobStatusNotFound echoed =>
      if echoed != jobId then mismatch
      else
        { stdout := []
          stderr := [.line (ascii "faultline: job "
            ++ printfUnsigned echoed.toNat ++ ascii " not found")]
          status := 2 }
  | .jobStatusResponse snapshot =>
      if snapshot.jobId != jobId then mismatch
      else flushed env (printStatus snapshot) (ascii "faultline: write status")
  | _ => mismatch

def statusBody (env : Env) (jobId : UInt64) (wire : List UInt8) (fd : Nat) :
    Prog Socket Exit := do
  match ← sendAll fd wire ioTimeout with
  | .error _ =>
      return failure [.perror (ascii "faultline: send status request")]
  | .ok () => do
      match ← receiveQuery fd MessageType.jobStatusResponse.code with
      | .error e => return failure [e.complaint (ascii "status")]
      | .ok reply => return acceptStatus env jobId reply

def runStatus (env : Env) (argv : List (List UInt8)) :
    Except Fault (Prog Socket Exit) :=
  match argv with
  | _ :: _ :: id :: options =>
      match parseJobId id 0 with
      | .error fault => .error fault
      | .ok (false, _) => .ok usageError
      | .ok (true, jobId) =>
          match coordinatorOption env options with
          | .error fault => .error fault
          | .ok none => .ok usageError
          | .ok (some endpoint) =>
              let request := Message.jobStatusRequest (.ofNat jobId)
              match encodeInto
                  (headerSize + MessageType.jobStatusRequest.minimum)
                  request with
              | .error _ =>
                  .ok (pure (complain
                    "faultline: could not encode status request"))
              | .ok wire => .ok (session env endpoint
                  (statusBody env (.ofNat jobId) wire))
  | _ => .ok usageError

-- =================================================== inspection

/-- The three inspections. -/
inductive Inspection where
  | jobs
  | workers
  | stats
deriving DecidableEq, Repr

def Inspection.name : Inspection → List UInt8
  | .jobs => ascii "jobs"
  | .workers => ascii "workers"
  | .stats => ascii "stats"

def Inspection.request : Inspection → Message
  | .jobs => .jobsRequest 0
  | .workers => .workersRequest 0
  | .stats => .statsRequest 0

def Inspection.response : Inspection → MessageType
  | .jobs => .jobsResponse
  | .workers => .workersResponse
  | .stats => .statsResponse

/-- `print_listing` and `print_stats`. -/
def printInspection (env : Env) : Message → Exit
  | .jobsResponse entries =>
      flushed env (printJobs entries) (ascii "faultline: write listing")
  | .workersResponse list =>
      flushed env (printWorkers list) (ascii "faultline: write listing")
  | .statsResponse stats =>
      flushed env (printStats env.rate stats) (ascii "faultline: write stats")
  -- `receive_query` has checked the type
  | _ => failure []

def inspectionBody (env : Env) (inspection : Inspection) (wire : List UInt8)
    (fd : Nat) : Prog Socket Exit := do
  match ← sendAll fd wire ioTimeout with
  | .error _ =>
      return failure [.perror (ascii "faultline: send inspection request")]
  | .ok () => do
      match ← receiveQuery fd inspection.response.code with
      | .error e => return failure [e.complaint inspection.name]
      | .ok reply => return printInspection env reply

def runInspection (env : Env) (inspection : Inspection)
    (options : List (List UInt8)) : Except Fault (Prog Socket Exit) :=
  match coordinatorOption env options with
  | .error fault => .error fault
  | .ok none => .ok usageError
  | .ok (some endpoint) =>
      match encodeInto headerSize inspection.request with
      | .error _ =>
          .ok (pure (complain
            "faultline: could not encode inspection request"))
      | .ok wire =>
          .ok (session env endpoint (inspectionBody env inspection wire))

-- ========================================================= main

/-- The inspection a command asks for. -/
def inspectionOf (command : List UInt8) : Option Inspection :=
  [.jobs, .workers, .stats].find? fun inspection =>
    command == inspection.name

def main (env : Env) (argv : List (List UInt8)) :
    Except Fault (Prog Socket Exit) :=
  match argv with
  | _ :: command :: options =>
      if command == ascii "submit" then runSubmit env argv
      else if command == ascii "status" then runStatus env argv
      else
        match inspectionOf command with
        | some inspection => runInspection env inspection options
        | none => runPing env argv
  | _ => runPing env argv

end Faultline.Cli
