/-
Sockets (include/net.h, src/common/net.c): connecting and listening, and the
transfers that loop until everything is moved or a deadline passes.

A socket is what the system will still do with it: the readings of the clock,
the answers to `poll`, `send` and `recv`, and the bytes on their way from the
peer. Each call takes one answer; when there is none left, the process has
stopped inside that call. Receiving is honest: it hands out the peer's bytes
in order, and says that the stream has ended only where it has. What was
handed over and how long `poll` was told to wait are recorded; no code reads
the record.
-/
import Faultline.Cli.Arguments
import Faultline.Coordinator.Client
import Faultline.Lib.Prog

namespace Faultline

open Lib

/-- `errno`, as the functions leave it. -/
inductive NetError where
  /-- `EINVAL`. -/
  | invalid
  /-- `ETIMEDOUT`. -/
  | timedOut
  /-- `EBADF`. -/
  | badDescriptor
  /-- `EPIPE`. -/
  | brokenPipe
  /-- From `clock_gettime`. -/
  | clock
  /-- From another call. -/
  | system (errno : Nat)
deriving DecidableEq, Repr

-- ====================================================== sockets

/-- `POLLIN` or `POLLOUT`. -/
inductive PollEvent where
  | input
  | output
deriving DecidableEq, Repr

/-- `revents`. -/
structure Revents where
  input : Bool
  output : Bool
  hangup : Bool
  error : Bool
  invalid : Bool
deriving DecidableEq, Repr

/-- `revents & (events | POLLHUP | POLLERR)`. -/
def Revents.wakes (revents : Revents) (event : PollEvent) : Bool :=
  (match event with
    | .input => revents.input
    | .output => revents.output) || revents.hangup || revents.error

inductive SocketPoll where
  /-- `EINTR`. -/
  | interrupted
  | failed (errno : Nat)
  /-- No descriptor is ready. -/
  | expired
  | ready (revents : Revents)
deriving DecidableEq, Repr

/-- How `send` ends; at least one byte is moved, if any is. -/
inductive SocketSend where
  | moved (extra : Nat)
  | zero
  /-- `EINTR`, `EAGAIN` or `EWOULDBLOCK`. -/
  | again
  | failed (errno : Nat)
deriving DecidableEq, Repr

/-- How `recv` ends. It moves bytes as long as there are any. -/
inductive SocketRecv where
  | moved (extra : Nat)
  /-- `EINTR`, `EAGAIN` or `EWOULDBLOCK`. -/
  | again
  | failed (errno : Nat)
deriving DecidableEq, Repr

/-- A call of `poll`: when it was made, and its timeout. -/
structure PollWait where
  now : Int64
  timeout : Int32
deriving DecidableEq, Repr

structure Socket where
  /-- All readings the clock will ever give. -/
  clock : Nat → Int64
  /-- How many of them were taken. -/
  ticks : Nat
  polls : List SocketPoll
  sends : List SocketSend
  recvs : List SocketRecv
  /-- The peer's bytes, up to the end of its stream. -/
  inbound : List UInt8
  /-- Every byte `send` has taken. -/
  outbound : List UInt8
  waits : List PollWait
  /-- The open descriptors. -/
  descriptors : List Int

namespace Socket

/-- `faultline_monotonic_ms`; a negative reading is a failure. -/
def monotonicMs : Prog Socket Int64 :=
  fun s => .done (s.clock s.ticks) { s with ticks := s.ticks + 1 }

end Socket

-- ====================================================== waiting

/-- The loop of `wait_ready`; `polls` are the answers the socket has left. -/
def waitReadyGo (event : PollEvent) (deadline : Int64) (s : Socket)
    (polls : List SocketPoll) : Outcome Socket (Except NetError Unit) :=
  let now := s.clock s.ticks
  let read := { s with ticks := s.ticks + 1 }
  if now < 0 then .done (.error .clock) read
  else if now ≥ deadline then .done (.error .timedOut) read
  else
    let waiting := { read with
      waits := s.waits ++ [⟨now, (deadline - now).toInt32⟩] }
    match polls with
    | [] => .crash waiting
    | reply :: rest =>
        let answered := { waiting with polls := rest }
        match reply with
        | .interrupted => waitReadyGo event deadline answered rest
        | .failed errno => .done (.error (.system errno)) answered
        | .expired => .done (.error .timedOut) answered
        | .ready revents =>
            if revents.invalid then .done (.error .badDescriptor) answered
            else if revents.wakes event then .done (.ok ()) answered
            else waitReadyGo event deadline answered rest

def waitReady (event : PollEvent) (deadline : Int64) :
    Prog Socket (Except NetError Unit) :=
  fun s => waitReadyGo event deadline s s.polls

-- ====================================================== sending

/-- The loop of `faultline_send_all`; `sends` are the answers the socket has
left, `data` is what is left to send. -/
def sendAllGo (deadline : Int64) (data : List UInt8) (s : Socket)
    (sends : List SocketSend) : Outcome Socket (Except NetError Unit) :=
  if data.isEmpty then .done (.ok ()) s
  else
    match waitReady .output deadline s with
    | .crash s => .crash s
    | .done (.error e) s => .done (.error e) s
    | .done (.ok ()) s =>
        match sends with
        | [] => .crash s
        | reply :: rest =>
            let answered := { s with sends := rest }
            match reply with
            | .moved extra =>
                sendAllGo deadline (data.drop (extra + 1))
                  { answered with
                    outbound := s.outbound ++ data.take (extra + 1) } rest
            | .zero => .done (.error .brokenPipe) answered
            | .again => sendAllGo deadline data answered rest
            | .failed errno => .done (.error (.system errno)) answered

/-- The loop, on the answers the socket has. -/
def sendLoop (deadline : Int64) (data : List UInt8) :
    Prog Socket (Except NetError Unit) :=
  fun s => sendAllGo deadline data s s.sends

def sendAll (fd : Int) (data : List UInt8) (timeoutMs : Int32) :
    Prog Socket (Except NetError Unit) :=
  if fd < 0 || timeoutMs ≤ 0 then return .error .invalid
  else do
    let start ← Socket.monotonicMs
    if start < 0 then return .error .clock
    else sendLoop (start + timeoutMs.toInt64) data

-- ==================================================== receiving

/-- `enum faultline_receive_result`. -/
inductive ReceiveResult where
  | ok
  | eof
  | truncated
  | error (e : NetError)
deriving DecidableEq, Repr

/-- The loop of `faultline_recv_exact`; `recvs` are the answers the socket has
left, `size` is what is left to receive. -/
def recvExactGo (deadline : Int64) (size : Nat) (received : List UInt8)
    (s : Socket) (recvs : List SocketRecv) :
    Outcome Socket (ReceiveResult × List UInt8) :=
  if size = 0 then .done (.ok, received) s
  else
    match waitReady .input deadline s with
    | .crash s => .crash s
    | .done (.error e) s => .done (.error e, received) s
    | .done (.ok ()) s =>
        match recvs with
        | [] => .crash s
        | reply :: rest =>
            let answered := { s with recvs := rest }
            match reply with
            | .moved extra =>
                let chunk := s.inbound.take (min size (extra + 1))
                if chunk.isEmpty then
                  .done (if received.isEmpty then .eof else .truncated,
                    received) answered
                else
                  recvExactGo deadline (size - chunk.length)
                    (received ++ chunk)
                    { answered with inbound := s.inbound.drop chunk.length }
                    rest
            | .again => recvExactGo deadline size received answered rest
            | .failed errno =>
                .done (.error (.system errno), received) answered

def recvLoop (deadline : Int64) (size : Nat) :
    Prog Socket (ReceiveResult × List UInt8) :=
  fun s => recvExactGo deadline size [] s s.recvs

/-- The result, and what the buffer has received. -/
def recvExact (fd : Int) (size : Nat) (timeoutMs : Int32) :
    Prog Socket (ReceiveResult × List UInt8) :=
  if fd < 0 || timeoutMs ≤ 0 then return (.error .invalid, [])
  else do
    let start ← Socket.monotonicMs
    if start < 0 then return (.error .clock, [])
    else recvLoop (start + timeoutMs.toInt64) size

-- =================================================== connecting

/-- `FAULTLINE_DEFAULT_HOST`. -/
def defaultHost : List UInt8 := [49, 50, 55, 46, 48, 46, 48, 46, 49]

/-- `FAULTLINE_DEFAULT_PORT`. -/
def defaultPort : Nat := 9000

structure Endpoint where
  host : List UInt8
  port : Nat
deriving DecidableEq, Repr

/-- `INET_ADDRSTRLEN`. -/
def inetAddrStrLen : Nat := 16

/-- `faultline_parse_endpoint`, into cells with room for any numeric address;
`inetPton` is what the system takes for one. -/
def parseEndpoint (inetPton : List UInt8 → Bool) (text : List UInt8)
    (cells : Endpoint) : Except Fault (Bool × Endpoint) :=
  let host := text.takeWhile (· != 58)
  if host.length = text.length then .ok (false, cells)
  else if host.length = 0 || host.length ≥ inetAddrStrLen then
    .ok (false, cells)
  else
    match parsePort (text.drop (host.length + 1)) 0 with
    | .error fault => .error fault
    | .ok (false, _) => .ok (false, cells)
    | .ok (true, port) =>
        if inetPton host then .ok (true, ⟨host, port⟩) else .ok (false, cells)

/-- How `connect` ends. -/
inductive ConnectReply where
  | connected
  /-- `EINPROGRESS` or `EINTR`. -/
  | pending
  | failed (errno : Nat)
deriving DecidableEq, Repr

/-- What the calls behind a socket answer; an `errno` is a failure. -/
structure SocketReplies where
  socket : Except Nat Nat
  reuse : Option Nat
  nonblocking : Option Nat
  bind : Option Nat
  listen : Option Nat
  connect : ConnectReply
  /-- `getsockopt` and the error it reads, or zero. -/
  socketError : Except Nat Nat
deriving DecidableEq, Repr

/-- `make_address` fails. -/
def badAddress (inetPton : List UInt8 → Bool) (address : Endpoint) : Bool :=
  address.port == 0 || !inetPton address.host

def openSocket (fd : Nat) : Prog Socket Unit :=
  fun s => .done () { s with descriptors := fd :: s.descriptors }

/-- `close`. -/
def closeSocket (fd : Int) : Prog Socket Unit :=
  fun s => .done () { s with descriptors := s.descriptors.erase fd }

/-- `close_failed_socket`. -/
def closeFailedSocket (fd : Nat) (e : NetError) :
    Prog Socket (Except NetError Nat) := do
  closeSocket fd
  return .error e

/-- The first of several calls that fails. -/
def firstFailure (calls : List (Option Nat)) : Option Nat :=
  calls.findSome? id

def listenOn (inetPton : List UInt8 → Bool) (address : Endpoint)
    (replies : SocketReplies) : Prog Socket (Except NetError Nat) :=
  if badAddress inetPton address then return .error .invalid
  else
    match replies.socket with
    | .error errno => return .error (.system errno)
    | .ok fd => do
        openSocket fd
        match firstFailure [replies.reuse, replies.nonblocking, replies.bind,
            replies.listen] with
        | some errno => closeFailedSocket fd (.system errno)
        | none => return .ok fd

/-- The connection is being made. -/
def finishConnect (fd : Nat) (deadline : Int64) (replies : SocketReplies) :
    Prog Socket (Except NetError Nat) := do
  match ← waitReady .output deadline with
  | .error e => closeFailedSocket fd e
  | .ok () =>
      match replies.socketError with
      | .error errno => closeFailedSocket fd (.system errno)
      | .ok 0 => return .ok fd
      | .ok errno => closeFailedSocket fd (.system errno)

def connectTo (inetPton : List UInt8 → Bool) (address : Endpoint)
    (timeoutMs : Int32) (replies : SocketReplies) :
    Prog Socket (Except NetError Nat) :=
  if timeoutMs ≤ 0 then return .error .invalid
  else if badAddress inetPton address then return .error .invalid
  else do
    let now ← Socket.monotonicMs
    if now < 0 then return .error .clock
    else
      match replies.socket with
      | .error errno => return .error (.system errno)
      | .ok fd => do
          openSocket fd
          match replies.nonblocking, replies.connect with
          | some errno, _ => closeFailedSocket fd (.system errno)
          | none, .connected => return .ok fd
          | none, .failed errno => closeFailedSocket fd (.system errno)
          | none, .pending =>
              finishConnect fd (now + timeoutMs.toInt64) replies

end Faultline
