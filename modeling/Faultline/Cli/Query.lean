/-
Receiving a query's response (src/cli/main.c).

`receive_query` reads a response in stages: the header, then the fixed part
of its payload, and the rest only when the decoder asks for more. The
connection is the list of bytes that arrive before it closes or the shared
deadline passes; a stage that needs more than that is incomplete.
-/
import Faultline.Protocol.Codec

namespace Faultline

/-- Why a response is refused, one for each message on stderr. -/
inductive QueryError where
  | incomplete
  | invalidHeader
  | unexpectedType
  | invalidLength
  | invalidPayload
deriving DecidableEq, Repr

/-- The bytes received so far and those still to come. -/
structure QueryInput where
  wire : List UInt8
  stream : List UInt8
deriving DecidableEq, Repr

def receiveQueryBytes (size : Nat) (input : QueryInput) :
    Except QueryError QueryInput :=
  if input.stream.length < size then .error .incomplete
  else .ok { wire := input.wire ++ input.stream.take size
             stream := input.stream.drop size }

/-- The response types the commands ask for. -/
def queryResponses : List MessageType :=
  [.jobStatusResponse, .jobsResponse, .workersResponse, .statsResponse]

/-- A status query may also be answered by NOT_FOUND. -/
def queryExpects (expectedType messageType : UInt16) : Bool :=
  messageType == expectedType
    || (expectedType == MessageType.jobStatusResponse.code
      && messageType == MessageType.jobStatusNotFound.code)

/-- The fixed size and the maximum of a response's payload. -/
def queryBounds (messageType : UInt16) : Nat × Nat :=
  if messageType == MessageType.jobStatusNotFound.code then (8, 8)
  else if messageType == MessageType.jobStatusResponse.code then
    (36, 36 + jobMaxResultSize)
  else if messageType == MessageType.jobsResponse.code then
    (jobsPrefixSize, jobsPrefixSize + jobsMaxEntries * jobSummarySize)
  else if messageType == MessageType.statsResponse.code then
    (statsPayloadSize, statsPayloadSize)
  else
    (workersPrefixSize,
      workersPrefixSize + workersMaxEntries * workerSummarySize)

/-- The last check: a whole message and nothing else. -/
def acceptQuery (result : Except ProtocolError (Message × Nat))
    (available : Nat) : Except QueryError Message :=
  match result with
  | .error _ => .error .invalidPayload
  | .ok (message, consumed) =>
      if consumed ≠ available then .error .invalidPayload else .ok message

/-- The second stage, once the fixed part is there: decode, and only if
that is too little read the rest and decode again. -/
def decodeQuery (remaining : Nat) (input : QueryInput) :
    Except QueryError Message :=
  if messageDecode input.wire = .error .bufferTooSmall then
    match receiveQueryBytes remaining input with
    | .error e => .error e
    | .ok input => acceptQuery (messageDecode input.wire) input.wire.length
  else acceptQuery (messageDecode input.wire) input.wire.length

/-- The first stage, once the header is there. -/
def receiveQueryPayload (expectedType : UInt16) (input : QueryInput) :
    Except QueryError Message :=
  match headerDecode input.wire with
  | .error _ => .error .invalidHeader
  | .ok header =>
      if !queryExpects expectedType header.messageType then
        .error .unexpectedType
      else if header.payloadLength.toNat < (queryBounds header.messageType).1
          || header.payloadLength.toNat
            > (queryBounds header.messageType).2 then
        .error .invalidLength
      else
        match receiveQueryBytes (queryBounds header.messageType).1 input with
        | .error e => .error e
        | .ok input =>
            decodeQuery (header.payloadLength.toNat
              - (queryBounds header.messageType).1) input

def receiveQuery (expectedType : UInt16) (stream : List UInt8) :
    Except QueryError Message :=
  match receiveQueryBytes headerSize ⟨[], stream⟩ with
  | .error e => .error e
  | .ok input => receiveQueryPayload expectedType input

end Faultline
