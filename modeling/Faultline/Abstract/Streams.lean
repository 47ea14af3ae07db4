/-
What a byte stream means to its receiver.

`nextFrame` judges the front of a connection's stream with all of it at
hand: no buffer, no chunks. A frame is decided by its header if that is
enough, else by the whole frame its header declares; a refusal says how many
bytes of the frame it took. `nextAssignment` is the same for the worker's
side, where only assignments to this worker are frames.
-/
import Faultline.Worker.Loop
import Faultline.Lib.Frames

namespace Faultline

open Lib

/-- How many bytes the decision about a frame takes. -/
def frameEnd (stream : List UInt8) (header : ProtocolHeader) : Nat :=
  match messageDecode (stream.take headerSize) with
  | .error .bufferTooSmall => headerSize + header.payloadLength.toNat
  | _ => headerSize

/-- Header check and decoding, for a connection in a role. -/
def nextFrame (role : Role) (stream : List UInt8) :
    Lib.Verdict (CloseReason × Nat) Message :=
  if stream.length < headerSize then .more
  else
    match headerDecode stream with
    | .error _ => .reject (.invalidHeader, headerSize)
    | .ok header =>
        if !role.allows header.messageType then
          .reject (.unexpectedMessage, headerSize)
        else if stream.length < frameEnd stream header then .more
        else
          match messageDecode stream with
          | .error _ => .reject (.invalidMessage, frameEnd stream header)
          | .ok (message, consumed) => .deliver message consumed

/-- Prefix check, header check and decoding, for a worker that holds a job
or does not when the frame is complete. -/
def nextAssignment (workerId : UInt32) (busy : Bool) (stream : List UInt8) :
    Lib.Verdict Unit JobAssignPayload :=
  if !prefixMatches stream then .reject ()
  else if stream.length < headerSize then .more
  else
    match headerDecode stream with
    | .error _ => .reject ()
    | .ok header =>
        if !assignmentHeader header then .reject ()
        else
          let size := headerSize + header.payloadLength.toNat
          if stream.length < size then .more
          else
            match acceptAssignment workerId busy (stream.take size) with
            | none => .reject ()
            | some assignment => .deliver assignment size

end Faultline
