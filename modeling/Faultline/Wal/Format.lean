/-
The write-ahead log's disk format, version 1 (include/wal.h,
src/coordinator/wal_format.c).

A log is a 24-byte file header followed by records. A record is a 32-byte
header and a payload: a worker id, or a job snapshot of 84 fixed bytes
followed by the argument and result bytes. All integers are big-endian;
the header carries a checksum of the payload and one of itself.

A record's type and payload are one value here (`WalEntry`), so a type
never disagrees with the union member it selects. Integers read from the
wire that name no task, state or failure are rejected where the source's
snapshot check rejects them, with the same error.
-/
import Faultline.Job
import Faultline.Lib.Bytes

namespace Faultline

open Lib

-- ======================================================== types

def walFileHeaderSize : Nat := 24
def walRecordHeaderSize : Nat := 32
def walJobPrefixSize : Nat := 84
def walMaxPayloadSize : Nat :=
  walJobPrefixSize + jobMaxArgumentSize + jobMaxResultSize
def walMaxRecordSize : Nat := walRecordHeaderSize + walMaxPayloadSize
def walVersion : UInt16 := 1
def walRecordMagic : UInt32 := 0x464c5752

/-- What a record says: an allocated worker id, or a job event with the
snapshot the job is left in. -/
inductive WalEntry where
  | workerIdAllocated (workerId : UInt32)
  | job (event : JobEvent) (job : Job)
deriving DecidableEq, Repr

structure WalRecord where
  sequence : UInt64
  entry : WalEntry
deriving DecidableEq, Repr

inductive WalRecordType where
  | workerIdAllocated
  | job (event : JobEvent)
deriving DecidableEq, Repr

def WalEntry.type : WalEntry → WalRecordType
  | .workerIdAllocated _ => .workerIdAllocated
  | .job event _ => .job event

def WalRecordType.code : WalRecordType → UInt16
  | .workerIdAllocated => 1
  | .job .created => 2
  | .job .assigned => 3
  | .job .started => 4
  | .job .completed => 5
  | .job .requeued => 6
  | .job .failed => 7

def WalRecordType.ofCode (code : UInt16) : Option WalRecordType :=
  if code == 1 then some .workerIdAllocated
  else if code == 2 then some (.job .created)
  else if code == 3 then some (.job .assigned)
  else if code == 4 then some (.job .started)
  else if code == 5 then some (.job .completed)
  else if code == 6 then some (.job .requeued)
  else if code == 7 then some (.job .failed)
  else none

/-- The non-OK members of `enum faultline_wal_result`. -/
inductive WalError where
  | invalidArgument
  | bufferTooSmall
  | incomplete
  | badChecksum
  | badMagic
  | unsupportedVersion
  | invalidHeader
  | unknownRecordType
  | invalidSequence
  | invalidPayloadLength
  | invalidPayload
deriving DecidableEq, Repr

structure WalRecordHeader where
  type : WalRecordType
  sequence : UInt64
  payloadLength : UInt32
  payloadCrc32 : UInt32
deriving DecidableEq, Repr

-- ===================================================== checksum

/-- One bit of the reflected CRC-32. -/
def crcBit (crc : UInt32) : UInt32 :=
  (crc >>> 1) ^^^ (if crc &&& 1 != 0 then 0xedb88320 else 0)

def crcByte (crc : UInt32) (byte : UInt8) : UInt32 :=
  Nat.repeat crcBit 8 (crc ^^^ byte.toUInt32)

/-- CRC-32/ISO-HDLC: initial value and final XOR `0xffffffff`. -/
def crc32 (data : List UInt8) : UInt32 :=
  data.foldl crcByte 0xffffffff ^^^ 0xffffffff

-- =============================================== snapshot checks

/-- The smallest and the largest payload of a record type. -/
def payloadBounds : WalRecordType → Nat × Nat
  | .workerIdAllocated => (4, 4)
  | .job .completed => (walJobPrefixSize, walMaxPayloadSize)
  | .job _ => (walJobPrefixSize, walJobPrefixSize + jobMaxArgumentSize)

def validFailure (failure : JobFailure) : Bool :=
  failure == .task || failure == .workerLost

/-- The shared part of the ASSIGNED, STARTED, COMPLETED and FAILED
snapshots: an owner, the attempt it runs, and when it got it. -/
def validOwned (job : Job) : Bool :=
  !(job.workerId == 0 || job.attempt != job.retryCount.toUInt64 + 1
    || job.assignedAtMs < job.createdAtMs
    || job.updatedAtMs < job.assignedAtMs)

/-- The shared part of the CREATED and REQUEUED snapshots. -/
def validWaiting (job : Job) : Bool :=
  !(job.state != .queued || job.workerId != 0 || job.result.length != 0
    || job.assignedAtMs != -1 || job.startedAtMs != -1
    || job.finishedAtMs != -1)

/-- `valid_job`: one snapshot on its own, for the event it records. -/
def validJob (event : JobEvent) (job : Job) : Bool :=
  if job.id == 0 || job.arguments.length > jobMaxArgumentSize
      || job.result.length > jobMaxResultSize
      || job.retryCount > job.maxRetries || job.createdAtMs < 0
      || job.updatedAtMs < job.createdAtMs then false
  else
    match event with
    | .created =>
        validWaiting job && job.attempt == 0 && job.retryCount == 0
          && job.failure == .none && job.updatedAtMs == job.createdAtMs
    | .requeued =>
        validWaiting job && job.retryCount != 0
          && job.attempt == job.retryCount.toUInt64
          && validFailure job.failure
    | .assigned =>
        validOwned job && job.state == .assigned && job.failure == .none
          && job.result.length == 0 && job.updatedAtMs == job.assignedAtMs
          && job.startedAtMs == -1 && job.finishedAtMs == -1
    | .started =>
        validOwned job && job.state == .running && job.failure == .none
          && job.result.length == 0 && job.startedAtMs ≥ job.assignedAtMs
          && job.updatedAtMs == job.startedAtMs && job.finishedAtMs == -1
    | .completed =>
        validOwned job && job.state == .done && job.failure == .none
          && job.startedAtMs ≥ job.assignedAtMs
          && job.finishedAtMs ≥ job.startedAtMs
          && job.updatedAtMs == job.finishedAtMs
    | .failed =>
        validOwned job && job.state == .failed && validFailure job.failure
          && job.retryCount == job.maxRetries && job.result.length == 0
          && (job.startedAtMs == -1 || job.startedAtMs ≥ job.assignedAtMs)
          && job.finishedAtMs ≥ job.assignedAtMs
          && job.finishedAtMs ≥ job.startedAtMs
          && job.updatedAtMs == job.finishedAtMs

-- ===================================================== encoding

def fileMagic : List UInt8 := [0x46, 0x4c, 0x49, 0x4e, 0x57, 0x41, 0x4c, 0]

/-- The file header without its checksum. -/
def walFileHeaderPrefix : List UInt8 :=
  fileMagic ++ (putU16 walVersion ++ (putU16 24 ++ (putU32 0 ++ putU32 0)))

def walFileHeaderEncode : List UInt8 :=
  walFileHeaderPrefix ++ putU32 (crc32 walFileHeaderPrefix)

def encodeJob (job : Job) : List UInt8 :=
  putU64 job.id ++ (putU16 job.taskType.code ++ (putU16 job.state.code
    ++ (putU32 job.workerId ++ (putU64 job.attempt
    ++ (putU32 job.retryCount ++ (putU32 job.maxRetries
    ++ (putU64 job.createdAtMs.toUInt64 ++ (putU64 job.updatedAtMs.toUInt64
    ++ (putU64 job.assignedAtMs.toUInt64
    ++ (putU64 job.startedAtMs.toUInt64
    ++ (putU64 job.finishedAtMs.toUInt64 ++ (putU16 job.failure.code
    ++ (putU16 0 ++ (putU32 job.arguments.length.toUInt32
    ++ (putU32 job.result.length.toUInt32
    ++ (job.arguments ++ job.result))))))))))))))))

def encodePayload : WalEntry → List UInt8
  | .workerIdAllocated workerId => putU32 workerId
  | .job _ job => encodeJob job

/-- The first 28 bytes of a record: its header without the header's own
checksum. -/
def recordHeaderPrefix (type : WalRecordType) (sequence : UInt64)
    (payload : List UInt8) : List UInt8 :=
  putU32 walRecordMagic ++ (putU16 walVersion ++ (putU16 type.code
    ++ (putU32 payload.length.toUInt32 ++ (putU32 0 ++ (putU64 sequence
    ++ putU32 (crc32 payload))))))

def recordHeader (type : WalRecordType) (sequence : UInt64)
    (payload : List UInt8) : List UInt8 :=
  recordHeaderPrefix type sequence payload
    ++ putU32 (crc32 (recordHeaderPrefix type sequence payload))

/-- The bytes of a record, before any check. -/
def recordBytes (record : WalRecord) : List UInt8 :=
  recordHeader record.entry.type record.sequence (encodePayload record.entry)
    ++ encodePayload record.entry

/-- The payload check of `faultline_wal_record_encode`. -/
def WalEntry.encodable : WalEntry → Bool
  | .workerIdAllocated workerId => workerId != 0
  | .job event snapshot => validJob event snapshot

def walRecordEncode (record : WalRecord) (capacity : Nat) :
    Except WalError (List UInt8) :=
  if record.sequence == 0 then .error .invalidSequence
  else if !record.entry.encodable then .error .invalidPayload
  else if capacity < (recordBytes record).length then .error .bufferTooSmall
  else .ok (recordBytes record)

-- ===================================================== decoding

def walFileHeaderDecode (wire : List UInt8) : Except WalError Unit :=
  if wire.length < walFileHeaderSize then .error .incomplete
  else if getU32 (wire.drop 20) != crc32 (wire.take 20) then
    .error .badChecksum
  else if wire.take 8 != fileMagic then .error .badMagic
  else if getU16 (wire.drop 8) != walVersion then .error .unsupportedVersion
  else if getU16 (wire.drop 10) != 24 || getU32 (wire.drop 12) != 0
      || getU32 (wire.drop 16) != 0 then .error .invalidHeader
  else .ok ()

def walRecordHeaderDecode (wire : List UInt8) (expectedSequence : UInt64) :
    Except WalError WalRecordHeader :=
  if expectedSequence == 0 then .error .invalidArgument
  else if wire.length < walRecordHeaderSize then .error .incomplete
  else if getU32 (wire.drop 28) != crc32 (wire.take 28) then
    .error .badChecksum
  else if getU32 wire != walRecordMagic then .error .badMagic
  else if getU16 (wire.drop 4) != walVersion then .error .unsupportedVersion
  else if getU32 (wire.drop 12) != 0 then .error .invalidHeader
  else
    match WalRecordType.ofCode (getU16 (wire.drop 6)) with
    | none => .error .unknownRecordType
    | some type =>
        if (getU32 (wire.drop 8)).toNat < (payloadBounds type).1
            || (getU32 (wire.drop 8)).toNat > (payloadBounds type).2 then
          .error .invalidPayloadLength
        else if getU64 (wire.drop 16) != expectedSequence then
          .error .invalidSequence
        else
          .ok { type
                sequence := getU64 (wire.drop 16)
                payloadLength := getU32 (wire.drop 8)
                payloadCrc32 := getU32 (wire.drop 24) }

def decodeTime (value : UInt64) : Option Int64 :=
  if value == 0xffffffffffffffff then some jobTimeUnset
  else if value ≤ 0x7fffffffffffffff then some value.toInt64
  else none

/-- The fixed fields of a snapshot; `none` when an enumeration or a time
is out of range. -/
def decodeJobFields (bytes : List UInt8) (arguments result : List UInt8) :
    Option Job := do
  let taskType ← TaskType.ofCode (getU16 (bytes.drop 8))
  let state ← JobState.ofCode (getU16 (bytes.drop 10))
  let failure ← JobFailure.ofCode (getU16 (bytes.drop 72))
  let createdAtMs ← decodeTime (getU64 (bytes.drop 32))
  let updatedAtMs ← decodeTime (getU64 (bytes.drop 40))
  let assignedAtMs ← decodeTime (getU64 (bytes.drop 48))
  let startedAtMs ← decodeTime (getU64 (bytes.drop 56))
  let finishedAtMs ← decodeTime (getU64 (bytes.drop 64))
  return {
    id := getU64 bytes
    taskType, arguments, state
    workerId := getU32 (bytes.drop 12)
    attempt := getU64 (bytes.drop 16)
    retryCount := getU32 (bytes.drop 24)
    maxRetries := getU32 (bytes.drop 28)
    createdAtMs, updatedAtMs, assignedAtMs, startedAtMs, finishedAtMs
    result, failure }

def decodeJob (bytes : List UInt8) (event : JobEvent) :
    Except WalError Job :=
  let arguments := (getU32 (bytes.drop 76)).toNat
  let results := (getU32 (bytes.drop 80)).toNat
  if arguments > jobMaxArgumentSize || results > jobMaxResultSize
      || bytes.length != walJobPrefixSize + arguments + results then
    .error .invalidPayloadLength
  else if getU16 (bytes.drop 74) != 0 then .error .invalidPayload
  else
    match decodeJobFields bytes
        ((bytes.drop walJobPrefixSize).take arguments)
        ((bytes.drop (walJobPrefixSize + arguments)).take results) with
    | none => .error .invalidPayload
    | some job =>
        if !validJob event job then .error .invalidPayload else .ok job

/-- The entry a payload of the given type holds. -/
def decodePayload (type : WalRecordType) (payload : List UInt8) :
    Except WalError WalEntry :=
  match type with
  | .workerIdAllocated =>
      if getU32 payload == 0 then .error .invalidPayload
      else .ok (.workerIdAllocated (getU32 payload))
  | .job event => (decodeJob payload event).map (.job event)

/-- Decode the record at the front of a buffer; the number is how many
bytes it took. -/
def walRecordDecode (wire : List UInt8) (expectedSequence : UInt64) :
    Except WalError (WalRecord × Nat) := do
  let header ← walRecordHeaderDecode wire expectedSequence
  let total := walRecordHeaderSize + header.payloadLength.toNat
  if wire.length < total then .error .incomplete
  else
    let payload := (wire.drop walRecordHeaderSize).take
      header.payloadLength.toNat
    if crc32 payload != header.payloadCrc32 then .error .badChecksum
    else do
      let entry ← decodePayload header.type payload
      .ok ({ sequence := header.sequence, entry }, total)

end Faultline
