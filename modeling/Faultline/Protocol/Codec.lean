/-
The wire format of messages (src/common/protocol.c).

A frame is a 12-byte header and a payload; all integers are big-endian.
The encoder validates a message, derives its length and stores its fields
into the caller's buffer, each at its own offset; the decoder reads every
field at its own offset, checks lengths as they become available, and
validates what it has read with the same validator. A message's variable
data is copied last, so the validator sees zeros in its place, as in the
source's cleared union.
-/
import Faultline.Lib.Bytes
import Faultline.Lib.Stores
import Faultline.Protocol.Message

namespace Faultline

open Lib

-- ======================================================== types

/-- The non-OK members of `enum faultline_protocol_result`. -/
inductive ProtocolError where
  | invalidArgument
  | bufferTooSmall
  | badMagic
  | unsupportedVersion
  | unknownMessageType
  | payloadTooLarge
  | invalidPayloadLength
  | invalidWorkerId
  | invalidJobId
  | invalidAttempt
  | invalidTaskType
  | invalidFailure
  | invalidJobState
  | invalidRetryCount
  | invalidListCount
  | invalidListOrder
  | invalidWorkerState
  | invalidHeartbeatTimeout
  | invalidStats
deriving DecidableEq, Repr

/-- `enum faultline_message_type`. -/
inductive MessageType where
  | ping
  | pong
  | workerRegister
  | workerRegisterAck
  | heartbeat
  | jobSubmit
  | jobSubmitAck
  | jobAssign
  | jobStarted
  | jobCompleted
  | jobFailed
  | jobStatusRequest
  | jobStatusResponse
  | jobStatusNotFound
  | jobsRequest
  | jobsResponse
  | workersRequest
  | workersResponse
  | statsRequest
  | statsResponse
deriving DecidableEq, Repr

namespace MessageType

/-- Every type, by number. -/
def all : List MessageType :=
  [ping, pong, workerRegister, workerRegisterAck, heartbeat, jobSubmit,
    jobSubmitAck, jobAssign, jobStarted, jobCompleted, jobFailed,
    jobStatusRequest, jobStatusResponse, jobStatusNotFound, jobsRequest,
    jobsResponse, workersRequest, workersResponse, statsRequest,
    statsResponse]

def code : MessageType → UInt16
  | ping => 1
  | pong => 2
  | workerRegister => 3
  | workerRegisterAck => 4
  | heartbeat => 5
  | jobSubmit => 6
  | jobSubmitAck => 7
  | jobAssign => 8
  | jobStarted => 9
  | jobCompleted => 10
  | jobFailed => 11
  | jobStatusRequest => 12
  | jobStatusResponse => 13
  | jobStatusNotFound => 14
  | jobsRequest => 15
  | jobsResponse => 16
  | workersRequest => 17
  | workersResponse => 18
  | statsRequest => 19
  | statsResponse => 20

def ofCode (code : UInt16) : Option MessageType :=
  all.find? fun type => type.code == code

end MessageType

def Message.type : Message → Option MessageType
  | .ping _ => some .ping
  | .pong _ => some .pong
  | .workerRegister _ => some .workerRegister
  | .workerRegisterAck _ => some .workerRegisterAck
  | .heartbeat _ => some .heartbeat
  | .jobSubmit _ => some .jobSubmit
  | .jobSubmitAck _ => some .jobSubmitAck
  | .jobAssign _ => some .jobAssign
  | .jobStarted _ => some .jobStarted
  | .jobCompleted _ => some .jobCompleted
  | .jobFailed _ => some .jobFailed
  | .jobStatusRequest _ => some .jobStatusRequest
  | .jobStatusResponse _ => some .jobStatusResponse
  | .jobStatusNotFound _ => some .jobStatusNotFound
  | .jobsRequest _ => some .jobsRequest
  | .jobsResponse _ => some .jobsResponse
  | .workersRequest _ => some .workersRequest
  | .workersResponse _ => some .workersResponse
  | .statsRequest _ => some .statsRequest
  | .statsResponse _ => some .statsResponse
  | .unknown _ => none

-- ======================================================= bounds

def protocolMagic : UInt32 := 0x464c494e
def protocolVersion : UInt16 := 1
def headerSize : Nat := 12
def maxPayloadSize : Nat := 1048576
def jobsMaxEntries : Nat := 256
def workersMaxEntries : Nat := 64
def jobsPrefixSize : Nat := 4
def jobSummarySize : Nat := 38
def workersPrefixSize : Nat := 8
def workerSummarySize : Nat := 30
def statsPayloadSize : Nat := 192

/-- `FAULTLINE_MESSAGE_MAX_FRAME_SIZE`. -/
def messageMaxFrameSize : Nat :=
  headerSize + jobsPrefixSize + jobsMaxEntries * jobSummarySize

/-- The smallest payload of a type, and how many bytes of variable data
may follow it. -/
def payloadParts : MessageType → Nat × Nat
  | .ping | .pong | .workerRegister | .jobsRequest | .workersRequest
  | .statsRequest => (0, 0)
  | .workerRegisterAck | .heartbeat => (4, 0)
  | .jobSubmit => (10, jobMaxArgumentSize)
  | .jobSubmitAck => (8, 0)
  | .jobAssign => (26, jobMaxArgumentSize)
  | .jobStarted => (20, 0)
  | .jobCompleted => (24, jobMaxResultSize)
  | .jobFailed => (22, 0)
  | .jobStatusRequest => (8, 0)
  | .jobStatusResponse => (36, jobMaxResultSize)
  | .jobStatusNotFound => (8, 0)
  | .jobsResponse => (jobsPrefixSize, jobsMaxEntries * jobSummarySize)
  | .workersResponse => (workersPrefixSize, workersMaxEntries * workerSummarySize)
  | .statsResponse => (statsPayloadSize, 0)

def MessageType.minimum (type : MessageType) : Nat := (payloadParts type).1

def MessageType.maximum (type : MessageType) : Nat :=
  (payloadParts type).1 + (payloadParts type).2

/-- `message_payload_bounds`. -/
def messagePayloadBounds (messageType : UInt16) :
    Except ProtocolError MessageType :=
  match MessageType.ofCode messageType with
  | none => .error .unknownMessageType
  | some type => .ok type

-- ======================================================= header

structure ProtocolHeader where
  magic : UInt32
  version : UInt16
  messageType : UInt16
  payloadLength : UInt32
deriving DecidableEq, Repr

def validateHeader (header : ProtocolHeader) : Except ProtocolError Unit :=
  if header.magic != protocolMagic then .error .badMagic
  else if header.version != protocolVersion then .error .unsupportedVersion
  else
    match messagePayloadBounds header.messageType with
    | .error _ => .error .unknownMessageType
    | .ok _ =>
        if header.payloadLength.toNat > maxPayloadSize then
          .error .payloadTooLarge
        else .ok ()

def headerStores (header : ProtocolHeader) : Stores :=
  [(0, putU32 header.magic), (4, putU16 header.version),
    (6, putU16 header.messageType), (8, putU32 header.payloadLength)]

def headerEncode (wire : List UInt8) (header : ProtocolHeader) :
    Except ProtocolError (List UInt8) :=
  if wire.length < headerSize then .error .bufferTooSmall
  else
    match validateHeader header with
    | .error e => .error e
    | .ok () => .ok ((headerStores header).run wire)

/-- The header's fields, before any check. -/
def readHeader (wire : List UInt8) : ProtocolHeader :=
  { magic := getU32 wire
    version := getU16 (wire.drop 4)
    messageType := getU16 (wire.drop 6)
    payloadLength := getU32 (wire.drop 8) }

def headerDecode (wire : List UInt8) : Except ProtocolError ProtocolHeader :=
  if wire.length < headerSize then .error .bufferTooSmall
  else
    match validateHeader (readHeader wire) with
    | .error e => .error e
    | .ok () => .ok (readHeader wire)

-- =================================================== validation

def validTask (taskType : UInt16) : Bool :=
  taskType == TaskType.sleep.code || taskType == TaskType.primeCount.code
    || taskType == TaskType.fibonacci.code || taskType == TaskType.hash.code

def validateIdentity (identity : JobIdentity) : Except ProtocolError Unit :=
  if identity.jobId == 0 then .error .invalidJobId
  else if identity.workerId == 0 then .error .invalidWorkerId
  else if identity.attempt == 0 then .error .invalidAttempt
  else .ok ()

/-- Only a failed job, or a queued one that has run before, carries a
failure. -/
def statusFailureValid (status : JobStatusPayload) : Bool :=
  if status.state == JobState.failed.code
      || (status.state == JobState.queued.code && status.attempt != 0) then
    status.failure == JobFailure.task.code
      || status.failure == JobFailure.workerLost.code
  else status.failure == JobFailure.none.code

def validateJobStatus (status : JobStatusPayload) :
    Except ProtocolError Unit :=
  if status.jobId == 0 then .error .invalidJobId
  else if status.state < JobState.queued.code
      || status.state > JobState.failed.code then .error .invalidJobState
  else if status.retryCount > status.maxRetries
      || (status.state == JobState.failed.code
        && status.retryCount != status.maxRetries) then
    .error .invalidRetryCount
  else if (status.state == JobState.queued.code && status.workerId != 0)
      || (status.state != JobState.queued.code && status.workerId == 0) then
    .error .invalidWorkerId
  else if status.attempt != status.retryCount.toUInt64
      + (if status.state == JobState.queued.code then 0 else 1) then
    .error .invalidAttempt
  else if !statusFailureValid status then .error .invalidFailure
  else if status.state != JobState.done.code
      && status.result.length != 0 then .error .invalidPayloadLength
  else .ok ()

/-- The status a listing row stands for. Its result is as long as the row
says, and cleared. -/
def JobSummary.status (entry : JobSummary) : JobStatusPayload :=
  { jobId := entry.jobId, state := entry.state, workerId := entry.workerId,
    attempt := entry.attempt, retryCount := entry.retryCount,
    maxRetries := entry.maxRetries, failure := entry.failure,
    result := List.replicate entry.resultSize.toNat 0 }

/-- One row of a job listing, behind the row with the given id. -/
def validateJobEntry (previous : Option UInt64) (entry : JobSummary) :
    Except ProtocolError Unit :=
  match validateJobStatus entry.status with
  | .error e => .error e
  | .ok () =>
      if !validTask entry.taskType then .error .invalidTaskType
      else if entry.resultSize.toNat > jobMaxResultSize then
        .error .payloadTooLarge
      else if previous.any (entry.jobId ≤ ·) then .error .invalidListOrder
      else .ok ()

/-- The loop of `validate_jobs`. -/
def validateJobEntries (previous : Option UInt64) :
    List JobSummary → Except ProtocolError Unit
  | [] => .ok ()
  | entry :: entries =>
      match validateJobEntry previous entry with
      | .error e => .error e
      | .ok () => validateJobEntries (some entry.jobId) entries

def validateJobs (entries : List JobSummary) : Except ProtocolError Unit :=
  if entries.length > jobsMaxEntries then .error .invalidListCount
  else validateJobEntries none entries

/-- `FAULTLINE_WORKER_VIEW_ALIVE` and `FAULTLINE_WORKER_VIEW_DEAD`. -/
def workerViewAlive : UInt16 := 1
def workerViewDead : UInt16 := 2

/-- One row of a worker listing, behind the row with the given id. -/
def validateWorkerEntry (previous : Option UInt32) (entry : WorkerSummary) :
    Except ProtocolError Unit :=
  if entry.workerId == 0 then .error .invalidWorkerId
  else if entry.state != workerViewAlive && entry.state != workerViewDead then
    .error .invalidWorkerState
  else if (entry.jobId == 0) != (entry.attempt == 0) then
    .error .invalidAttempt
  else if entry.state == workerViewDead && entry.jobId != 0 then
    .error .invalidJobId
  else if previous.any (entry.workerId ≤ ·) then .error .invalidListOrder
  else .ok ()

/-- The loop of `validate_workers`. -/
def validateWorkerEntries (previous : Option UInt32) :
    List WorkerSummary → Except ProtocolError Unit
  | [] => .ok ()
  | entry :: entries =>
      match validateWorkerEntry previous entry with
      | .error e => .error e
      | .ok () => validateWorkerEntries (some entry.workerId) entries

def validateWorkers (list : WorkersPayload) : Except ProtocolError Unit :=
  if list.entries.length > workersMaxEntries then .error .invalidListCount
  else if list.heartbeatTimeoutMs == 0 then .error .invalidHeartbeatTimeout
  else validateWorkerEntries none list.entries

/-- The first check of `validate_stats`: no operand is large enough to
wrap the sums of the second. -/
def statsInBounds (s : StatsPayload) : Bool :=
  !(s.jobsSubmittedTotal.toNat > jobsMaxEntries
    || s.jobsQueued > s.jobsSubmittedTotal
    || s.jobsAssigned > s.jobsSubmittedTotal
    || s.jobsRunning > s.jobsSubmittedTotal
    || s.jobsCompletedTotal > s.jobsSubmittedTotal
    || s.jobsFailedTotal > s.jobsSubmittedTotal
    || s.jobRetriesTotal > s.jobsSubmittedTotal * 0xffffffff
    || s.workersRetained.toNat > workersMaxEntries
    || s.workersAlive > s.workersRetained
    || s.workersExpired > s.workersRetained
    || s.workersDead > s.workersRetained
    || s.workersBusy > s.workersAlive
    || s.workersIdle > s.workersAlive)

/-- The second check. -/
def statsConsistent (s : StatsPayload) : Bool :=
  !(s.jobsQueued + s.jobsAssigned + s.jobsRunning + s.jobsCompletedTotal
      + s.jobsFailedTotal != s.jobsSubmittedTotal
    || s.jobAttemptsTotal
      != s.jobRetriesTotal + s.jobsSubmittedTotal - s.jobsQueued
    || s.workersAlive + s.workersExpired + s.workersDead != s.workersRetained
    || s.workersBusy + s.workersIdle != s.workersAlive
    || s.workersBusy > s.jobsAssigned + s.jobsRunning
    || s.startupJobsRecovered > s.jobsSubmittedTotal
    || s.startupInterruptedJobs > s.startupJobsRecovered
    || s.sessionJobsSubmitted
      != s.jobsSubmittedTotal - s.startupJobsRecovered
    || s.sessionJobsCompleted > s.jobsCompletedTotal
    || s.sessionJobsFailed > s.jobsFailedTotal
    || s.sessionJobRetries > s.jobRetriesTotal
    || s.completedLatencyAvgMs > 0x7fffffffffffffff
    || (s.jobsCompletedTotal == 0 && s.completedLatencyAvgMs != 0)
    || s.sessionUptimeMs > 0x7fffffffffffffff
    || s.startupDurationMs > 0x7fffffffffffffff
    || s.heartbeatTimeoutMs == 0
    || s.heartbeatTimeoutMs > 0x7fffffff)

def validateStats (s : StatsPayload) : Except ProtocolError Unit :=
  if !statsInBounds s then .error .invalidStats
  else if !statsConsistent s then .error .invalidStats
  else .ok ()

/-- The identity `validate_message` checks behind its switch. -/
def Message.identity : Message → Option JobIdentity
  | .jobAssign payload => some payload.identity
  | .jobStarted identity => some identity
  | .jobCompleted payload => some payload.identity
  | .jobFailed payload => some payload.identity
  | _ => none

/-- The variable bytes of a message. -/
def Message.dataSize : Message → Nat
  | .jobSubmit payload => payload.arguments.length
  | .jobAssign payload => payload.arguments.length
  | .jobCompleted payload => payload.result.length
  | .jobStatusResponse payload => payload.result.length
  | .jobsResponse entries => entries.length * jobSummarySize
  | .workersResponse payload => payload.entries.length * workerSummarySize
  | _ => 0

/-- The switch of `validate_message`. -/
def Message.validateFields : Message → Except ProtocolError Unit
  | .ping workerId | .pong workerId | .workerRegister workerId
  | .jobsRequest workerId | .workersRequest workerId
  | .statsRequest workerId =>
      if workerId != 0 then .error .invalidWorkerId else .ok ()
  | .workerRegisterAck workerId | .heartbeat workerId =>
      if workerId == 0 then .error .invalidWorkerId else .ok ()
  | .jobSubmit payload =>
      if !validTask payload.taskType then .error .invalidTaskType else .ok ()
  | .jobSubmitAck jobId | .jobStatusRequest jobId
  | .jobStatusNotFound jobId =>
      if jobId == 0 then .error .invalidJobId else .ok ()
  | .jobAssign payload =>
      if !validTask payload.taskType then .error .invalidTaskType else .ok ()
  | .jobStarted _ => .ok ()
  | .jobCompleted _ => .ok ()
  | .jobFailed payload =>
      if payload.failure != JobFailure.task.code then .error .invalidFailure
      else .ok ()
  | .jobStatusResponse payload => validateJobStatus payload
  | .jobsResponse entries => validateJobs entries
  | .workersResponse payload => validateWorkers payload
  | .statsResponse payload => validateStats payload
  | .unknown _ => .error .unknownMessageType

def checkIdentity : Option JobIdentity → Except ProtocolError Unit
  | none => .ok ()
  | some identity => validateIdentity identity

/-- `validate_message`: the exact payload size. -/
def validateMessage (message : Message) : Except ProtocolError Nat :=
  match message.type with
  | none => .error .unknownMessageType
  | some type =>
      match message.validateFields with
      | .error e => .error e
      | .ok () =>
          match checkIdentity message.identity with
          | .error e => .error e
          | .ok () =>
              if message.dataSize > type.maximum - type.minimum then
                .error .payloadTooLarge
              else .ok (type.minimum + message.dataSize)

-- ===================================================== encoding

def identityStores (identity : JobIdentity) : Stores :=
  [(0, putU64 identity.jobId), (8, putU32 identity.workerId),
    (12, putU64 identity.attempt)]

def jobSummaryStores (entry : JobSummary) : Stores :=
  [(0, putU64 entry.jobId), (8, putU16 entry.taskType),
    (10, putU16 entry.state), (12, putU32 entry.workerId),
    (16, putU64 entry.attempt), (24, putU32 entry.retryCount),
    (28, putU32 entry.maxRetries), (32, putU16 entry.failure),
    (34, putU32 entry.resultSize)]

def workerSummaryStores (entry : WorkerSummary) : Stores :=
  [(0, putU32 entry.workerId), (4, putU16 entry.state),
    (6, putU64 entry.heartbeatAgeMs), (14, putU64 entry.jobId),
    (22, putU64 entry.attempt)]

def statsStores (stats : StatsPayload) : Stores :=
  [(0, putU64 stats.jobsSubmittedTotal), (8, putU64 stats.jobsQueued),
    (16, putU64 stats.jobsAssigned), (24, putU64 stats.jobsRunning),
    (32, putU64 stats.jobsCompletedTotal), (40, putU64 stats.jobsFailedTotal),
    (48, putU64 stats.jobAttemptsTotal), (56, putU64 stats.jobRetriesTotal),
    (64, putU64 stats.completedLatencyAvgMs),
    (72, putU64 stats.workersRetained), (80, putU64 stats.workersAlive),
    (88, putU64 stats.workersExpired), (96, putU64 stats.workersDead),
    (104, putU64 stats.workersBusy), (112, putU64 stats.workersIdle),
    (120, putU64 stats.sessionUptimeMs),
    (128, putU64 stats.sessionJobsSubmitted),
    (136, putU64 stats.sessionJobsCompleted),
    (144, putU64 stats.sessionJobsFailed),
    (152, putU64 stats.sessionJobRetries),
    (160, putU64 stats.startupJobsRecovered),
    (168, putU64 stats.startupInterruptedJobs),
    (176, putU64 stats.startupDurationMs),
    (184, putU64 stats.heartbeatTimeoutMs)]

/-- The switch of `faultline_message_encode`, by offset into the payload.
A size is narrowed to 32 bits as it is stored. -/
def Message.stores : Message → Stores
  | .workerRegisterAck workerId | .heartbeat workerId =>
      [(0, putU32 workerId)]
  | .jobSubmit payload =>
      [(0, putU16 payload.taskType), (2, putU32 payload.maxRetries),
        (6, putU32 (.ofNat payload.arguments.length)), (10, payload.arguments)]
  | .jobSubmitAck jobId | .jobStatusRequest jobId
  | .jobStatusNotFound jobId => [(0, putU64 jobId)]
  | .jobAssign payload =>
      identityStores payload.identity
        ++ [(20, putU16 payload.taskType),
          (22, putU32 (.ofNat payload.arguments.length)),
          (26, payload.arguments)]
  | .jobStarted identity => identityStores identity
  | .jobCompleted payload =>
      identityStores payload.identity
        ++ [(20, putU32 (.ofNat payload.result.length)), (24, payload.result)]
  | .jobFailed payload =>
      identityStores payload.identity ++ [(20, putU16 payload.failure)]
  | .jobStatusResponse status =>
      [(0, putU64 status.jobId), (8, putU16 status.state),
        (10, putU32 status.workerId), (14, putU64 status.attempt),
        (22, putU32 status.retryCount), (26, putU32 status.maxRetries),
        (30, putU16 status.failure),
        (32, putU32 (.ofNat status.result.length)), (36, status.result)]
  | .jobsResponse entries =>
      (0, putU32 (.ofNat entries.length))
        :: Stores.rows jobSummaryStores jobsPrefixSize jobSummarySize 0 entries
  | .workersResponse payload =>
      (0, putU32 (.ofNat payload.entries.length))
        :: (4, putU32 payload.heartbeatTimeoutMs)
        :: Stores.rows workerSummaryStores workersPrefixSize
          workerSummarySize 0 payload.entries
  | .statsResponse payload => statsStores payload
  | .ping _ | .pong _ | .workerRegister _ | .jobsRequest _
  | .workersRequest _ | .statsRequest _ | .unknown _ => []

/-- The number a message is sent under. -/
def Message.messageType : Message → UInt16
  | .unknown messageType => messageType.1
  | message => (message.type.map MessageType.code).getD 0

/-- The header `faultline_message_encode` fills in. -/
def Message.header (message : Message) (payloadLength : Nat) :
    ProtocolHeader :=
  { magic := protocolMagic, version := protocolVersion,
    messageType := message.messageType, payloadLength := .ofNat payloadLength }

/-- `faultline_message_encode`: the buffer afterwards and `written`. -/
def messageEncode (wire : List UInt8) (message : Message) :
    Except ProtocolError (List UInt8 × Nat) :=
  match validateMessage message with
  | .error e => .error e
  | .ok payloadLength =>
      if wire.length < headerSize + payloadLength then .error .bufferTooSmall
      else
        match headerEncode wire (message.header payloadLength) with
        | .error e => .error e
        | .ok wire =>
            .ok ((message.stores.shift headerSize).run wire,
              headerSize + payloadLength)

-- ===================================================== decoding

def readIdentity (bytes : List UInt8) : JobIdentity :=
  { jobId := getU64 bytes
    workerId := getU32 (bytes.drop 8)
    attempt := getU64 (bytes.drop 12) }

/-- Variable data that has not been copied yet: as many zeros as the
embedded length says. -/
def pendingData (size : UInt32) : List UInt8 :=
  List.replicate size.toNat 0

def readJobSubmit (payload : List UInt8) : JobSubmitPayload :=
  { taskType := getU16 payload
    maxRetries := getU32 (payload.drop 2)
    arguments := pendingData (getU32 (payload.drop 6)) }

def readJobAssign (payload : List UInt8) : JobAssignPayload :=
  { identity := readIdentity payload
    taskType := getU16 (payload.drop 20)
    arguments := pendingData (getU32 (payload.drop 22)) }

def readJobCompleted (payload : List UInt8) : JobCompletedPayload :=
  { identity := readIdentity payload
    result := pendingData (getU32 (payload.drop 20)) }

def readJobFailed (payload : List UInt8) : JobFailedPayload :=
  { identity := readIdentity payload
    failure := getU16 (payload.drop 20) }

def readJobStatus (payload : List UInt8) : JobStatusPayload :=
  { jobId := getU64 payload
    state := getU16 (payload.drop 8)
    workerId := getU32 (payload.drop 10)
    attempt := getU64 (payload.drop 14)
    retryCount := getU32 (payload.drop 22)
    maxRetries := getU32 (payload.drop 26)
    failure := getU16 (payload.drop 30)
    result := pendingData (getU32 (payload.drop 32)) }

def readJobSummary (bytes : List UInt8) : JobSummary :=
  { jobId := getU64 bytes
    taskType := getU16 (bytes.drop 8)
    state := getU16 (bytes.drop 10)
    workerId := getU32 (bytes.drop 12)
    attempt := getU64 (bytes.drop 16)
    retryCount := getU32 (bytes.drop 24)
    maxRetries := getU32 (bytes.drop 28)
    failure := getU16 (bytes.drop 32)
    resultSize := getU32 (bytes.drop 34) }

def readWorkerSummary (bytes : List UInt8) : WorkerSummary :=
  { workerId := getU32 bytes
    state := getU16 (bytes.drop 4)
    heartbeatAgeMs := getU64 (bytes.drop 6)
    jobId := getU64 (bytes.drop 14)
    attempt := getU64 (bytes.drop 22) }

def readStats (payload : List UInt8) : StatsPayload :=
  { jobsSubmittedTotal := getU64 payload
    jobsQueued := getU64 (payload.drop 8)
    jobsAssigned := getU64 (payload.drop 16)
    jobsRunning := getU64 (payload.drop 24)
    jobsCompletedTotal := getU64 (payload.drop 32)
    jobsFailedTotal := getU64 (payload.drop 40)
    jobAttemptsTotal := getU64 (payload.drop 48)
    jobRetriesTotal := getU64 (payload.drop 56)
    completedLatencyAvgMs := getU64 (payload.drop 64)
    workersRetained := getU64 (payload.drop 72)
    workersAlive := getU64 (payload.drop 80)
    workersExpired := getU64 (payload.drop 88)
    workersDead := getU64 (payload.drop 96)
    workersBusy := getU64 (payload.drop 104)
    workersIdle := getU64 (payload.drop 112)
    sessionUptimeMs := getU64 (payload.drop 120)
    sessionJobsSubmitted := getU64 (payload.drop 128)
    sessionJobsCompleted := getU64 (payload.drop 136)
    sessionJobsFailed := getU64 (payload.drop 144)
    sessionJobRetries := getU64 (payload.drop 152)
    startupJobsRecovered := getU64 (payload.drop 160)
    startupInterruptedJobs := getU64 (payload.drop 168)
    startupDurationMs := getU64 (payload.drop 176)
    heartbeatTimeoutMs := getU64 (payload.drop 184) }

/-- The count of a listing, which has to fill the payload exactly. -/
def listCount (limit minimum stride payloadLength : Nat)
    (payload : List UInt8) : Except ProtocolError Nat :=
  if (getU32 payload).toNat > limit then .error .invalidListCount
  else if payloadLength ≠ minimum + (getU32 payload).toNat * stride then
    .error .invalidPayloadLength
  else .ok (getU32 payload).toNat

/-- The loop over the rows of a listing. -/
def readRows {α : Type} (readRow : List UInt8 → α) (minimum stride count : Nat)
    (payload : List UInt8) : List α :=
  (List.range count).map fun i => readRow (payload.drop (minimum + i * stride))

def decodeJobs (payloadLength : Nat) (payload : List UInt8) :
    Except ProtocolError Message :=
  match listCount jobsMaxEntries jobsPrefixSize jobSummarySize payloadLength
      payload with
  | .error e => .error e
  | .ok count =>
      if payload.length < payloadLength then .error .bufferTooSmall
      else .ok (.jobsResponse
        (readRows readJobSummary jobsPrefixSize jobSummarySize count payload))

def decodeWorkers (payloadLength : Nat) (payload : List UInt8) :
    Except ProtocolError Message :=
  match listCount workersMaxEntries workersPrefixSize workerSummarySize
      payloadLength payload with
  | .error e => .error e
  | .ok count =>
      if getU32 (payload.drop 4) == 0 then .error .invalidHeartbeatTimeout
      else if payload.length < payloadLength then .error .bufferTooSmall
      else .ok (.workersResponse
        { heartbeatTimeoutMs := getU32 (payload.drop 4)
          entries := readRows readWorkerSummary workersPrefixSize
            workerSummarySize count payload })

/-- The switch of `faultline_message_decode`, once the fixed part of the
payload is there. -/
def decodeFields (type : MessageType) (payloadLength : Nat)
    (payload : List UInt8) : Except ProtocolError Message :=
  match type with
  | .ping => .ok (.ping 0)
  | .pong => .ok (.pong 0)
  | .workerRegister => .ok (.workerRegister 0)
  | .workerRegisterAck => .ok (.workerRegisterAck (getU32 payload))
  | .heartbeat => .ok (.heartbeat (getU32 payload))
  | .jobSubmit => .ok (.jobSubmit (readJobSubmit payload))
  | .jobSubmitAck => .ok (.jobSubmitAck (getU64 payload))
  | .jobAssign => .ok (.jobAssign (readJobAssign payload))
  | .jobStarted => .ok (.jobStarted (readIdentity payload))
  | .jobCompleted => .ok (.jobCompleted (readJobCompleted payload))
  | .jobFailed => .ok (.jobFailed (readJobFailed payload))
  | .jobStatusRequest => .ok (.jobStatusRequest (getU64 payload))
  | .jobStatusResponse => .ok (.jobStatusResponse (readJobStatus payload))
  | .jobStatusNotFound => .ok (.jobStatusNotFound (getU64 payload))
  | .jobsRequest => .ok (.jobsRequest 0)
  | .jobsResponse => decodeJobs payloadLength payload
  | .workersRequest => .ok (.workersRequest 0)
  | .workersResponse => decodeWorkers payloadLength payload
  | .statsRequest => .ok (.statsRequest 0)
  | .statsResponse => .ok (.statsResponse (readStats payload))

/-- The copy of the variable data, for the messages that have some. -/
def Message.setData (data : List UInt8) : Message → Message
  | .jobSubmit payload => .jobSubmit { payload with arguments := data }
  | .jobAssign payload => .jobAssign { payload with arguments := data }
  | .jobCompleted payload => .jobCompleted { payload with result := data }
  | .jobStatusResponse payload =>
      .jobStatusResponse { payload with result := data }
  | message => message

/-- The checks behind the switch, and the copy. -/
def finishDecode (type : MessageType) (payloadLength : Nat)
    (payload : List UInt8) (decoded : Message) :
    Except ProtocolError (Message × Nat) :=
  match validateMessage decoded with
  | .error e => .error e
  | .ok expectedSize =>
      if payloadLength ≠ expectedSize then .error .invalidPayloadLength
      else if payload.length < expectedSize then .error .bufferTooSmall
      else
        .ok (decoded.setData ((payload.drop type.minimum).take
          (expectedSize - type.minimum)), headerSize + expectedSize)

/-- The part of `faultline_message_decode` behind the header. -/
def decodeBody (type : MessageType) (payloadLength : Nat)
    (payload : List UInt8) : Except ProtocolError (Message × Nat) :=
  if payloadLength < type.minimum
      || (type.minimum == type.maximum && payloadLength != type.minimum) then
    .error .invalidPayloadLength
  else if payloadLength > type.maximum then .error .payloadTooLarge
  else if payload.length < type.minimum then .error .bufferTooSmall
  else
    match decodeFields type payloadLength payload with
    | .error e => .error e
    | .ok decoded => finishDecode type payloadLength payload decoded

/-- `faultline_message_decode`: the message and `consumed`. -/
def messageDecode (wire : List UInt8) :
    Except ProtocolError (Message × Nat) :=
  match headerDecode wire with
  | .error e => .error e
  | .ok header =>
      match messagePayloadBounds header.messageType with
      | .error e => .error e
      | .ok type =>
          decodeBody type header.payloadLength.toNat (wire.drop headerSize)

end Faultline
