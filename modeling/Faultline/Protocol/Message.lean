/-
Host-order protocol messages (include/protocol.h).

`struct faultline_message` is a tagged union; here each tag carries the
member it selects. Fields the decoder range-checks (task types, states,
failures) are the raw wire integers. Variable data is a list of its
active bytes. The six empty messages still carry the union's first
member, which the validator insists is zero.
-/
import Faultline.Job

namespace Faultline

structure JobIdentity where
  jobId : UInt64
  workerId : UInt32
  attempt : UInt64
deriving DecidableEq, Repr

structure JobSubmitPayload where
  taskType : UInt16
  maxRetries : UInt32
  arguments : List UInt8
deriving DecidableEq, Repr

structure JobAssignPayload where
  identity : JobIdentity
  taskType : UInt16
  arguments : List UInt8
deriving DecidableEq, Repr

structure JobCompletedPayload where
  identity : JobIdentity
  result : List UInt8
deriving DecidableEq, Repr

structure JobFailedPayload where
  identity : JobIdentity
  failure : UInt16
deriving DecidableEq, Repr

structure JobStatusPayload where
  jobId : UInt64
  state : UInt16
  workerId : UInt32
  attempt : UInt64
  retryCount : UInt32
  maxRetries : UInt32
  failure : UInt16
  result : List UInt8
deriving DecidableEq, Repr

structure JobSummary where
  jobId : UInt64
  taskType : UInt16
  state : UInt16
  workerId : UInt32
  attempt : UInt64
  retryCount : UInt32
  maxRetries : UInt32
  failure : UInt16
  resultSize : UInt32
deriving DecidableEq, Repr

structure WorkerSummary where
  workerId : UInt32
  state : UInt16
  heartbeatAgeMs : UInt64
  jobId : UInt64
  attempt : UInt64
deriving DecidableEq, Repr

structure WorkersPayload where
  heartbeatTimeoutMs : UInt32
  entries : List WorkerSummary
deriving DecidableEq, Repr

structure StatsPayload where
  jobsSubmittedTotal : UInt64
  jobsQueued : UInt64
  jobsAssigned : UInt64
  jobsRunning : UInt64
  jobsCompletedTotal : UInt64
  jobsFailedTotal : UInt64
  jobAttemptsTotal : UInt64
  jobRetriesTotal : UInt64
  completedLatencyAvgMs : UInt64
  workersRetained : UInt64
  workersAlive : UInt64
  workersExpired : UInt64
  workersDead : UInt64
  workersBusy : UInt64
  workersIdle : UInt64
  sessionUptimeMs : UInt64
  sessionJobsSubmitted : UInt64
  sessionJobsCompleted : UInt64
  sessionJobsFailed : UInt64
  sessionJobRetries : UInt64
  startupJobsRecovered : UInt64
  startupInterruptedJobs : UInt64
  startupDurationMs : UInt64
  heartbeatTimeoutMs : UInt64
deriving DecidableEq, Repr

/-- A message type code outside `enum faultline_message_type`. -/
def UnknownMessageType : Type :=
  { messageType : UInt16 // messageType = 0 ∨ 20 < messageType }
deriving DecidableEq, Repr

inductive Message where
  | ping (workerId : UInt32)
  | pong (workerId : UInt32)
  | workerRegister (workerId : UInt32)
  | workerRegisterAck (workerId : UInt32)
  | heartbeat (workerId : UInt32)
  | jobSubmit (payload : JobSubmitPayload)
  | jobSubmitAck (jobId : UInt64)
  | jobAssign (payload : JobAssignPayload)
  | jobStarted (identity : JobIdentity)
  | jobCompleted (payload : JobCompletedPayload)
  | jobFailed (payload : JobFailedPayload)
  | jobStatusRequest (jobId : UInt64)
  | jobStatusResponse (payload : JobStatusPayload)
  | jobStatusNotFound (jobId : UInt64)
  | jobsRequest (workerId : UInt32)
  | jobsResponse (entries : List JobSummary)
  | workersRequest (workerId : UInt32)
  | workersResponse (payload : WorkersPayload)
  | statsRequest (workerId : UInt32)
  | statsResponse (payload : StatsPayload)
  | unknown (messageType : UnknownMessageType)
deriving DecidableEq, Repr

/-- The identity a worker's report is about, for the three report
types. -/
def Message.reportIdentity : Message → Option JobIdentity
  | .jobStarted identity => some identity
  | .jobCompleted payload => some payload.identity
  | .jobFailed payload => some payload.identity
  | _ => none

end Faultline
