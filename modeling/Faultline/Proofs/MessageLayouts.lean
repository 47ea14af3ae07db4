/-
The hand-written offsets of the protocol are layouts.

The encoder stores each field at an offset and the decoder reads each field
at an offset; both tables were written out by hand. For every fixed part of
a payload this module names the one layout both are meant to follow, and
shows that the stores are adjacent and spell the layout's bytes, and that the
reader is the layout's reader. Nothing later looks at an offset.
-/
import Faultline.Lib.Layout
import Faultline.Protocol.Codec

namespace Faultline

open Lib

-- ====================================================== layouts

def headerLayout : Layout ProtocolHeader :=
  (Layout.u32.pair (Layout.u16.pair (Layout.u16.pair .u32))).as
    (fun f => ⟨f.1, f.2.1, f.2.2.1, f.2.2.2⟩)
    (fun h => (h.magic, h.version, h.messageType, h.payloadLength))
    (fun _ => rfl) (fun _ => rfl)

def identityLayout : Layout JobIdentity :=
  (Layout.u64.pair (Layout.u32.pair .u64)).as
    (fun f => ⟨f.1, f.2.1, f.2.2⟩)
    (fun i => (i.jobId, i.workerId, i.attempt))
    (fun _ => rfl) (fun _ => rfl)

/-- The fixed part of a submission: task, retries, argument size. -/
def submitLayout : Layout (UInt16 × UInt32 × UInt32) :=
  Layout.u16.pair (Layout.u32.pair .u32)

/-- The fixed part of an assignment: identity, task, argument size. -/
def assignLayout : Layout (JobIdentity × UInt16 × UInt32) :=
  identityLayout.pair (Layout.u16.pair .u32)

/-- The fixed part of a completion: identity, result size. -/
def completedLayout : Layout (JobIdentity × UInt32) :=
  identityLayout.pair .u32

def failedLayout : Layout JobFailedPayload :=
  (identityLayout.pair .u16).as (fun f => ⟨f.1, f.2⟩)
    (fun p => (p.identity, p.failure)) (fun _ => rfl) (fun _ => rfl)

/-- The fixed part of a status: its fields in order, and the result
size. -/
def statusLayout : Layout (UInt64 × UInt16 × UInt32 × UInt64 × UInt32
    × UInt32 × UInt16 × UInt32) :=
  Layout.u64.pair (Layout.u16.pair (Layout.u32.pair (Layout.u64.pair
    (Layout.u32.pair (Layout.u32.pair (Layout.u16.pair .u32))))))

def jobSummaryLayout : Layout JobSummary :=
  (Layout.u64.pair (Layout.u16.pair (Layout.u16.pair (Layout.u32.pair
    (Layout.u64.pair (Layout.u32.pair (Layout.u32.pair
      (Layout.u16.pair .u32)))))))).as
    (fun f => ⟨f.1, f.2.1, f.2.2.1, f.2.2.2.1, f.2.2.2.2.1, f.2.2.2.2.2.1,
      f.2.2.2.2.2.2.1, f.2.2.2.2.2.2.2.1, f.2.2.2.2.2.2.2.2⟩)
    (fun e => (e.jobId, e.taskType, e.state, e.workerId, e.attempt,
      e.retryCount, e.maxRetries, e.failure, e.resultSize))
    (fun _ => rfl) (fun _ => rfl)

def workerSummaryLayout : Layout WorkerSummary :=
  (Layout.u32.pair (Layout.u16.pair (Layout.u64.pair
    (Layout.u64.pair .u64)))).as
    (fun f => ⟨f.1, f.2.1, f.2.2.1, f.2.2.2.1, f.2.2.2.2⟩)
    (fun e => (e.workerId, e.state, e.heartbeatAgeMs, e.jobId, e.attempt))
    (fun _ => rfl) (fun _ => rfl)

/-- Six consecutive words. -/
def sixWords : Layout (UInt64 × UInt64 × UInt64 × UInt64 × UInt64
    × UInt64) :=
  Layout.u64.pair (Layout.u64.pair (Layout.u64.pair (Layout.u64.pair
    (Layout.u64.pair .u64))))

def statsLayout : Layout StatsPayload :=
  (sixWords.pair (sixWords.pair (sixWords.pair sixWords))).as
    (fun f => ⟨f.1.1, f.1.2.1, f.1.2.2.1, f.1.2.2.2.1, f.1.2.2.2.2.1,
      f.1.2.2.2.2.2, f.2.1.1, f.2.1.2.1, f.2.1.2.2.1, f.2.1.2.2.2.1,
      f.2.1.2.2.2.2.1, f.2.1.2.2.2.2.2, f.2.2.1.1, f.2.2.1.2.1,
      f.2.2.1.2.2.1, f.2.2.1.2.2.2.1, f.2.2.1.2.2.2.2.1, f.2.2.1.2.2.2.2.2,
      f.2.2.2.1, f.2.2.2.2.1, f.2.2.2.2.2.1, f.2.2.2.2.2.2.1,
      f.2.2.2.2.2.2.2.1, f.2.2.2.2.2.2.2.2⟩)
    (fun s => ((s.jobsSubmittedTotal, s.jobsQueued, s.jobsAssigned,
        s.jobsRunning, s.jobsCompletedTotal, s.jobsFailedTotal),
      (s.jobAttemptsTotal, s.jobRetriesTotal, s.completedLatencyAvgMs,
        s.workersRetained, s.workersAlive, s.workersExpired),
      (s.workersDead, s.workersBusy, s.workersIdle, s.sessionUptimeMs,
        s.sessionJobsSubmitted, s.sessionJobsCompleted),
      (s.sessionJobsFailed, s.sessionJobRetries, s.startupJobsRecovered,
        s.startupInterruptedJobs, s.startupDurationMs,
        s.heartbeatTimeoutMs)))
    (fun _ => rfl) (fun _ => rfl)

-- ======================================================= readers

attribute [local simp] Layout.as Layout.pair Layout.u16 Layout.u32 Layout.u64

theorem readHeader_eq : readHeader = headerLayout.read := by
  funext bytes
  simp [readHeader, headerLayout]

theorem readIdentity_eq : readIdentity = identityLayout.read := by
  funext bytes
  simp [readIdentity, identityLayout]

theorem readJobFailed_eq : readJobFailed = failedLayout.read := by
  funext bytes
  simp [readJobFailed, readIdentity, failedLayout, identityLayout]

theorem readJobSummary_eq : readJobSummary = jobSummaryLayout.read := by
  funext bytes
  simp [readJobSummary, jobSummaryLayout]

theorem readWorkerSummary_eq :
    readWorkerSummary = workerSummaryLayout.read := by
  funext bytes
  simp [readWorkerSummary, workerSummaryLayout]

theorem readStats_eq : readStats = statsLayout.read := by
  funext bytes
  simp [readStats, statsLayout, sixWords]

theorem readJobSubmit_eq (bytes : List UInt8) :
    readJobSubmit bytes = ⟨(submitLayout.read bytes).1,
      (submitLayout.read bytes).2.1,
      pendingData (submitLayout.read bytes).2.2⟩ := by
  simp [readJobSubmit, submitLayout]

theorem readJobAssign_eq (bytes : List UInt8) :
    readJobAssign bytes = ⟨(assignLayout.read bytes).1,
      (assignLayout.read bytes).2.1,
      pendingData (assignLayout.read bytes).2.2⟩ := by
  simp [readJobAssign, readIdentity, assignLayout, identityLayout]

theorem readJobCompleted_eq (bytes : List UInt8) :
    readJobCompleted bytes = ⟨(completedLayout.read bytes).1,
      pendingData (completedLayout.read bytes).2⟩ := by
  simp [readJobCompleted, readIdentity, completedLayout, identityLayout]

theorem readJobStatus_eq (bytes : List UInt8) :
    readJobStatus bytes = ⟨(statusLayout.read bytes).1,
      (statusLayout.read bytes).2.1, (statusLayout.read bytes).2.2.1,
      (statusLayout.read bytes).2.2.2.1, (statusLayout.read bytes).2.2.2.2.1,
      (statusLayout.read bytes).2.2.2.2.2.1,
      (statusLayout.read bytes).2.2.2.2.2.2.1,
      pendingData (statusLayout.read bytes).2.2.2.2.2.2.2⟩ := by
  simp [readJobStatus, statusLayout]

/-- The strided rows of a listing are its layout, repeated behind the
prefix. -/
theorem readRows_eq {α : Type} (layout : Layout α) (minimum count : Nat)
    (payload : List UInt8) :
    readRows layout.read minimum layout.size count payload
      = layout.readAll count (payload.drop minimum) := by
  unfold readRows Layout.readAll
  refine List.map_congr_left fun i _ => ?_
  rw [List.drop_drop]

-- ======================================================== stores

attribute [local simp] Stores.Adjacent

theorem adjacent_header (header : ProtocolHeader) :
    Stores.Adjacent 0 (headerStores header) := by
  simp [headerStores]

theorem bytes_header (header : ProtocolHeader) :
    (headerStores header).bytes = headerLayout.write header := by
  simp [headerStores, headerLayout]

theorem adjacent_identity (identity : JobIdentity) :
    Stores.Adjacent 0 (identityStores identity) := by
  simp [identityStores]

theorem bytes_identity (identity : JobIdentity) :
    (identityStores identity).bytes = identityLayout.write identity := by
  simp [identityStores, identityLayout]

theorem adjacent_jobSummary (entry : JobSummary) :
    Stores.Adjacent 0 (jobSummaryStores entry) := by
  simp [jobSummaryStores]

theorem bytes_jobSummary (entry : JobSummary) :
    (jobSummaryStores entry).bytes = jobSummaryLayout.write entry := by
  simp [jobSummaryStores, jobSummaryLayout]

theorem adjacent_workerSummary (entry : WorkerSummary) :
    Stores.Adjacent 0 (workerSummaryStores entry) := by
  simp [workerSummaryStores]

theorem bytes_workerSummary (entry : WorkerSummary) :
    (workerSummaryStores entry).bytes = workerSummaryLayout.write entry := by
  simp [workerSummaryStores, workerSummaryLayout]

theorem adjacent_stats (stats : StatsPayload) :
    Stores.Adjacent 0 (statsStores stats) := by
  simp [statsStores]

theorem bytes_stats (stats : StatsPayload) :
    (statsStores stats).bytes = statsLayout.write stats := by
  simp [statsStores, statsLayout, sixWords]

/-- The rows of a job listing, behind its prefix. -/
theorem bytes_jobRows (base stride i : Nat) (entries : List JobSummary) :
    (Stores.rows jobSummaryStores base stride i entries).bytes
      = jobSummaryLayout.writeAll entries := by
  rw [Stores.bytes_rows, funext bytes_jobSummary]
  rfl

theorem bytes_workerRows (base stride i : Nat)
    (entries : List WorkerSummary) :
    (Stores.rows workerSummaryStores base stride i entries).bytes
      = workerSummaryLayout.writeAll entries := by
  rw [Stores.bytes_rows, funext bytes_workerSummary]
  rfl

-- ====================================================== payloads

/-- The fixed part of a message's payload. -/
def Message.head : Message → List UInt8
  | .workerRegisterAck workerId | .heartbeat workerId =>
      Layout.u32.write workerId
  | .jobSubmit payload =>
      submitLayout.write (payload.taskType, payload.maxRetries,
        .ofNat payload.arguments.length)
  | .jobSubmitAck jobId | .jobStatusRequest jobId
  | .jobStatusNotFound jobId => Layout.u64.write jobId
  | .jobAssign payload =>
      assignLayout.write (payload.identity, payload.taskType,
        .ofNat payload.arguments.length)
  | .jobStarted identity => identityLayout.write identity
  | .jobCompleted payload =>
      completedLayout.write (payload.identity, .ofNat payload.result.length)
  | .jobFailed payload => failedLayout.write payload
  | .jobStatusResponse status =>
      statusLayout.write (status.jobId, status.state, status.workerId,
        status.attempt, status.retryCount, status.maxRetries, status.failure,
        .ofNat status.result.length)
  | .jobsResponse entries => Layout.u32.write (.ofNat entries.length)
  | .workersResponse payload =>
      (Layout.u32.pair .u32).write (.ofNat payload.entries.length,
        payload.heartbeatTimeoutMs)
  | .statsResponse payload => statsLayout.write payload
  | .ping _ | .pong _ | .workerRegister _ | .jobsRequest _
  | .workersRequest _ | .statsRequest _ | .unknown _ => []

/-- The variable part: data, or rows. -/
def Message.tail : Message → List UInt8
  | .jobSubmit payload => payload.arguments
  | .jobAssign payload => payload.arguments
  | .jobCompleted payload => payload.result
  | .jobStatusResponse status => status.result
  | .jobsResponse entries => jobSummaryLayout.writeAll entries
  | .workersResponse payload => workerSummaryLayout.writeAll payload.entries
  | _ => []

theorem Message.length_head {message : Message} {type : MessageType}
    (h : message.type = some type) : message.head.length = type.minimum := by
  cases message <;> cases h <;> rfl

theorem Message.length_tail (message : Message) :
    message.tail.length = message.dataSize := by
  cases message <;> first | rfl | exact Layout.length_writeAll _ _

theorem Message.bytes_stores (message : Message) :
    message.stores.bytes = message.head ++ message.tail := by
  cases message <;>
    simp [Message.stores, Message.head, Message.tail, Stores.bytes_append,
      bytes_identity, bytes_stats, bytes_jobRows, bytes_workerRows,
      submitLayout, assignLayout, completedLayout, failedLayout, statusLayout]

theorem Message.adjacent_stores (message : Message) :
    Stores.Adjacent 0 message.stores := by
  have hid : ∀ (identity : JobIdentity) (rest : Stores),
      Stores.Adjacent 20 rest →
        Stores.Adjacent 0 (identityStores identity ++ rest) := by
    intro identity rest hrest
    refine (adjacent_identity identity).append ?_
    rw [bytes_identity, identityLayout.length_write]
    exact hrest
  cases message with
  | jobAssign payload => exact hid _ _ (by simp)
  | jobStarted identity => exact adjacent_identity identity
  | jobCompleted payload => exact hid _ _ (by simp)
  | jobFailed payload => exact hid _ _ (by simp)
  | jobsResponse entries =>
      refine ⟨rfl, ?_⟩
      exact Stores.adjacent_rows adjacent_jobSummary (fun entry =>
        (congrArg List.length (bytes_jobSummary entry)).trans
          (jobSummaryLayout.length_write entry)) 4 0 entries
  | workersResponse payload =>
      refine ⟨rfl, rfl, ?_⟩
      exact Stores.adjacent_rows adjacent_workerSummary (fun entry =>
        (congrArg List.length (bytes_workerSummary entry)).trans
          (workerSummaryLayout.length_write entry)) 8 0 payload.entries
  | statsResponse payload => exact adjacent_stats payload
  | _ => simp [Message.stores]

end Faultline
