/-
Log replay (include/wal_replay.h, src/coordinator/wal_replay.c).

Replay reads an existing log record by record, re-derives every job
snapshot from the job model and compares it with the stored one byte for
byte. A cut at the end of the file is a tail to remove; anything else that
does not fit is an error, and nothing is truncated then. The recovered
state is published only after the surviving file and its directory are
synced.

Byte counts are natural numbers. The index of allocated worker ids is the
used part of its growing array, and growing it always succeeds.
-/
import Faultline.Scheduler
import Faultline.Wal.Writer
import Faultline.WorkerRegistry

namespace Faultline

open Lib WalCtx

-- ======================================================== types

structure WalReplayState where
  scheduler : Scheduler
  workers : WorkerRegistry
  lastSequence : UInt64
  highestJobId : UInt64
  highestWorkerId : UInt32
  jobTimeBaseMs : Int64
deriving DecidableEq, Repr

inductive WalReplayResult where
  | ok
  | invalidArgument
  | invalidState
  | ioError
  | badFormat
  | badHistory
  | capacity
  | noMemory
deriving DecidableEq, Repr

inductive WalHistoryError where
  | allocation
  | unknownJob
  | unknownWorker
  | busyWorker
  | fifo
  | time
  | transition
  | snapshot
deriving DecidableEq, Repr

structure WalReplayReport where
  validBytes : Nat
  tailBytes : Nat
  errorOffset : Nat
  lastSequence : UInt64
  formatError : Option WalError
  historyError : Option WalHistoryError
deriving DecidableEq, Repr

def walReplayReportInit : WalReplayReport :=
  { validBytes := 0, tailBytes := 0, errorOffset := 0, lastSequence := 0,
    formatError := none, historyError := none }

def walReplayStateInit : WalReplayState :=
  { scheduler := schedulerInit, workers := workerRegistryInit,
    lastSequence := 0, highestJobId := 0, highestWorkerId := 0,
    jobTimeBaseMs := 0 }

-- ================================================= worker index

/-- Adjacent allocated ids share one range. -/
structure WorkerRange where
  first : UInt32
  last : UInt32
deriving DecidableEq, Repr

/-- Extend the last range, or open a new one. -/
def extendIndex (index : List WorkerRange) (id : UInt32) :
    List WorkerRange :=
  match index.getLast? with
  | none => [{ first := id, last := id }]
  | some range =>
      if range.last.toUInt64 + 1 == id.toUInt64 then
        index.dropLast ++ [{ range with last := id }]
      else index ++ [{ first := id, last := id }]

def allocateWorker (state : WalReplayState) (index : List WorkerRange)
    (id : UInt32) : Except WalHistoryError (WalReplayState × List WorkerRange) :=
  if id ≤ state.highestWorkerId then .error .allocation
  else
    .ok ({ state with
             highestWorkerId := id
             workers := { state.workers with
               nextWorkerId := nextWorkerIdAfter id } },
      extendIndex index id)

/-- The binary search; the first argument bounds its steps. -/
def searchIndex (index : List WorkerRange) (id : UInt32) :
    Nat → Nat → Nat → Bool
  | 0, _, _ => false
  | fuel + 1, low, high =>
      if low < high then
        let middle := low + (high - low) / 2
        match index[middle]? with
        | none => false
        | some range =>
            if id < range.first then searchIndex index id fuel low middle
            else if id > range.last then
              searchIndex index id fuel (middle + 1) high
            else true
      else false

def workerWasAllocated (index : List WorkerRange) (id : UInt32) : Bool :=
  searchIndex index id index.length 0 index.length

-- ====================================================== records

/-- Compare canonical bytes: re-encode the derived snapshot. -/
def matchesSnapshot (candidate : Job) (event : JobEvent) (sequence : UInt64)
    (wire : List UInt8) : Bool :=
  match walRecordEncode { sequence, entry := .job event candidate }
      walMaxRecordSize with
  | .error _ => false
  | .ok bytes => bytes == wire

/-- Why a record is refused. -/
inductive ApplyError where
  | history (error : WalHistoryError)
  | capacity
deriving DecidableEq, Repr

/-- The checks before a job record's transition, and the transition. -/
def deriveSnapshot (state : WalReplayState) (index : List WorkerRange)
    (event : JobEvent) (saved : Job) : Except ApplyError Job :=
  let scheduler := state.scheduler
  let modelled (result : Except JobError Job) : Except ApplyError Job :=
    match result with
    | .error _ => .error (.history .transition)
    | .ok candidate => .ok candidate
  match event with
  | .created =>
      if saved.id ≤ state.highestJobId then .error (.history .allocation)
      else if scheduler.jobs.length == jobStoreCapacity then .error .capacity
      else
        modelled (jobInit saved.id saved.taskType.code saved.arguments
          saved.maxRetries saved.createdAtMs)
  | event =>
      match scheduler.jobs[findSlot scheduler saved.id]? with
      | none => .error (.history .unknownJob)
      | some job =>
          match event with
          | .assigned =>
              if !workerWasAllocated index saved.workerId then
                .error (.history .unknownWorker)
              else if (schedulerActive scheduler saved.workerId).isSome then
                .error (.history .busyWorker)
              else
                match jobQueuePeek scheduler.pending with
                | .error _ => .error (.history .fifo)
                | .ok head =>
                    if head != saved.id then .error (.history .fifo)
                    else
                      modelled (jobAssign job saved.workerId
                        saved.updatedAtMs)
          | .started =>
              modelled (jobStart job saved.workerId saved.attempt
                saved.updatedAtMs)
          | .completed =>
              modelled (jobComplete job saved.workerId saved.attempt
                saved.result saved.updatedAtMs)
          | .requeued | .failed =>
              modelled (jobFail job job.workerId saved.attempt saved.failure
                saved.updatedAtMs)
          | .created => .error (.history .transition)

/-- Move the queue for an accepted record. -/
def moveQueue (pending : JobQueue) (event : JobEvent) (saved candidate : Job) :
    Except ApplyError JobQueue :=
  if event = .assigned then
    match jobQueuePop pending with
    | .error _ => .error (.history .fifo)
    | .ok (removed, pending) =>
        if removed != saved.id then .error (.history .fifo) else .ok pending
  else if candidate.state == .queued then
    match jobQueuePush pending candidate with
    | .error _ => .error (.history .fifo)
    | .ok pending => .ok pending
  else .ok pending

def applyJob (state : WalReplayState) (index : List WorkerRange)
    (event : JobEvent) (saved : Job) (sequence : UInt64) (wire : List UInt8) :
    Except ApplyError WalReplayState :=
  if saved.updatedAtMs < state.jobTimeBaseMs then .error (.history .time)
  else do
    let candidate ← deriveSnapshot state index event saved
    if !matchesSnapshot candidate event sequence wire then
      .error (.history .snapshot)
    else do
      let pending ← moveQueue state.scheduler.pending event saved candidate
      if event = .created then
        .ok { state with
          scheduler :=
            { jobs := state.scheduler.jobs ++ [candidate]
              nextJobId := nextJobIdAfter saved.id
              pending }
          highestJobId := saved.id
          jobTimeBaseMs := saved.updatedAtMs }
      else
        .ok { state with
          scheduler :=
            { state.scheduler with
              jobs := state.scheduler.jobs.set
                (findSlot state.scheduler saved.id) candidate
              pending }
          jobTimeBaseMs := saved.updatedAtMs }

def applyRecord (state : WalReplayState) (index : List WorkerRange)
    (record : WalRecord) (wire : List UInt8) :
    Except ApplyError (WalReplayState × List WorkerRange) :=
  match record.entry with
  | .workerIdAllocated id =>
      match allocateWorker state index id with
      | .error e => .error (.history e)
      | .ok next => .ok next
  | .job event saved =>
      match applyJob state index event saved record.sequence wire with
      | .error e => .error e
      | .ok state => .ok (state, index)

-- ====================================================== reading

/-- The replay in progress: `state`, `index` and `report`. -/
structure Replaying where
  state : WalReplayState
  index : List WorkerRange
  report : WalReplayReport
deriving DecidableEq, Repr

def replayingInit : Replaying :=
  { state := walReplayStateInit, index := [], report := walReplayReportInit }

namespace Replaying

def formatError (p : Replaying) (error : WalError) :
    WalReplayResult × Replaying :=
  (.badFormat, { p with report := { p.report with formatError := some error } })

def applyError (p : Replaying) : ApplyError → WalReplayResult × Replaying
  | .history error =>
      (.badHistory,
        { p with report := { p.report with historyError := some error } })
  | .capacity => (.capacity, p)

/-- An incomplete record at the end of the file. -/
def tail (p : Replaying) (size : Nat) : WalReplayResult × Replaying :=
  (.ok, { p with report := { p.report with tailBytes := size } })

/-- An accepted record of `size` bytes. -/
def advance (p : Replaying) (state : WalReplayState)
    (index : List WorkerRange) (sequence : UInt64) (size : Nat) : Replaying :=
  { state := { state with lastSequence := sequence }
    index
    report := { p.report with
      lastSequence := sequence
      validBytes := p.report.validBytes + size } }

end Replaying

/-- `read_exact`: `none` after a latched read failure. -/
def readExact (size : Nat) : Prog WalCtx (Option (List UInt8)) := do
  match ← onMachine (Machine.readExact size) with
  | .ok data => return some data
  | .error errno => do
      setWriter fun w => walWriterFail w .readFile errno
      return none

/-- The record loop. Its first argument bounds the number of records; a
log of `n` bytes has fewer than `n`. -/
def readRecords : Nat → Replaying → Prog WalCtx (WalReplayResult × Replaying)
  | 0, _ => fun c => .crash c
  | fuel + 1, q => do
      let p := { q with
        report := { q.report with errorOffset := q.report.validBytes } }
      match ← readExact walRecordHeaderSize with
      | none => return (.ioError, p)
      | some header =>
          if header.length == 0 then return (.ok, p)
          else if p.state.lastSequence == 0xffffffffffffffff then
            return p.formatError .invalidSequence
          else if header.length < walRecordHeaderSize then
            return p.tail header.length
          else
            match walRecordHeaderDecode header (p.state.lastSequence + 1) with
            | .error e => return p.formatError e
            | .ok fields =>
                match ← readExact fields.payloadLength.toNat with
                | none => return (.ioError, p)
                | some payload =>
                    if payload.length < fields.payloadLength.toNat then
                      return p.tail (walRecordHeaderSize + payload.length)
                    else
                      match walRecordDecode (header ++ payload)
                          (p.state.lastSequence + 1) with
                      | .error e => return p.formatError e
                      | .ok (record, _) =>
                          if p.report.validBytes
                              > 0x7fffffffffffffff
                                - (walRecordHeaderSize + payload.length) then
                            setWriter fun w =>
                              walWriterFail w .readFile eoverflow
                            return (.ioError, p)
                          else
                            match applyRecord p.state p.index record
                                (header ++ payload) with
                            | .error e => return p.applyError e
                            | .ok (state, index) =>
                                readRecords fuel (p.advance state index
                                  (p.state.lastSequence + 1)
                                  (walRecordHeaderSize + payload.length))

/-- The file header, then the records, at most `bound` of them. -/
def readHistoryUpTo (bound : Nat) :
    Prog WalCtx (WalReplayResult × Replaying) := do
  match ← readExact walFileHeaderSize with
  | none => return (.ioError, replayingInit)
  | some header =>
      match walFileHeaderDecode header with
      | .error e => return replayingInit.formatError e
      | .ok () =>
          readRecords bound
            { replayingInit with
              report := { walReplayReportInit with
                validBytes := walFileHeaderSize } }

def readHistory : Prog WalCtx (WalReplayResult × Replaying) := fun c =>
  readHistoryUpTo (c.machine.disk.file.length + 1) c

-- ========================================================= open

/-- Remove the incomplete tail, when there is one. -/
def truncateTail (report : WalReplayReport) : Prog WalCtx WalReplayResult := do
  if report.tailBytes != 0 then
    match ← onMachine (Machine.retry (Disk.truncate · report.validBytes)
        fun applied disk =>
          if applied = 0 then disk else disk.truncate report.validBytes) with
    | .ok () => return .ok
    | .error errno => do
        setWriter fun w => walWriterFail w .truncateTail errno
        return .ioError
  else return .ok

def syncRecovery : Prog WalCtx WalReplayResult := do
  match ← andThen (walWriterSyncFile .syncRecovery) walWriterSyncDirectory with
  | .ok => return .ok
  | _ => return .ioError

/-- Disable the writer after a failure that has not done so yet. -/
def rejectReplay (result : WalReplayResult) (w : WalWriter) : WalWriter :=
  if w.state != .failed then
    if result == .noMemory then walWriterFail w .allocateReplay enomem
    else if result == .capacity then walWriterFail w .validateReplay eoverflow
    else walWriterFail w .validateReplay eilseq
  else w

/-- The writer after a recovery, ready to append. -/
def resumeWriter (lastSequence : UInt64) (w : WalWriter) : WalWriter :=
  { w with
    syncedSequence := lastSequence
    nextSequence := nextSequenceAfter lastSequence
    state := .ready }

/-- Go on only while the result is OK. -/
def whileOk (result : WalReplayResult) (next : Prog WalCtx WalReplayResult) :
    Prog WalCtx WalReplayResult :=
  if result == .ok then next else return result

/-- Publish the recovered state, or disable the writer. -/
def publishReplay (p : Replaying) (result : WalReplayResult) :
    Prog WalCtx (WalReplayResult × WalReplayReport × Option WalReplayState) :=
  if result == .ok then do
    setWriter (resumeWriter p.state.lastSequence)
    return (.ok, p.report, some p.state)
  else do
    setWriter (rejectReplay result)
    return (result, p.report, none)

/-- Finish an open whose history was read: truncate, sync, publish. -/
def finishReplay (result : WalReplayResult) (p : Replaying) :
    Prog WalCtx (WalReplayResult × WalReplayReport × Option WalReplayState) := do
  let truncated ← whileOk result (truncateTail p.report)
  let synced ← whileOk truncated syncRecovery
  publishReplay p synced

def walReplayOpen :
    Prog WalCtx (WalReplayResult × WalReplayReport × Option WalReplayState) := do
  match ← walWriterOpenFile false with
  | .ok =>
      match ← call with
      | .error _ => finishReplay .noMemory replayingInit
      | .ok () => do
          let (result, p) ← readHistory
          finishReplay result p
  | .invalidState => return (.invalidState, walReplayReportInit, none)
  | _ => return (.ioError, walReplayReportInit, none)

end Faultline
