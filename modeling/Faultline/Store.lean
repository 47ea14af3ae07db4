/-
The coordinator store (include/coordinator_store.h,
src/coordinator/coordinator_store.c): the published scheduler and registry,
and the log behind them.

Every change is prepared on a copy, appended and synced, and only then
published; a fatal failure is latched and disables all later changes. The
scratch scheduler of the source is overwritten at the start of every
operation, so it is a local value here. The store owns the writer; the
machine under it is the rest of the context.
-/
import Faultline.Wal.Replay

namespace Faultline

open Lib

-- ======================================================== types

inductive StoreResult where
  | ok
  | rejected
  | empty
  | fatal
deriving DecidableEq, Repr

inductive StoreFailure where
  | none
  | open
  | wal
  | clock
  | internal
deriving DecidableEq, Repr

structure CoordinatorStore where
  jobs : Scheduler
  workers : WorkerRegistry
  wal : WalWriter
  replayReport : WalReplayReport
  replayResult : WalReplayResult
  writeResult : WalWriterResult
  failure : StoreFailure
  opened : Bool
  timeBaseMs : Int64
  sessionStartMs : Int64
  lastJobTimeMs : Int64
  interruptedJobs : Nat
deriving DecidableEq, Repr

def storeInit : CoordinatorStore :=
  { jobs := schedulerInit, workers := workerRegistryInit,
    wal := walWriterInit, replayReport := walReplayReportInit,
    replayResult := .ok, writeResult := .ok, failure := .none,
    opened := false, timeBaseMs := 0, sessionStartMs := 0,
    lastJobTimeMs := 0, interruptedJobs := 0 }

/-- The store and the machine under its log. -/
structure StoreCtx where
  store : CoordinatorStore
  machine : Machine
deriving DecidableEq, Repr

-- ==================================================== primitives

namespace CoordinatorStore

/-- Latch the first failure. -/
def fail (store : CoordinatorStore) (failure : StoreFailure) :
    CoordinatorStore :=
  if store.failure == .none then { store with failure } else store

def usable (store : CoordinatorStore) : Bool :=
  store.opened && store.failure == .none

/-- The logical time of a raw clock reading; `none` is a clock failure. -/
def jobTime (store : CoordinatorStore) (raw : Int64) : Option Int64 :=
  if raw < store.sessionStartMs || raw < 0
      || raw - store.sessionStartMs > 0x7fffffffffffffff - store.timeBaseMs
  then none
  else if store.timeBaseMs + (raw - store.sessionStartMs)
      < store.lastJobTimeMs then none
  else some (store.timeBaseMs + (raw - store.sessionStartMs))

end CoordinatorStore

namespace StoreCtx

/-- Run a writer program on the store's own log. -/
def onWal {α : Type} (p : Prog WalCtx α) : Prog StoreCtx α :=
  Prog.zoom (fun c => { writer := c.store.wal, machine := c.machine })
    (fun w c => { store := { c.store with wal := w.writer },
                  machine := w.machine }) p

def getStore : Prog StoreCtx CoordinatorStore := fun c => .done c.store c

def setStore (update : CoordinatorStore → CoordinatorStore) :
    Prog StoreCtx Unit :=
  fun c => .done () { c with store := update c.store }

/-- `fail`: latch and report. -/
def failStore (failure : StoreFailure) : Prog StoreCtx StoreResult :=
  fun c => .done .fatal { c with store := c.store.fail failure }

end StoreCtx

open StoreCtx

-- =================================================== operations

/-- Append one record; its number is the writer's next. -/
def append (entry : WalEntry) : Prog StoreCtx StoreResult := do
  let store ← getStore
  let result ← onWal (walWriterAppend
    { sequence := store.wal.nextSequence, entry })
  setStore fun store => { store with writeResult := result }
  if result != .ok then failStore .wal else return .ok

/-- Log one job of the prepared scheduler, then publish all of it. -/
def commitJob (scratch : Scheduler) (id : UInt64) (event : JobEvent) :
    Prog StoreCtx StoreResult :=
  match schedulerFind scratch id with
  | none => failStore .internal
  | some job => do
      match ← append (.job event job) with
      | .ok => do
          setStore fun store =>
            { store with jobs := scratch, lastJobTimeMs := job.updatedAtMs }
          return .ok
      | _ => return .fatal

/-- Fail without an output. -/
def failOutput {α : Type} (failure : StoreFailure) :
    Prog StoreCtx (StoreResult × Option α) := do
  return (← failStore failure, none)

/-- Commit, and on success return an output. -/
def commitOutput {α : Type} (commit : Prog StoreCtx StoreResult) (output : α) :
    Prog StoreCtx (StoreResult × Option α) := do
  match ← commit with
  | .ok => return (.ok, some output)
  | _ => return (.fatal, none)

def storeRegister (fd : Int) (nowMs : Int64) :
    Prog StoreCtx (StoreResult × Option UInt32) := do
  let store ← getStore
  if !store.usable then return (.fatal, none)
  else if nowMs < 0 then failOutput .clock
  else
    match workerRegister store.workers fd nowMs with
    | .error _ => return (.rejected, none)
    | .ok (id, candidate) => do
        match ← append (.workerIdAllocated id) with
        | .ok => do
            setStore fun store => { store with workers := candidate }
            return (.ok, some id)
        | _ => return (.fatal, none)

def storeSubmit (submit : JobSubmitPayload) (nowMs : Int64) :
    Prog StoreCtx (StoreResult × Option UInt64) := do
  let store ← getStore
  if !store.usable then return (.fatal, none)
  else
    match store.jobTime nowMs with
    | none => failOutput .clock
    | some time =>
        match schedulerSubmit store.jobs submit time with
        | (.ok, scratch, some id) =>
            commitOutput (commitJob scratch id .created) id
        | (.queueError, _, _) => failOutput .internal
        | _ => return (.rejected, none)

/-- A worker that is registered and alive. -/
def workerIsAlive (workers : WorkerRegistry) (workerId : UInt32) : Bool :=
  match workerFind workers workerId with
  | none => false
  | some worker => worker.state == .alive

def storeAssign (workerId : UInt32) (nowMs : Int64) :
    Prog StoreCtx (StoreResult × Option JobAssignPayload) := do
  let store ← getStore
  if !store.usable then return (.fatal, none)
  else if !workerIsAlive store.workers workerId then return (.rejected, none)
  else
    match store.jobTime nowMs with
    | none => failOutput .clock
    | some time =>
        match schedulerAssign store.jobs workerId time with
        | (.ok, scratch, some candidate) =>
            commitOutput
              (commitJob scratch candidate.identity.jobId .assigned) candidate
        | (.empty, _, _) => return (.empty, none)
        | (.workerBusy, _, _) => return (.rejected, none)
        | _ => failOutput .internal

/-- The state of a job of the prepared scheduler. -/
def candidateState (scratch : Scheduler) (id : UInt64) : JobState :=
  ((schedulerFind scratch id).map Job.state).getD .failed

def storeReport (workerId : UInt32) (report : Message) (nowMs : Int64) :
    Prog StoreCtx StoreResult := do
  let store ← getStore
  if !store.usable then return .fatal
  else if !workerIsAlive store.workers workerId then return .rejected
  else
    match schedulerActive store.jobs workerId with
    | none => return .rejected
    | some active =>
        match store.jobTime nowMs with
        | none => failStore .clock
        | some time =>
            match schedulerReport store.jobs workerId report time with
            | (.ok, scratch) =>
                -- The record type follows from the state reached.
                commitJob scratch active.id
                  (outcomeEvent (candidateState scratch active.id))
            | (.queueError, _) => failStore .internal
            | _ => return .rejected

def commitWorkerLoss (workerId : UInt32) (nowMs : Int64) :
    Prog StoreCtx StoreResult := do
  let store ← getStore
  match schedulerActive store.jobs workerId with
  | none => return .empty
  | some active =>
      match store.jobTime nowMs with
      | none => failStore .clock
      | some time =>
          match schedulerWorkerLost store.jobs workerId time with
          | (.ok, scratch) =>
              commitJob scratch active.id
                (if candidateState scratch active.id == .queued
                 then .requeued else .failed)
          | _ => failStore .internal

def storeWorkerLost (workerId : UInt32) (nowMs : Int64) :
    Prog StoreCtx StoreResult := do
  let store ← getStore
  if !store.usable then return .fatal
  else commitWorkerLoss workerId nowMs

-- ===================================================== sessions

/-- The recovery loop from slot `i` on; the first argument is the number
of slots left, which no step changes. -/
def recoverFrom (nowMs : Int64) : Nat → Nat → Prog StoreCtx StoreResult
  | 0, _ => return .ok
  | left + 1, i => do
      let store ← getStore
      match store.jobs.jobs[i]? with
      | none => return .ok
      | some job =>
          if job.state.active then do
            match ← commitWorkerLoss job.workerId nowMs with
            | .ok => do
                setStore fun store =>
                  { store with interruptedJobs := store.interruptedJobs + 1 }
                recoverFrom nowMs left (i + 1)
            | _ => return .fatal
          else recoverFrom nowMs left (i + 1)

def recoverInterruptedJobs (nowMs : Int64) : Prog StoreCtx StoreResult := do
  let store ← getStore
  recoverFrom nowMs store.jobs.jobs.length 0

/-- The end of an open: start the clock, recover, enable operations. -/
def startSession (nowMs : Int64) : Prog StoreCtx StoreResult := do
  setStore fun store =>
    { store with
      sessionStartMs := nowMs, lastJobTimeMs := store.timeBaseMs }
  match ← recoverInterruptedJobs nowMs with
  | .ok => do
      setStore fun store => { store with opened := true }
      return .ok
  | _ => return .fatal

/-- Create the log of a new store. -/
def createLog : Prog StoreCtx StoreResult := do
  let result ← onWal walWriterCreate
  setStore fun store => { store with writeResult := result }
  if result != .ok then failStore .open else return .ok

/-- Publish a recovered state. -/
def publishRecovered : Option WalReplayState → Prog StoreCtx StoreResult
  | none => failStore .open
  | some state => do
      setStore fun store =>
        { store with
          jobs := state.scheduler, workers := state.workers,
          timeBaseMs := state.jobTimeBaseMs }
      return .ok

/-- Replay an existing log and publish what it recovers. -/
def replayLog : Prog StoreCtx StoreResult := do
  match ← onWal WalCtx.call with
  | .error _ => do
      setStore fun store => { store with replayResult := .noMemory }
      failStore .open
  | .ok () => do
      let (result, report, recovered) ← onWal walReplayOpen
      setStore fun store =>
        { store with replayResult := result, replayReport := report }
      publishRecovered recovered

/-- Create or replay the log. -/
def openLog (initializing : Bool) : Prog StoreCtx StoreResult :=
  if initializing then createLog else replayLog

def storeOpen (initializing : Bool) (nowMs : Int64) :
    Prog StoreCtx StoreResult := do
  let store ← getStore
  if store.opened || store.wal.ioAttached || store.failure != .none then
    return .fatal
  else if nowMs < 0 then failStore .clock
  else do
    match ← openLog initializing with
    | .ok => startSession nowMs
    | _ => return .fatal

def storeClose : Prog StoreCtx StoreResult := do
  setStore fun store => { store with opened := false }
  match ← onWal walWriterClose with
  | .ok => do
      let store ← getStore
      return if store.failure == .none then .ok else .fatal
  | _ => failStore .wal

end Faultline
