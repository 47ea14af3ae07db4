/-
Coordinator statistics (include/coordinator_stats.h,
src/coordinator/coordinator_stats.c).

Counters are 64-bit and wrap, as in the source; a scan that meets a value it
does not expect gives up. A session remembers the totals it started with, so
that a snapshot can report what has happened since.
-/
import Faultline.Protocol.Codec
import Faultline.Store

namespace Faultline

structure StatsSession where
  readyAtMs : Int64
  startupDurationMs : UInt64
  startupInterruptedJobs : UInt64
  submittedAtStart : UInt64
  completedAtStart : UInt64
  failedAtStart : UInt64
  retriesAtStart : UInt64
deriving DecidableEq, Repr

/-- `{0}`. -/
def statsZero : StatsPayload :=
  { jobsSubmittedTotal := 0, jobsQueued := 0, jobsAssigned := 0,
    jobsRunning := 0, jobsCompletedTotal := 0, jobsFailedTotal := 0,
    jobAttemptsTotal := 0, jobRetriesTotal := 0, completedLatencyAvgMs := 0,
    workersRetained := 0, workersAlive := 0, workersExpired := 0,
    workersDead := 0, workersBusy := 0, workersIdle := 0,
    sessionUptimeMs := 0, sessionJobsSubmitted := 0,
    sessionJobsCompleted := 0, sessionJobsFailed := 0,
    sessionJobRetries := 0, startupJobsRecovered := 0,
    startupInterruptedJobs := 0, startupDurationMs := 0,
    heartbeatTimeoutMs := 0 }

/-- The counter of a state. -/
def StatsPayload.countState (stats : StatsPayload) :
    JobState → StatsPayload
  | .queued => { stats with jobsQueued := stats.jobsQueued + 1 }
  | .assigned => { stats with jobsAssigned := stats.jobsAssigned + 1 }
  | .running => { stats with jobsRunning := stats.jobsRunning + 1 }
  | .done => { stats with jobsCompletedTotal := stats.jobsCompletedTotal + 1 }
  | .failed => { stats with jobsFailedTotal := stats.jobsFailedTotal + 1 }

/-- The attempts a job has used, given its retries. -/
def Job.attemptsUsed (job : Job) : UInt64 :=
  job.retryCount.toUInt64 + (if job.state == .queued then 0 else 1)

/-- The body of the first loop of `collect_jobs`. -/
def countJob (stats : StatsPayload) (job : Job) : Option StatsPayload :=
  if job.retryCount > job.maxRetries || job.attempt != job.attemptsUsed then
    none
  else
    some { stats.countState job.state with
      jobAttemptsTotal := stats.jobAttemptsTotal + job.attempt
      jobRetriesTotal := stats.jobRetriesTotal + job.retryCount.toUInt64 }

/-- The body of the second loop: the quotients and the remainders of the
latencies, by the number of completed jobs. -/
def addLatency (completed : UInt64) (sums : UInt64 × UInt64) (job : Job) :
    Option (UInt64 × UInt64) :=
  if job.state != .done then some sums
  else if job.createdAtMs < 0 || job.finishedAtMs < job.createdAtMs then none
  else
    some (sums.1 + (job.finishedAtMs - job.createdAtMs).toUInt64 / completed,
      sums.2 + (job.finishedAtMs - job.createdAtMs).toUInt64 % completed)

/-- The floored mean, without a sum of all durations. -/
def meanLatency (completed : UInt64) (sums : UInt64 × UInt64) : UInt64 :=
  if completed != 0 then sums.1 + sums.2 / completed else sums.1

def collectJobs (store : CoordinatorStore) : Option StatsPayload :=
  if !store.opened || store.failure != .none
      || store.jobs.jobs.length > jobsMaxEntries then none
  else do
    let stats ← store.jobs.jobs.foldlM countJob
      { statsZero with jobsSubmittedTotal := .ofNat store.jobs.jobs.length }
    let sums ← store.jobs.jobs.foldlM (addLatency stats.jobsCompletedTotal)
      (0, 0)
    return { stats with
      completedLatencyAvgMs := meanLatency stats.jobsCompletedTotal sums }

def statsBegin (store : CoordinatorStore) (nowMs : Int64) :
    Option StatsSession :=
  if store.sessionStartMs < 0 || nowMs < store.sessionStartMs then none
  else do
    let baseline ← collectJobs store
    if store.interruptedJobs > store.jobs.jobs.length then none
    else
      return { readyAtMs := nowMs
               startupDurationMs := (nowMs - store.sessionStartMs).toUInt64
               startupInterruptedJobs := .ofNat store.interruptedJobs
               submittedAtStart := baseline.jobsSubmittedTotal
               completedAtStart := baseline.jobsCompletedTotal
               failedAtStart := baseline.jobsFailedTotal
               retriesAtStart := baseline.jobRetriesTotal }

/-- The body of the loop over the registry. -/
def countWorker (jobs : Scheduler) (nowMs timeoutMs : Int64)
    (stats : StatsPayload) (worker : Worker) : Option StatsPayload :=
  match worker.state with
  | .unused => some stats
  | .dead =>
      some { stats with
        workersRetained := stats.workersRetained + 1
        workersDead := stats.workersDead + 1 }
  | .alive =>
      if worker.lastHeartbeatMs < 0 || nowMs < worker.lastHeartbeatMs then none
      else if workerTimedOut worker nowMs timeoutMs then
        some { stats with
          workersRetained := stats.workersRetained + 1
          workersExpired := stats.workersExpired + 1 }
      else if (schedulerActive jobs worker.id).isSome then
        some { stats with
          workersRetained := stats.workersRetained + 1
          workersAlive := stats.workersAlive + 1
          workersBusy := stats.workersBusy + 1 }
      else
        some { stats with
          workersRetained := stats.workersRetained + 1
          workersAlive := stats.workersAlive + 1
          workersIdle := stats.workersIdle + 1 }

/-- What has happened since the session began, and how it began. -/
def StatsPayload.since (stats : StatsPayload) (session : StatsSession)
    (nowMs timeoutMs : Int64) : StatsPayload :=
  { stats with
    sessionUptimeMs := (nowMs - session.readyAtMs).toUInt64
    sessionJobsSubmitted :=
      stats.jobsSubmittedTotal - session.submittedAtStart
    sessionJobsCompleted :=
      stats.jobsCompletedTotal - session.completedAtStart
    sessionJobsFailed := stats.jobsFailedTotal - session.failedAtStart
    sessionJobRetries := stats.jobRetriesTotal - session.retriesAtStart
    startupJobsRecovered := session.submittedAtStart
    startupInterruptedJobs := session.startupInterruptedJobs
    startupDurationMs := session.startupDurationMs
    heartbeatTimeoutMs := timeoutMs.toUInt64 }

/-- All workers, slot by slot. -/
def WorkerRegistry.slots (registry : WorkerRegistry) : List Worker :=
  (List.finRange maxWorkers).map registry.worker

def statsSnapshot (session : StatsSession) (store : CoordinatorStore)
    (nowMs timeoutMs : Int64) : Option StatsPayload :=
  if session.readyAtMs < 0 || nowMs < session.readyAtMs || timeoutMs ≤ 0 then
    none
  else do
    let stats ← collectJobs store
    if stats.jobsSubmittedTotal < session.submittedAtStart
        || stats.jobsCompletedTotal < session.completedAtStart
        || stats.jobsFailedTotal < session.failedAtStart
        || stats.jobRetriesTotal < session.retriesAtStart then none
    else
      store.workers.slots.foldlM (countWorker store.jobs nowMs timeoutMs)
        (stats.since session nowMs timeoutMs)

end Faultline
