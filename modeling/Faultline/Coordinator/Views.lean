/-
The inspection replies (src/coordinator/main.c): the status of one job, and
the two listings, sorted by id as `queue_listing` sorts them.
-/
import Faultline.Coordinator.Stats

namespace Faultline

/-- The reply to a status request about a stored job. -/
def jobStatusReply (job : Job) : JobStatusPayload :=
  { jobId := job.id, state := job.state.code, workerId := job.workerId,
    attempt := job.attempt, retryCount := job.retryCount,
    maxRetries := job.maxRetries, failure := job.failure.code,
    result := job.result }

/-- The reply to any status request. -/
def statusReply (jobs : Scheduler) (jobId : UInt64) : Message :=
  match schedulerFind jobs jobId with
  | none => .jobStatusNotFound jobId
  | some job => .jobStatusResponse (jobStatusReply job)

def jobSummary (job : Job) : JobSummary :=
  { jobId := job.id, taskType := job.taskType.code, state := job.state.code,
    workerId := job.workerId, attempt := job.attempt,
    retryCount := job.retryCount, maxRetries := job.maxRetries,
    failure := job.failure.code, resultSize := .ofNat job.result.length }

def jobsListing (jobs : Scheduler) : List JobSummary :=
  (jobs.jobs.map jobSummary).mergeSort fun a b => a.jobId ≤ b.jobId

/-- The row of a registered worker; only a live one has a job. -/
def workerSummary (jobs : Scheduler) (nowMs : Int64) (worker : Worker) :
    WorkerSummary :=
  let active :=
    if worker.state == .alive then schedulerActive jobs worker.id else none
  { workerId := worker.id
    state := if worker.state == .alive then workerViewAlive else workerViewDead
    heartbeatAgeMs := (nowMs - worker.lastHeartbeatMs).toUInt64
    jobId := (active.map Job.id).getD 0
    attempt := (active.map Job.attempt).getD 0 }

/-- The loop over the registry; a heartbeat from the future is a clock
error. -/
def workerRows (jobs : Scheduler) (nowMs : Int64) :
    List Worker → Option (List WorkerSummary)
  | [] => some []
  | worker :: rest =>
      if worker.state == .unused then workerRows jobs nowMs rest
      else if worker.lastHeartbeatMs < 0 || nowMs < worker.lastHeartbeatMs then
        none
      else (workerRows jobs nowMs rest).map
        (workerSummary jobs nowMs worker :: ·)

def workersListing (store : CoordinatorStore) (nowMs timeoutMs : Int64) :
    Option WorkersPayload :=
  (workerRows store.jobs nowMs store.workers.slots).map fun rows =>
    { heartbeatTimeoutMs := timeoutMs.toUInt64.toUInt32
      entries := rows.mergeSort fun a b => a.workerId ≤ b.workerId }

end Faultline
