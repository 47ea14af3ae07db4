/-
What the command line prints about jobs and workers (src/cli/main.c):
`print_status`, `print_listing` and `print_stats`.
-/
import Mathlib.Data.Nat.Digits.Defs
import Faultline.Protocol.Codec

namespace Faultline

/-- The bytes of a literal. -/
def ascii (text : String) : List UInt8 :=
  text.toList.map fun c => .ofNat c.toNat

/-- A digit of `printf`, in lower case. -/
def printfDigit (digit : Nat) : UInt8 :=
  if digit < 10 then .ofNat (48 + digit) else .ofNat (87 + digit)

/-- An unsigned number as `printf` writes it, in a base and padded with
zeros to a width. -/
def printfNumber (base width number : Nat) : List UInt8 :=
  let digits := (Nat.digits base number).reverse.map printfDigit
  let digits := if digits.isEmpty then [48] else digits
  List.replicate (width - digits.length) 48 ++ digits

def statusStateName (state : UInt16) : List UInt8 :=
  ascii (if state == JobState.queued.code then "QUEUED"
    else if state == JobState.assigned.code then "ASSIGNED"
    else if state == JobState.running.code then "RUNNING"
    else if state == JobState.done.code then "DONE"
    else if state == JobState.failed.code then "FAILED"
    else "INVALID")

def statusFailureName (failure : UInt16) : List UInt8 :=
  ascii (if failure == JobFailure.none.code then "NONE"
    else if failure == JobFailure.task.code then "TASK"
    else if failure == JobFailure.workerLost.code then "WORKER_LOST"
    else "INVALID")

/-- The body of the loop over the result. -/
def printResultByte (byte : UInt8) : List UInt8 :=
  if byte.toNat ≥ 0x20 && byte.toNat ≤ 0x7e && byte.toNat != 0x22
      && byte.toNat != 0x5c then [byte]
  else [0x5c, 0x78] ++ printfNumber 16 2 byte.toNat

/-- The result as it is printed between the quotes. -/
def printResult : List UInt8 → List UInt8
  | [] => []
  | byte :: bytes => printResultByte byte ++ printResult bytes

/-- Everything `print_status` prints. -/
def printStatus (snapshot : JobStatusPayload) : List UInt8 :=
  ascii "job_id=" ++ printfNumber 10 1 snapshot.jobId.toNat
    ++ ascii "\nstate=" ++ statusStateName snapshot.state ++ ascii "\n"
    ++ (if snapshot.workerId == 0 then ascii "worker_id=none\n"
      else ascii "worker_id=" ++ printfNumber 10 1 snapshot.workerId.toNat
        ++ ascii "\n")
    ++ ascii "attempt=" ++ printfNumber 10 1 snapshot.attempt.toNat
    ++ ascii "\nretries=" ++ printfNumber 10 1 snapshot.retryCount.toNat
    ++ ascii "/" ++ printfNumber 10 1 snapshot.maxRetries.toNat
    ++ ascii "\nfailure=" ++ statusFailureName snapshot.failure
    ++ ascii "\nresult_bytes=" ++ printfNumber 10 1 snapshot.result.length
    ++ ascii "\n"
    ++ (if snapshot.state == JobState.done.code then
        ascii "result=\"" ++ printResult snapshot.result ++ ascii "\"\n"
      else [])

/-- The liveness column. -/
inductive Liveness where
  | dead
  | expired
  | alive
deriving DecidableEq, Repr

def displayedLiveness (timeoutMs : UInt32) (entry : WorkerSummary) :
    Liveness :=
  if entry.state == workerViewDead then .dead
  else if entry.heartbeatAgeMs ≥ timeoutMs.toUInt64 then .expired
  else .alive

-- ===================================================== listings

def taskName (taskType : UInt16) : List UInt8 :=
  ascii (if taskType == TaskType.sleep.code then "sleep"
    else if taskType == TaskType.primeCount.code then "prime_count"
    else if taskType == TaskType.fibonacci.code then "fibonacci"
    else if taskType == TaskType.hash.code then "hash"
    else "INVALID")

/-- `snprintf` into a buffer. -/
def snprintf (size : Nat) (text : List UInt8) : List UInt8 :=
  text.take (size - 1)

/-- `"%-*s"`. -/
def padRight (width : Nat) (text : List UInt8) : List UInt8 :=
  text ++ List.replicate (width - text.length) 32

/-- A line of columns, of which the last is as wide as its text. -/
def printRow : List Nat → List (List UInt8) → List UInt8
  | width :: widths, cell :: cells =>
      padRight width cell ++ ascii " " ++ printRow widths cells
  | _, cells => cells.flatten ++ ascii "\n"

/-- A number as `"%" PRIu32` or `"%" PRIu64` prints it. -/
def printfUnsigned (number : Nat) : List UInt8 := printfNumber 10 1 number

def jobColumns : List Nat := [20, 11, 8, 10, 10, 21, 11]

def jobCells (entry : JobSummary) : List (List UInt8) :=
  [printfUnsigned entry.jobId.toNat, taskName entry.taskType,
    statusStateName entry.state,
    if entry.workerId != 0 then
      snprintf 11 (printfUnsigned entry.workerId.toNat)
    else ascii "none",
    printfUnsigned entry.attempt.toNat,
    snprintf 22 (printfUnsigned entry.retryCount.toNat ++ ascii "/"
      ++ printfUnsigned entry.maxRetries.toNat),
    statusFailureName entry.failure,
    printfUnsigned entry.resultSize.toNat]

def printJobs (entries : List JobSummary) : List UInt8 :=
  ascii "jobs=" ++ printfUnsigned entries.length ++ ascii "\n"
    ++ (if entries.length == 0 then ascii "No retained jobs.\n"
      else printRow jobColumns
        (["JOB_ID", "TASK", "STATE", "WORKER_ID", "ATTEMPT", "RETRIES",
          "FAILURE", "RESULT_BYTES"].map ascii))
    ++ entries.flatMap fun entry => printRow jobColumns (jobCells entry)

def livenessName : Liveness → List UInt8
  | .dead => ascii "DEAD"
  | .expired => ascii "EXPIRED"
  | .alive => ascii "ALIVE"

def workerColumns : List Nat := [10, 8, 20, 20]

def workerCells (timeoutMs : UInt32) (entry : WorkerSummary) :
    List (List UInt8) :=
  [printfUnsigned entry.workerId.toNat,
    livenessName (displayedLiveness timeoutMs entry),
    printfUnsigned entry.heartbeatAgeMs.toNat,
    if entry.jobId != 0 then snprintf 21 (printfUnsigned entry.jobId.toNat)
    else ascii "none",
    printfUnsigned entry.attempt.toNat]

def printWorkers (list : WorkersPayload) : List UInt8 :=
  ascii "workers=" ++ printfUnsigned list.entries.length
    ++ ascii " heartbeat_timeout_ms="
    ++ printfUnsigned list.heartbeatTimeoutMs.toNat ++ ascii "\n"
    ++ (if list.entries.length == 0 then
        ascii "No retained worker registrations.\n"
      else printRow workerColumns
        (["WORKER_ID", "LIVENESS", "HEARTBEAT_AGE_MS", "JOB_ID",
          "ATTEMPT"].map ascii))
    ++ list.entries.flatMap fun entry =>
      printRow workerColumns (workerCells list.heartbeatTimeoutMs entry)

-- =================================================== statistics

/-- The lines of `print_stats` up to the rate. -/
def statsLines (stats : StatsPayload) : List (String × UInt64) :=
  [("jobs_submitted_total=", stats.jobsSubmittedTotal),
    ("jobs_queued=", stats.jobsQueued),
    ("jobs_assigned=", stats.jobsAssigned),
    ("jobs_running=", stats.jobsRunning),
    ("jobs_completed_total=", stats.jobsCompletedTotal),
    ("jobs_failed_total=", stats.jobsFailedTotal),
    ("job_attempts_total=", stats.jobAttemptsTotal),
    ("job_retries_total=", stats.jobRetriesTotal),
    ("completed_latency_avg_ms=", stats.completedLatencyAvgMs),
    ("workers_retained=", stats.workersRetained),
    ("workers_alive=", stats.workersAlive),
    ("workers_expired=", stats.workersExpired),
    ("workers_dead=", stats.workersDead),
    ("workers_busy=", stats.workersBusy),
    ("workers_idle=", stats.workersIdle),
    ("session_uptime_ms=", stats.sessionUptimeMs),
    ("session_jobs_submitted=", stats.sessionJobsSubmitted),
    ("session_jobs_completed=", stats.sessionJobsCompleted),
    ("session_jobs_failed=", stats.sessionJobsFailed),
    ("session_job_retries=", stats.sessionJobRetries),
    ("startup_jobs_recovered=", stats.startupJobsRecovered),
    ("startup_interrupted_jobs=", stats.startupInterruptedJobs),
    ("startup_duration_ms=", stats.startupDurationMs),
    ("heartbeat_timeout_ms=", stats.heartbeatTimeoutMs)]

/-- Everything `print_stats` prints; `rate` is what `"%.3f"` makes of completed
jobs per second of uptime, in floating point. -/
def printStats (rate : UInt64 → UInt64 → List UInt8) (stats : StatsPayload) :
    List UInt8 :=
  ((statsLines stats).flatMap fun line =>
      ascii line.1 ++ printfUnsigned line.2.toNat ++ ascii "\n")
    ++ ascii "session_completed_per_second="
    ++ rate stats.sessionJobsCompleted stats.sessionUptimeMs ++ ascii "\n"

end Faultline
