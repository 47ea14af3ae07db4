/-
What the statistics count.

The first loop of `collect_jobs` adds to five counters and two totals; what
it computes is one record (`counted`), and it computes it when every job
passes its check. The second loop adds quotients and remainders by the number
of completed jobs: their sums stay within a word although the sum of the
durations need not, and together they give its floored mean (`sum_div_add`).
-/
import Mathlib.Algebra.BigOperators.Group.List.Basic
import Mathlib.Data.UInt
import Faultline.Coordinator.Stats

namespace Faultline

variable {jobs before : List Job} {job : Job} {stats stats' : StatsPayload}
  {store : CoordinatorStore}

-- ===================================================== counting

/-- How many jobs are in a state. -/
def countIn (state : JobState) (jobs : List Job) : Nat :=
  jobs.countP fun job => job.state == state

/-- Statistics with some jobs counted. -/
def counted (stats : StatsPayload) (jobs : List Job) : StatsPayload :=
  { stats with
    jobsQueued := stats.jobsQueued + .ofNat (countIn .queued jobs)
    jobsAssigned := stats.jobsAssigned + .ofNat (countIn .assigned jobs)
    jobsRunning := stats.jobsRunning + .ofNat (countIn .running jobs)
    jobsCompletedTotal :=
      stats.jobsCompletedTotal + .ofNat (countIn .done jobs)
    jobsFailedTotal := stats.jobsFailedTotal + .ofNat (countIn .failed jobs)
    jobAttemptsTotal :=
      stats.jobAttemptsTotal + .ofNat (jobs.map (·.attempt.toNat)).sum
    jobRetriesTotal :=
      stats.jobRetriesTotal + .ofNat (jobs.map (·.retryCount.toNat)).sum }

/-- The check the first loop makes of a job. -/
def Job.Countable (job : Job) : Prop :=
  job.retryCount ≤ job.maxRetries ∧ job.attempt = job.attemptsUsed

theorem countJob_eq_some : countJob stats job = some stats'
    ↔ job.Countable ∧ stats' = counted stats [job] := by
  unfold countJob Job.Countable
  split
  · rename_i h
    simp only [Bool.or_eq_true, decide_eq_true_eq, bne_iff_ne, gt_iff_lt] at h
    refine iff_of_false nofun ?_
    rintro ⟨⟨hretries, hattempt⟩, -⟩
    rcases h with h | h
    · exact absurd hretries (UInt32.not_le.mpr h)
    · exact h hattempt
  · rename_i h
    simp only [Bool.or_eq_true, decide_eq_true_eq, bne_iff_ne, gt_iff_lt,
      not_or, not_not, UInt32.not_lt] at h
    have hstate : { stats.countState job.state with
        jobAttemptsTotal := stats.jobAttemptsTotal + job.attempt
        jobRetriesTotal := stats.jobRetriesTotal + job.retryCount.toUInt64 }
        = counted stats [job] := by
      cases hjob : job.state <;>
        simp [StatsPayload.countState, counted, countIn, hjob]
    rw [hstate, Option.some.injEq, eq_comm]
    exact (and_iff_right h).symm

theorem countIn_append {state : JobState} {later : List Job} :
    countIn state (jobs ++ later) = countIn state jobs + countIn state later :=
  List.countP_append

theorem counted_append {later : List Job} :
    counted (counted stats jobs) later = counted stats (jobs ++ later) := by
  simp only [counted, countIn_append, List.map_append, List.sum_append,
    UInt64.ofNat_add, UInt64.add_assoc]

/-- The first loop counts the jobs, when all of them pass. -/
theorem foldlM_countJob : jobs.foldlM countJob stats = some stats'
    ↔ (∀ job ∈ jobs, job.Countable) ∧ stats' = counted stats jobs := by
  induction jobs generalizing stats with
  | nil => simp [counted, countIn, eq_comm]
  | cons job jobs ih =>
      rw [List.foldlM_cons]
      cases hjob : countJob stats job with
      | none =>
          refine iff_of_false (by simp) ?_
          rintro ⟨hall, -⟩
          have hsome : countJob stats job = some (counted stats [job]) :=
            countJob_eq_some.mpr ⟨hall job (List.mem_cons_self ..), rfl⟩
          rw [hjob] at hsome
          cases hsome
      | some next =>
          obtain ⟨hcountable, rfl⟩ := countJob_eq_some.mp hjob
          rw [Option.bind_eq_bind, Option.bind_some, ih, counted_append]
          simp [hcountable]

-- ======================================================== means

/-- The floored mean from quotients and remainders. -/
theorem sum_div_add (n : Nat) (hn : 0 < n) (values : List Nat) :
    (values.map (· / n)).sum + (values.map (· % n)).sum / n
      = values.sum / n := by
  have hsplit : values.sum
      = n * (values.map (· / n)).sum + (values.map (· % n)).sum := by
    induction values with
    | nil => rfl
    | cons value values ih =>
        simp only [List.map_cons, List.sum_cons, Nat.mul_add]
        have hvalue := Nat.div_add_mod value n
        omega
  rw [hsplit, Nat.mul_add_div hn]

theorem sum_le_mul {values : List Nat} {bound : Nat}
    (h : ∀ value ∈ values, value ≤ bound) :
    values.sum ≤ values.length * bound := by
  induction values with
  | nil => simp
  | cons value values ih =>
      have hvalue := h value (List.mem_cons_self ..)
      have hrest := ih fun v hv => h v (List.mem_cons_of_mem _ hv)
      simp only [List.sum_cons, List.length_cons, Nat.add_mul, Nat.one_mul]
      omega

/-- What the second loop reads of a job. -/
def Job.latency (job : Job) : Nat :=
  (job.finishedAtMs.toInt - job.createdAtMs.toInt).toNat

/-- The durations of the completed jobs. -/
def latencies (jobs : List Job) : List Nat :=
  (jobs.filter fun job => job.state == .done).map Job.latency

/-- The check the second loop makes of a job. -/
def Job.Timed (job : Job) : Prop :=
  job.state = .done → 0 ≤ job.createdAtMs
    ∧ job.createdAtMs ≤ job.finishedAtMs

theorem Job.latency_le (job : Job) (h : 0 ≤ job.createdAtMs) :
    job.latency ≤ 2 ^ 63 - 1 := by
  have hmax := job.finishedAtMs.toInt_lt
  have hmin : (0 : Int64).toInt ≤ job.createdAtMs.toInt :=
    Int64.le_iff_toInt_le.mp h
  simp only [Int64.toInt_zero] at hmin
  unfold latency
  omega

/-- A nonnegative signed word, read as an unsigned one. -/
theorem toNat_toUInt64 {x : Int64} (h : 0 ≤ x.toInt) :
    (x.toUInt64.toNat : Int) = x.toInt := by
  have hsigned : x.toInt = x.toBitVec.toInt := rfl
  have hunsigned : x.toUInt64.toNat = x.toBitVec.toNat := rfl
  have hlt := x.toBitVec.isLt
  rw [hsigned, BitVec.toInt_eq_toNat_cond] at h ⊢
  rw [hunsigned]
  split at h
  · rename_i hcond
    rw [if_pos hcond]
  · omega

/-- The time between two times, as a word. -/
theorem toNat_elapsed {before after : Int64} (h : 0 ≤ before)
    (hlater : before ≤ after) :
    ((after - before).toUInt64.toNat : Int) = after.toInt - before.toInt := by
  have hdiff := Int64.toInt_sub_of_le after before h hlater
  have hle := Int64.le_iff_toInt_le.mp hlater
  rw [toNat_toUInt64 (by omega), hdiff]

theorem toNat_elapsed_le {before after : Int64} (h : 0 ≤ before)
    (hlater : before ≤ after) :
    (after - before).toUInt64.toNat ≤ 2 ^ 63 - 1 := by
  have helapsed := toNat_elapsed h hlater
  have hnonneg := Int64.le_iff_toInt_le.mp h
  have hlt := after.toInt_lt
  rw [Int64.toInt_zero] at hnonneg
  omega

/-- The subtraction of two times, as the loop makes it. -/
theorem toNat_latency (h : 0 ≤ job.createdAtMs)
    (hlater : job.createdAtMs ≤ job.finishedAtMs) :
    (job.finishedAtMs - job.createdAtMs).toUInt64.toNat = job.latency := by
  have helapsed := toNat_elapsed h hlater
  unfold Job.latency
  omega

-- ==================================================== the mean

/-- Quotients and remainders of durations, added up. -/
def latencySums (completed : Nat) (durations : List Nat) : UInt64 × UInt64 :=
  (.ofNat (durations.map (· / completed)).sum,
    .ofNat (durations.map (· % completed)).sum)

theorem addLatency_done {completed : UInt64} {sums : UInt64 × UInt64}
    (hdone : job.state = .done) (hcreated : 0 ≤ job.createdAtMs)
    (hfinished : job.createdAtMs ≤ job.finishedAtMs) :
    addLatency completed sums job
      = some (sums.1 + .ofNat (job.latency / completed.toNat),
        sums.2 + .ofNat (job.latency % completed.toNat)) := by
  have hlatency := toNat_latency hcreated hfinished
  have hquotient : (job.finishedAtMs - job.createdAtMs).toUInt64 / completed
      = .ofNat (job.latency / completed.toNat) := by
    rw [← hlatency, ← UInt64.toNat_div, UInt64.ofNat_toNat]
  have hremainder : (job.finishedAtMs - job.createdAtMs).toUInt64 % completed
      = .ofNat (job.latency % completed.toNat) := by
    rw [← hlatency, ← UInt64.toNat_mod, UInt64.ofNat_toNat]
  unfold addLatency
  rw [if_neg (by simp [hdone]), if_neg, hquotient, hremainder]
  simp [Int64.not_lt.mpr hcreated, Int64.not_lt.mpr hfinished]

/-- The second loop adds up, when the times of the completed jobs are in
order. -/
theorem foldlM_addLatency {completed : UInt64} {sums sums' : UInt64 × UInt64} :
    jobs.foldlM (addLatency completed) sums = some sums'
      ↔ (∀ job ∈ jobs, job.Timed)
        ∧ sums' = (sums.1 + (latencySums completed.toNat (latencies jobs)).1,
          sums.2 + (latencySums completed.toNat (latencies jobs)).2) := by
  induction jobs generalizing sums with
  | nil => simp [latencySums, latencies, eq_comm]
  | cons job jobs ih =>
      rw [List.foldlM_cons]
      by_cases hdone : job.state = .done
      · by_cases htimed : 0 ≤ job.createdAtMs
          ∧ job.createdAtMs ≤ job.finishedAtMs
        · rw [addLatency_done hdone htimed.1 htimed.2, Option.bind_eq_bind,
            Option.bind_some, ih]
          simp [Job.Timed, hdone, htimed, latencySums, latencies,
            UInt64.ofNat_add, UInt64.add_assoc]
        · have hnone : addLatency completed sums job = none := by
            unfold addLatency
            rw [if_neg (by simp [hdone]), if_pos]
            simp only [Bool.or_eq_true, decide_eq_true_eq]
            rw [← Int64.not_le, ← Int64.not_le]
            exact not_and_or.mp htimed
          rw [hnone]
          refine iff_of_false (by simp) ?_
          rintro ⟨hall, -⟩
          exact htimed (hall job (List.mem_cons_self ..) hdone)
      · have hskip : addLatency completed sums job = some sums := by
          unfold addLatency
          rw [if_pos (by simpa using hdone)]
        rw [hskip, Option.bind_eq_bind, Option.bind_some, ih]
        simp [Job.Timed, hdone, latencies]

/-- A table that can be collected, and what is collected. -/
theorem collectJobs_eq_some : collectJobs store = some stats
    ↔ store.opened = true ∧ store.failure = .none
      ∧ store.jobs.jobs.length ≤ jobsMaxEntries
      ∧ (∀ job ∈ store.jobs.jobs, job.Countable)
      ∧ (∀ job ∈ store.jobs.jobs, job.Timed)
      ∧ stats = { counted { statsZero with
            jobsSubmittedTotal := .ofNat store.jobs.jobs.length }
              store.jobs.jobs with
          completedLatencyAvgMs := meanLatency
            (.ofNat (countIn .done store.jobs.jobs))
            (latencySums (UInt64.ofNat (countIn .done store.jobs.jobs)).toNat
              (latencies store.jobs.jobs)) } := by
  have hcompleted : (counted { statsZero with
      jobsSubmittedTotal := .ofNat store.jobs.jobs.length }
        store.jobs.jobs).jobsCompletedTotal
      = .ofNat (countIn .done store.jobs.jobs) := UInt64.zero_add _
  unfold collectJobs
  split
  · rename_i hrefused
    refine iff_of_false nofun ?_
    rintro ⟨hopened, hhealthy, hlength, -⟩
    simp [hopened, hhealthy, Nat.not_lt.mpr hlength] at hrefused
  · rename_i haccepted
    simp only [Bool.or_eq_true, Bool.not_eq_eq_eq_not, Bool.not_true,
      bne_iff_ne, decide_eq_true_eq, not_or, Bool.not_eq_false, not_not,
      gt_iff_lt, Nat.not_lt, ne_eq] at haccepted
    simp only [Option.bind_eq_bind, Option.bind_eq_some_iff,
      foldlM_countJob, foldlM_addLatency, Option.pure_def,
      Option.some.injEq]
    constructor
    · rintro ⟨_, ⟨hcountable, rfl⟩, _, ⟨htimed, rfl⟩, rfl⟩
      refine ⟨haccepted.1.1, haccepted.1.2, haccepted.2, hcountable, htimed,
        ?_⟩
      rw [hcompleted, UInt64.zero_add, UInt64.zero_add]
    · rintro ⟨-, -, -, hcountable, htimed, rfl⟩
      refine ⟨_, ⟨hcountable, rfl⟩, _, ⟨htimed, rfl⟩, ?_⟩
      rw [hcompleted, UInt64.zero_add, UInt64.zero_add]

-- ====================================================== no wrap

theorem countIn_le {state : JobState} : countIn state jobs ≤ jobs.length :=
  List.countP_le_length

/-- As many durations as completed jobs. -/
theorem length_latencies : (latencies jobs).length = countIn .done jobs := by
  simp [latencies, countIn, List.countP_eq_length_filter]

theorem latencies_le (h : ∀ job ∈ jobs, job.Timed) :
    ∀ duration ∈ latencies jobs, duration ≤ 2 ^ 63 - 1 := by
  intro duration hmem
  simp only [latencies, List.mem_map, List.mem_filter, beq_iff_eq] at hmem
  obtain ⟨job, ⟨hjob, hdone⟩, rfl⟩ := hmem
  exact job.latency_le (h job hjob hdone).1

/-- A job that is counted has made at most 2^32 attempts. -/
theorem Job.Countable.attempt_le (h : job.Countable) :
    job.attempt.toNat ≤ 2 ^ 32 := by
  have hretries := job.retryCount.toNat_lt
  rw [h.2, Job.attemptsUsed, UInt64.toNat_add, UInt32.toNat_toUInt64]
  split <;> simp <;> omega

/-- The quotients add up to a word: there are no more of them than the
divisor. -/
theorem sum_div_lt {durations : List Nat} {n : Nat}
    (hlength : durations.length ≤ n)
    (hbound : ∀ duration ∈ durations, duration ≤ 2 ^ 63 - 1) :
    (durations.map (· / n)).sum ≤ 2 ^ 63 - 1 := by
  have hquotients : (durations.map (· / n)).sum
      ≤ (durations.map (· / n)).length * ((2 ^ 63 - 1) / n) := by
    refine sum_le_mul fun quotient hmem => ?_
    obtain ⟨duration, hduration, rfl⟩ := List.mem_map.mp hmem
    exact Nat.div_le_div_right (hbound duration hduration)
  rw [List.length_map] at hquotients
  calc (durations.map (· / n)).sum
      ≤ durations.length * ((2 ^ 63 - 1) / n) := hquotients
    _ ≤ n * ((2 ^ 63 - 1) / n) := Nat.mul_le_mul_right _ hlength
    _ ≤ 2 ^ 63 - 1 := Nat.mul_div_le _ _

theorem sum_mod_le {durations : List Nat} {n : Nat} (hn : 0 < n) :
    (durations.map (· % n)).sum ≤ durations.length * n := by
  have hremainders := @sum_le_mul (durations.map (· % n)) n
    fun remainder hmem => by
      obtain ⟨duration, -, rfl⟩ := List.mem_map.mp hmem
      exact Nat.le_of_lt (Nat.mod_lt _ hn)
  rwa [List.length_map] at hremainders

theorem toNat_ofNat {n : Nat} (h : n < 2 ^ 64) : (UInt64.ofNat n).toNat = n :=
  UInt64.toNat_ofNat_of_lt' h

theorem toNat_zero_add_ofNat {n : Nat} (h : n < 2 ^ 64) :
    ((0 : UInt64) + .ofNat n).toNat = n := by
  rw [UInt64.zero_add, toNat_ofNat h]

/-- The totals of a table that was accepted fit a word, at every job. -/
theorem toNat_totals {total : UInt64} (hlength : jobs.length ≤ jobsMaxEntries)
    (h : ∀ job ∈ jobs, job.Countable) :
    (counted { statsZero with jobsSubmittedTotal := total }
        jobs).jobAttemptsTotal.toNat = (jobs.map (·.attempt.toNat)).sum
      ∧ (counted { statsZero with jobsSubmittedTotal := total }
        jobs).jobRetriesTotal.toNat
          = (jobs.map (·.retryCount.toNat)).sum := by
  have hattempts := @sum_le_mul (jobs.map (·.attempt.toNat)) (2 ^ 32)
    fun attempts hmem => by
      obtain ⟨job, hjob, rfl⟩ := List.mem_map.mp hmem
      exact (h job hjob).attempt_le
  have hretries := @sum_le_mul (jobs.map (·.retryCount.toNat)) (2 ^ 32)
    fun retries hmem => by
      obtain ⟨job, -, rfl⟩ := List.mem_map.mp hmem
      exact Nat.le_of_lt job.retryCount.toNat_lt
  have hsize : jobsMaxEntries = 256 := rfl
  rw [List.length_map] at hattempts hretries
  exact ⟨toNat_zero_add_ofNat (by omega), toNat_zero_add_ofNat (by omega)⟩

/-- The sums of the second loop fit a word, at every job. -/
theorem toNat_latencySums {durations : List Nat} {n : Nat}
    (hlength : durations.length ≤ n) (hn : n ≤ 256)
    (hbound : ∀ duration ∈ durations, duration ≤ 2 ^ 63 - 1) :
    (latencySums n durations).1.toNat = (durations.map (· / n)).sum
      ∧ (latencySums n durations).2.toNat = (durations.map (· % n)).sum := by
  have hquotients := sum_div_lt hlength hbound
  refine ⟨toNat_ofNat (by omega), toNat_ofNat ?_⟩
  rcases Nat.eq_zero_or_pos n with rfl | hpos
  · rw [List.eq_nil_of_length_eq_zero (Nat.le_zero.mp hlength)]
    decide
  · have hremainders := @sum_mod_le durations n hpos
    have hproduct : durations.length * n ≤ 256 * 256 :=
      Nat.mul_le_mul (Nat.le_trans hlength hn) hn
    omega

/-- The mean is the floor of the exact one. -/
theorem toNat_meanLatency {durations : List Nat} {n : Nat} (hn : n ≤ 256)
    (hlength : durations.length = n)
    (hbound : ∀ duration ∈ durations, duration ≤ 2 ^ 63 - 1) :
    (meanLatency (.ofNat n) (latencySums n durations)).toNat
      = durations.sum / n := by
  obtain ⟨hquotients, hremainders⟩ :=
    toNat_latencySums (Nat.le_of_eq hlength) hn hbound
  have htoNat : (UInt64.ofNat n).toNat = n :=
    toNat_ofNat (by omega)
  rcases Nat.eq_zero_or_pos n with rfl | hpos
  · rw [List.eq_nil_of_length_eq_zero hlength]
    decide
  · have hne : (UInt64.ofNat n != 0) = true := by
      rw [bne_iff_ne, ne_eq, ← UInt64.toNat_inj, htoNat]
      exact Nat.ne_of_gt hpos
    have hmean := sum_div_add n hpos durations
    have hsum := @sum_le_mul durations (2 ^ 63 - 1) hbound
    have hle : durations.sum / n ≤ 2 ^ 63 - 1 := by
      rw [hlength] at hsum
      exact Nat.div_le_of_le_mul hsum
    rw [meanLatency, if_pos hne, UInt64.toNat_add, UInt64.toNat_div,
      hquotients, hremainders, htoNat, hmean]
    exact Nat.mod_eq_of_lt (by omega)

/-- When a table of jobs is collected, the latency reported is the floored
mean of the durations of the completed jobs, and no sum of either loop wraps
at any job. -/
theorem completion_latency_exact (store : CoordinatorStore)
    (stats : StatsPayload) (h : collectJobs store = some stats) :
    stats.completedLatencyAvgMs.toNat
        = (latencies store.jobs.jobs).sum / (latencies store.jobs.jobs).length
      ∧ stats.completedLatencyAvgMs.toNat ≤ 2 ^ 63 - 1
      ∧ stats.jobsCompletedTotal.toNat = (latencies store.jobs.jobs).length
      ∧ ∀ before later, store.jobs.jobs = before ++ later →
        (∃ counts, before.foldlM countJob { statsZero with
              jobsSubmittedTotal := .ofNat store.jobs.jobs.length }
            = some counts
          ∧ counts.jobAttemptsTotal.toNat
            = (before.map (·.attempt.toNat)).sum
          ∧ counts.jobRetriesTotal.toNat
            = (before.map (·.retryCount.toNat)).sum)
        ∧ ∃ sums, before.foldlM (addLatency stats.jobsCompletedTotal) (0, 0)
            = some sums
          ∧ sums.1.toNat = ((latencies before).map
            (· / (latencies store.jobs.jobs).length)).sum
          ∧ sums.2.toNat = ((latencies before).map
            (· % (latencies store.jobs.jobs).length)).sum := by
  obtain ⟨-, -, hlength, hcountable, htimed, rfl⟩ := collectJobs_eq_some.mp h
  have hbound := latencies_le htimed
  have hcount : countIn .done store.jobs.jobs ≤ 256 :=
    Nat.le_trans countIn_le hlength
  have htoNat : (UInt64.ofNat (countIn .done store.jobs.jobs)).toNat
      = countIn .done store.jobs.jobs :=
    toNat_ofNat (by omega)
  have hcompleted : (counted { statsZero with
      jobsSubmittedTotal := .ofNat store.jobs.jobs.length }
        store.jobs.jobs).jobsCompletedTotal
      = .ofNat (countIn .done store.jobs.jobs) := UInt64.zero_add _
  have hmean := toNat_meanLatency hcount length_latencies hbound
  rw [length_latencies]
  refine ⟨?_, ?_, ?_, fun before later hsplit => ⟨?_, ?_⟩⟩
  · rw [htoNat]
    exact hmean
  · rw [htoNat, hmean]
    have hsum := @sum_le_mul (latencies store.jobs.jobs) (2 ^ 63 - 1) hbound
    rw [length_latencies] at hsum
    exact Nat.div_le_of_le_mul hsum
  · rw [hcompleted, htoNat]
  · have hpart : before.length ≤ jobsMaxEntries := by
      rw [hsplit, List.length_append] at hlength
      omega
    have hall : ∀ job ∈ before, job.Countable := fun job hjob =>
      hcountable job (hsplit ▸ List.mem_append_left _ hjob)
    exact ⟨_, foldlM_countJob.mpr ⟨hall, rfl⟩, toNat_totals hpart hall⟩
  · have hall : ∀ job ∈ before, job.Timed := fun job hjob =>
      htimed job (hsplit ▸ List.mem_append_left _ hjob)
    have hpart : (latencies before).length ≤ countIn .done store.jobs.jobs := by
      rw [length_latencies, hsplit, countIn_append]
      exact Nat.le_add_right _ _
    refine ⟨_, foldlM_addLatency.mpr ⟨hall, rfl⟩, ?_⟩
    dsimp only
    rw [hcompleted, htoNat, UInt64.zero_add, UInt64.zero_add]
    exact toNat_latencySums hpart hcount (latencies_le hall)

/-- A job that was submitted at one time and completed at another. -/
def finishedJob (createdAtMs finishedAtMs : Int64) : Job :=
  { id := 1, taskType := .hash, arguments := [], state := .done, workerId := 1,
    attempt := 1, retryCount := 0, maxRetries := 0, createdAtMs,
    updatedAtMs := finishedAtMs, assignedAtMs := createdAtMs,
    startedAtMs := createdAtMs, finishedAtMs, result := [], failure := .none }

/-- Three jobs that took longer together than a word can say. -/
def longRuns : CoordinatorStore :=
  { storeInit with
    opened := true
    jobs := { schedulerInit with
      jobs := [finishedJob 0 0x7fffffffffffffff,
        finishedJob 1 0x7fffffffffffffff,
        finishedJob 1 0x7fffffffffffffff] } }

theorem completion_latency_longRuns :
    ∃ stats, collectJobs longRuns = some stats
      ∧ stats.completedLatencyAvgMs.toNat = 0x7ffffffffffffffe := by
  have hsome : (collectJobs longRuns).isSome = true := by decide
  obtain ⟨stats, hstats⟩ := Option.isSome_iff_exists.mp hsome
  refine ⟨stats, hstats, ?_⟩
  rw [(completion_latency_exact longRuns stats hstats).1]
  decide

end Faultline
