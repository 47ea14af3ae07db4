/-
The statistics check means what it says.

The two checks of `validate_stats` are read here over the integers:
`Bounded` for the first, `Balanced` for the second. The first bounds every
operand of the second, and itself bounds the one factor of its product, so
no operation that is reached wraps and the checks agree with their exact
readings on all values.
-/
import Mathlib.Algebra.Group.Nat.Defs
import Faultline.Protocol.Codec

namespace Faultline

namespace StatsPayload

variable {s : StatsPayload}

/-- The first check, over the integers. -/
structure Bounded (s : StatsPayload) : Prop where
  submitted : s.jobsSubmittedTotal.toNat ≤ 256
  queued : s.jobsQueued.toNat ≤ s.jobsSubmittedTotal.toNat
  assigned : s.jobsAssigned.toNat ≤ s.jobsSubmittedTotal.toNat
  running : s.jobsRunning.toNat ≤ s.jobsSubmittedTotal.toNat
  completed : s.jobsCompletedTotal.toNat ≤ s.jobsSubmittedTotal.toNat
  failed : s.jobsFailedTotal.toNat ≤ s.jobsSubmittedTotal.toNat
  retries : s.jobRetriesTotal.toNat
    ≤ s.jobsSubmittedTotal.toNat * (2 ^ 32 - 1)
  retained : s.workersRetained.toNat ≤ 64
  alive : s.workersAlive.toNat ≤ s.workersRetained.toNat
  expired : s.workersExpired.toNat ≤ s.workersRetained.toNat
  dead : s.workersDead.toNat ≤ s.workersRetained.toNat
  busy : s.workersBusy.toNat ≤ s.workersAlive.toNat
  idle : s.workersIdle.toNat ≤ s.workersAlive.toNat

/-- The second check, over the integers. -/
structure Balanced (s : StatsPayload) : Prop where
  states : (s.jobsQueued.toNat + s.jobsAssigned.toNat + s.jobsRunning.toNat
    + s.jobsCompletedTotal.toNat + s.jobsFailedTotal.toNat : Int)
      = s.jobsSubmittedTotal.toNat
  attempts : (s.jobAttemptsTotal.toNat : Int)
    = s.jobRetriesTotal.toNat + s.jobsSubmittedTotal.toNat
      - s.jobsQueued.toNat
  workers : (s.workersAlive.toNat + s.workersExpired.toNat
    + s.workersDead.toNat : Int) = s.workersRetained.toNat
  occupied : (s.workersBusy.toNat + s.workersIdle.toNat : Int)
    = s.workersAlive.toNat
  busy : (s.workersBusy.toNat : Int)
    ≤ s.jobsAssigned.toNat + s.jobsRunning.toNat
  recovered : s.startupJobsRecovered.toNat ≤ s.jobsSubmittedTotal.toNat
  interrupted : s.startupInterruptedJobs.toNat ≤ s.startupJobsRecovered.toNat
  sessionSubmitted : (s.sessionJobsSubmitted.toNat : Int)
    = s.jobsSubmittedTotal.toNat - s.startupJobsRecovered.toNat
  sessionCompleted : s.sessionJobsCompleted.toNat
    ≤ s.jobsCompletedTotal.toNat
  sessionFailed : s.sessionJobsFailed.toNat ≤ s.jobsFailedTotal.toNat
  sessionRetries : s.sessionJobRetries.toNat ≤ s.jobRetriesTotal.toNat
  latency : s.completedLatencyAvgMs.toNat ≤ 2 ^ 63 - 1
  noLatency : s.jobsCompletedTotal.toNat = 0 →
    s.completedLatencyAvgMs.toNat = 0
  uptime : s.sessionUptimeMs.toNat ≤ 2 ^ 63 - 1
  startup : s.startupDurationMs.toNat ≤ 2 ^ 63 - 1
  timeoutSet : 0 < s.heartbeatTimeoutMs.toNat
  timeout : s.heartbeatTimeoutMs.toNat ≤ 2 ^ 31 - 1

-- ==================================================== no wrapping

/-- The product of the first check, once its factor is bounded. -/
theorem toNat_retryLimit (h : s.jobsSubmittedTotal.toNat ≤ 256) :
    (s.jobsSubmittedTotal * 0xffffffff).toNat
      = s.jobsSubmittedTotal.toNat * (2 ^ 32 - 1) := by
  rw [UInt64.toNat_mul]
  exact Nat.mod_eq_of_lt (by
    show s.jobsSubmittedTotal.toNat * 4294967295 < _
    omega)

theorem Bounded.toNat_states (h : s.Bounded) :
    (s.jobsQueued + s.jobsAssigned + s.jobsRunning + s.jobsCompletedTotal
        + s.jobsFailedTotal).toNat
      = s.jobsQueued.toNat + s.jobsAssigned.toNat + s.jobsRunning.toNat
        + s.jobsCompletedTotal.toNat + s.jobsFailedTotal.toNat := by
  obtain ⟨_, _, _, _, _, _, -, -, -, -, -, -, -⟩ := h
  simp only [UInt64.toNat_add]
  omega

theorem Bounded.toNat_begun (h : s.Bounded) :
    (s.jobRetriesTotal + s.jobsSubmittedTotal).toNat
      = s.jobRetriesTotal.toNat + s.jobsSubmittedTotal.toNat := by
  obtain ⟨_, -, -, -, -, -, _, -, -, -, -, -, -⟩ := h
  simp only [UInt64.toNat_add]
  omega

theorem Bounded.toNat_attempts (h : s.Bounded) :
    ((s.jobRetriesTotal + s.jobsSubmittedTotal - s.jobsQueued).toNat : Int)
      = s.jobRetriesTotal.toNat + s.jobsSubmittedTotal.toNat
        - s.jobsQueued.toNat := by
  obtain ⟨_, _, -, -, -, -, _, -, -, -, -, -, -⟩ := h
  simp only [UInt64.toNat_sub, UInt64.toNat_add]
  omega

theorem Bounded.toNat_workers (h : s.Bounded) :
    (s.workersAlive + s.workersExpired + s.workersDead).toNat
      = s.workersAlive.toNat + s.workersExpired.toNat
        + s.workersDead.toNat := by
  obtain ⟨-, -, -, -, -, -, -, _, _, _, _, -, -⟩ := h
  simp only [UInt64.toNat_add]
  omega

theorem Bounded.toNat_occupied (h : s.Bounded) :
    (s.workersBusy + s.workersIdle).toNat
      = s.workersBusy.toNat + s.workersIdle.toNat := by
  obtain ⟨-, -, -, -, -, -, -, _, _, -, -, _, _⟩ := h
  simp only [UInt64.toNat_add]
  omega

theorem Bounded.toNat_active (h : s.Bounded) :
    (s.jobsAssigned + s.jobsRunning).toNat
      = s.jobsAssigned.toNat + s.jobsRunning.toNat := by
  obtain ⟨_, -, _, _, -, -, -, -, -, -, -, -, -⟩ := h
  simp only [UInt64.toNat_add]
  omega

/-- The difference of the second check, once the recovered jobs are known to
be among the submitted ones. -/
theorem toNat_sinceStart
    (h : s.startupJobsRecovered.toNat ≤ s.jobsSubmittedTotal.toNat) :
    ((s.jobsSubmittedTotal - s.startupJobsRecovered).toNat : Int)
      = s.jobsSubmittedTotal.toNat - s.startupJobsRecovered.toNat := by
  rw [UInt64.toNat_sub_of_le _ _ (UInt64.le_iff_toNat_le.mpr h)]
  omega

end StatsPayload

-- ==================================================== the checks

open StatsPayload

/-- The first check is its exact reading. -/
theorem statsInBounds_iff (s : StatsPayload) :
    statsInBounds s = true ↔ s.Bounded := by
  unfold statsInBounds
  simp only [Bool.not_eq_true', Bool.or_eq_false_iff,
    decide_eq_false_iff_not, gt_iff_lt, Nat.not_lt, UInt64.not_lt,
    UInt64.le_iff_toNat_le, and_assoc]
  constructor
  · rintro ⟨h₁, h₂, h₃, h₄, h₅, h₆, h₇, h₈, h₉, h₁₀, h₁₁, h₁₂, h₁₃⟩
    rw [toNat_retryLimit h₁] at h₇
    exact ⟨h₁, h₂, h₃, h₄, h₅, h₆, h₇, h₈, h₉, h₁₀, h₁₁, h₁₂, h₁₃⟩
  · rintro ⟨h₁, h₂, h₃, h₄, h₅, h₆, h₇, h₈, h₉, h₁₀, h₁₁, h₁₂, h₁₃⟩
    rw [toNat_retryLimit h₁]
    exact ⟨h₁, h₂, h₃, h₄, h₅, h₆, h₇, h₈, h₉, h₁₀, h₁₁, h₁₂, h₁₃⟩

/-- Behind the first check, the second is its exact reading. -/
theorem statsConsistent_iff {s : StatsPayload} (h : s.Bounded) :
    statsConsistent s = true ↔ s.Balanced := by
  have hstates := h.toNat_states
  have hattempts := h.toNat_attempts
  have hworkers := h.toNat_workers
  have hoccupied := h.toNat_occupied
  have hactive := h.toNat_active
  unfold statsConsistent
  simp only [Bool.not_eq_true', Bool.or_eq_false_iff, Bool.and_eq_false_iff,
    decide_eq_false_iff_not, bne_eq_false_iff_eq, beq_eq_false_iff_ne, ne_eq,
    gt_iff_lt, UInt64.not_lt, UInt64.le_iff_toNat_le, ← UInt64.toNat_inj,
    hstates, hworkers, hoccupied, hactive, and_assoc]
  constructor
  · rintro ⟨h₁, h₂, h₃, h₄, h₅, h₆, h₇, h₈, h₉, h₁₀, h₁₁, h₁₂, h₁₃, h₁₄,
      h₁₅, h₁₆, h₁₇⟩
    have hsince := toNat_sinceStart h₆
    refine ⟨by omega, by omega, by omega, by omega, by omega, h₆, h₇,
      by omega, h₉, h₁₀, h₁₁, h₁₂, fun hnone => ?_, h₁₄, h₁₅, ?_, h₁₇⟩
    · exact h₁₃.resolve_left (fun hne => hne hnone)
    · exact Nat.pos_of_ne_zero h₁₆
  · rintro ⟨h₁, h₂, h₃, h₄, h₅, h₆, h₇, h₈, h₉, h₁₀, h₁₁, h₁₂, h₁₃, h₁₄,
      h₁₅, h₁₆, h₁₇⟩
    have hsince := toNat_sinceStart h₆
    refine ⟨by omega, by omega, by omega, by omega, by omega, h₆, h₇,
      by omega, h₉, h₁₀, h₁₁, h₁₂, ?_, h₁₄, h₁₅, Nat.ne_of_gt h₁₆, h₁₇⟩
    by_cases hnone : s.jobsCompletedTotal.toNat = 0
    · exact .inr (h₁₃ hnone)
    · exact .inl hnone

/-- The check accepts exactly the statistics whose equalities and bounds hold
over the integers, and no operation it reaches wraps: the product is reached
with at most 256 jobs, the sums and the first difference behind the first
check, the second difference with no more recovered than submitted jobs. -/
theorem stats_validation_exact (s : StatsPayload) :
    (validateStats s = .ok () ↔ s.Bounded ∧ s.Balanced)
      ∧ (s.jobsSubmittedTotal.toNat ≤ 256 →
        (s.jobsSubmittedTotal * 0xffffffff).toNat
          = s.jobsSubmittedTotal.toNat * (2 ^ 32 - 1))
      ∧ (statsInBounds s = true →
        (s.jobsQueued + s.jobsAssigned + s.jobsRunning
            + s.jobsCompletedTotal + s.jobsFailedTotal).toNat
          = s.jobsQueued.toNat + s.jobsAssigned.toNat + s.jobsRunning.toNat
            + s.jobsCompletedTotal.toNat + s.jobsFailedTotal.toNat
        ∧ (s.jobRetriesTotal + s.jobsSubmittedTotal).toNat
          = s.jobRetriesTotal.toNat + s.jobsSubmittedTotal.toNat
        ∧ ((s.jobRetriesTotal + s.jobsSubmittedTotal
            - s.jobsQueued).toNat : Int)
          = s.jobRetriesTotal.toNat + s.jobsSubmittedTotal.toNat
            - s.jobsQueued.toNat
        ∧ (s.workersAlive + s.workersExpired + s.workersDead).toNat
          = s.workersAlive.toNat + s.workersExpired.toNat
            + s.workersDead.toNat
        ∧ (s.workersBusy + s.workersIdle).toNat
          = s.workersBusy.toNat + s.workersIdle.toNat
        ∧ (s.jobsAssigned + s.jobsRunning).toNat
          = s.jobsAssigned.toNat + s.jobsRunning.toNat
        ∧ (s.startupJobsRecovered.toNat ≤ s.jobsSubmittedTotal.toNat →
          ((s.jobsSubmittedTotal - s.startupJobsRecovered).toNat : Int)
            = s.jobsSubmittedTotal.toNat
              - s.startupJobsRecovered.toNat)) := by
  refine ⟨?_, toNat_retryLimit, fun hbounds => ?_⟩
  · unfold validateStats
    rw [← statsInBounds_iff]
    cases hbounds : statsInBounds s with
    | false => simp
    | true =>
        rw [← statsConsistent_iff ((statsInBounds_iff s).mp hbounds)]
        cases statsConsistent s <;> simp
  · have h := (statsInBounds_iff s).mp hbounds
    exact ⟨h.toNat_states, h.toNat_begun, h.toNat_attempts, h.toNat_workers,
      h.toNat_occupied, h.toNat_active, toNat_sinceStart⟩

end Faultline
