/-
What the scheduler cannot refuse.

The queue is never full and never holds an active job, so the outcome of
an active attempt always finds its place (`Rep.outcome_published`). A lost
worker's job and a report that carries the current identity are therefore
always accepted, as far as the job model itself allows them.
-/
import Faultline.Proofs.SchedulerSafety

namespace Faultline

open Lib Scheduler

variable {s : Scheduler} {old job : Job} {now : Int64}

/-- An active job has an owner. -/
theorem Job.Valid.owner_ne (h : old.Valid) (hact : old.state.active = true) :
    old.workerId ≠ 0 := by
  have hfields := h.fields
  unfold Job.StateFields at hfields
  cases hs : old.state <;> simp only [hs] at hfields hact
  · cases hact
  · exact hfields.1
  · exact hfields.1
  · cases hact
  · cases hact

namespace Scheduler

/-- A stored job is found at its slot. -/
theorem Rep.slot (h : s.Rep) (hold : old ∈ s.jobs) :
    s.jobs[findSlot s old.id]? = some old := by
  obtain ⟨pre, suf, hjobs⟩ := List.append_of_mem hold
  exact slot_middle hjobs h.inv

/-- The only active job of its owner. -/
theorem Rep.active_eq (h : s.Rep) (hold : old ∈ s.jobs)
    (hact : old.state.active = true) :
    schedulerActive s old.workerId = some old := by
  have hne := (h.inv.valid old hold).owner_ne hact
  cases hactive : schedulerActive s old.workerId with
  | none => exact absurd rfl ((schedulerActive_none hne).mp hactive old hold hact)
  | some k =>
      obtain ⟨-, hk, hw, hkact⟩ := schedulerActive_some hactive
      rw [h.owner_unique hk hold hkact hact hw]

/-- Active jobs do not wait. -/
theorem Rep.not_pending (h : s.Rep) (hold : old ∈ s.jobs)
    (hact : old.state.active = true) : old.id ∉ s.pending.toList := by
  intro hmem
  obtain ⟨k, hk, hqueued, hid⟩ :=
    Board.mem_waitingIn.mp (h.inv.pending.mem_iff.mp hmem)
  obtain rfl := h.job_unique hk hold hid
  rw [hqueued] at hact
  cases hact

/-- The outcome of an active job is published. -/
theorem Rep.outcome_published (h : s.Rep) (hold : old ∈ s.jobs)
    (hact : old.state.active = true)
    (hj : JobStep (outcomeEvent job.state) old job) :
    publishOutcome s (findSlot s job.id) job
      = (.ok, s.commit (outcomeEvent job.state) job) := by
  rcases publishOutcome_cases h.fits job with herror | hok
  swap
  · exact hok
  exfalso
  have hid := hj.same.id_eq
  by_cases hq : job.state = .queued
  · rw [hq] at hj
    obtain ⟨-, -, _, _, -, -, -, hjob⟩ := jobStep_requeued hj
    obtain ⟨pre, suf, hjobs⟩ := List.append_of_mem hold
    have hpush : jobQueuePush s.pending job = .ok (s.pending.put job.id) :=
      (jobQueuePush_ok_iff h.fits).mpr
        ⟨hid ▸ (h.inv.valid old hold).id_ne, hq, by rw [hjob],
          hid ▸ h.not_pending hold hact,
          h.room hjobs (Board.not_queued_of_active hact), rfl⟩
    simp [publishOutcome, hq, hpush] at herror
  · simp [publishOutcome, hq] at herror

end Scheduler

/-- The job model lets an active attempt fail. -/
theorem jobFail_active (hvalid : old.Valid) (hact : old.state.active = true)
    (hnow : 0 ≤ now) (hle : old.updatedAtMs ≤ now) :
    jobFail old old.workerId old.attempt .workerLost now
      = .ok (failedAttempt old .workerLost now) := by
  have hattempt := hvalid.attempt_ne (Board.not_queued_of_active hact)
  exact jobFail_ok_iff.mpr ⟨hact, hnow, hle, hvalid.owner_ne hact, hattempt,
    rfl, rfl, by simp, rfl⟩

/-- The loss of a worker with an active job is accepted. -/
theorem workerLost_accepted (h : s.Rep) (hold : old ∈ s.jobs)
    (hact : old.state.active = true) (hnow : 0 ≤ now)
    (hle : old.updatedAtMs ≤ now) :
    schedulerWorkerLost s old.workerId now
      = (.ok, s.commit
          (outcomeEvent (failedAttempt old .workerLost now).state)
          (failedAttempt old .workerLost now)) := by
  have hvalid := h.inv.valid old hold
  have hfail := jobFail_active hvalid hact hnow hle
  have hargs : ¬ (old.workerId == 0 || decide (now < 0)) = true := by
    simp only [Bool.or_eq_true, beq_iff_eq, decide_eq_true_eq, not_or]
    exact ⟨hvalid.owner_ne hact, Int64.not_lt.mpr hnow⟩
  unfold schedulerWorkerLost
  rw [if_neg hargs, h.active_eq hold hact]
  simp only [hfail]
  exact h.outcome_published hold hact (jobFail_step hfail)

/-- A report of the current identity that the job model allows is
accepted. -/
theorem report_accepted (h : s.Rep) (hold : old ∈ s.jobs)
    (hact : old.state.active = true) (hnow : 0 ≤ now) {report : Message}
    (hident : report.reportIdentity
      = some { jobId := old.id, workerId := old.workerId,
               attempt := old.attempt })
    (happly : applyReport old old.workerId old.attempt report now = .ok job) :
    schedulerReport s old.workerId report now
      = (.ok, s.commit (outcomeEvent job.state) job) := by
  have hw := (schedulerActive_some (h.active_eq hold hact)).1
  have hargs : ¬ (old.workerId == 0 || decide (now < 0)) = true := by
    simp only [Bool.or_eq_true, beq_iff_eq, decide_eq_true_eq, not_or]
    exact ⟨hw, Int64.not_lt.mpr hnow⟩
  unfold schedulerReport
  rw [if_neg hargs, hident]
  simp only [bne_self_eq_false, Bool.false_eq_true, if_false, h.slot hold,
    happly]
  rw [← id_of_applyReport happly]
  exact h.outcome_published hold hact (applyReport_step happly)

-- ============================================ no internal errors

/-- A submission never fails in the queue: its id is new, and a table with
a free slot leaves the queue one too. -/
theorem submit_noQueueError (h : s.Rep) (payload : JobSubmitPayload)
    (now : Int64) : (schedulerSubmit s payload now).1 ≠ .queueError := by
  unfold schedulerSubmit
  split
  · simp
  split
  · simp
  rename_i hfull
  split
  · simp
  rename_i hnext
  split
  · simp
  rename_i job hinit
  have hid := (jobInit_self hinit).1
  have hnew : job.id ∉ s.pending.toList := by
    intro hmem
    obtain ⟨k, hk, -, hkid⟩ :=
      Board.mem_waitingIn.mp (h.inv.pending.mem_iff.mp hmem)
    have hlt := h.id_lt_next (by simpa using hnext) hk
    rw [hkid, hid] at hlt
    exact UInt64.lt_irrefl _ hlt
  have hroom : s.pending.count < jobQueueCapacity := by
    have hcount := h.count_le
    have hle : s.jobs.length ≤ boardCapacity := h.inv.jobs_le
    have hne : s.jobs.length ≠ jobStoreCapacity := by simpa using hfull
    unfold boardCapacity at hle
    unfold jobStoreCapacity at hne
    unfold jobQueueCapacity
    omega
  have hpush : jobQueuePush s.pending job = .ok (s.pending.put job.id) := by
    obtain ⟨hne, -, -, task, -, rfl⟩ := jobInit_ok_iff.mp hinit
    exact (jobQueuePush_ok_iff h.fits).mpr ⟨hne, rfl, rfl, hnew, hroom, rfl⟩
  rw [hpush]
  simp

/-- The head of the queue is a stored job that can be assigned. -/
theorem Scheduler.Rep.head_assignable (h : s.Rep) {id : UInt64}
    (hpeek : jobQueuePeek s.pending = .ok id) {worker : UInt32}
    (hw : worker ≠ 0) (hnow : 0 ≤ now)
    (htimes : ∀ k ∈ s.jobs, k.updatedAtMs ≤ now) :
    ∃ old job, s.jobs[findSlot s id]? = some old
      ∧ jobAssign old worker now = .ok job := by
  have hmem : id ∈ s.pending.toList :=
    List.mem_of_mem_head? (jobQueuePeek_ok_iff.mp hpeek)
  obtain ⟨old, hold, hqueued, rfl⟩ :=
    Board.mem_waitingIn.mp (h.inv.pending.mem_iff.mp hmem)
  exact ⟨old, _, h.slot hold,
    jobAssign_ok_iff.mpr ⟨hqueued, hnow, htimes old hold, hw, rfl⟩⟩

/-- An assignment succeeds, finds the queue empty or the worker busy. -/
theorem assign_results (h : s.Rep) {worker : UInt32} (hw : worker ≠ 0)
    (hnow : 0 ≤ now) (htimes : ∀ k ∈ s.jobs, k.updatedAtMs ≤ now) :
    (schedulerAssign s worker now).1 = .ok
    ∨ (schedulerAssign s worker now).1 = .empty
    ∨ (schedulerAssign s worker now).1 = .workerBusy := by
  have hargs : ¬ (worker == 0 || decide (now < 0)) = true := by
    simp only [Bool.or_eq_true, beq_iff_eq, decide_eq_true_eq, not_or]
    exact ⟨hw, Int64.not_lt.mpr hnow⟩
  unfold schedulerAssign
  rw [if_neg hargs]
  split
  · exact Or.inr (Or.inr rfl)
  split
  · exact Or.inr (Or.inl rfl)
  rename_i id hpeek
  obtain ⟨old, job, hslot, hassign⟩ := h.head_assignable hpeek hw hnow htimes
  rw [hslot]
  simp only [hassign]
  have hpop : jobQueuePop s.pending = .ok (id, s.pending.advance 0) :=
    jobQueuePop_ok_iff.mpr ⟨jobQueuePeek_ok_iff.mp hpeek, rfl⟩
  rw [hpop]
  exact Or.inl rfl

/-- What was peeked can be popped. -/
theorem assign_noQueueError (worker : UInt32) (now : Int64) :
    (schedulerAssign s worker now).1 ≠ .queueError := by
  unfold schedulerAssign
  split
  · simp
  split
  · simp
  split
  · simp
  rename_i id hpeek
  split
  · simp
  split
  · simp
  have hpop : jobQueuePop s.pending = .ok (id, s.pending.advance 0) :=
    jobQueuePop_ok_iff.mpr ⟨jobQueuePeek_ok_iff.mp hpeek, rfl⟩
  rw [hpop]
  simp

/-- A job a report applies to is active. -/
theorem applyReport_active {worker : UInt32} {attempt : UInt64}
    {report : Message}
    (h : applyReport old worker attempt report now = .ok job) :
    old.state.active = true := by
  unfold applyReport at h
  split at h
  · rw [(jobStart_ok_iff.mp h).1]
    rfl
  · rw [(jobComplete_ok_iff.mp h).1]
    rfl
  · split at h
    · cases h
    · exact (jobFail_ok_iff.mp h).1
  · cases h

/-- A report never fails in the queue: an active job can be requeued. -/
theorem report_noQueueError (h : s.Rep) (worker : UInt32) (report : Message)
    (now : Int64) :
    (schedulerReport s worker report now).1 ≠ .queueError := by
  unfold schedulerReport
  split
  · simp
  split
  · simp
  split
  · simp
  split
  · simp
  rename_i old hslot
  split
  · simp
  rename_i job happly
  have hid : job.id = _ := (id_of_applyReport happly).trans
    (id_of_findSlot hslot)
  rw [← hid, h.outcome_published (mem_of_findSlot hslot)
    (applyReport_active happly) (applyReport_step happly)]
  simp

/-- Nor does the loss of a worker. -/
theorem workerLost_noQueueError (h : s.Rep) (worker : UInt32) (now : Int64) :
    (schedulerWorkerLost s worker now).1 ≠ .queueError := by
  unfold schedulerWorkerLost
  split
  · simp
  split
  · simp
  rename_i old hactive
  split
  · simp
  rename_i job hfail
  obtain ⟨-, hold, -, hact⟩ := schedulerActive_some hactive
  rw [h.outcome_published hold hact (jobFail_step hfail)]
  simp

end Faultline
