/-
How long the coordinator waits.

A live worker that is not heard of is timed out from its deadline on
(`workerTimedOut_iff`). `heartbeat_poll_timeout` looks for the first deadline:
one slot of its loop either ends it or lowers the wait to what remains for
that worker (`pollTimeoutFrom_alive`), with nothing lost in a word, and so the
wait it returns ends at the first deadline or after a second, whichever comes
first (`Wakes`).
-/
import Faultline.Coordinator.Loop
import Faultline.Proofs.ViewsAgree

namespace Faultline

open Lib

variable {registry : WorkerRegistry} {worker : Worker} {workers : List Worker}
  {nowMs timeoutMs t : Int64} {now waitMs r d : Int}
  {deadlines : List Int}

-- ==================================================== deadlines

/-- The first time at which a silent worker is timed out. -/
def Worker.deadline (worker : Worker) (timeoutMs : Int64) : Int :=
  worker.lastHeartbeatMs.toInt + timeoutMs.toInt

def deadlinesOf (timeoutMs : Int64) (workers : List Worker) : List Int :=
  (workers.filter fun worker => worker.state == .alive).map
    (·.deadline timeoutMs)

theorem mem_deadlinesOf : d ∈ deadlinesOf timeoutMs workers
    ↔ ∃ worker ∈ workers, worker.state = .alive
      ∧ worker.deadline timeoutMs = d := by
  simp [deadlinesOf, and_assoc]

theorem deadlinesOf_alive (h : worker.state = .alive) :
    deadlinesOf timeoutMs (worker :: workers)
      = worker.deadline timeoutMs :: deadlinesOf timeoutMs workers := by
  simp [deadlinesOf, h]

theorem deadlinesOf_other (h : worker.state ≠ .alive) :
    deadlinesOf timeoutMs (worker :: workers)
      = deadlinesOf timeoutMs workers := by
  simp [deadlinesOf, h]

/-- The expiry predicate is the deadline. -/
theorem workerTimedOut_iff (htimeout : 1 ≤ timeoutMs) (h : worker.Dated t) :
    workerTimedOut worker t timeoutMs = true
      ↔ worker.state = .alive ∧ worker.deadline timeoutMs ≤ t.toInt := by
  obtain ⟨hnonneg, hle⟩ := h
  have hpos : timeoutMs > 0 := Int64.lt_of_lt_of_le (by decide) htimeout
  have hsilent := Int64.toInt_sub_of_le t worker.lastHeartbeatMs hnonneg hle
  unfold workerTimedOut Worker.deadline
  simp only [Bool.and_eq_true, beq_iff_eq, decide_eq_true_eq, hpos, hnonneg,
    hle, ge_iff_le, and_true, Int64.le_iff_toInt_le, hsilent]
  refine and_congr_right fun _ => ?_
  omega

-- ==================================================== the wait

/-- A wait that ends at the first deadline, if that comes before the wait's
bound. -/
inductive Wakes (now waitMs : Int) (deadlines : List Int) : Int → Prop where
  | due {deadline : Int} (mem : deadline ∈ deadlines)
      (past : deadline ≤ now) : Wakes now waitMs deadlines 0
  | waits {r : Int} (pos : 0 < r) (bound : r ≤ waitMs)
      (first : ∀ deadline ∈ deadlines, now + r ≤ deadline)
      (cause : r = waitMs ∨ now + r ∈ deadlines) : Wakes now waitMs deadlines r

/-- A deadline ahead only lowers the bound. -/
theorem Wakes.cons (h : Wakes now (min waitMs (d - now)) deadlines r) :
    Wakes now waitMs (d :: deadlines) r := by
  cases h with
  | due mem past => exact .due (List.mem_cons_of_mem _ mem) past
  | waits pos bound first cause =>
      obtain ⟨hwait, hdeadline⟩ := Int.le_min.mp bound
      refine .waits pos hwait (fun other hother => ?_) ?_
      · rcases List.mem_cons.mp hother with rfl | hother
        · omega
        · exact first other hother
      · rcases cause with rfl | hmem
        · rcases Int.le_total waitMs (d - now) with hle | hle
          · exact .inl (Int.min_eq_left hle)
          · refine .inr (List.mem_cons.mpr (.inl ?_))
            rw [Int.min_eq_right hle]
            omega
        · exact .inr (List.mem_cons_of_mem _ hmem)

/-- One slot of the loop: no operation overflows, and nothing is lost in the
conversion. -/
theorem pollTimeoutFrom_alive (htimeout : 1 ≤ timeoutMs)
    (hwait : waitMs ≤ 1000) (halive : worker.state = .alive)
    (h : worker.Dated nowMs) :
    pollTimeoutFrom nowMs timeoutMs waitMs (worker :: workers)
      = if worker.deadline timeoutMs ≤ nowMs.toInt then .ok 0
        else pollTimeoutFrom nowMs timeoutMs
          (min waitMs (worker.deadline timeoutMs - nowMs.toInt)) workers := by
  obtain ⟨hnonneg, hle⟩ := h
  have hnonneg' := Int64.le_iff_toInt_le.mp hnonneg
  have hle' := Int64.le_iff_toInt_le.mp hle
  have htimeout' := Int64.le_iff_toInt_le.mp htimeout
  have hnow := nowMs.toInt_lt
  have hmax := timeoutMs.toInt_lt
  simp only [Int64.toInt_zero] at hnonneg'
  have hone : (1 : Int64).toInt = 1 := by decide
  have hremaining : timeoutMs.toInt
      - (nowMs.toInt - worker.lastHeartbeatMs.toInt)
        = worker.deadline timeoutMs - nowMs.toInt := by
    unfold Worker.deadline
    omega
  rw [pollTimeoutFrom, if_pos (by simpa using halive),
    fittingInt64_ok (by omega) (by omega), ok_bind,
    fittingInt64_ok (by omega) (by omega), ok_bind, hremaining]
  by_cases hdue : worker.deadline timeoutMs ≤ nowMs.toInt
  · rw [if_pos hdue, if_pos (Int.sub_nonpos_of_le hdue)]
    rfl
  · rw [if_neg hdue, if_neg fun h => hdue (Int.le_of_sub_nonpos h)]
    split
    · rename_i hsooner
      rw [fittingInt_ok (by omega) (by omega), ok_bind,
        Int.min_eq_right (Int.le_of_lt hsooner)]
    · rename_i hlater
      rw [Int.min_eq_left (Int.not_lt.mp hlater)]

theorem pollTimeoutFrom_wakes (htimeout : 1 ≤ timeoutMs) (hpos : 0 < waitMs)
    (hwait : waitMs ≤ 1000)
    (h : ∀ worker ∈ workers, worker.state = .alive → worker.Dated nowMs) :
    ∃ r, pollTimeoutFrom nowMs timeoutMs waitMs workers = .ok r
      ∧ Wakes nowMs.toInt waitMs (deadlinesOf timeoutMs workers) r := by
  induction workers generalizing waitMs with
  | nil =>
      exact ⟨waitMs, rfl, .waits hpos (Int.le_refl _) nofun (.inl rfl)⟩
  | cons worker workers ih =>
      have hrest := fun other hother => h other (List.mem_cons_of_mem _ hother)
      by_cases halive : worker.state = .alive
      · rw [pollTimeoutFrom_alive htimeout hwait halive
          (h worker (List.mem_cons_self ..) halive), deadlinesOf_alive halive]
        split
        · rename_i hdue
          exact ⟨0, rfl, .due (List.mem_cons_self ..) hdue⟩
        · rename_i hahead
          obtain ⟨r, hr, hwakes⟩ := @ih
            (min waitMs (worker.deadline timeoutMs - nowMs.toInt))
            (by omega) (by omega) hrest
          exact ⟨r, hr, hwakes.cons⟩
      · rw [pollTimeoutFrom, if_neg (by simpa using halive),
          deadlinesOf_other halive]
        exact ih hpos hwait hrest

-- ================================================= the registry

theorem mem_slots : worker ∈ registry.slots
    ↔ ∃ slot, registry.worker slot = worker := by
  simp [WorkerRegistry.slots]

theorem heartbeatPollTimeout_wakes (htimeout : 1 ≤ timeoutMs)
    (h : ∀ slot, (registry.worker slot).state = .alive →
      (registry.worker slot).Dated nowMs) :
    ∃ r, heartbeatPollTimeout registry nowMs timeoutMs = .ok r
      ∧ Wakes nowMs.toInt 1000 (deadlinesOf timeoutMs registry.slots) r := by
  refine pollTimeoutFrom_wakes htimeout (by decide) (Int.le_refl _) ?_
  intro worker hmem halive
  obtain ⟨slot, rfl⟩ := mem_slots.mp hmem
  exact h slot halive

/-- In every reachable state of the loop, whose clock has not run backwards,
the wait is computed without a fault. -/
theorem Coordinator.Reachable.pollTimeout {s : Coordinator}
    {settings : LoopSettings} (h : s.Reachable settings)
    (htimeout : 1 ≤ timeoutMs) (hnow : ∀ t, s.HasRead t → t ≤ nowMs) :
    ∃ r, heartbeatPollTimeout s.store.workers nowMs timeoutMs = .ok r
      ∧ Wakes nowMs.toInt 1000
        (deadlinesOf timeoutMs s.store.workers.slots) r := by
  refine heartbeatPollTimeout_wakes htimeout fun slot halive => ?_
  obtain ⟨hnonneg, hread⟩ := h.viewable.dated slot (by simp [Worker.kept, halive])
  exact ⟨hnonneg, hnow _ hread⟩

/-- At a time that is not before the heartbeat of any live worker: the wait is
computed exactly and is between nothing and a second. It is nothing just when
a worker is timed out. During the wait no worker is, and if it is shorter than
a second then one is at its end. -/
theorem poll_timeout_exact (registry : WorkerRegistry)
    (nowMs timeoutMs : Int64)
    (htimeout : 1 ≤ timeoutMs ∧ timeoutMs ≤ 2147483647)
    (hbeats : ∀ slot, (registry.worker slot).state = .alive →
      0 ≤ (registry.worker slot).lastHeartbeatMs
        ∧ (registry.worker slot).lastHeartbeatMs ≤ nowMs) :
    ∃ r, heartbeatPollTimeout registry nowMs timeoutMs = .ok r
      ∧ 0 ≤ r ∧ r ≤ 1000
      ∧ (r = 0 ↔ ∃ slot,
        workerTimedOut (registry.worker slot) nowMs timeoutMs = true)
      ∧ (0 < r →
        (∀ slot, (registry.worker slot).state = .alive →
          nowMs.toInt + r ≤ (registry.worker slot).deadline timeoutMs)
        ∧ ∀ t : Int64, nowMs ≤ t → t.toInt < nowMs.toInt + r →
          ∀ slot, workerTimedOut (registry.worker slot) t timeoutMs = false)
      ∧ (r < 1000 → ∃ slot, (registry.worker slot).state = .alive
        ∧ (registry.worker slot).deadline timeoutMs ≤ nowMs.toInt + r
        ∧ ∀ t : Int64, t.toInt = nowMs.toInt + r →
          workerTimedOut (registry.worker slot) t timeoutMs = true) := by
  obtain ⟨r, hr, hwakes⟩ := heartbeatPollTimeout_wakes htimeout.1 hbeats
  -- a heartbeat that lies behind now lies behind every later time
  have htimed (t : Int64) (hle : nowMs ≤ t) (slot : Fin maxWorkers)
      (halive : (registry.worker slot).state = .alive) :
      workerTimedOut (registry.worker slot) t timeoutMs = true
        ↔ (registry.worker slot).deadline timeoutMs ≤ t.toInt := by
    obtain ⟨hnonneg, hbefore⟩ := hbeats slot halive
    have hiff := @workerTimedOut_iff (registry.worker slot) timeoutMs t
      htimeout.1 ⟨hnonneg, Int64.le_trans hbefore hle⟩
    rw [hiff, and_iff_right halive]
  have halive {t : Int64} {slot : Fin maxWorkers}
      (hout : workerTimedOut (registry.worker slot) t timeoutMs = true) :
      (registry.worker slot).state = .alive := by
    simp only [workerTimedOut, Bool.and_eq_true, beq_iff_eq] at hout
    exact hout.1.1.1.1
  have hdeadline (slot : Fin maxWorkers)
      (h : (registry.worker slot).state = .alive) :
      (registry.worker slot).deadline timeoutMs
        ∈ deadlinesOf timeoutMs registry.slots :=
    mem_deadlinesOf.mpr ⟨_, mem_slots.mpr ⟨slot, rfl⟩, h, rfl⟩
  have hlater {t : Int64} (ht : t.toInt = nowMs.toInt + r) (hpos : 0 ≤ r) :
      nowMs ≤ t := Int64.le_iff_toInt_le.mpr (by omega)
  refine ⟨r, hr, ?_⟩
  cases hwakes with
  | due mem past =>
      obtain ⟨_, hmem, hworker, rfl⟩ := mem_deadlinesOf.mp mem
      obtain ⟨slot, rfl⟩ := mem_slots.mp hmem
      refine ⟨Int.le_refl _, by decide, ⟨fun _ => ⟨slot, ?_⟩, fun _ => rfl⟩,
        fun hpos => absurd hpos (Int.lt_irrefl _), fun _ => ⟨slot, hworker, ?_,
          fun t ht => ?_⟩⟩
      · exact (htimed nowMs (Int64.le_refl _) slot hworker).mpr past
      · rwa [Int.add_zero]
      · refine (htimed t (hlater ht (Int.le_refl _)) slot hworker).mpr ?_
        omega
  | waits pos bound first cause =>
      refine ⟨Int.le_of_lt pos, bound, iff_of_false (Int.ne_of_gt pos) ?_,
        fun _ => ⟨fun slot h => first _ (hdeadline slot h),
          fun t hle hlt slot => ?_⟩, fun hshort => ?_⟩
      · rintro ⟨slot, hout⟩
        have hpast := (htimed nowMs (Int64.le_refl _) slot (halive hout)).mp hout
        have hahead := first _ (hdeadline slot (halive hout))
        omega
      · refine Bool.eq_false_iff.mpr fun hout => ?_
        have hpast := (htimed t hle slot (halive hout)).mp hout
        have hahead := first _ (hdeadline slot (halive hout))
        omega
      · rcases cause with rfl | mem
        · exact absurd hshort (Int.lt_irrefl _)
        obtain ⟨_, hmem, hworker, hfirst⟩ := mem_deadlinesOf.mp mem
        obtain ⟨slot, rfl⟩ := mem_slots.mp hmem
        refine ⟨slot, hworker, Int.le_of_eq hfirst, fun t ht => ?_⟩
        refine (htimed t (hlater ht (Int.le_of_lt pos)) slot hworker).mpr ?_
        omega

/-- A registry with a worker that was heard of at 5. -/
def oneWorker : WorkerRegistry :=
  match workerRegister workerRegistryInit 7 5 with
  | .ok (_, registry) => registry
  | .error _ => workerRegistryInit

theorem poll_timeout_exact_oneWorker :
    heartbeatPollTimeout oneWorker 25 100 = .ok 80
      ∧ (∀ slot, workerTimedOut (oneWorker.worker slot) 104 100 = false)
      ∧ ∃ slot, workerTimedOut (oneWorker.worker slot) 105 100 = true := by
  have hwait : heartbeatPollTimeout oneWorker 25 100 = .ok 80 := by
    decide +kernel
  obtain ⟨r, hr, -, -, -, hquiet, hends⟩ :=
    poll_timeout_exact oneWorker 25 100 (by decide) (by decide +kernel)
  obtain rfl : r = 80 := by
    rw [hwait] at hr
    exact (Except.ok.inj hr).symm
  obtain ⟨slot, -, -, hout⟩ := hends (by decide)
  exact ⟨hwait, (hquiet (by decide)).2 104 (by decide) (by decide), slot,
    hout 105 (by decide)⟩

end Faultline
