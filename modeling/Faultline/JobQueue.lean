/-
The pending queue (include/job_queue.h, src/coordinator/job_queue.c):
a ring of 256 job ids. It holds identities only, so a caller checks the
job it looks up before it trusts a popped id.

The representation invariant is the library's `Ring.Fits`; over it, the
four lemmas at the end say what each call does to the abstract list.
-/
import Faultline.Job
import Faultline.Lib.Ring

namespace Faultline

open Lib

abbrev jobQueueCapacity : Nat := 256

instance jobQueueCapacity_neZero : NeZero jobQueueCapacity := ⟨by decide⟩

/-- `struct faultline_job_queue`: `ids`, `head` and `count`. -/
abbrev JobQueue : Type := Ring UInt64 jobQueueCapacity

/-- The non-OK members of `enum faultline_job_queue_result`. -/
inductive JobQueueError where
  | invalidArgument
  | invalidState
  | duplicate
  | full
  | empty
deriving DecidableEq, Repr

def jobQueueInit : JobQueue :=
  { cells := Vector.replicate jobQueueCapacity 0, head := 0, count := 0 }

def jobQueuePush (queue : JobQueue) (job : Job) :
    Except JobQueueError JobQueue :=
  if job.id == 0 then .error .invalidArgument
  else if job.state != .queued || job.workerId != 0 then .error .invalidState
  else if (List.range queue.count).any (fun i => queue.entry i == job.id) then
    .error .duplicate
  else if queue.count == jobQueueCapacity then .error .full
  else .ok (queue.put job.id)

def jobQueuePeek (queue : JobQueue) : Except JobQueueError UInt64 :=
  if queue.count == 0 then .error .empty else .ok (queue.entry 0)

def jobQueuePop (queue : JobQueue) :
    Except JobQueueError (UInt64 × JobQueue) := do
  let id ← jobQueuePeek queue
  .ok (id, queue.advance 0)

-- ======================================== the list it stands for

theorem jobQueueInit_fits : jobQueueInit.Fits :=
  ⟨by decide, by decide⟩

@[simp] theorem toList_jobQueueInit : jobQueueInit.toList = [] := rfl

/-- The duplicate scan over the occupied cells looks the id up in the
queue's list. -/
theorem any_entry_iff {queue : JobQueue} {id : UInt64} :
    (List.range queue.count).any (fun i => queue.entry i == id) = true
      ↔ id ∈ queue.toList := by
  simp only [List.any_eq_true, beq_iff_eq, Ring.toList, List.mem_map]

/-- A push succeeds for an unowned queued job that is not waiting yet,
while there is room. -/
theorem jobQueuePush_ok_iff {queue queue' : JobQueue} {job : Job}
    (hfits : queue.Fits) :
    jobQueuePush queue job = .ok queue'
      ↔ job.id ≠ 0 ∧ job.state = .queued ∧ job.workerId = 0
        ∧ job.id ∉ queue.toList ∧ queue.count < jobQueueCapacity
        ∧ queue' = queue.put job.id := by
  have hle := hfits.count_le
  unfold jobQueuePush
  split
  · simp_all
  split
  · rename_i _ h
    simp only [Bool.or_eq_true, bne_iff_ne] at h
    grind
  split
  · rename_i _ _ h
    simp [any_entry_iff.mp h]
  rename_i hid hstate hdup
  rw [any_entry_iff] at hdup
  simp only [Bool.or_eq_true, bne_iff_ne, not_or, not_not] at hstate
  simp only [beq_iff_eq] at hid
  split
  · rename_i hfull
    simp only [beq_iff_eq] at hfull
    simp [hfull]
  · rename_i hfull
    simp only [beq_iff_eq] at hfull
    have hroom : queue.count < jobQueueCapacity := by omega
    simp only [hid, hstate, hdup, hroom, Except.ok.injEq, ne_eq,
      not_false_eq_true, true_and, eq_comm]

theorem jobQueuePeek_ok_iff {queue : JobQueue} {id : UInt64} :
    jobQueuePeek queue = .ok id ↔ queue.toList.head? = some id := by
  unfold jobQueuePeek
  split
  · rename_i h
    have hnil : queue.toList = [] := by
      rw [← List.length_eq_zero_iff, Ring.length_toList]
      simpa using h
    simp [hnil]
  · rename_i h
    rw [Ring.head?_toList (by simpa using h)]
    simp

theorem jobQueuePop_ok_iff {queue queue' : JobQueue} {id : UInt64} :
    jobQueuePop queue = .ok (id, queue')
      ↔ queue.toList.head? = some id ∧ queue' = queue.advance 0 := by
  rw [← jobQueuePeek_ok_iff]
  unfold jobQueuePop
  cases jobQueuePeek queue with
  | error e => simp [bind, Except.bind]
  | ok front => simp [bind, Except.bind, eq_comm]

end Faultline
