/-
The pending queue is a bounded list without duplicates.

A call works in place: it changes the queue or the caller's output cell, and
neither when it fails. `Waiting` is what every sequence of calls from an
initialised queue keeps; over it, each call does to the list what its
contract says.
-/
import Faultline.JobQueue

namespace Faultline

open Lib

/-- A call of the queue's interface. -/
inductive JobQueueCall where
  | push (job : Job)
  | peek
  | pop
deriving DecidableEq, Repr

/-- The storage a call works on: the queue and the output cell. -/
structure JobQueueCells where
  queue : JobQueue
  jobId : UInt64
deriving DecidableEq, Repr

/-- A call in place; `none` is `FAULTLINE_JOB_QUEUE_OK`. -/
def JobQueueCall.run (call : JobQueueCall) (cells : JobQueueCells) :
    Option JobQueueError × JobQueueCells :=
  match call with
  | .push job =>
      match jobQueuePush cells.queue job with
      | .error e => (some e, cells)
      | .ok queue => (none, { cells with queue })
  | .peek =>
      match jobQueuePeek cells.queue with
      | .error e => (some e, cells)
      | .ok jobId => (none, { cells with jobId })
  | .pop =>
      match jobQueuePop cells.queue with
      | .error e => (some e, cells)
      | .ok (jobId, queue) => (none, { queue, jobId })

/-- The storage after a sequence of calls. -/
def JobQueueCall.runAll (calls : List JobQueueCall) (cells : JobQueueCells) :
    JobQueueCells :=
  calls.foldl (fun cells call => (call.run cells).2) cells

/-- A queue whose list is within bounds and names nobody twice. -/
structure JobQueue.Waiting (queue : JobQueue) : Prop where
  fits : queue.Fits
  nodup : queue.toList.Nodup

variable {cells : JobQueueCells} {job : Job}

theorem waiting_init : JobQueue.Waiting jobQueueInit :=
  ⟨jobQueueInit_fits, List.nodup_nil⟩

-- ================================================== one call

/-- When a push is taken. -/
def JobQueue.Takes (queue : JobQueue) (job : Job) : Prop :=
  job.state = .queued ∧ job.id ≠ 0 ∧ job.workerId = 0
    ∧ job.id ∉ queue.toList ∧ queue.toList.length < jobQueueCapacity

/-- A push is taken exactly then, and appends. -/
theorem push_spec (h : cells.queue.Waiting) (job : Job) :
    (((JobQueueCall.push job).run cells).1 = none
        ↔ cells.queue.Takes job)
      ∧ (cells.queue.Takes job →
        ((JobQueueCall.push job).run cells).2.queue.toList
            = cells.queue.toList ++ [job.id]
          ∧ ((JobQueueCall.push job).run cells).2.jobId = cells.jobId)
      ∧ (¬ cells.queue.Takes job →
        ((JobQueueCall.push job).run cells).2 = cells) := by
  unfold JobQueue.Takes
  rw [Ring.length_toList]
  cases hpush : jobQueuePush cells.queue job with
  | error e =>
      have hrefused : ¬ (job.state = .queued ∧ job.id ≠ 0 ∧ job.workerId = 0
          ∧ job.id ∉ cells.queue.toList
          ∧ cells.queue.count < jobQueueCapacity) := by
        rintro ⟨hstate, hid, howner, hnew, hroom⟩
        rw [(jobQueuePush_ok_iff h.fits).mpr
          ⟨hid, hstate, howner, hnew, hroom, rfl⟩] at hpush
        cases hpush
      simp [JobQueueCall.run, hpush, hrefused]
  | ok queue =>
      obtain ⟨hid, hstate, howner, hnew, hroom, rfl⟩ :=
        (jobQueuePush_ok_iff h.fits).mp hpush
      simp [JobQueueCall.run, hpush, hid, hstate, howner, hnew, hroom,
        Ring.toList_put hroom]

/-- A peek returns the oldest entry. -/
theorem peek_spec (cells : JobQueueCells) :
    ((JobQueueCall.peek.run cells).1 = none ↔ cells.queue.toList ≠ [])
      ∧ (∀ id rest, cells.queue.toList = id :: rest →
        (JobQueueCall.peek.run cells).2 = { cells with jobId := id })
      ∧ (cells.queue.toList = [] →
        (JobQueueCall.peek.run cells).2 = cells) := by
  cases hpeek : jobQueuePeek cells.queue with
  | error e =>
      have hempty : cells.queue.toList = [] := by
        cases hlist : cells.queue.toList with
        | nil => rfl
        | cons id rest =>
            rw [jobQueuePeek_ok_iff.mpr (by rw [hlist]; rfl)] at hpeek
            cases hpeek
      simp [JobQueueCall.run, hpeek, hempty]
  | ok id =>
      have hhead := jobQueuePeek_ok_iff.mp hpeek
      obtain ⟨rest, hlist⟩ := List.head?_eq_some_iff.mp hhead
      simp [JobQueueCall.run, hpeek, hlist]

/-- A pop returns the oldest entry and drops it. -/
theorem pop_spec (h : cells.queue.Waiting) :
    ((JobQueueCall.pop.run cells).1 = none ↔ cells.queue.toList ≠ [])
      ∧ (∀ id rest, cells.queue.toList = id :: rest →
        (JobQueueCall.pop.run cells).2.jobId = id
          ∧ (JobQueueCall.pop.run cells).2.queue.toList = rest)
      ∧ (cells.queue.toList = [] →
        (JobQueueCall.pop.run cells).2 = cells) := by
  cases hlist : cells.queue.toList with
  | nil =>
      have hpop : ∃ e, jobQueuePop cells.queue = .error e := by
        cases hpop : jobQueuePop cells.queue with
        | error e => exact ⟨e, rfl⟩
        | ok found =>
            have hhead := (jobQueuePop_ok_iff.mp hpop).1
            rw [hlist] at hhead
            cases hhead
      obtain ⟨e, hpop⟩ := hpop
      simp [JobQueueCall.run, hpop]
  | cons id rest =>
      have hpop : jobQueuePop cells.queue
          = .ok (id, cells.queue.advance 0) :=
        jobQueuePop_ok_iff.mpr ⟨by rw [hlist]; rfl, rfl⟩
      simp [JobQueueCall.run, hpop, Ring.toList_advance h.fits, hlist]

-- ================================================= all calls

/-- No call breaks the list. -/
theorem JobQueue.Waiting.run (h : cells.queue.Waiting) (call : JobQueueCall) :
    (call.run cells).2.queue.Waiting := by
  cases call with
  | push job =>
      cases hpush : jobQueuePush cells.queue job with
      | error e => simpa [JobQueueCall.run, hpush] using h
      | ok queue =>
          obtain ⟨-, -, -, hnew, hroom, rfl⟩ :=
            (jobQueuePush_ok_iff h.fits).mp hpush
          simp only [JobQueueCall.run, hpush]
          refine ⟨h.fits.put hroom _, ?_⟩
          rw [Ring.toList_put hroom]
          refine List.nodup_append.mpr
            ⟨h.nodup, List.pairwise_singleton _ _, fun a ha b hb heq => ?_⟩
          rw [List.mem_singleton.mp hb] at heq
          exact hnew (heq ▸ ha)
  | peek =>
      cases hpeek : jobQueuePeek cells.queue <;>
        simpa [JobQueueCall.run, hpeek] using h
  | pop =>
      cases hpop : jobQueuePop cells.queue with
      | error e => simpa [JobQueueCall.run, hpop] using h
      | ok found =>
          obtain ⟨-, hqueue⟩ := jobQueuePop_ok_iff.mp hpop
          simp only [JobQueueCall.run, hpop, hqueue]
          refine ⟨h.fits.advance _, ?_⟩
          rw [Ring.toList_advance h.fits]
          exact h.nodup.sublist (List.tail_sublist _)

theorem JobQueue.Waiting.runAll (calls : List JobQueueCall)
    (h : cells.queue.Waiting) :
    (JobQueueCall.runAll calls cells).queue.Waiting := by
  induction calls generalizing cells with
  | nil => exact h
  | cons call calls ih => exact ih (h.run call)

/-- After any calls on an initialised queue, it stands for a list of at most
256 distinct ids, and each call does to that list what its contract says. -/
theorem jobQueue_refines_list (calls : List JobQueueCall) (jobId : UInt64) :
    let cells := JobQueueCall.runAll calls ⟨jobQueueInit, jobId⟩
    let waiting := cells.queue.toList
    waiting = (List.range cells.queue.count).map cells.queue.entry
      ∧ cells.queue.head < 256 ∧ cells.queue.count ≤ 256 ∧ waiting.Nodup
      ∧ (∀ job, (((JobQueueCall.push job).run cells).1 = none
            ↔ job.state = .queued ∧ job.id ≠ 0 ∧ job.workerId = 0
              ∧ job.id ∉ waiting ∧ waiting.length < 256)
          ∧ (((JobQueueCall.push job).run cells).1 = none →
            ((JobQueueCall.push job).run cells).2.queue.toList
              = waiting ++ [job.id]))
      ∧ ((JobQueueCall.peek.run cells).1 = none ↔ waiting ≠ [])
      ∧ ((JobQueueCall.pop.run cells).1 = none ↔ waiting ≠ [])
      ∧ (∀ id rest, waiting = id :: rest →
          (JobQueueCall.peek.run cells).2 = { cells with jobId := id }
          ∧ (JobQueueCall.pop.run cells).2.jobId = id
          ∧ (JobQueueCall.pop.run cells).2.queue.toList = rest)
      ∧ ∀ call : JobQueueCall, (call.run cells).1 ≠ none →
          (call.run cells).2 = cells := by
  intro cells waiting
  have h : cells.queue.Waiting := waiting_init.runAll calls
  have hpeek := peek_spec cells
  have hpop := pop_spec h
  refine ⟨rfl, h.fits.head_lt, h.fits.count_le, h.nodup, fun job => ?_,
    hpeek.1, hpop.1, fun id rest hlist => ?_, fun call hfailed => ?_⟩
  · obtain ⟨hiff, htaken, -⟩ := push_spec h job
    exact ⟨hiff, fun hok => (htaken (hiff.mp hok)).1⟩
  · exact ⟨hpeek.2.1 id rest hlist, hpop.2.1 id rest hlist⟩
  · cases call with
    | push job =>
        obtain ⟨hiff, -, hrefused⟩ := push_spec h job
        exact hrefused fun htakes => hfailed (hiff.mpr htakes)
    | peek =>
        refine hpeek.2.2 (Classical.byContradiction fun hne => ?_)
        exact hfailed (hpeek.1.mpr hne)
    | pop =>
        refine hpop.2.2 (Classical.byContradiction fun hne => ?_)
        exact hfailed (hpop.1.mpr hne)

end Faultline
