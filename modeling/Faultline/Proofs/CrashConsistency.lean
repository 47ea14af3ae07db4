/-
Whole runs of sessions: what survives, and in which order jobs are
dispatched.

Both are read off the history a reachable world holds
(`Reachable.holding`). The replayed state is the published one, or the one
of the single unfinished operation (`crash_consistency`). What the log
dispatched is the front of what it enqueued, and the pending queue is the
rest (`fifo_dispatch`), for accepted logs and for running stores alike.
-/
import Faultline.Proofs.SessionRuns

namespace Faultline

open Lib StoreCtx Scheduler World

variable {entries : List WalEntry} {l l' : Ledger} {w : World}
  {store : CoordinatorStore}

/-- However the sessions of a log ran and ended, the next replay succeeds
when its I/O does, and recovers exactly what was published last; or, when
one operation stopped with the machine or failed in its I/O, possibly what
that operation was about to publish. -/
theorem crash_consistency (w : World) (h : w.Reachable) (m : Machine)
    (hm : m.disk = w.disk)
    (hready : m.Ready (2 * w.disk.file.length + 12)) :
    ∃ report state c,
      walReplayOpen ⟨walWriterInit, m⟩ = .done (.ok, report, some state) c
      ∧ (state.view = w.published ∨ w.uncertain = some state.view) := by
  obtain ⟨entries, l, hold⟩ := h.holding
  have hp : m.disk.present = true := by
    rw [hm]
    exact hold.present
  have hcontent := hold.contents.1
  rw [← hm] at hcontent hready
  rcases hcontent with ⟨tail, holds⟩ | ⟨entry, l', -, holds, hview⟩
  · obtain ⟨c, hrun⟩ := walReplayOpen_total hp holds hready
    exact ⟨_, _, c, hrun, hold.known.imp Eq.symm id⟩
  · obtain ⟨c, hrun⟩ := walReplayOpen_total hp holds hready
    exact ⟨_, _, c, hrun, Or.inr hview⟩

/-- A submission that stops with ten bytes of its record written. -/
theorem submission_stopped :
    ∃ c, (StoreOp.submit { taskType := 4, maxRetries := 1, arguments := [] }
        6).run ⟨firstStore, ⟨logDisk [], 0, [.moved 9]⟩⟩ = .crash c
      ∧ c.machine.disk.file.length = 34
      ∧ c.machine.disk.Survives c.machine.disk.file := by
  have hrun : (match (StoreOp.submit
        { taskType := 4, maxRetries := 1, arguments := [] } 6).run
        ⟨firstStore, ⟨logDisk [], 0, [.moved 9]⟩⟩ with
      | .crash c => c.machine.disk.file.length == 34
          && decide (c.machine.disk.synced = 24)
          && c.machine.disk.dropped.isEmpty
      | _ => false) = true := by
    decide +kernel
  split at hrun
  · rename_i c heq
    simp only [Bool.and_eq_true, beq_iff_eq, decide_eq_true_eq,
      List.isEmpty_iff] at hrun
    obtain ⟨⟨hlen, hsynced⟩, hdropped⟩ := hrun
    refine ⟨c, heq, hlen, 34, by omega, ?_⟩
    rw [hdropped, List.append_nil, ← hlen, List.take_length]
  · cases hrun

theorem crash_consistency_submission :
    ∃ w : World, w.Reachable ∧ w.live = none ∧ w.disk.file.length = 34
      ∧ ∃ report state c,
        walReplayOpen ⟨walWriterInit,
            ⟨w.disk, 0, List.replicate 80 (.moved 0)⟩⟩
          = .done (.ok, report, some state) c
        ∧ (state.view = w.published ∨ w.uncertain = some state.view) := by
  obtain ⟨c, hrun, hlen, hs⟩ := submission_stopped
  have hreach := Reachable.step (.start firstStore_opened)
    (.operationStopped rfl rfl hrun hs)
  refine ⟨_, hreach, rfl, hlen, crash_consistency _ hreach _ rfl
    ((Machine.ready_replicate _ _ 80 _).mono ?_)⟩
  show 2 * c.machine.disk.file.length + 12 ≤ 80
  omega

-- =============================================== dispatch order

/-- A scheduler whose pending queue is the undispatched rest of a log. -/
def DispatchesInOrder (entries : List WalEntry) (jobs : Scheduler) : Prop :=
  Ledger.enqueued entries = Ledger.dispatched entries ++ jobs.pending.toList

theorem dispatchesInOrder_of_run (h : Ledger.Run .init entries l)
    {jobs : Scheduler} (hboard : jobs.board = l.board) :
    DispatchesInOrder entries jobs := by
  unfold DispatchesInOrder
  rw [Ledger.fifo h, ← hboard]
  rfl

theorem dispatchesInOrder_recovered (h : Ledger.Run .init entries l) :
    DispatchesInOrder entries (recovered entries).scheduler := by
  obtain ⟨index, htracks⟩ := tracks_recovered h
  exact dispatchesInOrder_of_run h htracks.board

/-- Jobs are dispatched first in, first out over whole histories. In every
log a replay accepts, the ids of ASSIGNED records followed by the recovered
pending queue are the ids of CREATED and REQUEUED records. The same holds
of the durable log and the published queue of every store that is reached
by sessions, operations, crashes and recoveries, unless its open failed
and it publishes nothing. And whatever a crash leaves on the disk, the ids
assigned are a prefix of the ids enqueued. -/
theorem fifo_dispatch :
    (∀ c report state c',
      walReplayOpen c = .done (.ok, report, some state) c' →
      DispatchesInOrder
        (logEntries (c.machine.disk.file.take report.validBytes))
        state.scheduler)
    ∧ (∀ w : World, w.Reachable → ∀ store, w.live = some store →
        DispatchesInOrder
          (logEntries (w.disk.file.take w.disk.synced)) store.jobs
        ∨ store.failure ≠ .none ∧ store.jobs = schedulerInit)
    ∧ ∀ w : World, w.Reachable → ∃ valid,
        Ledger.dispatched (logEntries (w.disk.file.take valid))
          <+: Ledger.enqueued (logEntries (w.disk.file.take valid))
        ∧ Torn (logEntries (w.disk.file.take valid)).length
            (w.disk.file.drop valid) := by
  refine ⟨?_, ?_, ?_⟩
  · intro c report state c' h
    obtain ⟨entries, tail, l, holds, rfl, hstate, -⟩ := walReplayOpen_ok h
    cases hstate
    rw [show (reportOf entries tail).validBytes
        = (logBytes entries).length from rfl, holds.bytes,
      List.take_left, logEntries_logBytes holds.run]
    exact dispatchesInOrder_recovered holds.run
  · intro w h store hlive
    obtain ⟨entries, l, hold⟩ := h.holding
    cases hold.live store hlive with
    | refused latched jobs => exact Or.inr ⟨latched, jobs⟩
    | logged agrees published durable =>
        left
        rw [durable, logEntries_logBytes agrees.run]
        exact dispatchesInOrder_of_run agrees.run agrees.rep.2.1
  · intro w h
    obtain ⟨entries, l, hold⟩ := h.holding
    have hholds : ∃ entries tail l, Holds w.disk.file entries tail l := by
      rcases hold.contents.1 with ⟨tail, holds⟩ | ⟨entry, l', -, holds, -⟩
      · exact ⟨_, _, _, holds⟩
      · exact ⟨_, _, _, holds⟩
    obtain ⟨entries, tail, l, holds⟩ := hholds
    refine ⟨(logBytes entries).length, ?_⟩
    rw [holds.bytes, List.take_left, List.drop_left,
      logEntries_logBytes holds.run, Ledger.fifo holds.run]
    exact ⟨List.prefix_append _ _, holds.torn⟩

theorem fifo_dispatch_lostJob :
    (∃ report state c', walReplayOpen lostJobCtx
        = .done (.ok, report, some state) c'
      ∧ DispatchesInOrder
        (logEntries (lostJobCtx.machine.disk.file.take report.validBytes))
        state.scheduler)
    ∧ ∃ w : World, w.Reachable ∧ w.live = some firstStore
      ∧ DispatchesInOrder (logEntries (w.disk.file.take w.disk.synced))
        firstStore.jobs := by
  obtain ⟨report, state, c', hrun, -⟩ := lostJob_accepted
  have hreach := Reachable.start firstStore_opened
  refine ⟨⟨report, state, c', hrun, fifo_dispatch.1 _ _ _ _ hrun⟩,
    _, hreach, rfl, ?_⟩
  exact (fifo_dispatch.2.1 _ hreach _ rfl).resolve_right
    fun hfailed => hfailed.1 rfl

end Faultline
