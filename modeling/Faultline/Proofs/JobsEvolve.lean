/-
Jobs only go forward.

A job goes through steps of its own life (`Job.Evolves`): what was fixed at
its creation stays, its rank grows, and at its end it stands still. No job
leaves the table, so a table evolves job by job (`Scheduler.Evolves`), and
whatever the event loop does makes its table evolve (`Coordinator.Run.evolves`).
A job is done only by a report of its worker (`StoreOp.Completes`).
-/
import Faultline.Proofs.LoopActs

namespace Faultline

open Lib Coordinator Scheduler

variable {old new job : Job} {a b c : Scheduler} {s s' : Coordinator}
  {settings : LoopSettings} {id : UInt64}

-- ====================================================== one job

/-- The job, later. -/
abbrev Job.Evolves : Job → Job → Prop :=
  Relation.ReflTransGen fun old new => ∃ event, JobStep event old new

/-- The job has ended. -/
def Job.terminal (job : Job) : Bool := job.state == .done || job.state == .failed

theorem Job.terminal_iff :
    job.terminal = true ↔ job.state = .done ∨ job.state = .failed := by
  simp [Job.terminal]

theorem SameJob.refl (job : Job) : SameJob job job :=
  ⟨rfl, rfl, rfl, rfl, rfl⟩

theorem Job.Evolves.same (h : old.Evolves new) : SameJob old new := by
  induction h with
  | refl => exact .refl old
  | tail _ last ih =>
      obtain ⟨event, hstep⟩ := last
      exact ih.trans hstep.same

/-- A job that has ended stays as it is. -/
theorem Job.Evolves.ended (h : old.Evolves new)
    (terminal : old.terminal = true) : new = old := by
  induction h with
  | refl => rfl
  | tail _ last ih =>
      obtain ⟨event, hstep⟩ := last
      rw [ih] at hstep
      exact absurd hstep (JobStep.not_terminal (Job.terminal_iff.mp terminal))

-- ==================================================== one table

/-- Every job of one table is in the other, later. -/
def Scheduler.Evolves (old new : Scheduler) : Prop :=
  ∀ job ∈ old.jobs, ∃ later ∈ new.jobs, job.Evolves later

theorem Scheduler.Evolves.refl (a : Scheduler) : a.Evolves a :=
  fun job hjob => ⟨job, hjob, .refl⟩

theorem Scheduler.Evolves.trans (h₁ : a.Evolves b) (h₂ : b.Evolves c) :
    a.Evolves c := by
  intro job hjob
  obtain ⟨middle, hmiddle, hfirst⟩ := h₁ job hjob
  obtain ⟨later, hlater, hsecond⟩ := h₂ middle hmiddle
  exact ⟨later, hlater, hfirst.trans hsecond⟩

theorem Scheduler.Rep.evolves {event : JobEvent} {b' : Board} (h : a.Rep)
    (hstep : a.board.Step event job b') : a.Evolves (a.commit event job) := by
  intro k hk
  have hjobs : (a.commit event job).jobs = b'.jobs :=
    congrArg Board.jobs (commit_refines h hstep).1
  rw [hjobs]
  rcases hstep.keeps hk with hkept | ⟨hjob, hin⟩
  · exact ⟨k, hkept, .refl⟩
  · exact ⟨job, hin, .single ⟨event, hjob⟩⟩

theorem StoreOp.Acts.evolves {op : StoreOp} {store store' : CoordinatorStore}
    {out : StoreResult × StoreOutput} (h : op.Acts store out store') :
    store.jobs.Evolves store'.jobs := by
  cases h with
  | job rep step time emits => exact rep.evolves step
  | _ => exact .refl _

-- ====================================================== results

/-- The operation reports a result of the worker's active job. -/
def StoreOp.Completes (op : StoreOp) (store : CoordinatorStore) (job : Job) :
    Prop :=
  ∃ worker payload time old,
    op = .report worker (.jobCompleted payload) time ∧ worker ≠ 0
      ∧ old ∈ store.jobs.jobs ∧ payload.identity.jobId = old.id
      ∧ SameJob old job ∧ job.result = payload.result

/-- Nothing else makes a job that is done. -/
theorem StoreOp.Emits.completes {op : StoreOp} {store : CoordinatorStore}
    {event : JobEvent} {output : StoreOutput} {b' : Board}
    (h : op.Emits store event job output) (rep : store.jobs.Rep)
    (step : store.jobs.board.Step event job b') (done : job.state = .done) :
    op.Completes store job := by
  have hleaves := (step.valid rep.inv).2
  cases op with
  | submit payload nowMs =>
      obtain ⟨rfl, -⟩ := h
      rw [hleaves.1] at done
      cases done
  | assign workerId nowMs =>
      obtain ⟨rfl, -⟩ := h
      rw [show job.state = .assigned from hleaves] at done
      cases done
  | workerLost workerId nowMs =>
      obtain ⟨-, -, old, -, hfail⟩ := h
      obtain ⟨-, -, -, -, -, -, -, -, hfailed⟩ := jobFail_ok_iff.mp hfail
      rw [hfailed] at done
      unfold failedAttempt at done
      split at done <;> cases done
  | report workerId message nowMs =>
      obtain ⟨-, -, old, hactive, hidentity, happly⟩ := h
      obtain ⟨hworker, hmem, -⟩ := schedulerActive_some hactive
      have hsame := (applyReport_step happly).same
      cases message with
      | jobCompleted payload =>
          obtain ⟨-, -, -, -, -, -, -, -, hdone⟩ :=
            jobComplete_ok_iff.mp happly
          refine ⟨_, payload, _, old, rfl, hworker, hmem, ?_, hsame, ?_⟩
          · exact congrArg JobIdentity.jobId (Option.some.inj hidentity)
          · rw [hdone]
      | jobStarted identity =>
          obtain ⟨-, -, -, -, -, -, -, hstarted⟩ := jobStart_ok_iff.mp happly
          rw [hstarted] at done
          cases done
      | jobFailed payload =>
          simp only [applyReport] at happly
          split at happly
          · cases happly
          · obtain ⟨-, -, -, -, -, -, -, -, hfailed⟩ :=
              jobFail_ok_iff.mp happly
            rw [hfailed] at done
            unfold failedAttempt at done
            split at done <;> cases done
      | _ => cases happly
  | _ => exact h.elim

-- ===================================================== the loop

theorem Coordinator.Act.evolves (h : s.Act s') (live : s.ctx.Live) :
    s.store.jobs.Evolves s'.store.jobs := by
  cases h with
  | store timed run => exact (live.acts run).2.evolves
  | _ => exact .refl _

theorem Coordinator.Acted.evolves (h : s.Acted s') (live : s.ctx.Live) :
    s.store.jobs.Evolves s'.store.jobs := by
  have hboth : s'.ctx.Live ∧ s.store.jobs.Evolves s'.store.jobs := by
    induction h with
    | refl => exact ⟨live, .refl _⟩
    | tail _ act ih => exact ⟨act.live ih.1, ih.2.trans (act.evolves ih.1)⟩
  exact hboth.2

theorem Coordinator.Step.evolves (h : s.Step settings s')
    (live : s.ctx.Live) : s.store.jobs.Evolves s'.store.jobs :=
  Acted.evolves h.turn.acted live

theorem Coordinator.Run.evolves (h : s.Run settings s')
    (reachable : s.Reachable settings) :
    s.store.jobs.Evolves s'.store.jobs := by
  induction h with
  | refl => exact .refl _
  | tail run step ih => exact ih.trans (step.evolves (reachable.run run).live)

end Faultline
