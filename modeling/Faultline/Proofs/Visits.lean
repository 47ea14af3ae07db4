/-
What a connection is answered.

A visit is a connection from the moment it was accepted. If its peer sends one
request, the request is handled at most once, in some state of the visit, and
what is queued is the handler's reply (`Visit.exchange`). A reply therefore
tells what was so between the peer's connecting and its reading: a status is
that of the job in the table of one moment (`Handled.status`), an
acknowledged submission has put one job there (`Handled.submitted`).
-/
import Faultline.Proofs.LoopEvents
import Faultline.Proofs.PeerStreams
import Faultline.Proofs.ViewsAgree

namespace Faultline

open Lib Coordinator Scheduler

variable {s₀ s s₁ s' t : Coordinator} {i : Fin maxClients}
  {settings : LoopSettings} {nowMs : Int64} {message request reply : Message}
  {reaction : Reaction} {id : UInt64} {payload : JobSubmitPayload}

-- ================================================ registrations

/-- Only a registration makes a connection a worker. -/
theorem Handles.worker (h : Handles settings i nowMs s message reaction s') :
    (s'.client i).workerId = (s.client i).workerId
      ∨ ∃ w, message = .workerRegister w := by
  cases h with
  | registered role run => exact .inr ⟨_, rfl⟩
  | _ =>
      first
      | exact .inl rfl
      | (rw [client_put_self]
         exact .inl rfl)

/-- A connection that is a worker has sent a registration. -/
def Coordinator.Registrations (s : Coordinator) : Prop :=
  ∀ i, (s.client i).workerId ≠ 0 →
    ∃ w, .workerRegister w ∈ (s.client i).history.delivered

theorem Coordinator.Registrations.event (h : s.Registrations)
    (event : s.Event settings s') : s'.Registrations := by
  intro i hworker
  cases event with
  | quiet drifts clients =>
      cases clients i with
      | same delivered queued worker =>
          rw [delivered]
          exact h i (worker.resolve_right hworker ▸ hworker)
      | fresh vacant delivered queued worker => exact absurd worker hworker
  | @assigns k assignment ctx healthy run fd others drifts delivered
      queued worker =>
      by_cases hik : i = k
      · subst hik
        rw [delivered]
        exact h i (worker.resolve_right hworker ▸ hworker)
      · rw [others i hik] at hworker ⊢
        exact h i hworker
  | @handles k nowMs message reaction t s₁ healthy fd ctx role handles others
      drifts delivered queued worker =>
      by_cases hik : i = k
      · subst hik
        rw [worker.resolve_right hworker] at hworker
        rw [delivered]
        rcases handles.worker with hsame | ⟨w, rfl⟩
        · rw [hsame, role.2] at hworker
          obtain ⟨w, hmem⟩ := h i hworker
          exact ⟨w, List.mem_append_left _ hmem⟩
        · exact ⟨w, List.mem_append_right _ (List.mem_singleton_self _)⟩
      · rw [others i hik] at hworker ⊢
        exact h i hworker

theorem Coordinator.Reachable.registrations (h : s.Reachable settings) :
    s.Registrations := by
  induction h with
  | start opened session =>
      intro i hworker
      rw [client_start] at hworker
      exact absurd rfl hworker
  | step before step ih => exact ih.event step.turn.event

/-- Only workers are given jobs. -/
theorem StoreOp.Acts.worker_ne {worker : UInt32}
    {assignment : JobAssignPayload} {store store' : CoordinatorStore}
    (h : (StoreOp.assign worker nowMs).Acts store
      (.ok, .assignment assignment) store') : worker ≠ 0 := by
  cases h with
  | @job event job _ b' wal rep step time emits =>
      obtain ⟨rfl, rfl, -, -⟩ := emits
      obtain ⟨hvalid, hstate⟩ := step.valid rep.inv
      exact hvalid.owner_ne (by rw [hstate]; rfl)

-- ======================================================= visits

/-- A connection from the moment it was accepted, and as long as it is
open. -/
inductive Coordinator.Visit (settings : LoopSettings) (i : Fin maxClients)
    (s₀ : Coordinator) : Coordinator → Prop where
  | joined (opened : 0 ≤ (s₀.client i).fd)
      (fresh : (s₀.client i).history = {}) : Visit settings i s₀ s₀
  | step {s s' : Coordinator} (before : Visit settings i s₀ s)
      (opened : 0 ≤ (s.client i).fd) (step : s.Step settings s') :
      Visit settings i s₀ s'

theorem Coordinator.Visit.run (h : s₀.Visit settings i s) :
    s₀.Run settings s := by
  induction h with
  | joined opened fresh => exact .refl
  | step before opened step ih => exact ih.tail step

/-- The request was handled between the two states. -/
inductive Coordinator.Handled (settings : LoopSettings) (i : Fin maxClients)
    (request : Message) (reaction : Reaction) (s₀ s : Coordinator) : Prop where
  | intro {before t s₁ after : Coordinator} {nowMs : Int64}
      (earlier : s₀.Run settings before) (step : before.Step settings after)
      (later : after.Run settings s) (healthy : before.store.failure = .none)
      (ctx : t.ctx = before.ctx)
      (handles : Handles settings i nowMs t request reaction s₁)
      (evolves : s₁.store.jobs.Evolves after.store.jobs)

theorem Coordinator.Handled.tail (h : s₀.Handled settings i request reaction s)
    (step : s.Step settings s') :
    s₀.Handled settings i request reaction s' := by
  obtain ⟨earlier, hstep, later, healthy, ctx, handles, evolves⟩ := h
  exact ⟨earlier, hstep, later.tail step, healthy, ctx, handles, evolves⟩

/-- What a peer that sends one request gets: nothing yet, or what the handler
has queued for it. -/
inductive Coordinator.Exchange (settings : LoopSettings) (i : Fin maxClients)
    (request : Message) (s₀ s : Coordinator) : Prop where
  | waiting (delivered : (s.client i).history.delivered = [])
      (queued : (s.client i).history.queued = [])
  | handled {reaction : Reaction}
      (delivered : (s.client i).history.delivered = [request])
      (queued : (s.client i).history.queued = reaction.queued)
      (handled : s₀.Handled settings i request reaction s)

/-- The connection's history does not change in the step. -/
theorem Coordinator.Exchange.still
    (h : s₀.Exchange settings i request s) (step : s.Step settings s')
    (delivered : (s'.client i).history.delivered
      = (s.client i).history.delivered)
    (queued : (s'.client i).history.queued = (s.client i).history.queued) :
    s₀.Exchange settings i request s' := by
  cases h with
  | waiting hdelivered hqueued =>
      exact .waiting (delivered.trans hdelivered) (queued.trans hqueued)
  | handled hdelivered hqueued handled =>
      exact .handled (delivered.trans hdelivered) (queued.trans hqueued)
        (handled.tail step)

theorem Coordinator.Visit.exchange (h : s₀.Visit settings i s)
    (reachable : s₀.Reachable settings)
    (plain : ∀ w, request ≠ .workerRegister w)
    (delivered : (s.client i).history.delivered <+: [request]) :
    s₀.Exchange settings i request s := by
  induction h with
  | joined opened fresh =>
      refine .waiting ?_ ?_ <;> rw [fresh]
  | @step s s' before opened step ih =>
      have hreachable := reachable.run before.run
      cases step.turn.event with
      | quiet drifts clients =>
          cases clients i with
          | fresh vacant => exact absurd opened (Int.not_le.mpr vacant)
          | same hdelivered hqueued worker =>
              rw [hdelivered] at delivered
              exact (ih delivered).still step hdelivered hqueued
      | @assigns k assignment ctx healthy run fd others drifts hdelivered
          hqueued worker =>
          by_cases hik : i = k
          · subst hik
            rw [hdelivered] at delivered
            have hworker : (s.client i).workerId ≠ 0 :=
              (hreachable.live.acts run).2.worker_ne
            obtain ⟨w, hregistered⟩ := hreachable.registrations i hworker
            have hmem := delivered.subset hregistered
            exact absurd (List.mem_singleton.mp hmem).symm (plain w)
          · have hsame := others i hik
            rw [hsame] at delivered
            exact (ih delivered).still step (by rw [hsame]) (by rw [hsame])
      | @handles k nowMs message reaction t s₁ healthy fd ctx role handles
          others drifts hdelivered hqueued worker =>
          by_cases hik : i = k
          · subst hik
            rw [hdelivered] at delivered
            obtain ⟨hnone, rfl⟩ : (s.client i).history.delivered = []
                ∧ message = request := by
              have hone := delivered.eq_of_length_le (by simp)
              exact List.append_eq_singleton_iff.mp hone |>.elim
                (fun h => ⟨h.1, by simpa using h.2⟩) fun h => by simp at h
            have hlive : t.ctx.Live := ctx ▸ hreachable.live
            have hexchange := ih (hnone ▸ List.nil_prefix)
            have hnothing : (s.client i).history.queued = [] := by
              cases hexchange with
              | waiting _ queued => exact queued
              | handled hdelivered _ _ =>
                  rw [hnone] at hdelivered
                  cases hdelivered
            refine .handled (hdelivered.trans (by rw [hnone]; rfl))
              (hqueued.trans (by rw [hnothing]; rfl))
              ⟨before.run, step, .refl, healthy, ctx, handles,
                (drifts.after (handles.after hlive).live).2⟩
          · have hsame := others i hik
            rw [hsame] at delivered
            exact (ih delivered).still step (by rw [hsame]) (by rw [hsame])

-- ===================================================== replies

/-- What a query may be answered in a state. -/
def Coordinator.Tells (settings : LoopSettings) (s : Coordinator) :
    Message → Message → Prop
  | .ping _, reply => reply = .pong 0
  | .jobStatusRequest id, reply => reply = statusReply s.store.jobs id
  | .jobsRequest _, reply => reply = .jobsResponse (jobsListing s.store.jobs)
  | .workersRequest _, reply => ∃ listing nowMs,
      workersListing s.store nowMs settings.timeoutMs = some listing
        ∧ reply = .workersResponse listing
  | .statsRequest _, reply => ∃ stats nowMs,
      statsSnapshot settings.session s.store nowMs settings.timeoutMs
          = some stats
        ∧ reply = .statsResponse stats
  | _, _ => False

/-- The requests that only ask. -/
def Message.asks : Message → Bool
  | .ping _ | .jobStatusRequest _ | .jobsRequest _ | .workersRequest _
  | .statsRequest _ => true
  | _ => false

theorem Handles.tells (h : Handles settings i nowMs s request reaction s')
    (asks : request.asks = true) (queued : reaction.queued = [reply]) :
    s.Tells settings request reply := by
  cases h with
  | ping => exact (List.singleton_inj.mp queued).symm
  | status => exact (List.singleton_inj.mp queued).symm
  | jobs clock => exact (List.singleton_inj.mp queued).symm
  | workers clock listed =>
      exact ⟨_, _, listed, (List.singleton_inj.mp queued).symm⟩
  | stats taken => exact ⟨_, _, taken, (List.singleton_inj.mp queued).symm⟩
  | registered role run => cases asks
  | submitted role run => cases asks
  | _ => cases queued

theorem Coordinator.Tells.same (h : t.Tells settings request reply)
    (ctx : t.ctx = s.ctx) : s.Tells settings request reply := by
  have hstore : t.store = s.store := congrArg StoreCtx.store ctx
  unfold Coordinator.Tells at h ⊢
  rwa [hstore] at h

/-- A query is answered from the state of one moment. -/
theorem Coordinator.Handled.tells
    (h : s₀.Handled settings i request reaction s)
    (asks : request.asks = true) (queued : reaction.queued = [reply]) :
    ∃ t, s₀.Run settings t ∧ t.Run settings s ∧ t.store.failure = .none
      ∧ t.Tells settings request reply := by
  obtain ⟨earlier, step, later, healthy, ctx, handles, -⟩ := h
  exact ⟨_, earlier, .head step later, healthy,
    (handles.tells asks queued).same ctx⟩

-- ================================================== submissions

/-- The job a submission asks for, when it is new. -/
structure Job.Submits (job : Job) (payload : JobSubmitPayload) : Prop where
  task : job.taskType.code = payload.taskType
  arguments : job.arguments = payload.arguments
  retries : job.maxRetries = payload.maxRetries
  queued : job.state = .queued
  attempt : job.attempt = 0

theorem jobInit_submits {code : UInt16} {args : List UInt8}
    {retries : UInt32} {job : Job}
    (h : jobInit id code args retries nowMs = .ok job) :
    job.id = id ∧ job.Submits ⟨code, retries, args⟩ := by
  obtain ⟨-, -, -, task, htask, rfl⟩ := jobInit_ok_iff.mp h
  exact ⟨rfl, TaskType.code_of_ofCode htask, rfl, rfl, rfl, rfl⟩

theorem Board.Step.fresh {board b' : Board} {job : Job}
    (h : board.Step .created job b') : ∀ old ∈ board.jobs, old.id < job.id := by
  cases h with
  | created fresh room init => exact fresh

/-- A submission that is acknowledged has put its job into the table, behind
all that were there. -/
theorem submit_done {ctx ctx' : StoreCtx} (rep : ctx.store.jobs.Rep)
    (run : (StoreOp.submit payload nowMs).run ctx
      = .done (.ok, .jobId id) ctx') :
    ∃ job ∈ ctx'.store.jobs.jobs, job.id = id ∧ job.Submits payload
      ∧ ∀ old ∈ ctx.store.jobs.jobs, old.id < id := by
  rw [StoreOp.run_eq] at run
  unfold StoreOp.plan at run
  dsimp only at run
  split at run
  · cases run
  split at run
  · cases run
  rename_i time htime
  rcases schedulerSubmit_cases rep.fits payload time with
    ⟨result, hne, heq⟩ | ⟨job, hinit, hroom, heq⟩
  · rw [heq] at run
    cases result <;> cases run
  · obtain ⟨b', hstep⟩ := submit_step rep hinit hroom
    rw [heq] at run
    dsimp only at run
    rw [(commitPlan_step rep hstep).2] at run
    obtain ⟨result, ctx₁, happend, hrest⟩ := Prog.bind_done run
    have hpublished : job.id = id
        ∧ ctx'.store.jobs = ctx.store.jobs.commit .created job := by
      cases result <;> cases hrest
      exact ⟨rfl, rfl⟩
    obtain ⟨rfl, hjobs⟩ := hpublished
    have hboard : (ctx.store.jobs.commit .created job).jobs = b'.jobs :=
      congrArg Board.jobs (commit_refines rep hstep).1
    refine ⟨job, ?_, rfl, (jobInit_submits hinit).2, fun old hold => ?_⟩
    · rw [hjobs, hboard]
      exact hstep.mem_self
    · exact hstep.fresh old hold

/-- A submission is acknowledged with the id of a new job, which is the one
that was asked for. -/
theorem Coordinator.Handled.submitted
    (h : s₀.Handled settings i (.jobSubmit payload) reaction s)
    (reachable : s₀.Reachable settings)
    (queued : reaction.queued = [reply]) :
    ∃ (t t' : Coordinator) (job : Job), s₀.Run settings t
      ∧ t.Step settings t' ∧ t'.Run settings s
      ∧ reply = .jobSubmitAck job.id ∧ job.Submits payload
      ∧ (∀ old ∈ t.store.jobs.jobs, old.id < job.id)
      ∧ ∃ later ∈ t'.store.jobs.jobs, job.Evolves later := by
  obtain ⟨earlier, step, later, healthy, ctx, handles, evolves⟩ := h
  cases handles with
  | submitted role run =>
      rw [ctx] at run
      have hrep := (reachable.run earlier).live.rep healthy
      obtain ⟨job, hjob, rfl, hsubmits, hfresh⟩ := submit_done hrep run
      exact ⟨_, _, job, earlier, step, later,
        (List.singleton_inj.mp queued).symm, hsubmits, hfresh,
        evolves job hjob⟩
  | reported report run => cases report
  | _ => cases queued

end Faultline
