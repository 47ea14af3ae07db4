/-
What workers report are answers.

In a network whose registered connections are those of its workers, and whose
workers' tasks are run by the executor (`Network.Computes`), what a
connection delivers about a job is the answer to its task. Two things hold
together: what the workers have sent are answers to what was queued for them
(`Party.Truthful`), and what was queued is what the jobs ask for
(`Coordinator.Assigned`).
-/
import Faultline.Proofs.Agreement
import Faultline.Proofs.LoopEvents
import Faultline.Proofs.ViewsAgree
import Faultline.Proofs.WorkerResults

namespace Faultline

open Lib Coordinator Scheduler

variable {s s₁ s' t : Coordinator} {i : Fin maxClients} {c c' : Client}
  {settings : LoopSettings} {nowMs : Int64} {message : Message}
  {reaction : Reaction} {job later : Job} {assignment : JobAssignPayload}
  {p : Party} {n n' : Network}

-- ================================================== assignments

def Message.assignment? : Message → Option JobAssignPayload
  | .jobAssign assignment => some assignment
  | _ => none

/-- The assignments queued on a connection. -/
def Client.assignments (c : Client) : List JobAssignPayload :=
  c.history.queued.filterMap Message.assignment?

/-- The job asks for what the assignment says. -/
structure Job.Asks (job : Job) (assignment : JobAssignPayload) : Prop where
  id : job.id = assignment.identity.jobId
  task : job.taskType.code = assignment.taskType
  arguments : job.arguments = assignment.arguments

theorem Job.Asks.evolves (h : job.Asks assignment)
    (evolves : job.Evolves later) : later.Asks assignment := by
  have hsame := evolves.same
  exact ⟨hsame.id_eq.trans h.id, hsame.task_eq ▸ h.task,
    hsame.arguments_eq.trans h.arguments⟩

/-- What was queued for workers is what jobs of the table ask for. -/
def Coordinator.Assigned (s : Coordinator) : Prop :=
  ∀ i, ∀ assignment ∈ (s.client i).assignments,
    ∃ job ∈ s.store.jobs.jobs, job.Asks assignment

/-- A job is given out with its own task. -/
theorem StoreOp.Acts.asks {store store' : CoordinatorStore}
    {worker : UInt32}
    (h : (StoreOp.assign worker nowMs).Acts store
      (.ok, .assignment assignment) store') :
    ∃ job ∈ store'.jobs.jobs, job.Asks assignment := by
  cases h with
  | @job event job _ b' wal rep step time emits =>
      obtain ⟨-, -, -, houtput⟩ := emits
      cases houtput
      refine ⟨job, ?_, rfl, rfl, rfl⟩
      show job ∈ (store.jobs.commit event job).jobs
      rw [show (store.jobs.commit event job).jobs = b'.jobs from
        congrArg Board.jobs (commit_refines rep step).1]
      exact step.mem_self

/-- No reply is an assignment. -/
theorem Handles.assignments
    (h : Handles settings i nowMs s message reaction s') (live : s.ctx.Live) :
    reaction.queued.filterMap Message.assignment? = [] := by
  have hkind := (h.reaction_cases live).2.2
  cases reaction with
  | reply reply =>
      have hnone : reply.assignment? = none := by
        cases reply with
        | jobAssign assignment => exact absurd rfl (hkind _ rfl assignment)
        | _ => rfl
      simp [Reaction.queued, hnone]
  | _ => rfl

theorem Coordinator.Assigned.event (h : s.Assigned)
    (event : s.Event settings s') (live : s.ctx.Live)
    (evolves : s.store.jobs.Evolves s'.store.jobs) : s'.Assigned := by
  -- what was queued before
  have hbefore (i : Fin maxClients) (assignment : JobAssignPayload)
      (hmem : assignment ∈ (s.client i).assignments) :
      ∃ job ∈ s'.store.jobs.jobs, job.Asks assignment := by
    obtain ⟨job, hjob, hasks⟩ := h i assignment hmem
    obtain ⟨later, hlater, hevolves⟩ := evolves job hjob
    exact ⟨later, hlater, hasks.evolves hevolves⟩
  intro i assignment hmem
  obtain ⟨m, hm, hassignment⟩ := List.mem_filterMap.mp hmem
  cases event.enqueued hm with
  | before queued =>
      exact hbefore i assignment
        (List.mem_filterMap.mpr ⟨m, queued, hassignment⟩)
  | assigned run drifts =>
      cases hassignment
      obtain ⟨hlive, hacts⟩ := live.acts run
      obtain ⟨job, hjob, hasks⟩ := hacts.asks
      obtain ⟨final, hfinal, hevolves⟩ := (drifts.after hlive).2 job hjob
      exact ⟨final, hfinal, hasks.evolves hevolves⟩
  | reply ctx handles drifts queued =>
      have hreply := List.mem_filterMap.mpr ⟨m, queued, hassignment⟩
      rw [handles.assignments (ctx ▸ live)] at hreply
      cases hreply

theorem Coordinator.Reachable.assigned (h : s.Reachable settings) :
    s.Assigned := by
  induction h with
  | start opened session =>
      intro i assignment hmem
      rw [client_start] at hmem
      cases hmem
  | step before step ih =>
      exact ih.event step.turn.event before.live (step.evolves before.live)

-- ============================================= what clients see

/-- What connections were told about jobs that are done is so. -/
def Coordinator.Shown (s : Coordinator) : Prop :=
  ∀ i payload, .jobStatusResponse payload ∈ (s.client i).history.queued →
    payload.state = JobState.done.code →
    ∃ job ∈ s.store.jobs.jobs, job.state = .done ∧ job.id = payload.jobId
      ∧ job.result = payload.result

/-- A status response shows a job of the table. -/
theorem Handles.shown
    (h : Handles settings i nowMs s message reaction s')
    {payload : JobStatusPayload}
    (hmem : .jobStatusResponse payload ∈ reaction.queued) :
    ∃ job ∈ s'.store.jobs.jobs, payload = jobStatusReply job := by
  cases h with
  | @status id =>
      have hreply := List.mem_singleton.mp hmem
      unfold statusReply at hreply
      cases hfind : schedulerFind s.store.jobs id with
      | none =>
          rw [hfind] at hreply
          cases hreply
      | some job =>
          rw [hfind] at hreply
          injection hreply with hpayload
          exact ⟨job, (schedulerFind_some hfind).1, hpayload⟩
  | _ =>
      first
      | cases List.mem_singleton.mp hmem
      | cases hmem

theorem JobState.code_done {state : JobState}
    (h : state.code = JobState.done.code) : state = .done := by
  cases state <;> first | rfl | exact absurd h (by decide)

theorem Coordinator.Shown.event (h : s.Shown) (event : s.Event settings s')
    (live : s.ctx.Live) (evolves : s.store.jobs.Evolves s'.store.jobs) :
    s'.Shown := by
  have hkept {table : Scheduler} (hlater : table.Evolves s'.store.jobs)
      {job : Job} (hjob : job ∈ table.jobs) (done : job.state = .done) :
      job ∈ s'.store.jobs.jobs := by
    obtain ⟨later, hlater, hevolves⟩ := hlater job hjob
    rwa [hevolves.ended (Job.terminal_iff.mpr (.inl done))] at hlater
  have hbefore (i : Fin maxClients) (payload : JobStatusPayload)
      (hmem : .jobStatusResponse payload ∈ (s.client i).history.queued)
      (state : payload.state = JobState.done.code) :
      ∃ job ∈ s'.store.jobs.jobs, job.state = .done
        ∧ job.id = payload.jobId ∧ job.result = payload.result := by
    obtain ⟨job, hjob, done, hrest⟩ := h i payload hmem state
    exact ⟨job, hkept evolves hjob done, done, hrest⟩
  intro i payload hmem state
  cases event.enqueued hmem with
  | before queued => exact hbefore i payload queued state
  | reply ctx handles drifts queued =>
      obtain ⟨job, hjob, rfl⟩ := handles.shown queued
      have hdone := JobState.code_done state
      have hlive := (handles.after (ctx ▸ live)).live
      exact ⟨job, hkept (drifts.after hlive).2 hjob hdone, hdone, rfl, rfl⟩

theorem Coordinator.Reachable.shown (h : s.Reachable settings) :
    s.Shown := by
  induction h with
  | start opened session =>
      intro i payload hmem
      rw [client_start] at hmem
      cases hmem
  | step before step ih =>
      exact ih.event step.turn.event before.live (step.evolves before.live)

-- ====================================================== parties

/-- What a worker has sent, whole or in part, are answers to what was queued
for it. -/
structure Party.Truthful (s : Coordinator) (p : Party) : Prop where
  honest : p.status = none → p.process.Honest
  spoken : ∃ messages : List Message,
    (∀ m ∈ messages, m.Encodable ∧ m.Computed (p.client s).assignments)
    ∧ p.process.history.handed <+: encodings messages

/-- Every connection on which a worker has registered is that of a worker of
the network. -/
def Network.Staffed (n : Network) : Prop :=
  ∀ i, (n.coordinator.client i).workerId ≠ 0 →
    ∃ p ∈ n.parties, p.link = .active i

/-- A step of a network in which only its workers register, and the executor
runs their tasks. Other peers may send what they like. -/
inductive Network.Works (settings : LoopSettings) (n : Network) :
    Network → Prop where
  | coordinator {s' : Coordinator} {joining : Option Party}
      (step : n.coordinator.Step settings s')
      (fifo : ∀ p ∈ n.parties,
        (p.client s').history.arrived <+: p.process.history.handed)
      (joins : ∀ p ∈ joining, p.Joins n.coordinator s')
      (staffed : Network.Staffed
        ⟨s', n.parties.map (Party.after s') ++ joining.toList⟩) :
      Works settings n ⟨s', n.parties.map (Party.after s') ++ joining.toList⟩
  | worker {left right : List Party} {p : Party}
      {status : Option ExitStatus} {w' : WorkerProcess}
      (parties : n.parties = left ++ p :: right)
      (running : p.status = none) (step : p.process.Executes status w')
      (fifo : w'.history.received
        <+: (p.client n.coordinator).history.handed) :
      Works settings n ⟨n.coordinator,
        left ++ { p with process := w', status } :: right⟩

theorem Network.Works.step (h : n.Works settings n') : n.Step settings n' := by
  cases h with
  | coordinator step fifo joins staffed => exact .coordinator step fifo joins
  | worker parties running step fifo =>
      exact .worker parties running step.step fifo

/-- Runs of such networks. -/
inductive Network.Computes (settings : LoopSettings) : Network → Prop where
  | start {s : Coordinator} (reachable : s.Reachable settings)
      (nobody : ∀ i, (s.client i).workerId = 0) : Computes settings ⟨s, []⟩
  | step {n n' : Network} (before : Computes settings n)
      (works : n.Works settings n') : Computes settings n'

theorem Network.Computes.reachable (h : n.Computes settings) :
    n.Reachable settings := by
  induction h with
  | start reachable nobody => exact .start reachable
  | step before works ih => exact ih.step works.step

theorem Network.Computes.staffed (h : n.Computes settings) : n.Staffed := by
  induction h with
  | start reachable nobody =>
      exact fun i hworker => absurd (nobody i) hworker
  | step before works ih =>
      cases works with
      | coordinator step fifo joins staffed => exact staffed
      | @worker left right p status w' parties running step fifo =>
          intro i hworker
          obtain ⟨q, hq, hlink⟩ := ih i hworker
          rw [parties] at hq
          rcases List.mem_append.mp hq with hq | hq
          · exact ⟨q, List.mem_append_left _ hq, hlink⟩
          · rcases List.mem_cons.mp hq with rfl | hq
            · exact ⟨_, List.mem_append_right _ List.mem_cons_self, hlink⟩
            · exact ⟨q, List.mem_append_right _ (List.mem_cons_of_mem _ hq),
                hlink⟩

/-- What the worker has accepted was queued. -/
theorem Party.Joined.accepted (h : p.Joined s) (hw : p.process.Conforming) :
    p.process.history.accepted ⊆ (p.client s).assignments := by
  by_cases working : p.process.phase = .working
  · obtain ⟨whole, hwhole, hall, hhanded⟩ := h.queued
    have hthere := h.received.trans hhanded
    rw [← List.append_nil p.process.history.received] at hthere
    obtain ⟨more, rfl, -⟩ := hw.greeted.told (hw.input.reader working) working
      hall hthere
    intro assignment hmem
    refine List.mem_filterMap.mpr ⟨.jobAssign assignment,
      hwhole.subset (List.mem_cons_of_mem _ (List.mem_append_left _
        (List.mem_map_of_mem hmem))), rfl⟩
  · rw [(hw.input.silent working).accepted]
    exact List.nil_subset _

/-- What was queued on an open connection stays queued. -/
theorem Coordinator.Event.queued (h : s.Event settings s')
    (fd : 0 ≤ (s.client i).fd) :
    (s.client i).history.queued <+: (s'.client i).history.queued := by
  cases h with
  | quiet drifts clients =>
      cases clients i with
      | same delivered queued => rw [queued]
      | fresh vacant => omega
  | @assigns k _ _ healthy run opened others drifts delivered queued =>
      by_cases hik : i = k
      · subst hik
        rw [queued]
        exact List.prefix_append _ _
      · rw [others i hik]
  | @handles k _ _ _ _ _ healthy opened ctx role handles others drifts
      delivered queued =>
      by_cases hik : i = k
      · subst hik
        rw [queued]
        exact List.prefix_append _ _
      · rw [others i hik]

theorem Party.client_after : (p.after s').client s' = p.client s' := by
  obtain ⟨process, status, link⟩ := p
  cases link with
  | closed client => rfl
  | active i =>
      show (if (s'.client i).fd < 0 then Link.closed (s'.client i)
        else .active i).client s' = s'.client i
      split <;> rfl

/-- The coordinator moves. -/
theorem Party.Truthful.after (h : p.Truthful s)
    (event : s.Event settings s') (joined : p.Good s) :
    (p.after s').Truthful s' := by
  refine ⟨h.honest, ?_⟩
  obtain ⟨messages, hall, hhanded⟩ := h.spoken
  refine ⟨messages, fun m hm => ⟨(hall m hm).1, (hall m hm).2.mono ?_⟩,
    hhanded⟩
  rw [Party.client_after]
  obtain ⟨w, -, -, hjoined, -⟩ := joined.joined
  have hagreed := hjoined.agreed
  obtain ⟨process, status, link⟩ := p
  cases link with
  | closed client => exact List.Subset.refl _
  | active i =>
      have hopen : 0 ≤ (s.client i).fd := hagreed.1
      exact ((event.queued hopen).filterMap _).subset

/-- A worker moves. -/
theorem Party.Truthful.moves (h : p.Truthful s) (good : p.Good s)
    (running : p.status = none) {status : Option ExitStatus}
    {w' : WorkerProcess} (step : p.process.Executes status w') :
    Party.Truthful s { p with process := w', status } := by
  obtain ⟨hw, hjoined⟩ := good.running running
  have honest := h.honest running
  refine ⟨fun hnone => ?_, ?_⟩
  · have hnone : status = none := hnone
    subst hnone
    exact step.honest honest hw
  · obtain ⟨messages, hall, hhanded⟩ := step.spoken honest hw.sending
    exact ⟨messages, fun m hm => ⟨(hall m hm).1,
      (hall m hm).2.mono (hjoined.accepted hw)⟩, hhanded⟩

/-- Everything a worker's connection has delivered is an answer. -/
theorem Party.Truthful.delivered (h : p.Truthful s)
    (link : p.link = .active i) (input : c.Input True)
    (arrived : c.history.arrived <+: p.process.history.handed)
    (hmem : message ∈ c.history.delivered) :
    message.Computed (s.client i).assignments := by
  obtain ⟨messages, hall, hhanded⟩ := h.spoken
  have hsent := input.delivered_sent (fun m hm => (hall m hm).1)
    (arrived.trans hhanded)
  rw [Party.client_active link] at hall
  exact (hall message (hsent.subset hmem)).2

-- ========================================================= runs

theorem Network.Computes.truthful (h : n.Computes settings)
    (healthy : n.coordinator.store.failure = .none) :
    ∀ p ∈ n.parties, p.Truthful n.coordinator := by
  induction h with
  | start reachable nobody =>
      exact fun p hp => absurd hp List.not_mem_nil
  | @step n n' before works ih =>
      cases works with
      | @coordinator s' joining step fifo joins staffed =>
          have hlive := before.reachable.coordinator.live
          have hbefore := (step.turn.after hlive).healthy healthy
          intro p hp
          rcases List.mem_append.mp hp with hp | hp
          · obtain ⟨q, hq, rfl⟩ := List.mem_map.mp hp
            exact (ih hbefore q hq).after step.turn.event
              (before.reachable.good hbefore q hq)
          · obtain ⟨i, intervalMs, clock, -, -, rfl⟩ :=
              joins p (Option.mem_toList.mp hp)
            exact ⟨fun _ => WorkerProcess.honest_start intervalMs clock, [],
              fun m hm => absurd hm List.not_mem_nil, List.nil_prefix⟩
      | @worker left right p status w' parties running step fifo =>
          have htruthful := ih healthy
          have hgood := before.reachable.good healthy
          rw [parties] at htruthful hgood
          intro q hq
          rcases List.mem_append.mp hq with hq | hq
          · exact htruthful q (List.mem_append_left _ hq)
          · rcases List.mem_cons.mp hq with rfl | hq
            · exact (htruthful p (by simp)).moves (hgood p (by simp)) running
                step
            · exact htruthful q (List.mem_append_right _
                (List.mem_cons_of_mem _ hq))

/-- A new result is the answer to the task of its job. -/
theorem Network.Computes.answer (h : n.Computes settings)
    (healthy : n.coordinator.store.failure = .none) {old : Job}
    {payload : JobCompletedPayload} {k : Fin maxClients} (input : c.Input True)
    (fifo : ∀ p ∈ n.parties, p.link = .active k →
      c.history.arrived <+: p.process.history.handed)
    (worker : (n.coordinator.client k).workerId ≠ 0)
    (hmem : .jobCompleted payload ∈ c.history.delivered)
    (hold : old ∈ n.coordinator.store.jobs.jobs)
    (hid : payload.identity.jobId = old.id) :
    taskAnswer old.taskType.code old.arguments = some payload.result := by
  obtain ⟨p, hp, hlink⟩ := h.staffed k worker
  obtain ⟨assignment, hassigned, hidentity, hanswer⟩ :=
    (h.truthful healthy p hp).delivered hlink input (fifo p hp hlink) hmem
      payload rfl
  have hreachable := h.reachable.coordinator
  obtain ⟨asked, hasked, hasks⟩ := hreachable.assigned k assignment hassigned
  have hsame : asked = old := by
    refine (hreachable.live.rep healthy).job_unique hasked hold ?_
    rw [hasks.id, hidentity, hid]
  rw [← hsame, hasks.task, hasks.arguments]
  exact hanswer

/-- What a connection has delivered in the coordinator's step. -/
theorem Network.Computes.delivered (h : n.Computes settings)
    (healthy : n.coordinator.store.failure = .none)
    (step : n.coordinator.Step settings s')
    (fifo : ∀ p ∈ n.parties,
      (p.client s').history.arrived <+: p.process.history.handed)
    {old : Job} {payload : JobCompletedPayload} {k : Fin maxClients}
    (worker : (n.coordinator.client k).workerId ≠ 0)
    (hmem : .jobCompleted payload ∈ (s'.client k).history.delivered)
    (hold : old ∈ n.coordinator.store.jobs.jobs)
    (hid : payload.identity.jobId = old.id) :
    taskAnswer old.taskType.code old.arguments = some payload.result := by
  have hinput := ((h.reachable.coordinator.step step).framed k).1
  refine h.answer healthy hinput (fun p hp hlink => ?_) worker hmem hold hid
  have harrived := fifo p hp
  rwa [Party.client_active hlink] at harrived

-- ====================================================== example

/-- The first connection and the worker's are open, and no other has
registered. -/
def Coordinator.keeps (s : Coordinator) (w : WorkerProcess) : Bool :=
  0 ≤ (s.client onlySlot).fd && 0 ≤ (s.client workerSlot).fd
    && (s.client workerSlot).history.arrived.isPrefixOf w.history.handed
    && (List.finRange maxClients).all fun i =>
      (s.client i).workerId == 0 || i == workerSlot

theorem Coordinator.keeps_iff {w : WorkerProcess} (h : s.keeps w) :
    0 ≤ (s.client onlySlot).fd ∧ 0 ≤ (s.client workerSlot).fd
      ∧ (s.client workerSlot).history.arrived <+: w.history.handed
      ∧ Network.Staffed ⟨s, [⟨w, none, .active workerSlot⟩]⟩ := by
  unfold Coordinator.keeps at h
  simp only [Bool.and_eq_true, decide_eq_true_eq, List.all_eq_true,
    List.mem_finRange, forall_const, Bool.or_eq_true, beq_iff_eq,
    List.isPrefixOf_iff_prefix] at h
  refine ⟨h.1.1.1, h.1.1.2, h.1.2, fun i hworker => ?_⟩
  obtain rfl := (h.2 i).resolve_left hworker
  exact ⟨_, List.mem_singleton_self _, rfl⟩

theorem Network.Works.coordinate {w : WorkerProcess}
    (step : s.Step settings s') (keeps : s'.keeps w) :
    Network.Works settings ⟨s, [⟨w, none, .active workerSlot⟩]⟩
      ⟨s', [⟨w, none, .active workerSlot⟩]⟩ := by
  obtain ⟨-, opened, fifo, hstaffed⟩ := keeps_iff keeps
  have hafter : [⟨w, none, .active workerSlot⟩].map (Party.after s')
      ++ (none : Option Party).toList = [⟨w, none, .active workerSlot⟩] := by
    rw [List.map_singleton, Party.after, Link.after,
      if_neg (Int.not_lt.mpr opened)]
    rfl
  have hparty (p : Party) (hp : p ∈ [⟨w, none, .active workerSlot⟩]) :
      (p.client s').history.arrived <+: p.process.history.handed := by
    rw [List.mem_singleton.mp hp]
    exact fifo
  have hnext := @Network.Works.coordinator settings
    ⟨s, [⟨w, none, .active workerSlot⟩]⟩ s' none step hparty
    (fun p hp => absurd hp (Option.not_mem_none p)) (by
      rw [hafter]
      exact hstaffed)
  rwa [hafter] at hnext

/-- Room for bytes of a connection that is being written to. -/
def writing (count : Nat) : Readiness :=
  { invalid := false, readable := false, writable := true
    recv := .again, send := .taken count }

/-- What a pass of the worker waits for, after its task if that has ended. -/
def workerPass (ending : Option TaskEnd) (wait : WaitResult)
    (recv : RecvReply) : IterationInput :=
  { ending, wait, answer := .sent, recv
    startup :=
      { stopping := false, answer := .sent, start := .started
        failedAnswer := .sent } }

/-- A step of a coordinator with one worker. -/
inductive Scene where
  | serve (slot : Fin maxClients) (ready : Readiness)
  | offer
  /-- What the disk will answer next. -/
  | script (replies : List Reply)
  | register
  | acknowledge (chunk : List UInt8)
  | receive (chunk : List UInt8)
  /-- The task ends, on a calm day. -/
  | finish

/-- The worker's pass. -/
def Scene.pass (w : WorkerProcess) : Scene → Option WorkerPass
  | .serve _ _ => none
  | .offer => none
  | .script _ => none
  | .register => some (.register .sent)
  | .acknowledge chunk => some (.acknowledge (.data chunk))
  | .receive chunk => some (.iterate (workerPass none .input (.data chunk)))
  | .finish =>
      (executeTask 0 calmDay w.execution.assignment []).map fun outcome =>
        .iterate (workerPass
          (some { joinFails := false, stopping := false, outcome, answer := .sent })
          .deadline .again)

/-- The step, if it can be taken. -/
def Scene.play (s : Coordinator) (w : WorkerProcess) (scene : Scene) :
    Option (Coordinator × WorkerProcess) :=
  match scene with
  | .serve slot ready =>
      let served := serveClient quietSettings slot ready s.now s.ticked
      if s.store.failure = .none ∧ 0 ≤ s.now ∧ ready.Possible (s.client slot)
          ∧ served.returned = some () ∧ served.state.keeps w then
        some (served.state, w)
      else none
  | .offer =>
      let offered := scheduleFrom quietSettings.timeoutMs [workerSlot] s
      if offered.returned = some .success ∧ offered.state.keeps w then
        some (offered.state, w)
      else none
  | .script replies =>
      if s.keeps w then
        some (s.withCtx
          ⟨s.store, { s.ctx.machine with script := replies }⟩, w)
      else none
  | scene =>
      match (scene.pass w).bind w.pass with
      | some (.done none w') =>
          if w'.history.received.isPrefixOf
              (s.client workerSlot).history.handed then
            some (s, w')
          else none
      | _ => none

theorem Scene.pass_executes {scene : Scene} {w w' : WorkerProcess}
    (h : (scene.pass w).bind w.pass = some (.done status w')) :
    w.Executes status w' := by
  obtain ⟨pass, hscene, hpass⟩ := Option.bind_eq_some_iff.mp h
  have hstep := WorkerProcess.pass_step hpass
  cases scene with
  | serve slot ready => cases hscene
  | offer => cases hscene
  | script replies => cases hscene
  | register =>
      cases hscene
      obtain ⟨phase, -⟩ := Option.ite_none_right_eq_some.mp hpass
      exact .registration (by rw [phase]; nofun) hstep
  | acknowledge chunk =>
      cases hscene
      obtain ⟨⟨phase, -⟩, -⟩ := Option.ite_none_right_eq_some.mp hpass
      exact .registration (by rw [phase]; nofun) hstep
  | receive chunk =>
      cases hscene
      obtain ⟨⟨phase, possible⟩, run⟩ :=
        Option.ite_none_right_eq_some.mp hpass
      exact .iterate phase possible
        (fun ending hending => absurd hending (Option.not_mem_none ending))
        (Option.some.inj run)
  | finish =>
      obtain ⟨outcome, hended, rfl⟩ := Option.map_eq_some_iff.mp hscene
      obtain ⟨⟨phase, possible⟩, run⟩ :=
        Option.ite_none_right_eq_some.mp hpass
      refine .iterate phase possible (fun ending hending => ?_)
        (Option.some.inj run)
      cases hending
      exact ⟨0, calmDay, [], hended⟩

theorem Scene.play_works {scene : Scene} {w w' : WorkerProcess}
    (plays : scene.play s w = some (s', w')) :
    Network.Works quietSettings ⟨s, [⟨w, none, .active workerSlot⟩]⟩
      ⟨s', [⟨w', none, .active workerSlot⟩]⟩ := by
  unfold Scene.play at plays
  split at plays
  · obtain ⟨⟨healthy, clock, possible, returned, keeps⟩, hnext⟩ :=
      Option.ite_none_right_eq_some.mp plays
    cases hnext
    exact .coordinate
      (.serve healthy clock possible (Outcome.eq_done returned)) keeps
  · obtain ⟨⟨returned, keeps⟩, hnext⟩ :=
      Option.ite_none_right_eq_some.mp plays
    cases hnext
    exact .coordinate (.offer (Outcome.eq_done returned)) keeps
  · obtain ⟨keeps, hnext⟩ := Option.ite_none_right_eq_some.mp plays
    cases hnext
    exact .coordinate (.environment rfl) keeps
  · split at plays
    · rename_i hpass
      obtain ⟨fifo, hnext⟩ := Option.ite_none_right_eq_some.mp plays
      cases hnext
      exact @Network.Works.worker _ ⟨s, [⟨w, none, .active workerSlot⟩]⟩
        [] [] _ _ _ rfl rfl (Scene.pass_executes hpass)
        (List.isPrefixOf_iff_prefix.mp fifo)
    · cases plays

/-- Steps in turn. -/
def playAll : Coordinator → WorkerProcess → List Scene →
    Option (Coordinator × WorkerProcess)
  | s, w, [] => some (s, w)
  | s, w, scene :: scenes =>
      match scene.play s w with
      | some (s', w') => playAll s' w' scenes
      | none => none

theorem playAll_works {scenes : List Scene} {w w' : WorkerProcess}
    (plays : playAll s w scenes = some (s', w')) :
    Relation.ReflTransGen (Network.Works quietSettings)
      ⟨s, [⟨w, none, .active workerSlot⟩]⟩
      ⟨s', [⟨w', none, .active workerSlot⟩]⟩ := by
  induction scenes generalizing s w with
  | nil =>
      cases plays
      exact .refl
  | cons scene scenes ih =>
      unfold playAll at plays
      split at plays
      · rename_i hplay
        exact .head (Scene.play_works hplay) (ih plays)
      · cases plays

/-- The worker joins before there is a job. -/
def workerFirst : Coordinator := jobDisk.put workerSlot (Client.accepted 8 5)

theorem workerFirst_joins :
    Network.Works quietSettings ⟨jobDisk, []⟩
      ⟨workerFirst, [⟨freshWorker, none, .active workerSlot⟩]⟩ := by
  have hfree : jobDisk.vacantSlot = some workerSlot
      ∧ (∀ j, (jobDisk.client j).fd ≠ 8) ∧ workerFirst.keeps freshWorker := by
    decide +kernel
  obtain ⟨vacant, fresh, hkeeps⟩ := hfree
  have hrun : acceptClient 8 true 5 jobDisk = .done () workerFirst := by
    unfold acceptClient
    rw [vacant]
    rfl
  refine @Network.Works.coordinator quietSettings ⟨jobDisk, []⟩ workerFirst
    (some ⟨freshWorker, none, .active workerSlot⟩)
    (.accept ⟨by decide, fresh⟩ hrun)
    (fun p hp => absurd hp List.not_mem_nil) (fun p hp => ?_)
    (keeps_iff hkeeps).2.2.2
  cases hp
  refine ⟨workerSlot, 1000, fun _ => 5, ?_, (keeps_iff hkeeps).2.1, rfl⟩
  simpa using List.find?_some vacant

def fibonacciJob : JobSubmitPayload :=
  { taskType := TaskType.fibonacci.code, maxRetries := 0
    arguments := decimalText 10 }

def fibonacciIdentity : JobIdentity :=
  { jobId := 1, workerId := 1, attempt := 1 }

def fibonacciAssignment : List UInt8 :=
  (Message.jobAssign
    { identity := fibonacciIdentity, taskType := fibonacciJob.taskType
      arguments := fibonacciJob.arguments }).wire

def fibonacciStarted : List UInt8 := (Message.jobStarted fibonacciIdentity).wire

def fibonacciCompleted : List UInt8 :=
  (Message.jobCompleted
    { identity := fibonacciIdentity, result := decimalText 55 }).wire

/-- A job for the tenth Fibonacci number is submitted. -/
def submitScenes : List Scene :=
  let submit := (Message.jobSubmit fibonacciJob).wire
  [.serve onlySlot (arriving (submit.take headerSize)),
    .serve onlySlot (arriving (submit.drop headerSize)),
    .serve onlySlot (writing (Message.jobSubmitAck 1).wire.length)]

/-- The worker registers and runs it. Then the disk takes two writes more. -/
def workScenes : List Scene :=
  let ack := (Message.workerRegisterAck 1).wire
  [.register,
    .serve workerSlot (arriving (Message.workerRegister 0).wire),
    .serve workerSlot (writing ack.length),
    .acknowledge (ack.take headerSize),
    .acknowledge (ack.drop headerSize),
    .offer,
    .serve workerSlot (writing fibonacciAssignment.length),
    .receive (fibonacciAssignment.take headerSize),
    .receive (fibonacciAssignment.drop headerSize),
    .serve workerSlot (arriving (fibonacciStarted.take headerSize)),
    .serve workerSlot (arriving (fibonacciStarted.drop headerSize)),
    .finish,
    .serve workerSlot (arriving (fibonacciCompleted.take headerSize)),
    .script [.moved 99, .moved 99]]

end Faultline
