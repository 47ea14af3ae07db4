/-
The service across restarts.

A coordinator's machine runs a process that serves, or has only its disk
(`Service`). The process may end between two turns or in the middle of one,
with whatever its last system call has left on the disk, and it may be started
again as often as one likes; a start can be stopped as well. Jobs survive all
of this (`jobs_survive_restarts`), and as long as the workers run the executor,
results are answers, whichever process has recorded them
(`results_are_answers`).

Both follow from one rule (`Service.Rule`): what the networks of each process
guarantee about the jobs they complete, the disk guarantees in between.
-/
import Faultline.Proofs.KeptTurns
import Faultline.Proofs.ResultIntegrity

namespace Faultline

open Lib Coordinator

inductive Service where
  | up (settings : LoopSettings) (n : Network)
  | down (disk : Disk)

/-- A connection of a worker receives what the worker has sent. -/
def Network.Hears (n : Network) (i : Fin maxClients) (ready : Readiness) :
    Prop :=
  (n.coordinator.client i).phase = .readingMessage →
    ∀ chunk, ready.recv = .data chunk →
      ∀ p ∈ n.parties, p.link = .active i →
        (n.coordinator.client i).history.arrived ++ chunk
          <+: p.process.history.handed

/-- What happens to the machine, if networks move like `Moves`. -/
inductive Service.Step (Moves : LoopSettings → Network → Network → Prop) :
    Service → Service → Prop where
  | moves {settings : LoopSettings} {n n' : Network}
      (moves : Moves settings n n') :
      Step Moves (.up settings n) (.up settings n')
  /-- The process exits, is killed, or the machine goes down. -/
  | ends {settings : LoopSettings} {n : Network} {disk : Disk}
      (left : DiskLeft n.coordinator.ctx.machine.disk disk) :
      Step Moves (.up settings n) (.down disk)
  | turnStops {settings : LoopSettings} {n : Network} {i : Fin maxClients}
      {ready : Readiness} {s' : Coordinator} {disk : Disk}
      (healthy : n.coordinator.store.failure = .none)
      (possible : ready.Possible (n.coordinator.client i))
      (hears : n.Hears i ready)
      (stops : serveClient settings i ready n.coordinator.now
        n.coordinator.ticked = .crash s')
      (left : DiskLeft s'.ctx.machine.disk disk) :
      Step Moves (.up settings n) (.down disk)
  | offerStops {settings : LoopSettings} {n : Network} {i : Fin maxClients}
      {s' : Coordinator} {disk : Disk}
      (stops : scheduleFrom settings.timeoutMs [i] n.coordinator = .crash s')
      (left : DiskLeft s'.ctx.machine.disk disk) :
      Step Moves (.up settings n) (.down disk)
  | starts {settings : LoopSettings} {m : Machine} {ctx : StoreCtx}
      {clock : Nat → Int64}
      (opened : storeOpen false (clock 0) ⟨storeInit, m⟩ = .done .ok ctx)
      (session : statsBegin ctx.store (clock 1) = some settings.session) :
      Step Moves (.down m.disk)
        (.up settings ⟨Coordinator.start ctx clock, []⟩)
  /-- The log is not accepted, or something else keeps the process from
  serving. -/
  | startFails {m : Machine} {nowMs : Int64} {result : StoreResult}
      {ctx : StoreCtx} {disk : Disk}
      (opened : storeOpen false nowMs ⟨storeInit, m⟩ = .done result ctx)
      (left : DiskLeft ctx.machine.disk disk) :
      Step Moves (.down m.disk) (.down disk)
  | startStops {m : Machine} {nowMs : Int64} {ctx : StoreCtx} {disk : Disk}
      (stops : storeOpen false nowMs ⟨storeInit, m⟩ = .crash ctx)
      (left : DiskLeft ctx.machine.disk disk) :
      Step Moves (.down m.disk) (.down disk)

abbrev Service.Run (Moves : LoopSettings → Network → Network → Prop) :
    Service → Service → Prop :=
  Relation.ReflTransGen (Service.Step Moves)

/-- Everything after the log was created. -/
inductive Service.Reachable (Moves : LoopSettings → Network → Network → Prop) :
    Service → Prop where
  | created {settings : LoopSettings} {m : Machine} {ctx : StoreCtx}
      {clock : Nat → Int64}
      (opened : storeOpen true (clock 0) ⟨storeInit, m⟩ = .done .ok ctx)
      (session : statsBegin ctx.store (clock 1) = some settings.session) :
      Reachable Moves (.up settings ⟨Coordinator.start ctx clock, []⟩)
  | step {x y : Service} (before : Reachable Moves x)
      (step : Service.Step Moves x y) : Reachable Moves y

variable {Moves : LoopSettings → Network → Network → Prop}
  {Inv : LoopSettings → Network → Prop} {Good : Job → Prop}
  {P : List WalEntry → Prop} {x y : Service} {settings settings' : LoopSettings}
  {n n' : Network} {i : Fin maxClients} {ready : Readiness}
  {chunk : List UInt8} {message : Message} {nowMs : Int64}
  {base : List WalEntry} {l : Ledger} {c : StoreCtx}

-- ===================================================== the rule

/-- `P` lasts if the jobs that are done are good ones, and networks with `Inv`
complete no others. -/
structure Service.Rule (Moves : LoopSettings → Network → Network → Prop)
    (Inv : LoopSettings → Network → Prop) (Good : Job → Prop)
    (P : List WalEntry → Prop) : Prop where
  lasting : Lasting Good P
  starts : ∀ {settings : LoopSettings} {initializing : Bool} {m : Machine}
    {ctx : StoreCtx} {clock : Nat → Int64},
    storeOpen initializing (clock 0) ⟨storeInit, m⟩ = .done .ok ctx →
    statsBegin ctx.store (clock 1) = some settings.session →
    StoreKept P ctx → Inv settings ⟨Coordinator.start ctx clock, []⟩
  moves : ∀ {settings : LoopSettings} {n n' : Network}, Moves settings n n' →
    Inv settings n → StoreKept P n.coordinator.ctx →
    Inv settings n' ∧ StoreKept P n'.coordinator.ctx
  reports : ∀ {settings : LoopSettings} {n : Network} {i : Fin maxClients}
    {ready : Readiness} {nowMs : Int64} {chunk : List UInt8}
    {message : Message}, Inv settings n →
    n.coordinator.store.failure = .none →
    ready.Possible (n.coordinator.client i) → n.Hears i ready →
    (n.coordinator.client i).Receives ready nowMs chunk message →
    n.coordinator.Reports Good i message

def Service.Kept (Inv : LoopSettings → Network → Prop)
    (P : List WalEntry → Prop) : Service → Prop
  | .up settings n => Inv settings n ∧ StoreKept P n.coordinator.ctx
  | .down disk => DiskKeeps P disk

theorem StoreKept.disk (h : StoreKept P c) : DiskKeeps P c.machine.disk := by
  obtain ⟨entries, l, hkeeps⟩ := h
  exact hkeeps.disk

theorem Service.Rule.step (rule : Service.Rule Moves Inv Good P)
    (h : x.Kept Inv P) (step : Service.Step Moves x y) : y.Kept Inv P := by
  cases step with
  | moves moves => exact rule.moves moves h.1 h.2
  | ends left => exact h.2.disk.left left
  | @turnStops settings n i ready s' disk healthy possible hears stops left =>
      have hdisk : DiskKeeps P s'.ctx.machine.disk :=
        StoreKept.turnStops (s := n.coordinator.ticked) h.2 rule.lasting
          (serveClient_crash stops) fun chunk message receives =>
            rule.reports h.1 healthy possible hears receives
      exact hdisk.left left
  | offerStops stops left =>
      exact (h.2.offerStops rule.lasting (scheduleFrom_crash stops)).left left
  | starts opened session =>
      have hkept := (DiskKeeps.opens h rule.lasting opened).2 rfl
      exact ⟨rule.starts opened session hkept, hkept⟩
  | startFails opened left =>
      exact (DiskKeeps.opens h rule.lasting opened).1.left left
  | startStops stops left =>
      exact (DiskKeeps.openStops h rule.lasting stops).left left

theorem Service.Rule.run (rule : Service.Rule Moves Inv Good P)
    (h : x.Kept Inv P) (run : Service.Run Moves x y) : y.Kept Inv P := by
  induction run with
  | refl => exact h
  | tail _ step ih => exact rule.step ih step

theorem Service.Rule.reachable (rule : Service.Rule Moves Inv Good P)
    (empty : P []) (h : x.Reachable Moves) : x.Kept Inv P := by
  induction h with
  | created opened session =>
      obtain ⟨hdisk, hlogged⟩ := storeCreate_ok opened
      have hkept : StoreKept P _ :=
        ⟨[], .init, storeKeeps_logged hlogged hdisk empty⟩
      exact ⟨rule.starts opened session hkept, hkept⟩
  | step before step ih => exact rule.step ih step

-- ========================================================= jobs

theorem grows_lasting (base : List WalEntry) :
    Lasting (fun _ => True) (base <+: ·) :=
  fun later entry grown _ => grown.trans (List.prefix_append later [entry])

/-- A history only grows, whoever the peers are. -/
theorem Service.rule_grows (base : List WalEntry)
    (steps : ∀ {settings n n'}, Moves settings n n' → n.Step settings n') :
    Service.Rule Moves (fun _ _ => True) (fun _ => True) (base <+: ·) where
  lasting := grows_lasting base
  starts := fun _ _ _ => trivial
  moves := by
    intro settings n n' moves _ kept
    refine ⟨trivial, ?_⟩
    cases steps moves with
    | coordinator step fifo joins =>
        exact kept.event (grows_lasting base) step.turn.event
          fun _ _ _ _ _ _ _ => trivial
    | worker parties running step fifo => exact kept
  reports := fun _ _ _ _ _ _ _ _ => trivial

/-- The table of a store whose history has grown. -/
theorem StoreKept.evolves {store : CoordinatorStore}
    (agrees : Agrees store base l) (h : StoreKept (base <+: ·) c) :
    store.jobs.Evolves c.store.jobs := by
  obtain ⟨entries, l', h⟩ := h
  obtain ⟨more, rfl⟩ := h.kept
  obtain ⟨middle, hbase, hmore⟩ := Trace.split h.agrees.run
  -- both runs of the old history end in one board
  have hboard : middle.board = store.jobs.board := by
    obtain ⟨index, htracks⟩ := tracks_recovered hbase
    rw [agrees.jobs_eq]
    exact htracks.board.symm
  intro job hjob
  obtain ⟨later, hlater, hevolves⟩ :=
    Ledger.Run.evolves hmore job (by rw [hboard]; exact hjob)
  refine ⟨later, ?_, hevolves⟩
  rw [← h.agrees.rep.2.1] at hlater
  exact hlater

/-- Whether or not the store has failed, it has a history. -/
theorem Service.Reachable.keeps (h : (Service.up settings n).Reachable Moves)
    (steps : ∀ {settings n n'}, Moves settings n n' → n.Step settings n') :
    ∃ base l, StoreKeeps ([] <+: ·) n.coordinator.ctx base l :=
  ((Service.rule_grows [] steps).reachable List.prefix_rfl h).2

theorem Service.Reachable.run (h : x.Reachable Moves)
    (run : Service.Run Moves x y) : y.Reachable Moves := by
  induction run with
  | refl => exact h
  | tail _ step ih => exact ih.step step

theorem Service.Reachable.rep (h : (Service.up settings n).Reachable Moves)
    (steps : ∀ {settings n n'}, Moves settings n n' → n.Step settings n') :
    n.coordinator.store.jobs.Rep := by
  obtain ⟨base, l, hkeeps⟩ := h.keeps steps
  exact hkeeps.agrees.rep.1

theorem Service.Reachable.evolves
    (h : (Service.up settings n).Reachable Moves)
    (steps : ∀ {settings n n'}, Moves settings n n' → n.Step settings n')
    (run : Service.Run Moves (.up settings n) (.up settings' n')) :
    n.coordinator.store.jobs.Evolves n'.coordinator.store.jobs := by
  obtain ⟨base, l, hkeeps⟩ := h.keeps steps
  have hkept : StoreKept (base <+: ·) n.coordinator.ctx :=
    ⟨base, l, hkeeps.agrees, List.prefix_rfl, hkeeps.ahead, hkeeps.ahead,
      hkeeps.healthy⟩
  have hlater := (Service.rule_grows base steps).run
    (x := .up settings n) ⟨trivial, hkept⟩ run
  exact StoreKept.evolves hkeeps.agrees hlater.2

/-- However often the coordinator ends and starts again, in the middle of a
commit or a recovery for all one knows, and whatever its peers send: a job that
was once in the table of the service is there whenever the service is up, the
same or further in its life. -/
theorem jobs_survive_restarts (settings settings' : LoopSettings)
    (n n' : Network) (h : (Service.up settings n).Reachable Network.Step)
    (run : Service.Run Network.Step (.up settings n) (.up settings' n')) :
    ∀ job ∈ n.coordinator.store.jobs.jobs,
      ∃ later ∈ n'.coordinator.store.jobs.jobs, job.Evolves later :=
  h.evolves id run

-- ====================================================== answers

/-- The completed jobs of a history are good. -/
def Completed (Good : Job → Prop) (base : List WalEntry) : Prop :=
  ∀ entry ∈ base, ∀ job ∈ entry.completed, Good job

theorem completed_lasting : Lasting Good (Completed Good) := by
  intro base entry h hgood e he job hjob
  rcases List.mem_append.mp he with he | he
  · exact h e he job hjob
  · rw [List.mem_singleton.mp he] at hjob
    exact hgood job hjob

/-- The result is the answer to the task. -/
def Job.Answered (job : Job) : Prop :=
  taskAnswer job.taskType.code job.arguments = some job.result

theorem StoreKept.completed (h : StoreKept (Completed Good) c) :
    ∀ job ∈ c.store.jobs.jobs, job.state = .done → Good job := by
  obtain ⟨entries, l, h⟩ := h
  intro job hjob done
  replace hjob : job ∈ l.board.jobs := by
    rw [← h.agrees.rep.2.1]
    exact hjob
  obtain ⟨entry, hentry, hcompleted⟩ := h.agrees.run.done_recorded job hjob done
  exact h.kept entry hentry job hcompleted

/-- A completion that gives the answer to the worker's job is a good report. -/
theorem Coordinator.reports_answered {s : Coordinator}
    (h : ∀ payload old, message = .jobCompleted payload →
      (s.client i).workerId ≠ 0 → old ∈ s.store.jobs.jobs →
      payload.identity.jobId = old.id →
      taskAnswer old.taskType.code old.arguments = some payload.result) :
    s.Reports Job.Answered i message := by
  rintro time job ⟨worker, payload, _, old, hop, hworker, hold, hid, hsame,
    hresult⟩
  cases hop
  unfold Job.Answered
  rw [hsame.task_eq, hsame.arguments_eq, hresult]
  exact h payload old rfl hworker hold hid

/-- What a connection may report, when it has received no more than its worker
has sent. -/
theorem Network.Computes.reports (h : n.Computes settings)
    (healthy : n.coordinator.store.failure = .none)
    (possible : ready.Possible (n.coordinator.client i))
    (hears : n.Hears i ready)
    (receives : (n.coordinator.client i).Receives ready nowMs chunk message) :
    n.coordinator.Reports Job.Answered i message := by
  refine reports_answered fun payload old hmessage hworker hold hid => ?_
  subst hmessage
  have hreceived : ready.recv = .data chunk := receives.recv
  have hgathers : (n.coordinator.client i).Gathers chunk := by
    unfold Readiness.Possible at possible
    rw [receives.phase, hreceived] at possible
    exact ⟨receives.fd, receives.phase, possible.1, possible.2⟩
  have hinput : (n.coordinator.client i).Input False :=
    (h.reachable.coordinator.input i).mono fun hne => hne healthy
  have hinspect := receives.inspect
  rw [Client.gather_role, Client.gather_input] at hinspect
  -- the input is in order also where the turn stops
  let client := ((n.coordinator.client i).gather chunk nowMs).deliver
    (.jobCompleted payload)
  have hanswers : Client.Answers True (.jobCompleted payload)
      (client.withRole client.workerId client.jobClient) client :=
    .stuck trivial
  have hmove : (n.coordinator.client i).Move True client :=
    .delivers hgathers receives.full hinspect hanswers
  refine h.answer healthy (hinput.move hmove) (fun p hp hlink => ?_) hworker
    ?_ hold hid
  · have hhandovers := hears receives.phase chunk hreceived p hp hlink
    rw [← Client.gather_history.1] at hhandovers
    exact hhandovers
  · exact List.mem_append_right _ (List.mem_singleton_self _)

theorem Service.rule_answers :
    Service.Rule Network.Works (fun settings n => n.Computes settings)
      Job.Answered (Completed Job.Answered) where
  lasting := completed_lasting
  starts := fun opened session _ =>
    .start (.start opened session) fun i => by
      rw [client_start]
      rfl
  moves := by
    intro settings n n' works computes kept
    refine ⟨computes.step works, ?_⟩
    cases works with
    | worker parties running step fifo => exact kept
    | coordinator step fifo joins staffed =>
        refine kept.event completed_lasting step.turn.event ?_
        refine fun healthy i message hmem => reports_answered ?_
        rintro payload old rfl hworker hold hid
        exact computes.delivered healthy step fifo hworker hmem hold hid
  reports := fun computes healthy possible hears receives =>
    computes.reports healthy possible hears receives

theorem Service.Reachable.answered
    (h : (Service.up settings n).Reachable Network.Works) :
    n.Computes settings
      ∧ ∀ job ∈ n.coordinator.store.jobs.jobs, job.state = .done →
        job.Answered := by
  have hempty : Completed Job.Answered [] :=
    fun entry hentry => absurd hentry List.not_mem_nil
  obtain ⟨hcomputes, hkept⟩ := Service.rule_answers.reachable hempty h
  exact ⟨hcomputes, hkept.completed⟩

/-- Whenever a service whose workers run the executor is up, after any number
of ends, crashes and restarts since its log was created, whatever its other
peers send and however often jobs are tried: the result of a job that is done
is the answer to its task, and so is every result that a status response of
this process has shown. -/
theorem results_are_answers (settings : LoopSettings) (n : Network)
    (h : (Service.up settings n).Reachable Network.Works) :
    (∀ job ∈ n.coordinator.store.jobs.jobs, job.state = .done →
      taskAnswer job.taskType.code job.arguments = some job.result)
    ∧ ∀ i payload,
      .jobStatusResponse payload
        ∈ (n.coordinator.client i).history.queued →
      payload.state = JobState.done.code →
      ∃ job ∈ n.coordinator.store.jobs.jobs, job.id = payload.jobId
        ∧ taskAnswer job.taskType.code job.arguments
          = some payload.result := by
  obtain ⟨hcomputes, hanswered⟩ := h.answered
  refine ⟨hanswered, fun i payload hmem state => ?_⟩
  obtain ⟨job, hjob, done, hid, hresult⟩ :=
    hcomputes.reachable.coordinator.shown i payload hmem state
  exact ⟨job, hjob, hid, hresult ▸ hanswered job hjob done⟩

-- ====================================================== example

theorem Service.Step.mono
    {Moves' : LoopSettings → Network → Network → Prop}
    (h : Service.Step Moves x y)
    (himp : ∀ {settings n n'}, Moves settings n n' → Moves' settings n n') :
    Service.Step Moves' x y := by
  cases h with
  | moves moves => exact .moves (himp moves)
  | ends left => exact .ends left
  | turnStops healthy possible hears stops left =>
      exact .turnStops healthy possible hears stops left
  | offerStops stops left => exact .offerStops stops left
  | starts opened session => exact .starts opened session
  | startFails opened left => exact .startFails opened left
  | startStops stops left => exact .startStops stops left

theorem Service.Reachable.mono
    {Moves' : LoopSettings → Network → Network → Prop}
    (h : x.Reachable Moves)
    (himp : ∀ {settings n n'}, Moves settings n n' → Moves' settings n n') :
    x.Reachable Moves' := by
  induction h with
  | created opened session => exact .created opened session
  | step before step ih => exact ih.step (step.mono himp)

/-- A coordinator without workers. -/
theorem Network.Works.alone {s s' : Coordinator}
    (step : s.Step settings s') (nobody : ∀ i, (s'.client i).workerId = 0) :
    Network.Works settings ⟨s, []⟩ ⟨s', []⟩ :=
  @Network.Works.coordinator settings ⟨s, []⟩ s' none step
    (fun _ hp => absurd hp List.not_mem_nil)
    (fun p hp => absurd hp (Option.not_mem_none p))
    fun i hworker => absurd (nobody i) hworker

theorem workerFirst_service :
    (Service.up quietSettings
      ⟨workerFirst, [⟨freshWorker, none, .active workerSlot⟩]⟩).Reachable
      Network.Works := by
  have hstart : (Service.up quietSettings ⟨quietStart, []⟩).Reachable
      Network.Works :=
    .created firstStore_opened (by decide +kernel)
  have hfree : quietStart.vacantSlot = some 0
      ∧ (∀ j, (quietStart.client j).fd ≠ 7)
      ∧ (∀ j, (quietClient.client j).workerId = 0)
      ∧ ∀ j, (jobDisk.client j).workerId = 0 := by
    decide +kernel
  obtain ⟨vacant, fresh, nobody, nobody'⟩ := hfree
  have haccepts : acceptClient 7 true 5 quietStart = .done () quietClient := by
    unfold acceptClient
    rw [vacant]
    rfl
  have hclient := hstart.step
    (.moves (.alone (.accept ⟨by decide, fresh⟩ haccepts) nobody))
  have hdisk : (Service.up quietSettings ⟨jobDisk, []⟩).Reachable
      Network.Works :=
    hclient.step (.moves (.alone (.environment rfl) nobody'))
  exact hdisk.step (.moves workerFirst_joins)

/-- The worker's report arrives. -/
def reporting (s : Coordinator) : Outcome Coordinator Unit :=
  serveClient quietSettings workerSlot
    (arriving (fibonacciCompleted.drop headerSize)) s.now s.ticked

/-- The machine it was to be recorded on, in working order again. -/
def repaired (s : Coordinator) : Machine :=
  ⟨(reporting s).state.ctx.machine.disk, 0,
    List.replicate (maxClients * appendRoom) (.moved 99)⟩

/-- The process that is started then. -/
def restarting (s : Coordinator) : Outcome StoreCtx StoreResult :=
  storeOpen false 9 ⟨storeInit, repaired s⟩

/-- Its settings. -/
def restartSettings : LoopSettings :=
  { timeoutMs := 1000
    session :=
      { readyAtMs := 9, startupDurationMs := 0, startupInterruptedJobs := 0
        submittedAtStart := 1, completedAtStart := 1, failedAtStart := 0
        retriesAtStart := 0 } }

/-- The turn in which the report arrives is stopped, and the next process
serves. -/
def interrupts (s : Coordinator) (w : WorkerProcess) : Bool :=
  let ready := arriving (fibonacciCompleted.drop headerSize)
  s.store.failure = .none && ready.Possible (s.client workerSlot)
    && ((s.client workerSlot).history.arrived
        ++ fibonacciCompleted.drop headerSize).isPrefixOf w.history.handed
    && (reporting s).returned.isNone
    && (restarting s).returned == some .ok
    && statsBegin (restarting s).state.store 9 == some restartSettings.session

theorem interrupts_run {s : Coordinator} {w : WorkerProcess}
    (h : interrupts s w = true) :
    Service.Run Network.Works
      (.up quietSettings ⟨s, [⟨w, none, .active workerSlot⟩]⟩)
      (.up restartSettings
        ⟨Coordinator.start (restarting s).state fun _ => 9, []⟩) := by
  simp only [interrupts, Bool.and_eq_true, decide_eq_true_eq,
    List.isPrefixOf_iff_prefix, Option.isNone_iff_eq_none, beq_iff_eq] at h
  obtain ⟨⟨⟨⟨⟨healthy, possible⟩, fifo⟩, stops⟩, opens⟩, session⟩ := h
  have hears : Network.Hears ⟨s, [⟨w, none, .active workerSlot⟩]⟩ workerSlot
      (arriving (fibonacciCompleted.drop headerSize)) := by
    intro _ chunk hchunk p hp _
    have hsame : fibonacciCompleted.drop headerSize = chunk :=
      RecvReply.data.inj hchunk
    rw [List.mem_singleton.mp hp, ← hsame]
    exact fifo
  have hstarts : Service.Step Network.Works (.down (repaired s).disk)
      (.up restartSettings
        ⟨Coordinator.start (restarting s).state fun _ => 9, []⟩) :=
    .starts (Outcome.eq_done opens) session
  exact .head (.turnStops healthy possible hears (Outcome.eq_crash stops)
    .process) (.single hstarts)

/-- The job is submitted. -/
def fibonacciSubmitted : Coordinator × WorkerProcess :=
  (playAll workerFirst freshWorker submitScenes).getD (workerFirst, freshWorker)

/-- The report of its result is about to arrive. -/
def fibonacciReported : Coordinator × WorkerProcess :=
  (playAll fibonacciSubmitted.1 fibonacciSubmitted.2 workScenes).getD
    fibonacciSubmitted

/-- The next process. -/
def fibonacciRestarted : Coordinator :=
  Coordinator.start (restarting fibonacciReported.1).state fun _ => 9

theorem playAll_service {s : Coordinator} {w : WorkerProcess}
    {scenes : List Scene} (h : (playAll s w scenes).isSome = true)
    (r : Coordinator × WorkerProcess) :
    Service.Run Network.Works
      (.up quietSettings ⟨s, [⟨w, none, .active workerSlot⟩]⟩)
      (.up quietSettings ⟨((playAll s w scenes).getD r).1,
        [⟨((playAll s w scenes).getD r).2, none, .active workerSlot⟩]⟩) := by
  obtain ⟨⟨s', w'⟩, hplays⟩ := Option.isSome_iff_exists.mp h
  rw [hplays]
  exact (playAll_works hplays).lift (Service.up quietSettings)
    fun _ _ => .moves

/-- All of this happens as told. -/
theorem fibonacci_happens :
    (playAll workerFirst freshWorker submitScenes).isSome = true
      ∧ (∃ job ∈ fibonacciSubmitted.1.store.jobs.jobs, job.state = .queued)
      ∧ (playAll fibonacciSubmitted.1 fibonacciSubmitted.2
        workScenes).isSome = true
      ∧ interrupts fibonacciReported.1 fibonacciReported.2 = true
      ∧ ∃ job ∈ fibonacciRestarted.store.jobs.jobs, job.id = 1
        ∧ job.state = .done ∧ job.result = decimalText 55 := by
  decide +kernel

theorem fibonacciSubmitted_service :
    (Service.up quietSettings ⟨fibonacciSubmitted.1,
      [⟨fibonacciSubmitted.2, none, .active workerSlot⟩]⟩).Reachable
      Network.Works :=
  workerFirst_service.run (playAll_service fibonacci_happens.1 _)

theorem fibonacciRestarted_service :
    Service.Run Network.Works
      (.up quietSettings ⟨fibonacciSubmitted.1,
        [⟨fibonacciSubmitted.2, none, .active workerSlot⟩]⟩)
      (.up restartSettings ⟨fibonacciRestarted, []⟩) := by
  obtain ⟨-, -, hplays, hinterrupts, -⟩ := fibonacci_happens
  exact (playAll_service hplays _).trans (interrupts_run hinterrupts)

theorem results_are_answers_fibonacci :
    ∃ job ∈ fibonacciRestarted.store.jobs.jobs, job.id = 1
      ∧ job.state = .done ∧ job.result = decimalText 55
      ∧ taskAnswer job.taskType.code job.arguments = some job.result := by
  obtain ⟨-, -, -, -, hdone⟩ := fibonacci_happens
  have hservice := fibonacciSubmitted_service.run fibonacciRestarted_service
  generalize fibonacciRestarted = restarted at hdone hservice
  obtain ⟨job, hjob, hid, done, hresult⟩ := hdone
  exact ⟨job, hjob, hid, done, hresult,
    (results_are_answers restartSettings ⟨restarted, []⟩ hservice).1 job hjob
      done⟩

theorem jobs_survive_restarts_fibonacci :
    ∃ job ∈ fibonacciSubmitted.1.store.jobs.jobs, job.state = .queued
      ∧ ∃ later ∈ fibonacciRestarted.store.jobs.jobs, job.Evolves later := by
  obtain ⟨-, hqueued, -⟩ := fibonacci_happens
  have hservice := fibonacciSubmitted_service
  have hrun := fibonacciRestarted_service
  generalize fibonacciSubmitted = submitted at hqueued hservice hrun
  generalize fibonacciRestarted = restarted at hrun
  obtain ⟨job, hjob, hstate⟩ := hqueued
  exact ⟨job, hjob, hstate, jobs_survive_restarts quietSettings restartSettings
    ⟨submitted.1, _⟩ ⟨restarted, []⟩
    (hservice.mono fun works => works.step)
    (Relation.ReflTransGen.mono
      (fun _ _ step => step.mono fun works => works.step) _ _ hrun) job hjob⟩

end Faultline
