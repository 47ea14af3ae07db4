/-
A submission, and a question about it later.

The user of a service whose workers run the executor submits a job with the
command line and is shown an id. At any later time, with any number of ends
and restarts in between, they ask about that id. If the question is answered at
all, it is answered for their job, and a result they are shown is the answer to
the task they have submitted (`submitted_job_found`).
-/
import Faultline.Proofs.Commands
import Faultline.Proofs.DecimalParsers
import Faultline.Proofs.Service

namespace Faultline

open Lib Coordinator

-- ====================================================== numbers

theorem digitValue_printfDigit {digit : Nat} (h : digit < 10) :
    IsDigit (printfDigit digit) ∧ digitValue (printfDigit digit) = digit := by
  have hall : ∀ d < 10, IsDigit (printfDigit d)
      ∧ digitValue (printfDigit d) = d := by decide
  exact hall digit h

theorem decimalValue_digits {digits : List Nat} (h : ∀ d ∈ digits, d < 10) :
    decimalValue (digits.reverse.map printfDigit)
      = Nat.ofDigits 10 digits := by
  induction digits with
  | nil => rfl
  | cons d digits ih =>
      have htail := ih fun k hk => h k (List.mem_cons_of_mem _ hk)
      unfold decimalValue decimalFrom at htail ⊢
      rw [List.reverse_cons, List.map_append, List.foldl_append, htail,
        Nat.ofDigits_cons]
      simp only [List.map_cons, List.map_nil, List.foldl_cons, List.foldl_nil,
        (digitValue_printfDigit (h d List.mem_cons_self)).2]
      rw [Nat.mul_comm, Nat.add_comm]

/-- A number that is printed is read back. -/
theorem printfUnsigned_decimal (low high : Nat) {number : Nat}
    (hlow : low ≤ number) (hhigh : number ≤ high) (hpos : number ≠ 0) :
    DecimalIn low high (printfUnsigned number)
      ∧ decimalValue (printfUnsigned number) = number := by
  have hdigits := fun d => Nat.digits_lt_base (b := 10) (m := number) (d := d)
    (by decide)
  have hnonempty : (Nat.digits 10 number).reverse.map printfDigit ≠ [] := by
    simpa [Nat.digits_ne_nil_iff_ne_zero] using hpos
  have htext : printfUnsigned number
      = (Nat.digits 10 number).reverse.map printfDigit := by
    have hlength : 1 ≤ ((Nat.digits 10 number).reverse.map printfDigit).length :=
      List.length_pos_iff.mpr hnonempty
    unfold printfUnsigned printfNumber
    simp only [List.isEmpty_iff, if_neg hnonempty,
      Nat.sub_eq_zero_of_le hlength]
    rfl
  have hvalue : decimalValue (printfUnsigned number) = number := by
    rw [htext, decimalValue_digits fun d hd => hdigits d hd,
      Nat.ofDigits_digits]
  refine ⟨⟨htext ▸ hnonempty, fun c hc => ?_, hvalue.symm ▸ hlow,
    hvalue.symm ▸ hhigh⟩, hvalue⟩
  rw [htext] at hc
  obtain ⟨d, hd, rfl⟩ := List.mem_map.mp hc
  exact (digitValue_printfDigit (hdigits d (List.mem_reverse.mp hd))).1

/-- An id that is printed names the job. -/
theorem parseJobId_printed {id : UInt64} (h : id ≠ 0) (cell : Nat) :
    parseJobId (printfUnsigned id.toNat) cell = .ok (true, id.toNat) := by
  have hpos : id.toNat ≠ 0 := fun hzero => h (UInt64.toNat_inj.mp hzero)
  obtain ⟨hin, hvalue⟩ := printfUnsigned_decimal 1 (2 ^ 64 - 1)
    (Nat.pos_of_ne_zero hpos) (Nat.le_sub_one_of_lt id.toNat_lt) hpos
  have hnonzero (n : Nat) : (n != 0) = true ↔ 1 ≤ n := by
    rw [bne_iff_ne]
    omega
  have hgreatest : 9 ≤ 2 ^ 64 - 1 := by decide
  have hparse := parseText_nat (checkedStep_decimal hgreatest) hnonzero
    (printfUnsigned id.toNat) cell
  rw [if_pos hin, hvalue] at hparse
  exact hparse

-- ==================================================== arguments

variable {env env' : Cli.Env} {argv : List (List UInt8)}
  {name task id : List UInt8} {rest : List (List UInt8)} {request : Message}
  {settings settings' : LoopSettings} {n n' n'' : Network}
  {exit : Cli.Exit} {s₀ c : Coordinator}

theorem Cli.Asks.submission (h : Asks env argv request)
    (command : argv = name :: ascii "submit" :: task :: rest) :
    ∃ options, submitOptions env {} rest = .ok (some options)
      ∧ request = submitRequest task options := by
  cases h with
  | @submit _ _ _ options known parsed =>
      simp only [List.cons.injEq] at command
      obtain ⟨-, -, rfl, rfl⟩ := command
      exact ⟨options, parsed, rfl⟩
  | ping coordinator =>
      exact absurd (List.cons.inj (List.cons.inj command).2).1 (by decide)
  | status parsed coordinator =>
      exact absurd (List.cons.inj (List.cons.inj command).2).1 (by decide)
  | @inspect _ inspection options endpoint coordinator =>
      have hname := (List.cons.inj (List.cons.inj command).2).1
      cases inspection <;> exact absurd hname (by decide)

theorem Cli.Asks.question (h : Asks env argv request)
    (command : argv = name :: ascii "status" :: id :: rest) :
    ∃ jobId, parseJobId id 0 = .ok (true, jobId)
      ∧ request = .jobStatusRequest (.ofNat jobId) := by
  cases h with
  | @status _ _ jobId options endpoint parsed coordinator =>
      simp only [List.cons.injEq] at command
      obtain ⟨-, -, rfl, rfl⟩ := command
      exact ⟨jobId, parsed, rfl⟩
  | ping coordinator =>
      exact absurd (List.cons.inj (List.cons.inj command).2).1 (by decide)
  | submit known parsed =>
      exact absurd (List.cons.inj (List.cons.inj command).2).1 (by decide)
  | @inspect _ inspection options endpoint coordinator =>
      have hname := (List.cons.inj (List.cons.inj command).2).1
      cases inspection <;> exact absurd hname (by decide)

-- ===================================================== commands

/-- A command runs to its end while the coordinator goes from `s₀`, where it
has accepted the connection, to `c`. -/
def Cli.Ran (settings : LoopSettings) (env : Env) (argv : List (List UInt8))
    (s₀ c : Coordinator) (exit : Exit) : Prop :=
  ∃ i socket program socket', Cli.main env argv = .ok program
    ∧ program socket = .done exit socket'
    ∧ Connected settings i s₀ c socket socket'

theorem Cli.Ran.shows (h : Ran settings env argv s₀ c exit)
    (succeeds : exit.status ≠ 1) (long : 3 ≤ argv.length) :
    ∃ request reply, Asks env argv request ∧ Shows env request reply exit
      ∧ s₀.Reachable settings ∧ s₀.Vouches settings c request reply := by
  obtain ⟨i, socket, program, socket', hmain, hends, hconnected⟩ := h
  cases Cli.main_goes hmain with
  | fails complaints =>
      cases hends
      exact absurd rfl succeeds
  | helps alone =>
      rw [alone] at long
      exact absurd long (Nat.lt_irrefl 2)
  | @talks _ request asks encodable talks =>
      obtain ⟨-, reply, shows, vouches⟩ :=
        hconnected.shows asks.kind encodable (talks socket) hends succeeds
      exact ⟨request, reply, asks, shows, hconnected.reachable, vouches⟩

/-- The id that is shown for a submission is that of its job. -/
theorem Cli.Ran.submitted
    (h : Ran settings env (name :: ascii "submit" :: task :: rest) s₀ c
      (success (ascii "job_id=" ++ id ++ ascii "\n"))) :
    ∃ (options : SubmitOptions) (new job : Job),
      submitOptions env {} rest = .ok (some options)
      ∧ id = printfUnsigned new.id.toNat ∧ job ∈ c.store.jobs.jobs
      ∧ new.Evolves job
      ∧ new.Submits ⟨taskType task, .ofNat options.retries,
        options.arguments⟩ := by
  obtain ⟨request, reply, asks, shows, -, vouches⟩ :=
    h.shows (by decide : (0 : Nat) ≠ 1) (Nat.le_add_left 3 _)
  obtain ⟨options, hoptions, rfl⟩ := asks.submission rfl
  cases vouches with
  | tells hasks => cases hasks
  | @submits t t' payload new job earlier step later submits fresh there
      evolves =>
      have hprinted : ascii "job_id=" ++ id ++ ascii "\n"
          = ascii "job_id=" ++ printfUnsigned new.id.toNat ++ ascii "\n" :=
        congrArg Exit.stdout shows
      have hid := List.append_cancel_left (List.append_cancel_right hprinted)
      exact ⟨options, new, job, hoptions, hid, there, evolves, submits⟩

/-- A question about a job that is there is answered for it. -/
theorem Cli.Ran.found {job : Job}
    (h : Ran settings env (name :: ascii "status" :: id :: rest) s₀ c exit)
    (succeeds : exit.status ≠ 1) (there : job ∈ s₀.store.jobs.jobs)
    (valid : job.id ≠ 0) (printed : id = printfUnsigned job.id.toNat) :
    ∃ later, job.Evolves later
      ∧ exit = success (printStatus (jobStatusReply later))
      ∧ ∃ final ∈ c.store.jobs.jobs, later.Evolves final := by
  obtain ⟨request, reply, asks, shows, reachable, vouches⟩ :=
    h.shows succeeds (Nat.le_add_left 3 _)
  obtain ⟨jobId, hparsed, rfl⟩ := asks.question rfl
  have hid : UInt64.ofNat jobId = job.id := by
    rw [printed, parseJobId_printed valid] at hparsed
    cases hparsed
    exact UInt64.ofNat_toNat
  rw [hid] at shows vouches
  cases vouches with
  | @tells t _ _ hasks before after healthy htells =>
      obtain ⟨later, hlater, hevolves⟩ := before.evolves reachable job there
      have hreachable := reachable.run before
      have hfind : schedulerFind t.store.jobs job.id = some later := by
        rw [← hevolves.same.id_eq]
        exact (hreachable.live.rep healthy).find hlater
      obtain rfl : reply = .jobStatusResponse (jobStatusReply later) := by
        rw [show reply = statusReply t.store.jobs job.id from htells,
          statusReply, hfind]
      exact ⟨later, hevolves, shows.2, after.evolves hreachable later hlater⟩

/-- A user of a service whose workers run the executor submits a job, and is
shown an id. Later, after any number of ends, crashes and restarts, they ask
for the status of that id. Unless the question itself fails, they are shown the
status of their job, never that it is unknown; and if it is done, its result is
the answer to the task they have submitted. -/
theorem submitted_job_found {name' : List UInt8} {rest' : List (List UInt8)}
    (h : (Service.up settings n).Reachable Network.Works)
    (submit : Cli.Ran settings env (name :: ascii "submit" :: task :: rest)
      s₀ n.coordinator
      (Cli.success (ascii "job_id=" ++ id ++ ascii "\n")))
    (restarts : Service.Run Network.Works (.up settings n) (.up settings' n'))
    (status : Cli.Ran settings' env'
      (name' :: ascii "status" :: id :: rest') n'.coordinator
      n''.coordinator exit)
    (meanwhile : Relation.ReflTransGen (Network.Works settings') n' n'')
    (succeeds : exit.status ≠ 1) :
    ∃ (options : Cli.SubmitOptions) (job : Job),
      Cli.submitOptions env {} rest = .ok (some options)
      ∧ exit = Cli.success (printStatus (jobStatusReply job))
      ∧ job.taskType.code = Cli.taskType task
      ∧ job.arguments = options.arguments
      ∧ job.maxRetries = .ofNat options.retries
      ∧ (job.state = .done →
        taskAnswer (Cli.taskType task) options.arguments
          = some job.result) := by
  obtain ⟨options, new, old, hoptions, hid, hold, hnew, hsubmits⟩ :=
    submit.submitted
  obtain ⟨kept, hkept, hrestarts⟩ :=
    h.evolves (fun works => works.step) restarts old hold
  have hsame : SameJob new kept := Job.Evolves.same (hnew.trans hrestarts)
  have hlater := h.run restarts
  have hvalid : kept.id ≠ 0 :=
    ((hlater.rep fun works => works.step).inv.valid kept hkept).id_ne
  obtain ⟨job, hjob, hexit, final, hfinal, hend⟩ :=
    status.found succeeds hkept hvalid (hsame.id_eq.symm ▸ hid)
  have hall : SameJob new job := hsame.trans hjob.same
  refine ⟨options, job, hoptions, hexit, ?_, ?_, ?_, fun done => ?_⟩
  · rw [hall.task_eq]
    exact hsubmits.task
  · rw [hall.arguments_eq]
    exact hsubmits.arguments
  · rw [hall.retries_eq]
    exact hsubmits.retries
  · have hanswered := (hlater.run
      (meanwhile.lift (Service.up settings') fun _ _ => .moves)).answered.2
    rw [hend.ended (Job.terminal_iff.mpr (.inl done))] at hfinal
    have hanswer : taskAnswer job.taskType.code job.arguments
        = some job.result := hanswered job hfinal done
    rwa [hall.task_eq, hsubmits.task, hall.arguments_eq, hsubmits.arguments]
      at hanswer

-- ====================================================== example

/-- A visit goes on while the network works. -/
theorem Network.Works.visit {i : Fin maxClients} (works : n.Works settings n')
    (h : s₀.Visit settings i n.coordinator)
    (opened : 0 ≤ (n.coordinator.client i).fd) :
    s₀.Visit settings i n'.coordinator := by
  cases works with
  | coordinator step fifo joins staffed => exact h.step opened step
  | worker parties running step fifo => exact h

theorem Scene.play_opened {scene : Scene} {s s' : Coordinator}
    {w w' : WorkerProcess} (plays : scene.play s w = some (s', w'))
    (opened : 0 ≤ (s.client onlySlot).fd) :
    0 ≤ (s'.client onlySlot).fd := by
  unfold Scene.play at plays
  split at plays
  · obtain ⟨⟨-, -, -, -, keeps⟩, hnext⟩ :=
      Option.ite_none_right_eq_some.mp plays
    cases hnext
    exact (keeps_iff keeps).1
  · obtain ⟨⟨-, keeps⟩, hnext⟩ := Option.ite_none_right_eq_some.mp plays
    cases hnext
    exact (keeps_iff keeps).1
  · obtain ⟨-, hnext⟩ := Option.ite_none_right_eq_some.mp plays
    cases hnext
    exact opened
  · split at plays
    · obtain ⟨-, hnext⟩ := Option.ite_none_right_eq_some.mp plays
      cases hnext
      exact opened
    · cases plays

theorem playAll_visit {scenes : List Scene} {s s' : Coordinator}
    {w w' : WorkerProcess} (plays : playAll s w scenes = some (s', w'))
    (h : s₀.Visit quietSettings onlySlot s)
    (opened : 0 ≤ (s.client onlySlot).fd) :
    s₀.Visit quietSettings onlySlot s' := by
  induction scenes generalizing s w with
  | nil =>
      cases plays
      exact h
  | cons scene scenes ih =>
      unfold playAll at plays
      split at plays
      · rename_i hplay
        exact ih plays ((Scene.play_works hplay).visit h opened)
          (Scene.play_opened hplay opened)
      · cases plays

/-- One connection of a coordinator without workers is served. -/
def serving (settings : LoopSettings) (i : Fin maxClients) :
    Coordinator → List Readiness → Option Coordinator
  | s, [] => some s
  | s, ready :: rest =>
      let served := serveClient settings i ready s.now s.ticked
      if 0 ≤ (s.client i).fd ∧ s.store.failure = .none ∧ 0 ≤ s.now
          ∧ ready.Possible (s.client i) ∧ served.returned = some ()
          ∧ ∀ j, (served.state.client j).workerId = 0 then
        serving settings i served.state rest
      else none

theorem serving_visit {i : Fin maxClients} {readies : List Readiness}
    {s s' : Coordinator} (serves : serving settings i s readies = some s')
    (h : s₀.Visit settings i s) :
    s₀.Visit settings i s'
      ∧ Relation.ReflTransGen (Network.Works settings) ⟨s, []⟩ ⟨s', []⟩ := by
  induction readies generalizing s with
  | nil =>
      cases serves
      exact ⟨h, .refl⟩
  | cons ready readies ih =>
      obtain ⟨⟨opened, healthy, clock, possible, returned, nobody⟩, hrest⟩ :=
        Option.ite_none_right_eq_some.mp serves
      obtain ⟨hvisit, hworks⟩ :=
        ih hrest (h.serve ⟨opened, healthy, clock, possible, returned⟩)
      refine ⟨hvisit, .head (.alone ?_ nobody) hworks⟩
      exact .serve healthy clock possible (Outcome.eq_done returned)

/-- The options of the submission. -/
def fibonacciOptions : List (List UInt8) := [ascii "--args", ascii "10"]

/-- What is shown in the end. -/
def fibonacciStatus : JobStatusPayload :=
  { jobId := 1, state := JobState.done.code, workerId := 1, attempt := 1
    retryCount := 0, maxRetries := 0, failure := 0, result := decimalText 55 }

theorem submitFibonacci_ran :
    Cli.Ran quietSettings calmEnv
      (ascii "faultline" :: ascii "submit" :: ascii "fibonacci"
        :: fibonacciOptions)
      workerFirst fibonacciSubmitted.1
      (Cli.success (ascii "job_id=" ++ ascii "1" ++ ascii "\n")) := by
  have hvisit : workerFirst.Visit quietSettings onlySlot
      fibonacciSubmitted.1 := by
    have hopen : 0 ≤ (workerFirst.client onlySlot).fd
        ∧ (workerFirst.client onlySlot).history = {} := by
      decide +kernel
    obtain ⟨⟨s, w⟩, hplays⟩ :=
      Option.isSome_iff_exists.mp fibonacci_happens.1
    rw [fibonacciSubmitted, hplays]
    exact playAll_visit hplays (.joined hopen.1 hopen.2) hopen.1
  exact ⟨onlySlot, _, Cli.connected_of_streams
    (Message.jobSubmit fibonacciJob).wire (Message.jobSubmitAck 1).wire
    (by decide +kernel) workerFirst_service.answered.1.reachable.coordinator
    hvisit (by decide +kernel)⟩

/-- The question is accepted. -/
def statusAccepted : Coordinator :=
  fibonacciRestarted.put onlySlot (Client.accepted 7 9)

/-- It is answered. -/
def statusReadies : List Readiness :=
  let request := (Message.jobStatusRequest 1).wire
  [arriving (request.take headerSize), arriving (request.drop headerSize),
    writing (Message.jobStatusResponse fibonacciStatus).wire.length]

theorem statusAccepted_works :
    Network.Works restartSettings ⟨fibonacciRestarted, []⟩
      ⟨statusAccepted, []⟩ := by
  have hclient (j : Fin maxClients) :
      fibonacciRestarted.client j = Client.vacant := client_start
  have hvacant : fibonacciRestarted.vacantSlot = some onlySlot := by
    unfold Coordinator.vacantSlot
    simp only [hclient]
    decide +kernel
  have hrun : acceptClient 7 true 9 fibonacciRestarted
      = .done () statusAccepted := by
    unfold acceptClient
    rw [hvacant]
    rfl
  refine .alone (.accept ⟨by decide, fun j => ?_⟩ hrun) fun j => ?_
  · rw [hclient]
    decide
  · unfold statusAccepted
    by_cases hj : j = onlySlot
    · rw [hj, client_put_self]
      rfl
    · rw [client_put_of_ne hj, hclient]
      rfl

theorem submitted_job_found_fibonacci :
    ∃ job : Job,
      printStatus fibonacciStatus = printStatus (jobStatusReply job)
      ∧ job.taskType.code = TaskType.fibonacci.code
      ∧ job.arguments = ascii "10" ∧ job.maxRetries = 0
      ∧ (job.state = .done →
        taskAnswer TaskType.fibonacci.code (ascii "10")
          = some job.result) := by
  have hserves : ((serving restartSettings onlySlot statusAccepted
      statusReadies).map fun s => ((s.client onlySlot).history.arrived,
        (s.client onlySlot).history.handed))
      = some ((Message.jobStatusRequest 1).wire,
        (Message.jobStatusResponse fibonacciStatus).wire) := by
    decide +kernel
  obtain ⟨s, hs, hstreams⟩ := Option.map_eq_some_iff.mp hserves
  have hrestarts := fibonacciRestarted_service.tail (.moves statusAccepted_works)
  have hreachable := (fibonacciSubmitted_service.run hrestarts).answered.1
  have hjoined : statusAccepted.Visit restartSettings onlySlot
      statusAccepted := by
    unfold statusAccepted
    refine .joined ?_ ?_ <;> rw [client_put_self]
    · decide
    · rfl
  obtain ⟨hvisit, hworks⟩ := serving_visit hs hjoined
  have hstatus : Cli.Ran restartSettings calmEnv
      (ascii "faultline" :: ascii "status" :: ascii "1" :: []) statusAccepted
      s (Cli.success (printStatus fibonacciStatus)) :=
    ⟨onlySlot, _, Cli.connected_of_streams _ _ (by decide +kernel)
      hreachable.reachable.coordinator hvisit (Prod.mk.inj hstreams)⟩
  have hservice := fibonacciSubmitted_service
  have hsubmit := submitFibonacci_ran
  generalize fibonacciSubmitted = submitted at hservice hsubmit hrestarts
  generalize statusAccepted = accepted at hrestarts hworks hstatus
  obtain ⟨options, job, hoptions, hexit, htask, harguments, hretries,
    hanswer⟩ := submitted_job_found hservice hsubmit hrestarts hstatus hworks
      (by decide)
  have hparsed : Cli.submitOptions calmEnv {} fibonacciOptions
      = .ok (some { arguments := ascii "10", argumentsSeen := true }) := by
    decide +kernel
  rw [hparsed] at hoptions
  cases hoptions
  exact ⟨job, congrArg Cli.Exit.stdout hexit, htask, harguments, hretries,
    hanswer⟩

end Faultline
