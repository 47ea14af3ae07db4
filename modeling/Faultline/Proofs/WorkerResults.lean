/-
What a worker says about results.

The tasks of a process are ended by the executor (`WorkerProcess.Executes`).
Every message a process sends, whole or in part, is then free of results or
reports the answer to an assignment the process has accepted
(`Message.Computed`); a process that goes on is `Honest`, and one that has
ended has sent part of what an honest one sends (`Executes.spoken`).
-/
import Faultline.Proofs.TaskResults
import Faultline.Proofs.WorkerReports

namespace Faultline

open Lib WorkerProcess

variable {w w₁ w' : WorkerProcess} {status : Option ExitStatus}
  {chunk bytes : List UInt8} {nowMs : Int64} {message : Message}
  {assignment : JobAssignPayload} {outcome : TaskOutcome}
  {P : Message → Prop}

-- ======================================================== tasks

/-- The executor can end the task of an assignment like this. -/
def JobAssignPayload.Ended (assignment : JobAssignPayload)
    (outcome : TaskOutcome) : Prop :=
  ∃ fuel env before, executeTask fuel env assignment before = some outcome

/-- A task that is OK has its answer. -/
theorem JobAssignPayload.Ended.answer (h : assignment.Ended outcome)
    (ok : outcome.status = .ok) :
    taskAnswer assignment.taskType assignment.arguments
      = some outcome.result := by
  obtain ⟨fuel, env, before, hrun⟩ := h
  unfold executeTask at hrun
  cases hexecute : taskExecute fuel env assignment.taskType
      assignment.arguments with
  | ok text =>
      rw [hexecute] at hrun
      cases hrun
      exact taskExecute_ok hexecute
  | error stop =>
      rw [hexecute] at hrun
      cases stop with
      | status status =>
          cases hrun
          obtain rfl : status = .ok := ok
          exact absurd hexecute taskExecute_status_ne
      | fault fault => cases hrun
      | fuel => cases hrun

-- ===================================================== speaking

/-- The messages a program sends, the last perhaps not whole if the process
ends there. -/
def WorkerProcess.Speaks (P : Message → Prop) (w : WorkerProcess)
    (status : Option ExitStatus) (w' : WorkerProcess) : Prop :=
  ∃ messages : List Message, (∀ m ∈ messages, m.Encodable ∧ P m)
    ∧ w'.history.handed <+: w.history.handed ++ encodings messages
    ∧ (status = none →
      w'.history.handed = w.history.handed ++ encodings messages
        ∧ w'.history.sent = w.history.sent ++ messages)

theorem WorkerProcess.Speaks.quiet
    (handed : w'.history.handed = w.history.handed)
    (sent : w'.history.sent = w.history.sent) : w.Speaks P status w' := by
  have hnone : w.history.handed ++ encodings [] = w.history.handed :=
    List.append_nil _
  refine ⟨[], fun m hm => absurd hm List.not_mem_nil, ?_, fun _ => ?_⟩
  · rw [hnone, handed]
  · rw [hnone, List.append_nil]
    exact ⟨handed, sent⟩

theorem WorkerProcess.Speaks.utters (encodes : message.Encodable)
    (allowed : P message)
    (handed : w'.history.handed = w.history.handed ++ message.encoding)
    (sent : w'.history.sent = w.history.sent ++ [message]) :
    w.Speaks P status w' := by
  have hone : encodings [message] = message.encoding :=
    List.append_nil _
  refine ⟨[message], fun m hm => ?_, ?_, fun _ => ?_⟩
  · rw [List.mem_singleton.mp hm]
    exact ⟨encodes, allowed⟩
  · rw [hone, handed]
  · rw [hone]
    exact ⟨handed, sent⟩

/-- Part of a message, and the end. -/
theorem WorkerProcess.Speaks.part (begins : message.Begins bytes)
    (allowed : P message) (ended : status.isSome = true)
    (handed : w'.history.handed = w.history.handed ++ bytes) :
    w.Speaks P status w' := by
  have hended : status ≠ none := by
    rintro rfl
    cases ended
  rcases begins with rfl | ⟨encodes, hpart⟩
  · refine ⟨[], fun m hm => absurd hm List.not_mem_nil, ?_,
      fun hnone => absurd hnone hended⟩
    rw [handed]
    exact List.prefix_refl _
  · refine ⟨[message], fun m hm => ?_, ?_, fun hnone => absurd hnone hended⟩
    · rw [List.mem_singleton.mp hm]
      exact ⟨encodes, allowed⟩
    · rw [handed, show encodings [message] = message.encoding from
        List.append_nil _]
      exact (List.prefix_append_right_inj _).mpr hpart

theorem WorkerProcess.Speaks.trans (first : w.Speaks P none w₁)
    (second : w₁.Speaks P status w') : w.Speaks P status w' := by
  obtain ⟨said, hsaid, -, hwhole⟩ := first
  obtain ⟨more, hmore, hpart, hrest⟩ := second
  obtain ⟨hhanded, hsent⟩ := hwhole rfl
  rw [hhanded, List.append_assoc, ← encodings_append] at hpart
  refine ⟨said ++ more, fun m hm => ?_, hpart, fun hnone => ?_⟩
  · rcases List.mem_append.mp hm with hm | hm
    · exact hsaid m hm
    · exact hmore m hm
  · obtain ⟨hhanded', hsent'⟩ := hrest hnone
    rw [hhanded', hsent', hhanded, hsent, encodings_append,
      List.append_assoc, List.append_assoc]
    exact ⟨rfl, rfl⟩

/-- A message without a result. -/
def Message.Plain (message : Message) : Prop :=
  ∀ payload, message ≠ .jobCompleted payload

theorem plain_notRun {identity : JobIdentity} :
    (taskReport identity notRun).Plain := nofun

theorem reportAndRelease_speaks {answer : SendAll}
    (allowed : P (taskReport w.execution.assignment.identity outcome))
    (h : reportAndRelease outcome answer w = .done status w') :
    w.Speaks P status w' := by
  rcases reportAndRelease_done h with
    ⟨rfl, encodes, rfl⟩ | ⟨hstatus, bytes, begins, rfl⟩
  · exact .utters encodes allowed rfl rfl
  · exact .part begins allowed hstatus rfl

theorem finishTask_speaks {ending : TaskEnd}
    (allowed : P (taskReport w.execution.assignment.identity
      ending.outcome))
    (h : finishTask ending w = .done status w') : w.Speaks P status w' := by
  unfold finishTask at h
  split at h
  · obtain ⟨-, rfl⟩ := pure_done h
    exact .quiet rfl rfl
  rw [bind_modify] at h
  split at h
  · obtain ⟨-, rfl⟩ := pure_done h
    exact .quiet rfl rfl
  · exact @reportAndRelease_speaks (w.setThread false) w' status
      ending.outcome P ending.answer allowed h

theorem beginAssignment_speaks {startup : AssignmentStart}
    (plain : ∀ m : Message, m.Plain → P m)
    (h : beginAssignment assignment startup w = .done status w') :
    w.Speaks P status w' := by
  have hstarted : P (.jobStarted assignment.identity) := plain _ nofun
  have hfailed : P (taskReport assignment.identity notRun) :=
    plain _ plain_notRun
  rcases beginAssignment_done h with
    ⟨rfl, encodes, rfl | ⟨reports, rfl⟩⟩
    | ⟨hstatus, -, -, sent, hhanded, announced⟩
  · exact .utters encodes hstarted rfl rfl
  · have hsays : w.Speaks P none
        ((w.hold assignment).sends (.jobStarted assignment.identity)) :=
      .utters encodes hstarted rfl rfl
    exact hsays.trans (.utters reports hfailed rfl rfl)
  · cases announced with
    | nothing empty => exact .part (.inl empty) hstarted hstatus hhanded
    | started encodes part =>
        exact .part (.inr ⟨encodes, part⟩) hstarted hstatus hhanded
    | failed encodes reports part =>
        refine ⟨[.jobStarted assignment.identity,
          taskReport assignment.identity notRun], fun m hm => ?_, ?_,
          fun hnone => ?_⟩
        · rcases List.mem_cons.mp hm with rfl | hm
          · exact ⟨encodes, hstarted⟩
          · rw [List.mem_singleton.mp hm]
            exact ⟨reports, hfailed⟩
        · rw [hhanded]
          refine (List.prefix_append_right_inj _).mpr ?_
          show sent <+: _ ++ (_ ++ [])
          rw [List.append_nil]
          exact part
        · rw [hnone] at hstatus
          cases hstatus

theorem handleChunk_speaks {startup : AssignmentStart}
    (plain : ∀ m : Message, m.Plain → P m)
    (h : handleChunk chunk startup nowMs w = .done status w') :
    w.Speaks P status w' := by
  unfold handleChunk at h
  simp only [bind_modify, bind_get, inspect_receive] at h
  obtain ⟨u, w₁, hnote, h⟩ := Prog.bind_done h
  have hquiet : w₁.history.handed = w.history.handed
      ∧ w₁.history.sent = w.history.sent := by
    unfold Prog.when at hnote
    split at hnote <;> cases hnote <;> exact ⟨rfl, rfl⟩
  obtain ⟨hhanded, hsent⟩ := hquiet
  cases hinspect : w.inspect chunk with
  | wait =>
      simp only [hinspect] at h
      obtain ⟨-, rfl⟩ := pure_done h
      exact .quiet hhanded hsent
  | need expected =>
      simp only [hinspect, bind_modify] at h
      obtain ⟨-, rfl⟩ := pure_done h
      exact .quiet hhanded hsent
  | reject =>
      simp only [hinspect, bind_modify] at h
      obtain ⟨-, rfl⟩ := pure_done h
      exact .quiet hhanded hsent
  | accept assignment =>
      simp only [hinspect] at h
      exact (Speaks.quiet hhanded hsent).trans
        (beginAssignment_speaks plain h)

theorem heartbeat_speaks {answer : SendAll}
    (plain : ∀ m : Message, m.Plain → P m)
    (h : heartbeat answer w = .done status w') : w.Speaks P status w' := by
  unfold heartbeat at h
  rw [bind_get] at h
  obtain ⟨whole, w₁, hsend, h⟩ := Prog.bind_done h
  have hbeat : P (.heartbeat w.workerId) := plain _ nofun
  rcases sendMessage_done hsend with
    ⟨rfl, encodes, rfl⟩ | ⟨rfl, bytes, begins, rfl⟩
  · rw [if_pos rfl, bind_monotonicMs] at h
    split at h
    · obtain ⟨-, rfl⟩ := pure_done h
      exact .utters encodes hbeat rfl rfl
    · rw [bind_modify] at h
      obtain ⟨-, rfl⟩ := pure_done h
      exact .utters encodes hbeat rfl rfl
  · obtain ⟨rfl, rfl⟩ := pure_done h
    exact .part begins hbeat rfl rfl

theorem waitAndReceive_speaks {input : IterationInput}
    (plain : ∀ m : Message, m.Plain → P m)
    (h : waitAndReceive input w = .done status w') :
    w.Speaks P status w' := by
  unfold waitAndReceive at h
  rw [bind_monotonicMs] at h
  split at h
  · obtain ⟨-, rfl⟩ := pure_done h
    exact .quiet rfl rfl
  by_cases hstop : input.wait = .stop
  · simp only [hstop] at h
    obtain ⟨-, rfl⟩ := pure_done h
    exact .quiet rfl rfl
  by_cases herror : input.wait = .error
  · simp only [herror] at h
    obtain ⟨-, rfl⟩ := pure_done h
    exact .quiet rfl rfl
  simp only [bind_monotonicMs, bind_get] at h
  split at h
  · obtain ⟨-, rfl⟩ := pure_done h
    exact .quiet rfl rfl
  split at h
  · obtain ⟨-, rfl⟩ := pure_done h
    exact .quiet rfl rfl
  have htimed : w.Speaks P none
      ((w.timed (w.ticks + 1) w.nextHeartbeat).timed (w.ticks + 2)
        w.nextHeartbeat) := .quiet rfl rfl
  refine htimed.trans ?_
  split at h
  · exact heartbeat_speaks plain h
  unfold receiveAssignment at h
  split at h
  · obtain ⟨-, rfl⟩ := pure_done h
    exact .quiet rfl rfl
  cases hrecv : input.recv with
  | data chunk =>
      simp only [hrecv] at h
      exact handleChunk_speaks plain h
  | again =>
      simp only [hrecv] at h
      obtain ⟨-, rfl⟩ := pure_done h
      exact .quiet rfl rfl
  | eof =>
      simp only [hrecv] at h
      obtain ⟨-, rfl⟩ := pure_done h
      exact .quiet rfl rfl
  | failed =>
      simp only [hrecv] at h
      obtain ⟨-, rfl⟩ := pure_done h
      exact .quiet rfl rfl

/-- A pass sends plain messages, and the report of a task that has ended. -/
theorem workerIteration_speaks {input : IterationInput}
    (plain : ∀ m : Message, m.Plain → P m)
    (report : w.execution.threadCreated = true →
      ∀ ending ∈ input.ending,
        P (taskReport w.execution.assignment.identity ending.outcome))
    (h : workerIteration input w = .done status w') :
    w.Speaks P status w' := by
  unfold workerIteration at h
  rw [bind_get] at h
  by_cases hended : w.execution.threadCreated = true ∧ input.ending.isSome
  · obtain ⟨hthread, hsome⟩ := hended
    obtain ⟨ending, hending⟩ := Option.isSome_iff_exists.mp hsome
    simp only [hthread, hending] at h
    obtain ⟨finished, w₁, hfinish, h⟩ := Prog.bind_done h
    have hreport := finishTask_speaks
      (report hthread ending (Option.mem_def.mpr hending)) hfinish
    cases finished with
    | none => exact hreport.trans (waitAndReceive_speaks plain h)
    | some exit =>
        obtain ⟨rfl, rfl⟩ := pure_done h
        exact hreport
  · have hwait : waitAndReceive input w = .done status w' := by
      cases hthread : w.execution.threadCreated <;>
        cases hending : input.ending <;> simp_all
    exact waitAndReceive_speaks plain hwait

-- ====================================================== honesty

/-- A result is the answer to one of these assignments. -/
def Message.Computed (assignments : List JobAssignPayload)
    (message : Message) : Prop :=
  ∀ payload, message = .jobCompleted payload →
    ∃ assignment ∈ assignments, assignment.identity = payload.identity
      ∧ taskAnswer assignment.taskType assignment.arguments
        = some payload.result

theorem Message.Plain.computed {assignments : List JobAssignPayload}
    (h : message.Plain) : message.Computed assignments :=
  fun payload hmessage => absurd hmessage (h payload)

theorem Message.Computed.mono {assignments more : List JobAssignPayload}
    (h : message.Computed assignments) (sub : assignments ⊆ more) :
    message.Computed more := by
  intro payload hmessage
  obtain ⟨assignment, hmem, hidentity, hanswer⟩ := h payload hmessage
  exact ⟨assignment, sub hmem, hidentity, hanswer⟩

/-- A process that goes on has reported answers, and runs a task it was
given. -/
structure WorkerProcess.Honest (w : WorkerProcess) : Prop where
  sent : ∀ m ∈ w.history.sent, m.Computed w.history.accepted
  task : w.execution.threadCreated = true →
    w.execution.assignment ∈ w.history.accepted

/-- What a process does next, if the executor ends its tasks. -/
inductive WorkerProcess.Executes (w : WorkerProcess) :
    Option ExitStatus → WorkerProcess → Prop where
  | registration {status : Option ExitStatus} {w' : WorkerProcess}
      (phase : w.phase ≠ .working) (step : w.Step status w') :
      Executes w status w'
  | iterate {input : IterationInput} {status : Option ExitStatus}
      {w' : WorkerProcess} (phase : w.phase = .working)
      (possible : w.CanReceive input.recv)
      (executed : ∀ ending ∈ input.ending,
        w.execution.assignment.Ended ending.outcome)
      (run : workerIteration input w = .done status w') :
      Executes w status w'

theorem WorkerProcess.Executes.step (h : w.Executes status w') :
    w.Step status w' := by
  cases h with
  | registration phase step => exact step
  | iterate phase possible executed run => exact .iterate phase possible run

/-- Before the loop a process sends its registration. -/
theorem WorkerProcess.Step.speaks (h : w.Step status w')
    (phase : w.phase ≠ .working) : w.Speaks Message.Plain status w' := by
  cases h with
  | register connected run =>
      rcases sendRegistration_done run with
        ⟨rfl, encodes, rfl⟩ | ⟨hstatus, bytes, begins, rfl⟩
      · exact .utters encodes nofun rfl rfl
      · exact .part begins nofun hstatus rfl
  | acknowledge registering possible run =>
      rcases receiveRegistrationAck_done possible run with
        ⟨rfl, acks⟩ | ⟨hstatus, -, handed, -⟩
      · cases acks <;> exact .quiet rfl rfl
      · have hnothing : (Message.workerRegister 0).Begins [] := .inl rfl
        exact .part hnothing nofun hstatus
          (handed.trans (List.append_nil _).symm)
  | iterate working possible run => exact absurd working phase

theorem WorkerProcess.Move.accepted (h : w.Move w') :
    w.history.accepted ⊆ w'.history.accepted := by
  cases h with
  | starts possible received encodes => exact List.subset_append_left _ _
  | startFails possible received encodes reports =>
      exact List.subset_append_left _ _
  | _ => exact List.Subset.refl _

/-- The task that runs was given. -/
theorem WorkerProcess.Move.task (h : w.Move w')
    (before : w.execution.threadCreated = true →
      w.execution.assignment ∈ w.history.accepted)
    (reporting : w.Reporting) :
    w'.execution.threadCreated = true →
      w'.execution.assignment ∈ w'.history.accepted := by
  cases h with
  | reports thread encodes => exact nofun
  | starts possible received encodes =>
      exact fun _ => List.mem_append_right _ List.mem_cons_self
  | startFails possible received encodes reports =>
      exact fun thread =>
        absurd (accepts_idle received).1 (reporting.thread thread)
  | _ => exact before

theorem WorkerProcess.moves_task (h : Relation.ReflTransGen Move w w')
    (before : w.execution.threadCreated = true →
      w.execution.assignment ∈ w.history.accepted)
    (conforming : w.Conforming) (working : w.phase = .working) :
    w.history.accepted ⊆ w'.history.accepted
      ∧ (w'.execution.threadCreated = true →
        w'.execution.assignment ∈ w'.history.accepted) := by
  induction h with
  | refl => exact ⟨List.Subset.refl _, before⟩
  | tail moves last ih =>
      exact ⟨List.Subset.trans ih.1 last.accepted,
        last.task ih.2 (conforming.moves moves working).reporting⟩

/-- What a process says next, whole or in part, is the truth about what it had
accepted before. -/
theorem WorkerProcess.Executes.speaks (h : w.Executes status w')
    (honest : w.Honest) :
    w.Speaks (Message.Computed w.history.accepted) status w' := by
  cases h with
  | registration phase step =>
      obtain ⟨messages, hall, hrest⟩ := step.speaks phase
      exact ⟨messages, fun m hm => ⟨(hall m hm).1, (hall m hm).2.computed⟩,
        hrest⟩
  | @iterate input _ _ phase possible executed run =>
      refine workerIteration_speaks (fun m hm => hm.computed)
        (fun thread ending hending payload hreport => ?_) run
      refine ⟨_, honest.task thread, ?_⟩
      have hended := executed ending hending
      unfold taskReport at hreport
      split at hreport
      · rename_i hok
        cases hreport
        exact ⟨rfl, hended.answer (by simpa using hok)⟩
      · cases hreport

/-- A process that goes on stays honest. -/
theorem WorkerProcess.Executes.honest (h : w.Executes none w')
    (honest : w.Honest) (conforming : w.Conforming) : w'.Honest := by
  have hkept : w.history.accepted ⊆ w'.history.accepted
      ∧ (w'.execution.threadCreated = true →
        w'.execution.assignment ∈ w'.history.accepted) := by
    cases h with
    | registration phase step =>
        cases step with
        | register connected run =>
            rcases sendRegistration_done run with
              ⟨-, encodes, rfl⟩ | ⟨hstatus, -⟩
            · exact ⟨List.Subset.refl _, honest.task⟩
            · cases hstatus
        | acknowledge registering possible run =>
            rcases receiveRegistrationAck_done possible run with
              ⟨-, acks⟩ | ⟨hstatus, -⟩
            · cases acks <;> exact ⟨List.Subset.refl _, honest.task⟩
            · cases hstatus
        | iterate working possible run => exact absurd working phase
    | iterate phase possible executed run =>
        cases workerIteration_done possible run with
        | on moves => exact moves_task moves honest.task conforming phase
  obtain ⟨messages, hall, -, hwhole⟩ := h.speaks honest
  refine ⟨fun m hm => ?_, hkept.2⟩
  rw [(hwhole rfl).2] at hm
  rcases List.mem_append.mp hm with hm | hm
  · exact (honest.sent m hm).mono hkept.1
  · exact (hall m hm).2.mono hkept.1

/-- All that a process has sent when it ends, or would have sent. -/
theorem WorkerProcess.Executes.spoken (h : w.Executes status w')
    (honest : w.Honest) (sending : w.Sending) :
    ∃ messages : List Message,
      (∀ m ∈ messages, m.Encodable ∧ m.Computed w.history.accepted)
      ∧ w'.history.handed <+: encodings messages := by
  obtain ⟨messages, hall, hhanded, -⟩ := h.speaks honest
  refine ⟨w.history.sent ++ messages, fun m hm => ?_, ?_⟩
  · rcases List.mem_append.mp hm with hm | hm
    · exact ⟨sending.encodable m hm, honest.sent m hm⟩
    · exact hall m hm
  · rw [encodings_append, ← sending.handed]
    exact hhanded

theorem WorkerProcess.honest_start (intervalMs : Int64)
    (clock : Nat → Int64) : (start intervalMs clock).Honest :=
  ⟨fun _ hm => absurd hm List.not_mem_nil, nofun⟩

end Faultline
