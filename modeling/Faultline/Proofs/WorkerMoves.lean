/-
What one pass of the worker's loop can do.

A pass reports a task that has ended, if there is one, and then does nothing,
sends a heartbeat or takes a step of the receiver, reading the clock in
between. `Move` lists what a process that goes on can do, `Quits` how it can
end, and `Within` bounds what it may still have sent; all are read off the
program once (`workerIteration_done`).
-/
import Faultline.Worker.Loop
import Faultline.Proofs.OutputFraming

namespace Faultline

open Lib WorkerProcess

variable {w w₁ w' : WorkerProcess} {status : Option ExitStatus}
  {chunk bytes : List UInt8} {nowMs : Int64} {message : Message}
  {assignment : JobAssignPayload}

/-- The encoder takes the message. -/
def Message.Encodable (message : Message) : Prop :=
  encodeOutput message = .ok message.encoding

/-- Bytes that went out of a message that did not go out whole. -/
def Message.Begins (message : Message) (bytes : List UInt8) : Prop :=
  bytes = [] ∨ message.Encodable ∧ bytes <+: message.encoding

namespace WorkerProcess

@[simp] theorem phase_handOver : (w.handOver bytes).phase = w.phase := rfl

@[simp] theorem phase_noteSent : (w.noteSent message).phase = w.phase := rfl

@[simp] theorem phase_setThread {created : Bool} :
    (w.setThread created).phase = w.phase := rfl

@[simp] theorem phase_release : w.release.phase = w.phase := rfl

@[simp] theorem phase_resetInput : w.resetInput.phase = w.phase := rfl

@[simp] theorem phase_hold : (w.hold assignment).phase = w.phase := rfl

@[simp] theorem phase_noteBusy : w.noteBusy.phase = w.phase := rfl

@[simp] theorem phase_receive : (w.receive chunk nowMs).phase = w.phase := rfl

/-- What `recv` can answer to a request for the bytes still expected. -/
def CanReceive (w : WorkerProcess) : RecvReply → Prop
  | .data chunk => chunk ≠ [] ∧ chunk.length ≤ w.expected - w.input.length
  | _ => True

/-- The clock was read, and perhaps a heartbeat scheduled. -/
def timed (w : WorkerProcess) (ticks : Nat) (nextHeartbeat : Int64) :
    WorkerProcess :=
  { w with ticks, nextHeartbeat }

/-- A message was sent. -/
def sends (w : WorkerProcess) (message : Message) : WorkerProcess :=
  (w.handOver message.encoding).noteSent message

/-- What the receiver makes of more bytes. -/
def inspect (w : WorkerProcess) (chunk : List UInt8) : AssignmentStep :=
  inspectAssignment w.workerId (w.held != 0) w.expected (w.input ++ chunk)

/-- Whether the bytes complete a frame. -/
def completes (w : WorkerProcess) (chunk : List UInt8) : Bool :=
  prefixMatches (w.input ++ chunk) && w.expected ≤ (w.input ++ chunk).length
    && (w.input ++ chunk).length != headerSize

/-- A complete frame has arrived. -/
def complete (w : WorkerProcess) (chunk : List UInt8) (nowMs : Int64) :
    WorkerProcess :=
  (w.receive chunk nowMs).noteBusy

/-- The report of a task that never ran. -/
def notRun : TaskOutcome := { status := .systemError, result := [] }

/-- The receiver is where it was. -/
structure SameInput (w w' : WorkerProcess) : Prop where
  workerId : w'.workerId = w.workerId
  input : w'.input = w.input
  expected : w'.expected = w.expected
  arrived : w'.history.arrived = w.history.arrived
  busy : w'.history.busy = w.history.busy
  accepted : w'.history.accepted = w.history.accepted
  rejected : w'.history.rejected = w.history.rejected

/-- One thing a process does, going on. -/
inductive Move (w : WorkerProcess) : WorkerProcess → Prop where
  | idle {ticks : Nat} {next : Int64} : Move w (w.timed ticks next)
  | beats (encodes : (Message.heartbeat w.workerId).Encodable) :
      Move w (w.sends (.heartbeat w.workerId))
  | reports {outcome : TaskOutcome}
      (thread : w.execution.threadCreated = true)
      (encodes : (taskReport w.execution.assignment.identity
        outcome).Encodable) :
      Move w ((w.setThread false).sends
        (taskReport w.execution.assignment.identity outcome)).release
  | waits {chunk : List UInt8} {nowMs : Int64}
      (possible : w.CanReceive (.data chunk))
      (received : w.inspect chunk = .wait) :
      Move w (w.receive chunk nowMs)
  | asks {chunk : List UInt8} {nowMs : Int64} {expected : Nat}
      (possible : w.CanReceive (.data chunk))
      (received : w.inspect chunk = .need expected) :
      Move w { w.receive chunk nowMs with expected }
  | starts {chunk : List UInt8} {nowMs : Int64}
      {assignment : JobAssignPayload}
      (possible : w.CanReceive (.data chunk))
      (received : w.inspect chunk = .accept assignment)
      (encodes : (Message.jobStarted assignment.identity).Encodable) :
      Move w ((((w.complete chunk nowMs).hold assignment).sends
        (.jobStarted assignment.identity)).setThread true).resetInput
  | startFails {chunk : List UInt8} {nowMs : Int64}
      {assignment : JobAssignPayload}
      (possible : w.CanReceive (.data chunk))
      (received : w.inspect chunk = .accept assignment)
      (encodes : (Message.jobStarted assignment.identity).Encodable)
      (reports : (taskReport assignment.identity notRun).Encodable) :
      Move w (((((w.complete chunk nowMs).hold assignment).sends
        (.jobStarted assignment.identity)).sends
          (taskReport assignment.identity notRun)).release).resetInput

/-- The last thing a process does. -/
inductive Quits (w : WorkerProcess) : WorkerProcess → Prop where
  | stops {w' : WorkerProcess} (same : w.SameInput w') : Quits w w'
  | rejects {chunk : List UInt8} {nowMs : Int64}
      (possible : w.CanReceive (.data chunk))
      (received : w.inspect chunk = .reject)
      (early : w.completes chunk = false) :
      Quits w (w.receive chunk nowMs).noteReject
  | refuses {chunk : List UInt8} {nowMs : Int64}
      (possible : w.CanReceive (.data chunk))
      (received : w.inspect chunk = .reject)
      (late : w.completes chunk = true) :
      Quits w (w.complete chunk nowMs).noteReject
  | holds {chunk : List UInt8} {nowMs : Int64}
      {assignment : JobAssignPayload} {w' : WorkerProcess}
      (possible : w.CanReceive (.data chunk))
      (received : w.inspect chunk = .accept assignment)
      (same : ((w.complete chunk nowMs).hold assignment).SameInput w') :
      Quits w w'

/-- What has gone out is part of what goes out if the process goes on. -/
def Within (w w' : WorkerProcess) : Prop :=
  ∃ w₂, Relation.ReflTransGen Move w w₂
    ∧ w'.history.handed <+: w₂.history.handed
    ∧ w₂.history.received <+: w'.history.received

/-- How a program of the process ends: it goes on after some moves, or
quits after them. -/
inductive Runs (w : WorkerProcess) : Option ExitStatus → WorkerProcess → Prop
    where
  | on {w' : WorkerProcess} (moves : Relation.ReflTransGen Move w w') :
      Runs w none w'
  | out {w₁ w' : WorkerProcess} {status : ExitStatus}
      (moves : Relation.ReflTransGen Move w w₁) (quits : w₁.Quits w')
      (within : w₁.Within w') : Runs w (some status) w'

theorem Runs.after (first : Relation.ReflTransGen Move w w₁)
    (h : w₁.Runs status w') : w.Runs status w' := by
  cases h with
  | on moves => exact .on (first.trans moves)
  | out moves quits within => exact .out (first.trans moves) quits within

/-- Nothing has gone out. -/
theorem Within.quiet (handed : w'.history.handed = w.history.handed)
    (received : w.history.received <+: w'.history.received) : w.Within w' :=
  ⟨w, .refl, handed ▸ List.prefix_refl _, received⟩

theorem Within.move (move : w.Move w₁)
    (handed : w'.history.handed <+: w₁.history.handed)
    (received : w₁.history.received <+: w'.history.received) : w.Within w' :=
  ⟨w₁, .single move, handed, received⟩

/-- Part of a message has gone out that a move sends. -/
theorem Within.begins (begins : message.Begins bytes)
    (move : message.Encodable → w.Move w₁)
    (handed : w₁.history.handed = w.history.handed ++ message.encoding)
    (received : w₁.history.received = w.history.received)
    (same : w'.history.received = w.history.received)
    (part : w'.history.handed = w.history.handed ++ bytes) :
    w.Within w' := by
  rcases begins with rfl | ⟨encodes, hpart⟩
  · exact .quiet (part.trans (List.append_nil _)) (same ▸ List.prefix_refl _)
  · refine .move (move encodes) ?_ (by rw [received, same])
    rw [part, handed]
    exact (List.prefix_append_right_inj _).mpr hpart

-- ===================================================== programs

@[simp] theorem bind_get {α : Type} {f : WorkerProcess → Prog WorkerProcess α} :
    (get >>= f) w = f w w := rfl

@[simp] theorem bind_modify {α : Type}
    {update : WorkerProcess → WorkerProcess}
    {f : Unit → Prog WorkerProcess α} :
    (modify update >>= f) w = f () (update w) := rfl

@[simp] theorem bind_monotonicMs {α : Type}
    {f : Int64 → Prog WorkerProcess α} :
    (monotonicMs >>= f) w
      = f (w.clock w.ticks) (w.timed (w.ticks + 1) w.nextHeartbeat) := rfl

theorem pure_done {α : Type} {a b : α}
    (h : (pure a : Prog WorkerProcess α) w = .done b w') : a = b ∧ w = w' := by
  cases h
  exact ⟨rfl, rfl⟩

theorem SameInput.refl : w.SameInput w := ⟨rfl, rfl, rfl, rfl, rfl, rfl, rfl⟩

end WorkerProcess

/-- A message goes out whole, or some of its bytes do. -/
theorem sendMessage_done {answer : SendAll} {whole : Bool}
    (h : sendMessage message answer w = .done whole w') :
    (whole = true ∧ message.Encodable ∧ w' = w.sends message)
    ∨ (whole = false
      ∧ ∃ bytes, message.Begins bytes ∧ w' = w.handOver bytes) := by
  unfold sendMessage at h
  cases hencode : encodeOutput message with
  | error e =>
      simp only [hencode] at h
      obtain ⟨rfl, rfl⟩ := pure_done h
      exact .inr ⟨rfl, [], .inl rfl, by simp [handOver]⟩
  | ok wire =>
      have hwire : message.encoding = wire := by
        simp [Message.encoding, hencode]
      have hencodes : message.Encodable := by
        rw [Message.Encodable, hencode, hwire]
      cases answer with
      | failed count =>
          simp only [hencode, bind_modify] at h
          obtain ⟨rfl, rfl⟩ := pure_done h
          exact .inr ⟨rfl, _,
            .inr ⟨hencodes, hwire ▸ List.take_prefix count wire⟩, rfl⟩
      | sent =>
          simp only [hencode, bind_modify] at h
          obtain ⟨rfl, rfl⟩ := pure_done h
          exact .inl ⟨rfl, hencodes, by rw [sends, hwire]⟩

/-- Bytes that go out leave the receiver alone. -/
theorem WorkerProcess.SameInput.handOver (h : w.SameInput w₁) :
    w.SameInput (w₁.handOver bytes) :=
  ⟨h.workerId, h.input, h.expected, h.arrived, h.busy, h.accepted, h.rejected⟩

theorem WorkerProcess.SameInput.sends (h : w.SameInput w₁) :
    w.SameInput (w₁.sends message) :=
  ⟨h.workerId, h.input, h.expected, h.arrived, h.busy, h.accepted, h.rejected⟩

theorem WorkerProcess.SameInput.setThread {created : Bool}
    (h : w.SameInput w₁) : w.SameInput (w₁.setThread created) :=
  ⟨h.workerId, h.input, h.expected, h.arrived, h.busy, h.accepted, h.rejected⟩

theorem WorkerProcess.SameInput.release (h : w.SameInput w₁) :
    w.SameInput w₁.release :=
  ⟨h.workerId, h.input, h.expected, h.arrived, h.busy, h.accepted, h.rejected⟩

theorem WorkerProcess.CanReceive.same {reply : RecvReply}
    (h : w.CanReceive reply) (hsame : w.SameInput w') :
    w'.CanReceive reply := by
  cases reply with
  | data chunk =>
      simp only [CanReceive, hsame.input, hsame.expected]
      exact h
  | _ => trivial

/-- A process that stops where it is. -/
theorem WorkerProcess.Runs.stop {exit : ExitStatus} (h : w.SameInput w')
    (within : w.Within w') : w.Runs (some exit) w' :=
  .out .refl (.stops h) within

/-- And has sent nothing. -/
theorem WorkerProcess.Runs.rest {exit : ExitStatus} (h : w.SameInput w')
    (handed : w'.history.handed = w.history.handed)
    (received : w'.history.received = w.history.received) :
    w.Runs (some exit) w' :=
  .stop h (.quiet handed (received ▸ List.prefix_refl _))

/-- The report of the job held goes out and the job is given up, or the
process ends. -/
theorem reportAndRelease_done {outcome : TaskOutcome} {answer : SendAll}
    (h : reportAndRelease outcome answer w = .done status w') :
    (status = none
      ∧ (taskReport w.execution.assignment.identity outcome).Encodable
      ∧ w' = (w.sends
        (taskReport w.execution.assignment.identity outcome)).release)
    ∨ (status.isSome = true ∧ ∃ bytes,
      (taskReport w.execution.assignment.identity outcome).Begins bytes
        ∧ w' = w.handOver bytes) := by
  obtain ⟨whole, w₁, hsend, h⟩ := Prog.bind_done h
  rcases sendMessage_done hsend with
    ⟨rfl, encodes, rfl⟩ | ⟨rfl, bytes, begins, rfl⟩
  · simp only [if_true, bind_modify] at h
    obtain ⟨rfl, rfl⟩ := pure_done h
    exact .inl ⟨rfl, encodes, rfl⟩
  · obtain ⟨rfl, rfl⟩ := pure_done h
    exact .inr ⟨rfl, bytes, begins, rfl⟩

theorem finishTask_done {ending : TaskEnd}
    (thread : w.execution.threadCreated = true)
    (h : finishTask ending w = .done status w') :
    (status = none ∧ w.Move w' ∧ w.SameInput w')
    ∨ (status.isSome = true ∧ w.SameInput w' ∧ w.Within w') := by
  unfold finishTask at h
  split at h
  · obtain ⟨rfl, rfl⟩ := pure_done h
    exact .inr ⟨rfl, .refl, .quiet rfl (List.prefix_refl _)⟩
  rw [bind_modify] at h
  split at h
  · obtain ⟨rfl, rfl⟩ := pure_done h
    exact .inr ⟨rfl, SameInput.refl.setThread,
      .quiet rfl (List.prefix_refl _)⟩
  rcases reportAndRelease_done h with
    ⟨rfl, encodes, rfl⟩ | ⟨hstatus, bytes, begins, rfl⟩
  · exact .inl ⟨rfl, .reports thread encodes, ⟨rfl, rfl, rfl, rfl, rfl, rfl, rfl⟩⟩
  · exact .inr ⟨hstatus, SameInput.refl.setThread.handOver,
      .begins begins (Move.reports thread) rfl rfl rfl rfl⟩

/-- What can have gone out of the messages about a new assignment. -/
inductive WorkerProcess.Announced (assignment : JobAssignPayload)
    (sent : List UInt8) : Prop where
  | nothing (empty : sent = [])
  | started (encodes : (Message.jobStarted assignment.identity).Encodable)
      (part : sent <+: (Message.jobStarted assignment.identity).encoding)
  | failed (encodes : (Message.jobStarted assignment.identity).Encodable)
      (reports : (taskReport assignment.identity notRun).Encodable)
      (part : sent <+: (Message.jobStarted assignment.identity).encoding
        ++ (taskReport assignment.identity notRun).encoding)

/-- An accepted assignment is announced and started; the process goes on
where it would go on after a move, or ends holding the assignment. -/
theorem beginAssignment_done {startup : AssignmentStart}
    (h : beginAssignment assignment startup w = .done status w') :
    (status = none
      ∧ (Message.jobStarted assignment.identity).Encodable
      ∧ (w' = (((w.hold assignment).sends
            (.jobStarted assignment.identity)).setThread true).resetInput
        ∨ (taskReport assignment.identity notRun).Encodable
          ∧ w' = ((((w.hold assignment).sends
              (.jobStarted assignment.identity)).sends
                (taskReport assignment.identity notRun)).release).resetInput))
    ∨ (status.isSome = true ∧ (w.hold assignment).SameInput w'
      ∧ w'.history.received = w.history.received
      ∧ ∃ sent, w'.history.handed = w.history.handed ++ sent
        ∧ Announced assignment sent) := by
  unfold beginAssignment at h
  rw [bind_modify] at h
  split at h
  · obtain ⟨rfl, rfl⟩ := pure_done h
    exact .inr ⟨rfl, .refl, rfl, [], (List.append_nil _).symm, .nothing rfl⟩
  obtain ⟨whole, w₁, hsend, h⟩ := Prog.bind_done h
  rcases sendMessage_done hsend with
    ⟨rfl, encodes, rfl⟩ | ⟨rfl, bytes, begins, rfl⟩
  · rw [if_pos rfl] at h
    cases hstart : startup.start with
    | startedFailed =>
        simp only [hstart, bind_modify] at h
        obtain ⟨rfl, rfl⟩ := pure_done h
        exact .inr ⟨rfl, SameInput.refl.sends.setThread, rfl, _, rfl,
          .started encodes (List.prefix_refl _)⟩
    | started =>
        simp only [hstart, bind_modify] at h
        obtain ⟨rfl, rfl⟩ := pure_done h
        exact .inl ⟨rfl, encodes, .inl rfl⟩
    | failed =>
        simp only [hstart] at h
        obtain ⟨reported, w₂, hreport, h⟩ := Prog.bind_done h
        rcases reportAndRelease_done hreport with
          ⟨rfl, reports, rfl⟩ | ⟨hstatus, bytes, begins, rfl⟩
        · simp only [bind_modify] at h
          obtain ⟨rfl, rfl⟩ := pure_done h
          exact .inl ⟨rfl, encodes, .inr ⟨reports, rfl⟩⟩
        · obtain ⟨exit, rfl⟩ := Option.isSome_iff_exists.mp hstatus
          obtain ⟨rfl, rfl⟩ := pure_done h
          refine .inr ⟨rfl, SameInput.refl.sends.handOver, rfl, _,
            List.append_assoc _ _ _, ?_⟩
          rcases begins with rfl | ⟨reports, hpart⟩
          · exact .started encodes (List.append_nil _ ▸ List.prefix_refl _)
          · exact .failed encodes reports
              ((List.prefix_append_right_inj _).mpr hpart)
  · rw [if_neg (by decide)] at h
    obtain ⟨rfl, rfl⟩ := pure_done h
    refine .inr ⟨rfl, SameInput.refl.handOver, rfl, bytes, rfl, ?_⟩
    rcases begins with rfl | ⟨encodes, hpart⟩
    · exact .nothing rfl
    · exact .started encodes hpart

/-- A complete frame is decoded. -/
theorem WorkerProcess.inspect_complete (h : w.completes chunk = true) :
    w.inspect chunk
      = (acceptAssignment w.workerId (w.held != 0) (w.input ++ chunk)).elim
        .reject .accept := by
  simp only [completes, Bool.and_eq_true, decide_eq_true_eq, bne_iff_ne,
    ne_eq] at h
  unfold inspect inspectAssignment
  rw [h.1.1, if_neg (by decide), if_neg (Nat.not_lt.mpr h.1.2), if_neg h.2]
  cases acceptAssignment w.workerId (w.held != 0) (w.input ++ chunk) <;> rfl

/-- Nothing is accepted before. -/
theorem WorkerProcess.completes_of_accept
    (h : w.inspect chunk = .accept assignment) :
    w.completes chunk = true := by
  unfold inspect inspectAssignment at h
  split at h
  · cases h
  split at h
  · cases h
  split at h
  · split at h
    · cases h
    · split at h <;> cases h
  · rename_i hmatch hfull hlong
    simp only [Bool.not_eq_true, Bool.not_eq_false'] at hmatch
    simp only [completes, hmatch, hlong, Bool.true_and, Bool.and_eq_true,
      decide_eq_true_eq, bne_iff_ne, ne_eq, not_false_eq_true, and_true]
    omega

/-- The loop looks at what it has received. -/
theorem WorkerProcess.inspect_receive :
    inspectAssignment (w.receive chunk nowMs).workerId
      ((w.receive chunk nowMs).held != 0) (w.receive chunk nowMs).expected
      (w.receive chunk nowMs).input = w.inspect chunk := rfl

/-- What has gone out about a new assignment goes out when it is started, or
fails to start. -/
theorem WorkerProcess.Announced.within {sent : List UInt8}
    (h : Announced assignment sent) (possible : w.CanReceive (.data chunk))
    (received : w.inspect chunk = .accept assignment)
    (all : w'.history.received = w.history.received ++ chunk)
    (handed : w'.history.handed = w.history.handed ++ sent) :
    w.Within w' := by
  cases h with
  | nothing empty =>
      rw [empty, List.append_nil] at handed
      exact .quiet handed (all ▸ List.prefix_append _ _)
  | started encodes part =>
      refine .move (@Move.starts _ _ 0 _ possible received encodes) ?_
        (all ▸ List.prefix_refl _)
      rw [handed]
      exact (List.prefix_append_right_inj _).mpr part
  | failed encodes reports part =>
      refine .move (@Move.startFails _ _ 0 _ possible received encodes reports)
        ?_ (all ▸ List.prefix_refl _)
      show _ <+: (w.history.handed
        ++ (Message.jobStarted assignment.identity).encoding)
        ++ (taskReport assignment.identity notRun).encoding
      rw [handed, List.append_assoc]
      exact (List.prefix_append_right_inj _).mpr part

/-- What bytes do to the receiver. -/
theorem handleChunk_done {startup : AssignmentStart}
    (possible : w.CanReceive (.data chunk))
    (h : handleChunk chunk startup nowMs w = .done status w') :
    w.Runs status w' := by
  unfold handleChunk at h
  simp only [bind_modify, bind_get, inspect_receive] at h
  obtain ⟨u, w₁, hnote, h⟩ := Prog.bind_done h
  have hw₁ : w₁ = if w.completes chunk then w.complete chunk nowMs
      else w.receive chunk nowMs := by
    change Prog.when (w.completes chunk) _ _ = _ at hnote
    unfold Prog.when at hnote
    split at hnote <;> rename_i hcond <;> cases hnote
    · exact (if_pos hcond).symm
    · exact (if_neg hcond).symm
  cases hcompletes : w.completes chunk with
  | true =>
      rw [hcompletes, if_pos rfl] at hw₁
      have hinspect := inspect_complete hcompletes
      cases haccept : acceptAssignment w.workerId (w.held != 0)
          (w.input ++ chunk) with
      | none =>
          rw [haccept, Option.elim_none] at hinspect
          simp only [hinspect, bind_modify] at h
          obtain ⟨rfl, rfl⟩ := pure_done h
          exact hw₁ ▸ .out .refl (.refuses possible hinspect hcompletes)
            (.quiet rfl (List.prefix_append _ _))
      | some assignment =>
          rw [haccept, Option.elim_some] at hinspect
          simp only [hinspect] at h
          subst hw₁
          rcases beginAssignment_done h with
            ⟨rfl, encodes, rfl | ⟨reports, rfl⟩⟩
            | ⟨hstatus, hsame, hall, sent, hhanded, announced⟩
          · exact .on (.single (.starts possible hinspect encodes))
          · exact .on (.single (.startFails possible hinspect encodes reports))
          · obtain ⟨exit, rfl⟩ := Option.isSome_iff_exists.mp hstatus
            exact .out .refl (.holds possible hinspect hsame)
              (announced.within possible hinspect hall hhanded)
  | false =>
      rw [hcompletes, if_neg (by decide)] at hw₁
      cases hinspect : w.inspect chunk with
      | wait =>
          simp only [hinspect] at h
          obtain ⟨rfl, rfl⟩ := pure_done h
          exact hw₁ ▸ .on (.single (.waits possible hinspect))
      | need expected =>
          simp only [hinspect, bind_modify] at h
          obtain ⟨rfl, rfl⟩ := pure_done h
          exact hw₁ ▸ .on (.single (.asks possible hinspect))
      | reject =>
          simp only [hinspect, bind_modify] at h
          obtain ⟨rfl, rfl⟩ := pure_done h
          exact hw₁ ▸ .out .refl (.rejects possible hinspect hcompletes)
            (.quiet rfl (List.prefix_append _ _))
      | accept assignment =>
          rw [completes_of_accept hinspect] at hcompletes
          cases hcompletes

theorem heartbeat_done {answer : SendAll}
    (h : heartbeat answer w = .done status w') : w.Runs status w' := by
  unfold heartbeat at h
  rw [bind_get] at h
  obtain ⟨whole, w₁, hsend, h⟩ := Prog.bind_done h
  rcases sendMessage_done hsend with
    ⟨rfl, encodes, rfl⟩ | ⟨rfl, bytes, begins, rfl⟩
  · rw [if_pos rfl, bind_monotonicMs] at h
    split at h
    · obtain ⟨rfl, rfl⟩ := pure_done h
      exact .stop ⟨rfl, rfl, rfl, rfl, rfl, rfl, rfl⟩
        (.move (.beats encodes) (List.prefix_refl _) (List.prefix_refl _))
    · rw [bind_modify] at h
      obtain ⟨rfl, rfl⟩ := pure_done h
      exact .on ((Relation.ReflTransGen.single (Move.beats encodes)).tail
        (Move.idle : Move (w.sends (.heartbeat w.workerId)) _))
  · obtain ⟨rfl, rfl⟩ := pure_done h
    exact .stop SameInput.refl.handOver
      (.begins begins Move.beats rfl rfl rfl rfl)

theorem receiveAssignment_done {input : IterationInput}
    (possible : w.CanReceive input.recv)
    (h : receiveAssignment input nowMs w = .done status w') :
    w.Runs status w' := by
  unfold receiveAssignment at h
  split at h
  · obtain ⟨rfl, rfl⟩ := pure_done h
    exact .on .refl
  cases hrecv : input.recv with
  | again =>
      simp only [hrecv] at h
      obtain ⟨rfl, rfl⟩ := pure_done h
      exact .on .refl
  | eof =>
      simp only [hrecv] at h
      obtain ⟨rfl, rfl⟩ := pure_done h
      exact .rest .refl rfl rfl
  | failed =>
      simp only [hrecv] at h
      obtain ⟨rfl, rfl⟩ := pure_done h
      exact .rest .refl rfl rfl
  | data chunk =>
      simp only [hrecv] at h
      exact handleChunk_done (hrecv ▸ possible) h

/-- The part of a pass behind the task. -/
theorem waitAndReceive_done {input : IterationInput}
    (possible : w.CanReceive input.recv)
    (h : waitAndReceive input w = .done status w') : w.Runs status w' := by
  unfold waitAndReceive at h
  rw [bind_monotonicMs] at h
  split at h
  · obtain ⟨rfl, rfl⟩ := pure_done h
    exact .rest ⟨rfl, rfl, rfl, rfl, rfl, rfl, rfl⟩ rfl rfl
  by_cases hstop : input.wait = .stop
  · simp only [hstop] at h
    obtain ⟨rfl, rfl⟩ := pure_done h
    exact .rest ⟨rfl, rfl, rfl, rfl, rfl, rfl, rfl⟩ rfl rfl
  by_cases herror : input.wait = .error
  · simp only [herror] at h
    obtain ⟨rfl, rfl⟩ := pure_done h
    exact .rest ⟨rfl, rfl, rfl, rfl, rfl, rfl, rfl⟩ rfl rfl
  simp only [bind_monotonicMs, bind_get] at h
  split at h
  · obtain ⟨rfl, rfl⟩ := pure_done h
    exact .rest ⟨rfl, rfl, rfl, rfl, rfl, rfl, rfl⟩ rfl rfl
  split at h
  · obtain ⟨rfl, rfl⟩ := pure_done h
    exact .rest ⟨rfl, rfl, rfl, rfl, rfl, rfl, rfl⟩ rfl rfl
  have hidle : Relation.ReflTransGen Move w
      ((w.timed (w.ticks + 1) w.nextHeartbeat).timed (w.ticks + 2)
        w.nextHeartbeat) := .single .idle
  split at h
  · exact (heartbeat_done h).after hidle
  · refine Runs.after hidle (receiveAssignment_done (possible.same ?_) h)
    exact ⟨rfl, rfl, rfl, rfl, rfl, rfl, rfl⟩

/-- A pass through the loop is a few moves, the last of which may be the end
of the process. -/
theorem workerIteration_done {input : IterationInput}
    (possible : w.CanReceive input.recv)
    (h : workerIteration input w = .done status w') : w.Runs status w' := by
  unfold workerIteration at h
  rw [bind_get] at h
  by_cases hended : w.execution.threadCreated = true ∧ input.ending.isSome
  · obtain ⟨hthread, hsome⟩ := hended
    obtain ⟨ending, hending⟩ := Option.isSome_iff_exists.mp hsome
    simp only [hthread, hending] at h
    obtain ⟨finished, w₁, hfinish, h⟩ := Prog.bind_done h
    rcases finishTask_done hthread hfinish with
      ⟨rfl, hmove, hsame⟩ | ⟨hstatus, hsame, hwithin⟩
    · exact (waitAndReceive_done (possible.same hsame) h).after
        (.single hmove)
    · obtain ⟨exit, rfl⟩ := Option.isSome_iff_exists.mp hstatus
      obtain ⟨rfl, rfl⟩ := pure_done h
      exact .stop hsame hwithin
  · refine waitAndReceive_done possible ?_
    cases hthread : w.execution.threadCreated <;>
      cases hending : input.ending <;> simp_all

-- ==================================================== processes

/-- What a process does next, and whether it ends with it. -/
inductive WorkerProcess.Step (w : WorkerProcess) :
    Option ExitStatus → WorkerProcess → Prop where
  | register {answer : SendAll} {status : Option ExitStatus}
      {w' : WorkerProcess} (phase : w.phase = .connected)
      (run : sendRegistration answer w = .done status w') : Step w status w'
  | acknowledge {reply : RecvReply} {status : Option ExitStatus}
      {w' : WorkerProcess} (phase : w.phase = .registering)
      (possible : w.CanReceive reply)
      (run : receiveRegistrationAck reply w = .done status w') :
      Step w status w'
  | iterate {input : IterationInput} {status : Option ExitStatus}
      {w' : WorkerProcess} (phase : w.phase = .working)
      (possible : w.CanReceive input.recv)
      (run : workerIteration input w = .done status w') : Step w status w'

/-- The states of a process, and whether it has ended there. -/
inductive WorkerProcess.Ran : Option ExitStatus → WorkerProcess → Prop where
  | start {intervalMs : Int64} {clock : Nat → Int64} :
      Ran none (WorkerProcess.start intervalMs clock)
  | step {w w' : WorkerProcess} {status : Option ExitStatus}
      (before : Ran none w) (step : w.Step status w') : Ran status w'

/-- The registration goes out first. -/
theorem sendRegistration_done {answer : SendAll}
    (h : sendRegistration answer w = .done status w') :
    (status = none ∧ (Message.workerRegister 0).Encodable
      ∧ w' = { w.sends (.workerRegister 0) with phase := .registering })
    ∨ (status.isSome = true ∧ ∃ bytes,
      (Message.workerRegister 0).Begins bytes ∧ w' = w.handOver bytes) := by
  obtain ⟨whole, w₁, hsend, h⟩ := Prog.bind_done h
  rcases sendMessage_done hsend with
    ⟨rfl, encodes, rfl⟩ | ⟨rfl, bytes, begins, rfl⟩
  · simp only [if_true, bind_modify] at h
    obtain ⟨rfl, rfl⟩ := pure_done h
    exact .inl ⟨rfl, encodes, rfl⟩
  · obtain ⟨rfl, rfl⟩ := pure_done h
    exact .inr ⟨rfl, bytes, begins, rfl⟩

/-- What a process waiting for its acknowledgement does, going on. -/
inductive WorkerProcess.Acks (w : WorkerProcess) : WorkerProcess → Prop where
  | idle : Acks w w
  | asks {chunk : List UInt8} {header : ProtocolHeader}
      (possible : w.CanReceive (.data chunk))
      (short : (w.input ++ chunk).length = headerSize)
      (decoded : headerDecode (w.input ++ chunk) = .ok header)
      (checked : ackHeader header = true) :
      Acks w { w.receiveAck chunk with
        expected := headerSize + MessageType.workerRegisterAck.minimum }
  | waits {chunk : List UInt8} (possible : w.CanReceive (.data chunk))
      (short : (w.input ++ chunk).length < w.expected) :
      Acks w (w.receiveAck chunk)
  | works {chunk : List UInt8} {workerId : UInt32} {nowMs : Int64}
      (possible : w.CanReceive (.data chunk))
      (full : w.expected ≤ (w.input ++ chunk).length)
      (long : (w.input ++ chunk).length ≠ headerSize)
      (accepted : acceptAck (w.input ++ chunk) = some workerId) :
      Acks w (((w.receiveAck chunk).timed (w.ticks + 1)
        w.nextHeartbeat).work workerId nowMs)

/-- The loop's side of the connection has seen nothing. -/
structure WorkerProcess.Untouched (w w' : WorkerProcess) : Prop where
  arrived : w'.history.arrived = w.history.arrived
  busy : w'.history.busy = w.history.busy
  accepted : w'.history.accepted = w.history.accepted
  rejected : w'.history.rejected = w.history.rejected

theorem finishRegistration_done
    (h : finishRegistration bytes w = .done status w') :
    (status = none ∧ ∃ workerId nowMs, acceptAck bytes = some workerId
      ∧ w' = (w.timed (w.ticks + 1) w.nextHeartbeat).work workerId nowMs)
    ∨ (status.isSome = true ∧ w.Untouched w'
      ∧ w'.history.handed = w.history.handed
      ∧ w'.history.received = w.history.received) := by
  unfold finishRegistration at h
  cases hack : acceptAck bytes with
  | none =>
      simp only [hack] at h
      obtain ⟨rfl, rfl⟩ := pure_done h
      exact .inr ⟨rfl, ⟨rfl, rfl, rfl, rfl⟩, rfl, rfl⟩
  | some workerId =>
      simp only [hack, bind_monotonicMs] at h
      split at h
      · obtain ⟨rfl, rfl⟩ := pure_done h
        exact .inr ⟨rfl, ⟨rfl, rfl, rfl, rfl⟩, rfl, rfl⟩
      · rw [bind_modify] at h
        obtain ⟨rfl, rfl⟩ := pure_done h
        exact .inl ⟨rfl, workerId, _, rfl, rfl⟩

theorem receiveRegistrationAck_done {reply : RecvReply}
    (possible : w.CanReceive reply)
    (h : receiveRegistrationAck reply w = .done status w') :
    (status = none ∧ w.Acks w')
    ∨ (status.isSome = true ∧ w.Untouched w'
      ∧ w'.history.handed = w.history.handed
      ∧ w.history.received <+: w'.history.received) := by
  unfold receiveRegistrationAck at h
  cases reply with
  | again =>
      obtain ⟨rfl, rfl⟩ := pure_done h
      exact .inl ⟨rfl, .idle⟩
  | eof =>
      obtain ⟨rfl, rfl⟩ := pure_done h
      exact .inr ⟨rfl, ⟨rfl, rfl, rfl, rfl⟩,
        rfl, List.prefix_refl _⟩
  | failed =>
      obtain ⟨rfl, rfl⟩ := pure_done h
      exact .inr ⟨rfl, ⟨rfl, rfl, rfl, rfl⟩,
        rfl, List.prefix_refl _⟩
  | data chunk =>
      simp only [bind_modify, bind_get] at h
      split at h
      · rename_i hlen
        cases hheader : headerDecode (w.receiveAck chunk).input with
        | error e =>
            simp only [hheader] at h
            obtain ⟨rfl, rfl⟩ := pure_done h
            exact .inr ⟨rfl, ⟨rfl, rfl, rfl, rfl⟩,
              rfl, List.prefix_append _ _⟩
        | ok header =>
            simp only [hheader] at h
            split at h <;> rename_i hcheck
            · rw [bind_modify] at h
              obtain ⟨rfl, rfl⟩ := pure_done h
              exact .inl ⟨rfl, .asks possible hlen hheader hcheck⟩
            · obtain ⟨rfl, rfl⟩ := pure_done h
              exact .inr ⟨rfl, ⟨rfl, rfl, rfl, rfl⟩,
              rfl, List.prefix_append _ _⟩
      · rename_i hlen
        split at h <;> rename_i hshort
        · obtain ⟨rfl, rfl⟩ := pure_done h
          exact .inl ⟨rfl, .waits possible hshort⟩
        · rcases finishRegistration_done h with
            ⟨rfl, workerId, nowMs, hack, rfl⟩
            | ⟨hstatus, hsame, hhanded, hreceived⟩
          · exact .inl ⟨rfl, .works possible (Nat.not_lt.mp hshort) hlen hack⟩
          · exact .inr ⟨hstatus, ⟨hsame.arrived, hsame.busy,
              hsame.accepted, hsame.rejected⟩,
              hhanded, hreceived ▸ List.prefix_append _ _⟩

end Faultline
