/-
What a worker says, and what it has been told.

A worker takes one job at a time, announces it and reports its end
(`WorkerProcess.Reporting`); what it sends are whole frames
(`WorkerProcess.Sending`). What it has received is its acknowledgement and then
assignments, in the order they were queued (`WorkerProcess.Greeted.told`). A
frame that is complete while a job is held would be one more assignment
(`WorkerProcess.Greeted.more`).
-/
import Faultline.Lib.Handover
import Faultline.Proofs.PeerStreams

namespace Faultline

open Lib WorkerProcess

variable {w w₁ w' : WorkerProcess} {status : Option ExitStatus}
  {chunk bytes : List UInt8} {message : Message} {identity : JobIdentity}
  {assignment : JobAssignPayload} {whole : List Message}

/-- What a report says about its job. -/
def Message.notice : Message → Option (JobIdentity × Notice)
  | .jobStarted identity => some (identity, .begun)
  | .jobCompleted payload => some (payload.identity, .finished)
  | .jobFailed payload => some (payload.identity, .finished)
  | _ => none

/-- What an assignment hands out. -/
def Message.assigned : Message → Option JobIdentity
  | .jobAssign payload => some payload.identity
  | _ => none

@[simp] theorem notice_taskReport {outcome : TaskOutcome} :
    (taskReport identity outcome).notice = some (identity, .finished) := by
  unfold taskReport
  split <;> rfl

namespace WorkerProcess

/-- The identities taken, in order. -/
def taken (w : WorkerProcess) : List JobIdentity :=
  w.history.accepted.map JobAssignPayload.identity

/-- The notices given, in order. -/
def said (w : WorkerProcess) : List (JobIdentity × Notice) :=
  w.history.sent.filterMap Message.notice

/-- The identity held. -/
def holding (w : WorkerProcess) : Option JobIdentity :=
  if w.held = 0 then none else some w.execution.assignment.identity

/-- What was sent are whole frames. -/
structure Sending (w : WorkerProcess) : Prop where
  handed : w.history.handed = encodings w.history.sent
  encodable : ∀ m ∈ w.history.sent, m.Encodable

/-- One job at a time, announced and reported. -/
structure Reporting (w : WorkerProcess) : Prop where
  takes : Taken w.taken w.said w.holding
  /-- A task runs for the job that is held. -/
  thread : w.execution.threadCreated = true → w.held ≠ 0

end WorkerProcess

-- ====================================================== sending

theorem WorkerProcess.Sending.sends (h : w.Sending)
    (encodes : message.Encodable) : (w.sends message).Sending where
  handed := by
    show w.history.handed ++ message.encoding
      = encodings (w.history.sent ++ [message])
    rw [encodings_snoc, h.handed]
  encodable m hm := by
    rcases List.mem_append.mp hm with hm | hm
    · exact h.encodable m hm
    · rw [List.mem_singleton.mp hm]
      exact encodes

theorem WorkerProcess.said_sends :
    (w.sends message).said = w.said ++ message.notice.toList := by
  unfold said
  rw [show (w.sends message).history.sent = w.history.sent ++ [message]
    from rfl, List.filterMap_append]
  cases hnotice : message.notice <;> simp [hnotice]

theorem WorkerProcess.Sending.move (h : w.Sending) (hmove : w.Move w') :
    w'.Sending := by
  cases hmove with
  | beats encodes => exact h.sends encodes
  | reports thread encodes =>
      have hset : (w.setThread false).Sending := ⟨h.handed, h.encodable⟩
      have hsent := hset.sends encodes
      exact ⟨hsent.handed, hsent.encodable⟩
  | @starts chunk nowMs assignment possible received encodes =>
      have hheld : ((w.complete chunk nowMs).hold assignment).Sending :=
        ⟨h.handed, h.encodable⟩
      have hsent := hheld.sends encodes
      exact ⟨hsent.handed, hsent.encodable⟩
  | @startFails chunk nowMs assignment possible received encodes reports =>
      have hheld : ((w.complete chunk nowMs).hold assignment).Sending :=
        ⟨h.handed, h.encodable⟩
      have hsent := (hheld.sends encodes).sends reports
      exact ⟨hsent.handed, hsent.encodable⟩
  | _ => exact ⟨h.handed, h.encodable⟩

-- ==================================================== reporting

theorem acceptAssignment_some {workerId : UInt32} {busy : Bool}
    (h : acceptAssignment workerId busy bytes = some assignment) :
    busy = false
      ∧ ∃ size, messageDecode bytes = .ok (.jobAssign assignment, size) := by
  unfold acceptAssignment at h
  split at h
  · rename_i found size hdecode
    obtain ⟨hcheck, hfound⟩ := Option.ite_none_left_eq_some.mp h
    cases hfound
    simp only [Bool.or_eq_true, not_or, Bool.not_eq_true] at hcheck
    exact ⟨hcheck.2, size, hdecode⟩
  · cases h

/-- An assignment is accepted when nothing is held, and it is one. -/
theorem WorkerProcess.accepts_idle
    (received : w.inspect chunk = .accept assignment) :
    w.held = 0 ∧ assignment.identity.jobId ≠ 0 := by
  rw [inspect_complete (completes_of_accept received)] at received
  cases haccept : acceptAssignment w.workerId (w.held != 0)
      (w.input ++ chunk) with
  | none =>
      rw [haccept] at received
      cases received
  | some found =>
      rw [haccept] at received
      cases received
      obtain ⟨hidle, size, hdecode⟩ := acceptAssignment_some haccept
      refine ⟨by simpa using hidle, fun hzero => ?_⟩
      obtain ⟨_, hvalid, -⟩ := messageDecode_canonical hdecode
      obtain ⟨-, -, -, hidentity, -⟩ := validateMessage_ok_iff.mp hvalid
      simp [checkIdentity, Message.identity, validateIdentity, hzero]
        at hidentity

theorem WorkerProcess.Reporting.idle (h : w.Reporting) (idle : w.held = 0) :
    Taken w.taken w.said none := by
  have htakes := h.takes
  rwa [holding, if_pos idle] at htakes

theorem WorkerProcess.Reporting.busy (h : w.Reporting) (busy : w.held ≠ 0) :
    Taken w.taken w.said (some w.execution.assignment.identity) := by
  have htakes := h.takes
  rwa [holding, if_neg busy] at htakes

/-- An assignment was accepted and announced. -/
theorem WorkerProcess.Reporting.begin (h : w.Reporting)
    (received : w.inspect chunk = .accept assignment) (nowMs : Int64) :
    Taken ((w.complete chunk nowMs).hold assignment).taken
      (((w.complete chunk nowMs).hold assignment).sends
        (.jobStarted assignment.identity)).said
      (some assignment.identity) := by
  have htaken : ((w.complete chunk nowMs).hold assignment).taken
      = w.taken ++ [assignment.identity] := List.map_append
  rw [htaken, said_sends]
  exact (h.idle (accepts_idle received).1).take

theorem WorkerProcess.Reporting.move (h : w.Reporting) (hmove : w.Move w') :
    w'.Reporting := by
  cases hmove with
  | beats encodes =>
      refine ⟨?_, h.thread⟩
      rw [said_sends]
      exact (List.append_nil w.said).symm ▸ h.takes
  | @reports outcome thread encodes =>
      refine ⟨?_, nofun⟩
      have hsaid : ((w.setThread false).sends
          (taskReport w.execution.assignment.identity outcome)).said
            = w.said ++ [(w.execution.assignment.identity, .finished)] := by
        rw [said_sends, notice_taskReport]
        rfl
      exact hsaid ▸ (h.busy (h.thread thread)).finish
  | @starts chunk nowMs assignment possible received encodes =>
      have hid := (accepts_idle received).2
      refine ⟨?_, fun _ => hid⟩
      have hholding : ((((w.complete chunk nowMs).hold assignment).sends
          (.jobStarted assignment.identity)).setThread true).resetInput.holding
            = some assignment.identity := if_neg hid
      rw [hholding]
      exact h.begin received nowMs
  | @startFails chunk nowMs assignment possible received encodes reports =>
      refine ⟨?_, fun hthread => ?_⟩
      · have hend := (h.begin received nowMs).finish
        rw [show ([(assignment.identity, Notice.finished)] : List _)
          = (taskReport assignment.identity notRun).notice.toList by
            rw [notice_taskReport]; rfl, ← said_sends] at hend
        exact hend
      · exact absurd (accepts_idle received).1 (h.thread hthread)
  | _ => exact ⟨h.takes, h.thread⟩

-- ===================================================== greeting

/-- The acknowledgement is on its way, or has come before everything
else. -/
inductive WorkerProcess.Greeted (w : WorkerProcess) : Prop where
  | waiting (phase : w.phase ≠ .working)
      (received : w.history.received = w.input)
      (missing : w.input.length < w.expected)
      (expected : w.expected = headerSize
        ∨ w.expected = headerSize + MessageType.workerRegisterAck.minimum)
  | greeted {ack : List UInt8} (phase : w.phase = .working)
      (decoded : messageDecode ack
        = .ok (.workerRegisterAck w.workerId, ack.length))
      (received : w.history.received = ack ++ w.history.arrived)

/-- A working process receives more, or nothing. -/
theorem WorkerProcess.Greeted.later (h : w.Greeted)
    (working : w.phase = .working) (phase : w'.phase = w.phase)
    (workerId : w'.workerId = w.workerId) (chunk : List UInt8)
    (received : w'.history.received = w.history.received ++ chunk)
    (arrived : w'.history.arrived = w.history.arrived ++ chunk) :
    w'.Greeted := by
  cases h with
  | waiting silent => exact absurd working silent
  | @greeted ack _ decoded before =>
      refine .greeted (phase.trans working) (workerId.symm ▸ decoded) ?_
      rw [received, arrived, before, List.append_assoc]

theorem WorkerProcess.Greeted.move (h : w.Greeted) (hmove : w.Move w')
    (working : w.phase = .working) : w'.Greeted := by
  have hphase := hmove.phase
  have hnothing {bytes : List UInt8} : bytes = bytes ++ [] :=
    (List.append_nil _).symm
  cases hmove with
  | idle => exact h.later working hphase rfl [] hnothing hnothing
  | beats encodes => exact h.later working hphase rfl [] hnothing hnothing
  | reports thread encodes =>
      exact h.later working hphase rfl [] hnothing hnothing
  | @waits chunk _ possible full =>
      exact h.later working hphase rfl chunk rfl rfl
  | @asks chunk _ _ possible full =>
      exact h.later working hphase rfl chunk rfl rfl
  | @starts chunk _ _ possible full encodes =>
      exact h.later working hphase rfl chunk rfl rfl
  | @startFails chunk nowMs assignment possible full encodes reports =>
      have hsame : ((w.complete chunk nowMs).hold assignment).SameInput
          ((((w.complete chunk nowMs).hold assignment).sends
            (.jobStarted assignment.identity)).sends
              (taskReport assignment.identity notRun)) :=
        SameInput.refl.sends.sends
      exact h.later working hphase hsame.workerId chunk rfl hsame.arrived

/-- A complete acknowledgement is nothing but that. -/
theorem acceptAck_whole {workerId : UInt32}
    (h : acceptAck bytes = some workerId)
    (whole : bytes.length
      = headerSize + MessageType.workerRegisterAck.minimum) :
    messageDecode bytes = .ok (.workerRegisterAck workerId, bytes.length) := by
  unfold acceptAck at h
  split at h
  · rename_i found size hdecode
    cases h
    obtain ⟨payload, hvalid, hsize, -⟩ := messageDecode_canonical hdecode
    obtain ⟨type, htype, -, -, -, hpayload⟩ := validateMessage_ok_iff.mp hvalid
    cases htype
    rw [hdecode, hsize, whole, ← hpayload]
    rfl
  · cases h

theorem WorkerProcess.Acks.greeted (h : w.Acks w') (hgreeted : w.Greeted)
    (hsilent : w.Silent) (phase : w.phase = .registering) : w'.Greeted := by
  have hphase : w.phase ≠ .working := by
    rw [phase]
    decide
  cases hgreeted with
  | greeted working => exact absurd working hphase
  | waiting _ received missing expected =>
      cases h with
      | idle => exact .waiting hphase received missing expected
      | asks possible short decoded checked =>
          refine .waiting hphase (congrArg (· ++ _) received) ?_ (.inr rfl)
          show (w.input ++ _).length < headerSize + _
          rw [short]
          decide
      | waits possible short =>
          exact .waiting hphase (congrArg (· ++ _) received) short expected
      | @works chunk workerId nowMs possible full long accepted =>
          have hbound := possible.2
          have hlength : (w.input ++ chunk).length = w.expected := by
            refine Nat.le_antisymm ?_ full
            rw [List.length_append]
            omega
          have hwhole := expected.resolve_left fun hshort =>
            long (hlength.trans hshort)
          refine .greeted rfl (acceptAck_whole accepted
            (hlength.trans hwhole)) ?_
          show w.history.received ++ chunk
            = (w.input ++ chunk) ++ w.history.arrived
          rw [received, hsilent.arrived, List.append_nil]

-- =================================================== being told

theorem nextAssignment_decodes {workerId : UInt32} {busy : Bool}
    (h : nextAssignment workerId busy bytes
      = .deliver assignment bytes.length) :
    messageDecode bytes = .ok (.jobAssign assignment, bytes.length) := by
  unfold nextAssignment at h
  split at h
  · cases h
  split at h
  · cases h
  split at h
  · cases h
  rename_i header hheader
  split at h
  · cases h
  dsimp only at h
  split at h
  · cases h
  split at h
  · cases h
  · rename_i found haccept
    injection h with hfound hsize
    rw [hsize, List.take_length, hfound] at haccept
    obtain ⟨-, size, hdecode⟩ := acceptAssignment_some haccept
    have hconsumed := messageDecode_consumed hdecode
    rw [(headerDecode_ok hheader).2.1, hsize] at hconsumed
    rw [hdecode, hconsumed]

/-- What a working process has received are its acknowledgement and the
assignments it has accepted; what it has of a frame is the front of the
rest. -/
theorem WorkerProcess.Greeted.told (h : w.Greeted) (hreader : w.Reader)
    (working : w.phase = .working) (encodable : ∀ m ∈ whole, m.Encodable)
    (there : w.history.received ++ chunk <+: encodings whole) :
    ∃ more, whole = .workerRegisterAck w.workerId
        :: (w.history.accepted.map .jobAssign ++ more)
      ∧ w.input ++ chunk <+: encodings more := by
  cases h with
  | waiting phase => exact absurd working phase
  | @greeted ack phase decoded received =>
      rw [received, List.append_assoc] at there
      obtain ⟨tail, rfl, hack⟩ := encodings_front encodable decoded
        ((List.prefix_append _ _).trans there)
      have hcons : encodings (.workerRegisterAck w.workerId :: tail)
          = ack ++ encodings tail := hack ▸ List.flatMap_cons
      rw [hcons, List.prefix_append_right_inj] at there
      obtain ⟨past, hframes, harrived⟩ := hreader.behind
      rw [harrived, List.append_assoc] at there
      obtain ⟨more, rfl, hpast⟩ := frames_sent nextAssignment_decodes hframes
        (fun m hm => encodable m (List.mem_cons_of_mem _ hm))
        ((List.prefix_append _ _).trans there)
      refine ⟨more, rfl, ?_⟩
      rwa [encodings_append, hpast, List.prefix_append_right_inj] at there

theorem filterMap_assigned (accepted : List JobAssignPayload) :
    (accepted.map Message.jobAssign).filterMap Message.assigned
      = accepted.map JobAssignPayload.identity := by
  induction accepted with
  | nil => rfl
  | cons first rest ih => simp [Message.assigned, ih]

/-- What was taken was assigned, in this order. -/
theorem WorkerProcess.Greeted.taken_assigned (h : w.Greeted)
    (hinput : w.Input) (encodable : ∀ m ∈ whole, m.Encodable)
    (there : w.history.received <+: encodings whole) :
    w.taken <+: whole.filterMap Message.assigned := by
  by_cases working : w.phase = .working
  · rw [← List.append_nil w.history.received] at there
    obtain ⟨more, rfl, -⟩ := h.told (hinput.reader working) working encodable
      there
    rw [List.filterMap_cons_none rfl, List.filterMap_append,
      filterMap_assigned]
    exact List.prefix_append _ _
  · rw [taken, (hinput.silent working).accepted]
    exact List.nil_prefix

theorem Message.eq_jobAssign
    (h : message.messageType = MessageType.jobAssign.code) :
    ∃ assignment, message = .jobAssign assignment := by
  cases message with
  | jobAssign assignment => exact ⟨assignment, rfl⟩
  | unknown messageType =>
      exfalso
      obtain ⟨code, hcode⟩ := messageType
      have hsame : code = MessageType.jobAssign.code := h
      subst hsame
      revert hcode
      decide
  | _ => cases h

/-- A frame that is complete is one more assignment. -/
theorem WorkerProcess.Greeted.more (h : w.Greeted) (hreader : w.Reader)
    (working : w.phase = .working) (encodable : ∀ m ∈ whole, m.Encodable)
    (there : w.history.received ++ chunk <+: encodings whole)
    (possible : w.CanReceive (.data chunk))
    (completes : w.completes chunk = true) :
    ∃ identity, w.taken ++ [identity]
      <+: whole.filterMap Message.assigned := by
  obtain ⟨more, rfl, hmore⟩ := h.told hreader working encodable there
  obtain ⟨-, hfull, hlong⟩ := completes_iff.mp completes
  have hlength := Nat.le_antisymm (hreader.bounded possible) hfull
  cases hreader.part with
  | header prefixed short all => exact absurd (hlength.trans all) hlong
  | @body header prefixed decoded checked all missing =>
      obtain ⟨rest, hrest⟩ := hmore
      have hlen := (headerDecode_ok decoded).1
      have hheader : headerDecode (encodings more) = .ok header := by
        rw [← hrest, List.append_assoc, headerDecode_append hlen, decoded]
      cases more with
      | nil => exact absurd (headerDecode_ok hheader).1 (by decide)
      | cons next more =>
          have hcons : encodings (next :: more)
              = next.encoding ++ encodings more := List.flatMap_cons
          have hnext := (encodable next (by simp)).decode (encodings more)
          rw [← hcons] at hnext
          obtain ⟨assignment, rfl⟩ := Message.eq_jobAssign
            ((messageType_of_decode hheader hnext).trans
              (assignmentHeader_iff.mp checked).1)
          refine ⟨assignment.identity, ?_⟩
          rw [List.filterMap_cons_none rfl, List.filterMap_append,
            filterMap_assigned]
          refine List.prefix_append_right_inj _ |>.mpr ?_
          exact List.cons_prefix_cons.mpr ⟨rfl, List.nil_prefix⟩

-- ========================================================= runs

/-- A process that goes on. -/
structure WorkerProcess.Conforming (w : WorkerProcess) : Prop where
  input : w.Input
  sending : w.Sending
  reporting : w.Reporting
  greeted : w.Greeted

theorem WorkerProcess.Conforming.move (h : w.Conforming) (hmove : w.Move w')
    (working : w.phase = .working) : w'.Conforming where
  input := ((h.input.reader working).move hmove).input
    (hmove.phase.trans working)
  sending := h.sending.move hmove
  reporting := h.reporting.move hmove
  greeted := h.greeted.move hmove working

theorem WorkerProcess.Conforming.moves (h : w.Conforming)
    (hmoves : Relation.ReflTransGen Move w w')
    (working : w.phase = .working) : w'.Conforming := by
  induction hmoves with
  | refl => exact h
  | tail moves last ih =>
      exact ih.move last ((moves_phase moves).trans working)

theorem WorkerProcess.conforming_start (intervalMs : Int64)
    (clock : Nat → Int64) : (start intervalMs clock).Conforming where
  input := Silent.input ⟨rfl, rfl, rfl, rfl⟩ nofun
  sending := ⟨rfl, fun _ hm => absurd hm List.not_mem_nil⟩
  reporting := ⟨.idle rfl, nofun⟩
  greeted := .waiting nofun rfl (show 0 < headerSize by decide) (.inl rfl)

/-- The registration is no report. -/
theorem WorkerProcess.Conforming.registers (h : w.Conforming)
    (phase : w.phase = .connected)
    (encodes : (Message.workerRegister 0).Encodable) :
    Conforming { w.sends (.workerRegister 0) with phase := .registering } := by
  have hsilent := h.input.silent (by rw [phase]; decide)
  have hsent := h.sending.sends encodes
  have hsaid : (w.sends (.workerRegister 0)).said = w.said :=
    said_sends.trans (List.append_nil _)
  refine ⟨Silent.input ⟨hsilent.arrived, hsilent.busy, hsilent.accepted,
    hsilent.rejected⟩ nofun, ⟨hsent.handed, hsent.encodable⟩,
    ⟨hsaid.symm ▸ h.reporting.takes, h.reporting.thread⟩, ?_⟩
  cases h.greeted with
  | waiting silent received missing expected =>
      exact .waiting nofun received missing expected
  | greeted working =>
      rw [phase] at working
      cases working

theorem WorkerProcess.Acks.conforming (h : w.Acks w') (hw : w.Conforming)
    (phase : w.phase = .registering) : w'.Conforming := by
  have hsilent := hw.input.silent (by rw [phase]; decide)
  have hinput := h.input hsilent phase
  have hgreeted := h.greeted hw.greeted hsilent phase
  cases h with
  | idle => exact hw
  | asks possible short decoded checked =>
      exact ⟨hinput, ⟨hw.sending.handed, hw.sending.encodable⟩,
        ⟨hw.reporting.takes, hw.reporting.thread⟩, hgreeted⟩
  | waits possible short =>
      exact ⟨hinput, ⟨hw.sending.handed, hw.sending.encodable⟩,
        ⟨hw.reporting.takes, hw.reporting.thread⟩, hgreeted⟩
  | works possible full long accepted =>
      exact ⟨hinput, ⟨hw.sending.handed, hw.sending.encodable⟩,
        ⟨hw.reporting.takes, hw.reporting.thread⟩, hgreeted⟩

/-- Whatever a process does that goes on. -/
theorem WorkerProcess.Step.conforming (h : w.Step none w')
    (hw : w.Conforming) : w'.Conforming := by
  cases h with
  | register phase run =>
      rcases sendRegistration_done run with
        ⟨-, encodes, rfl⟩ | ⟨hstatus, -⟩
      · exact hw.registers phase encodes
      · cases hstatus
  | acknowledge phase possible run =>
      rcases receiveRegistrationAck_done possible run with
        ⟨-, acks⟩ | ⟨hstatus, -⟩
      · exact acks.conforming hw phase
      · cases hstatus
  | iterate phase possible run =>
      cases workerIteration_done possible run with
      | on moves => exact hw.moves moves phase

/-- What was sent stays sent. -/
theorem WorkerProcess.Move.handed (h : w.Move w') :
    w.history.handed <+: w'.history.handed := by
  cases h with
  | beats encodes => exact List.prefix_append _ _
  | reports thread encodes => exact List.prefix_append _ _
  | starts possible received encodes => exact List.prefix_append _ _
  | startFails possible received encodes reports =>
      exact (List.prefix_append _ _).trans (List.prefix_append _ _)
  | _ => exact List.prefix_refl _

theorem WorkerProcess.moves_handed (h : Relation.ReflTransGen Move w w') :
    w.history.handed <+: w'.history.handed := by
  induction h with
  | refl => exact List.prefix_refl _
  | tail _ last ih => exact ih.trans last.handed

theorem WorkerProcess.Step.handed (h : w.Step none w') :
    w.history.handed <+: w'.history.handed := by
  cases h with
  | register phase run =>
      rcases sendRegistration_done run with
        ⟨-, encodes, rfl⟩ | ⟨hstatus, -⟩
      · exact List.prefix_append _ _
      · cases hstatus
  | acknowledge phase possible run =>
      rcases receiveRegistrationAck_done possible run with
        ⟨-, acks⟩ | ⟨hstatus, -⟩
      · cases acks <;> exact List.prefix_refl _
      · cases hstatus
  | iterate phase possible run =>
      cases workerIteration_done possible run with
      | on moves => exact moves_handed moves

/-- A process that ends has sent part of what one sends that goes on. -/
theorem WorkerProcess.Step.within {exit : ExitStatus}
    (h : w.Step (some exit) w') (hw : w.Conforming) :
    ∃ w₂ : WorkerProcess, w₂.Conforming
      ∧ w.history.handed <+: w₂.history.handed
      ∧ w'.history.handed <+: w₂.history.handed
      ∧ w₂.history.received <+: w'.history.received := by
  cases h with
  | register phase run =>
      rcases sendRegistration_done run with
        ⟨hstatus, -⟩ | ⟨-, bytes, begins, rfl⟩
      · cases hstatus
      rcases begins with rfl | ⟨encodes, hpart⟩
      · refine ⟨w, hw, List.prefix_refl _, ?_, List.prefix_refl _⟩
        rw [handOver, List.append_nil]
      · exact ⟨_, hw.registers phase encodes, List.prefix_append _ _,
          (List.prefix_append_right_inj _).mpr hpart, List.prefix_refl _⟩
  | acknowledge phase possible run =>
      rcases receiveRegistrationAck_done possible run with
        ⟨hstatus, -⟩ | ⟨-, -, handed, received⟩
      · cases hstatus
      · exact ⟨w, hw, List.prefix_refl _, handed ▸ List.prefix_refl _,
          received⟩
  | iterate phase possible run =>
      cases workerIteration_done possible run with
      | out moves quits within =>
          obtain ⟨w₂, more, handed, received⟩ := within
          have hmoves := moves.trans more
          exact ⟨w₂, hw.moves hmoves phase, moves_handed hmoves, handed,
            received⟩

-- =============================================== complete frames

/-- Frames are completed by an idle worker, unless one is refused. -/
theorem WorkerProcess.Move.busy (h : w.Move w')
    (before : ∀ b ∈ w.history.busy, b = false) :
    ∀ b ∈ w'.history.busy, b = false := by
  have haccept {chunk : List UInt8} {assignment : JobAssignPayload}
      (received : w.inspect chunk = .accept assignment) (b : Bool)
      (hb : b ∈ w.history.busy ++ [w.held != 0]) : b = false := by
    rcases List.mem_append.mp hb with hb | hb
    · exact before b hb
    · rw [List.mem_singleton.mp hb, (accepts_idle received).1]
      rfl
  cases h with
  | starts possible received encodes => exact haccept received
  | startFails possible received encodes reports => exact haccept received
  | _ => exact before

theorem WorkerProcess.moves_busy (h : Relation.ReflTransGen Move w w')
    (before : ∀ b ∈ w.history.busy, b = false) :
    ∀ b ∈ w'.history.busy, b = false := by
  induction h with
  | refl => exact before
  | tail _ last ih => exact last.busy ih

/-- The end of a process, too, if a frame it refuses was completed by an idle
worker. -/
theorem WorkerProcess.Quits.busy (h : w.Quits w')
    (before : ∀ b ∈ w.history.busy, b = false)
    (refused : ∀ chunk, w.CanReceive (.data chunk) →
      w.completes chunk = true →
      w'.history.received = w.history.received ++ chunk → w.held = 0) :
    ∀ b ∈ w'.history.busy, b = false := by
  cases h with
  | stops same =>
      rw [same.busy]
      exact before
  | rejects possible received early => exact before
  | @refuses chunk nowMs possible received late =>
      intro b hb
      rcases List.mem_append.mp hb with hb | hb
      · exact before b hb
      · rw [List.mem_singleton.mp hb]
        show (w.held != 0) = false
        rw [refused chunk possible late rfl]
        rfl
  | @holds chunk nowMs assignment _ possible received same =>
      rw [same.busy]
      intro b hb
      rcases List.mem_append.mp hb with hb | hb
      · exact before b hb
      · rw [List.mem_singleton.mp hb]
        show (w.held != 0) = false
        rw [(accepts_idle received).1]
        rfl

/-- Whatever a process does next. -/
theorem WorkerProcess.Step.busy (h : w.Step status w')
    (before : ∀ b ∈ w.history.busy, b = false)
    (refused : w.phase = .working → ∀ w₁ chunk,
      Relation.ReflTransGen Move w w₁ → w₁.CanReceive (.data chunk) →
      w₁.completes chunk = true →
      w'.history.received = w₁.history.received ++ chunk → w₁.held = 0) :
    ∀ b ∈ w'.history.busy, b = false := by
  cases h with
  | register phase run =>
      rcases sendRegistration_done run with
        ⟨-, encodes, rfl⟩ | ⟨-, bytes, -, rfl⟩ <;> exact before
  | acknowledge phase possible run =>
      rcases receiveRegistrationAck_done possible run with
        ⟨-, acks⟩ | ⟨-, hsame, -⟩
      · cases acks <;> exact before
      · rw [hsame.busy]
        exact before
  | iterate phase possible run =>
      cases workerIteration_done possible run with
      | on moves => exact moves_busy moves before
      | out moves quits within =>
          exact quits.busy (moves_busy moves before)
            fun chunk => refused phase _ chunk moves

end Faultline
