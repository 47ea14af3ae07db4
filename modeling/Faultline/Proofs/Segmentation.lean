/-
How a stream is cut into chunks does not matter.

A connection's messages and its end are those of its whole stream, in the
roles its frames were checked in; a worker's assignments are those of its
whole stream, given at which frames a job was still held. At the end stand
two runs that show why jobs held and failures of the store come into it.
-/
import Faultline.Proofs.AssignmentFraming
import Faultline.Proofs.InputFraming

namespace Faultline

open Lib Coordinator

variable {s : Coordinator} {c : Client} {w w' : WorkerProcess}
  {status : Option ExitStatus} {latched : Prop}

-- ================================================== connections

/-- What a connection has made of its stream is what the stream says. -/
structure Client.Faithful (c : Client) (last : Role) : Prop where
  delivered : (c.parsed last).messages = c.history.delivered
  /-- The stream is refused where the connection was closed for its bytes,
  and for the same reason. -/
  refused : ∀ reason size, (c.parsed last).rejected = some (reason, size) ↔
    c.history.closing = some reason ∧ reason.framing = true
      ∧ (c.parsed last).consumed + size = c.history.arrived.length
  /-- The frames that were delivered lie within what has arrived. -/
  position : ∃ size,
    (c.parsed last).consumed + size = c.history.arrived.length

theorem Client.Input.faithful (h : c.Input latched) (last : Role) :
    c.Faithful last := by
  obtain ⟨current, rest, hreader, hpending⟩ := h
  obtain ⟨hmessages, hconsumed, hrejected⟩ := hreader.parsed last
  rcases hpending.verdict with ⟨hquiet, hreason⟩
    | ⟨reason, hclosing, hframing, hparse⟩
  · rw [hquiet last] at hmessages hconsumed hrejected
    refine ⟨hmessages.trans (List.append_nil _), fun reason size => ?_,
      rest.length, hconsumed⟩
    rw [hrejected]
    constructor
    · intro h
      cases h
    · rintro ⟨hclosing, hframing, -⟩
      rw [hreason reason hclosing] at hframing
      cases hframing
  · rw [hparse last] at hmessages hconsumed hrejected
    refine ⟨hmessages.trans (List.append_nil _), fun reason' size => ?_,
      rest.length, hconsumed⟩
    rw [hrejected, hclosing]
    dsimp only at hconsumed
    constructor
    · intro h
      cases h
      exact ⟨rfl, hframing, hconsumed⟩
    · rintro ⟨hreason, -, hsize⟩
      cases hreason
      have hlength : rest.length = size := by omega
      rw [hlength]

/-- Two connections with the same stream, checked in the same roles. -/
theorem Client.Faithful.same {c' : Client}
    (h : ∀ last, c.Faithful last) (h' : ∀ last, c'.Faithful last)
    (arrived : c.history.arrived = c'.history.arrived)
    (roles : c.history.roles = c'.history.roles) :
    c.history.delivered = c'.history.delivered
      ∧ ∀ reason, reason.framing = true →
        (c.history.closing = some reason ↔ c'.history.closing = some reason)
    := by
  have hparsed (last : Role) : c.parsed last = c'.parsed last := by
    unfold Client.parsed
    rw [arrived, roles]
  let last : Role := ⟨false, false⟩
  refine ⟨?_, fun reason hframing => ?_⟩
  · rw [← (h last).delivered, hparsed last, (h' last).delivered]
  · -- one direction, for either connection
    have hone {d d' : Client} (hd : d.Faithful last) (hd' : d'.Faithful last)
        (hsame : d.parsed last = d'.parsed last)
        (hlength : d.history.arrived = d'.history.arrived)
        (hclosing : d.history.closing = some reason) :
        d'.history.closing = some reason := by
      obtain ⟨size, hsize⟩ : ∃ size,
          (d.parsed last).consumed + size = d.history.arrived.length :=
        hd.position
      have hrejected := (hd.refused reason size).mpr ⟨hclosing, hframing, hsize⟩
      rw [hsame] at hrejected
      exact ((hd'.refused reason size).mp hrejected).1
    exact ⟨hone (h last) (h' last) (hparsed last) arrived,
      hone (h' last) (h last) (hparsed last).symm arrived.symm⟩

-- ====================================================== workers

/-- A pass of a worker, by what it meets. -/
inductive WorkerPass where
  | register (answer : SendAll)
  | acknowledge (reply : RecvReply)
  | iterate (input : IterationInput)
deriving DecidableEq, Repr

namespace WorkerProcess

instance (w : WorkerProcess) : (reply : RecvReply) →
    Decidable (w.CanReceive reply)
  | .data chunk => inferInstanceAs
      (Decidable (chunk ≠ [] ∧ chunk.length ≤ w.expected - w.input.length))
  | .again => isTrue trivial
  | .eof => isTrue trivial
  | .failed => isTrue trivial

/-- The next pass, where the process is ready for it. -/
def pass (w : WorkerProcess) :
    WorkerPass → Option (Outcome WorkerProcess (Option ExitStatus))
  | .register answer =>
      if w.phase = .connected then some (sendRegistration answer w) else none
  | .acknowledge reply =>
      if w.phase = .registering ∧ w.CanReceive reply then
        some (receiveRegistrationAck reply w)
      else none
  | .iterate input =>
      if w.phase = .working ∧ w.CanReceive input.recv then
        some (workerIteration input w)
      else none

theorem pass_step {p : WorkerPass} (h : w.pass p = some (.done status w')) :
    w.Step status w' := by
  cases p with
  | register answer =>
      obtain ⟨phase, run⟩ := Option.ite_none_right_eq_some.mp h
      exact .register phase (Option.some.inj run)
  | acknowledge reply =>
      obtain ⟨⟨phase, possible⟩, run⟩ := Option.ite_none_right_eq_some.mp h
      exact .acknowledge phase possible (Option.some.inj run)
  | iterate input =>
      obtain ⟨⟨phase, possible⟩, run⟩ := Option.ite_none_right_eq_some.mp h
      exact .iterate phase possible (Option.some.inj run)

/-- Passes in turn; where the process is then, and whether it has ended. -/
def passes : WorkerProcess → List WorkerPass →
    Option (Option ExitStatus × WorkerProcess)
  | w, [] => some (none, w)
  | w, p :: ps =>
      match w.pass p with
      | some (.done none w') => passes w' ps
      | some (.done (some status) w') =>
          if ps = [] then some (some status, w') else none
      | _ => none

theorem Ran.passes (before : Ran none w) :
    ∀ {ps : List WorkerPass}, w.passes ps = some (status, w') →
      Ran status w' := by
  intro ps
  induction ps generalizing w with
  | nil =>
      intro h
      cases h
      exact before
  | cons p ps ih =>
      intro h
      unfold WorkerProcess.passes at h
      split at h
      · rename_i next hpass
        exact ih (before.step (pass_step hpass)) h
      · rename_i last next hpass
        obtain ⟨-, h⟩ := Option.ite_none_right_eq_some.mp h
        cases h
        exact before.step (pass_step hpass)
      · cases h

end WorkerProcess

/-- Two workers with the same id and the same stream, holding a job at the
same frames. -/
theorem WorkerProcess.Parses.same {w₁ w₂ : WorkerProcess} (h₁ : w₁.Parses)
    (h₂ : w₂.Parses) (workerId : w₁.workerId = w₂.workerId)
    (arrived : w₁.history.arrived = w₂.history.arrived)
    (busy : w₁.history.busy = w₂.history.busy) :
    w₁.history.accepted = w₂.history.accepted
      ∧ w₁.history.rejected = w₂.history.rejected := by
  obtain ⟨consumed₁, hparse₁⟩ := h₁ false
  obtain ⟨consumed₂, hparse₂⟩ := h₂ false
  rw [workerId, arrived, busy, hparse₂] at hparse₁
  simp only [Parsed.mk.injEq] at hparse₁
  obtain ⟨haccepted, -, hrejected⟩ := hparse₁
  refine ⟨haccepted.symm, ?_⟩
  revert hrejected
  cases w₁.history.rejected <;> cases w₂.history.rejected <;> simp

theorem WorkerProcess.Ran.fits (h : WorkerProcess.Ran none w)
    (phase : w.phase = .working) :
    w.input.length < w.expected ∧ w.expected ≤ messageMaxFrameSize :=
  ((h.input.2 rfl).reader phase).part.fits

/-- However the streams are cut into chunks: a connection delivers what its
whole stream says and is closed for its bytes where and why the stream is
refused; a worker accepts the assignments of its whole stream, given where a
job was held. What is waited for is never nothing, and fits the buffer. -/
theorem input_segmentation :
    (∀ (settings : LoopSettings) (s : Coordinator), s.Reachable settings →
      ∀ i : Fin maxClients,
        (∀ last, (s.client i).Faithful last)
        ∧ (s.store.failure = .none → 0 ≤ (s.client i).fd →
          (s.client i).phase = .readingMessage →
          (s.client i).input.length < (s.client i).expected
            ∧ (s.client i).expected ≤ clientFrameCapacity)
        ∧ ∀ (settings' : LoopSettings) (s' : Coordinator),
          s'.Reachable settings' → ∀ j : Fin maxClients,
          (s.client i).history.arrived = (s'.client j).history.arrived →
          (s.client i).history.roles = (s'.client j).history.roles →
          (s.client i).history.delivered = (s'.client j).history.delivered
            ∧ ∀ reason, reason.framing = true →
              ((s.client i).history.closing = some reason
                ↔ (s'.client j).history.closing = some reason))
    ∧ (∀ (input : List UInt8) (header : ProtocolHeader),
        headerDecode input = .ok header →
        headerSize + header.payloadLength.toNat ≤ input.length →
        messageDecode input ≠ .error .bufferTooSmall)
    ∧ ∀ (status : Option ExitStatus) (w : WorkerProcess),
        WorkerProcess.Ran status w →
        w.Parses
        ∧ (status = none → w.phase = .working →
          w.input.length < w.expected ∧ w.expected ≤ messageMaxFrameSize)
        ∧ ∀ (status' : Option ExitStatus) (w' : WorkerProcess),
          WorkerProcess.Ran status' w' → w.workerId = w'.workerId →
          w.history.arrived = w'.history.arrived →
          w.history.busy = w'.history.busy →
          w.history.accepted = w'.history.accepted
            ∧ w.history.rejected = w'.history.rejected := by
  refine ⟨fun settings s hs i => ⟨fun last => (hs.input i).faithful last, ?_, ?_⟩,
    fun input header => messageDecode_complete, fun status w hw =>
    ⟨hw.input.1, ?_, ?_⟩⟩
  · intro healthy fd phase
    exact ((hs.input i).mono (absurd healthy)).fits fd phase
  · intro settings' s' hs' j arrived roles
    exact Client.Faithful.same (hs.input i).faithful (hs'.input j).faithful
      arrived roles
  · rintro rfl phase
    exact hw.fits phase
  · intro status' w' hw' workerId arrived busy
    exact hw.input.1.same hw'.input.1 workerId arrived busy

-- ======================================= what cannot be left out

/-- A message as it goes over the wire. -/
def Message.wire (message : Message) : List UInt8 :=
  (encodeOutput message).toOption.getD []

/-- An assignment of the job to worker 7. -/
def assignmentOf (jobId : UInt64) : Message :=
  .jobAssign
    { identity := { jobId, workerId := 7, attempt := 1 }
      taskType := TaskType.sleep.code, arguments := [] }

/-- A pass that receives bytes, perhaps after the task has ended. -/
def receiving (ending : Option TaskEnd) (chunk : List UInt8) : WorkerPass :=
  .iterate
    { ending, wait := .input, answer := .sent, recv := .data chunk
      startup :=
        { stopping := false, answer := .sent, start := .started
          failedAnswer := .sent } }

/-- A worker is registered and receives two assignments, each in two chunks;
`ending` is how far the first task has come when the second is there. -/
def twoAssignments (ending : Option TaskEnd) : List WorkerPass :=
  [.register .sent,
    .acknowledge (.data ((Message.workerRegisterAck 7).wire.take headerSize)),
    .acknowledge (.data ((Message.workerRegisterAck 7).wire.drop headerSize)),
    receiving none ((assignmentOf 1).wire.take headerSize),
    receiving none ((assignmentOf 1).wire.drop headerSize),
    receiving none ((assignmentOf 2).wire.take headerSize),
    receiving ending ((assignmentOf 2).wire.drop headerSize)]

/-- The task has ended well, and its report goes out. -/
def reported : TaskEnd :=
  { joinFails := false, stopping := false
    outcome := { status := .ok, result := [] }, answer := .sent }

/-- What a worker whose clock stands still makes of the two assignments: the
bytes, how many it accepts, and whether it gives up. -/
def summary (ending : Option TaskEnd) : Option (UInt32 × List UInt8 × Nat × Bool) :=
  ((WorkerProcess.start 1000 fun _ => 0).passes (twoAssignments ending)).map
    fun r => (r.2.workerId, r.2.history.arrived, r.2.history.accepted.length,
      r.2.history.rejected)

theorem summary_ran {ending : Option TaskEnd} {workerId : UInt32}
    {arrived : List UInt8} {count : Nat} {rejected : Bool}
    (h : summary ending = some (workerId, arrived, count, rejected)) :
    ∃ status w, WorkerProcess.Ran status w ∧ w.workerId = workerId
      ∧ w.history.arrived = arrived ∧ w.history.accepted.length = count
      ∧ w.history.rejected = rejected := by
  obtain ⟨⟨status, w⟩, hpasses, hsummary⟩ := Option.map_eq_some_iff.mp h
  simp only [Prod.mk.injEq] at hsummary
  exact ⟨status, w, WorkerProcess.Ran.start.passes hpasses, hsummary⟩

theorem maxClients_pos : 0 < maxClients := by decide

/-- The entry of the only connection. -/
def onlySlot : Fin maxClients := ⟨0, maxClients_pos⟩

/-- Bytes for a connection that is being read. -/
def arriving (chunk : List UInt8) : Readiness :=
  { invalid := false, readable := true, writable := false
    recv := .data chunk, send := .again }

/-- The coordinator with a connection, on a disk whose next write fails. -/
def brokenDisk : Coordinator :=
  quietClient.withCtx ⟨quietClient.store, ⟨logDisk [], 0, [.error 5 0]⟩⟩

def submission : List UInt8 :=
  (Message.jobSubmit
    { taskType := TaskType.sleep.code, maxRetries := 0, arguments := [] }).wire

/-- The header of a submission has been read. -/
def brokenHeader : Coordinator :=
  (serveClient quietSettings onlySlot (arriving (submission.take headerSize))
    brokenDisk.now brokenDisk.ticked).state

/-- All of it has, and the store has failed over it. -/
def brokenSubmission : Coordinator :=
  (serveClient quietSettings onlySlot (arriving (submission.drop headerSize))
    brokenHeader.now brokenHeader.ticked).state

/-- The connection can read these bytes, and its turn ends. -/
abbrev Coordinator.ReadsAlone (s : Coordinator) (chunk : List UInt8) : Prop :=
  s.store.failure = .none ∧ 0 ≤ s.now ∧ (s.client onlySlot).phase = .readingMessage
    ∧ (chunk ≠ [] ∧ chunk.length
      ≤ (s.client onlySlot).expected - (s.client onlySlot).input.length)
    ∧ (serveClient quietSettings onlySlot (arriving chunk) s.now s.ticked).returned
      = some ()

theorem Coordinator.ReadsAlone.step {chunk : List UInt8}
    (serves : s.ReadsAlone chunk) :
    s.Step quietSettings (serveClient quietSettings onlySlot (arriving chunk)
      s.now s.ticked).state := by
  obtain ⟨healthy, clock, phase, possible, returns⟩ := serves
  obtain ⟨s', hrun⟩ := Outcome.returned_some returns
  have hpossible : (arriving chunk).Possible (s.client onlySlot) := by
    unfold Readiness.Possible
    rw [phase]
    exact possible
  rw [hrun]
  exact .serve healthy clock hpossible hrun

theorem Coordinator.Reachable.serve {chunk : List UInt8}
    (h : s.Reachable quietSettings) (serves : s.ReadsAlone chunk) :
    (serveClient quietSettings onlySlot (arriving chunk) s.now
      s.ticked).state.Reachable quietSettings :=
  h.step serves.step

/-- The same bytes in the same chunks are accepted or refused as the first
task has ended or not; and a connection whose message the store failed over
is left waiting for nothing. -/
theorem segmentation_not_enough :
    (∃ status w status' w', WorkerProcess.Ran status w
      ∧ WorkerProcess.Ran status' w' ∧ w.workerId = w'.workerId
      ∧ w.history.arrived = w'.history.arrived
      ∧ w.history.accepted ≠ w'.history.accepted
      ∧ w.history.rejected = true ∧ w'.history.rejected = false)
    ∧ ∃ settings s i, Coordinator.Reachable settings s ∧ 0 ≤ (s.client i).fd
      ∧ (s.client i).phase = .readingMessage
      ∧ ¬ (s.client i).input.length < (s.client i).expected := by
  constructor
  · obtain ⟨status, w, hran, hid, harrived, hcount, hrejected⟩ :=
      summary_ran (show summary none = some (7,
        (assignmentOf 1).wire ++ (assignmentOf 2).wire, 1, true) by
        decide +kernel)
    obtain ⟨status', w', hran', hid', harrived', hcount', hrejected'⟩ :=
      summary_ran (show summary (some reported) = some (7,
        (assignmentOf 1).wire ++ (assignmentOf 2).wire, 2, false) by
        decide +kernel)
    refine ⟨status, w, status', w', hran, hran', hid.trans hid'.symm,
      harrived.trans harrived'.symm, fun hsame => ?_, hrejected, hrejected'⟩
    rw [hsame, hcount'] at hcount
    cases hcount
  · have hdisk : brokenDisk.Reachable quietSettings :=
      quietClient_reachable.step (.environment rfl)
    have hheader : brokenHeader.Reachable quietSettings :=
      hdisk.serve (by decide +kernel)
    have hbody : brokenSubmission.Reachable quietSettings :=
      hheader.serve (by decide +kernel)
    have hstuck : 0 ≤ (brokenSubmission.client onlySlot).fd
        ∧ (brokenSubmission.client onlySlot).phase = .readingMessage
        ∧ ¬ (brokenSubmission.client onlySlot).input.length
          < (brokenSubmission.client onlySlot).expected := by
      decide +kernel
    exact ⟨quietSettings, brokenSubmission, onlySlot, hbody, hstuck⟩

end Faultline
