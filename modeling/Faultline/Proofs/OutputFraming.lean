/-
What a connection sends.

A connection is idle, with every queued message sent, or it is sending the
last one and has sent all before it (`Client.Output`). Two producers share
the output buffer, the request handlers and the scheduler; both find the
connection idle, so no message is queued over another.
-/
import Faultline.Proofs.ConnectionMoves
import Faultline.Proofs.StreamVerdicts

namespace Faultline

open Lib Coordinator

variable {s : Coordinator} {c c' : Client} {latched : Prop}
  {message : Message} {bytes : List UInt8}

-- ==================================================== encodings

theorem validateMessage_fits {size : Nat}
    (h : validateMessage message = .ok size) :
    headerSize + size ≤ clientFrameCapacity := by
  obtain ⟨type, -, -, -, hdata, rfl⟩ := validateMessage_ok_iff.mp h
  exact Nat.le_trans (Nat.add_le_add_left (Nat.add_le_add_left hdata _) _)
    type.frame_le

/-- What fits a buffer is what is valid, and it fits as its frame. -/
theorem encodeOutput_ok_iff :
    encodeOutput message = .ok bytes
      ↔ ∃ size, validateMessage message = .ok size
        ∧ bytes = message.frame size := by
  unfold encodeOutput
  cases hvalid : validateMessage message with
  | error e =>
      have hencode : messageEncode (List.replicate clientFrameCapacity 0)
          message = .error e := by
        rw [messageEncode, hvalid]
      simp [hencode]
  | ok size =>
      have hroom : headerSize + size
          ≤ (List.replicate clientFrameCapacity (0 : UInt8)).length := by
        rw [List.length_replicate]
        exact validateMessage_fits hvalid
      simp only [messageEncode_eq hvalid hroom,
        List.take_left' (Message.length_frame hvalid), Except.ok.injEq]
      constructor
      · intro h
        exact ⟨size, rfl, h.symm⟩
      · rintro ⟨_, hsize, h⟩
        exact hsize ▸ h.symm

theorem encodeOutput_length_pos (h : encodeOutput message = .ok bytes) :
    0 < bytes.length := by
  obtain ⟨size, hvalid, rfl⟩ := encodeOutput_ok_iff.mp h
  rw [Message.length_frame hvalid]
  exact Nat.add_pos_left (by decide) _

/-- The complete encoding of a message, if it has one. -/
def Message.encoding (message : Message) : List UInt8 :=
  match encodeOutput message with
  | .ok output => output
  | .error _ => []

/-- Encodings, one after the other. -/
def encodings (messages : List Message) : List UInt8 :=
  messages.flatMap Message.encoding

theorem Message.encoding_eq (h : encodeOutput message = .ok bytes) :
    message.encoding = bytes := by
  rw [Message.encoding, h]

theorem encodings_snoc (messages : List Message) (message : Message) :
    encodings (messages ++ [message])
      = encodings messages ++ message.encoding := by
  simp [encodings]

-- ============================================== the connection

/-- What has been sent of what was queued. -/
inductive Client.Output (c : Client) : Prop where
  | idle (phase : c.phase = .readingMessage)
      (handed : c.history.handed = encodings c.history.queued)
  | sending {before : List Message} {last : Message}
      (phase : c.phase = .writingReply)
      (queued : c.history.queued = before ++ [last])
      (encode : encodeOutput last = .ok c.output)
      (sent : c.sent < c.output.length)
      (handed : c.history.handed
        = encodings before ++ c.output.take c.sent)
  | closed (fd : c.fd < 0)
      (handed : c.history.handed <+: encodings c.history.queued)

theorem Client.Output.handed_take (h : c.Output) :
    c.history.handed <+: encodings c.history.queued := by
  cases h with
  | idle phase handed => rw [handed]
  | sending phase queued encode sent handed =>
      rw [handed, queued, encodings_snoc, Message.encoding_eq encode]
      exact List.prefix_append_right_inj _ |>.mpr (List.take_prefix _ _)
  | closed fd handed => exact handed

/-- Everything is sent while a connection reads. -/
theorem Client.Output.all_sent (h : c.Output) (fd : 0 ≤ c.fd)
    (phase : c.phase = .readingMessage) :
    c.history.handed = encodings c.history.queued := by
  cases h with
  | idle _ handed => exact handed
  | sending writing =>
      rw [phase] at writing
      cases writing
  | closed closed => omega

/-- A connection being closed keeps what it has sent. -/
theorem Client.Output.close {reason : CloseReason}
    (h : c.history.handed <+: encodings c.history.queued) :
    (c.closed reason).Output :=
  .closed (Int.negSucc_lt_zero 0) h

/-- A queued message, from an idle connection. -/
theorem Client.Starts.output (h : c.Starts message c')
    (handed : c.history.handed = encodings c.history.queued) :
    c'.Output := by
  have hmore : c.history.handed
      <+: encodings (c.history.queued ++ [message]) := by
    rw [handed, encodings_snoc]
    exact List.prefix_append _ _
  cases h with
  | unencodable encode => exact .close hmore
  | clockFailed encode => exact .close hmore
  | started encode =>
      refine .sending rfl rfl encode (encodeOutput_length_pos encode) ?_
      show c.history.handed = encodings c.history.queued ++ _
      rw [handed, Client.startReply, List.take_zero, List.append_nil]

@[simp] theorem Client.gather_handed {chunk : List UInt8} {nowMs : Int64} :
    (c.gather chunk nowMs).history.handed = c.history.handed
      ∧ (c.gather chunk nowMs).history.queued = c.history.queued
      ∧ (c.gather chunk nowMs).phase = c.phase := by
  unfold Client.gather
  split <;> exact ⟨rfl, rfl, rfl⟩

@[simp] theorem Client.gather_output {chunk : List UInt8} {nowMs : Int64} :
    (c.gather chunk nowMs).output = c.output := by
  unfold Client.gather
  split <;> rfl

/-- More bytes of a reply leave. -/
theorem Client.Output.advance {count : Nat} {nowMs : Int64} (h : c.Output)
    (fd : 0 ≤ c.fd) (phase : c.phase = .writingReply)
    (bounded : count ≤ c.output.length - c.sent) :
    (c.advance count nowMs).Output := by
  cases h with
  | idle reading =>
      rw [phase] at reading
      cases reading
  | closed closed => omega
  | @sending before last _ queued encode sent handed =>
      have htaken : c.output.take c.sent
          ++ (c.output.drop c.sent).take count
            = c.output.take (c.sent + count) := (List.take_add).symm
      unfold Client.advance
      by_cases hall : (c.sent + count == c.output.length) = true
      · rw [if_pos hall]
        refine .idle rfl ?_
        show c.history.handed ++ _ = encodings c.history.queued
        rw [handed, List.append_assoc, htaken, beq_iff_eq.mp hall,
          List.take_length, queued, encodings_snoc,
          Message.encoding_eq encode]
      · rw [if_neg hall]
        refine .sending phase queued encode ?_ ?_
        · have hne : c.sent + count ≠ c.output.length := by simpa using hall
          show c.sent + count < c.output.length
          omega
        · show c.history.handed ++ _ = _
          rw [handed, List.append_assoc, htaken]

/-- Every move keeps the output in order. -/
theorem Client.Output.move (h : c.Output) (hmove : c.Move latched c') :
    c'.Output := by
  cases hmove with
  | accepted vacant fresh => exact .idle rfl rfl
  | short gathers short =>
      exact .idle gathers.phase (h.all_sent gathers.fd gathers.phase)
  | asks gathers full inspect =>
      have hsent := h.all_sent gathers.fd gathers.phase
      obtain ⟨hhanded, hqueued, hphase⟩ := Client.gather_handed
      exact .idle (hphase.trans gathers.phase)
        (hhanded.trans (hsent.trans (congrArg encodings hqueued.symm)))
  | refuses gathers full inspect =>
      have hsent := h.all_sent gathers.fd gathers.phase
      obtain ⟨hhanded, hqueued, -⟩ := Client.gather_handed
      refine .close ?_
      rw [hhanded, hqueued, hsent]
  | @delivers chunk nowMs message workerId jobClient _ gathers full inspect
      answers =>
      have hsent := h.all_sent gathers.fd gathers.phase
      obtain ⟨hhanded, hqueued, hphase⟩ := @Client.gather_handed c chunk nowMs
      have hsame : (((c.gather chunk nowMs).deliver message).withRole workerId
          jobClient).history.handed
            = encodings (((c.gather chunk nowMs).deliver message).withRole
              workerId jobClient).history.queued :=
        hhanded.trans (hsent.trans (congrArg encodings hqueued.symm))
      cases answers with
      | stuck why => exact .idle (hphase.trans gathers.phase) hsame
      | resets => exact .idle rfl hsame
      | closes why =>
          refine .close ?_
          rw [hsame]
      | replies kind starts => exact starts.output hsame
  | sends fd phase bounded => exact h.advance fd phase bounded
  | closes fd why => exact .close h.handed_take
  | assigns fd phase idle starts => exact starts.output (h.all_sent fd phase)

theorem Client.Output.turn (h : c.Output) (hturn : c.Turn latched c') :
    c'.Output := by
  cases hturn with
  | same => exact h
  | move move => exact h.move move
  | moveClose move fd why => exact .close (h.move move).handed_take

theorem Coordinator.Reachable.output {settings : LoopSettings}
    (h : s.Reachable settings) (i : Fin maxClients) :
    (s.client i).Output := by
  induction h with
  | start opened session =>
      rw [client_start]
      exact .idle rfl rfl
  | step before step ih => exact ih.turn (step.turn.client before.live i)

-- =================================================== queueing

/-- What one event adds to a connection's queue: nothing, and a reply on its
way stays as it is; one message, when all before it are sent; or the entry
is given to a new peer. -/
inductive Client.Queued (c c' : Client) : Prop where
  | same (queued : c'.history.queued = c.history.queued)
      (output : c'.output = c.output)
  | one (message : Message) (fd : 0 ≤ c.fd)
      (phase : c.phase = .readingMessage)
      (queued : c'.history.queued = c.history.queued ++ [message])
      (idle : ∀ assignment, message = .jobAssign assignment → c.input = [])
  | fresh (fd : c.fd < 0) (queued : c'.history.queued = [])
      (handed : c'.history.handed = [])

theorem Client.Starts.queued (h : c.Starts message c') :
    c'.history.queued = c.history.queued ++ [message] := by
  cases h <;> rfl

theorem Client.Move.queued (h : c.Move latched c') : c.Queued c' := by
  cases h with
  | accepted vacant fresh => exact .fresh vacant rfl rfl
  | short gathers short => exact .same rfl rfl
  | asks gathers full inspect =>
      obtain ⟨-, hqueued, -⟩ := Client.gather_handed
      exact .same hqueued Client.gather_output
  | refuses gathers full inspect =>
      obtain ⟨-, hqueued, -⟩ := Client.gather_handed
      exact .same hqueued Client.gather_output
  | @delivers chunk nowMs message workerId jobClient _ gathers full inspect
      answers =>
      obtain ⟨-, hqueued, -⟩ := @Client.gather_handed c chunk nowMs
      cases answers with
      | stuck why => exact .same hqueued Client.gather_output
      | resets => exact .same hqueued Client.gather_output
      | closes why => exact .same hqueued Client.gather_output
      | replies kind starts =>
          refine .one _ gathers.fd gathers.phase
            (starts.queued.trans ?_) fun _ h => absurd h (kind _)
          exact congrArg (· ++ _) hqueued
  | sends fd phase bounded =>
      dsimp only [Client.advance]
      split <;> exact .same rfl rfl
  | closes fd why => exact .same rfl rfl
  | assigns fd phase idle starts =>
      exact .one _ fd phase starts.queued fun _ _ => idle

theorem Client.Turn.queued (h : c.Turn latched c') : c.Queued c' := by
  cases h with
  | same => exact .same rfl rfl
  | move move => exact move.queued
  | moveClose move fd why =>
      cases move.queued with
      | same queued output => exact .same queued output
      | one message fd phase queued idle =>
          exact .one message fd phase queued idle
      | fresh fd queued handed => exact .fresh fd queued handed

end Faultline
