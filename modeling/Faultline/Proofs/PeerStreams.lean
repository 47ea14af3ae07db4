/-
What one end of a connection sends is what the other receives.

A sender's bytes are the encodings of its messages, one after the other. A
receiver that has a prefix of them and cuts whole frames off it has a prefix of
the messages (`frames_sent`). For a connection of the coordinator this needs
that nothing unencodable was queued, or that it was closed over it
(`Client.Encoded`).
-/
import Faultline.Proofs.AssignmentFraming
import Faultline.Proofs.InputFraming

namespace Faultline

open Lib Coordinator

variable {s : Coordinator} {c c' : Client} {latched : Prop}
  {message : Message} {sent : List Message} {frame rest : List UInt8}

-- ==================================================== encodings

theorem encodings_append (front back : List Message) :
    encodings (front ++ back) = encodings front ++ encodings back :=
  List.flatMap_append

/-- An encoding is decoded, whatever follows. -/
theorem Message.Encodable.decode (h : message.Encodable) (rest : List UInt8) :
    messageDecode (message.encoding ++ rest)
      = .ok (message, message.encoding.length) := by
  obtain ⟨size, hvalid, hframe⟩ := encodeOutput_ok_iff.mp h
  rw [hframe, Message.length_frame hvalid]
  exact messageDecode_frame hvalid rest

theorem messageDecode_whole (h : messageDecode frame
    = .ok (message, frame.length)) (rest : List UInt8) :
    messageDecode (frame ++ rest) = .ok (message, frame.length) := by
  rw [messageDecode_append (by rw [h]; exact nofun), h]

/-- The first frame of what was sent is the first message. -/
theorem encodings_front (encodable : ∀ m ∈ sent, m.Encodable)
    (decoded : messageDecode frame = .ok (message, frame.length))
    (there : frame <+: encodings sent) :
    ∃ more, sent = message :: more ∧ frame = message.encoding := by
  obtain ⟨rest, hrest⟩ := there
  have hwhole := messageDecode_whole decoded rest
  rw [hrest] at hwhole
  cases sent with
  | nil =>
      obtain ⟨header, -, hheader, -⟩ := messageDecode_ok hwhole
      exact absurd (headerDecode_ok hheader).1 (by decide)
  | cons first more =>
      have hfirst := (encodable first List.mem_cons_self).decode
        (encodings more)
      have hcons : encodings (first :: more)
          = first.encoding ++ encodings more := List.flatMap_cons
      rw [hcons, hfirst] at hwhole
      injection hwhole with hpair
      injection hpair with hmessage hlength
      refine ⟨more, by rw [hmessage], ?_⟩
      rw [← hmessage]
      rw [hcons] at hrest
      exact (List.append_inj hrest hlength.symm).1

/-- Whole frames of what was sent are messages that were sent. -/
theorem frames_sent {ρ ε μ : Type} {next : ρ → List UInt8 → Lib.Verdict ε μ}
    {f : μ → Message} {rs : List ρ} {past : List UInt8} {ms : List μ}
    (decodes : ∀ {r frame m}, next r frame = .deliver m frame.length →
      messageDecode frame = .ok (f m, frame.length))
    (h : Frames next rs past ms) (encodable : ∀ m ∈ sent, m.Encodable)
    (there : past <+: encodings sent) :
    ∃ more, sent = ms.map f ++ more
      ∧ past = encodings (ms.map f) := by
  induction h with
  | nil => exact ⟨sent, rfl, rfl⟩
  | @snoc rs past frame ms r m before last ih =>
      obtain ⟨more, hsent, hpast⟩ := ih
        ((List.prefix_append past frame).trans there)
      rw [hsent, encodings_append, hpast, List.prefix_append_right_inj]
        at there
      obtain ⟨more', rfl, hframe⟩ := encodings_front (fun m hm => encodable m
        (hsent ▸ List.mem_append_right _ hm)) (decodes last) there
      refine ⟨more', ?_, ?_⟩
      · rw [hsent, List.map_append, List.append_assoc]
        rfl
      · rw [List.map_append, encodings_append, hpast, hframe]
        exact congrArg _ (List.append_nil _).symm

-- ================================================== connections

/-- What a connection delivers was sent to it. -/
theorem Client.Input.delivered_sent (h : c.Input latched)
    (encodable : ∀ m ∈ sent, m.Encodable)
    (there : c.history.arrived <+: encodings sent) :
    c.history.delivered <+: sent := by
  obtain ⟨_, rest, ⟨_, past, hframes, harrived, _⟩, _⟩ := h
  rw [harrived] at there
  obtain ⟨more, hsent, -⟩ := frames_sent (f := id)
    (fun h => (nextFrame_deliver h).1) hframes encodable
    ((List.prefix_append past rest).trans there)
  rw [List.map_id] at hsent
  exact ⟨more, hsent.symm⟩

/-- Everything queued has an encoding, except the last message of a
connection that was closed over it. -/
def Client.Encoded (c : Client) : Prop :=
  ∃ whole, whole <+: c.history.queued ∧ (∀ m ∈ whole, m.Encodable)
    ∧ encodings whole = encodings c.history.queued
    ∧ (0 ≤ c.fd → whole = c.history.queued)

theorem Client.Encoded.same (h : c.Encoded)
    (queued : c'.history.queued = c.history.queued)
    (fd : 0 ≤ c'.fd → 0 ≤ c.fd) : c'.Encoded := by
  obtain ⟨whole, hwhole, hall, hsame, hopen⟩ := h
  refine ⟨whole, ?_, hall, ?_, fun hfd => ?_⟩
  · rw [queued]
    exact hwhole
  · rw [queued]
    exact hsame
  · rw [queued]
    exact hopen (fd hfd)

theorem Client.Encoded.close {reason : CloseReason} (h : c.Encoded) :
    (c.closed reason).Encoded :=
  h.same rfl fun hfd => absurd hfd (Int.not_le.mpr Client.closed_fd)

theorem Client.Starts.encoded (h : c.Starts message c')
    (all : ∀ m ∈ c.history.queued, m.Encodable) : c'.Encoded := by
  have hmore {output : List UInt8} (hencode : encodeOutput message = .ok output)
      (m : Message) (hm : m ∈ c.history.queued ++ [message]) :
      m.Encodable := by
    rcases List.mem_append.mp hm with hm | hm
    · exact all m hm
    · rw [List.mem_singleton.mp hm, Message.Encodable, hencode,
        Message.encoding_eq hencode]
  cases h with
  | @unencodable e encode =>
      have hnone : message.encoding = [] := by
        rw [Message.encoding, encode]
      refine ⟨c.history.queued, List.prefix_append _ _, all, ?_,
        fun hfd => absurd hfd (Int.not_le.mpr Client.closed_fd)⟩
      show _ = encodings (c.history.queued ++ [message])
      rw [encodings_snoc, hnone, List.append_nil]
  | clockFailed encode => exact ⟨_, List.prefix_refl _, hmore encode, rfl,
      fun _ => rfl⟩
  | started encode => exact ⟨_, List.prefix_refl _, hmore encode, rfl,
      fun _ => rfl⟩

theorem Client.Encoded.all (h : c.Encoded) (fd : 0 ≤ c.fd) :
    ∀ m ∈ c.history.queued, m.Encodable := by
  obtain ⟨whole, -, hall, -, hopen⟩ := h
  rw [← hopen fd]
  exact hall

theorem Client.gather_fd {chunk : List UInt8} {nowMs : Int64} :
    (c.gather chunk nowMs).fd = c.fd := by
  unfold Client.gather
  split <;> rfl

theorem Client.Encoded.move (h : c.Encoded) (hmove : c.Move latched c') :
    c'.Encoded := by
  have hgather {chunk : List UInt8} {nowMs : Int64} :
      (c.gather chunk nowMs).Encoded :=
    h.same Client.gather_handed.2.1 fun hfd => Client.gather_fd ▸ hfd
  cases hmove with
  | accepted vacant fresh =>
      exact ⟨[], List.prefix_refl _, fun _ hm => absurd hm List.not_mem_nil,
        rfl, fun _ => rfl⟩
  | short gathers short => exact h.same rfl id
  | asks gathers full inspect => exact hgather.same rfl id
  | refuses gathers full inspect => exact hgather.close
  | @delivers chunk nowMs message workerId jobClient _ gathers full inspect
      answers =>
      have hdelivered : (((c.gather chunk nowMs).deliver message).withRole
          workerId jobClient).Encoded := hgather.same rfl id
      cases answers with
      | stuck why => exact hdelivered
      | resets => exact hdelivered.same rfl id
      | closes why => exact hdelivered.close
      | replies kind starts =>
          refine starts.encoded (hdelivered.all ?_)
          exact (@Client.gather_fd c chunk nowMs).symm ▸ gathers.fd
  | sends fd phase bounded =>
      refine h.same ?_ fun _ => fd
      dsimp only [Client.advance]
      split <;> rfl
  | closes fd why => exact h.close
  | assigns fd phase idle starts => exact starts.encoded (h.all fd)

theorem Client.Encoded.turn (h : c.Encoded) (hturn : c.Turn latched c') :
    c'.Encoded := by
  cases hturn with
  | same => exact h
  | move move => exact h.move move
  | moveClose move fd why => exact (h.move move).close

theorem Coordinator.Reachable.encoded {settings : LoopSettings}
    (h : s.Reachable settings) (i : Fin maxClients) :
    (s.client i).Encoded := by
  induction h with
  | start opened session =>
      rw [client_start]
      exact ⟨[], List.prefix_refl _, fun _ hm => absurd hm List.not_mem_nil,
        rfl, fun _ => rfl⟩
  | step before step ih => exact ih.turn (step.turn.client before.live i)

end Faultline
