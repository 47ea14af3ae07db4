/-
What a connection receives.

Behind a connection lie whole frames, each delivered once; before it lies
the part of a frame it has, and what is known about that part
(`Client.Pending`). The bytes that have arrived are the one followed by the
other, however they were cut into chunks, so the messages delivered and the
reason for a close are those of `parse nextFrame` on the whole stream.
-/
import Faultline.Proofs.ConnectionMoves
import Faultline.Proofs.StreamVerdicts

namespace Faultline

open Lib Coordinator

variable {s s' : Coordinator} {c c' : Client} {latched : Prop}
  {role : Role} {roles current : List Role} {past rest chunk : List UInt8}
  {message : Message} {header : ProtocolHeader} {nowMs : Int64}
  {reason : CloseReason}

-- ===================================================== verdicts

/-- A frame that is not complete has no verdict. -/
theorem nextFrame_waits (decoded : headerDecode rest = .ok header)
    (allowed : role.allows header.messageType = true)
    (short : messageDecode (rest.take headerSize) = .error .bufferTooSmall)
    (missing : rest.length < headerSize + header.payloadLength.toNat) :
    nextFrame role rest = .more := by
  rw [nextFrame, if_neg (Nat.not_lt.mpr (headerDecode_ok decoded).1)]
  simp only [decoded, allowed, Bool.not_true, Bool.false_eq_true, if_false,
    frameEnd_short short, if_pos missing]

/-- A frame is refused for what its bytes say. -/
theorem nextFrame_reject {size : Nat}
    (h : nextFrame role rest = .reject (reason, size)) :
    reason.framing = true := by
  unfold nextFrame at h
  split at h
  · cases h
  split at h
  · cases h
    rfl
  split at h
  · cases h
    rfl
  split at h
  · cases h
  split at h
  · cases h
    rfl
  · cases h

/-- The message types a connection may send have handlers. -/
theorem expected_of_allows {type : MessageType}
    (htype : message.type = some type)
    (h : role.allows message.messageType = true) :
    message.expected = true := by
  cases message with
  | unknown messageType => cases htype
  | _ =>
      first
        | rfl
        | (simp [Role.allows, Message.messageType, Message.type,
            MessageType.code] at h)

-- ============================================== the connection

theorem nextFrame_short (h : rest.length < headerSize) :
    nextFrame role rest = .more := if_pos h

/-- Nothing is decided about these bytes, in whatever role the next frame is
checked. -/
def Undecided (current : List Role) (rest : List UInt8) : Prop :=
  ∀ last, parse nextFrame (current ++ [last]) rest = ⟨[], 0, none⟩

theorem undecided_short (h : rest.length < headerSize) : Undecided [] rest :=
  fun _ => parse_more (nextFrame_short h)

theorem undecided_nil : Undecided [] [] := undecided_short (by decide)

/-- The part of a frame that a connection has, and the role it was checked
in once its header was complete. -/
inductive Client.Pending (latched : Prop) (c : Client) :
    List Role → List UInt8 → Prop where
  | header (isOpen : c.history.closing = none)
      (phase : c.phase = .readingMessage)
      (short : c.input.length < headerSize)
      (expected : c.expected = headerSize) : Pending latched c [] c.input
  | body {header : ProtocolHeader} (isOpen : c.history.closing = none)
      (phase : c.phase = .readingMessage)
      (decoded : headerDecode c.input = .ok header)
      (allowed : c.role.allows header.messageType = true)
      (short : messageDecode (c.input.take headerSize)
        = .error .bufferTooSmall)
      (expected : c.expected = headerSize + header.payloadLength.toNat)
      (missing : c.input.length < c.expected)
      (fits : c.expected ≤ clientFrameCapacity) :
      Pending latched c [c.role] c.input
  | writing (isOpen : c.history.closing = none)
      (phase : c.phase = .writingReply) : Pending latched c [] []
  | answered (isOpen : c.history.closing = none)
      (phase : c.phase = .readingMessage)
      (fits : c.expected ≤ clientFrameCapacity) (why : latched) :
      Pending latched c [] []
  | vacant (isOpen : c.history.closing = none) (fd : c.fd < 0) :
      Pending latched c [] []
  | closed {current : List Role} {rest : List UInt8} {reason : CloseReason}
      (fd : c.fd < 0) (closing : c.history.closing = some reason)
      (why : reason.framing = false)
      (quiet : Undecided current rest) :
      Pending latched c current rest
  | refused {role : Role} {rest : List UInt8} {reason : CloseReason}
      (fd : c.fd < 0) (closing : c.history.closing = some reason)
      (verdict : nextFrame role rest = .reject (reason, rest.length)) :
      Pending latched c [role] rest

/-- A frame whose header was just checked. -/
theorem Client.Pending.asked (input : c.input = rest) (role_eq : c.role = role)
    (isOpen : c.history.closing = none) (phase : c.phase = .readingMessage)
    (decoded : headerDecode rest = .ok header)
    (allowed : role.allows header.messageType = true)
    (short : messageDecode (rest.take headerSize) = .error .bufferTooSmall)
    (expected : c.expected = headerSize + header.payloadLength.toNat)
    (missing : rest.length < headerSize + header.payloadLength.toNat)
    (fits : headerSize + header.payloadLength.toNat ≤ clientFrameCapacity) :
    c.Pending latched [role] rest := by
  subst input role_eq
  exact .body isOpen phase decoded allowed short expected (expected ▸ missing)
    (expected ▸ fits)

/-- Whole frames behind, part of a frame before. -/
structure Client.Reader (c : Client) (current : List Role)
    (rest : List UInt8) : Prop where
  behind : ∃ roles past, Frames nextFrame roles past c.history.delivered
    ∧ c.history.arrived = past ++ rest
    ∧ c.history.roles = roles ++ current

def Client.Input (latched : Prop) (c : Client) : Prop :=
  ∃ current rest, c.Reader current rest ∧ c.Pending latched current rest

theorem Client.Pending.mono {latched' : Prop}
    (h : c.Pending latched current rest) (himp : latched → latched') :
    c.Pending latched' current rest := by
  cases h with
  | header isOpen phase short expected =>
      exact .header isOpen phase short expected
  | body isOpen phase decoded allowed short expected missing fits =>
      exact .body isOpen phase decoded allowed short expected missing fits
  | writing isOpen phase => exact .writing isOpen phase
  | answered isOpen phase fits why =>
      exact .answered isOpen phase fits (himp why)
  | vacant isOpen fd => exact .vacant isOpen fd
  | closed fd closing why quiet => exact .closed fd closing why quiet
  | refused fd closing verdict => exact .refused fd closing verdict

theorem Client.Input.mono {latched' : Prop} (h : c.Input latched)
    (himp : latched → latched') : c.Input latched' := by
  obtain ⟨current, rest, hreader, hpending⟩ := h
  exact ⟨current, rest, hreader, hpending.mono himp⟩

/-- The part of a frame that an open connection has decides nothing. -/
theorem Client.Pending.quiet (h : c.Pending latched current rest)
    (fd : 0 ≤ c.fd) : Undecided current rest := by
  cases h with
  | header isOpen phase short expected => exact undecided_short short
  | body isOpen phase decoded allowed short expected missing fits =>
      intro last
      exact parse_more (nextFrame_waits decoded allowed short
        (expected ▸ missing))
  | closed closed => omega
  | refused closed => omega
  | _ => exact undecided_nil

-- ======================================================== moves

theorem Client.gather_history :
    (c.gather chunk nowMs).history.arrived = c.history.arrived ++ chunk
      ∧ (c.gather chunk nowMs).history.delivered = c.history.delivered
      ∧ (c.gather chunk nowMs).history.closing = c.history.closing
      ∧ (c.gather chunk nowMs).phase = c.phase := by
  unfold Client.gather
  split <;> exact ⟨rfl, rfl, rfl, rfl⟩

@[simp] theorem Client.gather_expected :
    (c.gather chunk nowMs).expected = c.expected := by
  unfold Client.gather
  split <;> rfl

theorem Client.gather_roles :
    (c.gather chunk nowMs).history.roles
      = if (c.input ++ chunk).length = headerSize
        then c.history.roles ++ [c.role] else c.history.roles := by
  unfold Client.gather
  split <;> rfl

/-- An open connection is given as much of a frame as it asked for, and not
more. -/
theorem Client.Gathers.length_le (g : c.Gathers chunk)
    (hroom : c.input.length < c.expected) :
    (c.input ++ chunk).length ≤ c.expected := by
  have hbounded := g.bounded
  rw [List.length_append]
  omega

/-- The bytes asked for are there: they are judged with the connection's
role, which has been recorded. -/
theorem Client.Input.gathered (h : c.Input False) (g : c.Gathers chunk)
    (full : c.expected ≤ (c.input ++ chunk).length) (nowMs : Int64) :
    (∃ roles past, Frames nextFrame roles past c.history.delivered
      ∧ (c.gather chunk nowMs).history.arrived = past ++ (c.input ++ chunk)
      ∧ (c.gather chunk nowMs).history.roles = roles ++ [c.role])
    ∧ Judged c.role (c.input ++ chunk)
      (inspectInput c.role (c.input ++ chunk)) := by
  obtain ⟨current, rest, ⟨roles, past, hframes, harrived, hroles⟩, hpending⟩
    := h
  have hfd := g.fd
  cases hpending with
  | header isOpen phase short expected =>
      have hlen : (c.input ++ chunk).length = headerSize := by
        have hle := g.length_le (expected ▸ short)
        omega
      refine ⟨⟨roles, past, hframes, ?_, ?_⟩, inspectInput_header c.role hlen⟩
      · rw [Client.gather_history.1, harrived, List.append_assoc]
      · rw [Client.gather_roles, if_pos hlen, hroles, List.append_nil]
  | @body header isOpen phase decoded allowed short expected missing fits =>
      have hheader := (headerDecode_ok decoded).1
      have hlen := Nat.le_antisymm (g.length_le missing) full
      have hlong : (c.input ++ chunk).length ≠ headerSize := by omega
      refine ⟨⟨roles, past, hframes, ?_, ?_⟩, inspectInput_frame
        ((headerDecode_append hheader chunk).trans decoded) allowed ?_
        (hlen.trans expected) hlong⟩
      · rw [Client.gather_history.1, harrived, List.append_assoc]
      · rw [Client.gather_roles, if_neg hlong, hroles]
      · rw [List.take_append_of_le_length hheader]
        exact short
  | writing isOpen phase =>
      rw [g.phase] at phase
      cases phase
  | answered isOpen phase fits why => exact why.elim
  | vacant isOpen closed => omega
  | closed closed => omega
  | refused closed => omega

/-- A close for a reason outside the bytes. -/
theorem Client.Input.close {current : List Role} {rest : List UInt8}
    (hreader : c.Reader current rest)
    (quiet : Undecided current rest)
    (why : reason.framing = false) : (c.closed reason).Input latched :=
  ⟨current, rest, ⟨hreader.behind⟩,
    .closed (Int.negSucc_lt_zero 0) rfl why quiet⟩

/-- A message is queued when nothing of a frame is there. -/
theorem Client.Starts.input (h : c.Starts message c')
    (hreader : c.Reader [] []) (isOpen : c.history.closing = none) :
    c'.Input latched := by
  cases h with
  | unencodable encode => exact .close ⟨hreader.behind⟩ undecided_nil rfl
  | clockFailed encode => exact .close ⟨hreader.behind⟩ undecided_nil rfl
  | started encode => exact ⟨[], [], ⟨hreader.behind⟩, .writing isOpen rfl⟩

/-- The connection is ready for the next frame. -/
theorem Client.Input.reset (hreader : c.Reader [] [])
    (isOpen : c.history.closing = none) : c.resetInput.Input latched :=
  ⟨[], [], ⟨hreader.behind⟩, .header isOpen rfl (show 0 < headerSize by decide) rfl⟩

/-- A message is answered, whole frames lying behind. -/
theorem Client.Answers.input (h : c.Answers latched message c')
    (hreader : c.Reader [] []) (isOpen : c.history.closing = none)
    (phase : c.phase = .readingMessage)
    (fits : c.expected ≤ clientFrameCapacity)
    (expected : message.expected = true) : c'.Input latched := by
  cases h with
  | stuck why => exact ⟨[], [], hreader, .answered isOpen phase fits why⟩
  | resets => exact .reset hreader isOpen
  | @closes reason why =>
      refine .close hreader undecided_nil ?_
      rw [← Bool.not_eq_true]
      intro hframing
      rw [why hframing] at expected
      cases expected
  | replies kind starts => exact starts.input hreader isOpen

/-- More bytes of a frame, not yet enough. -/
theorem Client.Input.short (h : c.Input False) (g : c.Gathers chunk)
    (hshort : (c.input ++ chunk).length < c.expected) :
    (c.receive chunk nowMs).Input latched := by
  obtain ⟨current, rest, ⟨roles, past, hframes, harrived, hroles⟩, hpending⟩
    := h
  have hfd := g.fd
  have harrived' : c.history.arrived ++ chunk = past ++ (rest ++ chunk) := by
    rw [harrived, List.append_assoc]
  cases hpending with
  | header isOpen phase short expected =>
      exact ⟨[], c.input ++ chunk, ⟨roles, past, hframes, harrived', hroles⟩,
        .header isOpen phase (expected ▸ hshort) expected⟩
  | body isOpen phase decoded allowed short expected missing fits =>
      have hheader := (headerDecode_ok decoded).1
      refine ⟨[c.role], c.input ++ chunk,
        ⟨roles, past, hframes, harrived', hroles⟩,
        .body isOpen phase ((headerDecode_append hheader chunk).trans decoded)
          allowed ?_ expected hshort fits⟩
      show messageDecode ((c.input ++ chunk).take headerSize) = _
      rw [List.take_append_of_le_length hheader]
      exact short
  | writing isOpen phase =>
      rw [g.phase] at phase
      cases phase
  | answered isOpen phase fits why => exact why.elim
  | vacant isOpen closed => omega
  | closed closed => omega
  | refused closed => omega

/-- An open connection with nothing latched has not been told to close. -/
theorem Client.Input.isOpen (h : c.Input False) (fd : 0 ≤ c.fd) :
    c.history.closing = none := by
  obtain ⟨current, rest, hreader, hpending⟩ := h
  cases hpending with
  | closed closed => omega
  | refused closed => omega
  | _ => assumption

/-- What a reading connection asks for fits its buffer. -/
theorem Client.Input.fits (h : c.Input False) (fd : 0 ≤ c.fd)
    (phase : c.phase = .readingMessage) :
    c.input.length < c.expected ∧ c.expected ≤ clientFrameCapacity := by
  obtain ⟨current, rest, hreader, hpending⟩ := h
  cases hpending with
  | header isOpen _ short expected =>
      rw [expected]
      exact ⟨short, by decide⟩
  | body isOpen _ decoded allowed short expected missing fits =>
      exact ⟨missing, fits⟩
  | writing isOpen writing =>
      rw [phase] at writing
      cases writing
  | answered isOpen _ fits why => exact why.elim
  | vacant isOpen closed => omega
  | closed closed => omega
  | refused closed => omega

/-- A connection that reads and has no input lies between two frames. -/
theorem Client.Input.between (h : c.Input False) (fd : 0 ≤ c.fd)
    (phase : c.phase = .writingReply ∨ c.input = []) : c.Reader [] [] := by
  obtain ⟨current, rest, hreader, hpending⟩ := h
  cases hpending with
  | header isOpen reading short expected =>
      rcases phase with writing | hempty
      · rw [reading] at writing
        cases writing
      · rw [hempty] at hreader
        exact hreader
  | body isOpen reading decoded allowed short expected missing fits =>
      rcases phase with writing | hempty
      · rw [reading] at writing
        cases writing
      · have hheader := (headerDecode_ok decoded).1
        rw [hempty] at hheader
        cases hheader
  | writing isOpen writing => exact hreader
  | answered isOpen _ fits why => exact why.elim
  | vacant isOpen closed => omega
  | closed closed => omega
  | refused closed => omega

/-- A connection just accepted waits for a header. -/
theorem Client.Input.fresh {fd : Int} :
    (Client.accepted fd nowMs).Input latched :=
  ⟨[], [], ⟨[], [], .nil, rfl, rfl⟩,
    .header rfl rfl (show 0 < headerSize by decide) rfl⟩

/-- Every move keeps the input in order. -/
theorem Client.Input.move (h : c.Input False) (hmove : c.Move latched c') :
    c'.Input latched := by
  cases hmove with
  | accepted vacant fresh => exact .fresh
  | short gathers short => exact h.short gathers short
  | @asks chunk nowMs expected gathers full inspect =>
      obtain ⟨⟨roles, past, hframes, harrived, hroles⟩, hjudged⟩ :=
        h.gathered gathers full nowMs
      obtain ⟨-, hdelivered, hclosing, hphase⟩ :=
        @Client.gather_history c chunk nowMs
      rw [inspect] at hjudged
      cases hjudged with
      | need decoded allowed short missing fits =>
          exact ⟨[c.role], c.input ++ chunk,
            ⟨roles, past, hdelivered ▸ hframes, harrived, hroles⟩,
            .asked Client.gather_input Client.gather_role
              (hclosing.trans (h.isOpen gathers.fd))
              (hphase.trans gathers.phase) decoded allowed short rfl missing
              fits⟩
  | @refuses chunk nowMs reason gathers full inspect =>
      obtain ⟨⟨roles, past, hframes, harrived, hroles⟩, hjudged⟩ :=
        h.gathered gathers full nowMs
      obtain ⟨-, hdelivered, -, -⟩ := @Client.gather_history c chunk nowMs
      rw [inspect] at hjudged
      cases hjudged with
      | reject verdict =>
          exact ⟨[c.role], c.input ++ chunk,
            ⟨roles, past, hdelivered ▸ hframes, harrived, hroles⟩,
            .refused (Int.negSucc_lt_zero 0) rfl verdict⟩
  | @delivers chunk nowMs message workerId jobClient _ gathers full inspect
      answers =>
      obtain ⟨⟨roles, past, hframes, harrived, hroles⟩, hjudged⟩ :=
        h.gathered gathers full nowMs
      obtain ⟨-, hdelivered, hclosing, hphase⟩ :=
        @Client.gather_history c chunk nowMs
      rw [inspect] at hjudged
      cases hjudged with
      | deliver verdict =>
          obtain ⟨hdecode, hallowed⟩ := nextFrame_deliver verdict
          obtain ⟨header, type, hheader, -, hbody⟩ := messageDecode_ok hdecode
          refine answers.input ⟨roles ++ [c.role],
              past ++ (c.input ++ chunk), ?_, ?_, ?_⟩
            (hclosing.trans (h.isOpen gathers.fd))
            (hphase.trans gathers.phase) ?_
            (expected_of_allows (decodeBody_frame hbody).1 hallowed)
          · show Frames nextFrame _ _
              ((c.gather chunk nowMs).history.delivered ++ [message])
            rw [hdelivered]
            exact hframes.snoc verdict
          · exact harrived.trans (List.append_nil _).symm
          · exact hroles.trans (List.append_nil _).symm
          · show (c.gather chunk nowMs).expected ≤ _
            rw [Client.gather_expected]
            exact (h.fits gathers.fd gathers.phase).2
  | sends fd phase bounded =>
      have hreader := h.between fd (Or.inl phase)
      dsimp only [Client.advance]
      split
      · exact .reset ⟨hreader.behind⟩ (h.isOpen fd)
      · exact ⟨[], [], ⟨hreader.behind⟩, .writing (h.isOpen fd) phase⟩
  | closes fd why =>
      obtain ⟨current, rest, hreader, hpending⟩ := h
      exact .close hreader (hpending.quiet fd) why
  | assigns fd phase idle starts =>
      exact starts.input (h.between fd (Or.inr idle)) (h.isOpen fd)

theorem Client.Input.turn (h : c.Input False)
    (hturn : Client.Turn latched c c') : c'.Input latched := by
  cases hturn with
  | same => exact h.mono False.elim
  | move move => exact h.move move
  | moveClose move fd why =>
      obtain ⟨current, rest, hreader, hpending⟩ := h.move move
      exact .close hreader (hpending.quiet fd) why

/-- Once the store has failed, connections are only accepted. -/
theorem Coordinator.Turn.client_latched {settings : LoopSettings}
    (h : s.Turn settings s') (hlatched : s.store.failure ≠ .none)
    (i : Fin maxClients) : s'.client i = s.client i
      ∨ ∃ fd nowMs, s'.client i = Client.accepted fd nowMs := by
  cases h with
  | serve healthy => exact absurd healthy hlatched
  | @accept k fd nowMs fresh vacant =>
      by_cases hik : i = k
      · subst hik
        exact .inr ⟨fd, nowMs, client_put_self⟩
      · exact .inl (client_put_of_ne hik)
  | offer offers =>
      cases offers with
      | refused healthy => exact absurd healthy hlatched
      | assigned healthy => exact absurd healthy hlatched
      | _ => exact .inl rfl
  | _ => exact .inl rfl

/-- In every state the loop can be in, every connection's input is in
order. -/
theorem Coordinator.Reachable.input {settings : LoopSettings}
    (h : Reachable settings s) (i : Fin maxClients) :
    (s.client i).Input (s.store.failure ≠ .none) := by
  induction h with
  | start opened session =>
      rw [client_start]
      exact ⟨[], [], ⟨[], [], .nil, rfl, rfl⟩,
        .vacant rfl (Int.negSucc_lt_zero 0)⟩
  | @step s s' before step ih =>
      have hturn := step.turn
      by_cases hlatched : s.store.failure = .none
      · exact (ih.mono (absurd hlatched)).turn
          (hturn.client before.live i)
      · rcases hturn.client_latched hlatched i with hsame | ⟨fd, nowMs, hfresh⟩
        · rw [hsame]
          exact ih.mono fun _ hnone =>
            hlatched ((hturn.after before.live).healthy hnone)
        · rw [hfresh]
          exact .fresh

-- ============================================ whole connections

/-- What a connection's stream says with all of it at hand, a next frame
being checked in the role `last`. -/
def Client.parsed (c : Client) (last : Role) :
    Parsed (CloseReason × Nat) Message :=
  parse nextFrame (c.history.roles ++ [last]) c.history.arrived

/-- Whole frames behind, then what the rest says. -/
theorem Client.Reader.parsed (h : c.Reader current rest) (last : Role) :
    (c.parsed last).messages = c.history.delivered
          ++ (parse nextFrame (current ++ [last]) rest).messages
      ∧ (c.parsed last).consumed + rest.length = c.history.arrived.length
          + (parse nextFrame (current ++ [last]) rest).consumed
      ∧ (c.parsed last).rejected
        = (parse nextFrame (current ++ [last]) rest).rejected := by
  obtain ⟨roles, past, hframes, harrived, hroles⟩ := h.behind
  unfold Client.parsed
  rw [hroles, harrived, List.append_assoc,
    hframes.parse_append nextFrame_stable]
  refine ⟨rfl, ?_, rfl⟩
  dsimp only
  rw [List.length_append]
  omega

/-- A connection that is not refused has delivered what its stream says, and
was not closed for what the bytes are. -/
theorem Client.Pending.verdict (h : c.Pending latched current rest) :
    (Undecided current rest
      ∧ ∀ reason, c.history.closing = some reason → reason.framing = false)
    ∨ ∃ reason, c.history.closing = some reason ∧ reason.framing = true
      ∧ ∀ last, parse nextFrame (current ++ [last]) rest
        = ⟨[], 0, some (reason, rest.length)⟩ := by
  have hopen (isOpen : c.history.closing = none) (reason : CloseReason)
      (hclosing : c.history.closing = some reason) :
      reason.framing = false := by
    rw [isOpen] at hclosing
    cases hclosing
  cases h with
  | header isOpen phase short expected =>
      exact .inl ⟨undecided_short short, hopen isOpen⟩
  | body isOpen phase decoded allowed short expected missing fits =>
      exact .inl ⟨fun last => parse_more (nextFrame_waits decoded allowed short
        (expected ▸ missing)), hopen isOpen⟩
  | closed fd closing why quiet =>
      refine .inl ⟨quiet, fun reason hclosing => ?_⟩
      rw [closing] at hclosing
      cases hclosing
      exact why
  | @refused role _ reason fd closing verdict =>
      exact .inr ⟨reason, closing, nextFrame_reject verdict,
        fun last => parse_reject verdict⟩
  | writing isOpen => exact .inl ⟨undecided_nil, hopen isOpen⟩
  | answered isOpen => exact .inl ⟨undecided_nil, hopen isOpen⟩
  | vacant isOpen => exact .inl ⟨undecided_nil, hopen isOpen⟩

end Faultline
