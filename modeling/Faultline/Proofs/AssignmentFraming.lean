/-
What a worker receives.

The worker's receiver is the connection's on a smaller scale: whole
assignments behind, part of one before (`WorkerProcess.Pending`). Its
verdicts are those of `nextAssignment` on the stream. A frame that is
complete while a job is held is refused, so the stream alone does not decide;
the stream and the answers to that question do.
-/
import Faultline.Abstract.Streams
import Faultline.Proofs.Framing
import Faultline.Proofs.WorkerMoves

namespace Faultline

open Lib WorkerProcess

variable {w w₁ w' : WorkerProcess} {status : Option ExitStatus}
  {stream rest front chunk : List UInt8} {header : ProtocolHeader}
  {expected : Nat} {nowMs : Int64} {accepted : List JobAssignPayload}
  {assignment : JobAssignPayload} {workerId : UInt32} {busy : Bool}

-- ===================================================== verdicts

/-- Once the prefix is wrong it stays wrong. -/
theorem prefixMatches_append (h : prefixMatches (stream ++ rest) = true) :
    prefixMatches stream = true := by
  simp only [prefixMatches, beq_iff_eq] at h ⊢
  have htake := congrArg (List.take stream.length) h
  rw [List.take_take, List.take_take, Nat.min_comm, ← List.take_take,
    List.take_left, List.length_append,
    Nat.min_eq_left (Nat.le_add_right _ _)] at htake
  exact htake

/-- The prefix lies within the header. -/
theorem prefixMatches_header (h : headerSize ≤ stream.length)
    (rest : List UInt8) :
    prefixMatches (stream ++ rest) = prefixMatches stream := by
  have hlong : framePrefix.length ≤ stream.length :=
    Nat.le_trans (by decide) h
  have hlong' : framePrefix.length ≤ (stream ++ rest).length := by
    rw [List.length_append]
    omega
  simp only [prefixMatches, List.take_append_of_le_length hlong,
    List.take_of_length_le hlong, List.take_of_length_le hlong']

/-- The front of a stream whose header is an assignment's. -/
theorem nextAssignment_header (hmatch : prefixMatches stream = true)
    (decoded : headerDecode stream = .ok header)
    (checked : assignmentHeader header = true) :
    nextAssignment workerId busy stream
      = if stream.length < headerSize + header.payloadLength.toNat then .more
        else (acceptAssignment workerId busy
          (stream.take (headerSize + header.payloadLength.toNat))).elim
            (.reject ())
            (.deliver · (headerSize + header.payloadLength.toNat)) := by
  unfold nextAssignment
  rw [hmatch, if_neg (by decide),
    if_neg (Nat.not_lt.mpr (headerDecode_ok decoded).1)]
  simp only [decoded, checked, Bool.not_true, Bool.false_eq_true, if_false]
  split
  · rfl
  · cases acceptAssignment workerId busy
      (stream.take (headerSize + header.payloadLength.toNat)) <;> rfl

theorem nextAssignment_unmatched (h : prefixMatches stream = false) :
    nextAssignment workerId busy stream = .reject () := by
  unfold nextAssignment
  rw [h, if_pos (by decide)]

theorem nextAssignment_short (h : prefixMatches stream = true)
    (hlen : stream.length < headerSize) :
    nextAssignment workerId busy stream = .more := by
  unfold nextAssignment
  rw [h, if_neg (by decide), if_pos hlen]

/-- A header that is no assignment's. -/
theorem nextAssignment_refused (hlen : headerSize ≤ stream.length)
    (h : ∀ header, headerDecode stream = .ok header →
      assignmentHeader header = false) :
    nextAssignment workerId busy stream = .reject () := by
  unfold nextAssignment
  split
  · rfl
  rw [if_neg (Nat.not_lt.mpr hlen)]
  cases hheader : headerDecode stream with
  | error e => rfl
  | ok header => simp only [h header hheader, Bool.not_false, if_true]

/-- Every stream is judged in one of these ways. -/
theorem headerDecode_checked (stream : List UInt8) :
    (∃ header, headerDecode stream = .ok header
      ∧ assignmentHeader header = true)
    ∨ ∀ header, headerDecode stream = .ok header →
      assignmentHeader header = false := by
  cases hheader : headerDecode stream with
  | error e => exact .inr (fun header h => by cases h)
  | ok header =>
      cases hchecked : assignmentHeader header with
      | true => exact .inl ⟨header, rfl, hchecked⟩
      | false =>
          refine .inr (fun header' h => ?_)
          cases h
          exact hchecked

theorem nextAssignment_stable : Stable (nextAssignment workerId) where
  stands := by
    intro busy stream rest hverdict
    cases hmatch : prefixMatches stream with
    | false =>
        have hmatch' : prefixMatches (stream ++ rest) = false := by
          rw [← Bool.not_eq_true]
          intro h
          rw [prefixMatches_append h] at hmatch
          cases hmatch
        rw [nextAssignment_unmatched hmatch, nextAssignment_unmatched hmatch']
    | true =>
        by_cases hlen : stream.length < headerSize
        · exact absurd (nextAssignment_short hmatch hlen) hverdict
        have hlen := Nat.not_lt.mp hlen
        have hlen' : headerSize ≤ (stream ++ rest).length := by
          rw [List.length_append]
          omega
        have hmatch' := (prefixMatches_header hlen rest).trans hmatch
        rcases headerDecode_checked stream with ⟨header, decoded, checked⟩ | h
        · have decoded' := (headerDecode_append hlen rest).trans decoded
          rw [nextAssignment_header hmatch' decoded' checked]
          rw [nextAssignment_header hmatch decoded checked] at hverdict ⊢
          split at hverdict
          · exact absurd rfl hverdict
          rename_i hthere
          have hthere := Nat.not_lt.mp hthere
          rw [if_neg (by rw [List.length_append]; omega),
            if_neg (Nat.not_lt.mpr hthere),
            List.take_append_of_le_length hthere]
        · rw [nextAssignment_refused hlen h, nextAssignment_refused hlen'
            (by rw [headerDecode_append hlen rest]; exact h)]
  size := by
    intro busy stream assignment size h
    unfold nextAssignment at h
    split at h
    · cases h
    split at h
    · cases h
    split at h
    · cases h
    split at h
    · cases h
    dsimp only at h
    split at h
    · cases h
    split at h
    · cases h
    · cases h
      omega

-- ================================================ the receiver

/-- The part of an assignment that a worker has, and how much it waits
for. -/
inductive PartAssignment (front : List UInt8) (expected : Nat) : Prop where
  | header (prefixed : prefixMatches front = true)
      (short : front.length < headerSize) (all : expected = headerSize)
  | body {header : ProtocolHeader} (prefixed : prefixMatches front = true)
      (decoded : headerDecode front = .ok header)
      (checked : assignmentHeader header = true)
      (all : expected = headerSize + header.payloadLength.toNat)
      (missing : front.length < expected)

/-- Part of an assignment decides nothing. -/
theorem PartAssignment.quiet (h : PartAssignment front expected) :
    nextAssignment workerId busy front = .more := by
  cases h with
  | header prefixed short all => exact nextAssignment_short prefixed short
  | body prefixed decoded checked all missing =>
      rw [nextAssignment_header prefixed decoded checked,
        if_pos (all ▸ missing)]

theorem assignmentHeader_iff : assignmentHeader header = true ↔
    header.messageType = MessageType.jobAssign.code
      ∧ MessageType.jobAssign.minimum ≤ header.payloadLength.toNat
      ∧ header.payloadLength.toNat ≤ messageMaxFrameSize - headerSize := by
  simp [assignmentHeader, and_assoc]

/-- What a worker waits for is more than it has and fits its buffer. -/
theorem PartAssignment.fits (h : PartAssignment front expected) :
    front.length < expected ∧ expected ≤ messageMaxFrameSize := by
  cases h with
  | header prefixed short all =>
      rw [all]
      exact ⟨short, by decide⟩
  | body prefixed decoded checked all missing =>
      have hlength := (assignmentHeader_iff.mp checked).2.2
      have hroom : headerSize ≤ messageMaxFrameSize := by decide
      omega

/-- All that was waited for is there, and it is more than a header: it is the
whole frame. -/
theorem PartAssignment.complete (h : PartAssignment front expected)
    (bounded : (front ++ chunk).length ≤ expected)
    (hmatch : prefixMatches (front ++ chunk) = true)
    (full : expected ≤ (front ++ chunk).length)
    (long : (front ++ chunk).length ≠ headerSize) :
    nextAssignment workerId busy (front ++ chunk)
      = (acceptAssignment workerId busy (front ++ chunk)).elim (.reject ())
        (.deliver · (front ++ chunk).length) := by
  have hlen := Nat.le_antisymm bounded full
  cases h with
  | header prefixed short all => exact absurd (hlen.trans all) long
  | body prefixed decoded checked all missing =>
      have decoded' := (headerDecode_append (headerDecode_ok decoded).1
        chunk).trans decoded
      rw [nextAssignment_header hmatch decoded' checked, ← all, ← hlen,
        if_neg (Nat.lt_irrefl _), List.take_length]

/-- More of the same. -/
theorem PartAssignment.waits (h : PartAssignment front expected)
    (received : inspectAssignment workerId busy expected (front ++ chunk)
      = .wait) : PartAssignment (front ++ chunk) expected := by
  unfold inspectAssignment at received
  split at received
  · cases received
  rename_i hmatch
  simp only [Bool.not_eq_true, Bool.not_eq_false'] at hmatch
  split at received
  · rename_i hmissing
    cases h with
    | header prefixed short all => exact .header hmatch (all ▸ hmissing) all
    | body prefixed decoded checked all missing =>
        exact .body hmatch ((headerDecode_append (headerDecode_ok decoded).1
          chunk).trans decoded) checked all hmissing
  split at received
  · split at received
    · cases received
    · split at received <;> cases received
  · split at received <;> cases received

/-- A header is complete, and it is an assignment's. -/
theorem PartAssignment.of_need {needed : Nat}
    (received : inspectAssignment workerId busy expected front
      = .need needed) : PartAssignment front needed := by
  unfold inspectAssignment at received
  split at received
  · cases received
  rename_i hmatch
  simp only [Bool.not_eq_true, Bool.not_eq_false'] at hmatch
  split at received
  · cases received
  split at received
  · rename_i hlen
    split at received
    · cases received
    · rename_i header hheader
      split at received
      · rename_i hchecked
        cases received
        have hminimum := (assignmentHeader_iff.mp hchecked).2.1
        have hpos : 0 < MessageType.jobAssign.minimum := by decide
        exact .body hmatch hheader hchecked rfl (by omega)
      · cases received
  · split at received <;> cases received

/-- A frame that is refused before it is complete is refused whatever the
worker does. -/
theorem nextAssignment_early
    (received : inspectAssignment workerId busy expected front = .reject)
    (early : ¬ (prefixMatches front = true ∧ expected ≤ front.length
      ∧ front.length ≠ headerSize)) (held : Bool) :
    nextAssignment workerId held front = .reject () := by
  cases hmatch : prefixMatches front with
  | false => exact nextAssignment_unmatched hmatch
  | true =>
      unfold inspectAssignment at received
      rw [hmatch, if_neg (by decide)] at received
      split at received
      · cases received
      rename_i hfull
      split at received
      · rename_i hlen
        refine nextAssignment_refused (Nat.le_of_eq hlen.symm)
          (fun header decoded => ?_)
        simp only [decoded] at received
        split at received
        · cases received
        · rename_i hchecked
          exact Bool.eq_false_iff.mpr hchecked
      · rename_i hlen
        exact absurd ⟨hmatch, Nat.not_lt.mp hfull, hlen⟩ early

/-- Nothing has gone through the loop yet. -/
structure WorkerProcess.Silent (w : WorkerProcess) : Prop where
  arrived : w.history.arrived = []
  busy : w.history.busy = []
  accepted : w.history.accepted = []
  rejected : w.history.rejected = false

/-- Whole assignments behind, part of one before. -/
structure WorkerProcess.Reader (w : WorkerProcess) : Prop where
  behind : ∃ past, Frames (nextAssignment w.workerId) w.history.busy past
      w.history.accepted
    ∧ w.history.arrived = past ++ w.input
  part : PartAssignment w.input w.expected
  rejected : w.history.rejected = false

/-- A process that goes on. -/
def WorkerProcess.Input (w : WorkerProcess) : Prop :=
  if w.phase = .working then w.Reader else w.Silent

/-- The assignments received, and whether the receiver gave up, are what the
stream says. -/
def ParsesTo (workerId : UInt32) (busy : List Bool) (arrived : List UInt8)
    (accepted : List JobAssignPayload) (rejected : Bool) : Prop :=
  ∀ last, ∃ consumed, parse (nextAssignment workerId) (busy ++ [last]) arrived
    = ⟨accepted, consumed, if rejected then some () else none⟩

def WorkerProcess.Parses (w : WorkerProcess) : Prop :=
  ParsesTo w.workerId w.history.busy w.history.arrived w.history.accepted
    w.history.rejected

theorem WorkerProcess.Silent.parses (h : w.Silent) : w.Parses := by
  intro last
  refine ⟨0, ?_⟩
  rw [h.arrived, h.busy, h.accepted, h.rejected]
  exact parse_more (nextAssignment_short (by decide) (by decide))

/-- Whole frames, and part of one. -/
theorem parsesTo_quiet {past : List UInt8} {held : List Bool}
    (frames : Frames (nextAssignment workerId) held past accepted)
    (part : ∀ busy, nextAssignment workerId busy rest = .more) :
    ParsesTo workerId held (past ++ rest) accepted false := by
  intro last
  rw [frames.parse_append nextAssignment_stable, parse_more (part last),
    List.append_nil]
  exact ⟨_, rfl⟩

/-- Whole frames, and one that is refused. -/
theorem parsesTo_reject {past : List UInt8} {held : List Bool}
    (frames : Frames (nextAssignment workerId) held past accepted)
    (refused : ∀ busy, nextAssignment workerId busy rest = .reject ()) :
    ParsesTo workerId held (past ++ rest) accepted true := by
  intro last
  rw [frames.parse_append nextAssignment_stable, parse_reject (refused last),
    List.append_nil]
  exact ⟨_, rfl⟩

/-- Whole frames, and one that is refused once it is complete. -/
theorem parsesTo_refuse {past : List UInt8} {held : List Bool}
    (frames : Frames (nextAssignment workerId) held past accepted)
    (refused : nextAssignment workerId busy rest = .reject ()) :
    ParsesTo workerId (held ++ [busy]) (past ++ rest) accepted true := by
  intro last
  rw [List.append_assoc, frames.parse_append nextAssignment_stable,
    List.singleton_append, parse_reject refused, List.append_nil]
  exact ⟨_, rfl⟩

theorem WorkerProcess.Reader.parses (h : w.Reader) : w.Parses := by
  obtain ⟨past, frames, arrived⟩ := h.behind
  unfold WorkerProcess.Parses
  rw [arrived, h.rejected]
  exact parsesTo_quiet frames (fun _ => h.part.quiet)

theorem WorkerProcess.Input.parses (h : w.Input) : w.Parses := by
  unfold WorkerProcess.Input at h
  split at h
  · exact h.parses
  · exact h.parses

-- ======================================================== moves

theorem WorkerProcess.completes_iff : w.completes chunk = true ↔
    prefixMatches (w.input ++ chunk) = true
      ∧ w.expected ≤ (w.input ++ chunk).length
      ∧ (w.input ++ chunk).length ≠ headerSize := by
  simp [completes, and_assoc]

/-- A worker is given as much as it waits for, and not more. -/
theorem WorkerProcess.Reader.bounded (h : w.Reader)
    (possible : w.CanReceive (.data chunk)) :
    (w.input ++ chunk).length ≤ w.expected := by
  have hmissing := h.part.fits.1
  have hbound := possible.2
  rw [List.length_append]
  omega

/-- A complete frame is judged as the stream is. -/
theorem WorkerProcess.Reader.complete (h : w.Reader)
    (possible : w.CanReceive (.data chunk))
    (completes : w.completes chunk = true) :
    nextAssignment w.workerId (w.held != 0) (w.input ++ chunk)
      = (acceptAssignment w.workerId (w.held != 0) (w.input ++ chunk)).elim
        (.reject ()) (.deliver · (w.input ++ chunk).length) := by
  obtain ⟨hmatch, hfull, hlong⟩ := completes_iff.mp completes
  exact h.part.complete (h.bounded possible) hmatch hfull hlong

theorem WorkerProcess.Reader.accepts (h : w.Reader)
    (possible : w.CanReceive (.data chunk))
    (received : w.inspect chunk = .accept assignment) :
    nextAssignment w.workerId (w.held != 0) (w.input ++ chunk)
      = .deliver assignment (w.input ++ chunk).length := by
  have hcompletes := completes_of_accept received
  rw [inspect_complete hcompletes] at received
  rw [h.complete possible hcompletes]
  cases haccept : acceptAssignment w.workerId (w.held != 0)
      (w.input ++ chunk) with
  | none =>
      rw [haccept] at received
      cases received
  | some found =>
      rw [haccept] at received
      cases received
      rfl

/-- The frames behind a worker once it has accepted one more. -/
theorem WorkerProcess.Reader.behind_accepted (h : w.Reader)
    (possible : w.CanReceive (.data chunk))
    (received : w.inspect chunk = .accept assignment) :
    ∃ past, Frames (nextAssignment w.workerId)
        (w.history.busy ++ [w.held != 0]) past
        (w.history.accepted ++ [assignment])
      ∧ w.history.arrived ++ chunk = past := by
  obtain ⟨past, frames, arrived⟩ := h.behind
  refine ⟨_, frames.snoc (h.accepts possible received), ?_⟩
  rw [arrived, List.append_assoc]

theorem WorkerProcess.Reader.waits (h : w.Reader)
    (received : w.inspect chunk = .wait) :
    PartAssignment (w.input ++ chunk) w.expected :=
  h.part.waits received

theorem WorkerProcess.part_of_need
    (received : w.inspect chunk = .need expected) :
    PartAssignment (w.input ++ chunk) expected :=
  .of_need received

theorem WorkerProcess.Reader.received (h : w.Reader) (chunk : List UInt8) :
    ∃ past, Frames (nextAssignment w.workerId) w.history.busy past
        w.history.accepted
      ∧ w.history.arrived ++ chunk = past ++ (w.input ++ chunk) := by
  obtain ⟨past, frames, arrived⟩ := h.behind
  exact ⟨past, frames, by rw [arrived, List.append_assoc]⟩

/-- An assignment was accepted and dealt with. -/
theorem WorkerProcess.Reader.reset (h : w.Reader)
    (possible : w.CanReceive (.data chunk))
    (received : w.inspect chunk = .accept assignment)
    (same : ((w.complete chunk nowMs).hold assignment).SameInput w₁) :
    w₁.resetInput.Reader := by
  obtain ⟨past, frames, arrived⟩ := h.behind_accepted possible received
  refine ⟨⟨past, ?_, ?_⟩, .header rfl (show 0 < headerSize by decide) rfl,
    same.rejected.trans h.rejected⟩
  · show Frames (nextAssignment w₁.workerId) w₁.history.busy past
      w₁.history.accepted
    rw [same.workerId, same.busy, same.accepted]
    exact frames
  · exact (same.arrived.trans arrived).trans (List.append_nil _).symm

/-- Every move keeps the receiver in order. -/
theorem WorkerProcess.Reader.move (h : w.Reader) (hmove : w.Move w') :
    w'.Reader := by
  cases hmove with
  | idle => exact ⟨h.behind, h.part, h.rejected⟩
  | beats encodes => exact ⟨h.behind, h.part, h.rejected⟩
  | reports thread encodes => exact ⟨h.behind, h.part, h.rejected⟩
  | @waits chunk nowMs possible received =>
      exact ⟨h.received chunk, h.waits received, h.rejected⟩
  | @asks chunk nowMs expected possible received =>
      exact ⟨h.received chunk, part_of_need received, h.rejected⟩
  | starts possible received encodes =>
      exact h.reset possible received SameInput.refl.sends.setThread
  | startFails possible received encodes reports =>
      exact h.reset possible received SameInput.refl.sends.sends.release

theorem WorkerProcess.Reader.moves (h : w.Reader)
    (hmoves : Relation.ReflTransGen Move w w') : w'.Reader := by
  induction hmoves with
  | refl => exact h
  | tail _ last ih => exact ih.move last

/-- What has been received does not change any more. -/
theorem WorkerProcess.SameInput.parses (h : w.SameInput w')
    (hparses : w.Parses) : w'.Parses := by
  unfold WorkerProcess.Parses
  rw [h.workerId, h.busy, h.arrived, h.accepted, h.rejected]
  exact hparses

/-- However a process ends, it has received what the stream says. -/
theorem WorkerProcess.Reader.quits (h : w.Reader) (hquits : w.Quits w') :
    w'.Parses := by
  cases hquits with
  | stops same => exact same.parses h.parses
  | @rejects chunk nowMs possible received early =>
      obtain ⟨past, frames, arrived⟩ := h.received chunk
      show ParsesTo w.workerId w.history.busy (w.history.arrived ++ chunk)
        w.history.accepted true
      rw [arrived]
      refine parsesTo_reject frames (nextAssignment_early received ?_)
      intro late
      rw [completes_iff.mpr late] at early
      cases early
  | @refuses chunk nowMs possible received late =>
      obtain ⟨past, frames, arrived⟩ := h.received chunk
      show ParsesTo w.workerId (w.history.busy ++ [w.held != 0])
        (w.history.arrived ++ chunk) w.history.accepted true
      rw [arrived]
      refine parsesTo_refuse frames ?_
      rw [inspect_complete late] at received
      rw [h.complete possible late]
      cases haccept : acceptAssignment w.workerId (w.held != 0)
          (w.input ++ chunk) with
      | some found =>
          rw [haccept] at received
          cases received
      | none => rfl
  | @holds chunk nowMs assignment _ possible received same =>
      obtain ⟨past, frames, arrived⟩ := h.behind_accepted possible received
      refine same.parses ?_
      show ParsesTo w.workerId (w.history.busy ++ [w.held != 0])
        (w.history.arrived ++ chunk) (w.history.accepted ++ [assignment])
        w.history.rejected
      rw [arrived, h.rejected, ← List.append_nil past]
      exact parsesTo_quiet frames
        (fun _ => nextAssignment_short (by decide) (by decide))

-- ==================================================== processes

theorem WorkerProcess.Silent.same (h : w.Silent) (hsame : w.Untouched w') :
    w'.Silent :=
  ⟨hsame.arrived.trans h.arrived, hsame.busy.trans h.busy,
    hsame.accepted.trans h.accepted, hsame.rejected.trans h.rejected⟩

theorem WorkerProcess.Input.reader (h : w.Input)
    (phase : w.phase = .working) : w.Reader := by
  rwa [WorkerProcess.Input, if_pos phase] at h

theorem WorkerProcess.Input.silent (h : w.Input)
    (phase : w.phase ≠ .working) : w.Silent := by
  rwa [WorkerProcess.Input, if_neg phase] at h

theorem WorkerProcess.Silent.input (h : w.Silent)
    (phase : w.phase ≠ .working) : w.Input := by
  rwa [WorkerProcess.Input, if_neg phase]

theorem WorkerProcess.Reader.input (h : w.Reader)
    (phase : w.phase = .working) : w.Input := by
  rwa [WorkerProcess.Input, if_pos phase]

theorem WorkerProcess.Move.phase (h : w.Move w') : w'.phase = w.phase := by
  cases h <;> simp [sends, complete, timed]

theorem WorkerProcess.moves_phase
    (h : Relation.ReflTransGen Move w w') : w'.phase = w.phase := by
  induction h with
  | refl => rfl
  | tail _ last ih => exact last.phase.trans ih

/-- Nothing arrives before the loop begins. -/
theorem WorkerProcess.Acks.input (h : w.Acks w') (hsilent : w.Silent)
    (phase : w.phase = .registering) : w'.Input := by
  have hphase : w.phase ≠ .working := by
    rw [phase]
    decide
  cases h with
  | idle => exact hsilent.input hphase
  | asks possible short decoded checked =>
      exact Silent.input (hsilent.same ⟨rfl, rfl, rfl, rfl⟩) hphase
  | waits possible short =>
      exact Silent.input (hsilent.same ⟨rfl, rfl, rfl, rfl⟩) hphase
  | @works chunk workerId nowMs possible full long accepted =>
      refine Reader.input ⟨⟨[], ?_, ?_⟩,
        .header rfl (show 0 < headerSize by decide) rfl, hsilent.rejected⟩ rfl
      · show Frames (nextAssignment workerId) w.history.busy []
          w.history.accepted
        rw [hsilent.busy, hsilent.accepted]
        exact .nil
      · exact hsilent.arrived

/-- Whatever a process does next. -/
theorem WorkerProcess.Step.input (h : w.Step status w') (hinput : w.Input) :
    w'.Parses ∧ (status = none → w'.Input) := by
  cases h with
  | register phase run =>
      have hphase : w.phase ≠ .working := by
        rw [phase]
        decide
      have hsilent := hinput.silent hphase
      rcases sendRegistration_done run with
        ⟨rfl, encodes, rfl⟩ | ⟨hstatus, bytes, -, rfl⟩
      · have hsilent' : Silent { w.sends (.workerRegister 0) with
            phase := .registering } := hsilent.same ⟨rfl, rfl, rfl, rfl⟩
        exact ⟨hsilent'.parses, fun _ => hsilent'.input nofun⟩
      · have hsilent' : (w.handOver bytes).Silent :=
          hsilent.same ⟨rfl, rfl, rfl, rfl⟩
        exact ⟨hsilent'.parses, fun _ => hsilent'.input hphase⟩
  | acknowledge phase possible run =>
      have hsilent := hinput.silent (by rw [phase]; decide)
      rcases receiveRegistrationAck_done possible run with
        ⟨rfl, acks⟩ | ⟨hstatus, hsame, -⟩
      · have hinput' := acks.input hsilent phase
        exact ⟨hinput'.parses, fun _ => hinput'⟩
      · refine ⟨(hsilent.same hsame).parses, fun hnone => ?_⟩
        rw [hnone] at hstatus
        cases hstatus
  | iterate phase possible run =>
      have hreader := hinput.reader phase
      cases workerIteration_done possible run with
      | on moves =>
          have hreader' := hreader.moves moves
          exact ⟨hreader'.parses, fun _ =>
            hreader'.input ((moves_phase moves).trans phase)⟩
      | out moves quits within =>
          exact ⟨(hreader.moves moves).quits quits, nofun⟩

/-- In every state of a process. -/
theorem WorkerProcess.Ran.input (h : Ran status w) :
    w.Parses ∧ (status = none → w.Input) := by
  induction h with
  | @start intervalMs clock =>
      have hsilent : (WorkerProcess.start intervalMs clock).Silent :=
        ⟨rfl, rfl, rfl, rfl⟩
      exact ⟨hsilent.parses, fun _ => hsilent.input nofun⟩
  | step before step ih => exact step.input (ih.2 rfl)

end Faultline
