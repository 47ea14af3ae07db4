/-
Replies, received in stages.

A program over a socket sends some bytes, receives some, and returns something
that depends on them (`Performs`). The command line's receivers are sequences
of such programs. What `receive_query` makes of a connection is what the same
stages make of the bytes alone, unless its clock fails or the bytes do not
arrive in time (`receiveQuery_staged`); what it accepts is one whole frame, and
it has taken nothing behind it.
-/
import Faultline.Cli.Main
import Faultline.Proofs.SocketTransfers
import Faultline.Proofs.StreamVerdicts

namespace Faultline

open Lib

variable {s s₁ s' : Socket} {α β : Type} {sent received : List UInt8}

-- ===================================================== programs

/-- Bytes have been sent and received. -/
structure Socket.Moves (s s' : Socket) (sent received : List UInt8) :
    Prop where
  outbound : s'.outbound = s.outbound ++ sent
  inbound : s.inbound = received ++ s'.inbound

theorem Socket.Moves.refl : s.Moves s [] [] :=
  ⟨(List.append_nil _).symm, rfl⟩

theorem Socket.Moves.trans {sent' received' : List UInt8}
    (h₁ : s.Moves s₁ sent received) (h₂ : s₁.Moves s' sent' received') :
    s.Moves s' (sent ++ sent') (received ++ received') := by
  constructor
  · rw [h₂.outbound, h₁.outbound, List.append_assoc]
  · rw [h₁.inbound, h₂.inbound, List.append_assoc]

/-- What a run has moved, and what it returns if it does. -/
def Performs (p : Prog Socket α) (s : Socket)
    (Q : List UInt8 → List UInt8 → Option α → Prop) : Prop :=
  ∃ sent received, s.Moves (p s).state sent received
    ∧ Q sent received (p s).returned

theorem Performs.pure {a : α}
    {Q : List UInt8 → List UInt8 → Option α → Prop} (h : Q [] [] (some a)) :
    Performs (Pure.pure a) s Q :=
  ⟨[], [], .refl, h⟩

theorem Performs.mono {p : Prog Socket α}
    {Q Q' : List UInt8 → List UInt8 → Option α → Prop} (h : Performs p s Q)
    (himp : ∀ sent received r, Q sent received r → Q' sent received r) :
    Performs p s Q' := by
  obtain ⟨sent, received, moves, hq⟩ := h
  exact ⟨sent, received, moves, himp _ _ _ hq⟩

/-- What comes next moves bytes behind those of the first program. -/
theorem Performs.bind {p : Prog Socket α} {f : α → Prog Socket β}
    {Q : List UInt8 → List UInt8 → Option α → Prop}
    {Q' : List UInt8 → List UInt8 → Option β → Prop} (h : Performs p s Q)
    (stops : ∀ sent received, Q sent received none →
      Q' sent received none)
    (next : ∀ a s' sent received, s.Moves s' sent received →
      Q sent received (some a) →
      Performs (f a) s' fun more rest r =>
        Q' (sent ++ more) (received ++ rest) r) :
    Performs (p >>= f) s Q' := by
  obtain ⟨sent, received, moves, hq⟩ := h
  unfold Performs
  rw [Prog.bind_run]
  cases hrun : p s with
  | done a s' =>
      rw [hrun] at moves hq
      obtain ⟨more, rest, moves', hq'⟩ := next a s' sent received moves hq
      exact ⟨sent ++ more, received ++ rest, moves.trans moves', hq'⟩
  | crash s' =>
      rw [hrun] at moves hq
      exact ⟨sent, received, moves, stops _ _ hq⟩

-- ======================================================= calls

theorem monotonicMs_performs :
    Performs Socket.monotonicMs s fun sent received _ =>
      sent = [] ∧ received = [] :=
  ⟨[], [], ⟨(List.append_nil _).symm, rfl⟩, rfl, rfl⟩

theorem sendAll_performs (fd : Int) (data : List UInt8) (timeoutMs : Int32) :
    Performs (sendAll fd data timeoutMs) s fun sent received r =>
      received = [] ∧ sent <+: data ∧ (r = some (.ok ()) → sent = data) := by
  rcases sendAll_cases fd data timeoutMs s with
    ⟨-, e, s', -, hrun, hands⟩ | ⟨-, hends⟩
  · unfold Performs
    rw [hrun]
    exact ⟨[], [], ⟨hands.outbound, hands.inbound.symm⟩, rfl,
      List.nil_prefix, nofun⟩
  · unfold Performs
    generalize sendAll fd data timeoutMs s = outcome at hends ⊢
    cases hends with
    | sends hands =>
        exact ⟨data, [], ⟨hands.outbound, hands.inbound.symm⟩, rfl,
          List.prefix_rfl, fun _ => rfl⟩
    | fails hands begins short late =>
        exact ⟨_, [], ⟨hands.outbound, hands.inbound.symm⟩, rfl, begins,
          nofun⟩
    | stops hands begins short starved =>
        exact ⟨_, [], ⟨hands.outbound, hands.inbound.symm⟩, rfl, begins,
          nofun⟩

theorem recvExact_performs (fd : Int) (size : Nat) (timeoutMs : Int32) :
    Performs (recvExact fd size timeoutMs) s fun sent received r =>
      sent = [] ∧ Receives s.inbound received size r := by
  rcases recvExact_cases fd size timeoutMs s with
    ⟨-, e, s', -, hrun, takes⟩ | ⟨-, hends⟩
  · unfold Performs
    rw [hrun]
    refine ⟨[], [], ⟨?_, takes.inbound⟩, rfl, rfl, ?_⟩
    · rw [List.append_nil]
      exact takes.outbound
    exact (Nat.eq_zero_or_pos size).imp_right id
  · obtain ⟨part, takes, hreceives⟩ := hends.received
    refine ⟨[], part, ⟨?_, takes.inbound⟩, rfl, hreceives⟩
    rw [List.append_nil]
    exact takes.outbound

-- ===================================================== queries

/-- The same stage, on the bytes alone. -/
theorem receiveQueryBytes_exact {wire bytes more : List UInt8} {size : Nat}
    (h : bytes.length = size) :
    receiveQueryBytes size ⟨wire, bytes ++ more⟩
      = .ok ⟨wire ++ bytes, more⟩ := by
  rw [← h, receiveQueryBytes_split wire (Nat.le_refl _), List.take_length,
    List.drop_length, List.nil_append]

/-- The bytes a stage asks for, if they come. -/
theorem Cli.receiveQueryBytes_performs (fd size : Nat) (start : Int64) :
    Performs (Cli.receiveQueryBytes fd size start) s fun sent received r =>
      sent = [] ∧ ∀ bytes, r = some (some bytes) →
        received = bytes ∧ bytes.length = size := by
  unfold Cli.receiveQueryBytes
  refine monotonicMs_performs.bind (fun _ _ h => ⟨h.1, nofun⟩) ?_
  rintro now s₁ _ _ - ⟨rfl, rfl⟩
  split
  · exact .pure ⟨rfl, nofun⟩
  refine (recvExact_performs fd size _).bind (fun _ _ h => ⟨h.1, nofun⟩) ?_
  rintro ⟨result, bytes⟩ s₂ _ part - ⟨rfl, hreceives⟩
  cases result with
  | ok =>
      obtain ⟨rfl, hlength⟩ := hreceives
      refine .pure ⟨rfl, fun bytes' h => ?_⟩
      cases h
      exact ⟨List.append_nil _, hlength⟩
  | _ => exact .pure ⟨rfl, nofun⟩

/-- What the stages make of a connection, and what they would make of its bytes
alone. -/
def Staged (stream : Except QueryError Message)
    (result : Except Cli.QueryFailure Message) : Prop :=
  result = stream.mapError .refused ∨ result = .error .clock
    ∨ result = .error (.refused .incomplete)

/-- One whole frame was received. -/
def Framed (wire received : List UInt8)
    (result : Except Cli.QueryFailure Message) : Prop :=
  ∀ message, result = .ok message →
    messageDecode (wire ++ received)
      = .ok (message, (wire ++ received).length)

theorem mapError_acceptQuery {result : Except ProtocolError (Message × Nat)}
    {available : Nat} {message : Message}
    (h : (acceptQuery result available).mapError Cli.QueryFailure.refused
      = .ok message) : result = .ok (message, available) := by
  cases haccept : acceptQuery result available with
  | error e =>
      rw [haccept] at h
      cases h
  | ok accepted =>
      rw [haccept] at h
      cases h
      exact acceptQuery_ok_iff.mp haccept

theorem Cli.decodeQuery_performs (fd rest : Nat) (start : Int64)
    (wire : List UInt8) :
    Performs (Cli.decodeQuery fd rest start wire) s fun sent received r =>
      sent = [] ∧ ∀ result, r = some result →
        Staged (Faultline.decodeQuery rest ⟨wire, s.inbound⟩) result
          ∧ Framed wire received result := by
  unfold Cli.decodeQuery
  by_cases hshort : messageDecode wire = .error .bufferTooSmall
  · rw [if_pos hshort]
    refine (receiveQueryBytes_performs fd rest start).bind
      (fun _ _ h => ⟨h.1, nofun⟩) ?_
    rintro bytes s₁ _ part moves ⟨rfl, hbytes⟩
    cases bytes with
    | none =>
        refine .pure ⟨rfl, fun result h => ?_⟩
        cases h
        exact ⟨.inr (.inr rfl), nofun⟩
    | some bytes =>
        obtain ⟨rfl, hlength⟩ := hbytes bytes rfl
        refine .pure ⟨rfl, fun result h => ?_⟩
        cases h
        rw [List.append_nil]
        refine ⟨.inl ?_, fun message h => mapError_acceptQuery h⟩
        unfold Faultline.decodeQuery
        rw [if_pos hshort, moves.inbound, receiveQueryBytes_exact hlength]
  · rw [if_neg hshort]
    refine .pure ⟨rfl, fun result h => ?_⟩
    cases h
    refine ⟨.inl ?_, fun message h => ?_⟩
    · unfold Faultline.decodeQuery
      rw [if_neg hshort]
    · rw [List.append_nil]
      exact mapError_acceptQuery h

theorem Cli.receiveQueryPayload_performs (fd : Nat) (expectedType : UInt16)
    (start : Int64) (wire : List UInt8) :
    Performs (Cli.receiveQueryPayload fd expectedType start wire) s
      fun sent received r => sent = [] ∧ ∀ result, r = some result →
        Staged (Faultline.receiveQueryPayload expectedType ⟨wire, s.inbound⟩)
            result
          ∧ Framed wire received result
          ∧ ∀ message, result = .ok message →
            queryExpects expectedType message.messageType = true := by
  unfold Cli.receiveQueryPayload Faultline.receiveQueryPayload
  cases hheader : headerDecode wire with
  | error e =>
      refine .pure ⟨rfl, fun result h => ?_⟩
      cases h
      exact ⟨.inl rfl, nofun, nofun⟩
  | ok header =>
      dsimp only
      by_cases hexpects : (!queryExpects expectedType header.messageType) = true
      · rw [if_pos hexpects, if_pos hexpects]
        refine .pure ⟨rfl, fun result h => ?_⟩
        cases h
        exact ⟨.inl rfl, nofun, nofun⟩
      rw [if_neg hexpects, if_neg hexpects]
      split
      · refine .pure ⟨rfl, fun result h => ?_⟩
        cases h
        exact ⟨.inl rfl, nofun, nofun⟩
      refine (receiveQueryBytes_performs fd _ start).bind
        (fun _ _ h => ⟨h.1, nofun⟩) ?_
      rintro bytes s₁ _ part moves ⟨rfl, hbytes⟩
      cases bytes with
      | none =>
          refine .pure ⟨rfl, fun result h => ?_⟩
          cases h
          exact ⟨.inr (.inr rfl), nofun, nofun⟩
      | some fixed =>
          obtain ⟨rfl, hlength⟩ := hbytes fixed rfl
          refine (decodeQuery_performs fd _ start (wire ++ part)).mono ?_
          rintro _ rest r ⟨rfl, hresult⟩
          refine ⟨rfl, fun result h => ?_⟩
          obtain ⟨hstaged, hframed⟩ := hresult result h
          refine ⟨?_, fun message hok => ?_, fun message hok => ?_⟩
          · rw [moves.inbound, receiveQueryBytes_exact hlength]
            exact hstaged
          · have hwhole := hframed message hok
            rwa [List.append_assoc] at hwhole
          · have hwhole := hframed message hok
            rw [List.append_assoc] at hwhole
            have hlong := headerDecode_append (headerDecode_ok hheader).1
              (part ++ rest)
            rw [messageType_of_decode (hlong.trans hheader) hwhole]
            simpa using hexpects

/-- `receive_query` on a connection. -/
theorem Cli.receiveQuery_performs (fd : Nat) (expectedType : UInt16) :
    Performs (Cli.receiveQuery fd expectedType) s fun sent received r =>
      sent = [] ∧ ∀ result, r = some result →
        Staged (Faultline.receiveQuery expectedType s.inbound) result
          ∧ ∀ message, result = .ok message →
            messageDecode received = .ok (message, received.length)
              ∧ queryExpects expectedType message.messageType = true := by
  unfold Cli.receiveQuery
  refine monotonicMs_performs.bind (fun _ _ h => ⟨h.1, nofun⟩) ?_
  rintro start s₁ _ _ clock ⟨rfl, rfl⟩
  have hsame : s.inbound = s₁.inbound := clock.inbound
  split
  · refine .pure ⟨rfl, fun result h => ?_⟩
    cases h
    exact ⟨.inr (.inl rfl), nofun⟩
  refine (receiveQueryBytes_performs fd headerSize start).bind
    (fun _ _ h => ⟨h.1, nofun⟩) ?_
  rintro bytes s₂ _ part moves ⟨rfl, hbytes⟩
  cases bytes with
  | none =>
      refine .pure ⟨rfl, fun result h => ?_⟩
      cases h
      exact ⟨.inr (.inr rfl), nofun⟩
  | some wire =>
      obtain ⟨rfl, hlength⟩ := hbytes wire rfl
      refine (receiveQueryPayload_performs fd expectedType start part).mono ?_
      rintro _ rest r ⟨rfl, hresult⟩
      refine ⟨rfl, fun result h => ?_⟩
      obtain ⟨hstaged, hframed, htype⟩ := hresult result h
      refine ⟨?_, fun message hok => ⟨hframed message hok, htype message hok⟩⟩
      unfold Faultline.receiveQuery
      rw [hsame, moves.inbound, receiveQueryBytes_exact hlength]
      exact hstaged

end Faultline
