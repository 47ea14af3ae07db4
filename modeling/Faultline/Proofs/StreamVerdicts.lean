/-
The verdicts about a connection's stream.

A verdict is never taken back (`nextFrame_stable`), because the decoder's
is not. The two stages of `read_message` reach the same verdict as soon as
they have the bytes it takes: `inspectInput_header` for a complete header,
`inspectInput_frame` for a complete frame.
-/
import Faultline.Abstract.Streams
import Faultline.Proofs.Framing

namespace Faultline

open Lib

variable {role : Role} {stream input rest : List UInt8}
  {header : ProtocolHeader} {message : Message}

-- ==================================================== one frame

theorem frameEnd_short
    (h : messageDecode (stream.take headerSize) = .error .bufferTooSmall) :
    frameEnd stream header = headerSize + header.payloadLength.toNat := by
  simp [frameEnd, h]

theorem frameEnd_settled
    (h : messageDecode (stream.take headerSize) ≠ .error .bufferTooSmall) :
    frameEnd stream header = headerSize := by
  unfold frameEnd
  split
  · rename_i hshort
    exact absurd hshort h
  · rfl

theorem frameEnd_append (h : headerSize ≤ stream.length) :
    frameEnd (stream ++ rest) header = frameEnd stream header := by
  unfold frameEnd
  rw [List.take_append_of_le_length h]

/-- With the bytes it takes, the decoder has decided. -/
theorem messageDecode_at_end (hheader : headerDecode stream = .ok header)
    (hend : frameEnd stream header ≤ stream.length) :
    Settled (messageDecode stream) := by
  by_cases hshort :
      messageDecode (stream.take headerSize) = .error .bufferTooSmall
  · rw [frameEnd_short hshort] at hend
    exact messageDecode_complete hheader hend
  · have happend := messageDecode_append hshort (stream.drop headerSize)
    rw [List.take_append_drop] at happend
    rw [happend]
    exact hshort

/-- An accepted frame is as long as the decision took. -/
theorem consumed_eq_frameEnd {consumed : Nat}
    (hheader : headerDecode stream = .ok header)
    (h : messageDecode stream = .ok (message, consumed)) :
    consumed = headerSize + header.payloadLength.toNat
      ∧ frameEnd stream header = consumed := by
  have hconsumed := messageDecode_consumed h
  rw [(headerDecode_ok hheader).2.1] at hconsumed
  refine ⟨hconsumed, ?_⟩
  by_cases hshort :
      messageDecode (stream.take headerSize) = .error .bufferTooSmall
  · rw [frameEnd_short hshort, hconsumed]
  · have happend := messageDecode_append hshort (stream.drop headerSize)
    rw [List.take_append_drop, h] at happend
    obtain ⟨size, -, hsize, hle, -⟩ := messageDecode_canonical happend.symm
    rw [List.length_take] at hle
    rw [frameEnd_settled hshort]
    omega

theorem nextFrame_stable : Stable nextFrame where
  stands := by
    intro role stream rest h
    unfold nextFrame at h ⊢
    by_cases hlen : stream.length < headerSize
    · rw [if_pos hlen] at h
      exact absurd rfl h
    rw [if_neg hlen] at h ⊢
    have hle := Nat.not_lt.mp hlen
    rw [if_neg (by rw [List.length_append]; omega), headerDecode_append hle]
    cases hheader : headerDecode stream with
    | error e => rfl
    | ok header =>
        simp only [hheader] at h ⊢
        by_cases hrole : (!role.allows header.messageType) = true
        · rw [if_pos hrole, if_pos hrole]
        rw [if_neg hrole] at h ⊢
        by_cases hend : stream.length < frameEnd stream header
        · rw [if_pos hend] at h
          exact absurd rfl h
        have hthere := Nat.not_lt.mp hend
        rw [if_neg hrole, if_neg hend, frameEnd_append hle,
          if_neg (by rw [List.length_append]; omega),
          messageDecode_append (messageDecode_at_end hheader hthere)]
  size := by
    intro role stream message size h
    unfold nextFrame at h
    split at h
    · cases h
    split at h
    · cases h
    split at h
    · cases h
    split at h
    · cases h
    rename_i hdecode
    split at h
    · cases h
    · rename_i hok
      cases h
      obtain ⟨-, -, -, hle, -⟩ := messageDecode_canonical hok
      exact hle

/-- The type that was checked is the type of the message. -/
theorem messageType_of_decode {consumed : Nat}
    (hheader : headerDecode stream = .ok header)
    (h : messageDecode stream = .ok (message, consumed)) :
    message.messageType = header.messageType := by
  obtain ⟨header', type, hheader', hcode, hbody⟩ := messageDecode_ok h
  rw [hheader] at hheader'
  cases hheader'
  rw [Message.messageType_eq (decodeBody_frame hbody).1,
    MessageType.code_ofCode hcode]

/-- A message that is found was decoded, and its type was allowed. -/
theorem nextFrame_deliver {size : Nat}
    (h : nextFrame role stream = .deliver message size) :
    messageDecode stream = .ok (message, size)
      ∧ role.allows message.messageType = true := by
  unfold nextFrame at h
  split at h
  · cases h
  split at h
  · cases h
  rename_i header hheader
  split at h
  · cases h
  rename_i hrole
  split at h
  · cases h
  split at h
  · cases h
  · rename_i hok
    cases h
    refine ⟨hok, ?_⟩
    rw [messageType_of_decode hheader hok]
    simpa using hrole

-- =============================================== the two stages

theorem decodeBody_tooSmall {type : MessageType} {length : Nat}
    {payload : List UInt8}
    (h : decodeBody type length payload = .error .bufferTooSmall) :
    length ≤ type.maximum := by
  unfold decodeBody at h
  split at h
  · cases h
  split at h
  · cases h
  · rename_i hmax
    exact Nat.not_lt.mp hmax

theorem MessageType.frame_le (type : MessageType) :
    headerSize + type.maximum ≤ clientFrameCapacity := by
  cases type <;> decide

/-- A frame the decoder waits for fits the buffer. -/
theorem frame_le_capacity (hheader : headerDecode stream = .ok header)
    (h : messageDecode stream = .error .bufferTooSmall) :
    headerSize + header.payloadLength.toNat ≤ clientFrameCapacity := by
  obtain ⟨-, -, hvalid⟩ := headerDecode_ok hheader
  obtain ⟨-, -, ⟨type, htype⟩, -⟩ := validateHeader_ok hvalid
  simp only [messageDecode, hheader, messagePayloadBounds, htype] at h
  have hmax := decodeBody_tooSmall h
  have hfits := type.frame_le
  omega

/-- What `read_message` does with the bytes it asked for, against the
verdict about them. -/
inductive Judged (role : Role) (input : List UInt8) : InputStep → Prop where
  | need {header : ProtocolHeader} (decoded : headerDecode input = .ok header)
      (allowed : role.allows header.messageType = true)
      (short : messageDecode (input.take headerSize)
        = .error .bufferTooSmall)
      (missing : input.length < headerSize + header.payloadLength.toNat)
      (fits : headerSize + header.payloadLength.toNat
        ≤ clientFrameCapacity) :
      Judged role input (.need (headerSize + header.payloadLength.toNat))
  | reject {reason : CloseReason}
      (verdict : nextFrame role input = .reject (reason, input.length)) :
      Judged role input (.reject reason)
  | deliver {message : Message}
      (verdict : nextFrame role input = .deliver message input.length) :
      Judged role input (.deliver message)

/-- The verdict about a frame that has all its bytes. -/
theorem nextFrame_at_end (hheader : headerDecode stream = .ok header)
    (hrole : role.allows header.messageType = true)
    (hend : frameEnd stream header = stream.length) :
    (∃ e, messageDecode stream = .error e ∧ e ≠ .bufferTooSmall
      ∧ nextFrame role stream = .reject (.invalidMessage, stream.length))
    ∨ ∃ message, messageDecode stream = .ok (message, stream.length)
      ∧ nextFrame role stream = .deliver message stream.length := by
  have hlen := Nat.not_lt.mpr (headerDecode_ok hheader).1
  have hsettled := messageDecode_at_end hheader (Nat.le_of_eq hend)
  unfold nextFrame
  rw [if_neg hlen]
  simp only [hheader, hrole, Bool.not_true, Bool.false_eq_true, if_false,
    hend, Nat.lt_irrefl]
  cases hdecode : messageDecode stream with
  | error e =>
      refine Or.inl ⟨e, rfl, fun he => hsettled (he ▸ hdecode), rfl⟩
  | ok result =>
      obtain ⟨message, consumed⟩ := result
      obtain ⟨-, hconsumed⟩ := consumed_eq_frameEnd hheader hdecode
      rw [hend] at hconsumed
      exact Or.inr ⟨message, by rw [hconsumed], by rw [hconsumed]⟩

/-- The decoding stage follows the verdict. -/
theorem decodeInput_judged (hheader : headerDecode input = .ok header)
    (hrole : role.allows header.messageType = true)
    (hend : frameEnd input header = input.length) :
    Judged role input (decodeInput input) := by
  rcases nextFrame_at_end hheader hrole hend with
    ⟨e, hdecode, hne, hverdict⟩ | ⟨message, hdecode, hverdict⟩
  · have hreject : decodeInput input = .reject .invalidMessage := by
      rw [decodeInput, hdecode]
      cases e <;> first | rfl | exact absurd rfl hne
    rw [hreject]
    exact .reject hverdict
  · rw [decodeInput, hdecode]
    exact .deliver hverdict

/-- A complete header. -/
theorem inspectInput_header (role : Role)
    (hlen : input.length = headerSize) :
    Judged role input (inspectInput role input) := by
  have htake : input.take headerSize = input :=
    List.take_of_length_le (Nat.le_of_eq hlen)
  have hnot : ¬input.length < headerSize := by omega
  rw [inspectInput, if_pos hlen]
  cases hheader : headerDecode input with
  | error e =>
      refine .reject ?_
      rw [nextFrame, if_neg hnot]
      simp only [hheader, hlen]
  | ok header =>
      simp only
      by_cases hrole : role.allows header.messageType = true
      swap
      · rw [Bool.not_eq_true] at hrole
        rw [hrole, Bool.not_false, if_pos rfl]
        refine .reject ?_
        rw [nextFrame, if_neg hnot]
        simp only [hheader, hrole, Bool.not_false, if_true, hlen]
      rw [hrole, Bool.not_true, if_neg Bool.false_ne_true]
      by_cases hshort : messageDecode input = .error .bufferTooSmall
      · have hfits := frame_le_capacity hheader hshort
        have hmissing : input.length
            < headerSize + header.payloadLength.toNat :=
          Nat.not_le.mp fun hthere =>
            messageDecode_complete hheader hthere hshort
        have hroom : ¬header.payloadLength.toNat
            > clientFrameCapacity - headerSize := by omega
        simp only [decodeInput, hshort, hheader, if_neg hroom]
        exact .need hheader hrole (htake.symm ▸ hshort) hmissing hfits
      · refine decodeInput_judged hheader hrole ?_
        rw [frameEnd_settled (htake.symm ▸ hshort), hlen]

/-- A complete frame behind a header that was checked before. -/
theorem inspectInput_frame (hheader : headerDecode input = .ok header)
    (hrole : role.allows header.messageType = true)
    (hshort : messageDecode (input.take headerSize)
      = .error .bufferTooSmall)
    (hlen : input.length = headerSize + header.payloadLength.toNat)
    (hlong : input.length ≠ headerSize) :
    Judged role input (inspectInput role input) := by
  rw [inspectInput, if_neg hlong]
  refine decodeInput_judged hheader hrole ?_
  rw [frameEnd_short hshort, hlen]

end Faultline
