/-
The decoder and the bytes that have not arrived yet.

A receiver calls the decoder on what it has so far. The decoder's answer on
a part of a stream is final unless it is BUFFER_TOO_SMALL: it never looks at
a byte it has not checked for, and its availability checks only ever turn an
answer into BUFFER_TOO_SMALL (`messageDecode_append`). Once the frame a valid
header declares is there, it never asks for more (`messageDecode_complete`).
-/
import Faultline.Cli.Query
import Faultline.Proofs.MessageCodec

namespace Faultline

open Lib

-- ==================================================== validators

/-- The answer is not a request for more bytes. -/
def Settled {α : Type} (result : Except ProtocolError α) : Prop :=
  result ≠ .error .bufferTooSmall

theorem validateIdentity_settled (identity : JobIdentity) :
    Settled (validateIdentity identity) := by
  unfold validateIdentity Settled
  repeat' split
  all_goals simp

theorem validateJobStatus_settled (status : JobStatusPayload) :
    Settled (validateJobStatus status) := by
  unfold validateJobStatus Settled
  repeat' split
  all_goals simp

theorem validateJobEntry_settled (previous : Option UInt64)
    (entry : JobSummary) : Settled (validateJobEntry previous entry) := by
  have hstatus := validateJobStatus_settled entry.status
  unfold validateJobEntry
  cases h : validateJobStatus entry.status with
  | error e =>
      rw [h] at hstatus
      simpa [Settled] using hstatus
  | ok u =>
      unfold Settled
      dsimp only
      repeat' split
      all_goals simp

theorem validateJobEntries_settled (previous : Option UInt64)
    (entries : List JobSummary) :
    Settled (validateJobEntries previous entries) := by
  induction entries generalizing previous with
  | nil => simp [validateJobEntries, Settled]
  | cons entry entries ih =>
      have hentry := validateJobEntry_settled previous entry
      unfold validateJobEntries
      cases h : validateJobEntry previous entry with
      | error e =>
          rw [h] at hentry
          simpa [Settled] using hentry
      | ok u => exact ih _

theorem validateWorkerEntry_settled (previous : Option UInt32)
    (entry : WorkerSummary) :
    Settled (validateWorkerEntry previous entry) := by
  unfold validateWorkerEntry Settled
  repeat' split
  all_goals simp

theorem validateWorkerEntries_settled (previous : Option UInt32)
    (entries : List WorkerSummary) :
    Settled (validateWorkerEntries previous entries) := by
  induction entries generalizing previous with
  | nil => simp [validateWorkerEntries, Settled]
  | cons entry entries ih =>
      have hentry := validateWorkerEntry_settled previous entry
      unfold validateWorkerEntries
      cases h : validateWorkerEntry previous entry with
      | error e =>
          rw [h] at hentry
          simpa [Settled] using hentry
      | ok u => exact ih _

theorem validateFields_settled (message : Message) :
    Settled message.validateFields := by
  cases message with
  | jobStatusResponse payload => exact validateJobStatus_settled payload
  | jobsResponse entries =>
      simp only [Message.validateFields, validateJobs]
      split
      · simp [Settled]
      · exact validateJobEntries_settled none entries
  | workersResponse payload =>
      simp only [Message.validateFields, validateWorkers]
      split
      · simp [Settled]
      split
      · simp [Settled]
      · exact validateWorkerEntries_settled none payload.entries
  | statsResponse payload =>
      simp only [Message.validateFields, validateStats, Settled]
      repeat' split
      all_goals simp
  | _ =>
      simp only [Message.validateFields, Settled]
      repeat' split
      all_goals simp

/-- A validator never asks for more bytes. -/
theorem validateMessage_settled (message : Message) :
    Settled (validateMessage message) := by
  have hfields := validateFields_settled message
  have hidentity : Settled (checkIdentity message.identity) := by
    cases message.identity with
    | none => simp [checkIdentity, Settled]
    | some identity => exact validateIdentity_settled identity
  unfold validateMessage
  cases message.type with
  | none => simp [Settled]
  | some type =>
      cases hf : message.validateFields with
      | error e =>
          rw [hf] at hfields
          simpa [Settled] using hfields
      | ok u =>
          cases hi : checkIdentity message.identity with
          | error e =>
              rw [hi] at hidentity
              simpa [Settled] using hidentity
          | ok v =>
              unfold Settled
              dsimp only
              split <;> simp

-- ===================================================== stability

theorem headerDecode_append {wire : List UInt8}
    (h : headerSize ≤ wire.length) (more : List UInt8) :
    headerDecode (wire ++ more) = headerDecode wire := by
  rw [headerDecode, headerDecode, if_neg (by rw [List.length_append]; omega),
    if_neg (by omega), readHeader_eq, headerLayout.read_append h]

theorem listCount_append {limit minimum stride length : Nat}
    {payload : List UInt8} (h : 4 ≤ payload.length) (more : List UInt8) :
    listCount limit minimum stride length (payload ++ more)
      = listCount limit minimum stride length payload := by
  rw [listCount, listCount, getU32_append h]

theorem decodeJobs_append {length : Nat} {payload : List UInt8}
    (hthere : jobsPrefixSize ≤ payload.length)
    (hsettled : Settled (decodeJobs length payload)) (more : List UInt8) :
    decodeJobs length (payload ++ more) = decodeJobs length payload := by
  unfold decodeJobs at hsettled ⊢
  rw [listCount_append hthere]
  cases hcount : listCount jobsMaxEntries jobsPrefixSize jobSummarySize length
      payload with
  | error e => rfl
  | ok count =>
      obtain ⟨-, -, hlen⟩ := listCount_ok_iff.mp hcount
      rw [hcount] at hsettled
      by_cases hshort : payload.length < length
      · simp [Settled, hshort] at hsettled
      · have hshort' : ¬(payload ++ more).length < length := by
          rw [List.length_append]
          omega
        have hrows : count * jobSummaryLayout.size
            ≤ (payload.drop jobsPrefixSize).length := by
          rw [List.length_drop]
          change count * jobSummarySize ≤ _
          omega
        simp only [if_neg hshort, if_neg hshort', readJobSummary_eq]
        rw [show jobSummarySize = jobSummaryLayout.size from rfl, readRows_eq,
          readRows_eq, List.drop_append_of_le_length hthere,
          jobSummaryLayout.readAll_append count hrows]

theorem decodeWorkers_append {length : Nat} {payload : List UInt8}
    (hthere : workersPrefixSize ≤ payload.length)
    (hsettled : Settled (decodeWorkers length payload)) (more : List UInt8) :
    decodeWorkers length (payload ++ more)
      = decodeWorkers length payload := by
  have hword : 4 ≤ payload.length := Nat.le_trans (by decide) hthere
  have hms : getU32 ((payload ++ more).drop 4) = getU32 (payload.drop 4) := by
    rw [List.drop_append_of_le_length hword, getU32_append]
    rw [List.length_drop]
    exact Nat.le_sub_of_add_le hthere
  unfold decodeWorkers at hsettled ⊢
  rw [listCount_append hword, hms]
  cases hcount : listCount workersMaxEntries workersPrefixSize
      workerSummarySize length payload with
  | error e => rfl
  | ok count =>
      obtain ⟨-, -, hlen⟩ := listCount_ok_iff.mp hcount
      rw [hcount] at hsettled
      by_cases hzero : getU32 (payload.drop 4) = 0
      · simp [hzero]
      by_cases hshort : payload.length < length
      · simp [Settled, hshort, hzero] at hsettled
      · have hshort' : ¬(payload ++ more).length < length := by
          rw [List.length_append]
          omega
        have hrows : count * workerSummaryLayout.size
            ≤ (payload.drop workersPrefixSize).length := by
          rw [List.length_drop]
          change count * workerSummarySize ≤ _
          omega
        simp only [if_neg hshort, if_neg hshort', readWorkerSummary_eq]
        rw [show workerSummarySize = workerSummaryLayout.size from rfl,
          readRows_eq, readRows_eq, List.drop_append_of_le_length hthere,
          workerSummaryLayout.readAll_append count hrows]

/-- The switch reads the fixed part and, for a listing, rows it has checked
for. -/
theorem decodeFields_append {type : MessageType} {length : Nat}
    {payload : List UInt8} (hthere : type.minimum ≤ payload.length)
    (hsettled : Settled (decodeFields type length payload))
    (more : List UInt8) :
    decodeFields type length (payload ++ more)
      = decodeFields type length payload := by
  cases type with
  | jobsResponse => exact decodeJobs_append hthere hsettled more
  | workersResponse => exact decodeWorkers_append hthere hsettled more
  | workerRegisterAck | heartbeat =>
      simp only [decodeFields, getU32_append hthere]
  | jobSubmitAck | jobStatusRequest | jobStatusNotFound =>
      simp only [decodeFields, getU64_append hthere]
  | jobSubmit =>
      simp only [decodeFields, readJobSubmit_eq,
        submitLayout.read_append hthere]
  | jobAssign =>
      simp only [decodeFields, readJobAssign_eq,
        assignLayout.read_append hthere]
  | jobStarted =>
      simp only [decodeFields, readIdentity_eq,
        identityLayout.read_append hthere]
  | jobCompleted =>
      simp only [decodeFields, readJobCompleted_eq,
        completedLayout.read_append hthere]
  | jobFailed =>
      simp only [decodeFields, readJobFailed_eq,
        failedLayout.read_append hthere]
  | jobStatusResponse =>
      simp only [decodeFields, readJobStatus_eq,
        statusLayout.read_append hthere]
  | statsResponse =>
      simp only [decodeFields, readStats_eq, statsLayout.read_append hthere]
  | _ => rfl

theorem finishDecode_append {type : MessageType} {length : Nat}
    {payload : List UInt8} {decoded : Message}
    (htype : decoded.type = some type)
    (hsettled : Settled (finishDecode type length payload decoded))
    (more : List UInt8) :
    finishDecode type length (payload ++ more) decoded
      = finishDecode type length payload decoded := by
  unfold finishDecode at hsettled ⊢
  cases hvalid : validateMessage decoded with
  | error e => rfl
  | ok size =>
      rw [hvalid] at hsettled
      by_cases hlen : length ≠ size
      · simp only [if_pos hlen]
      by_cases hshort : payload.length < size
      · simp [Settled, hlen, hshort] at hsettled
      · have hshort' : ¬(payload ++ more).length < size := by
          rw [List.length_append]
          omega
        obtain ⟨type', htype', -, -, -, hsize⟩ :=
          validateMessage_ok_iff.mp hvalid
        obtain rfl : type = type' := Option.some.inj (htype.symm.trans htype')
        have hdata : size - type.minimum
            ≤ (payload.drop type.minimum).length := by
          rw [List.length_drop]
          omega
        simp only [if_neg hlen, if_neg hshort, if_neg hshort']
        rw [List.drop_append_of_le_length (by omega),
          List.take_append_of_le_length hdata]

theorem decodeBody_append {type : MessageType} {length : Nat}
    {payload : List UInt8}
    (hsettled : Settled (decodeBody type length payload))
    (more : List UInt8) :
    decodeBody type length (payload ++ more)
      = decodeBody type length payload := by
  unfold decodeBody at hsettled ⊢
  by_cases hlow : (decide (length < type.minimum)
      || (type.minimum == type.maximum && length != type.minimum)) = true
  · simp only [if_pos hlow]
  by_cases hhigh : length > type.maximum
  · simp only [if_neg hlow, if_pos hhigh]
  simp only [if_neg hlow, if_neg hhigh] at hsettled ⊢
  by_cases hshort : payload.length < type.minimum
  · simp [Settled, hshort] at hsettled
  · have hshort' : ¬(payload ++ more).length < type.minimum := by
      rw [List.length_append]
      omega
    simp only [if_neg hshort, if_neg hshort'] at hsettled ⊢
    have hthere := Nat.le_of_not_lt hshort
    cases hswitch : decodeFields type length payload with
    | error e =>
        rw [hswitch] at hsettled
        rw [decodeFields_append hthere (by
          rw [hswitch]
          simpa [Settled] using hsettled), hswitch]
    | ok decoded =>
        rw [hswitch] at hsettled
        rw [decodeFields_append hthere (by simp [hswitch, Settled]), hswitch]
        exact finishDecode_append (decodeFields_type hswitch) hsettled more

/-- An answer that is not BUFFER_TOO_SMALL is final. -/
theorem messageDecode_append {wire : List UInt8}
    (hsettled : Settled (messageDecode wire)) (more : List UInt8) :
    messageDecode (wire ++ more) = messageDecode wire := by
  by_cases hlen : headerSize ≤ wire.length
  · unfold messageDecode at hsettled ⊢
    rw [headerDecode_append hlen]
    cases hheader : headerDecode wire with
    | error e => rfl
    | ok header =>
        rw [hheader] at hsettled
        cases hbounds : messagePayloadBounds header.messageType with
        | error e => simp only [hbounds]
        | ok type =>
            simp only [hbounds] at hsettled ⊢
            rw [List.drop_append_of_le_length hlen,
              decodeBody_append hsettled]
  · have hshort : wire.length < headerSize := Nat.lt_of_not_le hlen
    simp [Settled, messageDecode, headerDecode, hshort] at hsettled

-- ================================================== completeness

theorem listCount_settled (limit minimum stride length : Nat)
    (payload : List UInt8) :
    Settled (listCount limit minimum stride length payload) := by
  unfold listCount Settled
  repeat' split
  all_goals simp

theorem decodeFields_complete {type : MessageType} {length : Nat}
    {payload : List UInt8} (hthere : length ≤ payload.length) :
    Settled (decodeFields type length payload) := by
  have hshort : ¬payload.length < length := Nat.not_lt.mpr hthere
  cases type with
  | jobsResponse =>
      have hcount := listCount_settled jobsMaxEntries jobsPrefixSize
        jobSummarySize length payload
      simp only [decodeFields, decodeJobs]
      cases h : listCount jobsMaxEntries jobsPrefixSize jobSummarySize length
          payload with
      | error e =>
          rw [h] at hcount
          simpa [Settled] using hcount
      | ok count => simp [Settled, hshort]
  | workersResponse =>
      have hcount := listCount_settled workersMaxEntries workersPrefixSize
        workerSummarySize length payload
      simp only [decodeFields, decodeWorkers]
      cases h : listCount workersMaxEntries workersPrefixSize
          workerSummarySize length payload with
      | error e =>
          rw [h] at hcount
          simpa [Settled] using hcount
      | ok count =>
          by_cases hzero : getU32 (payload.drop 4) = 0
          · simp [Settled, hzero]
          · simp [Settled, hzero, hshort]
  | _ => simp [decodeFields, Settled]

theorem finishDecode_complete {type : MessageType} {length : Nat}
    {payload : List UInt8} (hthere : length ≤ payload.length)
    (decoded : Message) :
    Settled (finishDecode type length payload decoded) := by
  have hvalid := validateMessage_settled decoded
  unfold finishDecode
  cases h : validateMessage decoded with
  | error e =>
      rw [h] at hvalid
      simpa [Settled] using hvalid
  | ok size =>
      by_cases hlen : length = size
      · subst hlen
        simp [Settled, Nat.not_lt.mpr hthere]
      · simp [Settled, hlen]

theorem decodeBody_complete {type : MessageType} {length : Nat}
    {payload : List UInt8} (hthere : length ≤ payload.length) :
    Settled (decodeBody type length payload) := by
  unfold decodeBody
  by_cases hlow : (decide (length < type.minimum)
      || (type.minimum == type.maximum && length != type.minimum)) = true
  · simp only [if_pos hlow, Settled]
    simp
  have hmin : type.minimum ≤ length := by
    simp only [Bool.or_eq_true, decide_eq_true_eq, not_or] at hlow
    exact Nat.le_of_not_lt hlow.1
  by_cases hhigh : length > type.maximum
  · simp only [if_neg hlow, if_pos hhigh, Settled]
    simp
  simp only [if_neg hlow, if_neg hhigh,
    if_neg (show ¬payload.length < type.minimum by omega)]
  have hswitch : Settled (decodeFields type length payload) :=
    decodeFields_complete hthere
  cases h : decodeFields type length payload with
  | error e =>
      rw [h] at hswitch
      simpa [Settled] using hswitch
  | ok decoded => exact finishDecode_complete hthere decoded

/-- Once the declared frame is there, the decoder does not ask for more. -/
theorem messageDecode_complete {wire : List UInt8} {header : ProtocolHeader}
    (hheader : headerDecode wire = .ok header)
    (hthere : headerSize + header.payloadLength.toNat ≤ wire.length) :
    Settled (messageDecode wire) := by
  obtain ⟨-, -, hvalid⟩ := headerDecode_ok hheader
  obtain ⟨-, -, ⟨type, htype⟩, -⟩ := validateHeader_ok hvalid
  simp only [messageDecode, hheader, messagePayloadBounds, htype]
  refine decodeBody_complete ?_
  rw [List.length_drop]
  omega

/-- A message takes what its header declares. -/
theorem messageDecode_consumed {wire : List UInt8} {message : Message}
    {consumed : Nat} (h : messageDecode wire = .ok (message, consumed)) :
    consumed = headerSize + (readHeader wire).payloadLength.toNat := by
  obtain ⟨header, type, hheader, -, hbody⟩ := messageDecode_ok h
  obtain ⟨-, -, hconsumed, -⟩ := decodeBody_frame hbody
  rw [hconsumed, (headerDecode_ok hheader).2.1]

/-- Every strict prefix of a frame is too short. -/
theorem messageDecode_strictPrefix {front rest : List UInt8}
    {message : Message}
    (h : messageDecode (front ++ rest)
      = .ok (message, (front ++ rest).length)) (hrest : rest ≠ []) :
    messageDecode front = .error .bufferTooSmall := by
  by_contra hsettled
  rw [messageDecode_append hsettled] at h
  obtain ⟨-, -, -, hfront, -⟩ := messageDecode_canonical h
  have hpos := List.length_pos_iff.mpr hrest
  rw [List.length_append] at hfront
  omega

-- =============================================== staged receiving

/-- The query's own table of bounds is the protocol's. -/
theorem queryBounds_eq {expected type : MessageType}
    (hexpected : expected ∈ queryResponses)
    (h : queryExpects expected.code type.code = true) :
    queryBounds type.code = (type.minimum, type.maximum) := by
  simp only [queryResponses, List.mem_cons, List.not_mem_nil, or_false]
    at hexpected
  rcases hexpected with rfl | rfl | rfl | rfl <;> cases type <;>
    first | rfl | exact absurd h (by decide)

theorem acceptQuery_ok_iff {result : Except ProtocolError (Message × Nat)}
    {available : Nat} {message : Message} :
    acceptQuery result available = .ok message
      ↔ result = .ok (message, available) := by
  cases result with
  | error e => simp [acceptQuery]
  | ok pair =>
      obtain ⟨decoded, consumed⟩ := pair
      by_cases h : consumed = available
      · simp [acceptQuery, h]
      · simp [acceptQuery, h]

/-- The stages behind the header accept a frame exactly when the decoder
does: if the fixed part settles it, the answer is the frame's own. -/
theorem decodeQuery_ok_iff {front rest more : List UInt8} {message : Message}
    (hframe : (front ++ rest).length
      = headerSize + (readHeader (front ++ rest)).payloadLength.toNat) :
    decodeQuery rest.length ⟨front, rest ++ more⟩ = .ok message
      ↔ ∃ consumed, messageDecode (front ++ rest)
        = .ok (message, consumed) := by
  unfold decodeQuery
  by_cases hshort : messageDecode front = .error .bufferTooSmall
  · have hroom : ¬(rest ++ more).length < rest.length := by
      rw [List.length_append]
      omega
    simp only [if_pos hshort, receiveQueryBytes, if_neg hroom,
      List.take_left, acceptQuery_ok_iff]
    constructor
    · exact fun h => ⟨_, h⟩
    · intro h
      obtain ⟨consumed, h⟩ := h
      rw [h, hframe, messageDecode_consumed h]
  · have hsame := messageDecode_append hshort rest
    simp only [if_neg hshort, acceptQuery_ok_iff]
    constructor
    · intro h
      exact ⟨_, hsame.trans h⟩
    · intro h
      obtain ⟨consumed, h⟩ := h
      have hconsumed := messageDecode_consumed h
      rw [hsame] at h
      obtain ⟨-, -, -, hfront, -⟩ := messageDecode_canonical h
      rw [List.length_append] at hframe
      rw [h, show consumed = front.length by omega]

/-- A header outside the bounds of its type is refused by the decoder
too. -/
theorem decodeBody_outside {type : MessageType} {length : Nat}
    {payload : List UInt8} {result : Message × Nat}
    (h : length < type.minimum ∨ type.maximum < length) :
    decodeBody type length payload ≠ .ok result := by
  intro hok
  obtain ⟨hmin, hmax, -⟩ := decodeBody_ok hok
  omega

theorem receiveQueryBytes_split (wire : List UInt8) {size : Nat}
    {stream : List UInt8} (h : size ≤ stream.length) (more : List UInt8) :
    receiveQueryBytes size ⟨wire, stream ++ more⟩
      = .ok ⟨wire ++ stream.take size, stream.drop size ++ more⟩ := by
  rw [receiveQueryBytes, if_neg (by rw [List.length_append]; omega),
    List.take_append_of_le_length h, List.drop_append_of_le_length h]

/-- Receiving a response in stages is decoding it in one piece. -/
theorem receiveQuery_ok_iff {expected : MessageType}
    (hexpected : expected ∈ queryResponses) {frame : List UInt8}
    (hlen : frame.length
      = headerSize + (readHeader frame).payloadLength.toNat)
    (hexpects : queryExpects expected.code (readHeader frame).messageType
      = true) (more : List UInt8) (message : Message) :
    receiveQuery expected.code (frame ++ more) = .ok message
      ↔ ∃ consumed, messageDecode frame = .ok (message, consumed) := by
  have hfixed : headerSize ≤ frame.length := by omega
  have htake : headerDecode (frame.take headerSize) = headerDecode frame := by
    have hsize : headerSize ≤ (frame.take headerSize).length := by
      rw [List.length_take]
      omega
    rw [← headerDecode_append hsize (frame.drop headerSize),
      List.take_append_drop]
  rw [receiveQuery, receiveQueryBytes_split [] hfixed]
  simp only [List.nil_append, receiveQueryPayload, htake]
  cases hheader : headerDecode frame with
  | error e => simp [messageDecode, hheader]
  | ok header =>
      obtain ⟨-, rfl, hvalid⟩ := headerDecode_ok hheader
      obtain ⟨-, -, ⟨type, htype⟩, -⟩ := validateHeader_ok hvalid
      have hcode := MessageType.code_ofCode htype
      rw [← hcode] at hexpects
      have hbounds := queryBounds_eq hexpected hexpects
      simp only [← hcode, hexpects, hbounds, Bool.not_true, if_false,
        Bool.false_eq_true]
      by_cases hout : (readHeader frame).payloadLength.toNat < type.minimum
          ∨ (readHeader frame).payloadLength.toNat > type.maximum
      · have hnot : ∀ result, messageDecode frame ≠ .ok result := by
          intro result
          simp only [messageDecode, hheader, messagePayloadBounds, htype]
          exact decodeBody_outside hout
        simp [hout, hnot]
      · have hbody : type.minimum ≤ (frame.drop headerSize).length := by
          rw [List.length_drop]
          omega
        have hrest : (readHeader frame).payloadLength.toNat - type.minimum
            = (frame.drop (headerSize + type.minimum)).length := by
          rw [List.length_drop]
          omega
        have hwhole : frame.take (headerSize + type.minimum)
            ++ frame.drop (headerSize + type.minimum) = frame :=
          List.take_append_drop _ _
        simp only [Bool.or_eq_true, decide_eq_true_eq, if_neg hout,
          receiveQueryBytes_split _ hbody, take_append_take_drop,
          List.drop_drop, hrest]
        rw [decodeQuery_ok_iff (by rw [hwhole]; exact hlen), hwhole]

-- ========================================================== main

/-- An answer other than BUFFER_TOO_SMALL stands however the bytes go on, and
once a valid header's frame is there the answer is never BUFFER_TOO_SMALL.
So every strict prefix of a frame is too short, and the staged receiver of a
query accepts a complete response, with the same message, exactly when one
call of the decoder does. -/
theorem messageDecode_stable :
    (∀ wire more : List UInt8, messageDecode wire ≠ .error .bufferTooSmall →
      messageDecode (wire ++ more) = messageDecode wire)
    ∧ (∀ (wire : List UInt8) (header : ProtocolHeader),
      headerDecode (wire.take headerSize) = .ok header →
        headerSize + header.payloadLength.toNat ≤ wire.length →
          messageDecode wire ≠ .error .bufferTooSmall)
    ∧ (∀ (frame : AcceptedFrame) (front rest : List UInt8),
      frame.1 = front ++ rest → rest ≠ [] →
        messageDecode front = .error .bufferTooSmall)
    ∧ ∀ expected ∈ queryResponses, ∀ frame more : List UInt8,
      frame.length = headerSize + (readHeader frame).payloadLength.toNat →
        queryExpects expected.code (readHeader frame).messageType = true →
          ∀ message, receiveQuery expected.code (frame ++ more) = .ok message
            ↔ ∃ consumed, messageDecode frame = .ok (message, consumed) := by
  refine ⟨?_, ?_, ?_, ?_⟩
  · intro wire more hsettled
    exact messageDecode_append hsettled more
  · intro wire header hheader hthere
    have hlen := (headerDecode_ok hheader).1
    have := headerDecode_append hlen (wire.drop headerSize)
    rw [List.take_append_drop] at this
    exact messageDecode_complete (this.trans hheader) hthere
  · intro frame front rest hframe hrest
    obtain ⟨message, hmessage⟩ := frame.2
    rw [hframe] at hmessage
    exact messageDecode_strictPrefix hmessage hrest
  · intro expected hexpected frame more hlen hexpects message
    exact receiveQuery_ok_iff hexpected hlen hexpects more message

/-- The answer to a status query about an unknown job. -/
def notFoundFrame : List UInt8 :=
  [0x46, 0x4c, 0x49, 0x4e, 0, 1, 0, 14, 0, 0, 0, 8, 0, 0, 0, 0, 0, 0, 0, 5]

theorem messageDecode_stable_notFound :
    messageDecode notFoundFrame = .ok (.jobStatusNotFound 5, 20)
      ∧ messageDecode (notFoundFrame ++ [1, 2, 3])
        = .ok (.jobStatusNotFound 5, 20)
      ∧ receiveQuery MessageType.jobStatusResponse.code
        (notFoundFrame ++ [1, 2, 3]) = .ok (.jobStatusNotFound 5) := by
  have hdecode : messageDecode notFoundFrame
      = .ok (.jobStatusNotFound 5, 20) := by decide +kernel
  refine ⟨hdecode, ?_, ?_⟩
  · rw [messageDecode_stable.1 notFoundFrame [1, 2, 3] (by simp [hdecode]),
      hdecode]
  · exact (messageDecode_stable.2.2.2 .jobStatusResponse (by decide)
      notFoundFrame [1, 2, 3] (by decide +kernel) (by decide +kernel)
      _).mpr ⟨20, hdecode⟩

end Faultline
