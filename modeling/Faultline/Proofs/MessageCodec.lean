/-
The message codec loses nothing, in either direction.

A message's frame is its header and the two parts of its payload, in the
layouts of `MessageLayouts`. The encoder writes exactly that frame
(`messageEncode_eq`). The decoder's switch gives back the message with its
data still cleared (`decodeFields_stores`), and whatever the switch accepts
it has read off the layouts (`decodeFields_ok`); since the validator looks at
the length of data and never at its bytes, copying the data last changes no
verdict.
-/
import Faultline.Proofs.MessageLayouts
import Mathlib.Logic.Equiv.Defs

namespace Faultline

open Lib

-- ======================================================== types

theorem MessageType.ofCode_code (type : MessageType) :
    MessageType.ofCode type.code = some type := by
  cases type <;> rfl

theorem MessageType.code_ofCode {code : UInt16} {type : MessageType}
    (h : MessageType.ofCode code = some type) : type.code = code := by
  have := List.find?_some h
  exact eq_of_beq this

theorem MessageType.maximum_le (type : MessageType) :
    type.maximum ≤ maxPayloadSize := by
  cases type <;> decide

theorem Message.messageType_eq {message : Message} {type : MessageType}
    (h : message.type = some type) : message.messageType = type.code := by
  cases message <;> cases h <;> rfl

-- =================================================== validation

/-- What the validator accepts, with the size it gives. -/
theorem validateMessage_ok_iff {message : Message} {size : Nat} :
    validateMessage message = .ok size ↔
      ∃ type, message.type = some type ∧ message.validateFields = .ok ()
        ∧ checkIdentity message.identity = .ok ()
        ∧ message.dataSize ≤ (payloadParts type).2
        ∧ type.minimum + message.dataSize = size := by
  unfold validateMessage
  cases message.type with
  | none => simp
  | some type =>
      cases message.validateFields with
      | error e => simp
      | ok u =>
          cases checkIdentity message.identity with
          | error e => simp
          | ok v =>
              have hroom : type.maximum - type.minimum
                  = (payloadParts type).2 := by
                rw [MessageType.maximum, MessageType.minimum,
                  Nat.add_sub_cancel_left]
              by_cases hdata : message.dataSize ≤ (payloadParts type).2
              · simp [hroom, hdata, Nat.not_lt.mpr hdata]
              · simp [hroom, hdata, Nat.lt_of_not_le hdata]

/-- The validator reads the length of variable data, not its bytes. -/
theorem validateMessage_setData {message : Message} {data : List UInt8}
    (h : data.length = message.dataSize) :
    validateMessage (message.setData data) = validateMessage message := by
  cases message with
  | jobSubmit payload =>
      simp [validateMessage, Message.setData, Message.type,
        Message.validateFields, Message.identity, Message.dataSize,
        show data.length = payload.arguments.length from h]
  | jobAssign payload =>
      simp [validateMessage, Message.setData, Message.type,
        Message.validateFields, Message.identity, Message.dataSize,
        show data.length = payload.arguments.length from h]
  | jobCompleted payload =>
      simp [validateMessage, Message.setData, Message.type,
        Message.validateFields, Message.identity, Message.dataSize,
        show data.length = payload.result.length from h]
  | jobStatusResponse payload =>
      simp [validateMessage, Message.setData, Message.type,
        Message.validateFields, Message.identity, Message.dataSize,
        validateJobStatus, statusFailureValid,
        show data.length = payload.result.length from h]
  | _ => rfl

@[simp] theorem Message.type_setData (message : Message)
    (data : List UInt8) : (message.setData data).type = message.type := by
  cases message <;> rfl

@[simp] theorem Message.setData_setData (message : Message)
    (data data' : List UInt8) :
    (message.setData data).setData data' = message.setData data' := by
  cases message <;> rfl

theorem Message.setData_tail (message : Message) :
    message.setData message.tail = message := by
  cases message <;> rfl

-- ===================================================== encoding

/-- The frame of a message whose payload has the given size. -/
def Message.frame (message : Message) (size : Nat) : List UInt8 :=
  headerLayout.write (message.header size) ++ (message.head ++ message.tail)

theorem validateHeader_header {message : Message} {type : MessageType}
    {size : Nat} (ht : message.type = some type)
    (hsize : size ≤ maxPayloadSize) :
    validateHeader (message.header size) = .ok () := by
  have hlen : size % 4294967296 ≤ maxPayloadSize :=
    Nat.le_trans (Nat.mod_le _ _) hsize
  simp [validateHeader, Message.header, messagePayloadBounds,
    Message.messageType_eq ht, MessageType.ofCode_code, hlen]

theorem validateMessage_size_le {message : Message} {size : Nat}
    (h : validateMessage message = .ok size) : size ≤ maxPayloadSize := by
  obtain ⟨type, -, -, -, hdata, rfl⟩ := validateMessage_ok_iff.mp h
  exact Nat.le_trans (Nat.add_le_add_left hdata _) type.maximum_le

theorem Message.length_frame {message : Message} {size : Nat}
    (h : validateMessage message = .ok size) :
    (message.frame size).length = headerSize + size := by
  obtain ⟨type, ht, -, -, -, hsize⟩ := validateMessage_ok_iff.mp h
  rw [Message.frame, List.length_append, List.length_append,
    headerLayout.length_write, Message.length_head ht, Message.length_tail,
    hsize]
  rfl

/-- The encoder writes the frame to the front of the buffer and nothing
behind it. -/
theorem messageEncode_eq {message : Message} {size : Nat}
    {wire : List UInt8} (h : validateMessage message = .ok size)
    (hroom : headerSize + size ≤ wire.length) :
    messageEncode wire message
      = .ok (message.frame size ++ wire.drop (headerSize + size),
        headerSize + size) := by
  obtain ⟨type, ht, -⟩ := validateMessage_ok_iff.mp h
  have hheader : headerEncode wire (message.header size)
      = .ok ((headerStores (message.header size)).run wire) := by
    rw [headerEncode, if_neg (by omega),
      validateHeader_header ht (validateMessage_size_le h)]
  have hadj : Stores.Adjacent 0 (headerStores (message.header size)
      ++ message.stores.shift headerSize) := by
    refine (adjacent_header _).append ?_
    rw [bytes_header, headerLayout.length_write]
    exact message.adjacent_stores.shift headerSize
  have hbytes : Stores.bytes (headerStores (message.header size)
      ++ message.stores.shift headerSize) = message.frame size := by
    rw [Stores.bytes_append, Stores.bytes_shift, bytes_header,
      Message.bytes_stores, Message.frame]
  have hlen := Message.length_frame h
  rw [messageEncode, h]
  simp only [if_neg (Nat.not_lt.mpr hroom), hheader]
  rw [← Stores.run_append, Stores.run_adjacent hadj (by
    rw [hbytes, hlen]
    omega), hbytes, store, hlen]
  simp

-- ===================================================== decoding

theorem pendingData_ofNat {n : Nat} (h : n ≤ maxPayloadSize) :
    pendingData (.ofNat n) = List.replicate n 0 := by
  rw [pendingData, UInt32.toNat_ofNat_of_lt' (show n < 2 ^ 32 by
    unfold maxPayloadSize at h
    omega)]

/-- A listing that is there in full is read back. -/
theorem listCount_ok {limit minimum stride count : Nat}
    {payload : List UInt8} (hword : getU32 payload = .ofNat count)
    (hcount : count ≤ limit) (hlimit : limit ≤ maxPayloadSize) :
    listCount limit minimum stride (minimum + count * stride) payload
      = .ok count := by
  have hnat : (getU32 payload).toNat = count := by
    rw [hword, UInt32.toNat_ofNat_of_lt' (show count < 2 ^ 32 by
      unfold maxPayloadSize at hlimit
      omega)]
  rw [listCount, hnat, if_neg (by omega), if_neg (by simp)]

theorem decodeJobs_stores {entries : List JobSummary}
    (hcount : entries.length ≤ jobsMaxEntries) (rest : List UInt8) :
    decodeJobs (jobsPrefixSize + entries.length * jobSummarySize)
        ((Message.jobsResponse entries).head
          ++ (jobSummaryLayout.writeAll entries ++ rest))
      = .ok (.jobsResponse entries) := by
  have hhead : (Message.jobsResponse entries).head.length = jobsPrefixSize :=
    rfl
  have hrows := jobSummaryLayout.length_writeAll entries
  have hword : getU32 ((Message.jobsResponse entries).head
      ++ (jobSummaryLayout.writeAll entries ++ rest)) = .ofNat entries.length :=
    Layout.u32.read_write _ _
  have hthere : ¬((Message.jobsResponse entries).head
      ++ (jobSummaryLayout.writeAll entries ++ rest)).length
        < jobsPrefixSize + entries.length * jobSummarySize := by
    rw [List.length_append, List.length_append, hhead, hrows]
    exact Nat.not_lt.mpr (Nat.add_le_add_left (Nat.le_add_right _ _) _)
  rw [decodeJobs, listCount_ok hword hcount (by decide)]
  simp only [if_neg hthere, readJobSummary_eq]
  rw [show jobSummarySize = jobSummaryLayout.size from rfl, readRows_eq,
    List.drop_left' hhead, jobSummaryLayout.readAll_writeAll]

theorem decodeWorkers_stores {payload : WorkersPayload}
    (hcount : payload.entries.length ≤ workersMaxEntries)
    (htimeout : payload.heartbeatTimeoutMs ≠ 0) (rest : List UInt8) :
    decodeWorkers
        (workersPrefixSize + payload.entries.length * workerSummarySize)
        ((Message.workersResponse payload).head
          ++ (workerSummaryLayout.writeAll payload.entries ++ rest))
      = .ok (.workersResponse payload) := by
  have hhead : (Message.workersResponse payload).head.length
      = workersPrefixSize := rfl
  have hrows := workerSummaryLayout.length_writeAll payload.entries
  have hread := (Layout.u32.pair .u32).read_write
    (.ofNat payload.entries.length, payload.heartbeatTimeoutMs)
    (workerSummaryLayout.writeAll payload.entries ++ rest)
  have hword : getU32 ((Message.workersResponse payload).head
      ++ (workerSummaryLayout.writeAll payload.entries ++ rest))
        = .ofNat payload.entries.length := congrArg Prod.fst hread
  have hms : getU32 (((Message.workersResponse payload).head
      ++ (workerSummaryLayout.writeAll payload.entries ++ rest)).drop 4)
        = payload.heartbeatTimeoutMs := congrArg Prod.snd hread
  have hthere : ¬((Message.workersResponse payload).head
      ++ (workerSummaryLayout.writeAll payload.entries ++ rest)).length
        < workersPrefixSize + payload.entries.length * workerSummarySize := by
    rw [List.length_append, List.length_append, hhead, hrows]
    exact Nat.not_lt.mpr (Nat.add_le_add_left (Nat.le_add_right _ _) _)
  rw [decodeWorkers, listCount_ok hword hcount (by decide)]
  simp only [hms, beq_iff_eq, if_neg htimeout, if_neg hthere,
    readWorkerSummary_eq]
  rw [show workerSummarySize = workerSummaryLayout.size from rfl,
    readRows_eq, List.drop_left' hhead,
    workerSummaryLayout.readAll_writeAll]

/-- The switch gives back what was stored, its data still cleared. -/
theorem decodeFields_stores {message : Message} {type : MessageType}
    (ht : message.type = some type) (hfields : message.validateFields = .ok ())
    (hdata : message.dataSize ≤ (payloadParts type).2) (rest : List UInt8) :
    decodeFields type (type.minimum + message.dataSize)
        (message.head ++ (message.tail ++ rest))
      = .ok (message.setData (List.replicate message.dataSize 0)) := by
  have hpending : pendingData (.ofNat message.dataSize)
      = List.replicate message.dataSize 0 := by
    refine pendingData_ofNat (Nat.le_trans ?_ type.maximum_le)
    exact Nat.le_trans hdata (Nat.le_add_left _ _)
  cases message with
  | ping workerId | pong workerId | workerRegister workerId
  | jobsRequest workerId | workersRequest workerId | statsRequest workerId =>
      cases ht
      obtain rfl : workerId = 0 := by simpa [Message.validateFields] using hfields
      rfl
  | workerRegisterAck workerId | heartbeat workerId =>
      cases ht
      simp only [decodeFields, Message.head, Layout.u32, getU32_putU32]
      rfl
  | jobSubmitAck jobId | jobStatusRequest jobId | jobStatusNotFound jobId =>
      cases ht
      simp only [decodeFields, Message.head, Layout.u64, getU64_putU64]
      rfl
  | jobSubmit payload =>
      cases ht
      simp only [Message.dataSize] at hpending
      simp only [decodeFields, Message.head, readJobSubmit_eq,
        submitLayout.read_write, hpending]
      rfl
  | jobAssign payload =>
      cases ht
      simp only [Message.dataSize] at hpending
      simp only [decodeFields, Message.head, readJobAssign_eq,
        assignLayout.read_write, hpending]
      rfl
  | jobStarted identity =>
      cases ht
      simp only [decodeFields, Message.head, readIdentity_eq,
        identityLayout.read_write]
      rfl
  | jobCompleted payload =>
      cases ht
      simp only [Message.dataSize] at hpending
      simp only [decodeFields, Message.head, readJobCompleted_eq,
        completedLayout.read_write, hpending]
      rfl
  | jobFailed payload =>
      cases ht
      simp only [decodeFields, Message.head, readJobFailed_eq,
        failedLayout.read_write]
      rfl
  | jobStatusResponse payload =>
      cases ht
      simp only [Message.dataSize] at hpending
      simp only [decodeFields, Message.head, readJobStatus_eq,
        statusLayout.read_write, hpending]
      rfl
  | jobsResponse entries =>
      cases ht
      refine decodeJobs_stores (Nat.le_of_mul_le_mul_right hdata ?_) rest
      decide
  | workersResponse payload =>
      cases ht
      refine decodeWorkers_stores (Nat.le_of_mul_le_mul_right hdata ?_) ?_ rest
      · decide
      · intro hzero
        have hcount : ¬payload.entries.length > workersMaxEntries :=
          Nat.not_lt.mpr (Nat.le_of_mul_le_mul_right hdata (by decide))
        simp [Message.validateFields, validateWorkers, hzero, hcount]
          at hfields
  | statsResponse payload =>
      cases ht
      simp only [decodeFields, Message.head, readStats_eq,
        statsLayout.read_write]
      rfl
  | unknown messageType => cases ht

/-- Inside its bounds a payload is what the switch and the final checks
make of it. -/
theorem decodeBody_eq {type : MessageType} {length : Nat}
    {payload : List UInt8} (hmin : type.minimum ≤ length)
    (hmax : length ≤ type.maximum) (hthere : type.minimum ≤ payload.length) :
    decodeBody type length payload
      = (decodeFields type length payload).bind
        (finishDecode type length payload) := by
  have hbounds : (decide (length < type.minimum)
      || (type.minimum == type.maximum && length != type.minimum))
        = false := by
    simp only [Bool.or_eq_false_iff, decide_eq_false_iff_not,
      Bool.and_eq_false_iff, beq_eq_false_iff_ne, bne_eq_false_iff_eq]
    omega
  rw [decodeBody, hbounds, if_neg Bool.false_ne_true, if_neg (by omega),
    if_neg (by omega)]
  cases decodeFields type length payload <;> rfl

/-- A payload that is decoded lies inside its bounds. -/
theorem decodeBody_ok {type : MessageType} {length : Nat}
    {payload : List UInt8} {result : Message × Nat}
    (h : decodeBody type length payload = .ok result) :
    type.minimum ≤ length ∧ length ≤ type.maximum
      ∧ type.minimum ≤ payload.length := by
  unfold decodeBody at h
  split at h
  · cases h
  next hlow =>
    split at h
    · cases h
    split at h
    · cases h
    simp only [Bool.or_eq_true, decide_eq_true_eq, not_or] at hlow
    omega

theorem finishDecode_ok_iff {type : MessageType} {length : Nat}
    {payload : List UInt8} {decoded : Message} {result : Message × Nat} :
    finishDecode type length payload decoded = .ok result ↔
      validateMessage decoded = .ok length ∧ length ≤ payload.length
        ∧ (decoded.setData ((payload.drop type.minimum).take
            (length - type.minimum)), headerSize + length) = result := by
  unfold finishDecode
  cases validateMessage decoded with
  | error e => simp
  | ok expected =>
      by_cases hlen : length = expected
      · subst hlen
        by_cases hthere : length ≤ payload.length
        · simp [hthere, Nat.not_lt.mpr hthere]
        · simp [hthere, Nat.lt_of_not_le hthere]
      · simp [hlen, Ne.symm hlen]

theorem decodeBody_stores {message : Message} {type : MessageType}
    {size : Nat} (ht : message.type = some type)
    (h : validateMessage message = .ok size) (rest : List UInt8) :
    decodeBody type size (message.head ++ message.tail ++ rest)
      = .ok (message, headerSize + size) := by
  obtain ⟨type', ht', hfields, -, hdata, hsize⟩ := validateMessage_ok_iff.mp h
  obtain rfl : type' = type := Option.some.inj (ht'.symm.trans ht)
  have hhead := Message.length_head ht
  have htail := message.length_tail
  have hmax : size ≤ type'.maximum := by
    rw [← hsize]
    exact Nat.add_le_add_left hdata _
  have hswitch := decodeFields_stores ht hfields hdata rest
  rw [hsize] at hswitch
  rw [List.append_assoc, decodeBody_eq (by omega) hmax (by
    rw [List.length_append, hhead]
    omega), hswitch]
  refine finishDecode_ok_iff.mpr ⟨?_, ?_, ?_⟩
  · rw [validateMessage_setData (List.length_replicate ..), h]
  · rw [List.length_append, List.length_append, hhead, htail]
    omega
  · rw [Message.setData_setData, List.drop_left' hhead,
      List.take_left' (by omega), Message.setData_tail]

/-- A frame is decoded to its message, whatever follows. -/
theorem messageDecode_frame {message : Message} {size : Nat}
    (h : validateMessage message = .ok size) (rest : List UInt8) :
    messageDecode (message.frame size ++ rest)
      = .ok (message, headerSize + size) := by
  obtain ⟨type, ht, -⟩ := validateMessage_ok_iff.mp h
  have hlen := Message.length_frame h
  have hvalid := validateHeader_header ht (validateMessage_size_le h)
  have hread : readHeader (message.frame size ++ rest)
      = message.header size := by
    rw [readHeader_eq, Message.frame, List.append_assoc,
      headerLayout.read_write]
  have hheader : headerDecode (message.frame size ++ rest)
      = .ok (message.header size) := by
    rw [headerDecode, if_neg (by rw [List.length_append]; omega), hread,
      hvalid]
  have hbounds : messagePayloadBounds (message.header size).messageType
      = .ok type := by
    simp only [messagePayloadBounds, Message.header,
      Message.messageType_eq ht, MessageType.ofCode_code]
  have hsize : (message.header size).payloadLength.toNat = size := by
    have hle := validateMessage_size_le h
    unfold maxPayloadSize at hle
    exact UInt32.toNat_ofNat_of_lt' (show size < 2 ^ 32 by omega)
  have hpayload : (message.frame size ++ rest).drop headerSize
      = message.head ++ message.tail ++ rest := by
    rw [Message.frame, List.append_assoc]
    exact List.drop_left' (headerLayout.length_write _)
  rw [messageDecode, hheader]
  simp only [hbounds, hsize, hpayload]
  exact decodeBody_stores ht h rest

-- ==================================================== canonical

/-- The data that is copied has the length the prefix announced. -/
theorem ofNat_length_data {size : UInt32} {data : List UInt8}
    (h : data.length = (pendingData size).length) :
    UInt32.ofNat data.length = size := by
  rw [h, pendingData, List.length_replicate, UInt32.ofNat_toNat]

theorem listCount_ok_iff {limit minimum stride length count : Nat}
    {payload : List UInt8} :
    listCount limit minimum stride length payload = .ok count ↔
      (getU32 payload).toNat = count ∧ count ≤ limit
        ∧ length = minimum + count * stride := by
  unfold listCount
  by_cases hlimit : (getU32 payload).toNat ≤ limit
  · rw [if_neg (Nat.not_lt.mpr hlimit)]
    by_cases hlen : length = minimum + (getU32 payload).toNat * stride
    · rw [if_neg (not_not.mpr hlen), Except.ok.injEq]
      constructor
      · intro h
        subst h
        exact ⟨rfl, hlimit, hlen⟩
      · exact fun h => h.1
    · rw [if_pos hlen]
      constructor
      · intro h
        cases h
      · intro h
        rw [h.1] at hlen
        exact absurd h.2.2 hlen
  · rw [if_pos (Nat.lt_of_not_le hlimit)]
    constructor
    · intro h
      cases h
    · intro h
      rw [h.1] at hlimit
      exact absurd h.2.1 hlimit

theorem decodeJobs_ok {length : Nat} {payload : List UInt8}
    {decoded : Message} (h : decodeJobs length payload = .ok decoded) :
    length ≤ payload.length ∧ decoded = .jobsResponse
      (jobSummaryLayout.readAll (getU32 payload).toNat
        (payload.drop jobsPrefixSize)) := by
  unfold decodeJobs at h
  cases hcount : listCount jobsMaxEntries jobsPrefixSize jobSummarySize length
      payload with
  | error e =>
      rw [hcount] at h
      cases h
  | ok count =>
      obtain ⟨rfl, -⟩ := listCount_ok_iff.mp hcount
      rw [hcount] at h
      by_cases hthere : payload.length < length
      · simp [hthere] at h
      · simp only [if_neg hthere, Except.ok.injEq] at h
        refine ⟨Nat.le_of_not_lt hthere, ?_⟩
        rw [← h, readJobSummary_eq, ← readRows_eq]
        rfl

theorem decodeWorkers_ok {length : Nat} {payload : List UInt8}
    {decoded : Message} (h : decodeWorkers length payload = .ok decoded) :
    length ≤ payload.length ∧ decoded = .workersResponse
      ⟨getU32 (payload.drop 4),
        workerSummaryLayout.readAll (getU32 payload).toNat
          (payload.drop workersPrefixSize)⟩ := by
  unfold decodeWorkers at h
  cases hcount : listCount workersMaxEntries workersPrefixSize
      workerSummarySize length payload with
  | error e =>
      rw [hcount] at h
      cases h
  | ok count =>
      obtain ⟨rfl, -⟩ := listCount_ok_iff.mp hcount
      rw [hcount] at h
      by_cases hzero : getU32 (payload.drop 4) = 0
      · simp [hzero] at h
      by_cases hthere : payload.length < length
      · simp [hzero, hthere] at h
      · simp only [beq_iff_eq, if_neg hzero, if_neg hthere,
          Except.ok.injEq] at h
        refine ⟨Nat.le_of_not_lt hthere, ?_⟩
        rw [← h, readWorkerSummary_eq, ← readRows_eq]
        rfl

theorem decodeFields_type {type : MessageType} {length : Nat}
    {payload : List UInt8} {decoded : Message}
    (h : decodeFields type length payload = .ok decoded) :
    decoded.type = some type := by
  cases type with
  | jobsResponse =>
      rw [(decodeJobs_ok h).2]
      rfl
  | workersResponse =>
      rw [(decodeWorkers_ok h).2]
      rfl
  | _ =>
      cases h
      rfl

/-- The fixed part was read off its layout, so storing it again gives the
same bytes. -/
theorem decodeFields_head {type : MessageType} {length : Nat}
    {payload data : List UInt8} {decoded : Message}
    (h : decodeFields type length payload = .ok decoded)
    (hthere : type.minimum ≤ payload.length)
    (hdata : data.length = decoded.dataSize) :
    (decoded.setData data).head = payload.take type.minimum := by
  cases type with
  | ping | pong | workerRegister | jobsRequest | workersRequest
  | statsRequest =>
      cases h
      rfl
  | workerRegisterAck | heartbeat =>
      cases h
      exact Layout.u32.write_read payload hthere
  | jobSubmitAck | jobStatusRequest | jobStatusNotFound =>
      cases h
      exact Layout.u64.write_read payload hthere
  | jobSubmit =>
      cases h
      rw [readJobSubmit_eq] at hdata ⊢
      simp only [Message.setData, Message.head, ofNat_length_data hdata]
      exact submitLayout.write_read payload hthere
  | jobAssign =>
      cases h
      rw [readJobAssign_eq] at hdata ⊢
      simp only [Message.setData, Message.head, ofNat_length_data hdata]
      exact assignLayout.write_read payload hthere
  | jobStarted =>
      cases h
      rw [readIdentity_eq]
      exact identityLayout.write_read payload hthere
  | jobCompleted =>
      cases h
      rw [readJobCompleted_eq] at hdata ⊢
      simp only [Message.setData, Message.head, ofNat_length_data hdata]
      exact completedLayout.write_read payload hthere
  | jobFailed =>
      cases h
      rw [readJobFailed_eq]
      exact failedLayout.write_read payload hthere
  | jobStatusResponse =>
      cases h
      rw [readJobStatus_eq] at hdata ⊢
      simp only [Message.setData, Message.head, ofNat_length_data hdata]
      exact statusLayout.write_read payload hthere
  | jobsResponse =>
      rw [(decodeJobs_ok h).2]
      simp only [Message.setData, Message.head, Layout.length_readAll,
        UInt32.ofNat_toNat]
      exact Layout.u32.write_read payload hthere
  | workersResponse =>
      rw [(decodeWorkers_ok h).2]
      simp only [Message.setData, Message.head, Layout.length_readAll,
        UInt32.ofNat_toNat]
      exact (Layout.u32.pair .u32).write_read payload hthere
  | statsResponse =>
      cases h
      rw [readStats_eq]
      exact statsLayout.write_read payload hthere

/-- So was the variable part. -/
theorem decodeFields_tail {type : MessageType} {length : Nat}
    {payload : List UInt8} {decoded : Message}
    (h : decodeFields type length payload = .ok decoded)
    (hthere : type.minimum + decoded.dataSize ≤ payload.length) :
    (decoded.setData ((payload.drop type.minimum).take
        decoded.dataSize)).tail
      = (payload.drop type.minimum).take decoded.dataSize := by
  have hrest : decoded.dataSize ≤ (payload.drop type.minimum).length := by
    rw [List.length_drop]
    omega
  cases type with
  | jobsResponse =>
      obtain ⟨-, rfl⟩ := decodeJobs_ok h
      simp only [Message.setData, Message.tail, Message.dataSize,
        Layout.length_readAll] at hrest ⊢
      exact jobSummaryLayout.writeAll_readAll _ hrest
  | workersResponse =>
      obtain ⟨-, rfl⟩ := decodeWorkers_ok h
      simp only [Message.setData, Message.tail, Message.dataSize,
        Layout.length_readAll] at hrest ⊢
      exact workerSummaryLayout.writeAll_readAll _ hrest
  | _ =>
      cases h
      rfl

/-- What is decoded is the frame it was decoded from. -/
theorem decodeBody_frame {type : MessageType} {length consumed : Nat}
    {payload : List UInt8} {message : Message}
    (h : decodeBody type length payload = .ok (message, consumed)) :
    message.type = some type ∧ validateMessage message = .ok length
      ∧ consumed = headerSize + length ∧ length ≤ payload.length
      ∧ message.head ++ message.tail = payload.take length := by
  obtain ⟨hmin, hmax, hfixed⟩ := decodeBody_ok h
  rw [decodeBody_eq hmin hmax hfixed] at h
  cases hswitch : decodeFields type length payload with
  | error e =>
      rw [hswitch] at h
      cases h
  | ok decoded =>
      rw [hswitch] at h
      obtain ⟨hvalid, hthere, heq⟩ := finishDecode_ok_iff.mp h
      have htype := decodeFields_type hswitch
      have hsize : length - type.minimum = decoded.dataSize := by
        obtain ⟨type', htype', -, -, -, hsize⟩ :=
          validateMessage_ok_iff.mp hvalid
        obtain rfl : type = type' := Option.some.inj (htype.symm.trans htype')
        omega
      rw [hsize] at heq
      have hdata : ((payload.drop type.minimum).take decoded.dataSize).length
          = decoded.dataSize := by
        rw [List.length_take, List.length_drop]
        omega
      obtain ⟨rfl, rfl⟩ := Prod.mk.inj heq
      refine ⟨by rw [Message.type_setData, htype],
        by rw [validateMessage_setData hdata, hvalid], rfl, hthere, ?_⟩
      rw [decodeFields_head hswitch hfixed hdata,
        decodeFields_tail hswitch (by omega), take_append_take_drop, ← hsize,
        Nat.add_sub_cancel' hmin]

/-- A header that is accepted has the fixed magic and version, and a known
type. -/
theorem validateHeader_ok {header : ProtocolHeader}
    (h : validateHeader header = .ok ()) :
    header.magic = protocolMagic ∧ header.version = protocolVersion
      ∧ (∃ type, MessageType.ofCode header.messageType = some type)
      ∧ header.payloadLength.toNat ≤ maxPayloadSize := by
  unfold validateHeader messagePayloadBounds at h
  by_cases hmagic : header.magic = protocolMagic
  · by_cases hversion : header.version = protocolVersion
    · cases htype : MessageType.ofCode header.messageType with
      | none => simp [hmagic, hversion, htype] at h
      | some type =>
          by_cases hlen : header.payloadLength.toNat ≤ maxPayloadSize
          · exact ⟨hmagic, hversion, ⟨type, rfl⟩, hlen⟩
          · simp [hmagic, hversion, htype, Nat.lt_of_not_le hlen] at h
    · simp [hmagic, hversion] at h
  · simp [hmagic] at h

theorem headerDecode_ok {wire : List UInt8} {header : ProtocolHeader}
    (h : headerDecode wire = .ok header) :
    headerSize ≤ wire.length ∧ readHeader wire = header
      ∧ validateHeader header = .ok () := by
  unfold headerDecode at h
  by_cases hlen : wire.length < headerSize
  · simp [hlen] at h
  · cases hvalid : validateHeader (readHeader wire) with
    | error e => simp [hlen, hvalid] at h
    | ok u =>
        simp only [if_neg hlen, hvalid, Except.ok.injEq] at h
        rw [← h]
        exact ⟨Nat.le_of_not_lt hlen, rfl, hvalid⟩

/-- A frame is decoded by its header and its body. -/
theorem messageDecode_ok {wire : List UInt8} {result : Message × Nat}
    (h : messageDecode wire = .ok result) :
    ∃ header type, headerDecode wire = .ok header
      ∧ MessageType.ofCode header.messageType = some type
      ∧ decodeBody type header.payloadLength.toNat (wire.drop headerSize)
        = .ok result := by
  unfold messageDecode at h
  cases hheader : headerDecode wire with
  | error e =>
      rw [hheader] at h
      cases h
  | ok header =>
      obtain ⟨-, -, hvalid⟩ := headerDecode_ok hheader
      obtain ⟨-, -, ⟨type, htype⟩, -⟩ := validateHeader_ok hvalid
      refine ⟨header, type, rfl, htype, ?_⟩
      rw [hheader] at h
      simpa only [messagePayloadBounds, htype] using h

theorem messageDecode_canonical {wire : List UInt8} {message : Message}
    {consumed : Nat} (h : messageDecode wire = .ok (message, consumed)) :
    ∃ size, validateMessage message = .ok size
      ∧ consumed = headerSize + size ∧ consumed ≤ wire.length
      ∧ message.frame size = wire.take consumed := by
  obtain ⟨header, type, hheader, hcode, hbody⟩ := messageDecode_ok h
  obtain ⟨hlen, hread, hvalid⟩ := headerDecode_ok hheader
  obtain ⟨hmagic, hversion, -⟩ := validateHeader_ok hvalid
  obtain ⟨htype, hmessage, hconsumed, hthere, hpayload⟩ :=
    decodeBody_frame hbody
  have hfields : message.header header.payloadLength.toNat = header := by
    simp only [Message.header, Message.messageType_eq htype,
      MessageType.code_ofCode hcode, UInt32.ofNat_toNat, ← hmagic, ← hversion]
  refine ⟨header.payloadLength.toNat, hmessage, hconsumed, ?_, ?_⟩
  · rw [List.length_drop] at hthere
    omega
  · have hbytes : headerLayout.write header = wire.take headerSize := by
      rw [← hread, readHeader_eq]
      exact headerLayout.write_read wire hlen
    rw [Message.frame, hfields, hpayload, hbytes, take_append_take_drop,
      hconsumed]

-- ==================================================== round trip

/-- The byte strings the decoder takes as one whole frame. -/
def AcceptedFrame : Type :=
  { frame : List UInt8 //
    ∃ message, messageDecode frame = .ok (message, frame.length) }

/-- The messages the validator accepts. -/
def ValidMessage : Type :=
  { message : Message // ∃ size, validateMessage message = .ok size }

/-- The frame of a valid message is accepted. -/
theorem ValidMessage.accepted (message : ValidMessage) :
    ∃ frame : AcceptedFrame,
      messageDecode frame.1 = .ok (message.1, frame.1.length) := by
  obtain ⟨message, size, hvalid⟩ := message
  have hdecode : messageDecode (message.frame size)
      = .ok (message, (message.frame size).length) := by
    have := messageDecode_frame hvalid []
    rwa [List.append_nil, ← Message.length_frame hvalid] at this
  exact ⟨⟨message.frame size, message, hdecode⟩, hdecode⟩

/-- An accepted frame is the frame of one valid message, and of no
other. -/
theorem AcceptedFrame.eq_of_decode {frame frame' : AcceptedFrame}
    {message : Message}
    (h : messageDecode frame.1 = .ok (message, frame.1.length))
    (h' : messageDecode frame'.1 = .ok (message, frame'.1.length)) :
    frame = frame' := by
  obtain ⟨size, hvalid, -, -, hframe⟩ := messageDecode_canonical h
  obtain ⟨size', hvalid', -, -, hframe'⟩ := messageDecode_canonical h'
  obtain rfl : size = size' := Except.ok.inj (hvalid.symm.trans hvalid')
  rw [List.take_length] at hframe hframe'
  exact Subtype.ext (hframe.symm.trans hframe')

theorem AcceptedFrame.decodes (frame : AcceptedFrame) :
    ∃ message : ValidMessage,
      messageDecode frame.1 = .ok (message.1, frame.1.length) := by
  obtain ⟨message, h⟩ := frame.2
  obtain ⟨size, hvalid, -⟩ := messageDecode_canonical h
  exact ⟨⟨message, size, hvalid⟩, h⟩

/-- Every valid message, encoded into any buffer that has room for its
frame, is decoded again from those bytes, whatever follows them; every
message that is decoded is encoded to the very bytes it was decoded from.
So accepted frames and valid messages are in bijection. -/
theorem messageCodec_roundTrip :
    (∀ message size, validateMessage message = .ok size →
      ∀ wire : List UInt8, headerSize + size ≤ wire.length →
        ∃ frame : List UInt8, frame.length = headerSize + size
          ∧ messageEncode wire message
            = .ok (frame ++ wire.drop frame.length, frame.length)
          ∧ ∀ rest, messageDecode (frame ++ rest)
            = .ok (message, frame.length))
    ∧ (∀ wire message consumed,
      messageDecode wire = .ok (message, consumed) →
        consumed ≤ wire.length
          ∧ (∃ size, validateMessage message = .ok size
            ∧ consumed = headerSize + size)
          ∧ ∀ buffer : List UInt8, consumed ≤ buffer.length →
            messageEncode buffer message
              = .ok (wire.take consumed ++ buffer.drop consumed, consumed))
    ∧ ∃ decoded : AcceptedFrame ≃ ValidMessage, ∀ frame : AcceptedFrame,
      messageDecode frame.1 = .ok ((decoded frame).1, frame.1.length) := by
  refine ⟨?_, ?_, ?_⟩
  · intro message size hvalid wire hroom
    have hlen := Message.length_frame hvalid
    refine ⟨message.frame size, hlen, ?_, ?_⟩
    · rw [hlen, messageEncode_eq hvalid hroom]
    · intro rest
      rw [hlen, messageDecode_frame hvalid rest]
  · intro wire message consumed h
    obtain ⟨size, hvalid, rfl, hthere, hframe⟩ := messageDecode_canonical h
    refine ⟨hthere, ⟨size, hvalid, rfl⟩, ?_⟩
    intro buffer hroom
    rw [messageEncode_eq hvalid hroom, hframe]
  · choose decoded hdecoded using AcceptedFrame.decodes
    refine ⟨Equiv.ofBijective decoded ⟨?_, ?_⟩, hdecoded⟩
    · intro frame frame' heq
      have h := hdecoded frame
      rw [heq] at h
      exact AcceptedFrame.eq_of_decode h (hdecoded frame')
    · intro message
      obtain ⟨frame, hframe⟩ := message.accepted
      refine ⟨frame, Subtype.ext ?_⟩
      have := (hdecoded frame).symm.trans hframe
      exact congrArg Prod.fst (Except.ok.inj this)

/-- A heartbeat of worker 7 takes sixteen bytes, and comes back. -/
theorem messageCodec_roundTrip_heartbeat :
    validateMessage (.heartbeat 7) = .ok 4
      ∧ messageEncode (List.replicate 16 0) (.heartbeat 7)
        = .ok ([0x46, 0x4c, 0x49, 0x4e, 0, 1, 0, 5, 0, 0, 0, 4, 0, 0, 0, 7],
          16)
      ∧ ∃ frame : List UInt8, frame.length = 16
        ∧ ∀ rest, messageDecode (frame ++ rest)
          = .ok (.heartbeat 7, frame.length) := by
  obtain ⟨frame, hlen, -, hdecode⟩ := messageCodec_roundTrip.1 (.heartbeat 7) 4
    (by decide) (List.replicate 16 0) (by decide)
  exact ⟨by decide, by decide +kernel, frame, hlen, hdecode⟩

end Faultline
