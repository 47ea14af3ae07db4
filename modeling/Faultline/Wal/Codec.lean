/-
The record codec, both ways.

`walRecordDecode_recordBytes`: an encodable record followed by anything
decodes back to itself and says how long it was. `recordBytes_of_decode`:
whatever decodes re-encodes to exactly the bytes it was read from, so the
format is canonical and a comparison of encodings is a comparison of
records. Between them, every accepted record has one byte form and every
byte form one record; the checksum's arithmetic is never looked into.
-/
import Mathlib.Data.Bool.Basic
import Faultline.Wal.Format
import Faultline.Abstract.JobLife

namespace Faultline

open Lib

-- =============================================== snapshot check

theorem validFailure_iff {f : JobFailure} :
    validFailure f = true ↔ f ≠ .none := by
  cases f <;> simp [validFailure]

/-- The format's snapshot check is the model's invariant, at the state
the event leaves. -/
theorem validJob_iff {event : JobEvent} {job : Job} :
    validJob event job = true ↔ job.Valid ∧ event.Leaves job := by
  have hz : (0 : UInt32).toUInt64 = 0 := rfl
  constructor
  · intro h
    unfold validJob at h
    split at h
    · cases h
    rename_i hbase
    simp only [Bool.or_eq_true, beq_iff_eq, decide_eq_true_eq, not_or]
      at hbase
    obtain ⟨⟨⟨⟨⟨hid, hargs⟩, hres⟩, hretry⟩, hcreated⟩, hupdated⟩ := hbase
    have hvalid (hf : job.StateFields) : job.Valid :=
      ⟨hid, by omega, by omega, by grind, by grind, hf⟩
    cases event <;>
      simp only [validWaiting, validOwned, Bool.and_eq_true,
        Bool.not_eq_true', Bool.or_eq_false_iff, beq_iff_eq,
        bne_eq_false_iff_eq, bne_iff_ne, decide_eq_true_eq,
        decide_eq_false_iff_not, beq_eq_false_iff_ne, validFailure_iff,
        List.length_eq_zero_iff] at h <;>
      refine ⟨hvalid ?_, ?_⟩ <;>
      simp only [Job.StateFields, JobEvent.Leaves, h, jobTimeUnset] <;> grind
  · rintro ⟨hvalid, hleaves⟩
    have hupdated := hvalid.created_le
    obtain ⟨hid, hargs, hres, hretry, hcreated, hf⟩ := hvalid
    unfold validJob
    rw [if_neg (by
      simp only [Bool.or_eq_true, beq_iff_eq, decide_eq_true_eq, not_or]
      exact ⟨⟨⟨⟨⟨hid, by omega⟩, by omega⟩, by grind⟩, by grind⟩, by grind⟩)]
    unfold Job.StateFields at hf
    cases event <;> simp only [JobEvent.Leaves] at hleaves <;>
      simp only [hleaves, jobTimeUnset] at hf <;>
      simp only [validWaiting, validOwned, Bool.and_eq_true,
        Bool.not_eq_true', Bool.or_eq_false_iff, beq_iff_eq,
        bne_eq_false_iff_eq, bne_iff_ne, decide_eq_true_eq,
        decide_eq_false_iff_not, beq_eq_false_iff_ne, validFailure_iff,
        List.length_eq_zero_iff] <;> grind

-- ======================================================== times

/-- A point in time is stored in the lower half of the unsigned range. -/
theorem toUInt64_le_of_nonneg {t : Int64} (h : 0 ≤ t) :
    t.toUInt64 ≤ 0x7fffffffffffffff := by
  have hint : (0 : Int64).toInt ≤ t.toInt := Int64.le_iff_toInt_le.mp h
  rw [show t.toInt = t.toBitVec.toInt from rfl,
    BitVec.toInt_eq_toNat_cond, show (0 : Int64).toInt = 0 from rfl] at hint
  rw [UInt64.le_iff_toNat_le]
  show t.toBitVec.toNat ≤ 9223372036854775807
  have hlt := t.toBitVec.isLt
  split at hint <;> omega

theorem decodeTime_toUInt64 {t : Int64} (h : TimeOk t) :
    decodeTime t.toUInt64 = some t := by
  rcases h with rfl | h
  · rfl
  · have hle := toUInt64_le_of_nonneg h
    have hne : t.toUInt64 ≠ 0xffffffffffffffff := by
      intro heq
      rw [heq] at hle
      exact absurd hle (by decide)
    simp only [decodeTime, beq_iff_eq, hne, hle, if_true, if_false]
    rfl

theorem toUInt64_of_decodeTime {v : UInt64} {t : Int64}
    (h : decodeTime v = some t) : t.toUInt64 = v := by
  unfold decodeTime at h
  split at h
  · rename_i hv
    cases h
    exact (beq_iff_eq.mp hv).symm
  split at h
  · cases h
    rfl
  · cases h

-- ================================================ job payloads

@[simp] theorem length_encodeJob (job : Job) :
    (encodeJob job).length
      = walJobPrefixSize + job.arguments.length + job.result.length := by
  simp only [encodeJob, List.length_append, length_putU16, length_putU32,
    length_putU64, walJobPrefixSize]
  omega

/-- The fixed fields read back from an encoded snapshot. -/
theorem decodeJobFields_encodeJob {job : Job} (h : job.Valid)
    (arguments result : List UInt8) :
    decodeJobFields (encodeJob job) arguments result
      = some { job with arguments, result } := by
  obtain ⟨hc, hu, ha, hs, hf⟩ := h.times
  simp [decodeJobFields, encodeJob, decodeTime_toUInt64, hc, hu, ha, hs, hf]

theorem toNat_length_toUInt32 {data : List UInt8} {bound : Nat}
    (h : data.length ≤ bound) (hb : bound ≤ 4096) :
    data.length.toUInt32.toNat = data.length := by
  simp only [Nat.toUInt32_eq, UInt32.toNat_ofNat']
  omega

/-- A valid snapshot decodes back from its encoding. -/
theorem decodeJob_encodeJob {event : JobEvent} {job : Job}
    (h : validJob event job = true) :
    decodeJob (encodeJob job) event = .ok job := by
  have hvalid := (validJob_iff.mp h).1
  have hargs := toNat_length_toUInt32 hvalid.arguments_le (by decide)
  have hres := toNat_length_toUInt32 hvalid.result_le (by decide)
  have h76 : getU32 ((encodeJob job).drop 76)
      = job.arguments.length.toUInt32 := by simp [encodeJob]
  have h80 : getU32 ((encodeJob job).drop 80)
      = job.result.length.toUInt32 := by simp [encodeJob]
  have h74 : getU16 ((encodeJob job).drop 74) = 0 := by simp [encodeJob]
  have h84 : (encodeJob job).drop walJobPrefixSize
      = job.arguments ++ job.result := by
    simp [encodeJob, walJobPrefixSize]
  have hle₁ := hvalid.arguments_le
  have hle₂ := hvalid.result_le
  simp only [decodeJob, h76, h80, h74, hargs, hres, length_encodeJob]
  rw [if_neg (by simp; omega), if_neg (by simp), ← List.drop_drop, h84,
    List.take_left, List.drop_left, List.take_length,
    decodeJobFields_encodeJob hvalid]
  simp [h]

/-- Re-encoding the decoded fields in front of the data they were read
with gives the bytes back. -/
theorem encodeJob_of_fields {bytes arguments result : List UInt8} {job : Job}
    (h : decodeJobFields bytes arguments result = some job)
    (hlen : walJobPrefixSize ≤ bytes.length)
    (h74 : getU16 (bytes.drop 74) = 0)
    (h76 : getU32 (bytes.drop 76) = arguments.length.toUInt32)
    (h80 : getU32 (bytes.drop 80) = result.length.toUInt32)
    (h84 : bytes.drop walJobPrefixSize = arguments ++ result) :
    encodeJob job = bytes := by
  unfold walJobPrefixSize at hlen h84
  simp only [decodeJobFields, bind, Option.bind_eq_some_iff, pure,
    Option.some.injEq] at h
  obtain ⟨task, htask, state, hstate, failure, hfailure, created, hcreated,
    updated, hupdated, assigned, hassigned, started, hstarted, finished,
    hfinished, rfl⟩ := h
  simp only [encodeJob, TaskType.code_of_ofCode htask,
    JobState.code_of_ofCode hstate, JobFailure.code_of_ofCode hfailure,
    toUInt64_of_decodeTime hcreated, toUInt64_of_decodeTime hupdated,
    toUInt64_of_decodeTime hassigned, toUInt64_of_decodeTime hstarted,
    toUInt64_of_decodeTime hfinished]
  -- Glue the words back on from the last one to the first.
  rw [← h84, ← h80, ← h76, ← h74, putU32_glue (by omega),
    putU32_glue (by omega), putU16_glue (by omega), putU16_glue (by omega),
    putU64_glue (by omega), putU64_glue (by omega), putU64_glue (by omega),
    putU64_glue (by omega), putU64_glue (by omega), putU32_glue (by omega),
    putU32_glue (by omega), putU64_glue (by omega), putU32_glue (by omega),
    putU16_glue (by omega), putU16_glue (by omega)]
  exact putU64_glue (k := 0) (by omega)

/-- What decodes as a snapshot is exactly that snapshot's encoding. -/
theorem encodeJob_of_decodeJob {event : JobEvent} {bytes : List UInt8}
    {job : Job} (h : decodeJob bytes event = .ok job) :
    encodeJob job = bytes ∧ validJob event job = true := by
  unfold decodeJob at h
  simp only at h
  split at h
  · cases h
  rename_i hlen
  simp only [Bool.or_eq_true, decide_eq_true_eq, bne_iff_ne, not_or,
    not_not] at hlen
  obtain ⟨⟨hargs, hres⟩, hlen⟩ := hlen
  split at h
  · cases h
  rename_i hzero
  simp only [bne_iff_ne, not_not] at hzero
  cases hf : decodeJobFields bytes _ _ with
  | none =>
      rw [hf] at h
      cases h
  | some decoded =>
      rw [hf] at h
      simp only at h
      split at h
      · cases h
      rename_i hvalid
      cases h
      refine ⟨?_, by simpa using hvalid⟩
      have hlen' := hlen
      unfold walJobPrefixSize at hlen'
      have hargs : ((bytes.drop walJobPrefixSize).take
          (getU32 (bytes.drop 76)).toNat).length
            = (getU32 (bytes.drop 76)).toNat := by
        rw [List.length_take, List.length_drop, walJobPrefixSize]
        omega
      have hres : ((bytes.drop (walJobPrefixSize
          + (getU32 (bytes.drop 76)).toNat)).take
            (getU32 (bytes.drop 80)).toNat).length
            = (getU32 (bytes.drop 80)).toNat := by
        rw [List.length_take, List.length_drop, walJobPrefixSize]
        omega
      refine encodeJob_of_fields hf (by omega) hzero ?_ ?_ ?_
      · rw [hargs]
        simp
      · rw [hres]
        simp
      · rw [← List.drop_drop, Lib.take_append_take_drop]
        refine (List.take_of_length_le ?_).symm
        rw [List.length_drop]
        omega

-- =============================================== file header

@[simp] theorem length_walFileHeaderEncode :
    walFileHeaderEncode.length = walFileHeaderSize := rfl

private theorem drop_fileMagic (rest : List UInt8) (n : Nat) :
    (fileMagic ++ rest).drop (n + 8) = rest.drop n := by
  rw [Nat.add_comm, ← List.drop_drop]
  rfl

/-- The decoder accepts the one file header there is. -/
theorem walFileHeaderDecode_ok_iff {wire : List UInt8} :
    walFileHeaderDecode wire = .ok ()
      ↔ wire.take walFileHeaderSize = walFileHeaderEncode := by
  constructor
  · intro h
    unfold walFileHeaderDecode at h
    split at h
    · cases h
    rename_i hsize
    unfold walFileHeaderSize at hsize ⊢
    split at h
    · cases h
    rename_i hcrc
    split at h
    · cases h
    rename_i hmagic
    split at h
    · cases h
    rename_i hversion
    split at h
    · cases h
    rename_i hrest
    simp only [bne_iff_ne, not_not] at hcrc hmagic hversion
    simp only [Bool.or_eq_true, bne_iff_ne, not_or, not_not] at hrest
    have hglue : walFileHeaderPrefix ++ wire.drop 20 = wire := by
      simp only [walFileHeaderPrefix, List.append_assoc]
      rw [← hmagic, ← hversion, ← hrest.1.1]
      nth_rewrite 1 [← hrest.1.2]
      rw [← hrest.2, putU32_glue (by omega), putU32_glue (by omega),
        putU16_glue (by omega), putU16_glue (by omega),
        List.take_append_drop]
    have hfront : wire.take 20 = walFileHeaderPrefix := by
      rw [← hglue]
      exact List.take_left' rfl
    have hwhole : walFileHeaderEncode ++ wire.drop 24 = wire := by
      rw [walFileHeaderEncode, ← hfront, ← hcrc, List.append_assoc,
        putU32_glue (by omega), List.take_append_drop]
    rw [← hwhole]
    exact List.take_left' rfl
  · intro h
    have hlen : walFileHeaderSize ≤ wire.length := by
      have := congrArg List.length h
      rw [List.length_take, length_walFileHeaderEncode] at this
      omega
    have hwire : wire = walFileHeaderEncode
        ++ wire.drop walFileHeaderSize := by
      rw [← h, List.take_append_drop]
    have htake : wire.take 20 = walFileHeaderPrefix := by
      rw [hwire, walFileHeaderEncode, List.append_assoc]
      exact List.take_left' rfl
    have hmagic : wire.take 8 = fileMagic := by
      rw [hwire, walFileHeaderEncode, walFileHeaderPrefix,
        List.append_assoc, List.append_assoc]
      exact List.take_left' rfl
    unfold walFileHeaderDecode
    rw [if_neg (by omega), htake, hmagic, hwire]
    generalize wire.drop walFileHeaderSize = rest
    rw [walFileHeaderEncode]
    generalize crc32 walFileHeaderPrefix = crc
    simp [walFileHeaderPrefix, drop_fileMagic]

-- =============================================== record headers

@[simp] theorem WalRecordType.ofCode_code (type : WalRecordType) :
    WalRecordType.ofCode type.code = some type := by
  rcases type with _ | event
  · rfl
  · cases event <;> rfl

theorem WalRecordType.code_of_ofCode {code : UInt16} {type : WalRecordType}
    (h : WalRecordType.ofCode code = some type) : type.code = code := by
  grind [WalRecordType.ofCode, WalRecordType.code]

@[simp] theorem length_recordHeaderPrefix (type : WalRecordType)
    (sequence : UInt64) (payload : List UInt8) :
    (recordHeaderPrefix type sequence payload).length = 28 := rfl

@[simp] theorem length_recordHeader (type : WalRecordType)
    (sequence : UInt64) (payload : List UInt8) :
    (recordHeader type sequence payload).length = walRecordHeaderSize := rfl

/-- No payload is longer than the format allows. -/
theorem payloadBounds_le (type : WalRecordType) :
    (payloadBounds type).2 ≤ walMaxPayloadSize := by
  rcases type with _ | event
  · decide
  · cases event <;> decide

theorem toNat_payload_length {type : WalRecordType} {payload : List UInt8}
    (h : payload.length ≤ (payloadBounds type).2) :
    payload.length.toUInt32.toNat = payload.length :=
  toNat_length_toUInt32 (Nat.le_trans h (payloadBounds_le type)) (by decide)

/-- A header decodes to what it was built from, whatever follows it. -/
theorem walRecordHeaderDecode_recordHeader {type : WalRecordType}
    {sequence : UInt64} {payload : List UInt8} (hseq : sequence ≠ 0)
    (hmin : (payloadBounds type).1 ≤ payload.length)
    (hmax : payload.length ≤ (payloadBounds type).2) (rest : List UInt8) :
    walRecordHeaderDecode (recordHeader type sequence payload ++ rest)
        sequence
      = .ok { type, sequence, payloadLength := payload.length.toUInt32,
              payloadCrc32 := crc32 payload } := by
  have hlen := toNat_payload_length hmax
  have htake : (recordHeader type sequence payload ++ rest).take 28
      = recordHeaderPrefix type sequence payload := by
    rw [recordHeader, List.append_assoc]
    exact List.take_left' (length_recordHeaderPrefix _ _ _)
  have hsize : ¬ (recordHeader type sequence payload ++ rest).length
      < walRecordHeaderSize := by
    rw [List.length_append, length_recordHeader]
    omega
  have hbounds : ¬ ((decide (payload.length < (payloadBounds type).1)
      || decide (payload.length > (payloadBounds type).2)) = true) := by
    simp only [Bool.or_eq_true, decide_eq_true_eq, not_or]
    omega
  unfold walRecordHeaderDecode
  rw [if_neg (by simpa using hseq), if_neg hsize, htake]
  simp only [recordHeader, recordHeaderPrefix, List.append_assoc,
    drop_putU32, drop_putU16, drop_putU64, List.drop_zero, getU32_putU32,
    getU16_putU16, getU64_putU64, bne_self_eq_false, Bool.false_eq_true,
    if_false, WalRecordType.ofCode_code, hlen, hbounds]

/-- An accepted header is the header of any payload it describes. -/
theorem recordHeader_of_decode {wire : List UInt8} {sequence : UInt64}
    {header : WalRecordHeader}
    (h : walRecordHeaderDecode wire sequence = .ok header) :
    sequence ≠ 0 ∧ walRecordHeaderSize ≤ wire.length
      ∧ header.sequence = sequence
      ∧ (payloadBounds header.type).1 ≤ header.payloadLength.toNat
      ∧ header.payloadLength.toNat ≤ (payloadBounds header.type).2
      ∧ ∀ payload : List UInt8,
          payload.length.toUInt32 = header.payloadLength →
          crc32 payload = header.payloadCrc32 →
          recordHeader header.type sequence payload
            = wire.take walRecordHeaderSize := by
  unfold walRecordHeaderDecode at h
  split at h
  · cases h
  rename_i hseq
  split at h
  · cases h
  rename_i hsize
  unfold walRecordHeaderSize at hsize ⊢
  split at h
  · cases h
  rename_i hcrc
  split at h
  · cases h
  rename_i hmagic
  split at h
  · cases h
  rename_i hversion
  split at h
  · cases h
  rename_i hreserved
  simp only [beq_iff_eq] at hseq
  simp only [bne_iff_ne, not_not] at hcrc hmagic hversion hreserved
  split at h
  · cases h
  rename_i type htype
  split at h
  · cases h
  rename_i hbounds
  simp only [Bool.or_eq_true, decide_eq_true_eq, not_or] at hbounds
  split at h
  · cases h
  rename_i hexpected
  simp only [bne_iff_ne, not_not] at hexpected
  cases h
  refine ⟨hseq, by omega, hexpected, Nat.le_of_not_lt hbounds.1,
    Nat.le_of_not_lt hbounds.2, ?_⟩
  intro payload hpayload hpcrc
  simp only at hpayload hpcrc ⊢
  -- Both halves are glued onto what follows them in the buffer.
  have hglue : recordHeaderPrefix type sequence payload ++ wire.drop 28
      = wire := by
    simp only [recordHeaderPrefix, List.append_assoc,
      WalRecordType.code_of_ofCode htype, hpayload, hpcrc]
    rw [← hexpected, ← hmagic, ← hversion, ← hreserved,
      putU32_glue (by omega), putU64_glue (by omega),
      putU32_glue (by omega), putU32_glue (by omega),
      putU16_glue (by omega), putU16_glue (by omega)]
    exact putU32_glue (k := 0) (by omega)
  have hfront : wire.take 28
      = recordHeaderPrefix type sequence payload := by
    rw [← hglue]
    exact List.take_left' (length_recordHeaderPrefix _ _ _)
  have hwhole : recordHeader type sequence payload ++ wire.drop 32
      = wire := by
    rw [recordHeader, ← hfront, ← hcrc, List.append_assoc,
      putU32_glue (by omega), List.take_append_drop]
  rw [← hwhole]
  exact (List.take_left' (length_recordHeader _ _ _)).symm

-- ====================================================== records

/-- A payload that passes the encoder's check has a length its type
allows. -/
theorem payloadBounds_encodePayload {entry : WalEntry}
    (h : entry.encodable = true) :
    (payloadBounds entry.type).1 ≤ (encodePayload entry).length
      ∧ (encodePayload entry).length ≤ (payloadBounds entry.type).2 := by
  cases entry with
  | workerIdAllocated id => exact ⟨Nat.le_refl _, Nat.le_refl _⟩
  | job event job =>
      obtain ⟨hvalid, hleaves⟩ := validJob_iff.mp h
      have hargs := hvalid.arguments_le
      have hres := hvalid.result_le
      have hf := hvalid.fields
      unfold Job.StateFields at hf
      simp only [WalEntry.type, encodePayload, length_encodeJob]
      cases event <;>
        simp only [payloadBounds, JobEvent.Leaves, walMaxPayloadSize]
          at hleaves ⊢ <;>
        simp only [hleaves] at hf <;>
        refine ⟨by omega, ?_⟩ <;>
        first
        | omega
        | (have hnil : job.result.length = 0 := by
            rw [List.length_eq_zero_iff]
            grind
           omega)

/-- The entry decodes back from its payload. -/
theorem decodePayload_encodePayload {entry : WalEntry}
    (h : entry.encodable = true) :
    decodePayload entry.type (encodePayload entry) = .ok entry := by
  cases entry with
  | workerIdAllocated id =>
      have hid : id ≠ 0 := by simpa [WalEntry.encodable] using h
      simp [decodePayload, encodePayload, WalEntry.type, hid]
  | job event job =>
      simp [decodePayload, encodePayload, WalEntry.type,
        decodeJob_encodeJob h, Except.map]

/-- What decodes as an entry is exactly that entry's payload. -/
theorem encodePayload_of_decode {type : WalRecordType}
    {payload : List UInt8} {entry : WalEntry}
    (hmin : (payloadBounds type).1 ≤ payload.length)
    (hmax : payload.length ≤ (payloadBounds type).2)
    (h : decodePayload type payload = .ok entry) :
    entry.type = type ∧ entry.encodable = true
      ∧ encodePayload entry = payload := by
  cases type with
  | workerIdAllocated =>
      simp only [decodePayload] at h
      split at h
      · cases h
      rename_i hid
      cases h
      refine ⟨rfl, by simpa [WalEntry.encodable] using hid, ?_⟩
      have hlen : payload.length = 4 := Nat.le_antisymm hmax hmin
      show putU32 (getU32 payload) = payload
      rw [putU32_getU32 (by omega), List.take_of_length_le (by omega)]
  | job event =>
      simp only [decodePayload] at h
      cases hj : decodeJob payload event with
      | error e =>
          rw [hj] at h
          cases h
      | ok job =>
          rw [hj] at h
          cases h
          obtain ⟨hbytes, hvalid⟩ := encodeJob_of_decodeJob hj
          exact ⟨rfl, hvalid, hbytes⟩

@[simp] theorem length_recordBytes (record : WalRecord) :
    (recordBytes record).length
      = walRecordHeaderSize + (encodePayload record.entry).length := by
  rw [recordBytes, List.length_append, length_recordHeader]

/-- An encodable record decodes from its bytes, whatever follows them. -/
theorem walRecordDecode_recordBytes {record : WalRecord}
    (hseq : record.sequence ≠ 0) (h : record.entry.encodable = true)
    (rest : List UInt8) :
    walRecordDecode (recordBytes record ++ rest) record.sequence
      = .ok (record, (recordBytes record).length) := by
  obtain ⟨hmin, hmax⟩ := payloadBounds_encodePayload h
  have hlen := toNat_payload_length hmax
  have hheader := walRecordHeaderDecode_recordHeader hseq hmin hmax
    (encodePayload record.entry ++ rest)
  rw [← List.append_assoc] at hheader
  have hdrop : (recordBytes record ++ rest).drop walRecordHeaderSize
      = encodePayload record.entry ++ rest := by
    rw [recordBytes, List.append_assoc]
    exact List.drop_left' (length_recordHeader _ _ _)
  unfold walRecordDecode
  rw [show walRecordHeaderDecode (recordBytes record ++ rest) _ = _
    from hheader]
  simp only [bind, Except.bind, hlen, hdrop, List.take_left]
  rw [if_neg (by simp only [List.length_append, length_recordBytes]; omega),
    if_neg (by simp), decodePayload_encodePayload h, length_recordBytes]

/-- Whatever decodes is the encoding of what it decodes to. -/
theorem recordBytes_of_decode {wire : List UInt8} {sequence : UInt64}
    {record : WalRecord} {consumed : Nat}
    (h : walRecordDecode wire sequence = .ok (record, consumed)) :
    sequence ≠ 0 ∧ record.sequence = sequence
      ∧ record.entry.encodable = true ∧ consumed ≤ wire.length
      ∧ recordBytes record = wire.take consumed := by
  unfold walRecordDecode at h
  cases hh : walRecordHeaderDecode wire sequence with
  | error e =>
      rw [hh] at h
      cases h
  | ok header =>
      obtain ⟨hseq, hsize, hexp, hmin, hmax, hbytes⟩ :=
        recordHeader_of_decode hh
      rw [hh] at h
      simp only [bind, Except.bind] at h
      split at h
      · cases h
      rename_i htotal
      split at h
      · cases h
      rename_i hcrc
      simp only [bne_iff_ne, not_not] at hcrc
      have hplen : ((wire.drop walRecordHeaderSize).take
          header.payloadLength.toNat).length
            = header.payloadLength.toNat := by
        rw [List.length_take, List.length_drop]
        omega
      cases hp : decodePayload header.type
          ((wire.drop walRecordHeaderSize).take
            header.payloadLength.toNat) with
      | error e =>
          rw [hp] at h
          cases h
      | ok entry =>
          rw [hp] at h
          cases h
          obtain ⟨htype, henc, hpay⟩ := encodePayload_of_decode
            (by omega) (by omega) hp
          refine ⟨hseq, hexp, henc, by omega, ?_⟩
          have hheader := hbytes _ (by rw [hplen]; simp) hcrc
          rw [recordBytes, htype, hpay]
          simp only [hexp]
          rw [hheader, Lib.take_append_take_drop]

/-- The validated encoder in terms of the plain layout. -/
theorem walRecordEncode_ok_iff {record : WalRecord} {capacity : Nat}
    {bytes : List UInt8} :
    walRecordEncode record capacity = .ok bytes
      ↔ record.sequence ≠ 0 ∧ record.entry.encodable = true
        ∧ (recordBytes record).length ≤ capacity
        ∧ bytes = recordBytes record := by
  unfold walRecordEncode
  split
  · rename_i h
    simp only [beq_iff_eq] at h
    simp [h]
  split
  · rename_i h
    simp only [Bool.not_eq_true'] at h
    simp [h]
  split
  · rename_i h
    constructor
    · intro h'
      cases h'
    · rintro ⟨-, -, hle, -⟩
      omega
  · rename_i hseq henc hcap
    simp only [beq_iff_eq] at hseq
    simp only [Bool.not_eq_true', Bool.not_eq_false] at henc
    simp only [Except.ok.injEq, hseq, henc, ne_eq, not_false_eq_true,
      true_and]
    constructor
    · rintro rfl
      exact ⟨by omega, rfl⟩
    · rintro ⟨-, rfl⟩
      rfl

/-- No encodable record outgrows the record buffer. -/
theorem length_recordBytes_le {record : WalRecord}
    (h : record.entry.encodable = true) :
    (recordBytes record).length ≤ walMaxRecordSize := by
  have hmax := (payloadBounds_encodePayload h).2
  have hbound := payloadBounds_le record.entry.type
  rw [length_recordBytes, walMaxRecordSize]
  omega

end Faultline
