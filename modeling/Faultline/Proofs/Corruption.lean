/-
A short change of a complete log is always found.

The checksum of a part of the log is checked before anything else of that
part is used, so a part changed within four bytes is refused with a bad
checksum, at its own start and without touching the file. What has to be
shown is that the checksum changes (`crc32_window`) and that the scan
reaches the part (`scanAll_reaches`).
-/
import Faultline.Lib.Crc
import Faultline.Proofs.AcceptedLogs

namespace Faultline

open Lib WalCtx

-- ================================================= the checksum

/-- The polynomial of CRC-32, reflected. -/
def crcPoly : BitVec 32 := 0xedb88320#32

theorem crcPoly_msb : crcPoly.msb = true := rfl

theorem crcBit_step (crc : UInt32) :
    (crcBit crc).toBitVec = Crc.step crcPoly crc.toBitVec := by
  have hand : (crc &&& 1).toBitVec
      = BitVec.setWidth 32 (BitVec.ofBool (crc.toBitVec.getLsbD 0)) :=
    BitVec.and_one_eq_setWidth_ofBool_getLsbD
  have hodd : (crc &&& 1 != 0) = crc.toBitVec.getLsbD 0 := by
    rw [bne, Bool.eq_iff_iff]
    simp only [Bool.not_eq_true', beq_eq_false_iff_ne, ne_eq,
      ← UInt32.toBitVec_inj, hand]
    cases crc.toBitVec.getLsbD 0 <;> decide
  rw [crcBit, Crc.step, hodd]
  cases crc.toBitVec.getLsbD 0 <;> rfl

theorem crcByte_feed (crc : UInt32) (byte : UInt8) :
    (crcByte crc byte).toBitVec
      = Crc.feed crcPoly crc.toBitVec byte.toBitVec := by
  simp only [crcByte, Nat.repeat, Crc.feed, Crc.shift, crcBit_step]
  rfl

theorem foldl_crcByte (data : List UInt8) (crc : UInt32) :
    (data.foldl crcByte crc).toBitVec
      = (data.map UInt8.toBitVec).foldl (Crc.feed crcPoly) crc.toBitVec := by
  induction data generalizing crc with
  | nil => rfl
  | cons byte data ih =>
      rw [List.foldl_cons, ih, crcByte_feed]
      rfl

/-- Messages that differ within four bytes differ in their checksum. -/
theorem crc32_window {xs ys : List UInt8} (hlen : xs.length = ys.length)
    (hfit : xs.length ≤ 4) (before after : List UInt8)
    (h : crc32 (before ++ (xs ++ after)) = crc32 (before ++ (ys ++ after))) :
    xs = ys := by
  have hfold := congrArg UInt32.toBitVec ((UInt32.xor_left_inj _).mp h)
  simp only [foldl_crcByte, List.map_append] at hfold
  have hbits := Crc.window_detected crcPoly_msb (by simpa using hlen)
    (by rw [List.length_map]; omega) _ _ hfold
  exact (List.map_injective_iff.mpr fun _ _ => UInt8.toBitVec_inj.mp) hbits

-- =================================================== the damage

/-- A part of a log with a checksum of its own, or holding one: where its
header or record starts, and the range of its bytes. -/
inductive Part (entries : List WalEntry) : Nat → Nat → Nat → Prop where
  | fileHeader : Part entries 0 0 20
  | fileChecksum : Part entries 0 20 24
  | recordHeader {before after : List WalEntry} {entry : WalEntry}
      (split : entries = before ++ entry :: after) :
      Part entries (logBytes before).length (logBytes before).length
        ((logBytes before).length + 28)
  | recordChecksum {before after : List WalEntry} {entry : WalEntry}
      (split : entries = before ++ entry :: after) :
      Part entries (logBytes before).length ((logBytes before).length + 28)
        ((logBytes before).length + 32)
  | payload {before after : List WalEntry} {entry : WalEntry}
      (split : entries = before ++ entry :: after) :
      Part entries (logBytes before).length ((logBytes before).length + 32)
        ((logBytes before).length + 32 + (encodePayload entry).length)

/-- `bad` is `file` with at most four consecutive bytes changed, all of
them in the range. -/
def Damage (file bad : List UInt8) (first last : Nat) : Prop :=
  ∃ before old new after, file = before ++ (old ++ after)
    ∧ bad = before ++ (new ++ after)
    ∧ old.length = new.length ∧ old.length ≤ 4 ∧ old ≠ new
    ∧ first ≤ before.length ∧ before.length + old.length ≤ last

variable {file bad before part after : List UInt8} {first last : Nat}

/-- Damage inside one part of a file leaves the rest as it was, and gives
the part another checksum. -/
theorem Damage.within (h : Damage file bad first last)
    (hfile : file = before ++ (part ++ after)) (hfirst : before.length = first)
    (hlast : first + part.length = last) :
    ∃ part', bad = before ++ (part' ++ after)
      ∧ part'.length = part.length ∧ part' ≠ part
      ∧ crc32 part' ≠ crc32 part := by
  obtain ⟨pre, old, new, post, rfl, rfl, hlen, hfit, hne, hle, hend⟩ := h
  subst hfirst
  -- Split the part around the changed bytes.
  obtain ⟨pre', rfl⟩ : before <+: pre :=
    List.prefix_of_prefix_length_le ⟨_, hfile.symm⟩ ⟨_, rfl⟩ hle
  rw [List.append_assoc] at hfile
  have hinner := List.append_cancel_left hfile
  rw [List.length_append] at hend
  obtain ⟨post', rfl⟩ : pre' ++ old <+: part :=
    List.prefix_of_prefix_length_le
      ⟨post, by rw [List.append_assoc, hinner]⟩ ⟨after, rfl⟩
      (by rw [List.length_append]; omega)
  simp only [List.append_assoc] at hinner
  have hpost : post = post' ++ after :=
    List.append_cancel_left (List.append_cancel_left hinner)
  refine ⟨pre' ++ (new ++ post'), ?_, ?_, ?_, ?_⟩
  · simp only [hpost, List.append_assoc]
  · simp [hlen]
  · intro heq
    rw [List.append_assoc] at heq
    exact hne (List.append_cancel_right
      (List.append_cancel_left heq)).symm
  · intro hcrc
    rw [List.append_assoc] at hcrc
    exact hne (crc32_window hlen.symm (by omega) _ _ hcrc).symm

/-- A stored checksum that was changed no longer matches. -/
theorem getU32_ne {stored : List UInt8} {value : UInt32}
    (hlen : stored.length = 4) (hne : stored ≠ putU32 value) :
    getU32 stored ≠ value := by
  intro heq
  refine hne ?_
  rw [← heq, putU32_getU32 (by omega), List.take_of_length_le (by omega)]

-- ==================================================== refusals

/-- A file whose first checksum does not match. -/
theorem judge_badHeader {sum rest : List UInt8} (hpart : part.length = 20)
    (hsum : sum.length = 4) (hne : getU32 sum ≠ crc32 part)
    (hfile : file = part ++ (sum ++ rest)) :
    judge file = replayingInit.formatError .badChecksum := by
  have htake : file.take walFileHeaderSize = part ++ sum := by
    rw [hfile, ← List.append_assoc]
    exact List.take_left' (by rw [List.length_append, hpart, hsum]; rfl)
  refine judge_header ?_
  rw [htake]
  unfold walFileHeaderDecode
  rw [if_neg (by rw [List.length_append, hpart, hsum]; decide), if_pos]
  rw [List.drop_left' hpart, List.take_left' hpart]
  simpa using hne

variable {p : Replaying} {entries : List WalEntry} {entry : WalEntry}
  {l l' : Ledger}

/-- A record whose header checksum does not match. -/
theorem Reading.scan_badHeader (h : Reading p entries l)
    {sum rest : List UInt8} (hpart : part.length = 28)
    (hsum : sum.length = 4) (hne : getU32 sum ≠ crc32 part) :
    p.scan (part ++ (sum ++ rest)) = .inl (p.formatError .badChecksum) := by
  have hlen : (part ++ sum).length = walRecordHeaderSize := by
    rw [List.length_append, hpart, hsum]
    rfl
  have htake : (part ++ (sum ++ rest)).take walRecordHeaderSize
      = part ++ sum := by
    rw [← List.append_assoc]
    exact List.take_left' hlen
  have hseq := sequenceAfter_ne_zero h.length_lt
  have hdec : walRecordHeaderDecode (part ++ sum)
      (sequenceAfter entries.length) = .error .badChecksum := by
    unfold walRecordHeaderDecode
    rw [if_neg (by simpa using hseq), if_neg (by rw [hlen]; omega), if_pos]
    rw [List.drop_left' hpart, List.take_left' hpart]
    simpa using hne
  unfold Replaying.scan
  simp only [htake, hlen, if_neg h.lastSequence_ne, h.lastSequence_add_one,
    hdec]
  rw [if_neg (by decide), if_neg (by omega)]

/-- A record whose payload does not match its header. -/
theorem Reading.scan_badPayload (h : Reading p entries l)
    (henc : entry.encodable = true) {payload rest : List UInt8}
    (hlen : payload.length = (encodePayload entry).length)
    (hne : crc32 payload ≠ crc32 (encodePayload entry)) :
    p.scan (recordHeader entry.type (sequenceAfter entries.length)
        (encodePayload entry) ++ (payload ++ rest))
      = .inl (p.formatError .badChecksum) := by
  have hseq := sequenceAfter_ne_zero h.length_lt
  obtain ⟨hmin, hmax⟩ := payloadBounds_encodePayload henc
  have hsize := toNat_payload_length hmax
  have hheader := length_recordHeader entry.type
    (sequenceAfter entries.length) (encodePayload entry)
  have hhead (more : List UInt8) :=
    @walRecordHeaderDecode_recordHeader entry.type _ _ hseq hmin hmax more
  generalize hbytes : recordHeader entry.type (sequenceAfter entries.length)
    (encodePayload entry) = header at hheader hhead
  have hdec : walRecordDecode (header ++ payload)
      (sequenceAfter entries.length) = .error .badChecksum := by
    unfold walRecordDecode
    simp only [hhead, hsize, Except.bind, bind]
    rw [if_neg (by rw [List.length_append, hheader, hlen]; omega),
      List.drop_left' hheader, List.take_of_length_le (by omega), if_pos]
    simpa using hne
  have hplain := hhead []
  rw [List.append_nil] at hplain
  have htake : (payload ++ rest).take (encodePayload entry).length
      = payload := List.take_left' hlen
  unfold Replaying.scan
  simp only [List.take_left' hheader, List.drop_left' hheader, hheader,
    if_neg h.lastSequence_ne, h.lastSequence_add_one, hplain, hsize, htake,
    hdec]
  rw [if_neg (by decide), if_neg (by omega), if_neg (by omega)]

/-- A file is refused where its records stop being readable. -/
theorem judge_refused (hrun : Ledger.Run .init entries l)
    {rest : List UInt8} (hfile : file = logBytes entries ++ rest)
    (hscan : ∀ p, Reading p entries l →
      p.scan rest = .inl (p.formatError .badChecksum)) :
    ∃ p, judge file = (.badFormat, p)
      ∧ p.report.formatError = some .badChecksum
      ∧ p.report.errorOffset = (logBytes entries).length := by
  have hfile' : file
      = walFileHeaderEncode ++ (recordsFrom 0 entries ++ rest) := by
    rw [hfile, logBytes, List.append_assoc]
  obtain ⟨p, left, hp, heq⟩ := scanAll_reaches reading_init hrun rest
    (show _ < file.length + 1 by
      simp only [hfile', List.length_append, List.length_nil]
      omega)
  rw [judge_records hfile']
  refine ⟨(p.turn.formatError .badChecksum).2, ?_, rfl, ?_⟩
  · have hall : scanAll (file.length + 1) readingInit
        (recordsFrom 0 entries ++ rest) = scanAll (left + 1) p rest := heq
    rw [hall, scanAll, hscan _ hp.turn]
    rfl
  · exact hp.validBytes

variable {start : Nat}

/-- A record in the middle of a log. -/
theorem logBytes_middle (xs ys : List WalEntry) (entry : WalEntry) :
    logBytes (xs ++ entry :: ys)
      = logBytes xs ++ (recordHeaderPrefix entry.type
          (sequenceAfter xs.length) (encodePayload entry)
        ++ (putU32 (crc32 (recordHeaderPrefix entry.type
            (sequenceAfter xs.length) (encodePayload entry)))
        ++ (encodePayload entry ++ recordsFrom (xs.length + 1) ys))) := by
  rw [logBytes_append, recordsFrom, recordBytes, recordHeader]
  simp only [List.append_assoc]

/-- Damage in one part of a complete log is judged a bad checksum there. -/
theorem Part.judged (hpart : Part entries start first last)
    (hrun : Ledger.Run .init entries l)
    (hdamage : Damage (logBytes entries) bad first last) :
    ∃ p, judge bad = (.badFormat, p)
      ∧ p.report.formatError = some .badChecksum
      ∧ p.report.errorOffset = start := by
  have hheader : logBytes entries = walFileHeaderPrefix
      ++ (putU32 (crc32 walFileHeaderPrefix) ++ recordsFrom 0 entries) := by
    rw [logBytes, walFileHeaderEncode, List.append_assoc]
  cases hpart with
  | fileHeader =>
      obtain ⟨part', rfl, hlen, -, hcrc⟩ := hdamage.within
        (show logBytes entries = [] ++ (walFileHeaderPrefix ++ _)
          from hheader) rfl rfl
      rw [List.nil_append, judge_badHeader hlen rfl (by simpa using hcrc.symm)
        rfl]
      exact ⟨_, rfl, rfl, rfl⟩
  | fileChecksum =>
      obtain ⟨sum, rfl, hlen, hne, -⟩ := hdamage.within hheader rfl rfl
      rw [judge_badHeader rfl hlen (getU32_ne hlen hne) rfl]
      exact ⟨_, rfl, rfl, rfl⟩
  | recordHeader split =>
      subst split
      obtain ⟨l₁, hbefore, -⟩ := hrun.split
      obtain ⟨part', rfl, hlen, -, hcrc⟩ := hdamage.within
        (logBytes_middle _ _ _) rfl (by simp)
      exact judge_refused hbefore rfl fun p hp =>
        hp.scan_badHeader (hlen.trans (length_recordHeaderPrefix _ _ _)) rfl
          (by simpa using hcrc.symm)
  | @recordChecksum xs ys entry split =>
      subst split
      obtain ⟨l₁, hbefore, -⟩ := hrun.split
      have hfile := logBytes_middle xs ys entry
      rw [← List.append_assoc] at hfile
      obtain ⟨sum, rfl, hlen, hne, -⟩ := hdamage.within hfile (by simp) rfl
      rw [List.append_assoc]
      exact judge_refused hbefore rfl fun p hp =>
        hp.scan_badHeader (length_recordHeaderPrefix _ _ _) hlen
          (getU32_ne hlen hne)
  | @payload xs ys entry split =>
      subst split
      obtain ⟨l₁, hbefore, -⟩ := hrun.split
      have henc := hrun.encodable Ledger.inv_init entry
        (List.mem_append_right _ List.mem_cons_self)
      have hfile : logBytes (xs ++ entry :: ys)
          = (logBytes xs ++ Faultline.recordHeader entry.type
              (sequenceAfter xs.length) (encodePayload entry))
            ++ (encodePayload entry ++ recordsFrom (xs.length + 1) ys) := by
        rw [logBytes_middle, Faultline.recordHeader]
        simp only [List.append_assoc]
      obtain ⟨payload, rfl, hlen, -, hcrc⟩ := hdamage.within hfile
        (by simp [walRecordHeaderSize]) rfl
      rw [List.append_assoc]
      exact judge_refused hbefore rfl fun p hp =>
        hp.scan_badPayload henc hlen hcrc

/-- A change of at most four bytes inside one part of an accepted log
without a tail is found: the open reports a bad checksum at the start of
the damaged header or record, unless a call fails, and never touches the
file. -/
theorem corruption_detected (c₀ c₀' : WalCtx) (report₀ : WalReplayReport)
    (state₀ : Option WalReplayState)
    (haccepted : walReplayOpen c₀ = .done (.ok, report₀, state₀) c₀')
    (htail : report₀.tailBytes = 0) (start first last : Nat)
    (hpart : Part (logEntries c₀.machine.disk.file) start first last)
    (writer : WalWriter) (machine : Machine) (hclosed : writer.Closed)
    (hpresent : machine.disk.present = true)
    (hdamage : Damage c₀.machine.disk.file machine.disk.file first last) :
    (machine.Ready (2 * machine.disk.file.length + 12) →
      ∃ report c', walReplayOpen ⟨writer, machine⟩
          = .done (.badFormat, report, none) c'
        ∧ report.formatError = some .badChecksum
        ∧ report.errorOffset = start
        ∧ c'.machine.disk = machine.disk)
    ∧ (∀ result report state c',
        walReplayOpen ⟨writer, machine⟩ = .done (result, report, state) c' →
        c'.machine.disk = machine.disk ∧ state = none
        ∧ (result = .badFormat ∧ report.formatError = some .badChecksum
            ∧ report.errorOffset = start
          ∨ result = .ioError ∨ result = .noMemory))
    ∧ ∀ c', walReplayOpen ⟨writer, machine⟩ = .crash c' →
        c'.machine.disk = machine.disk := by
  obtain ⟨entries, tail, l, hholds, rfl, -⟩ := walReplayOpen_ok haccepted
  obtain rfl : tail = [] := List.length_eq_zero_iff.mp htail
  have hfile : c₀.machine.disk.file = logBytes entries := by
    rw [hholds.bytes, List.append_nil]
  rw [hfile, logEntries_logBytes hholds.run] at hpart
  rw [hfile] at hdamage
  obtain ⟨p, hjudge, hformat, hoffset⟩ := hpart.judged hholds.run hdamage
  have hopen (good : Prop)
      (hready : good → machine.Ready (0 + 2 * machine.disk.file.length + 12)) :=
    walReplayOpen_refused (n := 0) hclosed hpresent hjudge (by simp)
      ⟨writer, machine⟩ ⟨rfl, rfl, rfl, hready⟩
  refine ⟨fun hready => ?_, fun result report state c' hrun => ?_,
    fun c' hrun => ?_⟩
  · have hspec := hopen True fun _ => hready.mono (by omega)
    cases hrun : walReplayOpen ⟨writer, machine⟩ with
    | crash c' =>
        rw [hrun] at hspec
        exact absurd trivial hspec.2
    | done r c' =>
        rw [hrun] at hspec
        obtain ⟨hdisk, rfl | ⟨hbad, -⟩⟩ := hspec
        · exact ⟨p.report, c', rfl, hformat, hoffset, hdisk⟩
        · exact absurd trivial hbad
  · have hspec := hopen False False.elim
    rw [hrun] at hspec
    obtain ⟨hdisk, heq | ⟨-, hio, hnone⟩⟩ := hspec
    · cases heq
      exact ⟨hdisk, rfl, Or.inl ⟨rfl, hformat, hoffset⟩⟩
    · exact ⟨hdisk, hnone, Or.inr hio⟩
  · have hspec := hopen False False.elim
    rw [hrun] at hspec
    exact hspec.1

/-- A log of one worker id. -/
def workerLog : List UInt8 := logBytes [.workerIdAllocated 3]

def workerLogCtx : WalCtx :=
  ⟨walWriterInit, ⟨⟨true, workerLog, [], 0⟩, 0,
    List.replicate 20 (.moved 99)⟩⟩

/-- The same log with one byte of the id changed. -/
def damagedLog : Machine :=
  ⟨⟨true, workerLog.take 58 ++ ([9] ++ workerLog.drop 59), [], 0⟩, 0,
    List.replicate (2 * workerLog.length + 12) (.moved 99)⟩

theorem corruption_detected_workerLog :
    ∃ report c', walReplayOpen ⟨walWriterInit, damagedLog⟩
        = .done (.badFormat, report, none) c'
      ∧ report.formatError = some .badChecksum
      ∧ report.errorOffset = 24
      ∧ c'.machine.disk = damagedLog.disk := by
  have hentries : logEntries workerLogCtx.machine.disk.file
      = [.workerIdAllocated 3] := by
    decide +kernel
  have hreturned : (walReplayOpen workerLogCtx).returned
      = some (.ok, reportOf [.workerIdAllocated 3] [],
          some (recovered [.workerIdAllocated 3])) := by
    decide +kernel
  have hpart : Part (logEntries workerLogCtx.machine.disk.file) 24 56 60 := by
    rw [hentries]
    exact .payload (show [.workerIdAllocated 3] = [] ++ _ :: _ from rfl)
  have hdamage : Damage workerLogCtx.machine.disk.file damagedLog.disk.file
      56 60 :=
    ⟨workerLog.take 58, (workerLog.drop 58).take 1, [9], workerLog.drop 59,
      by decide +kernel⟩
  obtain ⟨c', hrun⟩ := Outcome.returned_some hreturned
  exact (corruption_detected workerLogCtx c' _ _ hrun rfl 24 56 60 hpart
    walWriterInit damagedLog walWriterInit_closed rfl hdamage).1
    ((Machine.ready_replicate _ _ _ _).mono (by decide +kernel))

end Faultline
