/-
What a scan of bytes accepts.

`Reading p entries l` is the state of the loop after `entries`. One turn
either meets a torn tail, or one more legal record, or ends with an error
(`scan_cases`); by induction a whole scan succeeds exactly on a legal
continuation with a torn tail, and the recovered state and the report are
functions of the history (`recovered`, `reportOf`).
-/
import Faultline.Proofs.ReplayLoop

namespace Faultline

open Lib

-- ==================================== functions of the history

/-- The state replay recovers from a history. -/
def recovered (entries : List WalEntry) : WalReplayState :=
  { entries.foldl WalReplayState.record walReplayStateInit with
    lastSequence := UInt64.ofNat entries.length }

/-- The report of a successful replay. -/
def reportOf (entries : List WalEntry) (tail : List UInt8) :
    WalReplayReport :=
  { validBytes := (logBytes entries).length
    tailBytes := tail.length
    errorOffset := (logBytes entries).length
    lastSequence := UInt64.ofNat entries.length
    formatError := none
    historyError := none }

theorem recovered_snoc (entries : List WalEntry) (entry : WalEntry) :
    recovered (entries ++ [entry])
      = { (recovered entries).record entry with
          lastSequence := sequenceAfter entries.length } := by
  have hcomm (state : WalReplayState) (k n : UInt64) :
      { ({ state with lastSequence := k } : WalReplayState).record entry with
        lastSequence := n }
      = { state.record entry with lastSequence := n } := by
    cases entry <;> rfl
  rw [recovered, recovered, hcomm, List.foldl_append, List.length_append]
  rfl

/-- The loop after the records of `entries`. -/
structure Reading (p : Replaying) (entries : List WalEntry) (l : Ledger) :
    Prop where
  run : Ledger.Run .init entries l
  tracks : Tracks p.state p.index l
  state : p.state = recovered entries
  report : p.turn.report = reportOf entries []

variable {p q : Replaying} {entries : List WalEntry} {entry : WalEntry}
  {l l' : Ledger} {rest tail : List UInt8}

namespace Reading

theorem length_lt (h : Reading p entries l) : entries.length < 2 ^ 43 :=
  Ledger.run_length_lt h.run

theorem turn (h : Reading p entries l) : Reading p.turn entries l :=
  ⟨h.run, h.tracks, h.state, h.report⟩

theorem validBytes (h : Reading p entries l) :
    p.report.validBytes = (logBytes entries).length :=
  congrArg WalReplayReport.validBytes h.report

theorem lastSequence_add_one (h : Reading p entries l) :
    p.state.lastSequence + 1 = sequenceAfter entries.length := by
  rw [h.state, sequenceAfter, UInt64.ofNat_add]
  rfl

/-- The sequence number is nowhere near its end. -/
theorem lastSequence_ne (h : Reading p entries l) :
    ¬ (p.state.lastSequence == 0xffffffffffffffff) = true := by
  have hlt := h.length_lt
  have hnat : p.state.lastSequence.toNat = entries.length := by
    rw [h.state]
    show (UInt64.ofNat entries.length).toNat = _
    rw [UInt64.toNat_ofNat']
    exact Nat.mod_eq_of_lt (by omega)
  rw [beq_iff_eq]
  intro heq
  rw [heq] at hnat
  have hmax : (0xffffffffffffffff : UInt64).toNat = 2 ^ 64 - 1 := rfl
  omega

/-- Nor is the file offset. -/
theorem validBytes_le (h : Reading p entries l) :
    p.report.validBytes ≤ 2 ^ 55 := by
  have hlt := h.length_lt
  have hlen := length_recordsFrom_le 0
    (h.run.encodable Ledger.inv_init)
  rw [h.validBytes, logBytes, List.length_append, length_walFileHeaderEncode]
  have hbound : entries.length * walMaxRecordSize ≤ 2 ^ 43 * 2164 :=
    Nat.mul_le_mul (by omega) (by decide)
  unfold walFileHeaderSize
  omega

theorem step_encodable (h : Reading p entries l) (hstep : l.Step entry l') :
    entry.encodable = true :=
  hstep.encodable (h.run.inv Ledger.inv_init)

/-- After one more record. -/
theorem advance (h : Reading p entries l) (hstep : l.Step entry l') :
    Reading (p.advance (p.state.record entry) (indexAfter p.index entry)
      (sequenceAfter entries.length)
      (recordBytes ⟨sequenceAfter entries.length, entry⟩).length)
      (entries ++ [entry]) l' where
  run := h.run.snoc hstep
  tracks := by
    have ht := h.tracks.record hstep
    exact ⟨ht.rep, ht.board, ht.inv, ht.index, ht.highestWorker,
      ht.highestJob, ht.workers, ht.clock⟩
  state := by
    rw [recovered_snoc, ← h.state]
    rfl
  report := by
    have hv := h.validBytes
    have ht : p.report.tailBytes = 0 :=
      congrArg WalReplayReport.tailBytes h.report
    have hf : p.report.formatError = none :=
      congrArg WalReplayReport.formatError h.report
    have hh : p.report.historyError = none :=
      congrArg WalReplayReport.historyError h.report
    simp only [Replaying.turn, Replaying.advance, reportOf, hv, ht, hf, hh,
      logBytes_snoc, List.length_append, List.length_nil,
      List.length_singleton]
    rfl

-- ===================================================== one turn

/-- A torn tail ends the scan. -/
theorem scan_torn (h : Reading p entries l) (ht : Torn entries.length rest) :
    p.scan rest = .inl (p.tail rest.length) := by
  have hmin := List.length_take_le walRecordHeaderSize rest
  unfold Replaying.scan
  by_cases h0 : rest = []
  · have htail : p.report.tailBytes = 0 :=
      congrArg WalReplayReport.tailBytes h.report
    subst h0
    simp [Replaying.tail, ← htail]
  have hpos : rest.length ≠ 0 := fun hz => h0 (List.length_eq_zero_iff.mp hz)
  have hne : ¬ ((rest.take walRecordHeaderSize).length == 0) = true := by
    simp [h0, walRecordHeaderSize]
  simp only [if_neg hne, if_neg h.lastSequence_ne]
  rcases ht with hshort | ⟨header, hdec, hlt⟩
  · rw [if_pos (by rw [List.length_take]; omega), List.length_take,
      Nat.min_eq_right (by omega)]
  · have hsize := (recordHeader_of_decode hdec).2.1
    rw [List.length_take] at hsize
    rw [if_neg (by rw [List.length_take]; omega), h.lastSequence_add_one]
    simp only [hdec]
    rw [if_pos (by rw [List.length_take, List.length_drop]; omega),
      List.length_take, List.length_drop, Nat.min_eq_right (by omega)]
    congr 2
    omega

/-- One more legal record is accepted. -/
theorem scan_next (h : Reading p entries l) (hstep : l.Step entry l')
    (more : List UInt8) :
    p.scan (recordBytes ⟨sequenceAfter entries.length, entry⟩ ++ more)
      = .inr (p.advance (p.state.record entry) (indexAfter p.index entry)
          (sequenceAfter entries.length)
          (recordBytes ⟨sequenceAfter entries.length, entry⟩).length) := by
  have henc := h.step_encodable hstep
  have hseq := sequenceAfter_ne_zero h.length_lt
  have hvalid := h.validBytes_le
  obtain ⟨hmin, hmax⟩ := payloadBounds_encodePayload henc
  have hlen := toNat_payload_length hmax
  have hpaylen := payloadBounds_le entry.type
  have htake : (recordBytes ⟨sequenceAfter entries.length, entry⟩
      ++ more).take walRecordHeaderSize
        = recordHeader entry.type (sequenceAfter entries.length)
            (encodePayload entry) := by
    rw [recordBytes, List.append_assoc]
    exact List.take_left' (length_recordHeader _ _ _)
  have hdrop : (recordBytes ⟨sequenceAfter entries.length, entry⟩
      ++ more).drop walRecordHeaderSize = encodePayload entry ++ more := by
    rw [recordBytes, List.append_assoc]
    exact List.drop_left' (length_recordHeader _ _ _)
  have hhead := walRecordHeaderDecode_recordHeader hseq hmin hmax []
  rw [List.append_nil] at hhead
  have hwhole : recordHeader entry.type (sequenceAfter entries.length)
      (encodePayload entry) ++ encodePayload entry
        = recordBytes ⟨sequenceAfter entries.length, entry⟩ := rfl
  have hdec : walRecordDecode
      (recordBytes ⟨sequenceAfter entries.length, entry⟩ ++ [])
      (sequenceAfter entries.length)
        = .ok (⟨sequenceAfter entries.length, entry⟩,
            (recordBytes ⟨sequenceAfter entries.length, entry⟩).length) :=
    walRecordDecode_recordBytes hseq henc []
  rw [List.append_nil] at hdec
  have happly : applyRecord p.state p.index
      ⟨sequenceAfter entries.length, entry⟩
      (recordBytes ⟨sequenceAfter entries.length, entry⟩)
        = .ok (p.state.record entry, indexAfter p.index entry) :=
    (applyRecord_ok_iff h.tracks hseq henc).mpr ⟨⟨l', hstep⟩, rfl, rfl⟩
  unfold Replaying.scan
  simp only [htake, hdrop, if_neg h.lastSequence_ne, length_recordHeader,
    h.lastSequence_add_one, hhead, hlen, List.take_left, hwhole, hdec,
    happly]
  rw [if_neg (by decide), if_neg (by omega), if_neg (by omega), if_neg ?_,
    length_recordBytes]
  unfold walMaxPayloadSize walJobPrefixSize jobMaxArgumentSize
    jobMaxResultSize at hpaylen
  unfold walRecordHeaderSize
  omega

/-- What decodes from a complete record's bytes is all of them. -/
theorem recordBytes_of_parts {n : Nat} (hn : n < 2 ^ 43)
    {head payload : List UInt8} {header : WalRecordHeader}
    {record : WalRecord} {consumed : Nat}
    (hlen : head.length = walRecordHeaderSize)
    (hhead : walRecordHeaderDecode head (sequenceAfter n) = .ok header)
    (hpay : payload.length = header.payloadLength.toNat)
    (hdec : walRecordDecode (head ++ payload) (sequenceAfter n)
      = .ok (record, consumed)) :
    record.entry.encodable = true
      ∧ record = ⟨sequenceAfter n, record.entry⟩
      ∧ recordBytes record = head ++ payload := by
  obtain ⟨-, hseq, henc, hle, hbytes⟩ := recordBytes_of_decode hdec
  obtain ⟨sequence, entry⟩ := record
  simp only at hseq henc
  subst hseq
  refine ⟨henc, rfl, ?_⟩
  have hsize : (recordBytes ⟨sequenceAfter n, entry⟩).length
      = walRecordHeaderSize + (encodePayload entry).length :=
    length_recordBytes _
  have hcut := congrArg List.length hbytes
  rw [List.length_take, hsize] at hcut
  -- The announced length is that of the record found.
  have htake : (recordBytes ⟨sequenceAfter n, entry⟩).take
      walRecordHeaderSize = head := by
    rw [hbytes, List.take_take, Nat.min_eq_left (by omega),
      List.take_left' hlen]
  obtain ⟨header', hdec', hsize'⟩ := headerDecode_of_prefix hn henc
    (List.prefix_refl _) (by rw [hsize]; omega)
  rw [htake, hhead] at hdec'
  cases hdec'
  rw [hbytes]
  refine List.take_of_length_le ?_
  rw [List.length_append]
  omega

/-- Anything else is an error, and never an I/O error. -/
theorem scan_cases (h : Reading p entries l) (rest : List UInt8) :
    Torn entries.length rest
    ∨ (∃ entry l' more, l.Step entry l'
        ∧ rest = recordBytes ⟨sequenceAfter entries.length, entry⟩ ++ more)
    ∨ ∃ result p', p.scan rest = .inl (result, p') ∧ result ≠ .ok
        ∧ result ≠ .ioError := by
  have hmin := List.length_take_le walRecordHeaderSize rest
  by_cases hshort : rest.length < walRecordHeaderSize
  · exact Or.inl (Or.inl hshort)
  have hlen : (rest.take walRecordHeaderSize).length
      = walRecordHeaderSize := by
    rw [List.length_take]
    omega
  have hscan := Replaying.scan.eq_1 p rest
  simp only [hlen, if_neg h.lastSequence_ne, h.lastSequence_add_one] at hscan
  rw [if_neg (by decide), if_neg (by omega)] at hscan
  cases hhead : walRecordHeaderDecode (rest.take walRecordHeaderSize)
      (sequenceAfter entries.length) with
  | error e =>
      simp only [hhead] at hscan
      exact Or.inr (Or.inr ⟨_, _, hscan, by simp, by simp⟩)
  | ok header =>
      simp only [hhead] at hscan
      generalize hpay : (rest.drop walRecordHeaderSize).take
        header.payloadLength.toNat = payload at hscan
      by_cases htorn : payload.length < header.payloadLength.toNat
      · refine Or.inl (Or.inr ⟨header, hhead, ?_⟩)
        rw [← hpay, List.length_take, List.length_drop] at htorn
        omega
      rw [if_neg htorn] at hscan
      cases hdec : walRecordDecode (rest.take walRecordHeaderSize ++ payload)
          (sequenceAfter entries.length) with
      | error e =>
          simp only [hdec] at hscan
          exact Or.inr (Or.inr ⟨_, _, hscan, by simp, by simp⟩)
      | ok decoded =>
          obtain ⟨record, consumed⟩ := decoded
          simp only [hdec] at hscan
          have hpaylen : payload.length = header.payloadLength.toNat := by
            have : payload.length ≤ header.payloadLength.toNat := by
              rw [← hpay]
              exact List.length_take_le _ _
            omega
          obtain ⟨henc, hrecord, hbytes⟩ :=
            recordBytes_of_parts h.length_lt hlen hhead hpaylen hdec
          have hbound := (recordHeader_of_decode hhead).2.2.2.2.1
          have hbound' := payloadBounds_le header.type
          have hvalid := h.validBytes_le
          rw [if_neg (by
            unfold walMaxPayloadSize walJobPrefixSize jobMaxArgumentSize
              jobMaxResultSize at hbound'
            unfold walRecordHeaderSize
            omega), ← hbytes] at hscan
          cases happly : applyRecord p.state p.index record
              (recordBytes record) with
          | error e =>
              simp only [happly] at hscan
              refine Or.inr (Or.inr ?_)
              cases e with
              | history e => exact ⟨_, _, hscan, by simp, by simp⟩
              | capacity => exact ⟨_, _, hscan, by simp, by simp⟩
          | ok next =>
              have hne : record.sequence ≠ 0 := by
                rw [hrecord]
                exact sequenceAfter_ne_zero h.length_lt
              obtain ⟨⟨l', hstep⟩, -⟩ :=
                (applyRecord_ok_iff h.tracks hne henc).mp happly
              refine Or.inr (Or.inl ⟨record.entry, l',
                (rest.drop walRecordHeaderSize).drop
                  header.payloadLength.toNat, hstep, ?_⟩)
              rw [← hrecord, hbytes, ← hpay, List.append_assoc,
                List.take_append_drop, List.take_append_drop]

end Reading

-- ================================================== whole scans

/-- One turn of the whole scan over a legal record. -/
theorem scanAll_next (h : Reading q entries l) (hstep : l.Step entry l')
    (fuel : Nat) (more : List UInt8) :
    ∃ p, Reading p (entries ++ [entry]) l'
      ∧ scanAll (fuel + 1) q
          (recordBytes ⟨sequenceAfter entries.length, entry⟩ ++ more)
        = scanAll fuel p more := by
  refine ⟨_, h.turn.advance hstep, ?_⟩
  rw [scanAll, h.turn.scan_next hstep more]
  simp only
  congr 1
  have hsize : ((q.turn.advance (q.turn.state.record entry)
      (indexAfter q.turn.index entry) (sequenceAfter entries.length)
      (recordBytes ⟨sequenceAfter entries.length, entry⟩).length).report
        ).validBytes - q.report.validBytes
      = (recordBytes ⟨sequenceAfter entries.length, entry⟩).length :=
    Nat.add_sub_cancel_left _ _
  rw [hsize]
  exact List.drop_left' rfl

/-- A torn tail ends the whole scan with the history's state. -/
theorem scanAll_torn (h : Reading q entries l)
    (ht : Torn entries.length tail) (fuel : Nat) :
    ∃ p, scanAll (fuel + 1) q tail = (.ok, p)
      ∧ p.state = recovered entries ∧ p.report = reportOf entries tail := by
  refine ⟨(q.turn.tail tail.length).2, ?_, h.state, ?_⟩
  · rw [scanAll, h.turn.scan_torn ht]
    rfl
  · simp only [Replaying.tail, h.report]
    rfl

/-- The whole scan reads a legal continuation, whatever is behind it. -/
theorem scanAll_reaches {entries' : List WalEntry} {fuel : Nat}
    (h : Reading q entries l) (hrun : Ledger.Run l entries' l')
    (rest : List UInt8)
    (hfuel : (recordsFrom entries.length entries' ++ rest).length < fuel) :
    ∃ p left, Reading p (entries ++ entries') l'
      ∧ scanAll fuel q (recordsFrom entries.length entries' ++ rest)
        = scanAll (left + 1) p rest := by
  induction hrun generalizing q entries fuel with
  | nil =>
      rw [List.append_nil]
      obtain ⟨left, rfl⟩ := Nat.exists_eq_succ_of_ne_zero
        (Nat.ne_of_gt (Nat.lt_of_le_of_lt (Nat.zero_le _) hfuel))
      exact ⟨q, left, h, rfl⟩
  | @cons l₀ l₁ l₂ e es first _ ih =>
      rw [recordsFrom, List.append_assoc] at hfuel ⊢
      rw [List.length_append, length_recordBytes] at hfuel
      obtain ⟨fuel, rfl⟩ := Nat.exists_eq_succ_of_ne_zero
        (Nat.ne_of_gt (Nat.lt_of_le_of_lt (Nat.zero_le _) hfuel))
      obtain ⟨p, hp, heq⟩ := scanAll_next h first fuel
        (recordsFrom (entries.length + 1) es ++ rest)
      have hlen : (entries ++ [e]).length = entries.length + 1 := by simp
      rw [heq, ← hlen, List.append_cons entries e es]
      refine ih hp ?_
      rw [hlen]
      unfold walRecordHeaderSize at hfuel
      omega

/-- A legal continuation and a torn tail are accepted. -/
theorem scanAll_complete {entries' : List WalEntry} {fuel : Nat}
    (h : Reading q entries l) (hrun : Ledger.Run l entries' l')
    (ht : Torn (entries ++ entries').length tail)
    (hfuel : (recordsFrom entries.length entries' ++ tail).length < fuel) :
    ∃ p, scanAll fuel q (recordsFrom entries.length entries' ++ tail)
        = (.ok, p)
      ∧ p.state = recovered (entries ++ entries')
      ∧ p.report = reportOf (entries ++ entries') tail := by
  obtain ⟨p, left, hp, heq⟩ := scanAll_reaches h hrun tail hfuel
  rw [heq]
  exact scanAll_torn hp ht left

/-- Only a legal continuation and a torn tail are accepted, and no scan
ends in an I/O error. -/
theorem scanAll_sound {fuel : Nat} (h : Reading q entries l)
    (hfuel : rest.length < fuel) :
    (scanAll fuel q rest).1 ≠ .ioError
      ∧ ((scanAll fuel q rest).1 = .ok →
        ∃ entries' tail l', Ledger.Run l entries' l'
          ∧ rest = recordsFrom entries.length entries' ++ tail
          ∧ Torn (entries ++ entries').length tail) := by
  induction fuel generalizing q entries l rest with
  | zero => exact absurd hfuel (Nat.not_lt_zero _)
  | succ fuel ih =>
      rcases h.turn.scan_cases rest with ht | ⟨e, l₁, more, hstep, rfl⟩
        | ⟨result, p', hscan, hne, hio⟩
      · obtain ⟨p, heq, -⟩ := scanAll_torn h ht fuel
        rw [heq]
        refine ⟨by simp, fun _ => ⟨[], rest, l, .nil, rfl, ?_⟩⟩
        rwa [List.append_nil]
      · obtain ⟨p, hp, heq⟩ := scanAll_next h hstep fuel more
        rw [List.length_append, length_recordBytes] at hfuel
        have hmore : more.length < fuel := by
          unfold walRecordHeaderSize at hfuel
          omega
        obtain ⟨hio, hsound⟩ := ih hp hmore
        rw [heq]
        refine ⟨hio, fun hok => ?_⟩
        obtain ⟨es, tail, l', hrun, rfl, ht⟩ := hsound hok
        refine ⟨e :: es, tail, l', .cons hstep hrun, ?_, ?_⟩
        · rw [recordsFrom, List.append_assoc, List.length_append]
          rfl
        · rwa [List.append_cons entries e es]
      · rw [scanAll, hscan]
        exact ⟨hio, fun hok => absurd hok hne⟩

end Faultline
