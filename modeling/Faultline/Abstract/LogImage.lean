/-
The bytes of a history.

`logBytes entries` is the file a history is written as: the header and one
canonical record per entry, numbered from one. `Torn n tail` is what may
stand behind `n` complete records without being damage: less than a record
header, or a header that announces more bytes than are left. A file holds
a history (`Holds`) when it is the history's bytes and a torn tail.

A cut anywhere inside a record leaves a torn tail (`torn_of_prefix`), and
decoding a history's bytes gives it back (`logEntries_logBytes`).
-/
import Faultline.Abstract.Ledger

namespace Faultline

open Lib

/-- The sequence number of the record behind `n` others. -/
def sequenceAfter (n : Nat) : UInt64 := UInt64.ofNat (n + 1)

/-- The records of a history, the first with number `n + 1`. -/
def recordsFrom (n : Nat) : List WalEntry → List UInt8
  | [] => []
  | entry :: entries =>
      recordBytes ⟨sequenceAfter n, entry⟩ ++ recordsFrom (n + 1) entries

def logBytes (entries : List WalEntry) : List UInt8 :=
  walFileHeaderEncode ++ recordsFrom 0 entries

/-- An incomplete record behind `n` complete ones. -/
def Torn (n : Nat) (tail : List UInt8) : Prop :=
  tail.length < walRecordHeaderSize
    ∨ ∃ header, walRecordHeaderDecode (tail.take walRecordHeaderSize)
          (sequenceAfter n) = .ok header
        ∧ tail.length < walRecordHeaderSize + header.payloadLength.toNat

/-- The file is a legal history and an incomplete tail. -/
structure Holds (file : List UInt8) (entries : List WalEntry)
    (tail : List UInt8) (l : Ledger) : Prop where
  bytes : file = logBytes entries ++ tail
  run : Ledger.Run .init entries l
  torn : Torn entries.length tail

/-- The records of a history as the record encoder writes them. -/
inductive Encodes : Nat → List WalEntry → List UInt8 → Prop where
  | nil {n} : Encodes n [] []
  | cons {n entry entries bytes rest}
      (first : walRecordEncode ⟨sequenceAfter n, entry⟩ walMaxRecordSize
        = .ok bytes)
      (more : Encodes (n + 1) entries rest) :
      Encodes n (entry :: entries) (bytes ++ rest)

/-- The records at the front of a buffer, as the record decoder reads
them; the first argument bounds their number. -/
def decodeRecords : Nat → Nat → List UInt8 → List WalEntry
  | 0, _, _ => []
  | bound + 1, n, bytes =>
      match walRecordDecode bytes (sequenceAfter n) with
      | .error _ => []
      | .ok (record, size) =>
          record.entry :: decodeRecords bound (n + 1) (bytes.drop size)

/-- The records of a log file. -/
def logEntries (file : List UInt8) : List WalEntry :=
  decodeRecords file.length 0 (file.drop walFileHeaderSize)

variable {entries entries' : List WalEntry} {entry : WalEntry} {l : Ledger}

theorem torn_nil (n : Nat) : Torn n [] := Or.inl (by decide)

theorem recordsFrom_append (n : Nat) (xs ys : List WalEntry) :
    recordsFrom n (xs ++ ys)
      = recordsFrom n xs ++ recordsFrom (n + xs.length) ys := by
  induction xs generalizing n with
  | nil => rfl
  | cons x xs ih =>
      rw [List.cons_append, recordsFrom, recordsFrom, ih, List.append_assoc,
        List.length_cons, Nat.add_right_comm, Nat.add_assoc n]

theorem logBytes_append (xs ys : List WalEntry) :
    logBytes (xs ++ ys) = logBytes xs ++ recordsFrom xs.length ys := by
  rw [logBytes, recordsFrom_append, Nat.zero_add, logBytes, List.append_assoc]

theorem logBytes_snoc (entries : List WalEntry) (entry : WalEntry) :
    logBytes (entries ++ [entry])
      = logBytes entries ++ recordBytes ⟨sequenceAfter entries.length, entry⟩ := by
  rw [logBytes_append, recordsFrom, recordsFrom, List.append_nil]

-- ================================================== the numbers

theorem toNat_sequenceAfter {n : Nat} (h : n < 2 ^ 43) :
    (sequenceAfter n).toNat = n + 1 := by
  unfold sequenceAfter
  rw [UInt64.toNat_ofNat']
  exact Nat.mod_eq_of_lt (by omega)

theorem sequenceAfter_ne_zero {n : Nat} (h : n < 2 ^ 43) :
    sequenceAfter n ≠ 0 := by
  intro h0
  have := toNat_sequenceAfter h
  rw [h0] at this
  simp at this

/-- No history is larger than a file may be. -/
theorem length_recordsFrom_le (n : Nat)
    (h : ∀ e ∈ entries, e.encodable = true) :
    (recordsFrom n entries).length ≤ entries.length * walMaxRecordSize := by
  induction entries generalizing n with
  | nil => simp [recordsFrom]
  | cons e es ih =>
      have hfirst : (recordBytes ⟨sequenceAfter n, e⟩).length
          ≤ walMaxRecordSize := length_recordBytes_le (h e (by simp))
      have hrest := ih (n + 1) fun x hx => h x (List.mem_cons_of_mem _ hx)
      rw [recordsFrom, List.length_append, List.length_cons, Nat.add_mul]
      omega

-- =============================================== both directions

/-- The plain layout is what the encoder writes. -/
theorem encodes_iff {n : Nat} {bytes : List UInt8}
    (henc : ∀ e ∈ entries, e.encodable = true)
    (hn : n + entries.length < 2 ^ 43) :
    Encodes n entries bytes ↔ bytes = recordsFrom n entries := by
  induction entries generalizing n bytes with
  | nil =>
      constructor
      · intro h
        cases h
        rfl
      · rintro rfl
        exact .nil
  | cons e es ih =>
      rw [List.length_cons] at hn
      have ih' {rest : List UInt8} :
          Encodes (n + 1) es rest ↔ rest = recordsFrom (n + 1) es :=
        ih (fun x hx => henc x (List.mem_cons_of_mem _ hx)) (by omega)
      constructor
      · intro h
        cases h with
        | cons first more =>
            obtain ⟨-, -, -, rfl⟩ := walRecordEncode_ok_iff.mp first
            rw [ih'.mp more]
            rfl
      · rintro rfl
        have hfirst := henc e (by simp)
        exact .cons (walRecordEncode_ok_iff.mpr
          ⟨sequenceAfter_ne_zero (by omega), hfirst,
            length_recordBytes_le hfirst, rfl⟩) (ih'.mpr rfl)

/-- Decoding a history's records gives them back. -/
theorem decodeRecords_recordsFrom {n bound : Nat}
    (henc : ∀ e ∈ entries, e.encodable = true)
    (hn : n + entries.length < 2 ^ 43) (hbound : entries.length ≤ bound) :
    decodeRecords bound n (recordsFrom n entries) = entries := by
  induction entries generalizing n bound with
  | nil =>
      cases bound with
      | zero => rfl
      | succ bound =>
          have hempty : ∀ e, walRecordDecode [] (sequenceAfter n)
              = .ok e → False := by
            intro e h
            obtain ⟨record, consumed⟩ := e
            obtain ⟨-, -, -, hle, hbytes⟩ := recordBytes_of_decode h
            have hlen := congrArg List.length hbytes
            rw [length_recordBytes, List.take_nil] at hlen
            simp [walRecordHeaderSize] at hlen
          simp only [recordsFrom, decodeRecords]
          split
          · rfl
          · rename_i h
            exact (hempty _ h).elim
  | cons e es ih =>
      rw [List.length_cons] at hn hbound
      obtain ⟨bound, rfl⟩ : ∃ k, bound = k + 1 := ⟨bound - 1, by omega⟩
      have hdec : walRecordDecode
          (recordBytes ⟨sequenceAfter n, e⟩ ++ recordsFrom (n + 1) es)
          (sequenceAfter n)
            = .ok (⟨sequenceAfter n, e⟩,
                (recordBytes ⟨sequenceAfter n, e⟩).length) :=
        walRecordDecode_recordBytes (sequenceAfter_ne_zero (by omega))
          (henc e (by simp)) _
      simp only [recordsFrom, decodeRecords, hdec]
      rw [List.drop_left' rfl, ih (fun x hx => henc x (by simp [hx]))
        (by omega) (by omega)]

/-- The records of a legal history's file are the history. -/
theorem logEntries_logBytes (h : Ledger.Run .init entries l) :
    logEntries (logBytes entries) = entries := by
  have henc := h.encodable Ledger.inv_init
  have hlt := Ledger.run_length_lt h
  have hle (n : Nat) (es : List WalEntry) :
      es.length ≤ (recordsFrom n es).length := by
    induction es generalizing n with
    | nil => exact Nat.zero_le _
    | cons e es ih =>
        have := ih (n + 1)
        rw [recordsFrom, List.length_append, length_recordBytes,
          List.length_cons]
        unfold walRecordHeaderSize
        omega
  have hdrop : (logBytes entries).drop walFileHeaderSize
      = recordsFrom 0 entries := List.drop_left' length_walFileHeaderEncode
  rw [logEntries, hdrop]
  refine decodeRecords_recordsFrom henc (by omega) ?_
  have := hle 0 entries
  rw [logBytes, List.length_append]
  omega

-- ================================================ cut anywhere

/-- What a record's header announces, read off any cut behind it. -/
theorem headerDecode_of_prefix {n : Nat} (hn : n < 2 ^ 43)
    (henc : entry.encodable = true) {part : List UInt8}
    (hpart : part <+: recordBytes ⟨sequenceAfter n, entry⟩)
    (hlen : walRecordHeaderSize ≤ part.length) :
    ∃ header, walRecordHeaderDecode (part.take walRecordHeaderSize)
        (sequenceAfter n) = .ok header
      ∧ walRecordHeaderSize + header.payloadLength.toNat
        = (recordBytes ⟨sequenceAfter n, entry⟩).length := by
  obtain ⟨hmin, hmax⟩ := payloadBounds_encodePayload henc
  obtain ⟨rest, hrest⟩ := hpart
  have htake : part.take walRecordHeaderSize
      = recordHeader entry.type (sequenceAfter n) (encodePayload entry) := by
    have hfull : (recordBytes ⟨sequenceAfter n, entry⟩).take
        walRecordHeaderSize
          = recordHeader entry.type (sequenceAfter n) (encodePayload entry) :=
      List.take_left' (length_recordHeader _ _ _)
    rw [← hfull, ← hrest, List.take_append_of_le_length hlen]
  have hdec := walRecordHeaderDecode_recordHeader
    (sequenceAfter_ne_zero hn) hmin hmax []
  rw [List.append_nil, ← htake] at hdec
  refine ⟨_, hdec, ?_⟩
  rw [length_recordBytes, toNat_payload_length hmax]

/-- A cut inside a record is a torn tail. -/
theorem torn_of_prefix {n : Nat} (hn : n < 2 ^ 43)
    (henc : entry.encodable = true) {part : List UInt8}
    (hpart : part <+: recordBytes ⟨sequenceAfter n, entry⟩)
    (hne : part ≠ recordBytes ⟨sequenceAfter n, entry⟩) : Torn n part := by
  have hlt : part.length < (recordBytes ⟨sequenceAfter n, entry⟩).length := by
    rcases Nat.lt_or_ge part.length
      (recordBytes ⟨sequenceAfter n, entry⟩).length with hlt | hge
    · exact hlt
    · exact absurd (hpart.eq_of_length_le hge) hne
  by_cases hlen : walRecordHeaderSize ≤ part.length
  · obtain ⟨header, hdec, hsize⟩ := headerDecode_of_prefix hn henc hpart hlen
    exact Or.inr ⟨header, hdec, by omega⟩
  · exact Or.inl (by omega)

end Faultline
