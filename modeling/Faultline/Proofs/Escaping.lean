/-
Escaping loses nothing.

`escaped` is the text that stands for some bytes, a group for each:
the byte itself, or a backslash, an x and two digits. The log's two loops
size and write it, the command line prints it, and `unescape` reads it back.
Facts about one byte are checked on all of them (`forall_byte`).
-/
import Mathlib.Data.Nat.Digits.Lemmas
import Faultline.Cli.Printing
import Faultline.Log

namespace Faultline

open Lib

variable {byte c : UInt8} {bytes text output : List UInt8}
  {capacity position : Nat}

/-- The text of one byte. -/
def escapedByte (byte : UInt8) : List UInt8 :=
  if logPrintable byte then [byte]
  else [0x5c, 0x78, logHexDigit (byte >>> 4), logHexDigit (byte &&& 15)]

/-- The text of some bytes. -/
def escaped (bytes : List UInt8) : List UInt8 := bytes.flatMap escapedByte

/-- A lower-case hexadecimal digit. -/
def IsHexDigit (c : UInt8) : Prop := c ∈ logHex

instance : Decidable (IsHexDigit c) := inferInstanceAs (Decidable (_ ∈ _))

/-- The value of a digit. -/
def hexDigitValue (c : UInt8) : Nat := logHex.findIdx (· == c)

/-- Read a text back. -/
def unescape : List UInt8 → Option (List UInt8)
  | [] => some []
  | c :: text =>
      if c = 0x5c then
        match text with
        | x :: high :: low :: text =>
            if x = 0x78 ∧ IsHexDigit high ∧ IsHexDigit low then
              (unescape text).map
                (.ofNat (16 * hexDigitValue high + hexDigitValue low) :: ·)
            else none
        | _ => none
      else (unescape text).map (c :: ·)

-- ===================================================== one byte

/-- What holds of every number below 256 holds of every byte. -/
theorem forall_byte {P : UInt8 → Prop} (h : ∀ n < 256, P (.ofNat n))
    (byte : UInt8) : P byte := by
  have hbyte := h byte.toNat byte.toNat_lt
  rwa [UInt8.ofNat_toNat] at hbyte

/-- Every character of a group is printable and no quote. -/
theorem escapedByte_printable : ∀ byte : UInt8,
    ∀ c ∈ escapedByte byte, 0x20 ≤ c ∧ c ≤ 0x7e ∧ c ≠ 0x22 :=
  forall_byte (by decide +kernel)

/-- The two digits of a byte give it back. -/
theorem hexDigits_byte : ∀ byte : UInt8,
    IsHexDigit (logHexDigit (byte >>> 4))
      ∧ IsHexDigit (logHexDigit (byte &&& 15))
      ∧ .ofNat (16 * hexDigitValue (logHexDigit (byte >>> 4))
        + hexDigitValue (logHexDigit (byte &&& 15))) = byte :=
  forall_byte (by decide +kernel)

/-- The digits are those of `printf`. -/
theorem logHexDigit_printf : ∀ byte : UInt8,
    logHexDigit (byte >>> 4) = printfDigit (byte.toNat / 16)
      ∧ logHexDigit (byte &&& 15) = printfDigit (byte.toNat % 16) :=
  forall_byte (by decide +kernel)

theorem logPrintable_ne (h : logPrintable byte = true) : byte ≠ 0x5c := by
  rintro rfl
  exact absurd h (by decide)

/-- Two digits of `printf`. -/
theorem printfNumber_byte (byte : UInt8) :
    printfNumber 16 2 byte.toNat
      = [printfDigit (byte.toNat / 16), printfDigit (byte.toNat % 16)] := by
  have hbyte := byte.toNat_lt
  generalize byte.toNat = n at hbyte
  unfold printfNumber
  by_cases hzero : n = 0
  · subst hzero
    simp [printfDigit]
  by_cases hsmall : n < 16
  · rw [Nat.digits_of_lt 16 n hzero hsmall, Nat.div_eq_of_lt hsmall,
      Nat.mod_eq_of_lt hsmall]
    simp [printfDigit]
  · have hhigh : n / 16 ≠ 0 := by omega
    rw [Nat.digits_def' (by decide) (Nat.pos_of_ne_zero hzero),
      Nat.digits_of_lt 16 (n / 16) hhigh (by omega)]
    simp

/-- Both printers agree on one byte. -/
theorem printResultByte_eq (byte : UInt8) :
    printResultByte byte = escapedByte byte := by
  have hdigits := logHexDigit_printf byte
  have hprintable : (byte.toNat ≥ 0x20 && byte.toNat ≤ 0x7e
      && byte.toNat != 0x22 && byte.toNat != 0x5c) = logPrintable byte :=
    forall_byte (P := fun byte => (byte.toNat ≥ 0x20 && byte.toNat ≤ 0x7e
      && byte.toNat != 0x22 && byte.toNat != 0x5c) = logPrintable byte)
      (by decide +kernel) byte
  unfold printResultByte escapedByte
  rw [hprintable, printfNumber_byte, hdigits.1, hdigits.2]
  rfl

theorem printResult_eq (bytes : List UInt8) :
    printResult bytes = escaped bytes := by
  induction bytes with
  | nil => rfl
  | cons byte bytes ih =>
      rw [printResult, ih, printResultByte_eq]
      rfl

theorem escaped_cons :
    escaped (byte :: bytes) = escapedByte byte ++ escaped bytes := rfl

-- ====================================================== reading

theorem unescape_plain (h : c ≠ 0x5c) :
    unescape (c :: text) = (unescape text).map (c :: ·) := by
  rw [unescape.eq_def]
  simp only [if_neg h]

/-- A group is read back, whatever follows. -/
theorem unescape_escapedByte (byte : UInt8) (text : List UInt8) :
    unescape (escapedByte byte ++ text)
      = (unescape text).map (byte :: ·) := by
  unfold escapedByte
  split
  · rename_i h
    exact unescape_plain (logPrintable_ne h)
  · obtain ⟨hhigh, hlow, hvalue⟩ := hexDigits_byte byte
    simp only [List.cons_append, List.nil_append]
    rw [unescape, if_pos rfl]
    simp only [hhigh, hlow, hvalue, and_self, if_true]

/-- What was escaped is read back. -/
theorem unescape_escaped (bytes : List UInt8) :
    unescape (escaped bytes) = some bytes := by
  induction bytes with
  | nil => rfl
  | cons byte bytes ih =>
      rw [escaped_cons, unescape_escapedByte, ih]
      rfl

theorem escaped_injective : Function.Injective escaped := by
  intro bytes bytes' h
  have hread := congrArg unescape h
  rw [unescape_escaped, unescape_escaped] at hread
  exact Option.some.inj hread

/-- Behind its first character a group has no backslash. -/
theorem escapedByte_tail : ∀ byte : UInt8,
    ∀ c ∈ (escapedByte byte).tail, c ≠ 0x5c :=
  forall_byte (by decide +kernel)

/-- A backslash in a group is its first character, and the other three
follow it. -/
theorem escapedByte_backslash {before inside : List UInt8}
    (h : escapedByte byte = before ++ 0x5c :: inside) :
    inside = [0x78, logHexDigit (byte >>> 4), logHexDigit (byte &&& 15)] := by
  cases before with
  | nil =>
      unfold escapedByte at h
      split at h
      · rename_i hprintable
        cases h
        exact absurd rfl (logPrintable_ne hprintable)
      · cases h
        rfl
  | cons first before =>
      have hinside : (0x5c : UInt8) ∈ (escapedByte byte).tail := by
        rw [h]
        simp
      exact absurd rfl (escapedByte_tail byte _ hinside)

/-- A backslash begins a group. -/
theorem escaped_backslash {before after : List UInt8}
    (h : escaped bytes = before ++ 0x5c :: after) :
    ∃ high low rest, after = 0x78 :: high :: low :: rest
      ∧ IsHexDigit high ∧ IsHexDigit low := by
  induction bytes generalizing before with
  | nil => cases before <;> cases h
  | cons byte bytes ih =>
      rw [escaped_cons] at h
      rcases List.append_eq_append_iff.mp h with
        ⟨rest, hbefore, hrest⟩ | ⟨rest, hgroup, hafter⟩
      · exact ih hrest
      · cases rest with
        | nil => exact @ih [] hafter.symm
        | cons first inside =>
            injection hafter with hfirst hafter
            subst hfirst
            obtain ⟨hhigh, hlow, -⟩ := hexDigits_byte byte
            rw [escapedByte_backslash hgroup] at hafter
            exact ⟨_, _, escaped bytes, hafter, hhigh, hlow⟩

-- ===================================================== the log

theorem length_escaped_cons : (escaped (byte :: bytes)).length
    = (if logPrintable byte then 1 else 4) + (escaped bytes).length := by
  rw [escaped_cons, List.length_append, escapedByte]
  split <;> rfl

theorem length_escaped_le (bytes : List UInt8) :
    (escaped bytes).length ≤ 4 * bytes.length := by
  induction bytes with
  | nil => exact Nat.le_refl 0
  | cons byte bytes ih =>
      rw [length_escaped_cons, List.length_cons]
      split <;> omega

/-- The first loop adds the size of the text. -/
theorem escapeSize_eq {needed : Nat}
    (h : needed + 4 * bytes.length < 2 ^ 64) :
    escapeSize bytes needed = .ok (needed + (escaped bytes).length) := by
  induction bytes generalizing needed with
  | nil => rfl
  | cons byte bytes ih =>
      rw [List.length_cons] at h
      rw [escapeSize, length_escaped_cons, fitting_ok (by split <;> omega),
        ok_bind, ih (by split <;> omega), Nat.add_assoc]

/-- A byte stored at the end of what is written. -/
theorem storing_next {written rest : List UInt8} {old : UInt8} {position : Nat}
    (hposition : position = written.length) (h : position < capacity) :
    storing capacity (written ++ old :: rest) position c
      = .ok (written ++ [c] ++ rest) := by
  subst hposition
  rw [storing_ok h]
  simp [List.set_append_right]

/-- The second loop writes the text behind what is written. -/
theorem escapeWrite_eq {written rest : List UInt8}
    (hcapacity : written.length + (escaped bytes).length ≤ capacity)
    (hroom : (escaped bytes).length ≤ rest.length) :
    escapeWrite capacity bytes written.length (written ++ rest)
      = .ok (written.length + (escaped bytes).length,
        written ++ escaped bytes ++ rest.drop (escaped bytes).length) := by
  induction bytes generalizing written rest with
  | nil => simp [escapeWrite, escaped]
  | cons byte bytes ih =>
      rw [length_escaped_cons] at hcapacity hroom ⊢
      rw [escaped_cons, escapedByte, escapeWrite]
      cases hprintable : logPrintable byte with
      | true =>
          simp only [hprintable, if_true] at hcapacity hroom ⊢
          obtain ⟨old, rest, rfl⟩ := List.exists_cons_of_length_pos
            (by omega : 0 < rest.length)
          rw [List.length_cons] at hroom
          rw [storing_next rfl (by omega), ok_bind]
          have hnext := @ih (written ++ [byte]) rest (by simp; omega) (by omega)
          rw [List.length_append, List.length_singleton] at hnext
          rw [hnext, Nat.add_assoc, Nat.add_comm 1, List.drop_succ_cons]
          simp
      | false =>
          simp only [hprintable, Bool.false_eq_true, if_false] at hcapacity hroom ⊢
          obtain ⟨a, rest, rfl⟩ := List.exists_cons_of_length_pos
            (by omega : 0 < rest.length)
          rw [List.length_cons] at hroom
          obtain ⟨b, rest, rfl⟩ := List.exists_cons_of_length_pos
            (by omega : 0 < rest.length)
          rw [List.length_cons] at hroom
          obtain ⟨d, rest, rfl⟩ := List.exists_cons_of_length_pos
            (by omega : 0 < rest.length)
          rw [List.length_cons] at hroom
          obtain ⟨e, rest, rfl⟩ := List.exists_cons_of_length_pos
            (by omega : 0 < rest.length)
          rw [List.length_cons] at hroom
          rw [storing_next rfl (by omega), ok_bind,
            storing_next (by simp) (by omega), ok_bind,
            storing_next (by simp) (by omega), ok_bind,
            storing_next (by simp) (by omega), ok_bind]
          have hlength : (written ++ [(0x5c : UInt8)] ++ [(0x78 : UInt8)]
              ++ [logHexDigit (byte >>> 4)]
              ++ [logHexDigit (byte &&& 15)]).length = written.length + 4 := by
            simp
          have hnext := ih (by rw [hlength]; omega)
            (by omega : (escaped bytes).length ≤ rest.length)
          rw [hlength] at hnext
          rw [hnext, Nat.add_assoc, Nat.add_comm 4]
          simp

/-- One call: it succeeds when the text and its terminator fit, and writes
them and nothing else. -/
theorem logEscape_eq {output : List UInt8}
    (hsize : bytes.length ≤ (2 ^ 64 - 1 - 1) / 4)
    (hcapacity : capacity ≤ output.length) :
    logEscape output capacity bytes
      = .ok (if (escaped bytes).length + 1 ≤ capacity
        then (true, escaped bytes ++ 0 :: output.drop ((escaped bytes).length + 1))
        else (false, output)) := by
  rw [logEscape, if_neg (by omega), escapeSize_eq (by omega), ok_bind]
  by_cases hfits : (escaped bytes).length + 1 ≤ capacity
  · rw [if_neg (by omega), if_pos hfits]
    have hwritten := @escapeWrite_eq bytes capacity [] output
      (by simp; omega) (by omega)
    simp only [List.length_nil, List.nil_append, Nat.zero_add] at hwritten
    rw [hwritten, ok_bind]
    obtain ⟨old, rest, hrest⟩ := List.exists_cons_of_length_pos
      (by simp; omega : 0 < (output.drop (escaped bytes).length).length)
    simp only [hrest]
    rw [storing_next rfl (by omega), ok_bind]
    have hdrop : output.drop ((escaped bytes).length + 1) = rest := by
      rw [← List.drop_drop, hrest]
      rfl
    rw [hdrop]
    simp
    rfl
  · rw [if_pos (by omega), if_neg hfits]
    rfl

/-- Escaping loses nothing, is sized exactly and is what the command line
prints as well. -/
theorem escaping_exact {output : List UInt8}
    (hsize : bytes.length ≤ (2 ^ 64 - 1 - 1) / 4)
    (hcapacity : capacity ≤ output.length) :
    logEscape output capacity bytes
        = .ok (if (escaped bytes).length + 1 ≤ capacity
          then (true,
            escaped bytes ++ 0 :: output.drop ((escaped bytes).length + 1))
          else (false, output))
      ∧ (escaped bytes).length + 1 ≤ 4 * bytes.length + 1
      ∧ (∀ c ∈ escaped bytes, 0x20 ≤ c ∧ c ≤ 0x7e ∧ c ≠ 0x22)
      ∧ (∀ before after, escaped bytes = before ++ 0x5c :: after →
        ∃ high low rest, after = 0x78 :: high :: low :: rest
          ∧ IsHexDigit high ∧ IsHexDigit low)
      ∧ unescape (escaped bytes) = some bytes
      ∧ (∀ other, escaped other = escaped bytes → other = bytes)
      ∧ ∀ snapshot, snapshot.state = JobState.done.code →
        snapshot.result = bytes →
        ∃ fields, printStatus snapshot
          = fields ++ (ascii "result=\"" ++ escaped bytes ++ ascii "\"\n") := by
  refine ⟨logEscape_eq hsize hcapacity, ?_, ?_, ?_, unescape_escaped bytes,
    fun other h => escaped_injective h, ?_⟩
  · exact Nat.add_le_add_right (length_escaped_le bytes) 1
  · intro c hc
    obtain ⟨byte, -, hbyte⟩ := List.mem_flatMap.mp hc
    exact escapedByte_printable byte c hbyte
  · intro before after h
    exact escaped_backslash h
  · intro snapshot hdone hresult
    subst hresult
    unfold printStatus
    rw [if_pos (beq_iff_eq.mpr hdone), printResult_eq]
    exact ⟨_, rfl⟩

/-- A quote, a backslash and a letter, into a buffer of ten. -/
theorem escaping_exact_quote :
    logEscape (List.replicate 10 1) 10 [0x22, 0x5c, 0x61]
        = .ok (true, [0x5c, 0x78, 0x32, 0x32, 0x5c, 0x78, 0x35, 0x63, 0x61, 0])
      ∧ unescape (escaped [0x22, 0x5c, 0x61]) = some [0x22, 0x5c, 0x61] := by
  have hexact := escaping_exact
    (by decide : [(0x22 : UInt8), 0x5c, 0x61].length ≤ (2 ^ 64 - 1 - 1) / 4)
    (by decide : 10 ≤ (List.replicate 10 (1 : UInt8)).length)
  exact ⟨hexact.1.trans (by decide), hexact.2.2.2.2.1⟩

end Faultline
