/-
Logs on a disk that can lose power.

`logDisk entries` is a history that is durable to the last byte. An append
behind it that does not finish leaves a prefix of one record
(`Unfinished`), and a crash a prefix of that prefix. Either way the file
holds the history, or the history and the new entry
(`holds_part`): there is nothing in between.
-/
import Faultline.Abstract.LogImage
import Faultline.Lib.Disk

namespace Faultline

open Lib

/-- The file of a history, all of it durable. -/
def logDisk (entries : List WalEntry) : Disk :=
  { present := true, file := logBytes entries, dropped := [],
    synced := (logBytes entries).length }

/-- The record of the next entry of a history. -/
def nextRecord (entries : List WalEntry) (entry : WalEntry) : WalRecord :=
  ⟨sequenceAfter entries.length, entry⟩

/-- An append behind the history that did not finish. -/
def Unfinished (entries : List WalEntry) (entry : WalEntry) (d : Disk) :
    Prop :=
  ∃ part, part <+: recordBytes (nextRecord entries entry)
    ∧ d = (logDisk entries).append part

theorem logDisk_snoc (entries : List WalEntry) (entry : WalEntry) :
    ((logDisk entries).append (recordBytes (nextRecord entries entry))).sync
      = logDisk (entries ++ [entry]) := by
  simp only [logDisk, Disk.append, Disk.sync, logBytes_snoc, nextRecord]

variable {entries : List WalEntry} {entry : WalEntry} {l l' : Ledger}
  {d : Disk} {content part tail : List UInt8}

/-- Nothing of a durable log is lost. -/
theorem survives_logDisk (h : (logDisk entries).Survives content) :
    content = logBytes entries := by
  obtain ⟨keep, hkeep, rfl⟩ := h
  rw [show (logDisk entries).file ++ (logDisk entries).dropped
    = logBytes entries from List.append_nil _]
  exact List.take_of_length_le hkeep

/-- Of an unfinished append a prefix of its record survives. -/
theorem Unfinished.survives (h : Unfinished entries entry d)
    (hs : d.Survives content) :
    ∃ part, part <+: recordBytes (nextRecord entries entry)
      ∧ content = logBytes entries ++ part := by
  obtain ⟨part, hpart, rfl⟩ := h
  obtain ⟨keep, hkeep, rfl⟩ := hs
  have himage : ((logDisk entries).append part).file
      ++ ((logDisk entries).append part).dropped = logBytes entries ++ part :=
    List.append_nil _
  change (logBytes entries).length ≤ keep at hkeep
  rw [himage, List.take_append, List.take_of_length_le hkeep]
  exact ⟨_, (List.take_prefix _ _).trans hpart, rfl⟩

/-- A history and a prefix of its next record: the history with a torn
tail, or the longer history. -/
theorem holds_part (hrun : Ledger.Run .init entries l)
    (hstep : l.Step entry l')
    (hpart : part <+: recordBytes (nextRecord entries entry)) :
    Holds (logBytes entries ++ part) entries part l
      ∨ Holds (logBytes entries ++ part) (entries ++ [entry]) [] l' := by
  by_cases hfull : part = recordBytes (nextRecord entries entry)
  · refine Or.inr ⟨?_, hrun.snoc hstep, torn_nil _⟩
    rw [hfull, List.append_nil, logBytes_snoc]
    rfl
  · have henc := hstep.encodable (hrun.inv Ledger.inv_init)
    exact Or.inl ⟨rfl, hrun,
      torn_of_prefix (Ledger.run_length_lt hrun) henc hpart hfull⟩

/-- What is left of a torn tail is torn. -/
theorem Torn.of_prefix {n : Nat} (h : Torn n tail) (hpart : part <+: tail) :
    Torn n part := by
  have hle := hpart.length_le
  rcases h with hshort | ⟨header, hdecode, hlen⟩
  · exact Or.inl (by omega)
  by_cases hheader : part.length < walRecordHeaderSize
  · exact Or.inl hheader
  · refine Or.inr ⟨header, ?_, by omega⟩
    obtain ⟨rest, rfl⟩ := hpart
    rwa [List.take_append_of_le_length (by omega)] at hdecode

end Faultline
