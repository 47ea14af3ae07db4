/-
One file on a disk that can lose power.

`file` is what a read returns now. A crash keeps every byte covered by
the last successful sync and an arbitrary prefix of what was written
after it; `Survives` names those outcomes. A truncation no sync has
covered yet may be undone by a crash as well, so the bytes it cut off
stay in `dropped` until the next sync and count as written. `reboot` is
the disk after such a crash: the sync mark is not moved, because what
happened to survive once may still be lost next time.

`Reply` is the environment's answer to one system call. Data calls move
at least one byte when they succeed (`moved`); the remaining constructors
are the ways a call can fail or break its contract.
-/
import Mathlib.Data.List.Basic

namespace Lib

/-- The environment's answer to one system call. -/
inductive Reply where
  /-- Interrupted before anything happened. -/
  | eintr
  /-- Failed with an errno after possibly taking effect in part. -/
  | error (errno applied : Nat)
  /-- Succeeded; a data call moves up to `extra + 1` bytes. -/
  | moved (extra : Nat)
  /-- A write that reports zero bytes. -/
  | zero
  /-- A data call that reports more bytes than were asked for. -/
  | oversized (applied : Nat)
deriving DecidableEq, Repr

/-- The reply a call working as documented can give: interrupted, or
successful. -/
def Reply.Cooperative : Reply → Prop
  | .eintr => True
  | .moved _ => True
  | _ => False

/-- How many replies of a script complete a call. -/
def completions (script : List Reply) : Nat :=
  script.countP fun r => r matches .moved _

/-- How many replies of a script do more than interrupt a call. -/
def answers (script : List Reply) : Nat :=
  script.countP fun r => r != .eintr

/-- The file, the bytes an unsynced truncate cut off, and how many bytes
the last successful sync covers. -/
structure Disk where
  present : Bool
  file : List UInt8
  dropped : List UInt8
  synced : Nat
deriving DecidableEq, Repr

namespace Disk

/-- A directory without the file. -/
def blank : Disk := { present := false, file := [], dropped := [], synced := 0 }

/-- Make the file, empty. -/
def create (d : Disk) : Disk :=
  { d with present := true, file := [], dropped := [], synced := 0 }

/-- Write at the end of the file. -/
def append (d : Disk) (bytes : List UInt8) : Disk :=
  { d with file := d.file ++ bytes }

/-- Cut the file to its first `size` bytes. -/
def truncate (d : Disk) (size : Nat) : Disk :=
  { d with file := d.file.take size, dropped := d.file.drop size ++ d.dropped }

/-- Make the current contents durable. -/
def sync (d : Disk) : Disk :=
  { d with dropped := [], synced := d.file.length }

/-- A possible content of the file after a crash. -/
def Survives (d : Disk) (content : List UInt8) : Prop :=
  ∃ keep, d.synced ≤ keep ∧ content = (d.file ++ d.dropped).take keep

/-- The disk as the next process finds it when `content` survived. -/
def reboot (d : Disk) (content : List UInt8) : Disk :=
  { d with file := content, dropped := [] }

@[simp] theorem append_nil (d : Disk) : d.append [] = d := by
  simp [append]

theorem append_append (d : Disk) (xs ys : List UInt8) :
    (d.append xs).append ys = d.append (xs ++ ys) := by
  simp [append]

@[simp] theorem truncate_image (d : Disk) (size : Nat) :
    (d.truncate size).file ++ (d.truncate size).dropped
      = d.file ++ d.dropped := by
  simp [truncate, ← List.append_assoc]

/-- Whatever is read from the disk, now or after a crash, is in `A`. -/
def Admits (d : Disk) (A : List UInt8 → Prop) : Prop :=
  A d.file ∧ ∀ content, d.Survives content → A content

/-- A truncation no sync covers changes nothing about what survives. -/
theorem survives_truncate {d : Disk} {size : Nat} {content : List UInt8} :
    (d.truncate size).Survives content ↔ d.Survives content := by
  unfold Survives
  rw [truncate_image]
  rfl

/-- What survives two crashes in a row could have survived the first. -/
theorem Survives.again {d : Disk} {content content' : List UInt8}
    (h : d.Survives content) (h' : (d.reboot content).Survives content') :
    d.Survives content' := by
  obtain ⟨keep, hkeep, rfl⟩ := h
  obtain ⟨keep', hkeep', rfl⟩ := h'
  refine ⟨min keep' keep, Nat.le_min.mpr ⟨hkeep', hkeep⟩, ?_⟩
  simp [reboot, List.take_take]

theorem Admits.reboot {d : Disk} {A : List UInt8 → Prop}
    {content : List UInt8} (h : d.Admits A) (hs : d.Survives content) :
    (d.reboot content).Admits A :=
  ⟨h.2 content hs, fun content' hs' => h.2 content' (hs.again hs')⟩

end Disk

end Lib
