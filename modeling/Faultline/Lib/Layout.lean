/-
Fixed-size layouts: how a value stands in a buffer.

A layout writes a value as a fixed number of bytes and reads it back from
the front of any buffer that is long enough; its laws are part of it, so
every layout is canonical. Layouts are put together by placing one behind
another (`pair`), by renaming (`as`), and by repeating one (`writeAll`,
`readAll`). A codec that was written out by hand, field by field and offset
by offset, is checked by showing that it agrees with a layout; the laws
then come for free.
-/
import Faultline.Lib.Bytes

namespace Lib

/-- A fixed-size, canonical binary form of `α`. -/
structure Layout (α : Type) where
  size : Nat
  write : α → List UInt8
  read : List UInt8 → α
  length_write : ∀ a, (write a).length = size
  read_write : ∀ a rest, read (write a ++ rest) = a
  write_read : ∀ bytes, size ≤ bytes.length →
    write (read bytes) = bytes.take size

namespace Layout

variable {α β : Type}

-- ======================================================== words

def u16 : Layout UInt16 where
  size := 2
  write := putU16
  read := getU16
  length_write := length_putU16
  read_write := getU16_putU16
  write_read := fun _ h => putU16_getU16 h

def u32 : Layout UInt32 where
  size := 4
  write := putU32
  read := getU32
  length_write := length_putU32
  read_write := getU32_putU32
  write_read := fun _ h => putU32_getU32 h

def u64 : Layout UInt64 where
  size := 8
  write := putU64
  read := getU64
  length_write := length_putU64
  read_write := getU64_putU64
  write_read := fun _ h => putU64_getU64 h

-- ================================================== composition

/-- One layout behind another. -/
def pair (first : Layout α) (second : Layout β) : Layout (α × β) where
  size := first.size + second.size
  write := fun value => first.write value.1 ++ second.write value.2
  read := fun bytes => (first.read bytes, second.read (bytes.drop first.size))
  length_write := fun value => by
    rw [List.length_append, first.length_write, second.length_write]
  read_write := fun value rest => by
    rw [List.append_assoc, first.read_write,
      List.drop_left' (first.length_write value.1), second.read_write]
  write_read := fun bytes h => by
    rw [first.write_read bytes (by omega), second.write_read _
      (by rw [List.length_drop]; omega), take_append_take_drop]

/-- The same bytes under another name. -/
def as (layout : Layout α) (make : α → β) (fields : β → α)
    (hmake : ∀ b, make (fields b) = b) (hfields : ∀ a, fields (make a) = a) :
    Layout β where
  size := layout.size
  write := fun b => layout.write (fields b)
  read := fun bytes => make (layout.read bytes)
  length_write := fun b => layout.length_write (fields b)
  read_write := fun b rest => by rw [layout.read_write, hmake]
  write_read := fun bytes h => by rw [hfields, layout.write_read bytes h]

-- ======================================================= reading

variable (layout : Layout α)

/-- A value is put back in front of the bytes behind it. -/
theorem write_glue {bytes : List UInt8} (h : layout.size ≤ bytes.length) :
    layout.write (layout.read bytes) ++ bytes.drop layout.size = bytes := by
  rw [layout.write_read bytes h, List.take_append_drop]

/-- What was read does not depend on what comes later. -/
theorem read_append {bytes : List UInt8} (h : layout.size ≤ bytes.length)
    (rest : List UInt8) : layout.read (bytes ++ rest) = layout.read bytes := by
  have hsplit := (layout.write_glue h).symm
  rw [hsplit, List.append_assoc, layout.read_write, ← hsplit]

-- ======================================================== arrays

/-- Values one after another. -/
def writeAll (values : List α) : List UInt8 := values.flatMap layout.write

/-- `count` values, the `i`-th at `i` times the size. -/
def readAll (count : Nat) (bytes : List UInt8) : List α :=
  (List.range count).map fun i => layout.read (bytes.drop (i * layout.size))

theorem length_writeAll (values : List α) :
    (layout.writeAll values).length = values.length * layout.size := by
  induction values with
  | nil => simp [writeAll]
  | cons value values ih =>
      unfold writeAll at ih ⊢
      rw [List.flatMap_cons, List.length_append, layout.length_write, ih,
        List.length_cons, Nat.succ_mul, Nat.add_comm]

@[simp] theorem length_readAll (count : Nat) (bytes : List UInt8) :
    (layout.readAll count bytes).length = count := by
  simp [readAll]

theorem readAll_succ (count : Nat) (bytes : List UInt8) :
    layout.readAll (count + 1) bytes
      = layout.read bytes :: layout.readAll count (bytes.drop layout.size) := by
  unfold readAll
  rw [List.range_succ_eq_map, List.map_cons, List.map_map]
  simp only [Nat.zero_mul, List.drop_zero, List.cons.injEq, true_and]
  refine List.map_congr_left fun i _ => ?_
  rw [Function.comp, List.drop_drop, Nat.succ_mul, Nat.add_comm]

theorem readAll_writeAll (values : List α) (rest : List UInt8) :
    layout.readAll values.length (layout.writeAll values ++ rest)
      = values := by
  induction values with
  | nil => rfl
  | cons value values ih =>
      unfold writeAll at ih ⊢
      rw [List.length_cons, readAll_succ, List.flatMap_cons,
        List.append_assoc, layout.read_write,
        List.drop_left' (layout.length_write value), ih]

theorem writeAll_readAll (count : Nat) {bytes : List UInt8}
    (h : count * layout.size ≤ bytes.length) :
    layout.writeAll (layout.readAll count bytes)
      = bytes.take (count * layout.size) := by
  induction count generalizing bytes with
  | zero => simp [readAll, writeAll]
  | succ count ih =>
      rw [Nat.succ_mul] at h ⊢
      have hrest := ih (show _ ≤ (bytes.drop layout.size).length by
        rw [List.length_drop]
        omega)
      unfold writeAll at hrest ⊢
      rw [readAll_succ, List.flatMap_cons, hrest,
        layout.write_read bytes (by omega), take_append_take_drop,
        Nat.add_comm]

theorem readAll_append (count : Nat) {bytes : List UInt8}
    (h : count * layout.size ≤ bytes.length) (rest : List UInt8) :
    layout.readAll count (bytes ++ rest) = layout.readAll count bytes := by
  induction count generalizing bytes with
  | zero => rfl
  | succ count ih =>
      rw [Nat.succ_mul] at h
      rw [readAll_succ, readAll_succ, layout.read_append (by omega),
        List.drop_append_of_le_length (by omega),
        ih (by rw [List.length_drop]; omega)]

end Layout

end Lib
