/-
Stores into a buffer at explicit offsets.

An encoder written in C fills a buffer by storing one field after another,
each at an offset somebody worked out by hand. `run` carries such a sequence
out. When every store begins where the one before it ended (`Adjacent`), the
whole sequence is one store of the concatenated bytes (`run_adjacent`): that
is all the arithmetic an encoder's proof needs.
-/
import Mathlib.Data.List.Basic

namespace Lib

/-- Overwrite the bytes from an offset on. -/
def store (buffer : List UInt8) (offset : Nat) (bytes : List UInt8) :
    List UInt8 :=
  buffer.take offset ++ (bytes ++ buffer.drop (offset + bytes.length))

theorem length_store {buffer bytes : List UInt8} {offset : Nat}
    (h : offset + bytes.length ≤ buffer.length) :
    (store buffer offset bytes).length = buffer.length := by
  simp only [store, List.length_append, List.length_take, List.length_drop]
  omega

theorem take_store {buffer bytes : List UInt8} {offset : Nat}
    (h : offset ≤ buffer.length) :
    (store buffer offset bytes).take (offset + bytes.length)
      = buffer.take offset ++ bytes := by
  have hlen : (buffer.take offset ++ bytes).length
      = offset + bytes.length := by
    rw [List.length_append, List.length_take, Nat.min_eq_left h]
  rw [store, ← List.append_assoc, ← hlen, List.take_left]

theorem drop_store {buffer bytes : List UInt8} {offset : Nat}
    (h : offset ≤ buffer.length) (k : Nat) :
    (store buffer offset bytes).drop (offset + bytes.length + k)
      = buffer.drop (offset + bytes.length + k) := by
  have hlen : (buffer.take offset ++ bytes).length
      = offset + bytes.length := by
    rw [List.length_append, List.length_take, Nat.min_eq_left h]
  rw [store, ← List.append_assoc, ← hlen, ← List.drop_drop,
    List.drop_left, List.drop_drop]

/-- Offsets with the bytes to be stored there, in order. -/
abbrev Stores : Type := List (Nat × List UInt8)

namespace Stores

def run : Stores → List UInt8 → List UInt8
  | [], buffer => buffer
  | (offset, bytes) :: stores, buffer => run stores (store buffer offset bytes)

/-- All bytes, in the order they are stored. -/
def bytes (stores : Stores) : List UInt8 := stores.flatMap (·.2)

/-- The same stores, relative to a pointer into the buffer. -/
def shift (base : Nat) (stores : Stores) : Stores :=
  stores.map fun entry => (base + entry.1, entry.2)

/-- The loop that stores one row per value, the `i`-th at `base` plus `i`
strides. -/
def rows {α : Type} (row : α → Stores) (base stride : Nat) :
    Nat → List α → Stores
  | _, [] => []
  | i, value :: values =>
      shift (base + i * stride) (row value)
        ++ rows row base stride (i + 1) values

/-- Each store begins where the one before it ended. -/
def Adjacent (start : Nat) : Stores → Prop
  | [] => True
  | (offset, bytes) :: stores =>
      offset = start ∧ Adjacent (start + bytes.length) stores

theorem run_append (first second : Stores) (buffer : List UInt8) :
    run (first ++ second) buffer = run second (run first buffer) := by
  induction first generalizing buffer with
  | nil => rfl
  | cons entry first ih => exact ih _

-- ================================================ concatenation

@[simp] theorem bytes_nil : bytes [] = [] := rfl

@[simp] theorem bytes_cons (offset : Nat) (field : List UInt8)
    (stores : Stores) : bytes ((offset, field) :: stores)
      = field ++ bytes stores := rfl

theorem bytes_append (first second : Stores) :
    bytes (first ++ second) = bytes first ++ bytes second :=
  List.flatMap_append

@[simp] theorem bytes_shift (base : Nat) (stores : Stores) :
    bytes (shift base stores) = bytes stores := by
  rw [bytes, shift, List.flatMap_map]
  rfl

theorem bytes_rows {α : Type} (row : α → Stores) (base stride i : Nat)
    (values : List α) : bytes (rows row base stride i values)
      = values.flatMap fun value => bytes (row value) := by
  induction values generalizing i with
  | nil => rfl
  | cons value values ih =>
      rw [rows, bytes_append, bytes_shift, ih, List.flatMap_cons]

-- ===================================================== adjacency

theorem Adjacent.shift {start : Nat} (base : Nat) {stores : Stores}
    (h : Adjacent start stores) :
    Adjacent (base + start) (Stores.shift base stores) := by
  induction stores generalizing start with
  | nil => trivial
  | cons entry stores ih =>
      refine ⟨by rw [h.1], ?_⟩
      rw [Nat.add_assoc]
      exact ih h.2

theorem Adjacent.append {start : Nat} {first second : Stores}
    (hfirst : Adjacent start first)
    (hsecond : Adjacent (start + (bytes first).length) second) :
    Adjacent start (first ++ second) := by
  induction first generalizing start with
  | nil => exact hsecond
  | cons entry first ih =>
      refine ⟨hfirst.1, ih hfirst.2 ?_⟩
      rw [bytes_cons, List.length_append, ← Nat.add_assoc] at hsecond
      exact hsecond

theorem adjacent_rows {α : Type} {row : α → Stores} {stride : Nat}
    (hrow : ∀ value, Adjacent 0 (row value))
    (hlen : ∀ value, (bytes (row value)).length = stride) (base i : Nat)
    (values : List α) :
    Adjacent (base + i * stride) (rows row base stride i values) := by
  induction values generalizing i with
  | nil => trivial
  | cons value values ih =>
      refine ((hrow value).shift (base + i * stride)).append ?_
      rw [bytes_shift, hlen, Nat.add_zero, Nat.add_assoc, ← Nat.succ_mul]
      exact ih (i + 1)

/-- Adjacent stores are one store of all their bytes. -/
theorem run_adjacent {stores : Stores} {start : Nat} {buffer : List UInt8}
    (hadj : Adjacent start stores)
    (hroom : start + (bytes stores).length ≤ buffer.length) :
    run stores buffer = store buffer start (bytes stores) := by
  induction stores generalizing start buffer with
  | nil => simp [run, store]
  | cons entry stores ih =>
      obtain ⟨offset, field⟩ := entry
      obtain ⟨rfl, hrest⟩ := hadj
      rw [bytes_cons, List.length_append] at hroom
      rw [run, ih hrest (by rw [length_store (by omega)]; omega)]
      rw [store, take_store (by omega), drop_store (by omega), bytes_cons,
        store, List.length_append, List.append_assoc, List.append_assoc,
        Nat.add_assoc]

end Stores

end Lib
