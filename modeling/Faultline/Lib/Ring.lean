/-
A bounded ring over a fixed array, and the FIFO list it stands for.

The ring is the usual head-and-count representation: entry `i` of the
queue lives in cell `(head + i) mod n`. `toList` reads the queue off the
array; the three lemmas a client needs say that storing at the tail
appends (`toList_put`), that advancing the head drops the oldest entry
(`toList_advance`), and that the oldest cell is the front of the list
(`head?_toList`). Wraparound is confined to one fact: distinct offsets
below `n` name distinct cells (`cell_inj`).
-/
import Mathlib.Data.List.Basic
import Mathlib.Data.Nat.ModEq

namespace Lib

/-- `n` cells, the position of the oldest entry and the entry count. -/
structure Ring (α : Type) (n : Nat) where
  cells : Vector α n
  head : Nat
  count : Nat
deriving DecidableEq, Repr

namespace Ring

variable {α : Type} {n : Nat} [NeZero n]

/-- The cell `offset` places after `start`, wrapping at the end. -/
def cellAt (start offset : Nat) : Fin n := Fin.ofNat n (start + offset)

/-- The entry `offset` places behind the oldest one. -/
def entry (r : Ring α n) (offset : Nat) : α :=
  r.cells[(cellAt r.head offset : Fin n)]

/-- The queue a ring stands for, oldest entry first. -/
def toList (r : Ring α n) : List α :=
  (List.range r.count).map r.entry

/-- Store a value in the cell behind the newest entry. -/
def put (r : Ring α n) (value : α) : Ring α n :=
  { r with
    cells := r.cells.set (cellAt (n := n) r.head r.count).val value
      (cellAt (n := n) r.head r.count).isLt
    count := r.count + 1 }

/-- Overwrite the oldest cell and move the head past it. -/
def advance (r : Ring α n) (blank : α) : Ring α n :=
  { cells := r.cells.set (cellAt (n := n) r.head 0).val blank
      (cellAt (n := n) r.head 0).isLt
    head := (r.head + 1) % n
    count := r.count - 1 }

/-- The head is a cell position and the entries fit the array. -/
structure Fits (r : Ring α n) : Prop where
  head_lt : r.head < n
  count_le : r.count ≤ n

@[simp] theorem length_toList (r : Ring α n) : r.toList.length = r.count := by
  simp [toList]

/-- Distinct offsets below the capacity name distinct cells. -/
theorem cell_inj {start i j : Nat} (hi : i < n) (hj : j < n)
    (h : (cellAt start i : Fin n) = cellAt start j) : i = j := by
  have hmod : (start + i) % n = (start + j) % n := congrArg Fin.val h
  have hcancel : i ≡ j [MOD n] := Nat.ModEq.add_left_cancel' start hmod
  exact Nat.ModEq.eq_of_lt_of_lt hcancel hi hj

/-- Moving the head by one shifts every offset by one. -/
theorem cellAt_advance (start i : Nat) :
    (cellAt ((start + 1) % n) i : Fin n) = cellAt start (i + 1) := by
  apply Fin.ext
  show ((start + 1) % n + i) % n = (start + (i + 1)) % n
  rw [Nat.mod_add_mod]
  congr 1
  omega

/-- Storing at the tail appends to the queue. -/
theorem toList_put {r : Ring α n} (hroom : r.count < n) (value : α) :
    (r.put value).toList = r.toList ++ [value] := by
  unfold toList
  rw [show (r.put value).count = r.count + 1 from rfl, List.range_succ,
    List.map_append]
  congr 1
  · refine List.map_congr_left fun i hi => ?_
    have hilt : i < r.count := List.mem_range.mp hi
    have hne : (cellAt r.head r.count : Fin n) ≠ cellAt r.head i := by
      intro heq
      have := cell_inj hroom (by omega) heq
      omega
    simp only [entry, put, Fin.getElem_fin]
    rw [Vector.getElem_set_ne]
    exact fun heq => hne (Fin.ext heq)
  · simp only [List.map_cons, List.map_nil, entry, put,
      Fin.getElem_fin, Vector.getElem_set_self]

/-- Moving the head drops the oldest entry. -/
theorem toList_advance {r : Ring α n} (hfits : r.Fits) (blank : α) :
    (r.advance blank).toList = r.toList.tail := by
  unfold toList
  rw [show (r.advance blank).count = r.count - 1 from rfl]
  cases hc : r.count with
  | zero => simp
  | succ m =>
      rw [List.range_succ_eq_map, List.map_cons, List.tail_cons,
        List.map_map, Nat.add_sub_cancel]
      refine List.map_congr_left fun i hi => ?_
      have hilt : i < m := List.mem_range.mp hi
      have hle := hfits.count_le
      have hne : (cellAt r.head 0 : Fin n) ≠ cellAt r.head (i + 1) := by
        intro heq
        have := cell_inj (by omega) (by omega) heq
        omega
      simp only [entry, advance, Function.comp, cellAt_advance,
        Fin.getElem_fin]
      rw [Vector.getElem_set_ne]
      exact fun heq => hne (Fin.ext heq)

/-- The oldest entry is the front of the queue. -/
theorem head?_toList {r : Ring α n} (h : r.count ≠ 0) :
    r.toList.head? = some (r.entry 0) := by
  unfold toList
  cases hc : r.count with
  | zero => exact absurd hc h
  | succ m => rw [List.range_succ_eq_map, List.map_cons, List.head?_cons]

/-- Storing keeps a ring that has room within its array. -/
theorem Fits.put {r : Ring α n} (h : r.Fits) (hroom : r.count < n)
    (value : α) : (r.put value).Fits :=
  ⟨h.head_lt, hroom⟩

/-- Moving the head keeps a ring within its array. -/
theorem Fits.advance {r : Ring α n} (h : r.Fits) (blank : α) :
    (r.advance blank).Fits :=
  ⟨Nat.mod_lt _ (Nat.pos_of_ne_zero (NeZero.ne n)),
    Nat.le_trans (Nat.sub_le _ _) h.count_le⟩

end Ring

end Lib
