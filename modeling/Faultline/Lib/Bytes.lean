/-
Big-endian integers over byte lists, and the segment algebra a
fixed-offset codec needs.

An encoder lays fields out one after another, so its output is an
append of `putU..` words; a decoder reads each field at an absolute
offset, so its input is a `drop` of the buffer. The two lemma families
here connect the readings in both directions:

- `getU.._putU..`: a word read back from the front of any buffer that
  starts with it, and `drop_putU..` to step an offset past one word;
- `putU.._getU..`: re-encoding what was read gives the bytes it was
  read from, and `putU.._glue` to put a word back before what follows
  it.

The second family is what makes a format canonical: nothing but the
original bytes re-encodes to the decoded value.
-/
import Mathlib.Data.List.Basic

namespace Lib

-- ============================================= words as bytes

/-- Two bytes, most significant first. -/
def putU16 (value : UInt16) : List UInt8 :=
  [(value >>> 8).toUInt8, value.toUInt8]

/-- Four bytes, most significant first. -/
def putU32 (value : UInt32) : List UInt8 :=
  [(value >>> 24).toUInt8, (value >>> 16).toUInt8,
    (value >>> 8).toUInt8, value.toUInt8]

/-- Eight bytes: the high word, then the low word. -/
def putU64 (value : UInt64) : List UInt8 :=
  putU32 (value >>> 32).toUInt32 ++ putU32 value.toUInt32

/-- The word at the front of a buffer. -/
def getU16 (bytes : List UInt8) : UInt16 :=
  ((bytes.getD 0 0).toUInt16 <<< 8) ||| (bytes.getD 1 0).toUInt16

/-- The double word at the front of a buffer. -/
def getU32 (bytes : List UInt8) : UInt32 :=
  ((bytes.getD 0 0).toUInt32 <<< 24) ||| ((bytes.getD 1 0).toUInt32 <<< 16)
    ||| ((bytes.getD 2 0).toUInt32 <<< 8) ||| (bytes.getD 3 0).toUInt32

/-- The quad word at the front of a buffer. -/
def getU64 (bytes : List UInt8) : UInt64 :=
  ((getU32 bytes).toUInt64 <<< 32) ||| (getU32 (bytes.drop 4)).toUInt64

@[simp] theorem length_putU16 (v : UInt16) : (putU16 v).length = 2 := rfl

@[simp] theorem length_putU32 (v : UInt32) : (putU32 v).length = 4 := rfl

@[simp] theorem length_putU64 (v : UInt64) : (putU64 v).length = 8 := rfl

-- ========================================== decode after encode

@[simp] theorem getU16_putU16 (v : UInt16) (rest : List UInt8) :
    getU16 (putU16 v ++ rest) = v := by
  simp only [getU16, putU16, List.cons_append, List.nil_append,
    List.getD_cons_zero, List.getD_cons_succ]
  apply UInt16.toBitVec_inj.mp
  apply BitVec.eq_of_getLsbD_eq
  intro i hi
  simp [-UInt16.toUInt16_toUInt8]
  grind

@[simp] theorem getU32_putU32 (v : UInt32) (rest : List UInt8) :
    getU32 (putU32 v ++ rest) = v := by
  simp only [getU32, putU32, List.cons_append, List.nil_append,
    List.getD_cons_zero, List.getD_cons_succ]
  apply UInt32.toBitVec_inj.mp
  apply BitVec.eq_of_getLsbD_eq
  intro i hi
  simp [-UInt32.toUInt32_toUInt8]
  grind

/-- A quad word is its two halves glued back together. -/
private theorem glue_halves (v : UInt64) :
    ((v >>> 32).toUInt32.toUInt64 <<< 32) ||| v.toUInt32.toUInt64 = v := by
  apply UInt64.toBitVec_inj.mp
  apply BitVec.eq_of_getLsbD_eq
  intro i hi
  simp [-UInt64.toUInt64_toUInt32]
  grind

@[simp] theorem getU64_putU64 (v : UInt64) (rest : List UInt8) :
    getU64 (putU64 v ++ rest) = v := by
  have hdrop : (putU64 v ++ rest).drop 4 = putU32 v.toUInt32 ++ rest := rfl
  rw [getU64, hdrop, getU32_putU32, putU64, List.append_assoc,
    getU32_putU32, glue_halves]

/-- A word alone in its buffer reads back too. -/
@[simp] theorem getU32_putU32_self (v : UInt32) : getU32 (putU32 v) = v := by
  simpa using getU32_putU32 v []

-- ========================================== encode after decode

/-- A buffer long enough for a word starts with two named bytes. -/
theorem putU16_getU16 {bytes : List UInt8} (h : 2 ≤ bytes.length) :
    putU16 (getU16 bytes) = bytes.take 2 := by
  match bytes, h with
  | a :: b :: rest, _ =>
      simp only [getU16, putU16, List.getD_cons_zero, List.getD_cons_succ,
        List.take_succ_cons, List.take_zero, List.cons.injEq, and_true]
      constructor
      all_goals
        apply UInt8.toBitVec_inj.mp
        apply BitVec.eq_of_getLsbD_eq
        intro i hi
        simp
        try grind

theorem putU32_getU32 {bytes : List UInt8} (h : 4 ≤ bytes.length) :
    putU32 (getU32 bytes) = bytes.take 4 := by
  match bytes, h with
  | a :: b :: c :: d :: rest, _ =>
      simp only [getU32, putU32, List.getD_cons_zero, List.getD_cons_succ,
        List.take_succ_cons, List.take_zero, List.cons.injEq, and_true]
      refine ⟨?_, ?_, ?_, ?_⟩
      all_goals
        apply UInt8.toBitVec_inj.mp
        apply BitVec.eq_of_getLsbD_eq
        intro i hi
        simp
        try grind

/-- The high half of a glued quad word. -/
private theorem high_half (a b : UInt32) :
    (((a.toUInt64 <<< 32) ||| b.toUInt64) >>> 32).toUInt32 = a := by
  apply UInt32.toBitVec_inj.mp
  apply BitVec.eq_of_getLsbD_eq
  intro i hi
  simp
  grind

/-- The low half of a glued quad word. -/
private theorem low_half (a b : UInt32) :
    ((a.toUInt64 <<< 32) ||| b.toUInt64).toUInt32 = b := by
  apply UInt32.toBitVec_inj.mp
  apply BitVec.eq_of_getLsbD_eq
  intro i hi
  simp

/-- Adjacent segments of a buffer glue to one segment. -/
theorem take_append_take_drop {α : Type} (m n : Nat) (l : List α) :
    l.take m ++ (l.drop m).take n = l.take (m + n) :=
  List.take_add.symm

theorem putU64_getU64 {bytes : List UInt8} (h : 8 ≤ bytes.length) :
    putU64 (getU64 bytes) = bytes.take 8 := by
  have hlow : 4 ≤ (bytes.drop 4).length := by
    rw [List.length_drop]
    omega
  rw [getU64, putU64, high_half, low_half, putU32_getU32 (by omega),
    putU32_getU32 hlow, take_append_take_drop]

/-- A word read at an offset goes back in front of the bytes behind
it. -/
theorem putU16_glue {bytes : List UInt8} {k : Nat}
    (h : k + 2 ≤ bytes.length) :
    putU16 (getU16 (bytes.drop k)) ++ bytes.drop (k + 2) = bytes.drop k := by
  rw [putU16_getU16 (by rw [List.length_drop]; omega), ← List.drop_drop,
    List.take_append_drop]

theorem putU32_glue {bytes : List UInt8} {k : Nat}
    (h : k + 4 ≤ bytes.length) :
    putU32 (getU32 (bytes.drop k)) ++ bytes.drop (k + 4) = bytes.drop k := by
  rw [putU32_getU32 (by rw [List.length_drop]; omega), ← List.drop_drop,
    List.take_append_drop]

theorem putU64_glue {bytes : List UInt8} {k : Nat}
    (h : k + 8 ≤ bytes.length) :
    putU64 (getU64 (bytes.drop k)) ++ bytes.drop (k + 8) = bytes.drop k := by
  rw [putU64_getU64 (by rw [List.length_drop]; omega), ← List.drop_drop,
    List.take_append_drop]

-- ======================================================== offsets

/-- An offset behind a word skips the word. -/
@[simp] theorem drop_putU16 (v : UInt16) (rest : List UInt8) (n : Nat) :
    (putU16 v ++ rest).drop (n + 2) = rest.drop n := by
  rw [Nat.add_comm, ← List.drop_drop]
  rfl

@[simp] theorem drop_putU32 (v : UInt32) (rest : List UInt8) (n : Nat) :
    (putU32 v ++ rest).drop (n + 4) = rest.drop n := by
  rw [Nat.add_comm, ← List.drop_drop]
  rfl

@[simp] theorem drop_putU64 (v : UInt64) (rest : List UInt8) (n : Nat) :
    (putU64 v ++ rest).drop (n + 8) = rest.drop n := by
  rw [Nat.add_comm, ← List.drop_drop]
  rfl

-- ============================================ longer buffers

/-- Words read the same from any extension of a long enough buffer. -/
theorem getU32_append {bytes : List UInt8} (h : 4 ≤ bytes.length)
    (rest : List UInt8) : getU32 (bytes ++ rest) = getU32 bytes := by
  match bytes, h with
  | a :: b :: c :: d :: tail, _ => rfl

theorem getU64_append {bytes : List UInt8} (h : 8 ≤ bytes.length)
    (rest : List UInt8) : getU64 (bytes ++ rest) = getU64 bytes := by
  have hlow : 4 ≤ (bytes.drop 4).length := by
    rw [List.length_drop]
    omega
  rw [getU64, getU64, getU32_append (by omega),
    List.drop_append_of_le_length (by omega), getU32_append hlow]

end Lib
