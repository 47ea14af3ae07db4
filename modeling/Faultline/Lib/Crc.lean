/-
Reflected cyclic redundancy checks of any width.

A check shifts its register one bit at a time and adds the polynomial when
the bit shifted out was set. The step is linear in exclusive or, and
injective as soon as the polynomial's top bit is set. Shifting in as many
bytes as fit the register is therefore the same as adding them at once and
shifting afterwards (`foldl_feed`), so two messages that differ in one
window of that size never share a checksum (`window_detected`).
-/
import Mathlib.Logic.Function.Basic

namespace Lib

namespace Crc

variable {w : Nat} (poly : BitVec w)

-- ======================================================== steps

/-- Shift one bit out. -/
def step (crc : BitVec w) : BitVec w :=
  (crc >>> 1) ^^^ (if crc.getLsbD 0 then poly else 0#w)

/-- Shift `n` bits out. -/
def shift : Nat → BitVec w → BitVec w
  | 0, crc => crc
  | n + 1, crc => shift n (step poly crc)

/-- Add one byte and shift it through. -/
def feed (crc : BitVec w) (byte : BitVec 8) : BitVec w :=
  shift poly 8 (crc ^^^ byte.setWidth w)

variable {poly} {a b : BitVec w}

theorem step_xor : step poly (a ^^^ b) = step poly a ^^^ step poly b := by
  unfold step
  apply BitVec.eq_of_getLsbD_eq
  intro i hi
  cases ha : a.getLsbD 0 <;> cases hb : b.getLsbD 0 <;>
    simp [BitVec.getLsbD_xor, ha, hb, Bool.xor_comm, Bool.xor_left_comm]

theorem shift_xor (n : Nat) :
    shift poly n (a ^^^ b) = shift poly n a ^^^ shift poly n b := by
  induction n generalizing a b with
  | zero => rfl
  | succ n ih => rw [shift, step_xor, ih, shift, shift]

/-- An even register is only shifted. -/
theorem step_even (h : a.getLsbD 0 = false) : step poly a = a >>> 1 := by
  simp [step, h]

/-- The bit shifted out can be read off the top of the register. -/
theorem step_msb (h : poly.msb = true) :
    (step poly a).msb = a.getLsbD 0 := by
  unfold step
  cases ha : a.getLsbD 0 <;> simp [h]

theorem step_injective (h : poly.msb = true) :
    Function.Injective (step poly) := by
  intro a b hab
  have hlow : a.getLsbD 0 = b.getLsbD 0 := by
    rw [← step_msb h, hab, step_msb h]
  have hrest : a >>> 1 = b >>> 1 := by
    unfold step at hab
    rw [hlow] at hab
    simpa using hab
  apply BitVec.eq_of_getLsbD_eq
  intro i hi
  cases i with
  | zero => exact hlow
  | succ i =>
      have hbit := congrArg (BitVec.getLsbD · i) hrest
      simpa [Nat.add_comm] using hbit

theorem shift_injective (h : poly.msb = true) (n : Nat) :
    Function.Injective (shift poly n) := by
  induction n with
  | zero => exact fun _ _ hab => hab
  | succ n ih => exact fun _ _ hab => step_injective h (ih hab)

theorem shift_add (m n : Nat) :
    shift poly (m + n) a = shift poly n (shift poly m a) := by
  induction m generalizing a with
  | zero => rw [Nat.zero_add, shift]
  | succ m ih => rw [Nat.succ_add, shift, ih, shift]

/-- Bits that were shifted in come out as they were. -/
theorem shift_shiftLeft (n : Nat) (hn : n ≤ w)
    (h : ∀ i, w ≤ i + n → a.getLsbD i = false) :
    shift poly n (a <<< n) = a := by
  induction n generalizing a with
  | zero => exact BitVec.shiftLeft_zero a
  | succ n ih =>
      have heven : (a <<< (n + 1)).getLsbD 0 = false := by simp
      have hstep : (a <<< (n + 1)) >>> 1 = a <<< n := by
        apply BitVec.eq_of_getLsbD_eq
        intro i hi
        by_cases htop : i + 1 = w
        · simp [htop, h (i - n) (by omega), Nat.add_comm 1 i]
        · simp [hi, Nat.add_comm 1 i]
          grind
      rw [shift, step_even heven, hstep]
      exact ih (by omega) fun i hi => h i (by omega)

-- ====================================================== windows

/-- The bytes of a window, first byte lowest. -/
def word (w : Nat) : List (BitVec 8) → BitVec w
  | [] => 0#w
  | byte :: bytes => byte.setWidth w ^^^ (word w bytes <<< 8)

/-- Each bit of a window belongs to one byte. -/
theorem getLsbD_word (byte : BitVec 8) (bytes : List (BitVec 8)) {i : Nat}
    (hi : i < w) :
    (word w (byte :: bytes)).getLsbD i
      = if i < 8 then byte.getLsbD i else (word w bytes).getLsbD (i - 8) := by
  rw [word, BitVec.getLsbD_xor]
  by_cases h8 : i < 8
  · simp [hi, h8]
  · have hbyte : byte.getLsbD i = false :=
      BitVec.getLsbD_of_ge _ _ (by omega)
    rw [BitVec.getLsbD_setWidth, hbyte, BitVec.getLsbD_shiftLeft, if_neg h8]
    simp [hi, h8]

/-- Above its bytes a window is zero. -/
theorem getLsbD_word_high (bytes : List (BitVec 8)) {i : Nat}
    (h : 8 * bytes.length ≤ i) : (word w bytes).getLsbD i = false := by
  induction bytes generalizing i with
  | nil => simp [word]
  | cons byte bytes ih =>
      rw [List.length_cons] at h
      by_cases hi : i < w
      · rw [getLsbD_word byte bytes hi, if_neg (by omega)]
        exact ih (by omega)
      · exact BitVec.getLsbD_of_ge _ _ (by omega)

theorem word_injective {xs ys : List (BitVec 8)}
    (hlen : xs.length = ys.length) (hfit : 8 * xs.length ≤ w)
    (h : word w xs = word w ys) : xs = ys := by
  induction xs generalizing ys with
  | nil =>
      cases ys with
      | nil => rfl
      | cons y ys => cases hlen
  | cons x xs ih =>
      cases ys with
      | nil => cases hlen
      | cons y ys =>
          rw [List.length_cons] at hfit
          have hlen' : xs.length = ys.length := Nat.succ.inj hlen
          have hbit (i : Nat) (hi : i < w) :
              (if i < 8 then x.getLsbD i else (word w xs).getLsbD (i - 8))
                = if i < 8 then y.getLsbD i
                  else (word w ys).getLsbD (i - 8) := by
            rw [← getLsbD_word x xs hi, h, getLsbD_word y ys hi]
          have hhead : x = y := by
            apply BitVec.eq_of_getLsbD_eq
            intro i hi
            simpa [hi] using hbit i (by omega)
          have htail : word w xs = word w ys := by
            apply BitVec.eq_of_getLsbD_eq
            intro i hi
            by_cases hfits : i + 8 < w
            · have hshift := hbit (i + 8) hfits
              rw [if_neg (by omega), if_neg (by omega)] at hshift
              exact hshift
            · rw [getLsbD_word_high xs (by omega),
                getLsbD_word_high ys (by omega)]
          rw [hhead, ih hlen' (by omega) htail]

/-- A window that fits the register is added as one word. -/
theorem foldl_feed (bytes : List (BitVec 8)) (h : 8 * bytes.length ≤ w) :
    bytes.foldl (feed poly) a
      = shift poly (8 * bytes.length) (a ^^^ word w bytes) := by
  induction bytes generalizing a with
  | nil => simp [word, shift]
  | cons byte bytes ih =>
      rw [List.length_cons] at h
      have hword : shift poly 8 (word w bytes <<< 8) = word w bytes :=
        shift_shiftLeft 8 (by omega) fun i hi =>
          getLsbD_word_high bytes (by omega)
      rw [List.foldl_cons, ih (by omega), List.length_cons, Nat.mul_succ,
        Nat.add_comm, shift_add, word, ← BitVec.xor_assoc,
        shift_xor (a := a ^^^ _), hword]
      rfl

theorem foldl_feed_injective (h : poly.msb = true)
    (bytes : List (BitVec 8)) :
    Function.Injective fun crc => bytes.foldl (feed poly) crc := by
  induction bytes with
  | nil => exact fun _ _ hab => hab
  | cons byte bytes ih =>
      intro a b hab
      have hfeed : feed poly a byte = feed poly b byte := ih hab
      simpa using shift_injective h 8 hfeed

/-- Two messages that differ inside a window that fits the register have
different checksums. -/
theorem window_detected (h : poly.msb = true) {xs ys : List (BitVec 8)}
    (hlen : xs.length = ys.length) (hfit : 8 * xs.length ≤ w)
    (before after : List (BitVec 8))
    (heq : (before ++ (xs ++ after)).foldl (feed poly) a
      = (before ++ (ys ++ after)).foldl (feed poly) a) : xs = ys := by
  simp only [List.foldl_append] at heq
  have hwindow := foldl_feed_injective h after heq
  rw [foldl_feed xs hfit, foldl_feed ys (hlen ▸ hfit), hlen] at hwindow
  have hword := shift_injective h _ hwindow
  exact word_injective hlen hfit (by simpa using hword)

end Crc

end Lib
