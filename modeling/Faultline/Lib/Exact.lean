/-
Machine words that may not wrap.

Words are natural numbers and integers here. An operation whose result does
not fit its type, that divides by zero, or that stores outside its buffer is
a fault and ends the computation, so a computation that returns has computed
every value exactly as the machine does.
-/
import Mathlib.Algebra.Group.Int.Defs
import Mathlib.Algebra.Group.Nat.Defs

namespace Lib

/-- Why an operation has no exact result. -/
inductive Fault where
  | overflow
  | divisionByZero
  | outOfBounds
deriving DecidableEq, Repr

/-- A result that has to be below a bound. -/
def fitting (bound value : Nat) : Except Fault Nat :=
  if value < bound then .ok value else .error .overflow

/-- A result that has to be an `int`. -/
def fittingInt (value : Int) : Except Fault Int :=
  if -2 ^ 31 ≤ value ∧ value < 2 ^ 31 then .ok value else .error .overflow

/-- A result that has to be an `int64_t`. -/
def fittingInt64 (value : Int) : Except Fault Int :=
  if -2 ^ 63 ≤ value ∧ value < 2 ^ 63 then .ok value else .error .overflow

def quotient (dividend divisor : Nat) : Except Fault Nat :=
  if divisor = 0 then .error .divisionByZero else .ok (dividend / divisor)

def remainder (dividend divisor : Nat) : Except Fault Nat :=
  if divisor = 0 then .error .divisionByZero else .ok (dividend % divisor)

/-- `buffer[position] = value`, within the capacity of the buffer. -/
def storing {α : Type} (capacity : Nat) (buffer : List α) (position : Nat)
    (value : α) : Except Fault (List α) :=
  if position < capacity then .ok (buffer.set position value)
  else .error .outOfBounds

variable {bound value dividend divisor : Nat}

@[simp] theorem fitting_ok (h : value < bound) :
    fitting bound value = .ok value := if_pos h

@[simp] theorem fittingInt_ok {value : Int} (hlow : -2 ^ 31 ≤ value)
    (hhigh : value < 2 ^ 31) : fittingInt value = .ok value :=
  if_pos ⟨hlow, hhigh⟩

@[simp] theorem fittingInt64_ok {value : Int} (hlow : -2 ^ 63 ≤ value)
    (hhigh : value < 2 ^ 63) : fittingInt64 value = .ok value :=
  if_pos ⟨hlow, hhigh⟩

@[simp] theorem quotient_ok (h : divisor ≠ 0) :
    quotient dividend divisor = .ok (dividend / divisor) := if_neg h

@[simp] theorem remainder_ok (h : divisor ≠ 0) :
    remainder dividend divisor = .ok (dividend % divisor) := if_neg h

@[simp] theorem storing_ok {α : Type} {capacity position : Nat}
    {buffer : List α} {value : α} (h : position < capacity) :
    storing capacity buffer position value = .ok (buffer.set position value) :=
  if_pos h

/-- A computation goes on with what was returned. -/
theorem ok_bind {ε α β : Type} (a : α) (f : α → Except ε β) :
    (Except.ok a >>= f) = f a := rfl

end Lib
