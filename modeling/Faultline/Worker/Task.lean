/-
The task executor (include/task.h, src/worker/task.c).

A run reads the environment again and again: whether it has been cancelled,
the clock, how a nap ended. The readings are numbered, and the executor
counts them. Loops are bounded by fuel, and words may not wrap (`Fault`)
except in the hash, where wrapping is part of the algorithm.
-/
import Mathlib.Data.Nat.Digits.Defs
import Faultline.Cli.Arguments
import Faultline.Worker.Loop

namespace Faultline

open Lib

def sleepMaxMs : Nat := 86400000
def primeCountMax : Nat := 100000000
def fibonacciMax : Nat := 93

/-- `parse_number`: `number` is its output cell. -/
def numberStep (limit value : Nat) (c : UInt8) : Except Fault (Option Nat) :=
  if notDigit c then .ok none
  else
    let digit := c.toNat - 48
    if value > limit / 10 || (value == limit / 10 && digit > limit % 10) then
      .ok none
    else do
      let product ← fitting (2 ^ 64) (value * 10)
      let value ← fitting (2 ^ 64) (product + digit)
      return some value

def parseNumber (limit : Nat) (bytes : List UInt8) (number : Nat) :
    Except Fault (Bool × Nat) :=
  parseText (numberStep limit) 0 (fun _ => true) bytes number

-- ================================================== environment

/-- How a nap ends. -/
inductive NapEnd where
  | done
  | interrupted
  | failed
deriving DecidableEq, Repr

/-- What a run reads, numbered in the order of reading. -/
structure TaskEnv where
  cancel : Nat → Bool
  clock : Nat → Int64
  nap : Nat → NapEnd

/-- Why a run has no result: the status it returns, or a limit of the
model. -/
inductive TaskStop where
  | status (status : TaskStatus)
  | fault (fault : Fault)
  | fuel
deriving DecidableEq, Repr

/-- An operation on words, within a run. -/
def exactly {α : Type} : Except Fault α → Except TaskStop α
  | .ok value => .ok value
  | .error fault => .error (.fault fault)

/-- An `int64_t`. -/
def fittingInt64 (value : Int) : Except Fault Int :=
  if -2 ^ 63 ≤ value ∧ value < 2 ^ 63 then .ok value else .error .overflow

-- ======================================================== tasks

/-- The loop of `run_sleep`; it returns the number of the next reading. The
length of a nap only delays the next readings. -/
def sleepLoop (env : TaskEnv) (deadline : Int) :
    Nat → Nat → Except TaskStop Nat
  | 0, _ => .error .fuel
  | fuel + 1, k =>
      if env.cancel k then .error (.status .cancelled)
      else if env.clock (k + 1) < 0 then .error (.status .systemError)
      else if (env.clock (k + 1)).toInt ≥ deadline then .ok (k + 2)
      else if env.nap (k + 2) = .failed then .error (.status .systemError)
      else sleepLoop env deadline fuel (k + 3)

def runSleep (env : TaskEnv) (duration fuel k : Nat) :
    Except TaskStop Nat :=
  if env.clock k < 0 then .error (.status .systemError)
  else do
    let deadline ← exactly (fittingInt64 ((env.clock k).toInt + duration))
    sleepLoop env deadline fuel (k + 1)

/-- The inner loop: whether no odd divisor was found, and the number of the
next reading. -/
def primeTest (env : TaskEnv) (candidate : Nat) :
    Nat → Nat → Nat → Except TaskStop (Bool × Nat)
  | 0, _, _ => .error .fuel
  | fuel + 1, divisor, k => do
      let limit ← exactly (quotient candidate divisor)
      if divisor ≤ limit then
        if env.cancel k then .error (.status .cancelled)
        else do
          let rest ← exactly (remainder candidate divisor)
          if rest == 0 then return (false, k + 1)
          else do
            let divisor ← exactly (fitting (2 ^ 64) (divisor + 2))
            primeTest env candidate fuel divisor (k + 1)
      else return (true, k)

/-- The outer loop; `steps` bounds every inner one. -/
def primeLoop (env : TaskEnv) (number steps : Nat) :
    Nat → Nat → Nat → Nat → Except TaskStop (Nat × Nat)
  | 0, _, _, _ => .error .fuel
  | fuel + 1, candidate, count, k =>
      if candidate ≤ number then
        if env.cancel k then .error (.status .cancelled)
        else do
          let (prime, k) ← primeTest env candidate steps 3 (k + 1)
          let count ← exactly (fitting (2 ^ 64)
            (if prime then count + 1 else count))
          let candidate ← exactly (fitting (2 ^ 64) (candidate + 2))
          primeLoop env number steps fuel candidate count k
      else return (count, k)

/-- The PRIME_COUNT branch. -/
def countPrimes (env : TaskEnv) (number fuel k : Nat) :
    Except TaskStop (Nat × Nat) :=
  primeLoop env number fuel fuel 3 (if number ≥ 2 then 1 else 0) k

/-- The loop of the FIBONACCI branch, by the rounds it has left. -/
def fibonacciLoop : Nat → Nat → Nat → Except Fault Nat
  | 0, _, current => .ok current
  | rounds + 1, previous, current => do
      let next ← fitting (2 ^ 64) (previous + current)
      fibonacciLoop rounds current next

def fibonacci (number : Nat) : Except Fault Nat := do
  let current ← fibonacciLoop (number - 1) 0 1
  return if number == 0 then 0 else current

/-- FNV-1a. -/
def hashBytes (arguments : List UInt8) : UInt64 :=
  arguments.foldl (fun hash byte => (hash ^^^ byte.toUInt64) * 1099511628211)
    14695981039346656037

-- ====================================================== results

/-- `"%" PRIu64`. -/
def decimalText (number : Nat) : List UInt8 :=
  if number = 0 then [48]
  else (Nat.digits 10 number).reverse.map fun digit => .ofNat (48 + digit)

def hexDigit (digit : Nat) : UInt8 :=
  if digit < 10 then .ofNat (48 + digit) else .ofNat (87 + digit)

/-- `"%016" PRIx64`. -/
def hexText (word : UInt64) : List UInt8 :=
  (List.range 16).map fun i => hexDigit (word.toNat / 16 ^ (15 - i) % 16)

/-- `"slept_ms="`. -/
def sleptText : List UInt8 := [115, 108, 101, 112, 116, 95, 109, 115, 61]

/-- The number a task is given. -/
def taskNumber (type : TaskType) (arguments : List UInt8) :
    Except TaskStop Nat :=
  let parsed (limit : Nat) : Except TaskStop Nat := do
    let (accepted, number) ← exactly (parseNumber limit arguments 0)
    if accepted then return number else .error (.status .invalidArgument)
  match type with
  | .sleep => parsed sleepMaxMs
  | .primeCount => parsed primeCountMax
  | .fibonacci => parsed fibonacciMax
  | .hash => return 0

/-- The text of a result, and the number of the next reading. -/
def runTask (fuel : Nat) (env : TaskEnv) (type : TaskType) (number : Nat)
    (arguments : List UInt8) (k : Nat) :
    Except TaskStop (List UInt8 × Nat) :=
  match type with
  | .sleep => do
      let k ← runSleep env number fuel k
      return (sleptText ++ decimalText number, k)
  | .primeCount => do
      let (count, k) ← countPrimes env number fuel k
      return (decimalText count, k)
  | .fibonacci => do
      let value ← exactly (fibonacci number)
      return (decimalText value, k)
  | .hash => return (hexText (hashBytes arguments), k)

/-- `faultline_task_execute`: the result of a run that returns OK. -/
def taskExecute (fuel : Nat) (env : TaskEnv) (taskType : UInt16)
    (arguments : List UInt8) : Except TaskStop (List UInt8) :=
  if arguments.length > jobMaxArgumentSize then
    .error (.status .invalidArgument)
  else if env.cancel 0 then .error (.status .cancelled)
  else
    match TaskType.ofCode taskType with
    | none => .error (.status .invalidArgument)
    | some type => do
        let number ← taskNumber type arguments
        let (text, k) ← runTask fuel env type number arguments 1
        if text.length ≥ jobMaxResultSize then .error (.status .systemError)
        else if env.cancel k then .error (.status .cancelled)
        else return text

/-- `execute_task`, if the executor returns: the status, and the result, which
is the one from before unless the status is OK. -/
def executeTask (fuel : Nat) (env : TaskEnv) (assignment : JobAssignPayload)
    (before : List UInt8) : Option TaskOutcome :=
  match taskExecute fuel env assignment.taskType assignment.arguments with
  | .ok text => some { status := .ok, result := text }
  | .error (.status status) => some { status, result := before }
  | .error _ => none

end Faultline
