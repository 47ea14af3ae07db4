/-
Numbers on the command line: ports and durations (src/common/net.c), retries
and job ids (src/cli/main.c).

A text is the bytes before its terminating NUL. Every parser is a loop over
the characters with its own check against overflow, written as the source
has it; a parser returns whether it succeeded and what its output cell then
holds. Characters are compared as unsigned here: a byte above 127 is below
'0' or above '9' either way, and no digit.
-/
import Faultline.Lib.Decimal

namespace Faultline

open Lib

/-- `*cursor < '0' || *cursor > '9'`. -/
def notDigit (c : UInt8) : Bool := c < 48 || c > 57

/-- Fail on an empty text or a refused character; store what was read if it
passes a last check. -/
def parseText {α : Type} (step : α → UInt8 → Except Fault (Option α))
    (zero : α) (passes : α → Bool) (text : List UInt8) (cell : α) :
    Except Fault (Bool × α) :=
  if text.isEmpty then .ok (false, cell)
  else
    match scanText step text zero with
    | .error fault => .error fault
    | .ok none => .ok (false, cell)
    | .ok (some value) =>
        if passes value then .ok (true, value) else .ok (false, cell)

/-- The bound is checked after the arithmetic. -/
def portStep (value : Nat) (c : UInt8) : Except Fault (Option Nat) :=
  if notDigit c then .ok none
  else do
    let product ← fitting (2 ^ 32) (value * 10)
    let value ← fitting (2 ^ 32) (product + (c.toNat - 48))
    if value > 0xffff then return none else return some value

def parsePort (text : List UInt8) (port : Nat) : Except Fault (Bool × Nat) :=
  parseText portStep 0 (· != 0) text port

/-- The bound is checked before the arithmetic, which is signed. -/
def durationStep (value : Int) (c : UInt8) : Except Fault (Option Int) := do
  let digit ← fittingInt ((c.toNat : Int) - 48)
  if digit < 0 || digit > 9 || value > (0x7fffffff - digit) / 10 then
    return none
  else do
    let product ← fittingInt (value * 10)
    let value ← fittingInt (product + digit)
    return some value

def parseDurationMs (text : List UInt8) (durationMs : Int) :
    Except Fault (Bool × Int) :=
  parseText durationStep 0 (· != 0) text durationMs

/-- The step of the unsigned parsers that check first, in a type with a
greatest value. -/
def checkedStep (greatest value : Nat) (c : UInt8) :
    Except Fault (Option Nat) :=
  if notDigit c then .ok none
  else if value > (greatest - (c.toNat - 48)) / 10 then .ok none
  else do
    let product ← fitting (greatest + 1) (value * 10)
    let value ← fitting (greatest + 1) (product + (c.toNat - 48))
    return some value

def parseRetries (text : List UInt8) (retries : Nat) :
    Except Fault (Bool × Nat) :=
  parseText (checkedStep (2 ^ 32 - 1)) 0 (fun _ => true) text retries

def parseJobId (text : List UInt8) (jobId : Nat) : Except Fault (Bool × Nat) :=
  parseText (checkedStep (2 ^ 64 - 1)) 0 (· != 0) text jobId

end Faultline
