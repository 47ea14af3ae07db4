/-
Escaping bytes for the log (src/common/log.c).

The output is the caller's buffer, of at least the capacity it gives. The
first loop sizes the text, the second writes it; a call that fails has
written nothing.
-/
import Faultline.Lib.Exact

namespace Faultline

open Lib

/-- `printable`. -/
def logPrintable (byte : UInt8) : Bool :=
  byte ≥ 0x20 && byte ≤ 0x7e && byte != 0x22 && byte != 0x5c

/-- `"0123456789abcdef"`. -/
def logHex : List UInt8 :=
  [0x30, 0x31, 0x32, 0x33, 0x34, 0x35, 0x36, 0x37, 0x38, 0x39, 0x61, 0x62,
    0x63, 0x64, 0x65, 0x66]

/-- `hex[digit]`. -/
def logHexDigit (digit : UInt8) : UInt8 := logHex.getD digit.toNat 0

/-- The first loop. -/
def escapeSize : List UInt8 → Nat → Except Fault Nat
  | [], needed => .ok needed
  | byte :: bytes, needed => do
      let needed ← fitting (2 ^ 64) (needed + if logPrintable byte then 1 else 4)
      escapeSize bytes needed

/-- The second loop. -/
def escapeWrite (capacity : Nat) :
    List UInt8 → Nat → List UInt8 → Except Fault (Nat × List UInt8)
  | [], position, output => .ok (position, output)
  | byte :: bytes, position, output =>
      if logPrintable byte then do
        let output ← storing capacity output position byte
        escapeWrite capacity bytes (position + 1) output
      else do
        let output ← storing capacity output position 0x5c
        let output ← storing capacity output (position + 1) 0x78
        let output ← storing capacity output (position + 2)
          (logHexDigit (byte >>> 4))
        let output ← storing capacity output (position + 3)
          (logHexDigit (byte &&& 15))
        escapeWrite capacity bytes (position + 4) output

/-- `faultline_log_escape`: whether it succeeded, and the output. -/
def logEscape (output : List UInt8) (capacity : Nat) (bytes : List UInt8) :
    Except Fault (Bool × List UInt8) :=
  if bytes.length > (2 ^ 64 - 1 - 1) / 4 then .ok (false, output)
  else do
    let needed ← escapeSize bytes 1
    if needed > capacity then return (false, output)
    else do
      let (position, output) ← escapeWrite capacity bytes 0 output
      let output ← storing capacity output position 0
      return (true, output)

end Faultline
