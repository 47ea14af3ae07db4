/-
The log writer (include/wal_writer.h, src/coordinator/wal_writer.c).

A writer runs over a machine whose script answers its system calls, so a
run may return or stop inside any call. The first I/O failure is latched:
the writer refuses every later append. Descriptors are only compared with
-1, so they are flags here; `ioAttached` is `io != NULL`. Arguments that
only matter to the operating system (paths, modes) are left out.
-/
import Faultline.Lib.Syscall
import Faultline.Wal.Format

namespace Faultline

open Lib

inductive WalWriterState where
  | closed
  | ready
  | failed
  | recovering
deriving DecidableEq, Repr

inductive WalWriterResult where
  | ok
  | invalidArgument
  | invalidState
  | invalidRecord
  | sequenceExhausted
  | ioError
deriving DecidableEq, Repr

inductive WalWriterOperation where
  | none
  | allocatePath
  | openDirectory
  | createFile
  | lock
  | writeHeader
  | syncHeader
  | syncDirectory
  | writeRecord
  | syncRecord
  | closeFile
  | closeDirectory
  | openExisting
  | statFile
  | readFile
  | allocateReplay
  | validateReplay
  | truncateTail
  | syncRecovery
deriving DecidableEq, Repr

structure WalWriter where
  fdOpen : Bool
  directoryFdOpen : Bool
  state : WalWriterState
  /-- Zero after committing the last sequence number. -/
  nextSequence : UInt64
  syncedSequence : UInt64
  systemError : Nat
  failedOperation : WalWriterOperation
  ioAttached : Bool
deriving DecidableEq, Repr

/-- `FAULTLINE_WAL_WRITER_INIT`. -/
def walWriterInit : WalWriter :=
  { fdOpen := false, directoryFdOpen := false, state := .closed,
    nextSequence := 0, syncedSequence := 0, systemError := 0,
    failedOperation := .none, ioAttached := false }

/-- The writer and the machine under it. -/
structure WalCtx where
  writer : WalWriter
  machine : Machine
deriving DecidableEq, Repr

def enoent : Nat := 2
def enomem : Nat := 12
def eexist : Nat := 17
def eoverflow : Nat := 75
def eilseq : Nat := 84

-- ==================================================== primitives

def walWriterFail (writer : WalWriter) (operation : WalWriterOperation)
    (error : Nat) : WalWriter :=
  if writer.state != .failed then
    { writer with
      systemError := if error != 0 then error else eio
      failedOperation := operation
      state := .failed }
  else writer

namespace WalCtx

def onMachine {α : Type} (p : Prog Machine α) : Prog WalCtx α :=
  Prog.zoom WalCtx.machine (fun machine c => { c with machine }) p

def setWriter (update : WalWriter → WalWriter) : Prog WalCtx Unit :=
  fun c => .done () { c with writer := update c.writer }

/-- Latch a failure and report it. -/
def failWith (operation : WalWriterOperation) (error : Nat) :
    Prog WalCtx WalWriterResult :=
  fun c => .done .ioError
    { c with writer := walWriterFail c.writer operation error }

/-- A call without effect on the file, retried while interrupted. -/
def call : Prog WalCtx (Except Nat Unit) :=
  onMachine (Machine.retry id fun _ disk => disk)

/-- Turn a call's answer into the writer's result. -/
def checked (operation : WalWriterOperation)
    (p : Prog WalCtx (Except Nat Unit)) : Prog WalCtx WalWriterResult := do
  match ← p with
  | .ok () => return .ok
  | .error errno => failWith operation errno

/-- Run the next step only after an OK. -/
def andThen (p q : Prog WalCtx WalWriterResult) :
    Prog WalCtx WalWriterResult := do
  match ← p with
  | .ok => q
  | result => return result

end WalCtx

open WalCtx

def writeAll (bytes : List UInt8) (operation : WalWriterOperation) :
    Prog WalCtx WalWriterResult :=
  checked operation (onMachine (Machine.writeAll bytes))

/-- `fsync` of the log file. -/
def walWriterSyncFile (operation : WalWriterOperation) :
    Prog WalCtx WalWriterResult :=
  checked operation (onMachine (Machine.retry Disk.sync fun _ disk => disk))

/-- `fsync` of its directory. -/
def walWriterSyncDirectory : Prog WalCtx WalWriterResult :=
  checked .syncDirectory call

-- ========================================================= open

/-- `openat`: exclusive creation, or opening what must exist. -/
def openAt (create : Bool) : Prog WalCtx WalWriterResult := fun c =>
  if create then
    if c.machine.disk.present then
      (andThen (checked .createFile call) (failWith .createFile eexist)) c
    else
      checked .createFile
        (onMachine (Machine.retry Disk.create fun _ disk => disk)) c
  else if c.machine.disk.present then checked .openExisting call c
  else
    (andThen (checked .openExisting call) (failWith .openExisting enoent)) c

def walWriterOpenFile (create : Bool) : Prog WalCtx WalWriterResult :=
  fun c =>
    if c.writer.state == .failed then .done .ioError c
    else if c.writer.state != .closed || c.writer.fdOpen
        || c.writer.directoryFdOpen then .done .invalidState c
    else
      (do setWriter fun w =>
            { w with ioAttached := true, nextSequence := 0,
                     syncedSequence := 0 }
          andThen (checked .allocatePath call) <|
          andThen (checked .openDirectory call) <| do
          setWriter fun w => { w with directoryFdOpen := true }
          andThen (openAt create) <| do
          setWriter fun w => { w with fdOpen := true }
          andThen (checked .statFile call) <|
          andThen (checked .lock call) <| do
          setWriter fun w => { w with state := .recovering }
          return .ok) { c with machine := { c.machine with offset := 0 } }

def walWriterCreate : Prog WalCtx WalWriterResult :=
  andThen (walWriterOpenFile true) <|
  andThen (writeAll walFileHeaderEncode .writeHeader) <|
  andThen (walWriterSyncFile .syncHeader) <|
  andThen walWriterSyncDirectory <| do
  setWriter fun w => { w with nextSequence := 1, state := .ready }
  return .ok

-- ======================================================= append

/-- `sequence == UINT64_MAX ? 0 : sequence + 1`. -/
def nextSequenceAfter (sequence : UInt64) : UInt64 :=
  if sequence == 0xffffffffffffffff then 0 else sequence + 1

def walWriterAppend (record : WalRecord) : Prog WalCtx WalWriterResult :=
  fun c =>
    if c.writer.state == .failed then .done .ioError c
    else if c.writer.state != .ready then .done .invalidState c
    else if c.writer.nextSequence == 0 then .done .sequenceExhausted c
    else if record.sequence != c.writer.nextSequence then
      .done .invalidRecord c
    else
      match walRecordEncode record walMaxRecordSize with
      | .error _ => .done .invalidRecord c
      | .ok bytes =>
          (andThen (writeAll bytes .writeRecord) <|
            andThen (walWriterSyncFile .syncRecord) <| do
            setWriter fun w =>
              { w with syncedSequence := record.sequence
                       nextSequence := nextSequenceAfter record.sequence }
            return .ok) c

-- ======================================================== close

/-- Close one descriptor, never retrying. -/
def closeDescriptor (isOpen : Bool) (operation : WalWriterOperation) :
    Prog WalCtx Unit := do
  if isOpen then
    match ← onMachine Machine.once with
    | .ok () => return ()
    | .error errno => setWriter fun w => walWriterFail w operation errno
  else return ()

/-- The last step of a close: a failed writer stays failed. -/
def closeState : Prog WalCtx WalWriterResult := fun c =>
  if c.writer.state == .failed then .done .ioError c
  else .done .ok { c with writer := { c.writer with state := .closed } }

def walWriterClose : Prog WalCtx WalWriterResult := fun c =>
  if !c.writer.ioAttached && (c.writer.fdOpen || c.writer.directoryFdOpen) then
    .done .invalidState c
  else
    (do setWriter fun w => { w with fdOpen := false }
        closeDescriptor c.writer.fdOpen .closeFile
        setWriter fun w => { w with directoryFdOpen := false }
        closeDescriptor c.writer.directoryFdOpen .closeDirectory
        closeState) c

end Faultline
