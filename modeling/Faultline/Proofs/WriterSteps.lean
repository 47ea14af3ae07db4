/-
What the writer's programs do to the disk.

`Steps good D P p S` is the one shape every writer program is specified
in: from `P` it returns OK in `S`, or a call fails or the machine stops,
and then the disk satisfies `D`. The ghost `good` says that the
environment cooperates; failures refute it. One statement therefore reads
in two ways. With `good` false it holds under every script, and with
`good` true and enough completions promised it says that the program
returns OK.
-/
import Faultline.Wal.Codec
import Faultline.Wal.Writer

namespace Faultline

open Lib WalCtx

-- ======================================================== steps

/-- A point between two calls: the disk, the read position, the writer,
and how many more calls a cooperating environment completes. -/
structure At (good : Prop) (d : Disk) (o : Nat) (w : WalWriter) (n : Nat)
    (c : WalCtx) : Prop where
  disk : c.machine.disk = d
  offset : c.machine.offset = o
  writer : c.writer = w
  ready : good → c.machine.Ready n

/-- A failure: the disk is in `D`, the writer has latched it, and the
environment did not cooperate. -/
structure Broke (good : Prop) (D : Disk → Prop) (c : WalCtx) : Prop where
  disk : D c.machine.disk
  latched : c.writer.state = .failed
  uncooperative : ¬ good

/-- The machine stopped inside a call. -/
structure Stopped (good : Prop) (D : Disk → Prop) (c : WalCtx) : Prop where
  disk : D c.machine.disk
  uncooperative : ¬ good

def Steps (good : Prop) (D : Disk → Prop) (P : WalCtx → Prop)
    (p : Prog WalCtx WalWriterResult) (S : WalCtx → Prop) : Prop :=
  Prog.Triple P p
    (fun r c => r = .ok ∧ S c ∨ r = .ioError ∧ Broke good D c)
    (Stopped good D)

variable {good : Prop} {D D' : Disk → Prop} {P Q S : WalCtx → Prop}
  {p q : Prog WalCtx WalWriterResult} {d : Disk} {o n : Nat} {w : WalWriter}

theorem At.mono {k : Nat} {c : WalCtx} (h : At good d o w n c) (hk : k ≤ n) :
    At good d o w k c :=
  ⟨h.disk, h.offset, h.writer, fun hg => (h.ready hg).mono hk⟩

@[simp] theorem walWriterFail_state (w : WalWriter)
    (operation : WalWriterOperation) (error : Nat) :
    (walWriterFail w operation error).state = .failed := by
  unfold walWriterFail
  split
  · rfl
  · rename_i h
    simpa using h

theorem Steps.andThen (hp : Steps good D P p Q) (hq : Steps good D Q q S) :
    Steps good D P (andThen p q) S := by
  refine Prog.Triple.bind hp fun r c hc => ?_
  rcases hc with ⟨rfl, hQ⟩ | ⟨rfl, hbroke⟩
  · exact hq c hQ
  · exact Or.inr ⟨rfl, hbroke⟩

theorem Steps.pre (hp : Steps good D P p S) (h : ∀ c, Q c → P c) :
    Steps good D Q p S :=
  fun c hc => hp c (h c hc)

/-- A program that sets the writer and goes on. -/
theorem steps_setWriter {update : WalWriter → WalWriter}
    (hp : Steps good D (At good d o (update w) n) p S) :
    Steps good D (At good d o w n) (do setWriter update; p) S := by
  intro c hc
  refine hp { c with writer := update c.writer } ⟨hc.disk, hc.offset, ?_,
    hc.ready⟩
  rw [hc.writer]

theorem steps_return (h : ∀ c, P c → S c) :
    Steps good D P (return .ok) S :=
  fun c hc => Or.inl ⟨rfl, h c hc⟩

/-- A raw call returns `ok` in `S`, or an error with the disk in `D`. -/
def Calls (good : Prop) (D : Disk → Prop) (P : WalCtx → Prop)
    (p : Prog WalCtx (Except Nat Unit)) (S : WalCtx → Prop) : Prop :=
  Prog.Triple P p
    (fun r c => r = .ok () ∧ S c
      ∨ ∃ errno, r = .error errno ∧ D c.machine.disk ∧ ¬ good)
    (Stopped good D)

theorem Calls.checked {p : Prog WalCtx (Except Nat Unit)}
    (h : Calls good D P p S) (operation : WalWriterOperation) :
    Steps good D P (checked operation p) S := by
  refine Prog.Triple.bind h fun r c hc => ?_
  rcases hc with ⟨rfl, hS⟩ | ⟨errno, rfl, hdisk, hng⟩
  · exact Or.inl ⟨rfl, hS⟩
  · exact Or.inr ⟨rfl, hdisk, walWriterFail_state _ _ _, hng⟩

/-- One retried call. -/
theorem calls_retry {effect : Disk → Disk} {errorEffect : Nat → Disk → Disk}
    (hstop : D d) (herror : ∀ applied, D (errorEffect applied d)) :
    Calls good D (At good d o w (n + 1))
      (onMachine (Machine.retry effect errorEffect))
      (At good (effect d) o w n) := by
  intro c hc
  have hspec := Machine.retry_retried effect errorEffect c.machine
  have htotal := fun hg => Machine.retry_total effect errorEffect (hc.ready hg)
  unfold onMachine
  simp only [Prog.zoom]
  cases hrun : Machine.retry effect errorEffect c.machine with
  | crash m' =>
      rw [hrun] at hspec htotal
      refine ⟨?_, fun hg => ?_⟩
      · rw [show m'.disk = c.machine.disk from hspec, hc.disk]
        exact hstop
      · obtain ⟨_, h, -⟩ := htotal hg
        cases h
  | done result m' =>
      rw [hrun] at hspec htotal
      cases result with
      | ok =>
          refine Or.inl ⟨rfl, ?_, ?_, hc.writer, fun hg => ?_⟩
          · rw [show m'.disk = effect c.machine.disk from hspec.1, hc.disk]
          · exact hspec.2.trans hc.offset
          · obtain ⟨_, h, hready⟩ := htotal hg
            cases h
            exact hready
      | error errno =>
          refine Or.inr ⟨errno, rfl, ?_, fun hg => ?_⟩
          · obtain ⟨⟨applied, hdisk⟩, -⟩ := hspec
            rw [show m'.disk = _ from hdisk, hc.disk]
            exact herror applied
          · obtain ⟨_, h, -⟩ := htotal hg
            cases h

theorem calls_call (hd : D d) :
    Calls good D (At good d o w (n + 1)) call (At good d o w n) :=
  calls_retry hd fun _ => hd

theorem steps_call (operation : WalWriterOperation) (hd : D d) :
    Steps good D (At good d o w (n + 1)) (checked operation call)
      (At good d o w n) :=
  (calls_call hd).checked operation

theorem steps_syncFile (operation : WalWriterOperation) (hd : D d) :
    Steps good D (At good d o w (n + 1)) (walWriterSyncFile operation)
      (At good d.sync o w n) :=
  (calls_retry hd fun _ => hd).checked operation

theorem steps_syncDirectory (hd : D d) :
    Steps good D (At good d o w (n + 1)) walWriterSyncDirectory
      (At good d o w n) :=
  steps_call _ hd

/-- A write appends its bytes, or a prefix of them. -/
theorem calls_writeAll (bytes : List UInt8)
    (hpart : ∀ part, part <+: bytes → D (d.append part)) :
    Calls good D (At good d o w (n + bytes.length))
      (onMachine (Machine.writeAll bytes))
      (At good (d.append bytes) o w n) := by
  intro c hc
  have hspec := Machine.writeAll_wrote bytes c.machine
  have htotal := fun hg => Machine.writeAll_total bytes (hc.ready hg)
  unfold onMachine
  simp only [Prog.zoom]
  cases hrun : Machine.writeAll bytes c.machine with
  | crash m' =>
      rw [hrun] at hspec htotal
      refine ⟨?_, fun hg => ?_⟩
      · obtain ⟨part, hp, hdisk⟩ := hspec
        rw [show m'.disk = _ from hdisk, hc.disk]
        exact hpart part hp
      · obtain ⟨_, h, -⟩ := htotal hg
        cases h
  | done result m' =>
      rw [hrun] at hspec htotal
      cases result with
      | ok =>
          refine Or.inl ⟨rfl, ?_, ?_, hc.writer, fun hg => ?_⟩
          · rw [show m'.disk = _ from hspec.1, hc.disk]
          · exact hspec.2.trans hc.offset
          · obtain ⟨_, h, hready⟩ := htotal hg
            cases h
            exact hready
      | error errno =>
          refine Or.inr ⟨errno, rfl, ?_, fun hg => ?_⟩
          · obtain ⟨⟨part, hp, hdisk⟩, -⟩ := hspec
            rw [show m'.disk = _ from hdisk, hc.disk]
            exact hpart part hp
          · obtain ⟨_, h, -⟩ := htotal hg
            cases h

theorem steps_writeAll (bytes : List UInt8) (operation : WalWriterOperation)
    (hpart : ∀ part, part <+: bytes → D (d.append part)) :
    Steps good D (At good d o w (n + bytes.length))
      (writeAll bytes operation) (At good (d.append bytes) o w n) :=
  (calls_writeAll bytes hpart).checked operation

-- ===================================================== programs

/-- A writer that may be opened. -/
structure WalWriter.Closed (w : WalWriter) : Prop where
  state : w.state = .closed
  fd : w.fdOpen = false
  directory : w.directoryFdOpen = false

theorem walWriterInit_closed : walWriterInit.Closed := ⟨rfl, rfl, rfl⟩

/-- The writer after a successful open of the file. -/
def WalWriter.opened (w : WalWriter) : WalWriter :=
  { w with
    ioAttached := true, nextSequence := 0, syncedSequence := 0,
    directoryFdOpen := true, fdOpen := true, state := .recovering }

theorem steps_openAt_existing (hp : d.present = true) (hd : D d) :
    Steps good D (At good d o w (n + 1)) (openAt false)
      (At good d o w n) := by
  intro c hc
  have hrun : openAt false c = checked .openExisting call c := by
    simp [openAt, hc.disk, hp]
  rw [hrun]
  exact steps_call _ hd c hc

theorem steps_openAt_create (hp : d.present = false) (hd : D d) :
    Steps good D (At good d o w (n + 1)) (openAt true)
      (At good d.create o w n) := by
  intro c hc
  have hrun : openAt true c = checked .createFile
      (onMachine (Machine.retry Disk.create fun _ disk => disk)) c := by
    simp [openAt, hc.disk, hp]
  rw [hrun]
  exact (calls_retry hd fun _ => hd).checked _ c hc

/-- Creating what exists and opening what does not always fail. -/
theorem steps_openAt_refused {create : Bool} (hp : d.present = create)
    (hd : D d) :
    Steps False D (At False d o w (n + 1)) (openAt create)
      (fun _ => False) := by
  have hfail (operation : WalWriterOperation) (error : Nat) :
      Steps False D (At False d o w n) (failWith operation error)
        (fun _ => False) := by
    intro c hc
    refine Or.inr ⟨rfl, ?_, walWriterFail_state _ _ _, fun h => h⟩
    show D c.machine.disk
    rw [hc.disk]
    exact hd
  intro c hc
  cases create with
  | true =>
      have hrun : openAt true c = andThen (checked .createFile call)
          (failWith .createFile eexist) c := by
        simp [openAt, hc.disk, hp]
      rw [hrun]
      exact ((steps_call _ hd).andThen (hfail _ _)) c hc
  | false =>
      have hrun : openAt false c = andThen (checked .openExisting call)
          (failWith .openExisting enoent) c := by
        simp [openAt, hc.disk, hp]
      rw [hrun]
      exact ((steps_call _ hd).andThen (hfail _ _)) c hc

/-- Opening is two calls, `openAt`, and two calls more. -/
theorem steps_openFile {create : Bool} {Q : WalCtx → Prop} (hw : w.Closed)
    (hd : D d)
    (hopen : Steps good D
      (At good d 0 { w with
        ioAttached := true, nextSequence := 0, syncedSequence := 0,
        directoryFdOpen := true } n) (openAt create) Q)
    (hrest : Steps good D Q
      (do setWriter fun w => { w with fdOpen := true }
          andThen (checked .statFile call) <|
          andThen (checked .lock call) <| do
          setWriter fun w => { w with state := .recovering }
          return .ok) S) :
    Steps good D (At good d o w (n + 2)) (walWriterOpenFile create) S := by
  intro c hc
  unfold walWriterOpenFile
  rw [hc.writer, if_neg (by rw [hw.state]; decide),
    if_neg (by rw [hw.state, hw.fd, hw.directory]; decide)]
  have hstart : At good d 0 w (n + 2)
      { writer := w, machine := { c.machine with offset := 0 } } :=
    ⟨hc.disk, rfl, rfl, fun hg =>
      ⟨(hc.ready hg).cooperative, (hc.ready hg).enough⟩⟩
  refine steps_setWriter ((steps_call _ hd).andThen
    ((steps_call _ hd).andThen (steps_setWriter ?_))) _ hstart
  exact hopen.andThen hrest

/-- The two calls behind `openAt`. -/
theorem steps_lockFile (hd : D d) :
    Steps good D (At good d o w (n + 2))
      (do setWriter fun w => { w with fdOpen := true }
          andThen (checked .statFile call) <|
          andThen (checked .lock call) <| do
          setWriter fun w => { w with state := .recovering }
          return .ok)
      (At good d o { w with fdOpen := true, state := .recovering } n) :=
  steps_setWriter ((steps_call _ hd).andThen ((steps_call _ hd).andThen
    (steps_setWriter (steps_return fun _ h => h))))

theorem steps_openFile_existing (hw : w.Closed) (hp : d.present = true)
    (hd : D d) :
    Steps good D (At good d o w (n + 5)) (walWriterOpenFile false)
      (At good d 0 w.opened n) :=
  steps_openFile hw hd (steps_openAt_existing hp hd) (steps_lockFile hd)

theorem steps_openFile_create (hw : w.Closed) (hp : d.present = false)
    (hd : D d) (hc : D d.create) :
    Steps good D (At good d o w (n + 5)) (walWriterOpenFile true)
      (At good d.create 0 w.opened n) :=
  steps_openFile hw hd (steps_openAt_create hp hd) (steps_lockFile hc)

theorem steps_openFile_refused {create : Bool} (hw : w.Closed)
    (hp : d.present = create) (hd : D d) :
    Steps False D (At False d o w (n + 3)) (walWriterOpenFile create)
      (fun _ => False) :=
  steps_openFile hw hd (steps_openAt_refused hp hd) fun _ h => h.elim

/-- The writer after a log is created. -/
def WalWriter.created (w : WalWriter) : WalWriter :=
  { w.opened with nextSequence := 1, state := .ready }

theorem steps_create (hw : w.Closed) (hp : d.present = false) (hd : D d)
    (hc : ∀ part, part <+: walFileHeaderEncode → D (d.create.append part))
    (hs : D (d.create.append walFileHeaderEncode).sync) :
    Steps good D (At good d o w (n + 2 + walFileHeaderEncode.length + 5))
      walWriterCreate
      (At good (d.create.append walFileHeaderEncode).sync 0 w.created n) := by
  have hcreate : D d.create := by
    have := hc [] List.nil_prefix
    rwa [Disk.append_nil] at this
  exact (steps_openFile_create hw hp hd hcreate).andThen
    ((steps_writeAll _ _ hc).andThen
    ((steps_syncFile _ (hc _ (List.prefix_refl _))).andThen
    ((steps_syncDirectory hs).andThen
    (steps_setWriter (steps_return fun _ h => h)))))

/-- The writer after an append. -/
def WalWriter.appended (w : WalWriter) (sequence : UInt64) : WalWriter :=
  { w with
    syncedSequence := sequence, nextSequence := nextSequenceAfter sequence }

/-- An append by a ready writer writes the record and syncs it. -/
theorem steps_append {record : WalRecord} (hw : w.state = .ready)
    (hseq : record.sequence = w.nextSequence) (hne : record.sequence ≠ 0)
    (henc : record.entry.encodable = true)
    (hpart : ∀ part, part <+: recordBytes record → D (d.append part)) :
    Steps good D
      (At good d o w (n + 1 + (recordBytes record).length))
      (walWriterAppend record)
      (At good (d.append (recordBytes record)).sync o
        (w.appended record.sequence) n) := by
  intro c hc
  unfold walWriterAppend
  rw [hc.writer, hw, if_neg (by decide), if_neg (by decide),
    if_neg (by rw [← hseq]; simpa using hne), if_neg (by simpa using hseq),
    walRecordEncode_ok_iff.mpr ⟨hne, henc, length_recordBytes_le henc, rfl⟩]
  exact (steps_writeAll _ _ hpart).andThen
    ((steps_syncFile _ (hpart _ (List.prefix_refl _))).andThen
    (steps_setWriter (steps_return fun _ h => h))) c hc

-- ==================================================== returning

/-- A point with at least `n` answers to come. -/
def Answered (n : Nat) (c : WalCtx) : Prop := n ≤ answers c.machine.script

theorem onMachine_triple {α : Type} {p : Prog Machine α}
    {P R : Machine → Prop} {Q : α → Machine → Prop}
    (h : Prog.Triple P p Q R) :
    Prog.Triple (fun c => P c.machine) (onMachine p)
      (fun r c => Q r c.machine) (fun c => R c.machine) := by
  intro c hc
  have hrun := h c.machine hc
  unfold onMachine
  simp only [Prog.zoom]
  cases hp : p c.machine <;> (rw [hp] at hrun; exact hrun)

theorem checked_returns {p : Prog WalCtx (Except Nat Unit)} {k : Nat}
    (h : Prog.Triple (Answered k) p (fun _ => Answered n) (fun _ => False))
    (operation : WalWriterOperation) :
    Prog.Triple (Answered k) (checked operation p) (fun _ => Answered n)
      (fun _ => False) := by
  refine Prog.Triple.bind h fun r c hc => ?_
  cases r <;> exact hc

theorem andThen_returns {k m : Nat}
    (hp : Prog.Triple (Answered k) p (fun _ => Answered m) (fun _ => False))
    (hq : Prog.Triple (Answered m) q (fun _ => Answered n) (fun _ => False))
    (hle : n ≤ m) :
    Prog.Triple (Answered k) (andThen p q) (fun _ => Answered n)
      (fun _ => False) := by
  refine Prog.Triple.bind hp fun r c hc => ?_
  cases r with
  | ok => exact hq c hc
  | _ => exact Nat.le_trans hle hc

/-- An append returns once it has been answered often enough. -/
theorem append_returns (record : WalRecord) (n : Nat) :
    Prog.Triple (Answered (n + (walMaxRecordSize + 1)))
      (walWriterAppend record) (fun _ => Answered n) (fun _ => False) := by
  intro c hc
  have hdone : Answered n c :=
    Nat.le_trans (Nat.le_add_right _ _) hc
  unfold walWriterAppend
  by_cases hfailed : (c.writer.state == .failed) = true
  · rw [if_pos hfailed]
    exact hdone
  by_cases hready : (c.writer.state != .ready) = true
  · rw [if_neg hfailed, if_pos hready]
    exact hdone
  by_cases hnext : (c.writer.nextSequence == 0) = true
  · rw [if_neg hfailed, if_neg hready, if_pos hnext]
    exact hdone
  by_cases hnumber : (record.sequence != c.writer.nextSequence) = true
  · rw [if_neg hfailed, if_neg hready, if_neg hnext, if_pos hnumber]
    exact hdone
  rw [if_neg hfailed, if_neg hready, if_neg hnext, if_neg hnumber]
  cases hencode : walRecordEncode record walMaxRecordSize with
  | error e => exact hdone
  | ok bytes =>
  obtain ⟨-, -, hlen, rfl⟩ := walRecordEncode_ok_iff.mp hencode
  refine andThen_returns (m := n + 1)
    (checked_returns (onMachine_triple (Machine.writeAll_returns _ _)) _)
    (andThen_returns (m := n) (checked_returns
      (onMachine_triple (Machine.retry_returns _ _ _)) _)
      (fun _ h => h) (Nat.le_refl n)) (Nat.le_succ n) c ?_
  refine Nat.le_trans ?_ hc
  omega

end Faultline
