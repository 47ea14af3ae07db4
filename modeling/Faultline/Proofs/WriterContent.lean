/-
The file under a writer, whatever its system calls answer.

A ready writer takes any sequence of calls. Each append is refused without
effect, or commits its record, or breaks the writer (`append_outcome`); a
writer that is not ready changes nothing any more (`runCalls_idle`). So
the file is what it was, the records of the appends that returned OK, and
at most one prefix of the record that broke the writer.
-/
import Faultline.Proofs.Sessions

namespace Faultline

open Lib WalCtx

variable {record : WalRecord} {c c₁ c₂ c' : WalCtx} {r : WalWriterResult}
  {results : List WalWriterResult}

-- ======================================================== calls

/-- A call on a writer. -/
inductive WriterCall where
  | append (record : WalRecord)
  | close
deriving DecidableEq, Repr

def WriterCall.run : WriterCall → Prog WalCtx WalWriterResult
  | .append record => walWriterAppend record
  | .close => walWriterClose

/-- Calls one after the other, and what they returned. -/
def runCalls : List WriterCall → Prog WalCtx (List WalWriterResult)
  | [] => return []
  | call :: calls => do
      let result ← call.run
      let results ← runCalls calls
      return result :: results

/-- The record of an append that returned OK. -/
def WriterCall.committed : WriterCall × WalWriterResult → Option WalRecord
  | (.append record, .ok) => some record
  | _ => none

/-- The records whose append returned OK. -/
def committed (calls : List WriterCall) (results : List WalWriterResult) :
    List WalRecord :=
  (calls.zip results).filterMap WriterCall.committed

/-- An append that returned IO_ERROR. -/
def WriterCall.broke : WriterCall × WalWriterResult → Bool
  | (.append _, .ioError) => true
  | _ => false

variable {call : WriterCall} {calls before after : List WriterCall}

/-- How a writer becomes ready. -/
inductive WalCtx.Started : WalCtx → Prop where
  | created {c₀ c : WalCtx} (run : walWriterCreate c₀ = .done .ok c) :
      Started c
  | replayed {c₀ c : WalCtx} {report : WalReplayReport}
      {state : WalReplayState}
      (run : walReplayOpen c₀ = .done (.ok, report, some state) c) : Started c

/-- A writer that takes records. -/
structure WalCtx.Appending (c : WalCtx) : Prop where
  ready : c.writer.state = .ready
  next : c.writer.nextSequence = nextSequenceAfter c.writer.syncedSequence

theorem committed_cons : committed (call :: calls) (r :: results)
    = (WriterCall.committed (call, r)).toList ++ committed calls results := by
  unfold committed
  rw [List.zip_cons_cons, List.filterMap_cons]
  cases WriterCall.committed (call, r) <;> rfl

theorem runCalls_cons (h : runCalls (call :: calls) c = .done results c') :
    ∃ result rest c₁, call.run c = .done result c₁
      ∧ runCalls calls c₁ = .done rest c' ∧ results = result :: rest := by
  obtain ⟨result, c₁, hcall, hrest⟩ := Prog.bind_done h
  obtain ⟨rest, c₂, hcalls, hreturn⟩ := Prog.bind_done hrest
  cases hreturn
  exact ⟨result, rest, c₁, hcall, hcalls, rfl⟩

-- ======================================================= append

/-- The numbers stay, and so does a latched failure. -/
structure WalWriter.Latches (w w' : WalWriter) : Prop where
  synced : w'.syncedSequence = w.syncedSequence
  failed : w.state = .failed → w'.state = .failed
    ∧ w'.systemError = w.systemError ∧ w'.failedOperation = w.failedOperation

theorem WalWriter.Latches.refl (w : WalWriter) : w.Latches w :=
  ⟨rfl, fun h => ⟨h, rfl, rfl⟩⟩

theorem WalWriter.Latches.trans {w w₁ w₂ : WalWriter} (h : w.Latches w₁)
    (h' : w₁.Latches w₂) : w.Latches w₂ := by
  refine ⟨h'.synced.trans h.synced, fun hfailed => ?_⟩
  obtain ⟨hfailed, herror, hoperation⟩ := h.failed hfailed
  obtain ⟨hfailed, herror', hoperation'⟩ := h'.failed hfailed
  exact ⟨hfailed, herror'.trans herror, hoperation'.trans hoperation⟩

theorem latches_walWriterFail (w : WalWriter) (operation : WalWriterOperation)
    (errno : Nat) : w.Latches (walWriterFail w operation errno) := by
  unfold walWriterFail
  split
  · rename_i h
    exact ⟨rfl, fun hfailed => absurd hfailed (by simpa using h)⟩
  · exact .refl w

/-- An append broke the writer: the answer that did it was the last one
taken, and the writer has latched the operation and its errno. -/
structure WalCtx.Breaks (c : WalCtx) (record : WalRecord) (c' : WalCtx) :
    Prop where
  disk : ∃ part, part <+: recordBytes record
    ∧ c'.machine.disk = c.machine.disk.append part
  latched : ∃ answered reply operation errno,
    c.machine.script = answered ++ reply :: c'.machine.script
      ∧ (operation = .writeRecord ∧ Machine.writeErrno reply = some errno
        ∨ operation = .syncRecord ∧ Machine.callErrno reply = some errno)
      ∧ c'.writer = walWriterFail c.writer operation errno

theorem WalCtx.Breaks.failed (h : c.Breaks record c') :
    c'.writer.state = .failed ∧ c.writer.Latches c'.writer := by
  obtain ⟨-, -, operation, errno, -, -, hwriter⟩ := h.latched
  rw [hwriter]
  exact ⟨walWriterFail_state _ _ _, latches_walWriterFail _ _ _⟩

/-- What an append can do. -/
inductive WalCtx.Appended (c : WalCtx) (record : WalRecord) :
    Outcome WalCtx WalWriterResult → Prop where
  | refused {r : WalWriterResult} (alive : c.writer.state ≠ .failed)
      (result : r = .invalidState ∨ r = .invalidRecord
        ∨ r = .sequenceExhausted) :
      Appended c record (.done r c)
  | latched (failed : c.writer.state = .failed) :
      Appended c record (.done .ioError c)
  | committed {c' : WalCtx} (ready : c.writer.state = .ready)
      (number : record.sequence = c.writer.nextSequence)
      (encodes : walRecordEncode record walMaxRecordSize
        = .ok (recordBytes record))
      (disk : c'.machine.disk
        = (c.machine.disk.append (recordBytes record)).sync)
      (writer : c'.writer = c.writer.appended record.sequence) :
      Appended c record (.done .ok c')
  | broke {c' : WalCtx} (ready : c.writer.state = .ready)
      (breaks : c.Breaks record c') :
      Appended c record (.done .ioError c')
  | stopped {c' : WalCtx}
      (disk : ∃ part, part <+: recordBytes record
        ∧ c'.machine.disk = c.machine.disk.append part) :
      Appended c record (.crash c')

/-- One checked call of an append. -/
theorem checked_onMachine {p : Prog Machine (Except Nat Unit)}
    (operation : WalWriterOperation) (c : WalCtx) :
    checked operation (onMachine p) c = match p c.machine with
      | .done (.ok ()) m => .done .ok { c with machine := m }
      | .done (.error errno) m =>
          .done .ioError ⟨walWriterFail c.writer operation errno, m⟩
      | .crash m => .crash { c with machine := m } := by
  unfold checked
  rw [Prog.bind_run]
  unfold onMachine Prog.zoom
  cases p c.machine with
  | crash m => rfl
  | done result m => cases result <;> rfl

/-- The write and the sync of an append that is not refused. -/
theorem append_calls (hready : c.writer.state = .ready)
    (hnumber : record.sequence = c.writer.nextSequence)
    (hencode : walRecordEncode record walMaxRecordSize
      = .ok (recordBytes record)) :
    c.Appended record
      ((andThen (writeAll (recordBytes record) .writeRecord) <|
        andThen (walWriterSyncFile .syncRecord) <| do
        setWriter fun w =>
          { w with syncedSequence := record.sequence
                   nextSequence := nextSequenceAfter record.sequence }
        return .ok) c) := by
  have hwrote := Machine.writeAll_wrote (recordBytes record) c.machine
  unfold andThen writeAll walWriterSyncFile
  rw [Prog.bind_run, checked_onMachine]
  cases hwrite : Machine.writeAll (recordBytes record) c.machine with
  | crash m =>
      rw [hwrite] at hwrote
      exact .stopped hwrote
  | done result m =>
  rw [hwrite] at hwrote
  cases result with
  | error errno =>
      obtain ⟨answered, reply, hscript, herrno⟩ := Machine.writeAll_failed hwrite
      exact .broke hready ⟨hwrote.1, answered, reply, .writeRecord, errno,
        hscript, .inl ⟨rfl, herrno⟩, rfl⟩
  | ok =>
  obtain ⟨hdisk, -⟩ := hwrote
  have hsynced := Machine.retry_retried Disk.sync (fun _ disk => disk) m
  simp only [Prog.bind_run, checked_onMachine]
  cases hsync : Machine.retry Disk.sync (fun _ disk => disk) m with
  | crash m' =>
      rw [hsync] at hsynced
      refine .stopped ⟨_, List.prefix_refl _, ?_⟩
      exact Eq.trans hsynced hdisk
  | done result m' =>
  rw [hsync] at hsynced
  cases result with
  | ok =>
      refine .committed hready hnumber hencode ?_ rfl
      exact hsynced.1.trans (congrArg Disk.sync hdisk)
  | error errno =>
      obtain ⟨answered, reply, hscript, herrno⟩ := Machine.retry_failed hsync
      obtain ⟨written, hwritten⟩ := Machine.writeAll_suffix hwrite
      refine .broke hready ⟨⟨_, List.prefix_refl _, ?_⟩,
        written ++ answered, reply, .syncRecord, errno, ?_,
        .inr ⟨rfl, herrno⟩, rfl⟩
      · obtain ⟨⟨_, hsame⟩, -⟩ := hsynced
        exact Eq.trans hsame hdisk
      · rw [hwritten, hscript, List.append_assoc]

theorem append_outcome (record : WalRecord) (c : WalCtx) :
    c.Appended record (walWriterAppend record c) := by
  unfold walWriterAppend
  by_cases hfailed : c.writer.state = .failed
  · rw [if_pos (beq_iff_eq.mpr hfailed)]
    exact .latched hfailed
  rw [if_neg (by simpa using hfailed)]
  by_cases hready : c.writer.state = .ready
  · rw [if_neg (by simpa using hready)]
    by_cases hzero : c.writer.nextSequence = 0
    · rw [if_pos (beq_iff_eq.mpr hzero)]
      exact .refused hfailed (.inr (.inr rfl))
    rw [if_neg (by simpa using hzero)]
    by_cases hnumber : record.sequence = c.writer.nextSequence
    · rw [if_neg (by simpa using hnumber)]
      cases hencode : walRecordEncode record walMaxRecordSize with
      | error e => exact .refused hfailed (.inr (.inl rfl))
      | ok bytes =>
          obtain ⟨-, -, -, rfl⟩ := walRecordEncode_ok_iff.mp hencode
          exact append_calls hready hnumber hencode
    · rw [if_pos (by simpa using hnumber)]
      exact .refused hfailed (.inr (.inl rfl))
  · rw [if_pos (by simpa using hready)]
    exact .refused hfailed (.inl rfl)

-- ======================================================== close

/-- How many descriptors are open. -/
def WalWriter.descriptors (w : WalWriter) : Nat :=
  w.fdOpen.toNat + w.directoryFdOpen.toNat

/-- Nothing is written or synced: the only answers taken are those of the
descriptors that were closed. -/
structure WalCtx.Rests (c c' : WalCtx) : Prop where
  disk : c'.machine.disk = c.machine.disk
  latches : c.writer.Latches c'.writer
  answered : ∃ answered, c.machine.script = answered ++ c'.machine.script
    ∧ answered.length + c'.writer.descriptors = c.writer.descriptors

theorem WalCtx.Rests.refl (c : WalCtx) : c.Rests c :=
  ⟨rfl, .refl _, [], rfl, Nat.zero_add _⟩

theorem WalCtx.Rests.trans (h : c.Rests c₁) (h' : c₁.Rests c₂) :
    c.Rests c₂ := by
  obtain ⟨answered, hscript, hlength⟩ := h.answered
  obtain ⟨answered', hscript', hlength'⟩ := h'.answered
  refine ⟨h'.disk.trans h.disk, h.latches.trans h'.latches,
    answered ++ answered', ?_, ?_⟩
  · rw [hscript, hscript', List.append_assoc]
  · rw [List.length_append, ← hlength, ← hlength', Nat.add_assoc]

theorem once_done {m m' : Machine} {result : Except Nat Unit}
    (h : Machine.once m = .done result m') :
    ∃ reply, m.script = reply :: m'.script ∧ m'.disk = m.disk := by
  unfold Machine.once at h
  split at h <;> cases h
  all_goals
    rename_i hscript
    exact ⟨_, hscript, rfl⟩

/-- Closing one descriptor. -/
theorem closeDescriptor_done {isOpen : Bool} {operation : WalWriterOperation}
    (h : closeDescriptor isOpen operation c = .done () c') :
    c'.machine.disk = c.machine.disk
      ∧ (c'.writer = c.writer
        ∨ ∃ errno, c'.writer = walWriterFail c.writer operation errno)
      ∧ ∃ answered, c.machine.script = answered ++ c'.machine.script
        ∧ answered.length = isOpen.toNat := by
  cases isOpen with
  | false =>
      cases h
      exact ⟨rfl, .inl rfl, [], rfl, rfl⟩
  | true =>
      obtain ⟨result, c₁, honce, hrest⟩ := Prog.bind_done h
      unfold onMachine Prog.zoom at honce
      cases hrun : Machine.once c.machine with
      | crash m =>
          rw [hrun] at honce
          cases honce
      | done answer m =>
          rw [hrun] at honce
          cases honce
          obtain ⟨reply, hscript, hdisk⟩ := once_done hrun
          cases result with
          | ok =>
              cases hrest
              exact ⟨hdisk, .inl rfl, [reply], hscript, rfl⟩
          | error errno =>
              cases hrest
              exact ⟨hdisk, .inr ⟨errno, rfl⟩, [reply], hscript, rfl⟩

/-- A step of a close keeps the numbers and a latched failure, and does
not make the writer ready. -/
private theorem latches_descriptor {w w' : WalWriter}
    {operation : WalWriterOperation}
    (h : w' = w ∨ ∃ errno, w' = walWriterFail w operation errno) :
    w.Latches w' ∧ w'.fdOpen = w.fdOpen
      ∧ w'.directoryFdOpen = w.directoryFdOpen := by
  rcases h with rfl | ⟨errno, rfl⟩
  · exact ⟨.refl _, rfl, rfl⟩
  · refine ⟨latches_walWriterFail _ _ _, ?_⟩
    unfold walWriterFail
    split <;> exact ⟨rfl, rfl⟩

/-- A close is refused, or leaves the writer closed or failed. -/
theorem close_rests (h : walWriterClose c = .done r c') :
    c.Rests c' ∧ (c' = c ∨ c'.writer.state ≠ .ready) := by
  unfold walWriterClose at h
  split at h
  · cases h
    exact ⟨.refl c, .inl rfl⟩
  obtain ⟨⟨⟩, c₁, hset₁, hafter₁⟩ := Prog.bind_done h
  obtain ⟨⟨⟩, c₂, hfile, hafter₂⟩ := Prog.bind_done hafter₁
  obtain ⟨⟨⟩, c₃, hset₂, hafter₃⟩ := Prog.bind_done hafter₂
  obtain ⟨⟨⟩, c₄, hdirectory, hstate⟩ := Prog.bind_done hafter₃
  cases hset₁
  cases hset₂
  obtain ⟨hdisk₁, hwriter₁, answered₁, hscript₁, hlength₁⟩ :=
    closeDescriptor_done hfile
  obtain ⟨hdisk₂, hwriter₂, answered₂, hscript₂, hlength₂⟩ :=
    closeDescriptor_done hdirectory
  obtain ⟨hlatches₁, hfd₁, -⟩ := latches_descriptor hwriter₁
  obtain ⟨hlatches₂, hfd₂, hdirectoryFd⟩ := latches_descriptor hwriter₂
  have hfirst : c.writer.Latches c₂.writer :=
    ⟨hlatches₁.synced, hlatches₁.failed⟩
  have hlatches : c.writer.Latches c₄.writer :=
    hfirst.trans ⟨hlatches₂.synced, hlatches₂.failed⟩
  have hanswered : c.machine.script
      = (answered₁ ++ answered₂) ++ c₄.machine.script := by
    rw [List.append_assoc, ← hscript₂]
    exact hscript₁
  have hclosed : c₄.writer.descriptors = 0 := by
    unfold WalWriter.descriptors
    rw [hfd₂, hdirectoryFd]
    show c₂.writer.fdOpen.toNat + false.toNat = 0
    rw [hfd₁]
    rfl
  have hlength : (answered₁ ++ answered₂).length = c.writer.descriptors := by
    rw [List.length_append, hlength₁, hlength₂]
    rfl
  have hdisk : c₄.machine.disk = c.machine.disk := hdisk₂.trans hdisk₁
  unfold closeState at hstate
  split at hstate
  · rename_i hfailed
    cases hstate
    refine ⟨⟨hdisk, hlatches, _, hanswered, ?_⟩, .inr ?_⟩
    · rw [hclosed, hlength, Nat.add_zero]
    · rw [beq_iff_eq.mp hfailed]
      decide
  · rename_i hfailed
    cases hstate
    refine ⟨⟨hdisk, ⟨hlatches.synced, fun hlatched => ?_⟩, _, hanswered, ?_⟩,
      .inr (by simp)⟩
    · exact absurd (hlatches.failed hlatched).1 (by simpa using hfailed)
    · show _ + c₄.writer.descriptors = _
      rw [hclosed, hlength, Nat.add_zero]

-- ========================================================= runs

/-- An append that a writer refuses, for good when it has failed. -/
theorem append_idle (hidle : c.writer.state ≠ .ready)
    (h : walWriterAppend record c = .done r c') :
    c' = c ∧ r ≠ .ok ∧ (c.writer.state = .failed → r = .ioError) := by
  have houtcome := append_outcome record c
  rw [h] at houtcome
  cases houtcome with
  | refused alive result =>
      refine ⟨rfl, ?_, fun hfailed => absurd hfailed alive⟩
      rcases result with rfl | rfl | rfl <;> simp
  | latched failed => exact ⟨rfl, by simp, fun _ => rfl⟩
  | committed ready => exact absurd ready hidle
  | broke ready => exact absurd ready hidle

theorem committed_append_ne (hr : r ≠ .ok) :
    WriterCall.committed (.append record, r) = none := by
  cases r <;> first | rfl | exact absurd rfl hr

/-- A writer that is not ready writes nothing, whatever it is asked. -/
theorem runCalls_idle (hidle : c.writer.state ≠ .ready)
    (h : runCalls calls c = .done results c') :
    c.Rests c' ∧ c'.writer.state ≠ .ready ∧ committed calls results = []
      ∧ (c.writer.state = .failed → ∀ record result,
        (.append record, result) ∈ calls.zip results → result = .ioError) := by
  induction calls generalizing c results with
  | nil =>
      cases h
      exact ⟨.refl _, hidle, rfl, fun _ _ _ hmem => by cases hmem⟩
  | cons call calls ih =>
      obtain ⟨r, rest, c₁, hcall, hcalls, rfl⟩ := runCalls_cons h
      rw [committed_cons, List.zip_cons_cons]
      cases call with
      | append record =>
          obtain ⟨rfl, hr, hfailed⟩ := append_idle hidle hcall
          obtain ⟨hrests, hidle', hnone, hlater⟩ := ih hidle hcalls
          refine ⟨hrests, hidle', ?_, fun hf record' result hmem => ?_⟩
          · rw [committed_append_ne hr, hnone]
            rfl
          · rcases List.mem_cons.mp hmem with heq | hmem
            · cases heq
              exact hfailed hf
            · exact hlater hf record' result hmem
      | close =>
          obtain ⟨hclosed, hstate⟩ := close_rests hcall
          have hidle₁ : c₁.writer.state ≠ .ready := by
            rcases hstate with rfl | hstate
            · exact hidle
            · exact hstate
          obtain ⟨hrests, hidle', hnone, hlater⟩ := ih hidle₁ hcalls
          refine ⟨hclosed.trans hrests, hidle', hnone,
            fun hf record' result hmem => ?_⟩
          rcases List.mem_cons.mp hmem with heq | hmem
          · cases heq
          · exact hlater (hclosed.latches.failed hf).1 record' result hmem

/-- What a run from a writer that takes records leaves. -/
structure WalCtx.Content (c : WalCtx) (calls : List WriterCall)
    (results : List WalWriterResult) (c' : WalCtx) : Prop where
  encodes : ∀ record ∈ committed calls results,
    walRecordEncode record walMaxRecordSize = .ok (recordBytes record)
  numbers : (committed calls results).map (·.sequence.toNat)
    = List.range' (c.writer.syncedSequence.toNat + 1)
      (committed calls results).length
  synced : c'.writer.syncedSequence.toNat
    = c.writer.syncedSequence.toNat + (committed calls results).length
  whole : (∀ p ∈ calls.zip results, WriterCall.broke p = false) →
    c'.machine.disk.file
      = c.machine.disk.file ++ (committed calls results).flatMap recordBytes

theorem toNat_nextSequenceAfter {sequence : UInt64}
    (h : nextSequenceAfter sequence ≠ 0) :
    (nextSequenceAfter sequence).toNat = sequence.toNat + 1 := by
  unfold nextSequenceAfter at h ⊢
  split at h
  · exact absurd rfl h
  · rename_i hlast
    rw [if_neg hlast, UInt64.toNat_add]
    have hne : sequence.toNat ≠ 0xffffffffffffffff := fun heq =>
      hlast (beq_iff_eq.mpr (UInt64.toNat_inj.mp heq))
    have hlt := sequence.toNat_lt
    exact Nat.mod_eq_of_lt (by simp; omega)

/-- A call that commits nothing and changes nothing on the disk. -/
theorem WalCtx.Content.skip (h : c₁.Content calls results c')
    (hsynced : c₁.writer.syncedSequence = c.writer.syncedSequence)
    (hdisk : c₁.machine.disk = c.machine.disk)
    (hnone : WriterCall.committed (call, r) = none) :
    c.Content (call :: calls) (r :: results) c' := by
  have hcommitted : committed (call :: calls) (r :: results)
      = committed calls results := by
    rw [committed_cons, hnone]
    rfl
  refine ⟨?_, ?_, ?_, fun hwhole => ?_⟩ <;> rw [hcommitted]
  · exact h.encodes
  · rw [← hsynced]
    exact h.numbers
  · rw [← hsynced]
    exact h.synced
  · rw [← hdisk]
    exact h.whole fun p hp => hwhole p (List.mem_cons_of_mem _ hp)

/-- An append that commits, before the rest of a run. -/
theorem WalCtx.Content.commit (h : c₁.Content calls results c')
    (hsequence : record.sequence.toNat = c.writer.syncedSequence.toNat + 1)
    (hencode : walRecordEncode record walMaxRecordSize
      = .ok (recordBytes record))
    (hdisk : c₁.machine.disk
      = (c.machine.disk.append (recordBytes record)).sync)
    (hwriter : c₁.writer = c.writer.appended record.sequence) :
    c.Content (.append record :: calls) (.ok :: results) c' := by
  have hcommitted : committed (.append record :: calls) (.ok :: results)
      = record :: committed calls results := by
    rw [committed_cons]
    rfl
  have hsynced : c₁.writer.syncedSequence.toNat
      = c.writer.syncedSequence.toNat + 1 := by
    rw [hwriter]
    exact hsequence
  refine ⟨?_, ?_, ?_, fun hwhole => ?_⟩ <;> rw [hcommitted]
  · intro record' hmem
    rcases List.mem_cons.mp hmem with rfl | hmem
    · exact hencode
    · exact h.encodes record' hmem
  · rw [List.map_cons, List.length_cons, List.range'_succ, h.numbers, hsynced,
      hsequence]
  · rw [h.synced, hsynced, List.length_cons]
    omega
  · rw [h.whole fun p hp => hwhole p (List.mem_cons_of_mem _ hp), hdisk,
      List.flatMap_cons, ← List.append_assoc]
    rfl

/-- A run that commits nothing and leaves the disk alone. -/
theorem WalCtx.Rests.content (h : c.Rests c')
    (hnone : committed calls results = []) : c.Content calls results c' := by
  refine ⟨?_, ?_, ?_, fun _ => ?_⟩ <;> rw [hnone]
  · intro record hmem
    cases hmem
  · rfl
  · rw [h.latches.synced]
    rfl
  · rw [h.disk]
    simp

/-- A whole run from a writer that takes records. -/
theorem runCalls_content (hc : c.Appending)
    (h : runCalls calls c = .done results c') :
    c.Content calls results c'
      ∧ (c'.Appending ∨ c'.writer.state ≠ .ready) := by
  induction calls generalizing c results with
  | nil =>
      cases h
      exact ⟨(Rests.refl _).content rfl, .inl hc⟩
  | cons call calls ih =>
      obtain ⟨r, rest, c₁, hcall, hcalls, rfl⟩ := runCalls_cons h
      cases call with
      | append record =>
          have houtcome := append_outcome record c
          rw [show walWriterAppend record c = .done r c₁ from hcall]
            at houtcome
          cases houtcome with
          | refused alive result =>
              obtain ⟨hcontent, hends⟩ := ih hc hcalls
              have hr : r ≠ .ok := by
                rcases result with rfl | rfl | rfl <;> simp
              exact ⟨hcontent.skip rfl rfl (committed_append_ne hr), hends⟩
          | latched failed =>
              rw [hc.ready] at failed
              cases failed
          | committed ready number encodes disk writer =>
              have hc₁ : c₁.Appending := by
                refine ⟨?_, ?_⟩ <;> rw [writer]
                · exact ready
                · rfl
              obtain ⟨hcontent, hends⟩ := ih hc₁ hcalls
              obtain ⟨hzero, -⟩ := walRecordEncode_ok_iff.mp encodes
              rw [number, hc.next] at hzero
              have hsequence : record.sequence.toNat
                  = c.writer.syncedSequence.toNat + 1 := by
                rw [number, hc.next]
                exact toNat_nextSequenceAfter hzero
              exact ⟨hcontent.commit hsequence encodes disk writer, hends⟩
          | broke ready breaks =>
              obtain ⟨hfailed, hlatches⟩ := breaks.failed
              obtain ⟨hrests, hidle, hnone, -⟩ :=
                runCalls_idle (by rw [hfailed]; decide) hcalls
              refine ⟨⟨?_, ?_, ?_, fun hwhole => ?_⟩, .inr hidle⟩
              -- Nothing was committed, and the last claim does not apply.
              case refine_4 =>
                exact absurd (hwhole (.append record, .ioError)
                  (List.mem_cons_self ..)) (by simp [WriterCall.broke])
              all_goals rw [committed_cons, hnone]
              · intro record hmem
                cases hmem
              · rfl
              · rw [hrests.latches.synced, hlatches.synced]
                rfl
      | close =>
          obtain ⟨hclosed, rfl | hidle⟩ := close_rests hcall
          · obtain ⟨hcontent, hends⟩ := ih hc hcalls
            exact ⟨hcontent.skip rfl rfl rfl, hends⟩
          · obtain ⟨hrests, hidle', hnone, -⟩ := runCalls_idle hidle hcalls
            exact ⟨(hclosed.trans hrests).content hnone, .inr hidle'⟩

-- ==================================================== beginning

/-- Only a closed writer is opened. -/
theorem openFile_closed {create : Bool}
    (h : walWriterOpenFile create c = .done .ok c') : c.writer.Closed := by
  unfold walWriterOpenFile at h
  split at h
  · cases h
  split at h
  · cases h
  · rename_i hclosed
    simp only [Bool.or_eq_true, bne_iff_ne, ne_eq, not_or, not_not,
      Bool.not_eq_true] at hclosed
    exact ⟨hclosed.1.1, hclosed.1.2, hclosed.2⟩

/-- A writer that was made ready stands behind the last record. -/
theorem WalCtx.Started.appending (h : c.Started) :
    c.Appending ∧ ∃ entries, c.machine.disk.file = logBytes entries
      ∧ c.writer.syncedSequence.toNat = entries.length := by
  cases h with
  | @created c₀ _ run =>
      obtain ⟨result, c₁, hopen, hrest⟩ := Prog.bind_done run
      cases result with
      | ok =>
          obtain ⟨hdisk, hwriter⟩ :=
            walWriterCreate_ok (openFile_closed hopen) run
          refine ⟨⟨?_, ?_⟩, [], ?_, ?_⟩
          · rw [hwriter]
            rfl
          · rw [hwriter]
            rfl
          · rw [hdisk]
            rfl
          · rw [hwriter]
            rfl
      | _ => cases hrest
  | @replayed c₀ _ report state run =>
      obtain ⟨result, c₁, hopen, hrest⟩ := Prog.bind_done run
      cases result with
      | ok =>
          have hclosed := openFile_closed hopen
          have hat (n : Nat) : At False c₀.machine.disk c₀.machine.offset
              c₀.writer n c₀ := ⟨rfl, rfl, rfl, False.elim⟩
          cases hpresent : c₀.machine.disk.present with
          | false =>
              have habsent := (walReplayOpen_absent hclosed hpresent).done
                (hat _) run
              cases habsent
          | true =>
              have hopened := (walReplayOpen_spec False (n := 0) hclosed
                hpresent).done (hat _) run
              cases hopened with
              | @accepted entries tail l _ _ holds here =>
                  refine ⟨⟨?_, ?_⟩, entries, ?_, ?_⟩
                  · rw [here.writer]
                    rfl
                  · rw [here.writer]
                    rfl
                  · rw [here.disk]
                    show c₀.machine.disk.file.take _ = _
                    rw [holds.bytes, List.take_left]
                  · rw [here.writer]
                    have hlength := Ledger.run_length_lt holds.run
                    show (UInt64.ofNat entries.length).toNat = _
                    rw [UInt64.toNat_ofNat']
                    exact Nat.mod_eq_of_lt (by omega)
      | _ => cases hrest

-- ======================================================= ending

/-- A run that stops, stops inside one of its calls. -/
theorem runCalls_crash (h : runCalls calls c = .crash c') :
    ∃ before call after results c₁, calls = before ++ call :: after
      ∧ runCalls before c = .done results c₁ ∧ call.run c₁ = .crash c' := by
  induction calls generalizing c with
  | nil => cases h
  | cons call calls ih =>
      rw [runCalls, Prog.bind_run] at h
      cases hcall : call.run c with
      | crash c₁ =>
          rw [hcall] at h
          cases h
          exact ⟨[], call, calls, [], c, rfl, rfl, hcall⟩
      | done r c₁ =>
          simp only [hcall, Prog.bind_run] at h
          cases hcalls : runCalls calls c₁ with
          | done results c₂ =>
              rw [hcalls] at h
              cases h
          | crash c₂ =>
              rw [hcalls] at h
              cases h
              obtain ⟨before, call', after, results, c₂, rfl, hbefore, hstop⟩ :=
                ih hcalls
              refine ⟨call :: before, call', after, r :: results, c₂, rfl, ?_,
                hstop⟩
              rw [runCalls, Prog.bind_run, hcall]
              simp only [Prog.bind_run, hbefore]
              rfl

theorem closeDescriptor_returns (isOpen : Bool)
    (operation : WalWriterOperation) (n : Nat) :
    Prog.Triple (Answered (n + 1)) (closeDescriptor isOpen operation)
      (fun _ => Answered n) (fun _ => False) := by
  intro c hc
  cases isOpen with
  | false => exact Nat.le_of_succ_le hc
  | true =>
      have hanswered : n + 1 ≤ answers c.machine.script := hc
      unfold closeDescriptor
      simp only [if_true, Prog.bind_run, onMachine, Prog.zoom]
      cases hrun : Machine.once c.machine with
      | crash m =>
          unfold Machine.once at hrun
          split at hrun <;> cases hrun
          rename_i hscript
          rw [hscript] at hanswered
          exact absurd hanswered (by simp [answers])
      | done result m =>
          obtain ⟨reply, hscript, -⟩ := once_done hrun
          have hrest : n ≤ answers m.script := by
            rw [hscript, answers, List.countP_cons] at hanswered
            unfold answers
            split at hanswered <;> omega
          cases result <;> exact hrest

theorem close_returns (n : Nat) :
    Prog.Triple (Answered (n + 2)) walWriterClose (fun _ => Answered n)
      (fun _ => False) := by
  intro c hc
  unfold walWriterClose
  by_cases hrefused : (!c.writer.ioAttached
      && (c.writer.fdOpen || c.writer.directoryFdOpen)) = true
  · rw [if_pos hrefused]
    exact Nat.le_trans (Nat.le_add_right n 2) hc
  · rw [if_neg hrefused]
    have hset (k : Nat) (update : WalWriter → WalWriter) :
        Prog.Triple (Answered k) (setWriter update) (fun _ => Answered k)
          (fun _ => False) := fun _ hc => hc
    have hstate : Prog.Triple (Answered n) closeState (fun _ => Answered n)
        (fun _ => False) := by
      intro c hc
      unfold closeState
      by_cases hfailed : (c.writer.state == .failed) = true
      · rw [if_pos hfailed]
        exact hc
      · rw [if_neg hfailed]
        exact hc
    exact (hset _ _).bind (fun _ => (closeDescriptor_returns _ _ (n + 1)).bind
      fun _ => (hset _ _).bind fun _ =>
      (closeDescriptor_returns _ _ n).bind fun _ => hstate) c hc

/-- A run returns once it has been answered often enough. -/
theorem runCalls_returns (calls : List WriterCall) (n : Nat) :
    Prog.Triple (Answered (n + calls.length * (walMaxRecordSize + 1)))
      (runCalls calls) (fun _ => Answered n) (fun _ => False) := by
  induction calls with
  | nil => exact fun c hc => Nat.le_trans (Nat.le_add_right ..) hc
  | cons call calls ih =>
      have hcall : Prog.Triple
          (Answered (n + (call :: calls).length * (walMaxRecordSize + 1)))
          call.run
          (fun _ => Answered (n + calls.length * (walMaxRecordSize + 1)))
          (fun _ => False) := by
        intro c hc
        rw [Answered, List.length_cons, Nat.succ_mul, ← Nat.add_assoc] at hc
        cases call with
        | append record => exact append_returns record _ c hc
        | close =>
            refine close_returns _ c (Nat.le_trans ?_ hc)
            exact Nat.add_le_add_left (by decide) _
      exact hcall.bind fun _ => ih.bind fun _ _ hc => hc

-- ====================================================== content

/-- The file under a writer is what it was when the writer became ready,
the records whose append returned OK, numbered on, and at most a prefix of
the one record whose append broke the writer. -/
theorem writer_content (hstart : c.Started) :
    (∃ entries, c.machine.disk.file = logBytes entries
        ∧ c.writer.syncedSequence.toNat = entries.length)
      ∧ (∀ calls results c', runCalls calls c = .done results c' →
        c.Content calls results c')
      ∧ (∀ before results record c₁ c₂ after later c',
        runCalls before c = .done results c₁ →
        (∀ p ∈ before.zip results, WriterCall.broke p = false) →
        walWriterAppend record c₁ = .done .ioError c₂ →
        runCalls after c₂ = .done later c' →
        (∃ part, part <+: recordBytes record
            ∧ c'.machine.disk.file = c.machine.disk.file
              ++ (committed before results).flatMap recordBytes ++ part)
          ∧ (c₁.Breaks record c₂ ∨ c₁.writer.state = .failed ∧ c₂ = c₁)
          ∧ c₂.writer.state = .failed ∧ c₂.Rests c'
          ∧ ∀ record result, (.append record, result) ∈ after.zip later →
            result = .ioError)
      ∧ (∀ before results record r c₁ c₂,
        runCalls before c = .done results c₁ →
        walWriterAppend record c₁ = .done r c₂ → r ≠ .ok → r ≠ .ioError →
        c₂ = c₁)
      ∧ (∀ calls c', runCalls calls c = .crash c' →
        ∃ before call after results c₁ part, calls = before ++ call :: after
          ∧ runCalls before c = .done results c₁
          ∧ c'.machine.disk = c₁.machine.disk.append part
          ∧ (part = []
            ∨ ∃ record, call = .append record ∧ part <+: recordBytes record))
      ∧ (∀ calls, calls.length * (walMaxRecordSize + 1)
          ≤ answers c.machine.script →
        ∃ results c', runCalls calls c = .done results c') := by
  obtain ⟨hc, hentries⟩ := hstart.appending
  refine ⟨hentries, fun calls results c' h => (runCalls_content hc h).1,
    ?_, ?_, ?_, ?_⟩
  · intro before results record c₁ c₂ after later c' hbefore hwhole happend hafter
    have hfile := (runCalls_content hc hbefore).1.whole hwhole
    have houtcome := append_outcome record c₁
    rw [happend] at houtcome
    -- The append broke the writer, or found it broken by a close.
    have hbroken : (∃ part, part <+: recordBytes record
          ∧ c₂.machine.disk = c₁.machine.disk.append part)
        ∧ (c₁.Breaks record c₂ ∨ c₁.writer.state = .failed ∧ c₂ = c₁)
        ∧ c₂.writer.state = .failed := by
      cases houtcome with
      | refused _ result => rcases result with h | h | h <;> cases h
      | latched failed =>
          exact ⟨⟨[], List.nil_prefix, (Disk.append_nil _).symm⟩,
            .inr ⟨failed, rfl⟩, failed⟩
      | broke _ breaks => exact ⟨breaks.disk, .inl breaks, breaks.failed.1⟩
    obtain ⟨⟨part, hpart, hdisk⟩, hbreaks, hfailed⟩ := hbroken
    obtain ⟨hrests, -, -, hlater⟩ :=
      runCalls_idle (by rw [hfailed]; decide) hafter
    refine ⟨⟨part, hpart, ?_⟩, hbreaks, hfailed, hrests, hlater hfailed⟩
    rw [hrests.disk, hdisk, ← hfile]
    rfl
  · rintro before results record r c₁ c₂ - happend hok hio
    have houtcome := append_outcome record c₁
    rw [happend] at houtcome
    cases houtcome with
    | refused => rfl
    | latched => exact absurd rfl hio
    | committed => exact absurd rfl hok
    | broke => exact absurd rfl hio
  · intro calls c' h
    obtain ⟨before, call, after, results, c₁, rfl, hbefore, hstop⟩ :=
      runCalls_crash h
    cases call with
    | append record =>
        have houtcome := append_outcome record c₁
        rw [show walWriterAppend record c₁ = .crash c' from hstop] at houtcome
        cases houtcome with
        | stopped disk =>
            obtain ⟨part, hpart, hdisk⟩ := disk
            exact ⟨before, _, after, results, c₁, part, rfl, hbefore, hdisk,
              .inr ⟨record, rfl, hpart⟩⟩
    | close =>
        have hdisk := keepsDisk_walWriterClose c₁
        rw [show walWriterClose c₁ = .crash c' from hstop] at hdisk
        refine ⟨before, _, after, results, c₁, [], rfl, hbefore, ?_, .inl rfl⟩
        rw [Disk.append_nil]
        exact hdisk
  · intro calls hanswers
    have hreturns := runCalls_returns calls 0 c (by
      rw [Answered, Nat.zero_add]
      exact hanswers)
    cases hrun : runCalls calls c with
    | done results c' => exact ⟨results, c', rfl⟩
    | crash c' =>
        rw [hrun] at hreturns
        exact hreturns.elim

/-- A new log on a disk that will be full: four bytes of the next record
fit, an interruption, and two more bytes before `ENOSPC`. -/
def nearlyFull : WalCtx :=
  { writer := walWriterInit.created
    machine :=
      { disk := logDisk []
        offset := 0
        script := [.moved 3, .eintr, .error 28 2] } }

def firstRecord : WalRecord := ⟨1, .workerIdAllocated 7⟩

theorem writer_content_nearlyFull :
    nearlyFull.Started
      ∧ ∃ c₂, walWriterAppend firstRecord nearlyFull = .done .ioError c₂
        ∧ c₂.writer.failedOperation = .writeRecord
        ∧ c₂.writer.systemError = 28
        ∧ (∃ part, part <+: recordBytes firstRecord
          ∧ c₂.machine.disk.file = logBytes [] ++ [] ++ part) := by
  have hstart : nearlyFull.Started :=
    @WalCtx.Started.created ⟨walWriterInit, ⟨.blank, 0,
      List.replicate 8 (.moved 99) ++ nearlyFull.machine.script⟩⟩ _ rfl
  obtain ⟨c₂, hrun, hlatched⟩ : ∃ c₂,
      walWriterAppend firstRecord nearlyFull = .done .ioError c₂
        ∧ c₂.writer.failedOperation = .writeRecord
        ∧ c₂.writer.systemError = 28 :=
    ⟨_, rfl, rfl, rfl⟩
  have hbroken := (writer_content hstart).2.2.1 [] [] firstRecord nearlyFull c₂
    [] [] c₂ rfl (fun p hp => by cases hp) hrun rfl
  exact ⟨hstart, c₂, hrun, hlatched.1, hlatched.2, hbroken.1⟩

end Faultline
