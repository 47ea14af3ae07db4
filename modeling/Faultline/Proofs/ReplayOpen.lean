/-
Opening a log accepts exactly the files that hold a legal history.

`Verdict file result p` is what reading the whole file concludes. Opening
adds the calls around it: the tail is cut and the file synced only after
the verdict, so a refused file is never touched, and an accepted one is
left as it was, cut to its complete records, or cut and synced
(`Recovering`).
-/
import Faultline.Proofs.ReplayScan
import Faultline.Proofs.WriterSteps

namespace Faultline

open Lib WalCtx

-- ================================================= whole files

/-- What reading a file concludes. -/
inductive Verdict (file : List UInt8) : WalReplayResult → Replaying → Prop
  | accepted {entries tail l p} (holds : Holds file entries tail l)
      (state : p.state = recovered entries)
      (report : p.report = reportOf entries tail) : Verdict file .ok p
  | refused {result p} (ne : result ≠ .ok) (io : result ≠ .ioError)
      (nothing : ∀ entries tail l, ¬ Holds file entries tail l) :
      Verdict file result p

/-- The loop before the first record. -/
def readingInit : Replaying :=
  { replayingInit with
    report := { walReplayReportInit with validBytes := walFileHeaderSize } }

theorem reading_init : Reading readingInit [] Ledger.init :=
  ⟨.nil, tracks_init, rfl, rfl⟩

variable {file : List UInt8} {good : Prop} {D : Disk → Prop} {d : Disk}
  {o n : Nat} {w : WalWriter}

/-- A file with the right header is judged by the scan of the rest. -/
theorem verdict_of_scan {rest : List UInt8}
    (hfile : file = walFileHeaderEncode ++ rest) {fuel : Nat}
    (hfuel : rest.length < fuel) :
    Verdict file (scanAll fuel readingInit rest).1
      (scanAll fuel readingInit rest).2 := by
  have hrest {entries tail l} (h : Holds file entries tail l) :
      rest = recordsFrom 0 entries ++ tail := by
    have hb := h.bytes
    rw [hfile, logBytes, List.append_assoc] at hb
    exact List.append_cancel_left hb
  have hcomplete {entries tail l} (h : Holds file entries tail l) :
      ∃ p, scanAll fuel readingInit rest = (.ok, p)
        ∧ p.state = recovered entries ∧ p.report = reportOf entries tail := by
    rw [hrest h] at hfuel ⊢
    exact scanAll_complete reading_init h.run h.torn hfuel
  obtain ⟨hio, hsound⟩ := scanAll_sound reading_init hfuel
  by_cases hok : (scanAll fuel readingInit rest).1 = .ok
  · obtain ⟨entries, tail, l, hrun, hbytes, htorn⟩ := hsound hok
    have hholds : Holds file entries tail l := by
      refine ⟨?_, hrun, htorn⟩
      rw [hfile, logBytes, List.append_assoc, hbytes]
      rfl
    obtain ⟨p, heq, hstate, hreport⟩ := hcomplete hholds
    rw [heq]
    exact .accepted hholds hstate hreport
  · refine .refused hok hio fun entries tail l h => ?_
    obtain ⟨p, heq, -⟩ := hcomplete h
    exact hok (by rw [heq])

/-- A file with another header holds nothing. -/
theorem not_holds_of_header {e : WalError}
    (h : walFileHeaderDecode (file.take walFileHeaderSize) = .error e)
    (entries : List WalEntry) (tail : List UInt8) (l : Ledger) :
    ¬ Holds file entries tail l := by
  intro hh
  have hok : walFileHeaderDecode (file.take walFileHeaderSize) = .ok () := by
    rw [walFileHeaderDecode_ok_iff, List.take_take, Nat.min_self, hh.bytes,
      logBytes, List.append_assoc]
    exact List.take_left' length_walFileHeaderEncode
  rw [h] at hok
  cases hok

/-- What reading a file computes, without its system calls. -/
def judge (file : List UInt8) : WalReplayResult × Replaying :=
  match walFileHeaderDecode (file.take walFileHeaderSize) with
  | .error e => replayingInit.formatError e
  | .ok () =>
      scanAll (file.length + 1) readingInit (file.drop walFileHeaderSize)

theorem judge_header {e : WalError}
    (h : walFileHeaderDecode (file.take walFileHeaderSize) = .error e) :
    judge file = replayingInit.formatError e := by
  rw [judge, h]

theorem judge_records {rest : List UInt8}
    (h : file = walFileHeaderEncode ++ rest) :
    judge file = scanAll (file.length + 1) readingInit rest := by
  have htake : file.take walFileHeaderSize = walFileHeaderEncode := by
    rw [h]
    exact List.take_left' length_walFileHeaderEncode
  have hok : walFileHeaderDecode (file.take walFileHeaderSize) = .ok () := by
    rw [walFileHeaderDecode_ok_iff, List.take_take, Nat.min_self, htake]
  have hdrop : file.drop walFileHeaderSize = rest := by
    rw [h]
    exact List.drop_left' length_walFileHeaderEncode
  rw [judge, hok, hdrop]

/-- A file with the right header is its header and its records. -/
theorem file_of_header
    (h : walFileHeaderDecode (file.take walFileHeaderSize) = .ok ()) :
    file = walFileHeaderEncode ++ file.drop walFileHeaderSize := by
  have htake := walFileHeaderDecode_ok_iff.mp h
  rw [List.take_take, Nat.min_self] at htake
  rw [← htake, List.take_append_drop]

theorem verdict_judge (file : List UInt8) :
    Verdict file (judge file).1 (judge file).2 := by
  cases hhead : walFileHeaderDecode (file.take walFileHeaderSize) with
  | error e =>
      rw [judge_header hhead]
      exact .refused (by simp [Replaying.formatError])
        (by simp [Replaying.formatError]) (not_holds_of_header hhead)
  | ok u =>
      have hfile := file_of_header hhead
      rw [judge_records hfile]
      refine verdict_of_scan hfile ?_
      rw [List.length_drop]
      omega

/-- The record loop behind the right header computes the scan. -/
theorem readRecords_spec (hd : D d) {rest : List UInt8}
    (hfile : d.file = walFileHeaderEncode ++ rest) :
    Prog.Triple
      (At good d walFileHeaderSize w (n + 2 * rest.length + 2))
      (readRecords (d.file.length + 1) readingInit)
      (fun r c => r = judge d.file ∧ (∃ o, At good d o w n c)
        ∨ r.1 = .ioError ∧ Broke good D c)
      (Stopped good D) := by
  intro c hc
  have hrest : c.machine.disk.file.drop c.machine.offset = rest := by
    rw [hc.disk, hc.offset, hfile]
    exact List.drop_left' length_walFileHeaderEncode
  have hfuel : rest.length < d.file.length + 1 := by
    rw [hfile, List.length_append]
    omega
  have hdisk (d' : Disk) (h : d' = c.machine.disk) : D d' := by
    rw [h, hc.disk]
    exact hd
  rcases readRecords_scan (d.file.length + 1) readingInit c with
    ⟨c₂, heq, hdisk₂, hnr⟩ | ⟨p, c₂, heq, hdisk₂, hfail, hnr⟩
      | ⟨c₂, heq, hdisk₂, hwriter, hready⟩
  · rw [heq]
    rw [hrest] at hnr
    exact ⟨hdisk _ hdisk₂, fun hg =>
      hnr hfuel ((hc.ready hg).mono (by omega))⟩
  · rw [heq]
    rw [hrest] at hnr
    exact Or.inr ⟨rfl, hdisk _ hdisk₂, hfail, fun hg =>
      hnr ((hc.ready hg).mono (by omega))⟩
  · rw [hrest] at heq hwriter hready
    rw [heq]
    have hio := (scanAll_sound reading_init hfuel).1
    refine Or.inl ⟨(judge_records hfile).symm, c₂.machine.offset,
      hdisk₂.trans hc.disk, rfl, (hwriter hio).trans hc.writer, ?_⟩
    exact fun hg => hready n (hc.ready hg)

/-- Reading the history changes nothing and computes its judgement. -/
theorem readHistory_spec (hd : D d) :
    Prog.Triple (At good d 0 w (n + 2 * d.file.length + 3)) readHistory
      (fun r c => r = judge d.file ∧ (∃ o, At good d o w n c)
        ∨ r.1 = .ioError ∧ Broke good D c)
      (Stopped good D) := by
  intro c hc
  have hseg : (c.machine.disk.file.drop c.machine.offset).take
      walFileHeaderSize = d.file.take walFileHeaderSize := by
    rw [hc.disk, hc.offset, List.drop_zero]
  have hlen := List.length_take_le' walFileHeaderSize d.file
  unfold readHistory readHistoryUpTo
  simp only [Prog.bind_run]
  rcases readExact_cases walFileHeaderSize c with
    ⟨c₁, hrun, hdisk, hnr⟩ | ⟨c₁, hrun, hdisk, hfail, hnr⟩
      | ⟨m₁, hrun, hdisk, hoff, hready⟩
  · rw [hrun]
    rw [hseg] at hnr
    refine ⟨by rw [hdisk, hc.disk]; exact hd, fun hg => hnr ?_⟩
    exact (hc.ready hg).mono (by omega)
  · rw [hrun]
    rw [hseg] at hnr
    refine Or.inr ⟨rfl, by rw [hdisk, hc.disk]; exact hd, hfail,
      fun hg => hnr ?_⟩
    exact (hc.ready hg).mono (by omega)
  rw [hseg] at hrun hoff hready
  rw [hrun]
  simp only
  cases hhead : walFileHeaderDecode (d.file.take walFileHeaderSize) with
  | error e =>
      refine Or.inl ⟨(judge_header hhead).symm, m₁.offset,
        hdisk.trans hc.disk, rfl, hc.writer, fun hg => ?_⟩
      exact hready n ((hc.ready hg).mono (by omega))
  | ok =>
      have hfile := file_of_header hhead
      have htake : d.file.take walFileHeaderSize = walFileHeaderEncode := by
        have := walFileHeaderDecode_ok_iff.mp hhead
        rwa [List.take_take, Nat.min_self] at this
      rw [htake, length_walFileHeaderEncode] at hoff hready hlen
      rw [hc.disk]
      refine readRecords_spec hd hfile { c with machine := m₁ }
        ⟨hdisk.trans hc.disk, ?_, hc.writer, fun hg => hready _ ?_⟩
      · show m₁.offset = _
        rw [hoff, hc.offset, Nat.zero_add]
      · refine (hc.ready hg).mono ?_
        rw [List.length_drop]
        omega

-- ==================================================== finishing

/-- A writer program whose failures all become an I/O error of replay. -/
theorem Steps.asReplay {P S : WalCtx → Prop}
    {p : Prog WalCtx WalWriterResult} (h : Steps good D P p S) :
    Prog.Triple P
      (do match ← p with
          | .ok => return WalReplayResult.ok
          | _ => return .ioError)
      (fun r c => r = .ok ∧ S c ∨ r = .ioError ∧ Broke good D c)
      (Stopped good D) := by
  refine Prog.Triple.bind h fun r c hc => ?_
  rcases hc with ⟨rfl, hS⟩ | ⟨rfl, hbroke⟩
  · exact Or.inl ⟨rfl, hS⟩
  · exact Or.inr ⟨rfl, hbroke⟩

/-- A failed call that is latched by hand is a checked call. -/
theorem latched_eq_checked (operation : WalWriterOperation)
    (p : Prog WalCtx (Except Nat Unit)) :
    (do match ← p with
        | .ok () => return WalReplayResult.ok
        | .error errno => do
            setWriter fun w => walWriterFail w operation errno
            return .ioError)
      = (do match ← checked operation p with
            | .ok => return WalReplayResult.ok
            | _ => return .ioError) := by
  funext c
  unfold checked
  simp only [Prog.bind_run]
  cases p c with
  | crash c' => rfl
  | done result c' => cases result <;> rfl

theorem truncate_all (d : Disk) {size : Nat} (h : d.file.length ≤ size) :
    d.truncate size = d := by
  simp [Disk.truncate, List.take_of_length_le h, List.drop_of_length_le h]

/-- Cutting the tail, when there is one. -/
theorem truncateTail_spec {entries : List WalEntry} {tail : List UInt8}
    (hfile : d.file = logBytes entries ++ tail) (hd : D d)
    (hcut : D (d.truncate (logBytes entries).length)) :
    Prog.Triple (At good d o w (n + 1))
      (truncateTail (reportOf entries tail))
      (fun r c => r = .ok
          ∧ At good (d.truncate (logBytes entries).length) o w n c
        ∨ r = .ioError ∧ Broke good D c)
      (Stopped good D) := by
  by_cases htail : (reportOf entries tail).tailBytes != 0
  · have hrun : truncateTail (reportOf entries tail)
        = (do match ← checked .truncateTail (onMachine (Machine.retry
                (Disk.truncate · (logBytes entries).length)
                fun applied disk => if applied = 0 then disk
                  else disk.truncate (logBytes entries).length)) with
              | .ok => return WalReplayResult.ok
              | _ => return .ioError) := by
      unfold truncateTail
      rw [if_pos htail]
      exact latched_eq_checked _ _
    rw [hrun]
    refine ((calls_retry hd fun applied => ?_).checked _).asReplay
    split
    · exact hd
    · exact hcut
  · unfold truncateTail
    rw [if_neg htail]
    have hnil : tail.length = 0 := by simpa [reportOf] using htail
    refine Prog.Triple.pure fun c hc => Or.inl ⟨rfl, ?_⟩
    rw [truncate_all d (by rw [hfile, List.length_append]; omega)]
    exact hc.mono (Nat.le_succ n)

/-- The last two calls. -/
theorem syncRecovery_spec (hd : D d) (hs : D d.sync) :
    Prog.Triple (At good d o w (n + 2)) syncRecovery
      (fun r c => r = .ok ∧ At good d.sync o w n c
        ∨ r = .ioError ∧ Broke good D c)
      (Stopped good D) :=
  ((steps_syncFile _ hd).andThen (steps_syncDirectory hs)).asReplay

/-- The disks an open can leave behind. -/
inductive Recovering (d : Disk) : Disk → Prop
  | untouched : Recovering d d
  | cut {entries tail l} (holds : Holds d.file entries tail l) :
      Recovering d (d.truncate (logBytes entries).length)
  | synced {entries tail l} (holds : Holds d.file entries tail l) :
      Recovering d (d.truncate (logBytes entries).length).sync

/-- What an open returns, and where. -/
inductive Opened (good : Prop) (d : Disk) (w : WalWriter) (n : Nat) :
    WalReplayResult × WalReplayReport × Option WalReplayState → WalCtx → Prop
  | accepted {entries tail l o c} (holds : Holds d.file entries tail l)
      (here : At good (d.truncate (logBytes entries).length).sync o
        (resumeWriter (UInt64.ofNat entries.length) w) n c) :
      Opened good d w n
        (.ok, reportOf entries tail, some (recovered entries)) c
  | refused {result report c} (ne : result ≠ .ok)
      (nothing : ∀ entries tail l, ¬ Holds d.file entries tail l)
      (disk : c.machine.disk = d) (latched : c.writer.state = .failed) :
      Opened good d w n (result, report, none) c
  | broke {result report c} (ne : result ≠ .ok)
      (broke : Broke good (Recovering d) c) :
      Opened good d w n (result, report, none) c

theorem rejectReplay_state (result : WalReplayResult) (w : WalWriter) :
    (rejectReplay result w).state = .failed := by
  unfold rejectReplay
  split
  · split
    · exact walWriterFail_state _ _ _
    · split <;> exact walWriterFail_state _ _ _
  · rename_i h
    simpa using h

theorem whileOk_ok (next : Prog WalCtx WalReplayResult) :
    whileOk .ok next = next := rfl

theorem whileOk_failed {result : WalReplayResult} (hne : result ≠ .ok)
    (next : Prog WalCtx WalReplayResult) (c : WalCtx) :
    whileOk result next c = .done result c := by
  unfold whileOk
  rw [if_neg (by simpa using hne)]
  rfl

theorem publishReplay_ok (p : Replaying) (c : WalCtx) :
    publishReplay p .ok c
      = .done (.ok, p.report, some p.state)
          { c with writer := resumeWriter p.state.lastSequence c.writer } :=
  rfl

theorem publishReplay_failed {result : WalReplayResult}
    (hne : result ≠ .ok) (p : Replaying) (c : WalCtx) :
    publishReplay p result c
      = .done (result, p.report, none)
          { c with writer := rejectReplay result c.writer } := by
  unfold publishReplay
  rw [if_neg (by simpa using hne)]
  rfl

/-- A failure so far is reported, and the writer disabled. -/
theorem finishReplay_failed {result : WalReplayResult} (hne : result ≠ .ok)
    (p : Replaying) (c : WalCtx) :
    finishReplay result p c
      = .done (result, p.report, none)
          { c with writer := rejectReplay result c.writer } := by
  simp only [finishReplay, Prog.bind_run, whileOk_failed hne,
    publishReplay_failed hne]

/-- An accepted history is cut, synced and published. -/
theorem finishReplay_spec {entries : List WalEntry} {tail : List UInt8}
    {l : Ledger} {p : Replaying} (holds : Holds d.file entries tail l)
    (hstate : p.state = recovered entries)
    (hreport : p.report = reportOf entries tail) :
    Prog.Triple (At good d o w (n + 3)) (finishReplay .ok p)
      (Opened good d w n) (Stopped good (Recovering d)) := by
  have hio : WalReplayResult.ioError ≠ .ok := by simp
  -- A failed call leads straight to the report.
  have hbroke {c : WalCtx} (hb : Broke good (Recovering d) c) :
      Opened good d w n (.ioError, p.report, none)
        { c with writer := rejectReplay .ioError c.writer } :=
    .broke hio ⟨hb.disk, rejectReplay_state _ _, hb.uncooperative⟩
  unfold finishReplay
  rw [hreport, whileOk_ok]
  refine Prog.Triple.bind
    (truncateTail_spec holds.bytes .untouched (.cut holds)) fun r c hc => ?_
  rcases hc with ⟨rfl, hat⟩ | ⟨rfl, hb⟩
  · rw [whileOk_ok]
    refine Prog.Triple.bind (syncRecovery_spec (.cut holds) (.synced holds))
      (fun r c hc => ?_) c hat
    rcases hc with ⟨rfl, hat⟩ | ⟨rfl, hb⟩
    · rw [publishReplay_ok, hstate, hreport]
      refine .accepted holds ⟨hat.disk, hat.offset, ?_, hat.ready⟩
      show resumeWriter _ c.writer = _
      rw [hat.writer]
      rfl
    · rw [publishReplay_failed hio]
      exact hbroke hb
  · simp only [Prog.bind_run, whileOk_failed hio, publishReplay_failed hio]
    exact hbroke hb

variable (good) in
/-- An open under any script, and under a cooperating environment. -/
theorem walReplayOpen_spec (hw : w.Closed) (hp : d.present = true) :
    Prog.Triple (At good d o w (n + 2 * d.file.length + 12)) walReplayOpen
      (Opened good d w.opened n) (Stopped good (Recovering d)) := by
  have hd : Recovering d d := .untouched
  have hreport (r : WalReplayResult) (p : Replaying) (c : WalCtx)
      (hne : r ≠ .ok) (hdisk : Recovering d c.machine.disk) (hng : ¬ good) :
      Opened good d w.opened n (r, p.report, none)
        { c with writer := rejectReplay r c.writer } :=
    .broke hne ⟨hdisk, rejectReplay_state _ _, hng⟩
  unfold walReplayOpen
  refine Prog.Triple.bind (steps_openFile_existing hw hp hd) fun r c hc => ?_
  rcases hc with ⟨rfl, hat⟩ | ⟨rfl, hb⟩
  · refine Prog.Triple.bind (calls_call hd) (fun r c hc => ?_) c hat
    rcases hc with ⟨rfl, hat⟩ | ⟨errno, rfl, hdisk, hng⟩
    · have hat' : At good d 0 w.opened ((n + 3) + 2 * d.file.length + 3) c :=
        hat.mono (by omega)
      refine Prog.Triple.bind (readHistory_spec hd) (fun r c hc => ?_) c hat'
      obtain ⟨result, p⟩ := r
      rcases hc with ⟨hjudge, o, hat⟩ | ⟨hio, hb⟩
      · have hverdict := verdict_judge d.file
        rw [← hjudge] at hverdict
        cases hverdict with
        | accepted holds hstate hrep =>
            exact finishReplay_spec holds hstate hrep c hat
        | refused ne io nothing =>
            simp only [finishReplay_failed ne p c]
            exact .refused ne nothing hat.disk (rejectReplay_state _ _)
      · have hne : result ≠ .ok := by
          rw [show result = .ioError from hio]
          simp
        simp only [finishReplay_failed hne p c]
        exact hreport _ p c hne hb.disk hb.uncooperative
    · have hne : WalReplayResult.noMemory ≠ .ok := by simp
      show match finishReplay .noMemory replayingInit c with
        | .done r c => Opened good d w.opened n r c
        | .crash c => Stopped good (Recovering d) c
      rw [finishReplay_failed hne]
      exact hreport _ replayingInit c hne hdisk hng
  · exact .broke (by simp) hb

/-- A file whose judgement is a refusal is refused with just that, unless
a call fails first; it is never touched. -/
theorem walReplayOpen_refused (hw : w.Closed) (hp : d.present = true)
    {result : WalReplayResult} {p : Replaying}
    (hjudge : judge d.file = (result, p)) (hne : result ≠ .ok) :
    Prog.Triple (At good d o w (n + 2 * d.file.length + 12)) walReplayOpen
      (fun r c => c.machine.disk = d
        ∧ (r = (result, p.report, none)
          ∨ ¬ good ∧ (r.1 = .ioError ∨ r.1 = .noMemory) ∧ r.2.2 = none))
      (fun c => c.machine.disk = d ∧ ¬ good) := by
  unfold walReplayOpen
  refine Prog.Triple.bind ((steps_openFile_existing (D := (· = d)) hw hp
    rfl).conseq (fun _ h => h) (fun _ _ h => h)
    fun _ h => ⟨h.disk, h.uncooperative⟩) fun r c hc => ?_
  rcases hc with ⟨rfl, hat⟩ | ⟨rfl, hb⟩
  swap
  · exact ⟨hb.disk, Or.inr ⟨hb.uncooperative, Or.inl rfl, rfl⟩⟩
  refine Prog.Triple.bind ((calls_call (D := (· = d)) rfl).conseq
    (fun _ h => h) (fun _ _ h => h) fun _ h => ⟨h.disk, h.uncooperative⟩)
    (fun r c hc => ?_) c hat
  rcases hc with ⟨rfl, hat⟩ | ⟨errno, rfl, hdisk, hng⟩
  swap
  · simp only [finishReplay_failed
      (show WalReplayResult.noMemory ≠ .ok by simp)]
    exact ⟨hdisk, Or.inr ⟨hng, Or.inr trivial, trivial⟩⟩
  have hat' : At good d 0 w.opened ((n + 3) + 2 * d.file.length + 3) c :=
    hat.mono (by omega)
  refine Prog.Triple.bind ((readHistory_spec (D := (· = d)) rfl).conseq
    (fun _ h => h) (fun _ _ h => h) fun _ h => ⟨h.disk, h.uncooperative⟩)
    (fun r c hc => ?_) c hat'
  obtain ⟨result', p'⟩ := r
  rcases hc with ⟨heq, o, hat⟩ | ⟨hio, hb⟩
  · rw [hjudge] at heq
    cases heq
    simp only [finishReplay_failed hne]
    exact ⟨hat.disk, Or.inl trivial⟩
  · obtain rfl : result' = .ioError := hio
    simp only [finishReplay_failed
      (show WalReplayResult.ioError ≠ .ok by simp)]
    exact ⟨hb.disk, Or.inr ⟨hb.uncooperative, Or.inl trivial, trivial⟩⟩

/-- Where there is no file, an open recovers nothing. -/
theorem walReplayOpen_absent (hw : w.Closed) (hp : d.present = false) :
    Prog.Triple (At False d o w 3) walReplayOpen (fun r _ => r.2.2 = none)
      (fun _ => True) := by
  unfold walReplayOpen
  refine Prog.Triple.bind ((steps_openFile_refused (D := fun _ => True)
    (n := 0) hw hp trivial).conseq (fun _ h => h) (fun _ _ h => h)
      fun _ _ => trivial) fun r c hc => ?_
  rcases hc with ⟨-, hf⟩ | ⟨rfl, -⟩
  · exact hf.elim
  · rfl

end Faultline
