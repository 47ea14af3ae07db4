/-
Accepted logs.

With a cooperating environment an open decides the log grammar
(`walReplayOpen_decides`). Under any script, what an open accepted was a
legal history (`walReplayOpen_ok`), so everything proved of histories
holds of accepted files; `replay_accounts_attempts` is the account of one
job's attempts.
-/
import Faultline.Abstract.History
import Faultline.Proofs.ReplayOpen

namespace Faultline

open Lib WalCtx

-- ================================================ what was read

/-- The state of a legal history is tracked by its ledger. -/
theorem tracks_recovered {entries : List WalEntry} {l : Ledger}
    (h : Ledger.Run .init entries l) :
    ∃ index, Tracks (recovered entries) index l := by
  refine Trace.snoc_induction
    (P := fun entries l => ∃ index, Tracks (recovered entries) index l)
    ⟨[], tracks_init⟩ ?_ h
  rintro entries l entry l' - ⟨index, ht⟩ hstep
  have ht' := ht.record hstep
  refine ⟨indexAfter index entry, ?_⟩
  rw [recovered_snoc]
  exact ⟨ht'.rep, ht'.board, ht'.inv, ht'.index, ht'.highestWorker,
    ht'.highestJob, ht'.workers, ht'.clock⟩

/-- An open that starts from a writer in use, or without a file, does not
return OK. -/
theorem walReplayOpen_started {c c' : WalCtx} {report : WalReplayReport}
    {state : Option WalReplayState}
    (h : walReplayOpen c = .done (.ok, report, state) c') :
    c.writer.Closed ∧ c.machine.disk.present = true := by
  have hopen : ∀ r c₁, walWriterOpenFile false c = .done r c₁ → r = .ok := by
    intro r c₁ hr
    unfold walReplayOpen at h
    rw [Prog.bind_run, hr] at h
    cases r <;> first | rfl | cases h
  by_cases hclosed : c.writer.Closed
  · refine ⟨hclosed, ?_⟩
    cases hp : c.machine.disk.present with
    | true => rfl
    | false =>
        have hrefused := steps_openFile_refused (D := fun _ => True)
          (o := c.machine.offset) (n := 0) hclosed hp trivial c
          ⟨rfl, rfl, rfl, False.elim⟩
        cases hrun : walWriterOpenFile false c with
        | crash c₁ =>
            unfold walReplayOpen at h
            rw [Prog.bind_run, hrun] at h
            cases h
        | done r c₁ =>
            rw [hrun] at hrefused
            rcases hrefused with ⟨-, hf⟩ | ⟨hio, -⟩
            · exact hf.elim
            · have := hopen r c₁ hrun
              rw [hio] at this
              cases this
  · exfalso
    by_cases hfailed : (c.writer.state == .failed) = true
    · have := hopen .ioError c (by
        unfold walWriterOpenFile
        rw [if_pos hfailed])
      cases this
    · have := hopen .invalidState c (by
        unfold walWriterOpenFile
        rw [if_neg hfailed, if_pos ?_]
        by_contra hno
        simp only [Bool.or_eq_true, bne_iff_ne, not_or, not_not,
          Bool.not_eq_true] at hno
        exact hclosed ⟨hno.1.1, hno.1.2, hno.2⟩)
      cases this

/-- What an open accepted was a legal history and a torn tail; the tail
is gone and the history is durable. -/
theorem walReplayOpen_ok {c c' : WalCtx} {report : WalReplayReport}
    {state : Option WalReplayState}
    (h : walReplayOpen c = .done (.ok, report, state) c') :
    ∃ entries tail l, Holds c.machine.disk.file entries tail l
      ∧ report = reportOf entries tail ∧ state = some (recovered entries)
      ∧ c'.machine.disk
        = (c.machine.disk.truncate (logBytes entries).length).sync
      ∧ c'.writer = resumeWriter (UInt64.ofNat entries.length)
          c.writer.opened := by
  obtain ⟨hclosed, hpresent⟩ := walReplayOpen_started h
  have hat : At False c.machine.disk c.machine.offset c.writer
      (0 + 2 * c.machine.disk.file.length + 12) c :=
    ⟨rfl, rfl, rfl, False.elim⟩
  have hspec := walReplayOpen_spec False hclosed hpresent c hat
  rw [h] at hspec
  generalize hr : (WalReplayResult.ok, report, state) = r at hspec
  cases hspec with
  | accepted holds here =>
      simp only [Prod.mk.injEq, true_and] at hr
      exact ⟨_, _, _, holds, hr.1, hr.2, here.disk, here.writer⟩
  | refused ne => exact absurd (congrArg Prod.fst hr).symm ne
  | broke ne => exact absurd (congrArg Prod.fst hr).symm ne

/-- A file holds at most one history. -/
theorem holds_unique {file tail₁ tail₂ : List UInt8}
    {entries₁ entries₂ : List WalEntry} {l₁ l₂ : Ledger}
    (h₁ : Holds file entries₁ tail₁ l₁) (h₂ : Holds file entries₂ tail₂ l₂) :
    entries₁ = entries₂ ∧ tail₁ = tail₂ := by
  have hscan {entries : List WalEntry} {tail : List UInt8} {l : Ledger}
      (h : Holds file entries tail l) :
      (scanAll (file.length + 1) readingInit
        (file.drop walFileHeaderSize)).2.report = reportOf entries tail := by
    have hrest : file.drop walFileHeaderSize
        = recordsFrom 0 entries ++ tail := by
      rw [h.bytes, logBytes, List.append_assoc]
      exact List.drop_left' length_walFileHeaderEncode
    have hfuel : (recordsFrom 0 entries ++ tail).length
        < file.length + 1 := by
      rw [← hrest, List.length_drop]
      omega
    obtain ⟨p, heq, -, hreport⟩ :=
      scanAll_complete reading_init h.run h.torn hfuel
    rw [hrest]
    exact heq ▸ hreport
  have hsize : (logBytes entries₁).length = (logBytes entries₂).length :=
    congrArg WalReplayReport.validBytes ((hscan h₁).symm.trans (hscan h₂))
  obtain ⟨hbytes, htail⟩ :=
    List.append_inj (h₁.bytes.symm.trans h₂.bytes) hsize
  refine ⟨?_, htail⟩
  rw [← logEntries_logBytes h₁.run, hbytes, logEntries_logBytes h₂.run]

/-- The file an accepting open leaves is the history's. -/
theorem file_of_holds {d : Disk} {entries : List WalEntry}
    {tail : List UInt8} {l : Ledger} (h : Holds d.file entries tail l) :
    (d.truncate (logBytes entries).length).sync.file = logBytes entries := by
  show d.file.take (logBytes entries).length = _
  rw [h.bytes]
  exact List.take_left' rfl

/-- With working I/O a file that holds a history is accepted. -/
theorem walReplayOpen_total {m : Machine} {entries : List WalEntry}
    {tail : List UInt8} {l : Ledger} (hp : m.disk.present = true)
    (holds : Holds m.disk.file entries tail l)
    (hready : m.Ready (2 * m.disk.file.length + 12)) :
    ∃ c, walReplayOpen ⟨walWriterInit, m⟩
      = .done (.ok, reportOf entries tail, some (recovered entries)) c := by
  have hspec := walReplayOpen_spec True (o := m.offset) (n := 0)
    walWriterInit_closed hp ⟨walWriterInit, m⟩
    ⟨rfl, rfl, rfl, fun _ => hready.mono (by omega)⟩
  cases hrun : walReplayOpen ⟨walWriterInit, m⟩ with
  | crash c =>
      rw [hrun] at hspec
      exact absurd trivial hspec.uncooperative
  | done r c =>
      rw [hrun] at hspec
      cases hspec with
      | accepted holds' here =>
          obtain ⟨rfl, rfl⟩ := holds_unique holds holds'
          exact ⟨c, rfl⟩
      | refused _ nothing => exact absurd holds (nothing _ _ _)
      | broke _ hb => exact absurd trivial hb.uncooperative

-- ================================================== the grammar

/-- The file is the header, the encoder's records of a legal history, and
an incomplete tail. -/
def IsLog (file : List UInt8) (entries : List WalEntry)
    (records tail : List UInt8) : Prop :=
  file = walFileHeaderEncode ++ records ++ tail
    ∧ Encodes 0 entries records
    ∧ (∃ l, Ledger.Run .init entries l)
    ∧ Torn entries.length tail

theorem isLog_iff {file records tail : List UInt8}
    {entries : List WalEntry} :
    IsLog file entries records tail
      ↔ records = recordsFrom 0 entries ∧ ∃ l, Holds file entries tail l := by
  constructor
  · rintro ⟨hfile, henc, ⟨l, hrun⟩, htorn⟩
    have hlt := Ledger.run_length_lt hrun
    have hrec := (encodes_iff (hrun.encodable Ledger.inv_init)
      (by omega)).mp henc
    subst hrec
    exact ⟨rfl, l, hfile, hrun, htorn⟩
  · rintro ⟨rfl, l, hholds⟩
    have hlt := Ledger.run_length_lt hholds.run
    exact ⟨hholds.bytes, (encodes_iff (hholds.run.encodable Ledger.inv_init)
      (by omega)).mpr rfl, ⟨l, hholds.run⟩, hholds.torn⟩

/-- Opening a log with an environment that only interrupts calls or
completes them, data calls as short as it likes, returns OK exactly on the
files of the grammar. An accepted file loses its incomplete tail and
nothing else, and its history's state is published; a refused file is not
touched, and the writer is disabled. -/
theorem walReplayOpen_decides (writer : WalWriter) (machine : Machine)
    (hclosed : writer.Closed) (hpresent : machine.disk.present = true)
    (hready : machine.Ready (2 * machine.disk.file.length + 12)) :
    ∃ result report state c',
      walReplayOpen ⟨writer, machine⟩ = .done (result, report, state) c'
      ∧ (result = .ok ↔ ∃ entries records tail,
          IsLog machine.disk.file entries records tail)
      ∧ (∀ entries records tail,
          IsLog machine.disk.file entries records tail →
          c'.machine.disk.file = walFileHeaderEncode ++ records
            ∧ report.tailBytes = tail.length
            ∧ state = some (recovered entries))
      ∧ (result ≠ .ok → c'.machine.disk = machine.disk ∧ state = none
          ∧ c'.writer.state = .failed) := by
  have hat : At True machine.disk machine.offset writer
      (0 + 2 * machine.disk.file.length + 12) ⟨writer, machine⟩ :=
    ⟨rfl, rfl, rfl, fun _ => hready.mono (by omega)⟩
  have hspec := walReplayOpen_spec True hclosed hpresent ⟨writer, machine⟩ hat
  cases hrun : walReplayOpen ⟨writer, machine⟩ with
  | crash c' =>
      rw [hrun] at hspec
      exact absurd trivial hspec.uncooperative
  | done r c' =>
      rw [hrun] at hspec
      cases hspec with
      | accepted holds here =>
          refine ⟨_, _, _, c', rfl, ?_, ?_, ?_⟩
          · exact iff_of_true rfl ⟨_, _, _, isLog_iff.mpr ⟨rfl, _, holds⟩⟩
          · intro entries records tail hlog
            obtain ⟨rfl, l, hholds⟩ := isLog_iff.mp hlog
            obtain ⟨rfl, rfl⟩ := holds_unique hholds holds
            refine ⟨?_, rfl, rfl⟩
            rw [here.disk, file_of_holds holds]
            rfl
          · exact fun hne => absurd rfl hne
      | @refused result report _ ne nothing disk latched =>
          refine ⟨result, report, none, c', rfl, ?_, ?_, ?_⟩
          · refine iff_of_false ne ?_
            rintro ⟨entries, records, tail, hlog⟩
            obtain ⟨-, l, hholds⟩ := isLog_iff.mp hlog
            exact nothing _ _ _ hholds
          · intro entries records tail hlog
            obtain ⟨-, l, hholds⟩ := isLog_iff.mp hlog
            exact absurd hholds (nothing _ _ _)
          · exact fun _ => ⟨disk, rfl, latched⟩
      | broke _ hb => exact absurd trivial hb.uncooperative

/-- A log of a header and two stray bytes, read a byte at a time. -/
def strayBytes : Machine :=
  { disk := { present := true, file := walFileHeaderEncode ++ [7, 7],
              dropped := [], synced := 24 }
    offset := 0
    script := .eintr :: List.replicate 64 (.moved 0) }

theorem strayBytes_ready : strayBytes.Ready 64 := by
  refine ⟨fun r hr => ?_, by decide⟩
  rcases List.mem_cons.mp hr with rfl | hr
  · trivial
  · rw [List.eq_of_mem_replicate hr]
    trivial

theorem walReplayOpen_decides_strayBytes :
    strayBytes.Ready (2 * strayBytes.disk.file.length + 12)
      ∧ ∃ result report state c',
        walReplayOpen ⟨walWriterInit, strayBytes⟩
          = .done (result, report, state) c'
        ∧ (result = .ok ↔ ∃ entries records tail,
            IsLog strayBytes.disk.file entries records tail) := by
  refine ⟨strayBytes_ready, ?_⟩
  obtain ⟨result, report, state, c', hrun, hiff, -⟩ :=
    walReplayOpen_decides walWriterInit strayBytes walWriterInit_closed rfl
      strayBytes_ready
  exact ⟨result, report, state, c', hrun, hiff⟩

-- ============================================== attempt accounts

/-- One job's records in a log, against the job they led to. -/
structure Accounts (records : List (JobEvent × Job)) (job : Job) : Prop where
  attempt : job.attempt.toNat = eventCount .assigned records
  /-- The k-th assignment carries attempt k. -/
  numbered : assignedAttempts records
    = List.range' 1 (eventCount .assigned records)
  retries : job.retryCount.toNat = eventCount .requeued records
  one_requeue : ∀ past first between next after,
    records = past ++ (.assigned, first)
      :: (between ++ (.assigned, next) :: after) →
    eventCount .assigned between = 0 → eventCount .requeued between = 1
  budget : eventCount .assigned records ≤ job.maxRetries.toNat + 1
  failed_spent : ∀ past snapshot after,
    records = past ++ (.failed, snapshot) :: after →
    eventCount .assigned past = job.maxRetries.toNat + 1
  /-- A completed or failed record has nothing behind it. -/
  terminal : ∀ past event snapshot after,
    records = past ++ (event, snapshot) :: after →
    event = .completed ∨ event = .failed → after = []
  /-- Id, task, arguments, budget and creation time never change. -/
  fixed : ∀ record ∈ records, SameJob record.2 job

theorem Life.accounts {records : List (JobEvent × Job)} {job : Job}
    (h : Life records job) : Accounts records job where
  attempt := h.assigned_count.symm
  numbered := by
    rw [h.assigned_count]
    exact h.attempts
  retries := h.requeued_count.symm
  one_requeue := by
    rintro past first between next after rfl hnone
    exact h.one_requeue_between hnone
  budget := h.assigned_count_le
  failed_spent := by
    rintro past snapshot after rfl
    exact h.failed_after
  terminal := by
    rintro past event snapshot after rfl hterm
    exact h.terminal_last hterm
  fixed := h.same

/-- In every accepted log, whatever wrote it, each job's counters are the
counts of its records. -/
theorem replay_accounts_attempts (c c' : WalCtx) (report : WalReplayReport)
    (state : WalReplayState)
    (h : walReplayOpen c = .done (.ok, report, some state) c') :
    (∀ job ∈ state.scheduler.jobs, Accounts
        (Ledger.recordsOf job.id (logEntries c'.machine.disk.file)) job)
      ∧ ∀ event snapshot,
          .job event snapshot ∈ logEntries c'.machine.disk.file →
          ∃ job ∈ state.scheduler.jobs, job.id = snapshot.id := by
  obtain ⟨entries, tail, l, hholds, -, hstate, hdisk, -⟩ := walReplayOpen_ok h
  cases hstate
  obtain ⟨index, htracks⟩ := tracks_recovered hholds.run
  have hjobs : (recovered entries).scheduler.jobs = l.board.jobs :=
    congrArg Board.jobs htracks.board
  obtain ⟨hlife, hnone⟩ := Ledger.life hholds.run
  rw [hdisk, file_of_holds hholds, logEntries_logBytes hholds.run, hjobs]
  refine ⟨fun job hj => (hlife job hj).accounts, ?_⟩
  intro event snapshot hmem
  by_contra hno
  have hempty := hnone snapshot.id fun job hj hid => hno ⟨job, hj, hid⟩
  have hin : (event, snapshot) ∈ Ledger.recordsOf snapshot.id entries :=
    List.mem_filterMap.mpr ⟨_, hmem, by simp⟩
  rw [hempty] at hin
  cases hin

/-- A job that was created, assigned to worker 3 and lost. -/
def lostJob : List WalEntry :=
  let job : Job :=
    { id := 7, taskType := .hash, arguments := [1], state := .queued,
      workerId := 0, attempt := 0, retryCount := 0, maxRetries := 2,
      createdAtMs := 5, updatedAtMs := 5, assignedAtMs := -1,
      startedAtMs := -1, finishedAtMs := -1, result := [],
      failure := .none }
  [.workerIdAllocated 3, .job .created job,
    .job .assigned { job with
      state := .assigned, workerId := 3, attempt := 1, assignedAtMs := 6,
      updatedAtMs := 6 },
    .job .requeued { job with
      attempt := 1, retryCount := 1, updatedAtMs := 9,
      failure := .workerLost }]

/-- Its log, and an environment that completes every call. -/
def lostJobCtx : WalCtx :=
  { writer := walWriterInit
    machine :=
      { disk := { present := true, file := logBytes lostJob, dropped := [],
                  synced := 0 }
        offset := 0
        script := List.replicate 20 (.moved 200) } }

theorem lostJob_accepted :
    ∃ report state c', walReplayOpen lostJobCtx
        = .done (.ok, report, some state) c'
      ∧ state.scheduler.jobs.length = 1 := by
  have hrun : (match walReplayOpen lostJobCtx with
      | .done (.ok, _, some state) _ => state.scheduler.jobs.length == 1
      | _ => false) = true := by
    decide +kernel
  split at hrun
  · rename_i report state c' heq
    exact ⟨report, state, c', heq, by simpa using hrun⟩
  · cases hrun

theorem replay_accounts_attempts_lostJob :
    ∃ report state c', walReplayOpen lostJobCtx
        = .done (.ok, report, some state) c'
      ∧ state.scheduler.jobs.length = 1
      ∧ ∀ job ∈ state.scheduler.jobs, Accounts
          (Ledger.recordsOf job.id (logEntries c'.machine.disk.file)) job := by
  obtain ⟨report, state, c', hrun, hlen⟩ := lostJob_accepted
  exact ⟨report, state, c', hrun, hlen,
    (replay_accounts_attempts lostJobCtx c' report state hrun).1⟩

end Faultline
