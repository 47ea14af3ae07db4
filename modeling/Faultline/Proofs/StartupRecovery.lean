/-
Startup recovery is idempotent.

What recovery appends depends on the replayed jobs alone, and a job it has
recovered is not active any more. So a log with part of the recovery
already in it needs exactly the rest (`lossEntries_resume`), and every log
an interrupted open can leave behind (`InProgress`) leads to the same final
log. `startup_recovery` puts this together with what recovery does to the
job table.
-/
import Faultline.Proofs.StoreRecovery

namespace Faultline

open Lib StoreCtx Scheduler

variable {base entries : List WalEntry} {l l' l₁ l₂ : Ledger} {time : Int64}
  {jobs pre suf done todo : List Job} {job : Job} {d d' : Disk}
  {content tail : List UInt8}

-- ====================================== recovery as a history

/-- The ids recovery puts back into the queue. -/
def requeuedIds (jobs : List Job) : List UInt64 :=
  (jobs.filter fun job => job.state.active
    && decide (job.retryCount < job.maxRetries)).map Job.id

theorem requeuedIds_append (xs ys : List Job) :
    requeuedIds (xs ++ ys) = requeuedIds xs ++ requeuedIds ys := by
  simp [requeuedIds]

/-- One loss is a legal entry. -/
theorem Ledger.lose (hinv : l.Inv)
    (hjobs : l.board.jobs = pre ++ job :: suf)
    (hact : job.state.active = true) :
    ∃ l', l.Step (lossEntry l.clock job) l'
      ∧ l'.board.jobs = pre ++ recoverJob l.clock job :: suf
      ∧ l'.board.pending = l.board.pending ++ requeuedIds [job]
      ∧ l'.clock = l.clock := by
  obtain ⟨⟨jobs, pending⟩, workers, clock⟩ := l
  obtain rfl : jobs = pre ++ job :: suf := hjobs
  have hmem : job ∈ pre ++ job :: suf := by simp
  have hfail := jobFail_active (hinv.board.valid job hmem) hact
    hinv.clock_nonneg (hinv.times_le job hmem)
  have hj := jobFail_step hfail
  have hupdated : (failedAttempt job .workerLost clock).updatedAtMs = clock :=
    failedAttempt_time _ _ _
  have htime : clock ≤ (failedAttempt job .workerLost clock).updatedAtMs := by
    rw [hupdated]
    exact Int64.le_refl _
  unfold lossEntry
  simp only [recoverJob, hact, if_true]
  by_cases hlt : job.retryCount < job.maxRetries
  · have hstate : (failedAttempt job .workerLost clock).state = .queued := by
      rw [failedAttempt, if_pos hlt]
    rw [hstate] at hj ⊢
    refine ⟨_, .job htime (fun h => by cases h) (.requeued hj), rfl, ?_,
      hupdated⟩
    simp [requeuedIds, hact, hlt, failedAttempt_id]
  · have hstate : (failedAttempt job .workerLost clock).state = .failed := by
      rw [failedAttempt, if_neg hlt]
    rw [hstate] at hj ⊢
    refine ⟨_, .job htime (fun h => by cases h) (.failed hj), rfl, ?_,
      hupdated⟩
    simp [requeuedIds, hact, hlt]

/-- The losses of a stretch of the table, in table order. -/
theorem Ledger.lose_all (done : List Job) (hinv : l.Inv)
    (hjobs : l.board.jobs = done ++ todo ++ suf) :
    ∃ l', Ledger.Run l (lossEntries l.clock todo) l'
      ∧ l'.board.jobs = done ++ todo.map (recoverJob l.clock) ++ suf
      ∧ l'.board.pending = l.board.pending ++ requeuedIds todo
      ∧ l'.clock = l.clock := by
  induction todo generalizing l done with
  | nil =>
      refine ⟨l, .nil, hjobs, ?_, rfl⟩
      simp [requeuedIds]
  | cons job rest ih =>
      by_cases hact : job.state.active = true
      · obtain ⟨l₁, hstep, hjobs₁, hpend₁, hclock₁⟩ :=
          Ledger.lose hinv (hjobs.trans (List.append_assoc done _ _)) hact
        obtain ⟨l', hrun, hjobs', hpend', hclock'⟩ :=
          ih (done ++ [recoverJob l.clock job]) (hstep.inv hinv)
            (by simpa using hjobs₁)
        rw [hclock₁] at hrun hjobs' hclock'
        refine ⟨l', ?_, by simpa using hjobs', ?_, hclock'⟩
        · rw [show lossEntries l.clock (job :: rest)
            = lossEntry l.clock job :: lossEntries l.clock rest by
              simp [lossEntries, hact]]
          exact .cons hstep hrun
        · rw [hpend', hpend₁, List.append_assoc, ← requeuedIds_append]
          rfl
      · obtain ⟨l', hrun, hjobs', hpend', hclock'⟩ :=
          ih (done ++ [job]) hinv (by simpa using hjobs)
        refine ⟨l', ?_, ?_, ?_, hclock'⟩
        · simpa [lossEntries, hact] using hrun
        · simpa [recoverJob, hact] using hjobs'
        · rw [hpend']
          simp [requeuedIds, hact]

/-- A history determines its board and its clock. -/
theorem Ledger.run_board (h₁ : Ledger.Run .init entries l₁)
    (h₂ : Ledger.Run .init entries l₂) :
    l₁.board = l₂.board ∧ l₁.clock = l₂.clock := by
  obtain ⟨_, ht₁⟩ := tracks_recovered h₁
  obtain ⟨_, ht₂⟩ := tracks_recovered h₂
  exact ⟨ht₁.board.symm.trans ht₂.board, ht₁.clock.symm.trans ht₂.clock⟩

/-- The ledger with part of the table recovered. -/
theorem losses_ledger (hrun : Ledger.Run .init base l)
    (hjobs : l.board.jobs = pre ++ suf)
    (hrun' : Ledger.Run .init (base ++ lossEntries l.clock pre) l') :
    l'.board.jobs = pre.map (recoverJob l.clock) ++ suf
      ∧ l'.board.pending = l.board.pending ++ requeuedIds pre
      ∧ l'.clock = l.clock := by
  obtain ⟨l₁, hloss, hjobs₁, hpend₁, hclock₁⟩ :=
    Ledger.lose_all [] (hrun.inv Ledger.inv_init) hjobs
  obtain ⟨hboard, hclock⟩ := Ledger.run_board hrun' (hrun.append hloss)
  rw [hboard, hclock]
  exact ⟨hjobs₁, hpend₁, hclock₁⟩

/-- Recovered jobs need no further recovery. -/
theorem lossEntries_resume (time : Int64) (pre suf : List Job) :
    lossEntries time (pre.map (recoverJob time) ++ suf)
      = lossEntries time suf := by
  have hidle : lossEntries time (pre.map (recoverJob time)) = [] := by
    simp only [lossEntries, List.map_eq_nil_iff, List.filter_eq_nil_iff,
      List.mem_map]
    rintro job ⟨old, -, rfl⟩
    rw [recoverJob_idle]
    simp
  rw [lossEntries_append, hidle, List.nil_append]

-- ======================================== interrupted recoveries

/-- A file with the history and part of its recovery. -/
def InProgress (base : List WalEntry) (l : Ledger) (content : List UInt8) :
    Prop :=
  ∃ pre suf tail l', l.board.jobs = pre ++ suf
    ∧ Holds content (base ++ lossEntries l.clock pre) tail l'

/-- Completing any part of the recovery gives one and the same history. -/
theorem InProgress.final (h : InProgress base l content)
    (hrun : Ledger.Run .init base l) (holds : Holds content entries tail l') :
    entries ++ lossEntries l'.clock l'.board.jobs
      = base ++ lossEntries l.clock l.board.jobs := by
  obtain ⟨pre, suf, tail', l₁, hjobs, holds₁⟩ := h
  obtain ⟨rfl, rfl⟩ := holds_unique holds holds₁
  obtain ⟨hjobs', -, hclock'⟩ := losses_ledger hrun hjobs holds.run
  rw [hjobs', hclock', lossEntries_resume, hjobs, lossEntries_append,
    List.append_assoc]

/-- Where a list with an active job continues one without. -/
theorem split_idle {xs ys : List Job}
    (h : done.map (recoverJob time) ++ todo = xs ++ job :: ys)
    (hact : job.state.active = true) :
    ∃ zs, xs = done.map (recoverJob time) ++ zs ∧ todo = zs ++ job :: ys := by
  rcases List.append_eq_append_iff.mp h with ⟨zs, hxs, htodo⟩ | ⟨zs, hdone, hrest⟩
  · exact ⟨zs, hxs, htodo⟩
  · cases zs with
    | nil => exact ⟨[], by simpa using hdone.symm, by simpa using hrest.symm⟩
    | cons z zs =>
        exfalso
        have hz : job = z := by
          simp only [List.cons_append, List.cons.injEq] at hrest
          exact hrest.1
        have hmem : z ∈ done.map (recoverJob time) := by
          rw [hdone]
          simp
        obtain ⟨old, -, hold⟩ := List.mem_map.mp hmem
        rw [hz, ← hold, recoverJob_idle] at hact
        cases hact

/-- An open that halts on such a file gets a little further. -/
theorem InProgress.halted (h : InProgress base l d.file)
    (hrun : Ledger.Run .init base l) {report : WalReplayReport}
    {c : StoreCtx} (holds : Holds d.file entries tail l')
    (hhalt : Halted l'.clock l'.board.jobs entries report c) :
    ∃ pre job suf l₁ l₂, l.board.jobs = pre ++ job :: suf
      ∧ job.state.active = true
      ∧ Ledger.Run .init (base ++ lossEntries l.clock pre) l₁
      ∧ l₁.Step (lossEntry l.clock job) l₂
      ∧ Unfinished (base ++ lossEntries l.clock pre) (lossEntry l.clock job)
          c.machine.disk := by
  obtain ⟨done, todo, tail', l₀, hjobs, holds₀⟩ := h
  obtain ⟨rfl, rfl⟩ := holds_unique holds holds₀
  obtain ⟨hjobs', -, hclock'⟩ := losses_ledger hrun hjobs holds.run
  obtain ⟨pre, job, suf, l₁, l₂, hsplit, hact, -, -, hagrees, hstep, hdisk⟩ :=
    hhalt.progress
  rw [hjobs'] at hsplit
  obtain ⟨zs, rfl, rfl⟩ := split_idle hsplit hact
  have hentries : base ++ lossEntries l.clock done
      ++ lossEntries l'.clock (done.map (recoverJob l.clock) ++ zs)
        = base ++ lossEntries l.clock (done ++ zs) := by
    rw [hclock', lossEntries_resume, lossEntries_append, List.append_assoc]
  rw [hentries] at hdisk
  rw [hclock'] at hdisk hstep
  refine ⟨done ++ zs, job, suf, l₁, l₂, by simpa using hjobs, hact,
    hentries ▸ hagrees.run, hstep, hdisk⟩

/-- Any number of opens of one log that failed or were cut short, and
power losses at any time. A power loss keeps the accepted records; behind
them a prefix of what no sync covers survives. -/
inductive Attempts (accepted : List UInt8) (d : Disk) : Disk → Prop where
  | start : Attempts accepted d d
  | attempt {nowMs : Int64} {m : Machine}
      {outcome : Outcome StoreCtx StoreResult}
      (before : Attempts accepted d m.disk)
      (run : storeOpen false nowMs ⟨storeInit, m⟩ = outcome)
      (unsuccessful : ∀ c, outcome ≠ .done .ok c) :
      Attempts accepted d outcome.state.machine.disk
  | powerLoss {d₁ : Disk} {content : List UInt8}
      (before : Attempts accepted d d₁) (survives : d₁.Survives content)
      (kept : accepted <+: content) :
      Attempts accepted d (d₁.reboot content)

/-- A disk on which the recovery can be resumed, now or after a power
loss. -/
structure Resumable (base : List WalEntry) (l : Ledger) (d : Disk) :
    Prop where
  present : d.present = true
  file : InProgress base l d.file
  survivors : ∀ content, d.Survives content → logBytes base <+: content →
    InProgress base l content

theorem InProgress.of_holds (h : Holds content base tail l) :
    InProgress base l content :=
  ⟨[], l.board.jobs, tail, l, rfl, by simpa [lossEntries] using h⟩

theorem InProgress.of_part (hjobs : l.board.jobs = pre ++ job :: suf)
    (hact : job.state.active = true)
    (hrun : Ledger.Run .init (base ++ lossEntries l.clock pre) l₁)
    (hstep : l₁.Step (lossEntry l.clock job) l₂) {part : List UInt8}
    (hpart : part <+: recordBytes (nextRecord
      (base ++ lossEntries l.clock pre) (lossEntry l.clock job))) :
    InProgress base l
      (logBytes (base ++ lossEntries l.clock pre) ++ part) := by
  rcases holds_part hrun hstep hpart with holds | holds
  · exact ⟨pre, _, _, _, hjobs, holds⟩
  · refine ⟨pre ++ [job], suf, [], l₂, by simpa using hjobs, ?_⟩
    rw [lossEntries_append, lossEntries_active hact, ← List.append_assoc]
    exact holds

/-- A log at rest. -/
theorem Resumable.of_holds (hp : d.present = true) (hrest : d.dropped = [])
    (h : Holds d.file base tail l) : Resumable base l d := by
  refine ⟨hp, .of_holds h, ?_⟩
  rintro content ⟨keep, -, hcontent⟩ ⟨rest, hrest'⟩
  rw [hrest, List.append_nil, h.bytes] at hcontent
  have hfront : logBytes base ++ rest <+: logBytes base ++ tail := by
    rw [hrest', hcontent]
    exact List.take_prefix _ _
  rw [← hrest']
  exact .of_holds ⟨rfl, h.run,
    h.torn.of_prefix ((List.prefix_append_right_inj _).mp hfront)⟩

theorem Resumable.of_unfinished (hjobs : l.board.jobs = pre ++ job :: suf)
    (hact : job.state.active = true)
    (hrun : Ledger.Run .init (base ++ lossEntries l.clock pre) l₁)
    (hstep : l₁.Step (lossEntry l.clock job) l₂)
    (h : Unfinished (base ++ lossEntries l.clock pre)
      (lossEntry l.clock job) d) : Resumable base l d := by
  refine ⟨?_, ?_, fun content hs _ => ?_⟩
  · obtain ⟨part, -, rfl⟩ := h
    rfl
  · obtain ⟨part, hpart, rfl⟩ := h
    exact .of_part hjobs hact hrun hstep hpart
  · obtain ⟨part, hpart, rfl⟩ := h.survives hs
    exact .of_part hjobs hact hrun hstep hpart

/-- Replay's own changes keep the log resumable. -/
theorem Resumable.recovering (h : Resumable base l d)
    (hr : Recovering d d') : Resumable base l d' := by
  -- The cut history is the one the file held.
  have hcut {entries : List WalEntry} {tail : List UInt8} {l' : Ledger}
      (holds : Holds d.file entries tail l') :
      InProgress base l (logBytes entries) := by
    obtain ⟨pre, suf, tail', l₁, hjobs, holds₁⟩ := h.file
    obtain ⟨rfl, rfl⟩ := holds_unique holds holds₁
    exact ⟨pre, suf, [], l₁, hjobs, (List.append_nil _).symm, holds₁.run,
      torn_nil _⟩
  cases hr with
  | untouched => exact h
  | cut holds =>
      have hfile := file_of_holds holds
      refine ⟨h.present, ?_, fun content hs hkept =>
        h.survivors content (Disk.survives_truncate.mp hs) hkept⟩
      rw [show (d.truncate _).file = _ from hfile]
      exact hcut holds
  | synced holds =>
      rw [logDisk_of_holds h.present holds]
      refine ⟨rfl, hcut holds, fun content hs _ => ?_⟩
      rw [survives_logDisk hs]
      exact hcut holds

/-- No attempt and no power loss spoils the recovery. -/
theorem Attempts.resumable (hrun : Ledger.Run .init base l)
    (hd : Resumable base l d) (h : Attempts (logBytes base) d d') :
    Resumable base l d' := by
  induction h with
  | start => exact hd
  | @attempt nowMs m outcome before run unsuccessful ih =>
      have hspec := storeOpen_spec False nowMs (n := 0)
        ih.present ⟨storeInit, m⟩ ⟨rfl, rfl, False.elim⟩
      have hhalted {entries : List WalEntry} {tail : List UInt8}
          {l' : Ledger} {c : StoreCtx}
          (holds : Holds m.disk.file entries tail l')
          (halted : Halted l'.clock l'.board.jobs entries
            (reportOf entries tail) c) :
          Resumable base l c.machine.disk := by
        obtain ⟨pre, job, suf, l₁, l₂, hjobs, hact, hrun₁, hstep, hdisk⟩ :=
          ih.file.halted hrun holds halted
        exact .of_unfinished hjobs hact hrun₁ hstep hdisk
      rw [run] at hspec
      cases outcome with
      | crash c =>
          cases hspec with
          | halted holds halted _ => exact hhalted holds halted
          | early early _ => exact ih.recovering early.disk
      | done result c =>
          cases hspec with
          | opened => exact absurd rfl (unsuccessful c)
          | halted holds halted => exact hhalted holds halted
          | early early => exact ih.recovering early.disk
  | powerLoss before survives kept ih =>
      exact ⟨ih.present, ih.survivors _ survives kept,
        fun content hs hkept =>
          ih.survivors content (survives.again hs) hkept⟩

-- ================================================== the theorem

/-- What recovery charges to one job: an interrupted attempt goes back to
the queue against one retry, or fails the job when no retry is left. -/
def Charged (old new : Job) : Prop :=
  if old.state.active then
    new.failure = .workerLost ∧ new.attempt = old.attempt
      ∧ if old.retryCount < old.maxRetries then
          new.state = .queued ∧ new.retryCount = old.retryCount + 1
            ∧ new.workerId = 0
        else new.state = .failed ∧ new.retryCount = old.retryCount
  else new = old

theorem charged_recoverJob (time : Int64) (job : Job) :
    Charged job (recoverJob time job) := by
  unfold Charged recoverJob failedAttempt
  split
  · by_cases hlt : job.retryCount < job.maxRetries
    · simp [hlt]
    · simp [hlt]
  · rfl

theorem lastJobId_recoverJob (time : Int64) (jobs : List Job) :
    lastJobId (jobs.map (recoverJob time)) = lastJobId jobs := by
  have hid : Job.id ∘ recoverJob time = Job.id := by
    funext job
    simp only [Function.comp_apply, recoverJob]
    split
    · exact failedAttempt_id _ _ _
    · rfl
  rw [lastJobId_eq, lastJobId_eq, List.map_map, hid]

/-- The job table a complete recovery publishes. -/
theorem recovered_scheduler {s : Scheduler} (hrun : Ledger.Run .init base l)
    (hs : s = (recovered (base ++ lossEntries l.clock l.board.jobs)).scheduler)
    (hrun' : Ledger.Run .init
      (base ++ lossEntries l.clock l.board.jobs) l') :
    s.jobs = l.board.jobs.map (recoverJob l.clock)
      ∧ s.pending.toList = l.board.pending ++ requeuedIds l.board.jobs
      ∧ s.nextJobId = (recovered base).scheduler.nextJobId := by
  obtain ⟨_, ht⟩ := tracks_recovered hrun
  obtain ⟨_, ht'⟩ := tracks_recovered hrun'
  obtain ⟨hjobs, hpend, -⟩ :=
    losses_ledger hrun (List.append_nil l.board.jobs).symm hrun'
  rw [List.append_nil] at hjobs
  subst hs
  have htable : (recovered (base ++ lossEntries l.clock l.board.jobs)
      ).scheduler.jobs = l.board.jobs.map (recoverJob l.clock) :=
    (congrArg Board.jobs ht'.board).trans hjobs
  refine ⟨htable, (congrArg Board.pending ht'.board).trans hpend, ?_⟩
  rw [ht'.rep.next, htable, lastJobId_recoverJob, ht.rep.next]
  exact congrArg (fun jobs => nextJobIdAfter (lastJobId jobs))
    (congrArg Board.jobs ht.board).symm

/-- A successful open leaves the complete recovery of the file's
history. -/
theorem storeOpen_ok {m : Machine} {nowMs : Int64} {c : StoreCtx}
    (hp : m.disk.present = true)
    (h : storeOpen false nowMs ⟨storeInit, m⟩ = .done .ok c) :
    ∃ base tail l l', Holds m.disk.file base tail l
      ∧ Ledger.Run .init (base ++ lossEntries l.clock l.board.jobs) l'
      ∧ c.store.jobs
        = (recovered (base ++ lossEntries l.clock l.board.jobs)).scheduler
      ∧ c.machine.disk
        = logDisk (base ++ lossEntries l.clock l.board.jobs) := by
  have hspec := storeOpen_spec False nowMs (n := 0) hp
    ⟨storeInit, m⟩ ⟨rfl, rfl, False.elim⟩
  rw [h] at hspec
  generalize hr : StoreResult.ok = r at hspec
  cases hspec with
  | opened holds recovery isOpen here =>
      obtain ⟨l', hlog⟩ := recovery.logged
      rw [List.take_length] at hlog
      exact ⟨_, _, _, l', holds, hlog.agrees.run, hlog.agrees.jobs_eq,
        here.disk⟩
  | halted => cases hr
  | early => cases hr

/-- With working I/O an accepted log is opened. -/
theorem storeOpen_total {m : Machine} (nowMs : Int64)
    (hp : m.disk.present = true) (holds : Holds m.disk.file base tail l)
    (hnow : 0 ≤ nowMs) (hready : m.Ready (openRoom m.disk)) :
    ∃ c, storeOpen false nowMs ⟨storeInit, m⟩ = .done .ok c := by
  have hspec := storeOpen_spec True nowMs (n := 0) hp
    ⟨storeInit, m⟩ ⟨rfl, rfl, fun _ => hready.mono (by omega)⟩
  cases hrun : storeOpen false nowMs ⟨storeInit, m⟩ with
  | crash c =>
      rw [hrun] at hspec
      cases hspec with
      | halted _ _ hbad => exact absurd trivial hbad
      | early _ hbad => exact absurd trivial hbad
  | done result c =>
      rw [hrun] at hspec
      cases hspec with
      | opened => exact ⟨c, rfl⟩
      | halted _ _ _ hbad => exact absurd trivial hbad
      | early _ _ why =>
          rcases why trivial with hneg | hnone
          · exact absurd hneg (Int64.not_lt.mpr hnow)
          · exact absurd holds (hnone _ _ _)

/-- An open of a log without active jobs leaves the file as it is. -/
theorem storeOpen_idle {m : Machine} {nowMs : Int64}
    (hdisk : m.disk = logDisk entries) (hrun : Ledger.Run .init entries l)
    (hidle : ∀ job ∈ l.board.jobs, job.state.active = false) :
    (storeOpen false nowMs ⟨storeInit, m⟩).state.machine.disk.file
      = logBytes entries := by
  have hfile : m.disk.file = logBytes entries := by
    rw [hdisk]
    rfl
  have hp : m.disk.present = true := by
    rw [hdisk]
    rfl
  have holds : Holds m.disk.file entries [] l :=
    ⟨by rw [hfile, List.append_nil], hrun, torn_nil _⟩
  have hearly {c : StoreCtx} (h : Early m.disk c) :
      c.machine.disk.file = logBytes entries := by
    have hdisk := h.disk
    generalize c.machine.disk = d' at hdisk
    cases hdisk with
    | untouched => exact hfile
    | cut holds' =>
        obtain ⟨rfl, -⟩ := holds_unique holds holds'
        exact file_of_holds holds
    | synced holds' =>
        obtain ⟨rfl, -⟩ := holds_unique holds holds'
        exact file_of_holds holds
  have hhalted {base' : List WalEntry} {tail' : List UInt8} {l' : Ledger}
      {report : WalReplayReport} {c : StoreCtx}
      (holds' : Holds m.disk.file base' tail' l')
      (h : Halted l'.clock l'.board.jobs base' report c) : False := by
    obtain ⟨rfl, -⟩ := holds_unique holds holds'
    obtain ⟨pre, job, suf, _, _, hsplit, hact, -⟩ := h.progress
    rw [← (Ledger.run_board hrun holds'.run).1] at hsplit
    rw [hidle job (by rw [hsplit]; simp)] at hact
    cases hact
  have hspec := storeOpen_spec False nowMs (n := 0) hp
    ⟨storeInit, m⟩ ⟨rfl, rfl, False.elim⟩
  cases hopen : storeOpen false nowMs ⟨storeInit, m⟩ with
  | crash c =>
      rw [hopen] at hspec
      cases hspec with
      | halted holds' halted _ => exact (hhalted holds' halted).elim
      | early early _ => exact hearly early
  | done result c =>
      rw [hopen] at hspec
      cases hspec with
      | opened holds' recovery isOpen here =>
          obtain ⟨rfl, -⟩ := holds_unique holds holds'
          have hnone (time : Int64) : lossEntries time l.board.jobs = [] := by
            simpa [lossEntries] using hidle
          rw [← (Ledger.run_board hrun holds'.run).1, hnone,
            List.append_nil] at here
          exact congrArg Disk.file here.disk
      | halted holds' halted => exact (hhalted holds' halted).elim
      | early early => exact hearly early

/-- Startup recovery charges each interruption once, however often it is
interrupted itself. A successful open leaves the replayed table with
exactly the active jobs charged, the requeued ones behind the pending ones
in id order, and exactly the records of these charges behind the accepted
log. After any failed or cut-short attempts, with whatever clock readings,
the next successful open leaves the same file and the same scheduler, and
with working I/O it does succeed; and a further open leaves the file as it
is. -/
theorem startup_recovery (m₀ m : Machine) (report : WalReplayReport)
    (state : WalReplayState) (w : WalCtx) (nowMs : Int64) (c : StoreCtx)
    (hreplay : walReplayOpen ⟨walWriterInit, m₀⟩
      = .done (.ok, report, some state) w)
    (hlog : m.disk = m₀.disk)
    (hopen : storeOpen false nowMs ⟨storeInit, m⟩ = .done .ok c) :
    (c.store.jobs.jobs
        = state.scheduler.jobs.map (recoverJob state.jobTimeBaseMs)
      ∧ List.Forall₂ Charged state.scheduler.jobs c.store.jobs.jobs
      ∧ (state.scheduler.jobs.map Job.id).Pairwise (· < ·)
      ∧ c.store.jobs.pending.toList
        = state.scheduler.pending.toList ++ requeuedIds state.scheduler.jobs
      ∧ c.store.jobs.nextJobId = state.scheduler.nextJobId
      ∧ logEntries c.machine.disk.file
        = logEntries (m.disk.file.take report.validBytes)
          ++ lossEntries state.jobTimeBaseMs state.scheduler.jobs)
    ∧ (m.disk.dropped = [] → ∀ d',
        Attempts (m.disk.file.take report.validBytes) m.disk d' →
        (∀ nowMs' m' c', m'.disk = d' →
          storeOpen false nowMs' ⟨storeInit, m'⟩ = .done .ok c' →
          c'.machine.disk.file = c.machine.disk.file
            ∧ c'.store.jobs = c.store.jobs)
        ∧ ∀ nowMs' m', m'.disk = d' → 0 ≤ nowMs' → m'.Ready (openRoom d') →
          ∃ c', storeOpen false nowMs' ⟨storeInit, m'⟩ = .done .ok c')
    ∧ ∀ nowMs' m', m'.disk = c.machine.disk →
        (storeOpen false nowMs' ⟨storeInit, m'⟩).state.machine.disk.file
          = c.machine.disk.file := by
  obtain ⟨base, tail, l, holds₀, rfl, hstate, -, -⟩ := walReplayOpen_ok hreplay
  have hp : m.disk.present = true := by
    rw [hlog]
    exact (walReplayOpen_started hreplay).2
  have holds : Holds m.disk.file base tail l := by
    rw [hlog]
    exact holds₀
  obtain rfl : state = recovered base := Option.some.inj hstate
  obtain ⟨index, ht⟩ := tracks_recovered holds.run
  have hjobs : (recovered base).scheduler.jobs = l.board.jobs :=
    congrArg Board.jobs ht.board
  have hpending : (recovered base).scheduler.pending.toList
      = l.board.pending := congrArg Board.pending ht.board
  obtain ⟨base', tail', l₁, l', holds₁, hrun', hstore, hdisk⟩ :=
    storeOpen_ok hp hopen
  obtain ⟨rfl, rfl⟩ := holds_unique holds holds₁
  obtain ⟨hboard, hclock⟩ := Ledger.run_board holds.run holds₁.run
  rw [← hboard, ← hclock] at hrun' hstore hdisk
  have haccepted : m.disk.file.take (reportOf base tail).validBytes
      = logBytes base := file_of_holds holds
  obtain ⟨htable, hpend, hnext⟩ := recovered_scheduler holds.run hstore hrun'
  have hfile : c.machine.disk.file
      = logBytes (base ++ lossEntries l.clock l.board.jobs) := by
    rw [hdisk]
    rfl
  rw [haccepted, hjobs, hpending, ht.clock]
  refine ⟨⟨htable, ?_, ?_, hpend, hnext, ?_⟩, ?_, ?_⟩
  · rw [htable, List.forall₂_map_right_iff]
    exact List.forall₂_same.mpr fun job _ => charged_recoverJob _ job
  · exact ht.inv.board.ids
  · rw [hfile, logEntries_logBytes hrun', logEntries_logBytes holds.run]
  · intro hrest d' hattempts
    have hres := hattempts.resumable holds.run (.of_holds hp hrest holds)
    refine ⟨fun nowMs' m' c' hm' hopen' => ?_, fun nowMs' m' hm' hnow hready => ?_⟩
    · subst hm'
      obtain ⟨base', tail', l₂, l₃, holds', -, hstore', hdisk'⟩ :=
        storeOpen_ok hres.present hopen'
      rw [hres.file.final holds.run holds'] at hstore' hdisk'
      exact ⟨by rw [hdisk', hdisk], by rw [hstore', hstore]⟩
    · subst hm'
      obtain ⟨_, _, _, _, -, holds'⟩ := hres.file
      exact storeOpen_total _ hres.present holds' hnow hready
  · intro nowMs' m' hm'
    rw [hfile]
    refine storeOpen_idle (hm'.trans hdisk) hrun' fun job hjob => ?_
    rw [(losses_ledger holds.run (List.append_nil _).symm hrun').1,
      List.append_nil] at hjob
    obtain ⟨old, -, rfl⟩ := List.mem_map.mp hjob
    exact recoverJob_idle _ old

/-- A job assigned to worker 3 when the coordinator stopped. -/
def interruptedJob : List WalEntry := lostJob.take 3

theorem interruptedJob_run : ∃ l, Ledger.Run .init interruptedJob l
    ∧ requeuedIds l.board.jobs = [7] := by
  refine ⟨_, .cons (.worker (by decide) (by simp [Ledger.init])) (.cons
    (.job (by decide) (by decide) (.created (by simp) (by decide)
      (by decide +kernel)))
    (.cons (.job (by decide) (by simp)
      (@Board.Step.assigned [] _ [] _ _ (by decide) ?_)) .nil)), by decide⟩
  show jobAssign _ _ _ = _
  decide +kernel

theorem startup_recovery_interruptedJob :
    ∃ m report state w c,
      walReplayOpen ⟨walWriterInit, m⟩ = .done (.ok, report, some state) w
      ∧ storeOpen false 3 ⟨storeInit, m⟩ = .done .ok c
      ∧ requeuedIds state.scheduler.jobs = [7]
      ∧ c.store.jobs.pending.toList
        = state.scheduler.pending.toList
          ++ requeuedIds state.scheduler.jobs := by
  obtain ⟨l, hrun, hids⟩ := interruptedJob_run
  let d := logDisk interruptedJob
  let m : Machine := ⟨d, 0, List.replicate (openRoom d) (.moved 0)⟩
  have hready : m.Ready (openRoom d) := Machine.ready_replicate _ _ _ _
  have holds : Holds m.disk.file interruptedJob [] l :=
    ⟨(List.append_nil _).symm, hrun, torn_nil _⟩
  obtain ⟨w, hreplay⟩ := walReplayOpen_total (m := m) rfl holds
    (hready.mono (show 2 * d.file.length + 12 ≤ openRoom d by
      unfold openRoom; omega))
  obtain ⟨c, hopen⟩ := storeOpen_total (m := m) 3 rfl holds
    (by decide) hready
  obtain ⟨index, ht⟩ := tracks_recovered hrun
  refine ⟨m, _, _, w, c, hreplay, hopen, ?_,
    (startup_recovery m m _ _ w 3 c hreplay rfl hopen).1.2.2.2.1⟩
  rw [show (recovered interruptedJob).scheduler.jobs = l.board.jobs from
    congrArg Board.jobs ht.board]
  exact hids

end Faultline
