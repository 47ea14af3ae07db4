/-
Startup recovery.

An open replays the log and then reports the loss of every worker that
owned an active job, in table order. All of these losses carry one time,
the latest of the replayed history, whatever the raw clock says; so the
entries they append are a function of the replayed jobs (`lossEntries`).
`recoverFrom_spec` says how far the loop gets: through the whole table, or
up to one job whose record is not complete in the log.
-/
import Faultline.Proofs.StoreSteps

namespace Faultline

open Lib StoreCtx Scheduler

-- ======================================================= losses

/-- The record recovery leaves of a job. -/
def recoverJob (time : Int64) (job : Job) : Job :=
  if job.state.active then failedAttempt job .workerLost time else job

/-- The entry that reports the loss of a job's worker. -/
def lossEntry (time : Int64) (job : Job) : WalEntry :=
  .job (outcomeEvent (failedAttempt job .workerLost time).state)
    (failedAttempt job .workerLost time)

/-- The entries recovery appends for a job table. -/
def lossEntries (time : Int64) (jobs : List Job) : List WalEntry :=
  (jobs.filter fun job => job.state.active).map (lossEntry time)

variable {good : Prop} {store : CoordinatorStore} {n : Nat}
  {entries base : List WalEntry} {l : Ledger} {now time : Int64}
  {jobs pre suf : List Job} {job : Job} {s : Scheduler}

theorem lossEntries_append (time : Int64) (xs ys : List Job) :
    lossEntries time (xs ++ ys)
      = lossEntries time xs ++ lossEntries time ys := by
  simp [lossEntries]

theorem lossEntries_active (h : job.state.active = true) :
    lossEntries time [job] = [lossEntry time job] := by
  simp [lossEntries, h]

theorem lossEntries_idle (h : job.state.active = false) :
    lossEntries time [job] = [] := by
  simp [lossEntries, h]

/-- A recovered job is not active any more. -/
theorem recoverJob_idle (time : Int64) (job : Job) :
    (recoverJob time job).state.active = false := by
  unfold recoverJob failedAttempt
  split
  · split <;> rfl
  · rename_i h
    simpa using h

theorem failedAttempt_id (job : Job) (failure : JobFailure) (time : Int64) :
    (failedAttempt job failure time).id = job.id := by
  unfold failedAttempt
  split <;> rfl

/-- An outcome rewrites its job's record in place. -/
theorem commit_outcome_jobs (h : s.Rep) (hjobs : s.jobs = pre ++ job :: suf)
    {new : Job} (hid : new.id = job.id) (state : JobState) :
    (s.commit (outcomeEvent state) new).jobs = pre ++ new :: suf := by
  have hset := set_middle hjobs h.inv hid
  cases state <;> exact hset

/-- At the session's own start the job time is the time base. -/
theorem CoordinatorStore.jobTime_start (hnow : 0 ≤ now) (htime : 0 ≤ time)
    (hbase : store.timeBaseMs = time) (hlast : store.lastJobTimeMs = time)
    (hstart : store.sessionStartMs = now) :
    store.jobTime now = some time := by
  unfold CoordinatorStore.jobTime
  have hargs : ¬ (decide (now < now) || decide (now < 0)
      || decide (0 > 0x7fffffffffffffff - time)) = true := by
    simp only [Bool.or_eq_true, decide_eq_true_eq, not_or]
    grind
  rw [hbase, hlast, hstart, Int64.sub_self, Int64.add_zero, if_neg hargs,
    if_neg (Int64.not_lt.mpr (Int64.le_refl _))]

/-- The loss of an active job's worker is planned as its entry. -/
theorem lossPlan_active (h : Agrees store entries l)
    (hjob : job ∈ store.jobs.jobs) (hact : job.state.active = true)
    (htime : store.jobTime now = some time) (hnonneg : 0 ≤ time)
    (hlast : store.lastJobTimeMs = time) :
    lossPlan store job.workerId now
        = jobPlan store
            (outcomeEvent (failedAttempt job .workerLost time).state)
            (failedAttempt job .workerLost time) .none
      ∧ Agrees.Effect store entries l (lossPlan store job.workerId now) := by
  obtain ⟨hrep, hboard, hclock⟩ := h.rep
  have hle : job.updatedAtMs ≤ time := by
    rw [← hlast, hclock]
    refine (h.run.inv Ledger.inv_init).times_le job ?_
    rw [← hboard]
    exact hjob
  have hupdated : (failedAttempt job .workerLost time).updatedAtMs = time :=
    failedAttempt_time _ _ _
  have hfail := jobFail_active (hrep.inv.valid job hjob) hact hnonneg hle
  have hlost := workerLost_accepted hrep hjob hact hnonneg hle
  obtain ⟨⟨b', hstep⟩, hplan⟩ :=
    lossPlan_ok hrep (hrep.active_eq hjob hact) (hupdated.symm ▸ htime)
      (hupdated.symm ▸ hfail) (hupdated.symm ▸ hlost)
  refine ⟨hplan, ?_⟩
  rw [hplan]
  refine h.jobPlan_effect hstep ?_
    (fun hev => absurd hev (outcomeEvent_ne_assigned _)) ?_
  · rw [hupdated, hlast]
    exact Int64.le_refl _
  · cases (failedAttempt job .workerLost time).state <;> rfl

-- ===================================================== the loop

/-- The store with the first `i` jobs of the table recovered. -/
structure InRecovery (now time : Int64) (jobs : List Job)
    (base : List WalEntry) (report : WalReplayReport) (i : Nat)
    (store : CoordinatorStore) : Prop where
  logged : ∃ l, Logged store (base ++ lossEntries time (jobs.take i)) l
  table : store.jobs.jobs = (jobs.take i).map (recoverJob time) ++ jobs.drop i
  lastJobTime : store.lastJobTimeMs = time
  timeBase : store.timeBaseMs = time
  sessionStart : store.sessionStartMs = now
  failure : store.failure = .none
  replayed : store.replayResult = .ok ∧ store.replayReport = report

/-- Recovery ended early: everything before one active job is durable and
published, and that job's record is not complete in the log. -/
structure Halted (time : Int64) (jobs : List Job) (base : List WalEntry)
    (report : WalReplayReport) (c : StoreCtx) : Prop where
  progress : ∃ pre job suf l l', jobs = pre ++ job :: suf
    ∧ job.state.active = true
    ∧ c.store.jobs.jobs = pre.map (recoverJob time) ++ job :: suf
    ∧ c.store.lastJobTimeMs = time
    ∧ Agrees c.store (base ++ lossEntries time pre) l
    ∧ l.Step (lossEntry time job) l'
    ∧ Unfinished (base ++ lossEntries time pre) (lossEntry time job)
        c.machine.disk
  replayed : c.store.replayResult = .ok ∧ c.store.replayReport = report

variable {report : WalReplayReport} {i left : Nat}

/-- Recovering one active job. -/
theorem commitLoss_spec (hnow : 0 ≤ now) (htime : 0 ≤ time)
    (h : InRecovery now time jobs base report i store)
    (hget : jobs[i]? = some job) (hact : job.state.active = true) :
    Prog.Triple
      (StoreAt good (logDisk (base ++ lossEntries time (jobs.take i))) store
        (n + appendRoom))
      (commitWorkerLoss job.workerId now)
      (fun r c => r = .ok
          ∧ InRecovery now time jobs base report (i + 1) c.store
          ∧ StoreAt good
            (logDisk (base ++ lossEntries time (jobs.take (i + 1)))) c.store n c
        ∨ r = .fatal ∧ ¬ good ∧ c.store.failure ≠ .none
          ∧ Halted time jobs base report c)
      (fun c => ¬ good ∧ Halted time jobs base report c) := by
  obtain ⟨l, hlog⟩ := h.logged
  obtain ⟨hlt, rfl⟩ := List.getElem?_eq_some_iff.mp hget
  have hdrop : jobs.drop i = jobs[i] :: jobs.drop (i + 1) :=
    List.drop_eq_getElem_cons hlt
  have htake : jobs.take (i + 1) = jobs.take i ++ [jobs[i]] :=
    (List.take_append_getElem hlt).symm
  have hsplit : jobs = jobs.take i ++ jobs[i] :: jobs.drop (i + 1) := by
    rw [← hdrop, List.take_append_drop]
  have htable : store.jobs.jobs
      = (jobs.take i).map (recoverJob time) ++ jobs[i] :: jobs.drop (i + 1) := by
    rw [h.table, hdrop]
  have hmem : jobs[i] ∈ store.jobs.jobs := by
    rw [htable]
    exact List.mem_append_right _ List.mem_cons_self
  have hentries : base ++ lossEntries time (jobs.take (i + 1))
      = (base ++ lossEntries time (jobs.take i)) ++ [lossEntry time jobs[i]] := by
    rw [htake, lossEntries_append, lossEntries_active hact, List.append_assoc]
  obtain ⟨hplan, heff⟩ := lossPlan_active hlog.agrees
    hmem hact (CoordinatorStore.jobTime_start hnow htime h.timeBase
      h.lastJobTime h.sessionStart) htime h.lastJobTime
  -- Where the append stops or fails, this job is the one not recovered.
  have hhalt {c : StoreCtx} {l' : Ledger} (hsame : SamePublished c.store store)
      (hreplay : c.store.replayResult = store.replayResult
        ∧ c.store.replayReport = store.replayReport)
      (hstep : l.Step (lossEntry time jobs[i]) l')
      (hdisk : Unfinished (base ++ lossEntries time (jobs.take i))
        (lossEntry time jobs[i]) c.machine.disk) :
      Halted time jobs base report c :=
    ⟨⟨_, _, _, l, l', hsplit, hact, hsame.jobs ▸ htable,
        hsame.clock.trans h.lastJobTime, hlog.agrees.of_same hsame, hstep,
        hdisk⟩,
      hreplay.1.trans h.replayed.1, hreplay.2.trans h.replayed.2⟩
  refine (commitWorkerLoss_spec _ hlog heff).conseq (fun _ hc => hc) ?_ ?_
  · intro r c hperf
    generalize hout : (r, StoreOutput.none) = out at hperf
    rw [hplan, jobPlan] at hperf
    cases hperf with
    | quiet heq => cases heq
    | committed heq hstep logged session here =>
        injection heq with hentry hpublish
        subst hentry hpublish
        have hjobs : c.store.jobs = store.jobs.commit _ _ :=
          congrArg CoordinatorStore.jobs here.store
        refine Or.inl ⟨congrArg Prod.fst hout, ⟨⟨_, hentries ▸ logged⟩, ?_, ?_,
          session.2.2.1.trans h.timeBase,
          session.2.2.2.trans h.sessionStart, session.1.trans h.failure, ?_⟩,
          ?_⟩
        · rw [hjobs, commit_outcome_jobs hlog.agrees.rep.1 htable
            (failedAttempt_id _ _ _), htake, List.map_append,
            List.append_assoc]
          simp [recoverJob, hact]
        · rw [here.store]
          exact failedAttempt_time _ _ _
        · rw [here.store]
          exact h.replayed
        · rw [hentries]
          exact ⟨here.disk, rfl, here.ready⟩
    | broke heq hstep hbad hstore hdisk =>
        injection heq with hentry
        subst hentry
        obtain ⟨w, hstore⟩ := hstore
        have hfail : store.broken w
            = { store with wal := w, writeResult := .ioError,
                           failure := .wal } := by
          simp [CoordinatorStore.broken, CoordinatorStore.fail, h.failure]
        rw [hfail] at hstore
        refine Or.inr ⟨congrArg Prod.fst hout, hbad, ?_,
          hhalt ?_ ?_ hstep hdisk⟩ <;> rw [hstore]
        · simp
        · exact ⟨rfl, rfl, rfl⟩
        · exact ⟨rfl, rfl⟩
  · rintro c ⟨⟨entry, publish, l', heq, hstep, hdisk⟩, ⟨w, hstore⟩, hbad⟩
    rw [hplan, jobPlan] at heq
    injection heq with hentry
    subst hentry
    refine ⟨hbad, hhalt ?_ ?_ hstep hdisk⟩ <;> rw [hstore]
    · exact ⟨rfl, rfl, rfl⟩
    · exact ⟨rfl, rfl⟩

/-- The loop recovers the rest of the table, or halts. -/
theorem recoverFrom_spec (hnow : 0 ≤ now) (htime : 0 ≤ time) :
    ∀ {left i : Nat}, i + left = jobs.length →
    Prog.Triple
      (fun c => InRecovery now time jobs base report i c.store
        ∧ StoreAt good (logDisk (base ++ lossEntries time (jobs.take i)))
          c.store (n + left * appendRoom) c)
      (recoverFrom now left i)
      (fun r c => r = .ok
          ∧ InRecovery now time jobs base report jobs.length c.store
          ∧ StoreAt good (logDisk (base ++ lossEntries time jobs)) c.store n c
        ∨ r = .fatal ∧ ¬ good ∧ c.store.failure ≠ .none
          ∧ Halted time jobs base report c)
      (fun c => ¬ good ∧ Halted time jobs base report c)
  | 0, i, hi => by
      rintro c ⟨h, hat⟩
      obtain rfl : i = jobs.length := by omega
      rw [List.take_length] at hat
      exact Or.inl ⟨rfl, h, hat.disk, rfl,
        fun hg => (hat.ready hg).mono (by omega)⟩
  | left + 1, i, hi => by
      rintro c ⟨h, hat⟩
      have hlt : i < jobs.length := by omega
      have hget : jobs[i]? = some jobs[i] := List.getElem?_eq_getElem hlt
      have hslot : c.store.jobs.jobs[i]? = some jobs[i] := by
        rw [h.table, List.getElem?_append_right (by simp)]
        simp [hlt, Nat.min_eq_left (Nat.le_of_lt hlt)]
      have hroom : n + (left + 1) * appendRoom
          = (n + left * appendRoom) + appendRoom := by
        rw [Nat.succ_mul, Nat.add_assoc]
      unfold recoverFrom
      rw [Prog.bind_run, getStore_run]
      simp only [hslot]
      by_cases hact : jobs[i].state.active = true
      · rw [if_pos hact]
        refine Prog.Triple.bind (commitLoss_spec hnow htime h hget hact)
          (fun r c hc => ?_) c (hroom ▸ hat)
        rcases hc with ⟨rfl, h', hat'⟩ | ⟨rfl, hbad, hlatched, hhalt⟩
        · refine recoverFrom_spec hnow htime (by omega) _ ⟨?_, hat'.disk, rfl,
            hat'.ready⟩
          obtain ⟨l, hlog⟩ := h'.logged
          exact ⟨⟨l, hlog.agrees.of_same ⟨rfl, rfl, rfl⟩, hlog.state,
            hlog.next⟩, h'.table, h'.lastJobTime, h'.timeBase,
            h'.sessionStart, h'.failure, h'.replayed⟩
        · exact Or.inr ⟨rfl, hbad, hlatched, hhalt⟩
      · rw [if_neg hact]
        have htake : jobs.take (i + 1) = jobs.take i ++ [jobs[i]] :=
          (List.take_append_getElem hlt).symm
        have hloss : lossEntries time (jobs.take (i + 1))
            = lossEntries time (jobs.take i) := by
          rw [htake, lossEntries_append,
            lossEntries_idle (Bool.not_eq_true _ ▸ hact), List.append_nil]
        refine recoverFrom_spec hnow htime (by omega) c ⟨⟨?_, ?_,
          h.lastJobTime, h.timeBase, h.sessionStart, h.failure, h.replayed⟩,
          ?_⟩
        · rw [hloss]
          exact h.logged
        · rw [h.table, htake, List.drop_eq_getElem_cons hlt, List.map_append,
            List.append_assoc]
          simp [recoverJob, hact]
        · rw [hloss]
          exact ⟨hat.disk, rfl, fun hg => (hat.ready hg).mono (by omega)⟩

variable (good base jobs report) in
/-- Recovery of the whole table. -/
theorem recoverInterruptedJobs_spec (hnow : 0 ≤ now) (htime : 0 ≤ time) :
    Prog.Triple
      (fun c => InRecovery now time jobs base report 0 c.store
        ∧ StoreAt good (logDisk base) c.store (n + jobs.length * appendRoom) c)
      (recoverInterruptedJobs now)
      (fun r c => r = .ok
          ∧ InRecovery now time jobs base report jobs.length c.store
          ∧ StoreAt good (logDisk (base ++ lossEntries time jobs)) c.store n c
        ∨ r = .fatal ∧ ¬ good ∧ c.store.failure ≠ .none
          ∧ Halted time jobs base report c)
      (fun c => ¬ good ∧ Halted time jobs base report c) := by
  rintro c ⟨h, hat⟩
  have htable : c.store.jobs.jobs = jobs := by
    simpa using h.table
  unfold recoverInterruptedJobs
  rw [Prog.bind_run, getStore_run]
  simp only [htable]
  refine recoverFrom_spec hnow htime (Nat.zero_add _) c ⟨h, ?_⟩
  simpa [lossEntries] using hat

-- ====================================================== opening

/-- The store's replay has completed. -/
def CoordinatorStore.replayed (store : CoordinatorStore) : Bool :=
  store.replayResult == .ok && store.replayReport.validBytes != 0

theorem CoordinatorStore.replayed_reportOf {tail : List UInt8}
    (h : store.replayResult = .ok
      ∧ store.replayReport = reportOf entries tail) :
    store.replayed = true := by
  have hlen : walFileHeaderEncode.length ≤ (logBytes entries).length := by
    rw [logBytes, List.length_append]
    omega
  rw [length_walFileHeaderEncode, walFileHeaderSize] at hlen
  have hpos : (reportOf entries tail).validBytes ≠ 0 := by
    show (logBytes entries).length ≠ 0
    omega
  simp [CoordinatorStore.replayed, h.1, h.2, hpos]

theorem CoordinatorStore.replayed_of_ne (h : store.replayResult ≠ .ok) :
    store.replayed = false := by
  simp [CoordinatorStore.replayed, h]

/-- The store that has just published a replayed history. -/
def replayedStore (entries : List WalEntry) (tail : List UInt8) :
    CoordinatorStore :=
  { storeInit with
    wal := resumeWriter (UInt64.ofNat entries.length) walWriterInit.opened
    replayResult := .ok
    replayReport := reportOf entries tail
    jobs := (recovered entries).scheduler
    workers := (recovered entries).workers
    timeBaseMs := (recovered entries).jobTimeBaseMs }

/-- An open that ended before anything was published. -/
structure Early (d : Disk) (c : StoreCtx) : Prop where
  disk : Recovering d c.machine.disk
  unpublished : c.store.replayed = false
  jobs : c.store.jobs = schedulerInit
  workers : c.store.workers = workerRegistryInit

variable {d : Disk}

theorem logDisk_of_holds {tail : List UInt8} (hp : d.present = true)
    (h : Holds d.file entries tail l) :
    (d.truncate (logBytes entries).length).sync = logDisk entries := by
  have hfile := file_of_holds h
  obtain ⟨present, file, dropped, synced⟩ := d
  simp only [Disk.truncate, Disk.sync, logDisk, Disk.mk.injEq, true_and] at hfile ⊢
  exact ⟨hp, hfile, congrArg List.length hfile⟩

variable (good) in
/-- Replaying publishes the file's history, or ends early. -/
theorem replayLog_spec (hp : d.present = true) :
    Prog.Triple
      (StoreAt good d storeInit (n + 2 * d.file.length + 13))
      replayLog
      (fun r c => (r = .ok ∧ ∃ entries tail l, Holds d.file entries tail l
            ∧ StoreAt good (logDisk entries) (replayedStore entries tail) n c)
        ∨ (r = .fatal ∧ Early d c ∧ c.store.failure ≠ .none
            ∧ (good → ∀ entries tail l, ¬ Holds d.file entries tail l)))
      (fun c => ¬ good ∧ Early d c) := by
  intro c hc
  have hcall := onWal_triple (show Calls good (Recovering d)
      (At good d c.machine.offset walWriterInit
        (n + 2 * d.file.length + 12 + 1)) WalCtx.call
      (At good d c.machine.offset walWriterInit (n + 2 * d.file.length + 12))
    from calls_call .untouched) storeInit
  have hstopped {w : WalCtx} (h : Stopped good (Recovering d) w) :
      ¬ good ∧ Early d ⟨{ storeInit with wal := w.writer }, w.machine⟩ :=
    ⟨h.uncooperative, h.disk, rfl, rfl, rfl⟩
  refine Prog.Triple.bind (hcall.conseq (fun _ hc => hc) (fun _ _ hc => hc) ?_)
    (fun r c₁ hc₁ => ?_) c ⟨hc.store, hc.disk, rfl, rfl, hc.ready⟩
  · rintro c₁ ⟨w, hstop, rfl⟩
    exact hstopped hstop
  obtain ⟨w, ⟨rfl, hat⟩ | ⟨errno, rfl, hdisk, hbad⟩, rfl⟩ := hc₁
  swap
  · exact Or.inr ⟨rfl, ⟨hdisk, rfl, rfl, rfl⟩, StoreFailure.noConfusion,
      fun hg => absurd hg hbad⟩
  have hopen := onWal_triple (walReplayOpen_spec good
    (o := c.machine.offset) (n := n) walWriterInit_closed hp) storeInit
  have hstore : ({ storeInit with wal := w.writer } : CoordinatorStore)
      = storeInit := by
    rw [hat.writer]
    rfl
  refine Prog.Triple.bind (hopen.conseq (fun _ hc => hc) (fun _ _ hc => hc) ?_)
    (fun r c₂ hc₂ => ?_) ⟨{ storeInit with wal := w.writer }, w.machine⟩
    ⟨hstore, hat.disk, hat.offset, rfl, hat.ready⟩
  · rintro c₁ ⟨w, hstop, rfl⟩
    exact hstopped hstop
  obtain ⟨w₂, hopened, rfl⟩ := hc₂
  cases hopened with
  | accepted holds here =>
      refine Or.inl ⟨rfl, _, _, _, holds, ?_, ?_, here.ready⟩
      · rw [← logDisk_of_holds hp holds]
        exact here.disk
      · show CoordinatorStore.mk _ _ w₂.writer _ _ _ _ _ _ _ _ _ = _
        rw [here.writer]
        rfl
  | @refused result report _ ne nothing disk latched =>
      refine Or.inr ⟨rfl, ⟨?_, ?_, rfl, rfl⟩, StoreFailure.noConfusion,
        fun _ => nothing⟩
      · rw [show w₂.machine.disk = d from disk]
        exact .untouched
      · exact CoordinatorStore.replayed_of_ne ne
  | @broke result report _ ne broke =>
      exact Or.inr ⟨rfl,
        ⟨broke.disk, CoordinatorStore.replayed_of_ne ne, rfl, rfl⟩,
        StoreFailure.noConfusion,
        fun hg => absurd hg broke.uncooperative⟩

/-- The published store agrees with the history it replayed. -/
theorem replayedStore_logged (tail : List UInt8)
    (h : Ledger.Run .init entries l) (now : Int64) :
    Logged { replayedStore entries tail with
      sessionStartMs := now
      lastJobTimeMs := (replayedStore entries tail).timeBaseMs } entries l := by
  obtain ⟨index, ht⟩ := tracks_recovered h
  have hlt := Ledger.run_length_lt h
  refine ⟨⟨h, rfl, fun slot halive => ?_⟩, rfl, ?_⟩
  · exfalso
    have hget : (replayedStore entries tail).workers.worker slot
        = unusedWorker := by
      show (recovered entries).workers.worker slot = _
      rw [ht.workers]
      exact worker_init slot
    change ((replayedStore entries tail).workers.worker slot).state = .alive
      at halive
    rw [hget] at halive
    cases halive
  · exact nextSequenceAfter_ofNat (by omega)

/-- Where a session starts, nothing is recovered yet. -/
theorem replayedStore_inRecovery {tail : List UInt8}
    (h : Ledger.Run .init entries l) (now : Int64) :
    InRecovery now l.clock l.board.jobs entries (reportOf entries tail) 0
      { replayedStore entries tail with
        sessionStartMs := now
        lastJobTimeMs := (replayedStore entries tail).timeBaseMs } := by
  obtain ⟨index, ht⟩ := tracks_recovered h
  have hlogged := replayedStore_logged tail h now
  refine ⟨⟨l, ?_⟩, ?_, ht.clock, ht.clock, rfl, rfl, rfl, rfl⟩
  · simpa [lossEntries] using hlogged
  · show (recovered entries).scheduler.jobs = _
    rw [List.take_zero, List.map_nil, List.nil_append, List.drop_zero]
    exact congrArg Board.jobs ht.board

/-- The returns of an open. -/
inductive StoreOpened (good : Prop) (d : Disk) (now : Int64) (n : Nat) :
    StoreResult → StoreCtx → Prop where
  | opened {base : List WalEntry} {tail : List UInt8} {l : Ledger}
      {c : StoreCtx} (holds : Holds d.file base tail l)
      (recovery : InRecovery now l.clock l.board.jobs base
        (reportOf base tail) l.board.jobs.length c.store)
      (isOpen : c.store.opened = true)
      (here : StoreAt good
        (logDisk (base ++ lossEntries l.clock l.board.jobs)) c.store n c) :
      StoreOpened good d now n .ok c
  | halted {base : List WalEntry} {tail : List UInt8} {l : Ledger}
      {c : StoreCtx} (holds : Holds d.file base tail l)
      (halted : Halted l.clock l.board.jobs base (reportOf base tail) c)
      (latched : c.store.failure ≠ .none) (hbad : ¬ good) :
      StoreOpened good d now n .fatal c
  | early {c : StoreCtx} (early : Early d c)
      (latched : c.store.failure ≠ .none)
      (why : good → now < 0 ∨ ∀ base tail l, ¬ Holds d.file base tail l) :
      StoreOpened good d now n .fatal c

/-- The stops inside an open. -/
inductive StoreStopped (good : Prop) (d : Disk) (c : StoreCtx) : Prop where
  | halted {base : List WalEntry} {tail : List UInt8} {l : Ledger}
      (holds : Holds d.file base tail l)
      (halted : Halted l.clock l.board.jobs base (reportOf base tail) c)
      (hbad : ¬ good) : StoreStopped good d c
  | early (early : Early d c) (hbad : ¬ good) : StoreStopped good d c

/-- Recovery of the whole table, started on the published store. -/
theorem startSession_spec {tail : List UInt8} (hnow : 0 ≤ now)
    (holds : Holds d.file base tail l) :
    Prog.Triple
      (StoreAt good (logDisk base) (replayedStore base tail)
        (n + boardCapacity * appendRoom))
      (startSession now) (StoreOpened good d now n) (StoreStopped good d) := by
  have hinv := holds.run.inv Ledger.inv_init
  have hroom : l.board.jobs.length * appendRoom
      ≤ boardCapacity * appendRoom :=
    Nat.mul_le_mul_right _ hinv.board.jobs_le
  have hrecover := recoverInterruptedJobs_spec good base l.board.jobs
    (reportOf base tail) (n := n) hnow hinv.clock_nonneg
  intro c hc
  refine Prog.Triple.bind (R := StoreStopped good d)
    (hrecover.conseq (fun _ hc => hc) (fun _ _ hc => hc)
      fun _ hc => .halted holds hc.2 hc.1) (fun r c hc => ?_)
    { c with store := { c.store with
      sessionStartMs := now, lastJobTimeMs := c.store.timeBaseMs } }
    ⟨?_, hc.disk, rfl, fun hg => (hc.ready hg).mono (by omega)⟩
  · rcases hc with ⟨rfl, hrec, hat⟩ | ⟨rfl, hbad, hlatched, hhalt⟩
    · obtain ⟨l', hlog⟩ := hrec.logged
      exact .opened holds ⟨⟨l', hlog.agrees.of_same ⟨rfl, rfl, rfl⟩,
        hlog.state, hlog.next⟩, hrec.table, hrec.lastJobTime, hrec.timeBase,
        hrec.sessionStart, hrec.failure, hrec.replayed⟩ rfl
        ⟨hat.disk, rfl, hat.ready⟩
    · exact .halted holds hhalt hlatched hbad
  · rw [hc.store]
    exact replayedStore_inRecovery holds.run now

/-- The most completions an open can take. -/
def openRoom (d : Disk) : Nat :=
  boardCapacity * appendRoom + 2 * d.file.length + 13

variable (good now) in
/-- An open of an existing log by a fresh store. -/
theorem storeOpen_spec (hp : d.present = true) :
    Prog.Triple (StoreAt good d storeInit (n + openRoom d))
      (storeOpen false now) (StoreOpened good d now n)
      (StoreStopped good d) := by
  intro c hc
  unfold storeOpen
  rw [Prog.bind_run, getStore_run]
  simp only [hc.store]
  by_cases hnow : now < 0
  · rw [if_pos hnow]
    refine .early ⟨?_, ?_, ?_, ?_⟩ ?_ fun _ => Or.inl hnow
    · rw [show (StoreCtx.mk _ c.machine).machine.disk = d from hc.disk]
      exact .untouched
    all_goals rw [hc.store]
    · rfl
    · rfl
    · rfl
    · exact StoreFailure.noConfusion
  rw [if_neg hnow]
  refine Prog.Triple.bind (R := StoreStopped good d)
    ((replayLog_spec good (n := n + boardCapacity * appendRoom)
      hp).conseq (fun _ hc => hc) (fun _ _ hc => hc)
      fun _ hc => .early hc.2 hc.1) (fun r c hc => ?_) c
    ⟨hc.disk, hc.store, fun hg => (hc.ready hg).mono
      (by unfold openRoom; omega)⟩
  rcases hc with ⟨rfl, entries, tail, l, holds, hat⟩
    | ⟨rfl, hearly, hlatched, hwhy⟩
  · exact startSession_spec (Int64.not_lt.mp hnow) holds c hat
  · exact .early hearly hlatched fun hg => Or.inr (hwhy hg)

end Faultline
