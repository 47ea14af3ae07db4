/-
Replay accepts a record exactly when it is a legal ledger entry.

`Tracks state index l` ties a replay in progress to the ledger of the
entries it has accepted. Against a tracked state, the checks of
`applyRecord` on a record's own bytes are the conditions of `Ledger.Step`
(`applyRecord_ok_iff`), and the state afterwards is a function of the
entry (`WalReplayState.record`) that tracks the next ledger.
-/
import Faultline.Proofs.SchedulerRefines
import Faultline.Proofs.WorkerIndex

namespace Faultline

open Scheduler

-- ====================================== the state of a history

/-- The recovered state after one more accepted entry. -/
def WalReplayState.record (state : WalReplayState) (entry : WalEntry) :
    WalReplayState :=
  match entry with
  | .workerIdAllocated id =>
      { state with
        highestWorkerId := id
        workers := { state.workers with
          nextWorkerId := nextWorkerIdAfter id } }
  | .job event job =>
      { state with
        scheduler := state.scheduler.commit event job
        highestJobId :=
          if event = .created then job.id else state.highestJobId
        jobTimeBaseMs := job.updatedAtMs }

def indexAfter (index : List WorkerRange) (entry : WalEntry) :
    List WorkerRange :=
  match entry with
  | .workerIdAllocated id => extendIndex index id
  | .job _ _ => index

/-- The id allocated last, or zero. -/
def lastWorkerId (workers : List UInt32) : UInt32 :=
  workers.getLast?.getD 0

structure Tracks (state : WalReplayState) (index : List WorkerRange)
    (l : Ledger) : Prop where
  rep : state.scheduler.Rep
  board : state.scheduler.board = l.board
  inv : l.Inv
  index : IndexFor index l.workers
  highestWorker : state.highestWorkerId = lastWorkerId l.workers
  highestJob : state.highestJobId = lastJobId state.scheduler.jobs
  workers : state.workers = { workerRegistryInit with
    nextWorkerId := nextWorkerIdAfter state.highestWorkerId }
  clock : state.jobTimeBaseMs = l.clock

theorem tracks_init : Tracks walReplayStateInit [] Ledger.init where
  rep := rep_init
  board := rfl
  inv := Ledger.inv_init
  index := indexFor_nil
  highestWorker := rfl
  highestJob := rfl
  workers := rfl
  clock := rfl

variable {state : WalReplayState} {index : List WorkerRange} {l l' : Ledger}
  {event : JobEvent} {saved : Job}

-- =================================================== worker ids

/-- An id above the last is above every earlier one. -/
theorem Tracks.fresh_iff (h : Tracks state index l) (id : UInt32) :
    ¬ id ≤ state.highestWorkerId
      ↔ id ≠ 0 ∧ ∀ w ∈ l.workers, w < id := by
  have hlt := h.inv.workers_lt
  rw [h.highestWorker]
  rcases List.eq_nil_or_concat l.workers with hnil | ⟨front, last, heq⟩
  · rw [hnil]
    simp [lastWorkerId]
  · rw [heq, List.concat_eq_append] at hlt ⊢
    have hcross := (List.pairwise_append.mp hlt).2.2
    simp only [lastWorkerId, List.getLast?_append, List.getLast?_singleton,
      Option.some_or, Option.getD_some, UInt32.not_le]
    constructor
    · intro hid
      refine ⟨by grind, fun w hw => ?_⟩
      rcases List.mem_append.mp hw with hw | hw
      · exact UInt32.lt_trans (hcross w hw last (by simp)) hid
      · rwa [List.mem_singleton.mp hw]
    · rintro ⟨-, hall⟩
      exact hall last (by simp)

-- ==================================================== snapshots

/-- Two snapshots with the same record bytes are the same snapshot. -/
theorem recordBytes_inj {sequence : UInt64} {a b : WalEntry}
    (hseq : sequence ≠ 0) (ha : a.encodable = true)
    (hb : b.encodable = true)
    (h : recordBytes ⟨sequence, a⟩ = recordBytes ⟨sequence, b⟩) : a = b := by
  have decodes (entry : WalEntry) (henc : entry.encodable = true) :
      walRecordDecode (recordBytes ⟨sequence, entry⟩ ++ []) sequence
        = .ok (⟨sequence, entry⟩, (recordBytes ⟨sequence, entry⟩).length) :=
    walRecordDecode_recordBytes hseq henc []
  have hdb := decodes b hb
  rw [← h, decodes a ha] at hdb
  simp only [Except.ok.injEq, Prod.mk.injEq, WalRecord.mk.injEq,
    true_and] at hdb
  exact hdb.1

/-- Comparing canonical bytes compares snapshots. -/
theorem matchesSnapshot_iff {candidate : Job} {sequence : UInt64}
    (hseq : sequence ≠ 0) (henc : (WalEntry.job event saved).encodable = true) :
    matchesSnapshot candidate event sequence
        (recordBytes ⟨sequence, .job event saved⟩) = true
      ↔ candidate = saved := by
  unfold matchesSnapshot
  constructor
  · intro h
    cases hcode : walRecordEncode ⟨sequence, .job event candidate⟩
        walMaxRecordSize with
    | error e =>
        rw [hcode] at h
        cases h
    | ok bytes =>
        rw [hcode] at h
        obtain ⟨-, hcand, -, rfl⟩ := walRecordEncode_ok_iff.mp hcode
        have heq := recordBytes_inj hseq hcand henc (beq_iff_eq.mp h)
        injection heq
  · rintro rfl
    rw [walRecordEncode_ok_iff.mpr
      ⟨hseq, henc, length_recordBytes_le henc, rfl⟩]
    exact beq_self_eq_true _

/-- The record codec is a bijection between encodable records and the byte
strings the decoder accepts. A record the encoder's checks pass encodes in
any sufficient capacity and decodes back from its bytes, whatever follows
them; what decodes re-encodes to exactly the bytes consumed; so a record
has one form on disk, and comparing forms compares every persisted
field. -/
theorem wal_record_codec :
    (∀ record : WalRecord, record.sequence ≠ 0 →
      record.entry.encodable = true →
      ∃ bytes, bytes.length ≤ walMaxRecordSize
        ∧ (∀ capacity, bytes.length ≤ capacity →
            walRecordEncode record capacity = .ok bytes)
        ∧ ∀ rest, walRecordDecode (bytes ++ rest) record.sequence
            = .ok (record, bytes.length))
    ∧ (∀ wire sequence record consumed,
        walRecordDecode wire sequence = .ok (record, consumed) →
        consumed ≤ wire.length ∧ record.sequence = sequence
        ∧ ∀ capacity, consumed ≤ capacity →
            walRecordEncode record capacity = .ok (wire.take consumed))
    ∧ (∀ wire wire' sequence record consumed consumed',
        walRecordDecode wire sequence = .ok (record, consumed) →
        walRecordDecode wire' sequence = .ok (record, consumed') →
        wire.take consumed = wire'.take consumed')
    ∧ ∀ wire sequence number event saved consumed candidate,
        walRecordDecode wire sequence
          = .ok (⟨number, .job event saved⟩, consumed) →
        (matchesSnapshot candidate event number (wire.take consumed) = true
          ↔ candidate = saved) := by
  refine ⟨?_, ?_, ?_, ?_⟩
  · intro record hseq henc
    refine ⟨recordBytes record, length_recordBytes_le henc, ?_, ?_⟩
    · intro capacity hcap
      exact walRecordEncode_ok_iff.mpr ⟨hseq, henc, hcap, rfl⟩
    · exact walRecordDecode_recordBytes hseq henc
  · intro wire sequence record consumed h
    obtain ⟨hne, hseq, henc, hle, hbytes⟩ := recordBytes_of_decode h
    refine ⟨hle, hseq, fun capacity hcap => ?_⟩
    have hlen : (recordBytes record).length = consumed := by
      rw [hbytes, List.length_take]
      omega
    exact walRecordEncode_ok_iff.mpr
      ⟨hseq ▸ hne, henc, by omega, hbytes.symm⟩
  · intro wire wire' sequence record consumed consumed' h h'
    obtain ⟨-, -, -, -, hbytes⟩ := recordBytes_of_decode h
    obtain ⟨-, -, -, -, hbytes'⟩ := recordBytes_of_decode h'
    exact hbytes.symm.trans hbytes'
  · intro wire sequence number event saved consumed candidate h
    obtain ⟨hne, hseq, henc, -, hbytes⟩ := recordBytes_of_decode h
    obtain rfl : number = sequence := hseq
    rw [← hbytes]
    exact matchesSnapshot_iff hne henc

/-- A job created at the last representable time. -/
def lateJob : Job :=
  { id := 1, taskType := .hash, arguments := [0, 255], state := .queued,
    workerId := 0, attempt := 0, retryCount := 0, maxRetries := 0xffffffff,
    createdAtMs := 0x7fffffffffffffff, updatedAtMs := 0x7fffffffffffffff,
    assignedAtMs := jobTimeUnset, startedAtMs := jobTimeUnset,
    finishedAtMs := jobTimeUnset, result := [], failure := .none }

theorem wal_record_codec_lateJob :
    (WalEntry.job .created lateJob).encodable = true
      ∧ ∃ bytes, bytes.length ≤ walMaxRecordSize
        ∧ (∀ capacity, bytes.length ≤ capacity →
            walRecordEncode ⟨9, .job .created lateJob⟩ capacity = .ok bytes)
        ∧ ∀ rest, walRecordDecode (bytes ++ rest) 9
            = .ok (⟨9, .job .created lateJob⟩, bytes.length) :=
  have henc : (WalEntry.job .created lateJob).encodable = true := by decide
  ⟨henc, wal_record_codec.1 ⟨9, .job .created lateJob⟩ (by decide) henc⟩

-- ================================================ transitions

/-- A stored job's later event is a step of the board it stands on. -/
theorem Board.Step.old {b b' : Board} (h : b.Step event saved b')
    (hne : event ≠ .created) :
    ∃ pre old suf, b.jobs = pre ++ old :: suf ∧ JobStep event old saved := by
  cases h with
  | created => exact absurd rfl hne
  | assigned _ step => exact ⟨_, _, _, rfl, step⟩
  | started step => exact ⟨_, _, _, rfl, step⟩
  | completed step => exact ⟨_, _, _, rfl, step⟩
  | requeued step => exact ⟨_, _, _, rfl, step⟩
  | failed step => exact ⟨_, _, _, rfl, step⟩

/-- The job model's verdict, as replay reports it. -/
private theorem modelled_ok_iff {result : Except JobError Job} {job : Job} :
    (match result with
      | .error _ => (.error (.history .transition) : Except ApplyError Job)
      | .ok candidate => .ok candidate) = .ok job ↔ result = .ok job := by
  cases result <;> simp

/-- A creation record is derived exactly when it is a board step. -/
theorem deriveSnapshot_created_iff (h : Tracks state index l) :
    deriveSnapshot state index .created saved = .ok saved
      ↔ ∃ b', l.board.Step .created saved b' := by
  have hcap : state.scheduler.jobs.length ≤ boardCapacity :=
    h.rep.inv.jobs_le
  simp only [deriveSnapshot, h.highestJob]
  rw [← h.board]
  constructor
  · intro hd
    split at hd
    · cases hd
    rename_i hfresh
    split at hd
    · cases hd
    rename_i hroom
    simp only [beq_iff_eq] at hroom
    refine ⟨_, .created (fun k hk => ?_) ?_ (modelled_ok_iff.mp hd)⟩
    · exact UInt64.lt_of_le_of_lt (le_lastJobId h.rep.inv.ids hk)
        (UInt64.not_le.mp hfresh)
    · unfold boardCapacity at hcap ⊢
      unfold jobStoreCapacity at hroom
      omega
  · rintro ⟨b', hstep⟩
    generalize hb : state.scheduler.board = b at hstep
    cases hstep with
    | @created jobs pending _ fresh room init =>
        have hjobs : state.scheduler.jobs = jobs := congrArg Board.jobs hb
        have hid : ¬ saved.id ≤ lastJobId jobs := by
          rw [UInt64.not_le]
          rcases List.eq_nil_or_concat jobs with rfl | ⟨front, last, rfl⟩
          · exact UInt64.pos_iff_ne_zero.mpr (jobInit_ok_iff.mp init).1
          · rw [List.concat_eq_append] at fresh ⊢
            have hlast := fresh last (by simp)
            simpa [lastJobId] using hlast
        rw [hjobs, if_neg hid, if_neg (by
          unfold boardCapacity at room
          unfold jobStoreCapacity
          simp only [beq_iff_eq]
          omega)]
        exact modelled_ok_iff.mpr init

/-- An assignment record is derived exactly when it is a board step for an
allocated worker. -/
theorem deriveSnapshot_assigned_iff (h : Tracks state index l) :
    deriveSnapshot state index .assigned saved = .ok saved
      ↔ saved.workerId ∈ l.workers
        ∧ ∃ b', l.board.Step .assigned saved b' := by
  rw [← h.board, ← workerWasAllocated_iff h.index]
  simp only [deriveSnapshot]
  constructor
  · intro hd
    split at hd
    · cases hd
    rename_i old hslot
    split at hd
    · cases hd
    rename_i hknown
    split at hd
    · cases hd
    rename_i hidle
    split at hd
    · cases hd
    rename_i head hpeek
    split at hd
    · cases hd
    rename_i hhead
    have hassign := modelled_ok_iff.mp hd
    have hid := id_of_findSlot hslot
    simp only [bne_iff_ne, not_not] at hhead
    simp only [Bool.not_eq_true', Bool.not_eq_false] at hknown
    refine ⟨hknown, (assign_step (jobAssign_ok_iff.mp hassign).2.2.2.1
      (by simpa using hidle) ?_ (hid ▸ hslot) hassign).2⟩
    rw [hid, ← hhead]
    exact jobQueuePeek_ok_iff.mp hpeek
  · rintro ⟨hknown, b', hstep⟩
    have hinv := h.rep.inv
    generalize hb : state.scheduler.board = b at hstep
    cases hstep with
    | @assigned pre old suf rest _ idle step =>
        have hjobs : state.scheduler.jobs = pre ++ old :: suf :=
          congrArg Board.jobs hb
        have hpend : state.scheduler.pending.toList = old.id :: rest :=
          congrArg Board.pending hb
        have hid : saved.id = old.id := step.same.id_eq
        have hactive : schedulerActive state.scheduler saved.workerId
            = none := by
          rw [schedulerActive_none (jobAssign_ok_iff.mp step).2.2.2.1, hjobs]
          intro k hk hact hkw
          exact idle (Board.mem_ownersIn.mpr ⟨k, hk, hact, hkw⟩)
        have hpeek : jobQueuePeek state.scheduler.pending = .ok old.id := by
          rw [jobQueuePeek_ok_iff, hpend]
          rfl
        rw [hid]
        simp only [slot_middle hjobs hinv, hknown, hactive, hpeek,
          Bool.not_true, Bool.false_eq_true, if_false, Option.isSome_none,
          bne_self_eq_false]
        exact modelled_ok_iff.mpr step

/-- The remaining records only need their job and its transition. -/
theorem deriveSnapshot_outcome_iff (h : Tracks state index l)
    (hc : event ≠ .created) (ha : event ≠ .assigned)
    (hleaves : event.Leaves saved) :
    deriveSnapshot state index event saved = .ok saved
      ↔ ∃ b', l.board.Step event saved b' := by
  rw [← h.board]
  -- Either way there is a stored job and the model's call on it.
  have key : deriveSnapshot state index event saved = .ok saved
      ↔ ∃ old, state.scheduler.jobs[findSlot state.scheduler saved.id]?
          = some old ∧ JobStep event old saved := by
    unfold deriveSnapshot
    cases hslot : state.scheduler.jobs[findSlot state.scheduler saved.id]? with
    | none => cases event <;> simp_all
    | some old =>
        cases event with
        | created => exact absurd rfl hc
        | assigned => exact absurd rfl ha
        | started =>
            simp only [hslot, Option.some.injEq, exists_eq_left', JobStep]
            exact modelled_ok_iff
        | completed =>
            simp only [hslot, Option.some.injEq, exists_eq_left', JobStep]
            exact modelled_ok_iff
        | requeued =>
            simp only [hslot, Option.some.injEq, exists_eq_left', JobStep,
              hleaves.1, and_true]
            exact modelled_ok_iff
        | failed =>
            have hs : saved.state = .failed := hleaves
            simp only [hslot, Option.some.injEq, exists_eq_left', JobStep,
              hs, and_true]
            exact modelled_ok_iff
  rw [key]
  constructor
  · rintro ⟨old, hslot, hstep⟩
    exact outcome_step (mem_of_findSlot hslot) ha hstep
  · rintro ⟨b', hstep⟩
    obtain ⟨pre, old, suf, hjobs, hj⟩ := hstep.old hc
    rw [hj.same.id_eq]
    exact ⟨old, slot_middle hjobs h.rep.inv, hj⟩

/-- The checks before publication are the conditions of a board step. -/
theorem deriveSnapshot_ok_iff (h : Tracks state index l)
    (hleaves : event.Leaves saved) :
    deriveSnapshot state index event saved = .ok saved
      ↔ (event = .assigned → saved.workerId ∈ l.workers)
        ∧ ∃ b', l.board.Step event saved b' := by
  by_cases hc : event = .created
  · subst hc
    simp [deriveSnapshot_created_iff h]
  by_cases ha : event = .assigned
  · subst ha
    simp [deriveSnapshot_assigned_iff h]
  · simp [deriveSnapshot_outcome_iff h hc ha hleaves, ha]

-- ================================================= publication

/-- The state an event leaves its job in decides whether it is queued. -/
theorem JobEvent.Leaves.queued_iff (h : event.Leaves saved) :
    saved.state = .queued ↔ event = .created ∨ event = .requeued := by
  cases event <;> simp only [JobEvent.Leaves] at h <;> simp [h]

/-- For a board step the queue moves as the commit moves it. -/
theorem moveQueue_commit {s : Scheduler} {b' : Board} (h : s.Rep)
    (hstep : s.board.Step event saved b') :
    moveQueue s.pending event saved saved
      = .ok (s.commit event saved).pending := by
  obtain ⟨hvalid, hleaves⟩ := hstep.valid h.inv
  have hq := hleaves.queued_iff
  -- A creation and a requeue push; the id cannot be waiting already.
  have hpush (hroom : s.pending.count < jobQueueCapacity)
      (hnot : saved.id ∉ s.pending.toList) (hs : saved.state = .queued) :
      jobQueuePush s.pending saved = .ok (s.pending.put saved.id) := by
    have hworker : saved.workerId = 0 := by
      have hf := hvalid.fields
      simp only [Job.StateFields, hs] at hf
      exact hf.1
    exact (jobQueuePush_ok_iff h.fits).mpr
      ⟨hvalid.id_ne, hs, hworker, hnot, hroom, rfl⟩
  have hmem {id : UInt64} : id ∈ s.pending.toList
      ↔ ∃ k ∈ s.jobs, k.state = .queued ∧ k.id = id :=
    h.inv.pending.mem_iff.trans Board.mem_waitingIn
  unfold moveQueue
  have hinv := h.inv
  generalize hb : s.board = b at hstep hinv
  cases hstep with
  | @created jobs pending _ fresh room init =>
      have hjobs : s.jobs = jobs := congrArg Board.jobs hb
      have hs := hq.mpr (Or.inl rfl)
      have hroom : s.pending.count < jobQueueCapacity := by
        have hle := h.count_le
        rw [hjobs] at hle
        unfold boardCapacity at room
        unfold jobQueueCapacity
        omega
      have hnot : saved.id ∉ s.pending.toList := by
        intro hin
        obtain ⟨k, hk, -, hid⟩ := hmem.mp hin
        exact UInt64.ne_of_lt (fresh k (hjobs ▸ hk)) hid
      rw [if_neg (by simp), if_pos (by simpa using hs),
        hpush hroom hnot hs]
      rfl
  | @assigned pre old suf rest _ idle step =>
      have hpend : s.pending.toList = old.id :: rest :=
        congrArg Board.pending hb
      have hpop : jobQueuePop s.pending
          = .ok (old.id, s.pending.advance 0) := by
        rw [jobQueuePop_ok_iff, hpend]
        exact ⟨rfl, rfl⟩
      rw [if_pos rfl, hpop, step.same.id_eq]
      simp [commit]
  | @requeued pre old suf pending _ step =>
      have hjobs : s.jobs = pre ++ old :: suf := congrArg Board.jobs hb
      have hs := hq.mpr (Or.inr rfl)
      have hactive := Board.not_queued_of_active (jobStep_requeued step).1
      have hnot : saved.id ∉ s.pending.toList := by
        intro hin
        obtain ⟨k, hk, hkq, hid⟩ := hmem.mp hin
        rw [step.same.id_eq] at hid
        rw [hjobs] at hk
        rcases List.mem_append.mp hk with hk | hk
        · exact Board.ids_ne hinv rfl (Or.inl hk) hid
        rcases List.mem_cons.mp hk with rfl | hk
        · exact hactive hkq
        · exact Board.ids_ne hinv rfl (Or.inr hk) hid
      rw [if_neg (by simp), if_pos (by simpa using hs),
        hpush (h.room hjobs hactive) hnot hs]
      rfl
  | started | completed | failed =>
      have hs : saved.state ≠ .queued := by
        rw [Ne, hq]
        simp
      rw [if_neg (by simp), if_neg (by simpa using hs)]
      rfl

/-- A legal job record is accepted, and publishes its commit. -/
theorem applyJob_ok_iff (h : Tracks state index l) {sequence : UInt64}
    {state' : WalReplayState} (hseq : sequence ≠ 0)
    (henc : (WalEntry.job event saved).encodable = true) :
    applyJob state index event saved sequence
        (recordBytes ⟨sequence, .job event saved⟩) = .ok state'
      ↔ (∃ l', l.Step (.job event saved) l')
        ∧ state' = state.record (.job event saved) := by
  have hleaves := (validJob_iff.mp henc).2
  have hmatch (candidate : Job) :
      matchesSnapshot candidate event sequence
          (recordBytes ⟨sequence, .job event saved⟩) = true
        ↔ candidate = saved := matchesSnapshot_iff hseq henc
  have hstep : (∃ l', l.Step (.job event saved) l')
      ↔ ¬ saved.updatedAtMs < state.jobTimeBaseMs
        ∧ deriveSnapshot state index event saved = .ok saved := by
    rw [deriveSnapshot_ok_iff h hleaves, h.clock, Int64.not_lt]
    constructor
    · rintro ⟨_, hl⟩
      cases hl with
      | job time known step => exact ⟨time, known, _, step⟩
    · rintro ⟨time, known, b', step⟩
      exact ⟨_, .job time known step⟩
  rw [hstep]
  unfold applyJob
  by_cases htime : saved.updatedAtMs < state.jobTimeBaseMs
  · simp [htime]
  rw [if_neg htime]
  cases hderive : deriveSnapshot state index event saved with
  | error e => simp [bind, Except.bind]
  | ok candidate =>
      simp only [bind, Except.bind, Except.ok.injEq]
      by_cases heq : candidate = saved
      · subst heq
        obtain ⟨-, b', hb⟩ := (deriveSnapshot_ok_iff h hleaves).mp hderive
        rw [← h.board] at hb
        rw [if_neg (by simp [hmatch]), moveQueue_commit h.rep hb]
        simp only [htime, not_false_eq_true, and_self, true_and]
        by_cases hc : event = .created
        · subst hc
          simp [WalReplayState.record, commit, eq_comm]
        · rw [if_neg hc, Except.ok.injEq, eq_comm]
          cases event <;>
            first
            | exact absurd rfl hc
            | simp [WalReplayState.record, commit]
      · have hne : matchesSnapshot candidate event sequence
            (recordBytes ⟨sequence, .job event saved⟩) = false := by
          rw [← Bool.not_eq_true, hmatch]
          exact heq
        rw [hne]
        simp [heq]

/-- Replay accepts a record's own bytes exactly when its entry is legal. -/
theorem applyRecord_ok_iff (h : Tracks state index l) {record : WalRecord}
    {state' : WalReplayState} {index' : List WorkerRange}
    (hseq : record.sequence ≠ 0) (henc : record.entry.encodable = true) :
    applyRecord state index record (recordBytes record) = .ok (state', index')
      ↔ (∃ l', l.Step record.entry l')
        ∧ state' = state.record record.entry
        ∧ index' = indexAfter index record.entry := by
  obtain ⟨sequence, entry⟩ := record
  simp only at hseq henc ⊢
  cases entry with
  | workerIdAllocated id =>
      have hstep : (∃ l', l.Step (.workerIdAllocated id) l')
          ↔ ¬ id ≤ state.highestWorkerId := by
        rw [h.fresh_iff]
        constructor
        · rintro ⟨_, hl⟩
          cases hl with
          | worker nonzero fresh => exact ⟨nonzero, fresh⟩
        · rintro ⟨nonzero, fresh⟩
          exact ⟨_, .worker nonzero fresh⟩
      rw [hstep]
      simp only [applyRecord, allocateWorker]
      by_cases hle : id ≤ state.highestWorkerId
      · simp [hle]
      · simp [hle, WalReplayState.record, indexAfter, eq_comm]
  | job event saved =>
      simp only [applyRecord]
      cases happly : applyJob state index event saved sequence
          (recordBytes ⟨sequence, .job event saved⟩) with
      | error e =>
          refine iff_of_false (by simp) ?_
          rintro ⟨hl, -⟩
          have := (applyJob_ok_iff h hseq henc).mpr ⟨hl, rfl⟩
          rw [happly] at this
          cases this
      | ok next =>
          obtain ⟨hl, rfl⟩ := (applyJob_ok_iff h hseq henc).mp happly
          simp [hl, indexAfter, eq_comm]

/-- The state after a legal entry tracks the ledger after it. -/
theorem Tracks.record (h : Tracks state index l) {entry : WalEntry}
    (hstep : l.Step entry l') :
    Tracks (state.record entry) (indexAfter index entry) l' := by
  have hinv' := hstep.inv h.inv
  cases hstep with
  | worker nonzero fresh =>
      exact
        { rep := h.rep
          board := h.board
          inv := hinv'
          index := h.index.extend fresh
          highestWorker := by simp [WalReplayState.record, lastWorkerId]
          highestJob := h.highestJob
          workers := by simp [WalReplayState.record, h.workers]
          clock := h.clock }
  | @job event job b' time known step =>
      rw [← h.board] at step
      obtain ⟨hboard, hrep⟩ := commit_refines h.rep step
      refine
        { rep := hrep
          board := hboard
          inv := hinv'
          index := h.index
          highestWorker := h.highestWorker
          highestJob := ?_
          workers := h.workers
          clock := rfl }
      by_cases hc : event = .created
      · subst hc
        simp [WalReplayState.record, commit, lastJobId]
      · obtain ⟨pre, old, suf, hjobs, hj⟩ := step.old hc
        have hset := set_middle hjobs h.rep.inv hj.same.id_eq
        have hlast : (state.scheduler.commit event job).jobs
            = pre ++ job :: suf := by
          cases event <;> first | exact absurd rfl hc | exact hset
        have hjobs' : state.scheduler.jobs = pre ++ old :: suf := hjobs
        simp only [WalReplayState.record, if_neg hc, hlast, h.highestJob,
          hjobs', lastJobId_middle hj.same.id_eq]

end Faultline
