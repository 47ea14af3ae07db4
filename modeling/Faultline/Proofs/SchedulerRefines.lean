/-
The scheduler refines the board.

`Scheduler.board` forgets the ring and the allocator. `Scheduler.Rep` is
the representation invariant: the ring is in range, the allocator stands
right behind the last id, and the board's invariant holds. Committing a
board step keeps `Rep` and lands on the step's board (`commit_refines`);
every accepted operation is such a commit (`SchedulerOp.cases`), so
runs of the scheduler are runs of the board.
-/
import Faultline.Abstract.Ledger
import Faultline.Scheduler

namespace Faultline

open Lib

-- =============================================== representation

/-- The id of the newest job, or zero. -/
def lastJobId (jobs : List Job) : UInt64 :=
  (jobs.getLast?.map Job.id).getD 0

namespace Scheduler

def board (s : Scheduler) : Board :=
  { jobs := s.jobs, pending := s.pending.toList }

structure Rep (s : Scheduler) : Prop where
  fits : s.pending.Fits
  inv : s.board.Inv
  next : s.nextJobId = nextJobIdAfter (lastJobId s.jobs)

variable {s : Scheduler} {event : JobEvent} {job : Job} {b' : Board}

theorem rep_init : Rep schedulerInit :=
  ⟨jobQueueInit_fits, Board.inv_empty, rfl⟩

/-- No more ids wait than there are queued jobs. -/
theorem Rep.count_eq (h : s.Rep) :
    s.pending.count = (Board.waitingIn s.jobs).length := by
  have := h.inv.pending.length_eq
  rwa [show s.board.pending.length = s.pending.count
    from Ring.length_toList _] at this

/-- No job waits twice. -/
theorem Rep.pending_nodup (h : s.Rep) : s.pending.toList.Nodup := by
  refine (h.inv.pending.nodup_iff).mpr ?_
  have hids : (s.jobs.map Job.id).Nodup :=
    h.inv.ids.imp fun hlt => UInt64.ne_of_lt hlt
  exact hids.sublist (List.Sublist.map _ List.filter_sublist)

/-- With distinct ids, a job's slot is where it stands. -/
theorem findSlot_middle {pre suf : List Job} {old : Job}
    (hjobs : s.jobs = pre ++ old :: suf) (hinv : s.board.Inv) :
    findSlot s old.id = pre.length := by
  have hpre : List.findIdx (fun j : Job => j.id == old.id) pre
      = pre.length := by
    refine List.findIdx_eq_length.mpr fun k hk => ?_
    have hne := Board.ids_ne hinv hjobs (Or.inl hk)
    simpa using hne
  rw [findSlot, hjobs, List.findIdx_append, hpre, if_neg (by omega),
    List.findIdx_cons]
  simp

/-- With distinct ids, looking a stored job up by its id finds it. -/
theorem slot_middle {pre suf : List Job} {old : Job}
    (hjobs : s.jobs = pre ++ old :: suf) (hinv : s.board.Inv) :
    s.jobs[findSlot s old.id]? = some old := by
  rw [findSlot_middle hjobs hinv, hjobs]
  simp

/-- Writing a job's slot rewrites its record in place. -/
theorem set_middle {pre suf : List Job} {old : Job}
    (hjobs : s.jobs = pre ++ old :: suf) (hinv : s.board.Inv)
    (hid : job.id = old.id) :
    s.jobs.set (findSlot s job.id) job = pre ++ job :: suf := by
  rw [hid, findSlot_middle hjobs hinv, hjobs]
  simp

theorem lastJobId_eq (jobs : List Job) :
    lastJobId jobs = ((jobs.map Job.id).getLast?).getD 0 := by
  rw [lastJobId, List.getLast?_map]

theorem lastJobId_middle {pre suf : List Job} {old : Job}
    (hid : job.id = old.id) :
    lastJobId (pre ++ job :: suf) = lastJobId (pre ++ old :: suf) := by
  rw [lastJobId_eq, lastJobId_eq, Board.ids_middle hid]

theorem Rep.count_le (h : s.Rep) : s.pending.count ≤ s.jobs.length := by
  rw [h.count_eq, Board.waitingIn, List.length_map]
  exact List.length_filter_le _ _

/-- A queue that misses some job of the table has room. -/
theorem Rep.room {pre suf : List Job} {old : Job} (h : s.Rep)
    (hjobs : s.jobs = pre ++ old :: suf) (hold : old.state ≠ .queued) :
    s.pending.count < jobQueueCapacity := by
  have hle : s.jobs.length ≤ boardCapacity := h.inv.jobs_le
  have hpre := List.length_filter_le (fun j : Job => j.state = .queued) pre
  have hsuf := List.length_filter_le (fun j : Job => j.state = .queued) suf
  rw [h.count_eq, hjobs, Board.waitingIn_middle_other hold]
  rw [hjobs] at hle
  simp only [Board.waitingIn, List.length_append, List.length_map,
    List.length_cons] at hle ⊢
  unfold boardCapacity at hle
  unfold jobQueueCapacity
  omega

/-- Committing a legal event is the board's step. -/
theorem commit_refines (h : s.Rep) (hstep : s.board.Step event job b') :
    (s.commit event job).board = b' ∧ (s.commit event job).Rep := by
  have hinv' := hstep.inv h.inv
  -- It is enough to see the board; the ring and the allocator follow.
  have key : (s.commit event job).board = b'
      ∧ (s.commit event job).pending.Fits
      ∧ (s.commit event job).nextJobId
        = nextJobIdAfter (lastJobId (s.commit event job).jobs) := by
    have hplain {pre suf : List Job} {old : Job} {e : JobEvent}
        (hjobs : s.jobs = pre ++ old :: suf) (hj : JobStep e old job) :
        s.jobs.set (findSlot s job.id) job = pre ++ job :: suf
          ∧ s.nextJobId = nextJobIdAfter (lastJobId (pre ++ job :: suf)) := by
      refine ⟨set_middle hjobs h.inv hj.same.id_eq, ?_⟩
      rw [lastJobId_middle hj.same.id_eq, ← hjobs]
      exact h.next
    generalize hb : s.board = b at hstep
    cases hstep with
    | created fresh room init =>
        injection hb with hjobs hpend
        have hroom : s.pending.count < jobQueueCapacity := by
          have hle := h.count_le
          rw [hjobs] at hle
          unfold boardCapacity at room
          unfold jobQueueCapacity
          omega
        refine ⟨?_, h.fits.put hroom _, ?_⟩
        · simp only [board, commit, Ring.toList_put hroom, hjobs, hpend]
        · simp [commit, lastJobId]
    | @assigned pre old suf rest _ idle step =>
        injection hb with hjobs hpend
        obtain ⟨hset, hnext⟩ := hplain hjobs step
        refine ⟨?_, h.fits.advance _, ?_⟩
        · simp only [board, commit, hset, Ring.toList_advance h.fits, hpend,
            List.tail_cons]
        · simp only [commit, hset]
          exact hnext
    | @started pre old suf pending _ step =>
        injection hb with hjobs hpend
        obtain ⟨hset, hnext⟩ := hplain hjobs step
        refine ⟨?_, h.fits, ?_⟩
        · simp only [board, commit, hset, hpend]
        · simp only [commit, hset]
          exact hnext
    | @completed pre old suf pending _ step =>
        injection hb with hjobs hpend
        obtain ⟨hset, hnext⟩ := hplain hjobs step
        refine ⟨?_, h.fits, ?_⟩
        · simp only [board, commit, hset, hpend]
        · simp only [commit, hset]
          exact hnext
    | @requeued pre old suf pending _ step =>
        injection hb with hjobs hpend
        obtain ⟨hset, hnext⟩ := hplain hjobs step
        have hroom := h.room hjobs
          (Board.not_queued_of_active (jobStep_requeued step).1)
        refine ⟨?_, h.fits.put hroom _, ?_⟩
        · simp only [board, commit, hset, Ring.toList_put hroom, hpend]
        · simp only [commit, hset]
          exact hnext
    | @failed pre old suf pending _ step =>
        injection hb with hjobs hpend
        obtain ⟨hset, hnext⟩ := hplain hjobs step
        refine ⟨?_, h.fits, ?_⟩
        · simp only [board, commit, hset, hpend]
        · simp only [commit, hset]
          exact hnext
  obtain ⟨hboard, hfits, hnext⟩ := key
  exact ⟨hboard, hfits, hboard ▸ hinv', hnext⟩

-- =========================================== what operations do

/-- Ids in a sorted table are at most the last one. -/
theorem le_lastJobId {jobs : List Job}
    (h : (jobs.map Job.id).Pairwise (· < ·)) {k : Job} (hk : k ∈ jobs) :
    k.id ≤ lastJobId jobs := by
  rcases List.eq_nil_or_concat jobs with rfl | ⟨init, last, rfl⟩
  · cases hk
  · rw [List.concat_eq_append] at h hk ⊢
    have hlast : lastJobId (init ++ [last]) = last.id := by
      simp [lastJobId]
    rw [hlast]
    rcases List.mem_append.mp hk with hk | hk
    · rw [List.map_append] at h
      exact UInt64.le_of_lt ((List.pairwise_append.mp h).2.2 _
        (List.mem_map_of_mem hk) _ (by simp))
    · rw [List.mem_singleton.mp hk]
      exact UInt64.le_refl _

/-- The allocator is above every stored id until ids run out. -/
theorem Rep.id_lt_next (h : s.Rep) (hne : s.nextJobId ≠ 0) {k : Job}
    (hk : k ∈ s.jobs) : k.id < s.nextJobId := by
  have hle : k.id ≤ lastJobId s.jobs := le_lastJobId h.inv.ids hk
  have hnext := h.next
  unfold nextJobIdAfter at hnext
  grind

/-- A fresh job keeps its own parameters. -/
theorem jobInit_self {id : UInt64} {code : UInt16} {args : List UInt8}
    {retries : UInt32} {now : Int64}
    (h : jobInit id code args retries now = .ok job) :
    job.id = id ∧ job.updatedAtMs = now
      ∧ jobInit job.id job.taskType.code job.arguments job.maxRetries
        job.createdAtMs = .ok job := by
  have hok := h
  obtain ⟨-, -, -, task, htask, rfl⟩ := jobInit_ok_iff.mp h
  refine ⟨rfl, rfl, ?_⟩
  rw [TaskType.code_of_ofCode htask]
  exact hok

theorem submit_step (h : s.Rep) {submit : JobSubmitPayload} {now : Int64}
    (hinit : jobInit s.nextJobId submit.taskType submit.arguments
      submit.maxRetries now = .ok job)
    (hroom : s.jobs.length ≠ jobStoreCapacity) :
    ∃ b', s.board.Step .created job b' := by
  obtain ⟨hid, -, hself⟩ := jobInit_self hinit
  have hne : s.nextJobId ≠ 0 := (jobInit_ok_iff.mp hinit).1
  have hle : s.jobs.length ≤ boardCapacity := h.inv.jobs_le
  refine ⟨_, .created (fun k hk => ?_) ?_ hself⟩
  · rw [hid]
    exact h.id_lt_next hne hk
  · unfold boardCapacity at hle ⊢
    unfold jobStoreCapacity at hroom
    omega

theorem assign_step {old : Job} {worker : UInt32} {now : Int64}
    (hw : worker ≠ 0) (hidle : schedulerActive s worker = none)
    (hfront : s.pending.toList.head? = some old.id)
    (hslot : s.jobs[findSlot s old.id]? = some old)
    (hassign : jobAssign old worker now = .ok job) :
    JobStep .assigned old job ∧ ∃ b', s.board.Step .assigned job b' := by
  obtain ⟨pre, suf, hjobs⟩ := List.append_of_mem (mem_of_findSlot hslot)
  have hstep : JobStep .assigned old job := by
    have hok := hassign
    obtain ⟨-, -, -, -, rfl⟩ := jobAssign_ok_iff.mp hassign
    exact hok
  obtain ⟨rest, hpend⟩ : ∃ rest, s.pending.toList = old.id :: rest :=
    List.head?_eq_some_iff.mp hfront
  have hworker : job.workerId = worker := by
    obtain ⟨-, -, -, -, rfl⟩ := jobAssign_ok_iff.mp hassign
    rfl
  have hnot : job.workerId ∉ Board.ownersIn (pre ++ old :: suf) := by
    rw [hworker, ← hjobs]
    intro hmem
    obtain ⟨k, hk, hact, hkw⟩ := Board.mem_ownersIn.mp hmem
    exact (schedulerActive_none hw).mp hidle k hk hact hkw
  have hboard : s.board = ⟨pre ++ old :: suf, old.id :: rest⟩ := by
    rw [board, hjobs, hpend]
  rw [hboard]
  exact ⟨hstep, _, .assigned hnot hstep⟩

/-- Any event but creation and assignment is a board step wherever its
job stands. -/
theorem outcome_step {old : Job} (hold : old ∈ s.jobs)
    (hne : event ≠ .assigned) (hj : JobStep event old job) :
    ∃ b', s.board.Step event job b' := by
  obtain ⟨pre, suf, hjobs⟩ := List.append_of_mem hold
  have hboard : s.board = ⟨pre ++ old :: suf, s.pending.toList⟩ := by
    rw [board, hjobs]
  rw [hboard]
  cases event with
  | created => cases hj
  | assigned => exact absurd rfl hne
  | started => exact ⟨_, .started hj⟩
  | completed => exact ⟨_, .completed hj⟩
  | requeued => exact ⟨_, .requeued hj⟩
  | failed => exact ⟨_, .failed hj⟩

theorem outcomeEvent_ne_assigned (state : JobState) :
    outcomeEvent state ≠ .assigned := by
  cases state <;> simp [outcomeEvent]

/-- A failed attempt is the requeue or the failure its record shows. -/
theorem jobFail_step {old : Job} {worker : UInt32} {attempt : UInt64}
    {failure : JobFailure} {now : Int64}
    (h : jobFail old worker attempt failure now = .ok job) :
    JobStep (outcomeEvent job.state) old job := by
  have hok := h
  obtain ⟨-, -, -, -, -, rfl, rfl, -, rfl⟩ := jobFail_ok_iff.mp h
  unfold failedAttempt at hok ⊢
  split at hok <;> rename_i hlt
  · rw [if_pos hlt]
    exact ⟨hok, rfl⟩
  · rw [if_neg hlt]
    exact ⟨hok, rfl⟩

/-- An accepted report is the job step its outcome shows. -/
theorem applyReport_step {old : Job} {worker : UInt32} {attempt : UInt64}
    {report : Message} {now : Int64}
    (h : applyReport old worker attempt report now = .ok job) :
    JobStep (outcomeEvent job.state) old job := by
  unfold applyReport at h
  split at h
  · have hok := h
    obtain ⟨-, -, -, -, -, rfl, rfl, rfl⟩ := jobStart_ok_iff.mp h
    exact hok
  · have hok := h
    obtain ⟨-, -, -, -, -, rfl, rfl, -, rfl⟩ := jobComplete_ok_iff.mp h
    exact hok
  · split at h
    · cases h
    · exact jobFail_step h
  · cases h

end Scheduler

-- ============================================ runs of operations

/-- A call of one of the four scheduler operations. -/
inductive SchedulerOp where
  | submit (payload : JobSubmitPayload) (nowMs : Int64)
  | assign (workerId : UInt32) (nowMs : Int64)
  | report (workerId : UInt32) (message : Message) (nowMs : Int64)
  | workerLost (workerId : UInt32) (nowMs : Int64)
deriving DecidableEq, Repr

/-- The result code of a call and the scheduler it leaves. -/
def SchedulerOp.apply (s : Scheduler) : SchedulerOp → SchedulerResult × Scheduler
  | .submit payload nowMs =>
      let outcome := schedulerSubmit s payload nowMs
      (outcome.1, outcome.2.1)
  | .assign workerId nowMs =>
      let outcome := schedulerAssign s workerId nowMs
      (outcome.1, outcome.2.1)
  | .report workerId message nowMs => schedulerReport s workerId message nowMs
  | .workerLost workerId nowMs => schedulerWorkerLost s workerId nowMs

/-- The scheduler after a sequence of calls, whatever each returned. -/
def SchedulerOp.run (s : Scheduler) (ops : List SchedulerOp) : Scheduler :=
  ops.foldl (fun s op => (op.apply s).2) s

namespace SchedulerOp

open Scheduler

variable {s : Scheduler}

/-- A call is rejected without effect, or commits one legal event. -/
theorem cases (h : s.Rep) (op : SchedulerOp) :
    (∃ result, result ≠ .ok ∧ op.apply s = (result, s))
    ∨ ∃ event job b', s.board.Step event job b'
        ∧ op.apply s = (.ok, s.commit event job) := by
  cases op with
  | submit payload now =>
      rcases schedulerSubmit_cases h.fits payload now with
        ⟨result, hne, heq⟩ | ⟨job, hinit, hroom, heq⟩
      · exact Or.inl ⟨result, hne, by simp only [apply, heq]⟩
      · obtain ⟨b', hstep⟩ := submit_step h hinit hroom
        exact Or.inr ⟨_, job, b', hstep, by simp only [apply, heq]⟩
  | assign worker now =>
      rcases schedulerAssign_cases s worker now with
        ⟨result, hne, heq⟩
          | ⟨old, job, hw, hidle, hfront, hslot, hassign, heq⟩
      · exact Or.inl ⟨result, hne, by simp only [apply, heq]⟩
      · obtain ⟨-, b', hstep⟩ := assign_step hw hidle hfront hslot hassign
        exact Or.inr ⟨_, job, b', hstep, by simp only [apply, heq]⟩
  | report worker message now =>
      rcases schedulerReport_cases h.fits worker message now with
        ⟨result, hne, heq⟩ | ⟨_, old, job, -, -, hslot, happly, heq⟩
      · exact Or.inl ⟨result, hne, heq⟩
      · obtain ⟨b', hstep⟩ := outcome_step (mem_of_findSlot hslot)
          (outcomeEvent_ne_assigned _) (applyReport_step happly)
        exact Or.inr ⟨_, job, b', hstep, heq⟩
  | workerLost worker now =>
      rcases schedulerWorkerLost_cases h.fits worker now with
        ⟨result, hne, heq⟩ | ⟨old, job, hactive, hfail, heq⟩
      · exact Or.inl ⟨result, hne, heq⟩
      · obtain ⟨b', hstep⟩ := outcome_step (schedulerActive_some hactive).2.1
          (outcomeEvent_ne_assigned _) (jobFail_step hfail)
        exact Or.inr ⟨_, job, b', hstep, heq⟩

/-- Every call keeps the representation invariant. -/
theorem apply_rep (h : s.Rep) (op : SchedulerOp) : (op.apply s).2.Rep := by
  rcases op.cases h with ⟨result, -, heq⟩ | ⟨event, job, b', hstep, heq⟩
  · rw [heq]
    exact h
  · rw [heq]
    exact (commit_refines h hstep).2

theorem run_rep (h : s.Rep) (ops : List SchedulerOp) : (run s ops).Rep := by
  induction ops generalizing s with
  | nil => exact h
  | cons op ops ih => exact ih (apply_rep h op)

end SchedulerOp

end Faultline
