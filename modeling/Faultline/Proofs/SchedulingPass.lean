/-
A scheduling pass gives the oldest jobs to the eligible connections.

With the connections that can be given a job in the order of their slots,
and the queue from the oldest job on, the pass assigns the first job to the
first connection, the second to the second, as long as there are both. An
assignment takes the front of the queue and makes one worker busy
(`assign_front`), so it leaves the others as eligible as they were; the
induction over the slots pairs the two lists off.
-/
import Faultline.Proofs.ConnectionMoves
import Faultline.Proofs.LoopActs
import Faultline.Proofs.OutputFraming

namespace Faultline

open Lib Coordinator StoreCtx

variable {s s' : Coordinator} {i j : Fin maxClients} {now time : Int64}
  {worker : UInt32} {id : UInt64} {rest : List UInt64} {n : Nat}
  {scheduler : Scheduler} {timeoutMs : Int64}

-- ================================================== assignments

/-- The job as an assignment leaves it. -/
def Job.assignedTo (job : Job) (workerId : UInt32) (nowMs : Int64) : Job :=
  { job with
    state := .assigned, workerId, attempt := job.attempt + 1,
    assignedAtMs := nowMs, updatedAtMs := nowMs, failure := .none }

/-- A table with one of its jobs assigned. -/
def assignIn (jobs : List Job) (id : UInt64) (workerId : UInt32)
    (nowMs : Int64) : List Job :=
  jobs.map fun job =>
    if job.id = id then job.assignedTo workerId nowMs else job

/-- With distinct ids, only the job's own record changes. -/
theorem assignIn_middle {pre suf : List Job} {old : Job}
    (hpre : ∀ k ∈ pre, k.id ≠ old.id) (hsuf : ∀ k ∈ suf, k.id ≠ old.id) :
    assignIn (pre ++ old :: suf) old.id worker time
      = pre ++ old.assignedTo worker time :: suf := by
  have hsame {jobs : List Job} (h : ∀ k ∈ jobs, k.id ≠ old.id) :
      jobs.map (fun job =>
        if job.id = old.id then job.assignedTo worker time else job)
        = jobs := by
    refine (List.map_congr_left fun k hk => ?_).trans (List.map_id jobs)
    rw [if_neg (h k hk)]
    rfl
  rw [assignIn, List.map_append, List.map_cons, if_pos rfl, hsame hpre,
    hsame hsuf]

/-- What an assignment of the oldest job to an idle worker does. -/
structure Scheduler.Fronts (scheduler : Scheduler) (id : UInt64)
    (rest : List UInt64) (worker : UInt32) (time : Int64) (old : Job) :
    Prop where
  mem : old ∈ scheduler.jobs
  id_eq : old.id = id
  assigned : schedulerAssign scheduler worker time
    = (.ok, scheduler.commit .assigned (old.assignedTo worker time),
      some (old.assignedTo worker time).assignment)
  step : ∃ b', scheduler.board.Step .assigned (old.assignedTo worker time) b'
  jobs : (scheduler.commit .assigned (old.assignedTo worker time)).jobs
    = assignIn scheduler.jobs id worker time
  pending : (scheduler.commit .assigned
    (old.assignedTo worker time)).pending.toList = rest

theorem Scheduler.Rep.assign_front (h : scheduler.Rep) (hworker : worker ≠ 0)
    (hidle : schedulerActive scheduler worker = none)
    (hfront : scheduler.pending.toList = id :: rest) (htime : 0 ≤ time)
    (htimes : ∀ k ∈ scheduler.jobs, k.updatedAtMs ≤ time) :
    ∃ old, scheduler.Fronts id rest worker time old := by
  have hpeek : jobQueuePeek scheduler.pending = .ok id :=
    jobQueuePeek_ok_iff.mpr (by rw [hfront]; rfl)
  have hok : (schedulerAssign scheduler worker time).1 = .ok := by
    have hpop : jobQueuePop scheduler.pending
        = .ok (id, scheduler.pending.advance 0) :=
      jobQueuePop_ok_iff.mpr ⟨jobQueuePeek_ok_iff.mp hpeek, rfl⟩
    obtain ⟨old, job, hslot, hassign⟩ :=
      h.head_assignable hpeek hworker htime htimes
    unfold schedulerAssign
    rw [if_neg (by simp [hworker, Int64.not_lt.mpr htime]),
      if_neg (by simp [hidle]), hpeek]
    simp only [hslot, hassign, hpop]
  rcases schedulerAssign_cases scheduler worker time with
    ⟨result, hne, heq⟩ | ⟨old, job, -, -, hhead, hslot, hassign, heq⟩
  · rw [heq] at hok
    exact absurd hok hne
  · obtain ⟨-, -, -, -, rfl⟩ := jobAssign_ok_iff.mp hassign
    obtain rfl : id = old.id := by
      rw [hfront] at hhead
      exact Option.some.inj hhead
    obtain ⟨-, b', hstep⟩ := assign_step hworker hidle hhead hslot hassign
    obtain ⟨hboard, -⟩ := commit_refines h hstep
    obtain ⟨pre, suf, hjobs⟩ := List.append_of_mem (mem_of_findSlot hslot)
    refine ⟨old, mem_of_findSlot hslot, rfl, heq, ⟨b', hstep⟩, ?_, ?_⟩
    · have hset : scheduler.jobs.set
          (findSlot scheduler (old.assignedTo worker time).id)
          (old.assignedTo worker time)
          = pre ++ old.assignedTo worker time :: suf :=
        set_middle hjobs h.inv rfl
      refine hset.trans ?_
      rw [hjobs]
      exact (assignIn_middle
        (fun k hk => Board.ids_ne h.inv hjobs (.inl hk))
        fun k hk => Board.ids_ne h.inv hjobs (.inr hk)).symm
    · show (scheduler.pending.advance 0).toList = rest
      rw [Ring.toList_advance h.fits, hfront]
      rfl

/-- A waiting job is queued. -/
theorem Scheduler.Rep.queued (h : scheduler.Rep) {k : Job}
    (hwaiting : k.id ∈ scheduler.pending.toList) (hk : k ∈ scheduler.jobs) :
    k.state = .queued := by
  obtain ⟨queued, hmem, hstate, hid⟩ :=
    Board.mem_waitingIn.mp (h.inv.pending.mem_iff.mp hwaiting)
  obtain ⟨pre, suf, hjobs⟩ := List.append_of_mem hmem
  have hcases : k ∈ pre ++ queued :: suf := hjobs ▸ hk
  rcases List.mem_append.mp hcases with hpre | hrest
  · exact absurd hid.symm (Board.ids_ne h.inv hjobs (.inl hpre))
  · rcases List.mem_cons.mp hrest with rfl | hsuf
    · exact hstate
    · exact absurd hid.symm (Board.ids_ne h.inv hjobs (.inr hsuf))

/-- Who else is busy does not change. -/
theorem schedulerActive_assigned {scheduler' : Scheduler} {other : UInt32}
    (hjobs : scheduler'.jobs = assignIn scheduler.jobs id worker time)
    (hne : other ≠ worker)
    (hqueued : ∀ k ∈ scheduler.jobs, k.id = id → k.state = .queued) :
    (schedulerActive scheduler' other).isSome
      = (schedulerActive scheduler other).isSome := by
  unfold schedulerActive
  split
  · rfl
  simp only [hjobs, assignIn, List.isSome_find?, List.any_map]
  rw [Bool.eq_iff_iff]
  simp only [List.any_eq_true]
  refine exists_congr fun k => and_congr_right fun hk => ?_
  by_cases hid : k.id = id
  · -- It was queued, and is now another worker's.
    have hstate := hqueued k hk hid
    simp [hid, hstate, Job.assignedTo, JobState.active, hne.symm]
  · simp [hid]

/-- What an assignment on a cooperating machine leaves. -/
structure StoreCtx.Assigns (c : StoreCtx) (now time : Int64) (id : UInt64)
    (rest : List UInt64) (worker : UInt32) (n : Nat) (old : Job)
    (c' : StoreCtx) : Prop where
  fronts : c.store.jobs.Fronts id rest worker time old
  run : storeAssign worker now c
    = .done (.ok, some (old.assignedTo worker time).assignment) c'
  live : c'.Live
  ready : c'.machine.Ready n
  jobs : c'.store.jobs
    = c.store.jobs.commit .assigned (old.assignedTo worker time)
  workers : c'.store.workers = c.store.workers
  failure : c'.store.failure = .none
  time : c'.store.jobTime now = some time

theorem assignment_untagged {c c' : StoreCtx} {assignment : JobAssignPayload}
    (h : (StoreOp.assign worker now).run c
      = .done (.ok, .assignment assignment) c') :
    storeAssign worker now c = .done (.ok, some assignment) c' := by
  obtain ⟨⟨result, output⟩, c₁, hrun, hret⟩ := Prog.bind_done h
  cases output with
  | none => cases hret
  | some value =>
      cases hret
      exact hrun

theorem StoreCtx.Live.assigns {c : StoreCtx} (live : c.Live)
    (hhealthy : c.store.failure = .none)
    (halive : workerIsAlive c.store.workers worker = true)
    (htime : c.store.jobTime now = some time)
    (hidle : schedulerActive c.store.jobs worker = none)
    (hfront : c.store.jobs.pending.toList = id :: rest)
    (hready : c.machine.Ready (n + appendRoom)) :
    ∃ old c', c.Assigns now time id rest worker n old c' := by
  have husable : c.store.usable = true := by
    simp [CoordinatorStore.usable, live.opened, hhealthy]
  obtain ⟨entries, l, hlog, hdisk⟩ := live.standing.healthy husable
  obtain ⟨hnonneg, htimes⟩ := hlog.agrees.times_le htime
  have hrep := hlog.agrees.rep.1
  obtain ⟨old, hfronts⟩ := hrep.assign_front (workerIsAlive_slot halive).1
    hidle hfront hnonneg htimes
  obtain ⟨b', hstep⟩ := hfronts.step
  have hplan : (StoreOp.assign worker now).plan c.store
      = jobPlan c.store .assigned (old.assignedTo worker time)
        (.assignment (old.assignedTo worker time).assignment) := by
    simp only [StoreOp.plan, husable, halive, htime, hfronts.assigned]
    exact (commitPlan_step hrep hstep).2 _
  have hspec := storeOp_spec True (n := n) hlog (StoreOp.assign worker now) c
    ⟨hdisk, rfl, fun _ => hready⟩
  rw [hplan] at hspec
  cases hrun : (StoreOp.assign worker now).run c with
  | crash c' =>
      rw [hrun] at hspec
      exact absurd trivial hspec.hbad
  | done out c' =>
      rw [hrun] at hspec
      obtain ⟨hlive, hacts⟩ := live.acts hrun
      cases hspec with
      | quiet heq => cases heq
      | broke heq step hbad => exact absurd trivial hbad
      | @committed entry publish l' c' heq step logged session here =>
          injection heq with hentry hpublish houtput
          subst hpublish
          have hstore := here.store
          refine ⟨old, c', hfronts, ?_, hlive, here.ready trivial, ?_, ?_, ?_, ?_⟩
          · rw [← houtput] at hrun
            exact assignment_untagged hrun
          · rw [hstore]
          · rw [hstore]
            rfl
          · rw [session.1]
            exact hhealthy
          · have hlast : c'.store.lastJobTimeMs = time := by
              rw [hstore]
              rfl
            have hagain := jobTime_again session.2.2.1 session.2.2.2
              (htime.trans (congrArg some hlast.symm))
            exact hagain.trans (congrArg some hlast)

-- ====================================================== one turn

/-- The connections that can be given a job, in the order of their slots. -/
def Coordinator.eligible (s : Coordinator) (now timeoutMs : Int64)
    (slots : List (Fin maxClients)) : List (Fin maxClients) :=
  slots.filter fun i => (s.client i).assignable s.store now timeoutMs

/-- The waiting jobs, the oldest first. -/
def Coordinator.waiting (s : Coordinator) : List UInt64 :=
  s.store.jobs.pending.toList

/-- A connection with a complete assignment in its output buffer. -/
def Client.Given (c : Client) (now : Int64) (job : Job) (c' : Client) : Prop :=
  ∃ output, encodeOutput (.jobAssign job.assignment) = .ok output
    ∧ c' = Client.startReply
      { c.queueing (.jobAssign job.assignment) with output } now

/-- A state a scheduling pass can work on, with room for `n` records. -/
structure Coordinator.Scheduling (s : Coordinator) (now time : Int64)
    (n : Nat) : Prop where
  live : s.ctx.Live
  failure : s.store.failure = .none
  clock : ∀ k, s.ticks ≤ k → s.clock k = now
  nonneg : 0 ≤ now
  time : s.store.jobTime now = some time
  distinct : s.DistinctFds
  ready : s.ctx.machine.Ready (n * appendRoom)

theorem Coordinator.Scheduling.reads (h : s.Scheduling now time n) :
    s.now = now := h.clock _ (Nat.le_refl _)

theorem Coordinator.Scheduling.ticked (h : s.Scheduling now time (n + 1)) :
    s.ticked.Scheduling now time n :=
  ⟨h.live, h.failure, fun k hk => h.clock k (Nat.le_of_succ_le hk), h.nonneg,
    h.time, h.distinct, h.ready.mono (Nat.mul_le_mul_right _ (Nat.le_succ n))⟩

/-- An eligible connection is given the oldest job. -/
structure Coordinator.Dispatches (s : Coordinator) (now time : Int64)
    (i : Fin maxClients) (id : UInt64) (rest : List UInt64) (old : Job)
    (s' : Coordinator) : Prop where
  fronts : s.store.jobs.Fronts id rest (s.client i).workerId time old
  jobs : s'.store.jobs = s.store.jobs.commit .assigned
    (old.assignedTo (s.client i).workerId time)
  workers : s'.store.workers = s.store.workers
  given : (s.client i).Given now
    (old.assignedTo (s.client i).workerId time) (s'.client i)
  others : ∀ j, j ≠ i → s'.client j = s.client j

/-- The eligible connections and the waiting jobs, paired off. -/
def Coordinator.pairs (s : Coordinator) (now timeoutMs : Int64)
    (slots : List (Fin maxClients)) : List (Fin maxClients × UInt64) :=
  (s.eligible now timeoutMs slots).zip s.waiting

/-- A job after the pairs have been served. -/
def Coordinator.dispatched (s : Coordinator) (time : Int64)
    (pairs : List (Fin maxClients × UInt64)) (job : Job) : Job :=
  ((pairs.find? fun p => p.2 == job.id).map fun p =>
    job.assignedTo (s.client p.1).workerId time).getD job

/-- What a pass over some slots does. -/
structure Coordinator.Passed (s : Coordinator) (now time timeoutMs : Int64)
    (slots : List (Fin maxClients)) (s' : Coordinator) : Prop where
  jobs : s'.store.jobs.jobs = s.store.jobs.jobs.map
    (s.dispatched time (s.pairs now timeoutMs slots))
  waiting : s'.waiting = s.waiting.drop (s.pairs now timeoutMs slots).length
  given : ∀ p ∈ s.pairs now timeoutMs slots, ∃ job ∈ s.store.jobs.jobs,
    job.id = p.2 ∧ (s.client p.1).Given now
      (job.assignedTo (s.client p.1).workerId time) (s'.client p.1)
  others : ∀ i, i ∉ (s.pairs now timeoutMs slots).map Prod.fst →
    s'.client i = s.client i
  workers : s'.store.workers = s.store.workers
  failure : s'.store.failure = .none
  busy : ∀ worker, schedulerActive s'.store.jobs worker = none →
    schedulerActive s.store.jobs worker = none
  exhausted : s'.waiting = []
    ∨ ∀ i ∈ slots, (s'.client i).assignable s'.store now timeoutMs = false

/-- A pass that has nobody to serve, or nothing to give. -/
theorem Coordinator.Passed.none {slots : List (Fin maxClients)}
    (hfailure : s.store.failure = .none)
    (hnone : s.eligible now timeoutMs slots = [] ∨ s.waiting = []) :
    s.Passed now time timeoutMs slots s := by
  have hpairs : s.pairs now timeoutMs slots = [] := by
    unfold pairs
    rcases hnone with h | h <;> simp [h]
  refine ⟨?_, ?_, ?_, fun _ _ => rfl, rfl, hfailure, fun _ h => h, ?_⟩
  · rw [hpairs]
    exact (List.map_id _).symm
  · rw [hpairs]
    rfl
  · rw [hpairs]
    intro p hp
    cases hp
  · refine hnone.symm.imp_right fun h i hi => ?_
    have hnot : i ∉ s.eligible now timeoutMs slots := by
      rw [h]
      exact List.not_mem_nil
    simpa [eligible, hi] using hnot

/-- Whoever is eligible in a table with more busy workers was before. -/
theorem Client.assignable_of_busier {c : Client}
    {store store' : CoordinatorStore} (hworkers : store'.workers = store.workers)
    (hbusy : schedulerActive store'.jobs c.workerId = none →
      schedulerActive store.jobs c.workerId = none)
    (h : c.assignable store' now timeoutMs = true) :
    c.assignable store now timeoutMs = true := by
  obtain ⟨hfd, hworker, hphase, hinput, hidle⟩ := Client.assignable_iff.mp h
  rw [hworkers] at hworker
  exact Client.assignable_iff.mpr ⟨hfd, hworker, hphase, hinput, hbusy hidle⟩

/-- The clients of the pairs are among the slots. -/
theorem Coordinator.mem_slots_of_pairs {slots : List (Fin maxClients)}
    (h : i ∈ (s.pairs now timeoutMs slots).map Prod.fst) : i ∈ slots := by
  obtain ⟨p, hp, rfl⟩ := List.mem_map.mp h
  exact (List.mem_filter.mp (List.of_mem_zip hp).1).1

/-- An ineligible connection is passed over. -/
theorem Coordinator.Passed.skip {slots : List (Fin maxClients)}
    (h : s.ticked.Passed now time timeoutMs slots s') (hi : i ∉ slots)
    (hidle : (s.client i).assignable s.store now timeoutMs = false) :
    s.Passed now time timeoutMs (i :: slots) s' := by
  have hpairs : s.pairs now timeoutMs (i :: slots)
      = s.ticked.pairs now timeoutMs slots := by
    unfold pairs eligible
    rw [List.filter_cons_of_neg (by simp [hidle])]
    rfl
  refine ⟨?_, ?_, ?_, ?_, h.workers, h.failure, h.busy, ?_⟩
  · rw [hpairs]
    exact h.jobs
  · rw [hpairs]
    exact h.waiting
  · rw [hpairs]
    exact h.given
  · rw [hpairs]
    exact h.others
  · refine h.exhausted.imp_right fun hslots j hj => ?_
    rcases List.mem_cons.mp hj with rfl | hj
    · rw [h.others j fun hmem => hi (mem_slots_of_pairs hmem)]
      refine Bool.eq_false_iff.mpr fun htrue => ?_
      have hbefore := Client.assignable_of_busier h.workers (h.busy _) htrue
      exact absurd (hidle.symm.trans hbefore) (by decide)
    · exact hslots j hj

variable {old : Job} {s₁ : Coordinator}

/-- Other workers are as busy as before, and the chosen one was idle. -/
theorem Coordinator.Dispatches.busy (h : s.Dispatches now time i id rest old s₁)
    (hrep : s.store.jobs.Rep) (hwaiting : s.waiting = id :: rest)
    {other : UInt32} (hne : other ≠ (s.client i).workerId) :
    (schedulerActive s₁.store.jobs other).isSome
      = (schedulerActive s.store.jobs other).isSome := by
  refine schedulerActive_assigned (h.jobs ▸ h.fronts.jobs) hne ?_
  intro k hk hid
  refine hrep.queued ?_ hk
  show k.id ∈ s.waiting
  rw [hwaiting, hid]
  exact List.mem_cons_self

/-- The others are as eligible as they were. -/
theorem Coordinator.Dispatches.assignable
    (h : s.Dispatches now time i id rest old s₁) (hrep : s.store.jobs.Rep)
    (hwaiting : s.waiting = id :: rest) (hdistinct : s.DistinctFds)
    (hidle : (s.client i).assignable s.store now timeoutMs = true)
    (hj : j ≠ i) :
    (s₁.client j).assignable s₁.store now timeoutMs
      = (s.client j).assignable s.store now timeoutMs := by
  rw [h.others j hj]
  -- A worker has one descriptor, and connections have different ones.
  have hworker (store : CoordinatorStore)
      (hworkers : store.workers = s.store.workers)
      (htrue : (s.client j).assignable store now timeoutMs = true) :
      (s.client j).workerId ≠ (s.client i).workerId := by
    intro hsame
    obtain ⟨hfd, ⟨w, hfind, -, hwfd, -⟩, -⟩ := Client.assignable_iff.mp htrue
    obtain ⟨-, ⟨w', hfind', -, hwfd', -⟩, -⟩ := Client.assignable_iff.mp hidle
    rw [hworkers, hsame, hfind'] at hfind
    cases hfind
    exact hj (hdistinct j i hfd (hwfd.symm.trans hwfd'))
  rw [Bool.eq_iff_iff]
  constructor
  · intro htrue
    refine Client.assignable_of_busier h.workers (fun hnone => ?_) htrue
    have hbusy := h.busy hrep hwaiting (hworker _ h.workers htrue)
    rw [hnone] at hbusy
    exact Option.isNone_iff_eq_none.mp
      (Option.isSome_eq_false_iff.mp hbusy.symm)
  · intro htrue
    refine Client.assignable_of_busier h.workers.symm (fun hnone => ?_) htrue
    have hbusy := h.busy hrep hwaiting (hworker _ rfl htrue)
    rw [hnone] at hbusy
    exact Option.isNone_iff_eq_none.mp (Option.isSome_eq_false_iff.mp hbusy)

end Faultline
