/-
The job table and its pending queue, abstractly.

A board is the jobs in creation order and the ids waiting for dispatch,
oldest first. `Board.Step` says how one job event may change it: a
creation appends a fresh job, an assignment takes the front of the queue
for a worker that owns nothing active, a requeue goes to the back, and
the remaining events only rewrite the job's own record.

`Board.Inv` is the representation invariant of the whole table. Pending
entries and owners are stated as lists (`waiting`, `owners`) so that each
step's effect on them is one rewrite at the job's position.
-/
import Faultline.Abstract.JobLife
import Mathlib.Data.List.Perm.Basic
import Mathlib.Data.List.Nodup

namespace Faultline

structure Board where
  jobs : List Job
  pending : List UInt64
deriving DecidableEq, Repr

/-- The most jobs a board holds (`FAULTLINE_JOB_STORE_CAPACITY`). -/
def boardCapacity : Nat := 256

namespace Board

def empty : Board := { jobs := [], pending := [] }

/-- The ids of the queued jobs of a table, in table order. -/
def waitingIn (jobs : List Job) : List UInt64 :=
  (jobs.filter fun job => job.state = .queued).map Job.id

/-- The workers that own an active job, in table order. -/
def ownersIn (jobs : List Job) : List UInt32 :=
  (jobs.filter fun job => job.state.active).map Job.workerId

/-- One job event, with the snapshot it records. -/
inductive Step : Board → JobEvent → Job → Board → Prop where
  | created {jobs pending job}
      (fresh : ∀ j ∈ jobs, j.id < job.id)
      (room : jobs.length < boardCapacity)
      (init : jobInit job.id job.taskType.code job.arguments job.maxRetries
        job.createdAtMs = .ok job) :
      Step ⟨jobs, pending⟩ .created job ⟨jobs ++ [job], pending ++ [job.id]⟩
  | assigned {pre old suf rest job}
      (idle : job.workerId ∉ ownersIn (pre ++ old :: suf))
      (step : JobStep .assigned old job) :
      Step ⟨pre ++ old :: suf, old.id :: rest⟩ .assigned job
        ⟨pre ++ job :: suf, rest⟩
  | started {pre old suf pending job} (step : JobStep .started old job) :
      Step ⟨pre ++ old :: suf, pending⟩ .started job
        ⟨pre ++ job :: suf, pending⟩
  | completed {pre old suf pending job}
      (step : JobStep .completed old job) :
      Step ⟨pre ++ old :: suf, pending⟩ .completed job
        ⟨pre ++ job :: suf, pending⟩
  | requeued {pre old suf pending job} (step : JobStep .requeued old job) :
      Step ⟨pre ++ old :: suf, pending⟩ .requeued job
        ⟨pre ++ job :: suf, pending ++ [job.id]⟩
  | failed {pre old suf pending job} (step : JobStep .failed old job) :
      Step ⟨pre ++ old :: suf, pending⟩ .failed job
        ⟨pre ++ job :: suf, pending⟩

/-- The representation invariant of the job table. -/
structure Inv (b : Board) : Prop where
  jobs_le : b.jobs.length ≤ boardCapacity
  ids : (b.jobs.map Job.id).Pairwise (· < ·)
  valid : ∀ job ∈ b.jobs, job.Valid
  pending : b.pending.Perm (waitingIn b.jobs)
  owners : (ownersIn b.jobs).Nodup

-- ============================================== list bookkeeping

section Lists

variable {pre suf : List Job} {job : Job}

theorem waitingIn_middle_queued (h : job.state = .queued) :
    waitingIn (pre ++ job :: suf)
      = waitingIn pre ++ job.id :: waitingIn suf := by
  simp [waitingIn, List.filter_append, h]

theorem waitingIn_middle_other (h : job.state ≠ .queued) :
    waitingIn (pre ++ job :: suf) = waitingIn pre ++ waitingIn suf := by
  simp [waitingIn, List.filter_append, h]

theorem ownersIn_middle_active (h : job.state.active = true) :
    ownersIn (pre ++ job :: suf)
      = ownersIn pre ++ job.workerId :: ownersIn suf := by
  simp [ownersIn, List.filter_append, h]

theorem ownersIn_middle_other (h : job.state.active = false) :
    ownersIn (pre ++ job :: suf) = ownersIn pre ++ ownersIn suf := by
  simp [ownersIn, List.filter_append, h]

theorem mem_ownersIn {jobs : List Job} {worker : UInt32} :
    worker ∈ ownersIn jobs
      ↔ ∃ job ∈ jobs, job.state.active = true ∧ job.workerId = worker := by
  simp [ownersIn, and_assoc]

theorem mem_waitingIn {jobs : List Job} {id : UInt64} :
    id ∈ waitingIn jobs
      ↔ ∃ job ∈ jobs, job.state = .queued ∧ job.id = id := by
  simp [waitingIn, and_assoc]

/-- Rewriting one record's other fields keeps the list of ids. -/
theorem ids_middle {old new : Job} (h : new.id = old.id) :
    (pre ++ new :: suf).map Job.id = (pre ++ old :: suf).map Job.id := by
  simp [h]

theorem valid_middle {old new : Job}
    (hall : ∀ job ∈ pre ++ old :: suf, job.Valid) (hnew : new.Valid) :
    ∀ job ∈ pre ++ new :: suf, job.Valid := by
  intro job hjob
  rcases List.mem_append.mp hjob with hpre | hrest
  · exact hall job (List.mem_append_left _ hpre)
  · rcases List.mem_cons.mp hrest with rfl | hsuf
    · exact hnew
    · exact hall job (List.mem_append_right _ (List.mem_cons_of_mem _ hsuf))

end Lists

/-- Jobs at different places of a board have different ids. -/
theorem ids_ne {b : Board} (h : b.Inv) {pre suf : List Job} {old k : Job}
    (hjobs : b.jobs = pre ++ old :: suf) (hk : k ∈ pre ∨ k ∈ suf) :
    k.id ≠ old.id := by
  have hids := h.ids
  rw [hjobs, List.map_append, List.map_cons] at hids
  obtain ⟨-, hcons, hcross⟩ := List.pairwise_append.mp hids
  rcases hk with hk | hk
  · exact UInt64.ne_of_lt
      (hcross _ (List.mem_map_of_mem hk) _ List.mem_cons_self)
  · exact (UInt64.ne_of_lt
      ((List.pairwise_cons.mp hcons).1 _ (List.mem_map_of_mem hk))).symm

-- ==================================================== one step

theorem inv_empty : Inv empty :=
  ⟨Nat.zero_le _, List.Pairwise.nil, fun _ h => absurd h List.not_mem_nil,
    List.Perm.refl _, List.nodup_nil⟩

/-- The parts of the invariant that only concern records, ids and room
survive rewriting one record by a job step. -/
private theorem Inv.rewrite {pre suf : List Job} {old job : Job}
    {event : JobEvent} {pending : List UInt64}
    (hinv : Inv ⟨pre ++ old :: suf, pending⟩) (hstep : JobStep event old job)
    {pending' : List UInt64}
    (hpend : pending'.Perm (waitingIn (pre ++ job :: suf)))
    (howns : (ownersIn (pre ++ job :: suf)).Nodup) :
    Inv ⟨pre ++ job :: suf, pending'⟩ where
  jobs_le := by
    have := hinv.jobs_le
    simp only [List.length_append, List.length_cons] at this ⊢
    exact this
  ids := by
    show ((pre ++ job :: suf).map Job.id).Pairwise (· < ·)
    rw [ids_middle hstep.same.id_eq]
    exact hinv.ids
  valid := valid_middle hinv.valid (hstep.valid (hinv.valid old (by simp)))
  pending := hpend
  owners := howns

/-- A job that leaves an active state for an inactive one frees its
worker. -/
private theorem owners_release {pre suf : List Job} {old job : Job}
    (h : (ownersIn (pre ++ old :: suf)).Nodup)
    (hold : old.state.active = true) (hnew : job.state.active = false) :
    (ownersIn (pre ++ job :: suf)).Nodup := by
  rw [ownersIn_middle_active hold] at h
  rw [ownersIn_middle_other hnew]
  exact h.sublist ((List.sublist_cons_self _ _).append_left _)

theorem not_queued_of_active {job : Job}
    (h : job.state.active = true) : job.state ≠ .queued := by
  intro hq
  rw [hq] at h
  cases h

/-- Every event keeps the board's invariant. -/
theorem Step.inv {b b' : Board} {event : JobEvent} {job : Job}
    (h : Step b event job b') (hinv : b.Inv) : b'.Inv := by
  cases h with
  | @created jobs pending _ fresh room init =>
      have hvalid := jobInit_valid init
      obtain ⟨-, -, -, _, -, hjob⟩ := jobInit_ok_iff.mp init
      have hq : job.state = .queued := by rw [hjob]
      refine ⟨?_, ?_, ?_, ?_, ?_⟩
      · simp only [List.length_append, List.length_singleton]
        exact room
      · simp only [List.map_append, List.map_cons, List.map_nil]
        refine List.pairwise_append.mpr
          ⟨hinv.ids, List.pairwise_singleton _ _, ?_⟩
        intro a ha b hb
        obtain ⟨j, hj, rfl⟩ := List.mem_map.mp ha
        rw [List.mem_singleton.mp hb]
        exact fresh j hj
      · intro j hj
        rcases List.mem_append.mp hj with hj | hj
        · exact hinv.valid j hj
        · rw [List.mem_singleton.mp hj]
          exact hvalid
      · show (pending ++ [job.id]).Perm (waitingIn (jobs ++ [job]))
        rw [waitingIn_middle_queued hq]
        exact hinv.pending.append_right _
      · show (ownersIn (jobs ++ [job])).Nodup
        have hidle : job.state.active = false := by rw [hq]; rfl
        rw [ownersIn_middle_other hidle]
        simpa [ownersIn] using hinv.owners
  | @assigned pre old suf rest _ idle step =>
      obtain ⟨hq, w, now, hw, -, -, hjob⟩ := jobStep_assigned step
      have hact : job.state.active = true := by rw [hjob]; rfl
      have hidle : old.state.active = false := by rw [hq]; rfl
      refine hinv.rewrite step ?_ ?_
      · have hp := hinv.pending
        rw [waitingIn_middle_other (not_queued_of_active hact)]
        rw [show waitingIn (Board.jobs ⟨pre ++ old :: suf, _⟩)
          = _ from waitingIn_middle_queued hq] at hp
        exact (hp.trans List.perm_middle).cons_inv
      · have ho := hinv.owners
        rw [ownersIn_middle_active hact, List.nodup_middle,
          ← ownersIn_middle_other hidle]
        exact List.nodup_cons.mpr ⟨idle, ho⟩
  | @started pre old suf pending _ step =>
      obtain ⟨ha, now, -, -, hjob⟩ := jobStep_started step
      have hold : old.state.active = true := by rw [ha]; rfl
      have hact : job.state.active = true := by rw [hjob]; rfl
      refine hinv.rewrite step ?_ ?_
      · rw [waitingIn_middle_other (not_queued_of_active hact),
          ← waitingIn_middle_other (not_queued_of_active hold)]
        exact hinv.pending
      · have hw : job.workerId = old.workerId := by rw [hjob]
        rw [ownersIn_middle_active hact, hw,
          ← ownersIn_middle_active hold]
        exact hinv.owners
  | @completed pre old suf pending _ step =>
      obtain ⟨hr, now, data, -, -, -, hjob⟩ := jobStep_completed step
      have hold : old.state.active = true := by rw [hr]; rfl
      have hact : job.state.active = false := by rw [hjob]; rfl
      have hnq : job.state ≠ .queued := by rw [hjob]; simp
      refine hinv.rewrite step ?_ (owners_release hinv.owners hold hact)
      rw [waitingIn_middle_other hnq,
        ← waitingIn_middle_other (not_queued_of_active hold)]
      exact hinv.pending
  | @requeued pre old suf pending _ step =>
      obtain ⟨hold, -, now, f, -, -, -, hjob⟩ := jobStep_requeued step
      have hq : job.state = .queued := by rw [hjob]
      have hact : job.state.active = false := by rw [hq]; rfl
      refine hinv.rewrite step ?_ (owners_release hinv.owners hold hact)
      have hp := hinv.pending
      rw [show waitingIn (Board.jobs ⟨pre ++ old :: suf, _⟩) = _ from
        waitingIn_middle_other (not_queued_of_active hold)] at hp
      rw [waitingIn_middle_queued hq]
      exact (List.perm_append_singleton _ _).trans
        ((hp.cons _).trans List.perm_middle.symm)
  | @failed pre old suf pending _ step =>
      obtain ⟨hold, -, now, f, -, -, -, hjob⟩ := jobStep_failed step
      have hact : job.state.active = false := by rw [hjob]; rfl
      have hnq : job.state ≠ .queued := by rw [hjob]; simp
      refine hinv.rewrite step ?_ (owners_release hinv.owners hold hact)
      rw [waitingIn_middle_other hnq,
        ← waitingIn_middle_other (not_queued_of_active hold)]
      exact hinv.pending

end Board

end Faultline
