/-
Identities are never handed out twice.

In a legal history the ids of created jobs and of allocated workers are
those of its ledger, in order, and each assignment of a job has a higher
attempt than all before it (`HandedOut`). What the clients of a reachable
world hold is a sublist of what its history hands out, whatever was lost
between, so it inherits all of this.
-/
import Faultline.Proofs.SessionRuns

namespace Faultline

open Lib StoreCtx Scheduler World

variable {entries : List WalEntry} {entry : WalEntry} {l l' : Ledger}
  {w : World} {store : CoordinatorStore}

def jobIdsOf (outputs : List StoreOutput) : List UInt64 :=
  outputs.filterMap fun
    | .jobId id => some id
    | _ => none

def workerIdsOf (outputs : List StoreOutput) : List UInt32 :=
  outputs.filterMap fun
    | .workerId id => some id
    | _ => none

/-- The identities of the assignment messages. -/
def assignmentsOf (outputs : List StoreOutput) : List JobIdentity :=
  outputs.filterMap fun
    | .assignment payload => some payload.identity
    | _ => none

theorem jobIdsOf_snoc (entries : List WalEntry) (entry : WalEntry) :
    jobIdsOf ((entries ++ [entry]).map WalEntry.output)
      = jobIdsOf (entries.map WalEntry.output) ++ jobIdsOf [entry.output] := by
  rw [List.map_append, jobIdsOf, List.filterMap_append]
  rfl

theorem workerIdsOf_snoc (entries : List WalEntry) (entry : WalEntry) :
    workerIdsOf ((entries ++ [entry]).map WalEntry.output)
      = workerIdsOf (entries.map WalEntry.output)
        ++ workerIdsOf [entry.output] := by
  rw [List.map_append, workerIdsOf, List.filterMap_append]
  rfl

theorem assignmentsOf_snoc (entries : List WalEntry) (entry : WalEntry) :
    assignmentsOf ((entries ++ [entry]).map WalEntry.output)
      = assignmentsOf (entries.map WalEntry.output)
        ++ assignmentsOf [entry.output] := by
  rw [List.map_append, assignmentsOf, List.filterMap_append]
  rfl

/-- Of two assignments of one job, the later has the higher attempt. -/
def LaterAttempt (first second : JobIdentity) : Prop :=
  first.jobId = second.jobId → first.attempt < second.attempt

/-- What a history hands out, against the ledger it leads to. -/
structure HandedOut (entries : List WalEntry) (l : Ledger) : Prop where
  jobs : jobIdsOf (entries.map WalEntry.output) = l.board.jobs.map Job.id
  workers : workerIdsOf (entries.map WalEntry.output) = l.workers
  attempts : ∀ a ∈ assignmentsOf (entries.map WalEntry.output),
    ∃ job ∈ l.board.jobs, job.id = a.jobId ∧ a.attempt ≤ job.attempt
  increasing :
    (assignmentsOf (entries.map WalEntry.output)).Pairwise LaterAttempt

/-- A step other than a creation keeps the table's ids. -/
theorem Board.Step.ids_eq {b b' : Board} {event : JobEvent} {job : Job}
    (h : b.Step event job b') (hne : event ≠ .created) :
    b'.jobs.map Job.id = b.jobs.map Job.id := by
  cases h with
  | created => exact absurd rfl hne
  | assigned _ step => exact Board.ids_middle step.same.id_eq
  | started step => exact Board.ids_middle step.same.id_eq
  | completed step => exact Board.ids_middle step.same.id_eq
  | requeued step => exact Board.ids_middle step.same.id_eq
  | failed step => exact Board.ids_middle step.same.id_eq

/-- No step takes back an attempt. -/
theorem Board.Step.attempt_le {b b' : Board} {event : JobEvent} {job k : Job}
    (h : b.Step event job b') (hinv : b.Inv) (hk : k ∈ b.jobs) :
    ∃ j ∈ b'.jobs, j.id = k.id ∧ k.attempt ≤ j.attempt := by
  rcases h.keeps hk with hk' | ⟨hj, hin⟩
  · exact ⟨k, hk', rfl, UInt64.le_refl _⟩
  · refine ⟨job, hin, hj.same.id_eq, ?_⟩
    rcases hj.attempt_cases with ⟨ha, -⟩ | ⟨ha, hq⟩
    · rw [ha]
      exact UInt64.le_refl _
    · rw [ha]
      exact UInt64.le_of_lt ((hinv.valid k hk).attempt_lt hq)

/-- An assignment has a higher attempt than the job had before. -/
theorem Board.Step.assigned_gt {b b' : Board} {job k : Job}
    (h : b.Step .assigned job b') (hinv : b.Inv) (hk : k ∈ b.jobs)
    (hid : k.id = job.id) : k.attempt < job.attempt := by
  generalize hev : JobEvent.assigned = event at h
  cases h with
  | @assigned pre old suf rest _ idle step =>
      have hold : k = old := by
        rcases List.mem_append.mp hk with hk | hk
        · exact absurd (hid.trans step.same.id_eq)
            (Board.ids_ne hinv rfl (Or.inl hk))
        rcases List.mem_cons.mp hk with rfl | hk
        · rfl
        · exact absurd (hid.trans step.same.id_eq)
            (Board.ids_ne hinv rfl (Or.inr hk))
      subst hold
      obtain ⟨hq, _, _, -, -, -, rfl⟩ := jobStep_assigned step
      exact (hinv.valid k hk).attempt_lt hq
  | _ => cases hev

/-- Attempts handed out before a step are still covered after it. -/
theorem HandedOut.covered (h : HandedOut entries l) (hinv : l.board.Inv)
    {event : JobEvent} {job : Job} {b' : Board}
    (step : l.board.Step event job b') :
    ∀ a ∈ assignmentsOf (entries.map WalEntry.output),
      ∃ job ∈ b'.jobs, job.id = a.jobId ∧ a.attempt ≤ job.attempt := by
  intro a ha
  obtain ⟨k, hk, hid, hle⟩ := h.attempts a ha
  obtain ⟨j, hj, hjid, hle'⟩ := step.attempt_le hinv hk
  exact ⟨j, hj, hjid.trans hid, UInt64.le_trans hle hle'⟩

/-- A job step that hands out nothing. -/
theorem HandedOut.silent (h : HandedOut entries l) (hinv : l.board.Inv)
    {event : JobEvent} {job : Job} {b' : Board} {clock : Int64}
    (step : l.board.Step event job b') (hne : event ≠ .created)
    (hout : (WalEntry.job event job).output = .none) :
    HandedOut (entries ++ [.job event job]) ⟨b', l.workers, clock⟩ := by
  refine ⟨?_, ?_, ?_, ?_⟩
  · rw [jobIdsOf_snoc, hout, step.ids_eq hne, ← h.jobs]
    exact List.append_nil _
  · rw [workerIdsOf_snoc, hout, h.workers]
    exact List.append_nil _
  · rw [assignmentsOf_snoc, hout, show assignmentsOf [.none] = [] from rfl,
      List.append_nil]
    exact h.covered hinv step
  · rw [assignmentsOf_snoc, hout, show assignmentsOf [.none] = [] from rfl,
      List.append_nil]
    exact h.increasing

/-- A creation hands out the new job's id. -/
theorem HandedOut.created (h : HandedOut entries l) (hinv : l.board.Inv)
    {job : Job} {b' : Board} {clock : Int64}
    (step : l.board.Step .created job b') :
    HandedOut (entries ++ [.job .created job]) ⟨b', l.workers, clock⟩ := by
  have hnone : assignmentsOf [(WalEntry.job .created job).output] = [] := rfl
  refine ⟨?_, ?_, ?_, ?_⟩
  · rw [jobIdsOf_snoc, h.jobs]
    obtain ⟨⟨jobs, pending⟩, workers, clock⟩ := l
    cases step with
    | created => simp [jobIdsOf, WalEntry.output]
  · rw [workerIdsOf_snoc, h.workers]
    exact List.append_nil _
  · rw [assignmentsOf_snoc, hnone, List.append_nil]
    exact h.covered hinv step
  · rw [assignmentsOf_snoc, hnone, List.append_nil]
    exact h.increasing

/-- An assignment hands out a higher attempt than all before. -/
theorem HandedOut.assigned (h : HandedOut entries l) (hinv : l.board.Inv)
    {job : Job} {b' : Board} {clock : Int64}
    (step : l.board.Step .assigned job b') :
    HandedOut (entries ++ [.job .assigned job]) ⟨b', l.workers, clock⟩ := by
  have hone : assignmentsOf [(WalEntry.job .assigned job).output]
      = [job.assignment.identity] := rfl
  refine ⟨?_, ?_, ?_, ?_⟩
  · rw [jobIdsOf_snoc, step.ids_eq (by simp), ← h.jobs]
    exact List.append_nil _
  · rw [workerIdsOf_snoc, h.workers]
    exact List.append_nil _
  · rw [assignmentsOf_snoc, hone]
    intro a ha
    rcases List.mem_append.mp ha with ha | ha
    · exact h.covered hinv step a ha
    · rw [List.mem_singleton.mp ha]
      exact ⟨job, step.mem_self, rfl, UInt64.le_refl _⟩
  · rw [assignmentsOf_snoc, hone]
    refine List.pairwise_append.mpr
      ⟨h.increasing, List.pairwise_singleton _ _, fun a ha b hb hid => ?_⟩
    rw [List.mem_singleton.mp hb] at hid ⊢
    obtain ⟨k, hk, hkid, hle⟩ := h.attempts a ha
    exact UInt64.lt_of_le_of_lt hle
      (step.assigned_gt hinv hk (hkid.trans hid))

theorem HandedOut.step (h : HandedOut entries l) (hinv : l.Inv)
    (hstep : l.Step entry l') : HandedOut (entries ++ [entry]) l' := by
  cases hstep with
  | @worker id nonzero fresh =>
      have hnone : assignmentsOf [(WalEntry.workerIdAllocated id).output]
          = [] := rfl
      refine ⟨?_, ?_, ?_, ?_⟩
      · rw [jobIdsOf_snoc, h.jobs]
        exact List.append_nil _
      · rw [workerIdsOf_snoc, h.workers]
        rfl
      · rw [assignmentsOf_snoc, hnone, List.append_nil]
        exact h.attempts
      · rw [assignmentsOf_snoc, hnone, List.append_nil]
        exact h.increasing
  | @job event job b' time known step =>
      cases event with
      | created => exact h.created hinv.board step
      | assigned => exact h.assigned hinv.board step
      | started => exact h.silent hinv.board step (by simp) rfl
      | completed => exact h.silent hinv.board step (by simp) rfl
      | requeued => exact h.silent hinv.board step (by simp) rfl
      | failed => exact h.silent hinv.board step (by simp) rfl

/-- Legal histories hand out everything once. -/
theorem Ledger.handedOut (h : Ledger.Run .init entries l) :
    HandedOut entries l := by
  refine Trace.snoc_induction (P := HandedOut)
    ⟨rfl, rfl, fun _ ha => absurd ha List.not_mem_nil, List.Pairwise.nil⟩ ?_ h
  intro entries l entry l' hrun ih hstep
  exact ih.step (Ledger.Run.inv hrun Ledger.inv_init) hstep

-- ================================================ over sessions

/-- What clients hold was handed out by the history. -/
theorem World.Holding.sublist (h : w.Holding entries l) {α : Type}
    {f : StoreOutput → Option α} (hf : f .none = none) :
    (w.issued.filterMap f).Sublist
      ((entries.map WalEntry.output).filterMap f) := by
  have hfilter : (w.issued.filter (· ≠ .none)).filterMap f
      = w.issued.filterMap f := by
    rw [List.filterMap_filter]
    congr 1
    funext output
    by_cases hout : output = .none
    · simp [hout, hf]
    · simp [hout]
  rw [← hfilter]
  exact h.issued.filterMap f

/-- The allocators stand above everything handed out, or at zero. -/
theorem allocators_above (h : w.Holding entries l)
    (hlive : w.live = some store) (hnone : store.failure = .none) :
    (∀ id ∈ jobIdsOf w.issued,
      store.jobs.nextJobId = 0 ∨ id < store.jobs.nextJobId)
    ∧ ∀ id ∈ workerIdsOf w.issued,
      store.workers.nextWorkerId = 0 ∨ id < store.workers.nextWorkerId := by
  have hout := Ledger.handedOut h.run
  cases h.live store hlive with
  | refused hlatched => exact absurd hnone hlatched
  | logged hagrees =>
      obtain ⟨hrep, hboard, -⟩ := hagrees.rep
      constructor
      · intro id hid
        have hmem := (h.sublist rfl).subset hid
        rw [show List.filterMap _ _ = l.board.jobs.map Job.id from hout.jobs,
          ← hboard] at hmem
        obtain ⟨job, hjob, rfl⟩ := List.mem_map.mp hmem
        by_cases hzero : store.jobs.nextJobId = 0
        · exact Or.inl hzero
        · exact Or.inr (hrep.id_lt_next hzero hjob)
      · intro id hid
        have hmem := (h.sublist rfl).subset hid
        rw [show List.filterMap _ _ = l.workers from hout.workers] at hmem
        by_cases hzero : store.workers.nextWorkerId = 0
        · exact Or.inl hzero
        · exact Or.inr (hagrees.fresh_worker hzero id hmem)

/-- A plan that appends nothing and leaves jobs and workers alone. -/
def Plan.Refuses (store : CoordinatorStore) (plan : Plan) : Prop :=
  ∃ result store', plan = .quiet result store' ∧ result ≠ .ok
    ∧ store'.jobs = store.jobs ∧ store'.workers = store.workers

theorem refuses_self {result : StoreResult} (hne : result ≠ .ok) :
    (Plan.quiet result store).Refuses store :=
  ⟨result, store, rfl, hne, rfl, rfl⟩

theorem refuses_fail (failure : StoreFailure) :
    (Plan.quiet .fatal (store.fail failure)).Refuses store := by
  refine ⟨_, _, rfl, by simp, ?_, ?_⟩ <;>
  · unfold CoordinatorStore.fail
    split <;> rfl

/-- Without a job id left a submission is refused. -/
theorem submit_refused (hzero : store.jobs.nextJobId = 0)
    (payload : JobSubmitPayload) (nowMs : Int64) :
    ((StoreOp.submit payload nowMs).plan store).Refuses store := by
  simp only [StoreOp.plan]
  split
  · exact refuses_self (by simp)
  split
  · exact refuses_fail _
  · rename_i time _
    have hrejected : ∃ result, result ≠ .ok ∧ result ≠ .queueError
        ∧ schedulerSubmit store.jobs payload time
          = (result, store.jobs, none) := by
      unfold schedulerSubmit
      split
      · exact ⟨_, by simp, by simp, rfl⟩
      split
      · exact ⟨_, by simp, by simp, rfl⟩
      · rw [if_pos (by simpa using hzero)]
        exact ⟨_, by simp, by simp, rfl⟩
    obtain ⟨result, hok, hqueue, heq⟩ := hrejected
    rw [heq]
    cases result <;> first
      | exact absurd rfl hok
      | exact absurd rfl hqueue
      | exact refuses_self (by simp)

/-- Without a worker id left a registration is refused. -/
theorem register_refused (hzero : store.workers.nextWorkerId = 0) (fd : Int)
    (nowMs : Int64) :
    ((StoreOp.register fd nowMs).plan store).Refuses store := by
  simp only [StoreOp.plan]
  split
  · exact refuses_self (by simp)
  split
  · exact refuses_fail _
  cases hreg : workerRegister store.workers fd nowMs with
  | error e => exact refuses_self (by simp)
  | ok registered =>
      obtain ⟨hid, hne, -⟩ := workerRegister_ok hreg
      exact absurd (hid.trans hzero) hne

/-- Identities are never reissued. Over any number of sessions of one log,
with any operations, failures and crashes, the job ids handed out by
submissions that returned OK increase strictly, and so do the worker ids
of registrations; of two assignment messages of one job the later has the
higher attempt, so none repeats. The allocators stay above what was handed
out until they are exhausted, and then the operations are refused. -/
theorem identities_unique (w : World) (h : w.Reachable) :
    (jobIdsOf w.issued).Pairwise (· < ·)
    ∧ (workerIdsOf w.issued).Pairwise (· < ·)
    ∧ (assignmentsOf w.issued).Pairwise LaterAttempt
    ∧ ((assignmentsOf w.issued).map fun identity =>
        (identity.jobId, identity.attempt)).Nodup
    ∧ (∀ store, w.live = some store → store.failure = .none →
        (∀ id ∈ jobIdsOf w.issued,
          store.jobs.nextJobId = 0 ∨ id < store.jobs.nextJobId)
        ∧ ∀ id ∈ workerIdsOf w.issued,
          store.workers.nextWorkerId = 0 ∨ id < store.workers.nextWorkerId)
    ∧ (∀ c payload nowMs, c.store.jobs.nextJobId = 0 →
        ∃ result c', (StoreOp.submit payload nowMs).run c
            = .done (result, .none) c'
          ∧ result ≠ .ok ∧ c'.store.jobs = c.store.jobs
          ∧ c'.store.workers = c.store.workers ∧ c'.machine = c.machine)
    ∧ ∀ c fd nowMs, c.store.workers.nextWorkerId = 0 →
        ∃ result c', (StoreOp.register fd nowMs).run c
            = .done (result, .none) c'
          ∧ result ≠ .ok ∧ c'.store.jobs = c.store.jobs
          ∧ c'.store.workers = c.store.workers ∧ c'.machine = c.machine := by
  obtain ⟨entries, l, hold⟩ := h.holding
  have hinv := hold.run.inv Ledger.inv_init
  have hout := Ledger.handedOut hold.run
  have hattempts : (assignmentsOf w.issued).Pairwise LaterAttempt :=
    hout.increasing.sublist (hold.sublist rfl)
  -- A refused plan is a run that changes neither table nor machine.
  have hrefused {op : StoreOp} {c : StoreCtx}
      (hplan : (op.plan c.store).Refuses c.store) :
      ∃ result c', op.run c = .done (result, .none) c'
        ∧ result ≠ .ok ∧ c'.store.jobs = c.store.jobs
        ∧ c'.store.workers = c.store.workers ∧ c'.machine = c.machine := by
    obtain ⟨result, store', heq, hne, hjobs, hworkers⟩ := hplan
    have hrun : op.run c
        = .done (result, .none) ⟨store', c.machine⟩ := by
      rw [op.run_eq, heq, Plan.run_quiet]
    exact ⟨result, _, hrun, hne, hjobs, hworkers, rfl⟩
  refine ⟨?_, ?_, hattempts, ?_, ?_, ?_, ?_⟩
  · have hids := hinv.board.ids
    rw [← hout.jobs] at hids
    exact hids.sublist (hold.sublist rfl)
  · have hids := hinv.workers_lt
    rw [← hout.workers] at hids
    exact hids.sublist (hold.sublist rfl)
  · refine List.Pairwise.map _ (fun a b hab heq => ?_) hattempts
    obtain ⟨hid, hattempt⟩ := Prod.mk.inj heq
    exact absurd hattempt (UInt64.ne_of_lt (hab hid))
  · exact fun store hlive hnone => allocators_above hold hlive hnone
  · exact fun c payload nowMs hzero =>
      hrefused (submit_refused hzero payload nowMs)
  · exact fun c fd nowMs hzero => hrefused (register_refused hzero fd nowMs)

theorem two_submissions :
    (StoreOp.runAll [.submit emptyJob 6, .submit emptyJob 7]
      ⟨firstStore, firstMachine⟩).map Prod.fst
      = some [.jobId 1, .jobId 2] := by
  decide +kernel

theorem identities_unique_submissions :
    ∃ w : World, w.Reachable ∧ jobIdsOf w.issued = [1, 2]
      ∧ (jobIdsOf w.issued).Pairwise (· < ·) := by
  obtain ⟨⟨outputs, c⟩, hrun, rfl⟩ := Option.map_eq_some_iff.mp two_submissions
  obtain ⟨w, hreach, -, -, hissued⟩ :=
    (Reachable.start firstStore_opened).runAll
      (c := ⟨firstStore, firstMachine⟩) rfl rfl hrun
  refine ⟨w, hreach, ?_, (identities_unique w hreach).1⟩
  rw [hissued]
  rfl

end Faultline
