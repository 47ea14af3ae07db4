/-
Whole histories: dispatch order, and the life of each job in them.

`Ledger.fifo` is the queue discipline as an equation between projections
of the log: what was enqueued is what was dispatched followed by what is
still pending. `Ledger.life` extracts from an interleaved history the
records of one job and shows they form a `Life`: a creation followed by
job steps. The accounting lemmas about attempts, retries and terminal
records are then statements about lives alone, and every prefix of a life
is a life, so a fact about the end of a life is a fact about every record
in it.
-/
import Faultline.Abstract.Ledger

namespace Faultline

open Lib

-- =============================================== one job's life

/-- The records of one job, from its creation to its current snapshot. -/
inductive Life : List (JobEvent × Job) → Job → Prop where
  | created {job : Job}
      (init : jobInit job.id job.taskType.code job.arguments job.maxRetries
        job.createdAtMs = .ok job) :
      Life [(.created, job)] job
  | step {past : List (JobEvent × Job)} {event : JobEvent} {old new : Job}
      (life : Life past old) (step : JobStep event old new) :
      Life (past ++ [(event, new)]) new

/-- How often an event occurs among a job's records. -/
def eventCount (event : JobEvent) (records : List (JobEvent × Job)) : Nat :=
  records.countP fun record => record.1 = event

/-- The attempts the assignments among a job's records carry. -/
def assignedAttempts (records : List (JobEvent × Job)) : List Nat :=
  records.filterMap fun record =>
    if record.1 = .assigned then some record.2.attempt.toNat else none

namespace Life

variable {past after : List (JobEvent × Job)} {event : JobEvent}
variable {job snapshot : Job}

theorem valid (h : Life past job) : job.Valid := by
  induction h with
  | created init => exact jobInit_valid init
  | step _ step ih => exact step.valid ih

/-- The last record of a life is its snapshot. -/
theorem last (h : Life (past ++ [(event, snapshot)]) job) :
    snapshot = job := by
  generalize hp : past ++ [(event, snapshot)] = records at h
  cases h with
  | created init =>
      have hlast := List.append_inj_right' (hp.trans (List.nil_append _).symm) rfl
      simp only [List.cons.injEq, Prod.mk.injEq] at hlast
      exact hlast.1.2
  | step life step =>
      have := List.append_inj_right' hp rfl
      simp only [List.cons.injEq, Prod.mk.injEq] at this
      exact this.1.2

/-- Every prefix of a life is the life of the snapshot it ends in. -/
theorem upTo (h : Life (past ++ (event, snapshot) :: after) job) :
    Life (past ++ [(event, snapshot)]) snapshot := by
  generalize hp : past ++ (event, snapshot) :: after = records at h
  induction h generalizing after with
  | @created job init =>
      cases past with
      | nil =>
          simp only [List.nil_append, List.cons.injEq, Prod.mk.injEq] at hp
          obtain ⟨⟨rfl, rfl⟩, -⟩ := hp
          exact .created init
      | cons _ _ =>
          have := congrArg List.length hp
          simp at this
  | @step past' event' old new life step ih =>
      rcases List.eq_nil_or_concat after with rfl | ⟨rest, final, rfl⟩
      · have hp' := hp
        obtain ⟨rfl, hlast⟩ := List.append_inj' hp' rfl
        simp only [List.cons.injEq, Prod.mk.injEq] at hlast
        obtain ⟨⟨rfl, rfl⟩, -⟩ := hlast
        exact .step life step
      · have hp' : (past ++ (event, snapshot) :: rest) ++ [final]
            = past' ++ [(event', new)] := by
          simpa using hp
        exact ih (List.append_inj' hp' rfl).1

/-- The last record's event leaves the state the life is in. -/
theorem lastLeaves (h : Life (past ++ [(event, snapshot)]) job) :
    event.Leaves snapshot := by
  generalize hp : past ++ [(event, snapshot)] = records at h
  cases h with
  | created init =>
      have hlast := List.append_inj_right' (hp.trans (List.nil_append _).symm) rfl
      simp only [List.cons.injEq, Prod.mk.injEq] at hlast
      obtain ⟨⟨rfl, rfl⟩, -⟩ := hlast
      exact jobInit_leaves init
  | step life step =>
      have := List.append_inj_right' hp rfl
      simp only [List.cons.injEq, Prod.mk.injEq] at this
      obtain ⟨⟨rfl, rfl⟩, -⟩ := this
      exact step.leaves

/-- Two adjacent records of a life are related by a job step. -/
theorem adjacent {event' : JobEvent} {snapshot' : Job}
    (h : Life (past ++ (event, snapshot) :: (event', snapshot') :: after)
      job) : JobStep event' snapshot snapshot' := by
  have hpre : Life ((past ++ [(event, snapshot)])
      ++ [(event', snapshot')]) snapshot' := by
    have h' : Life ((past ++ [(event, snapshot)])
        ++ (event', snapshot') :: after) job := by
      simpa using h
    exact h'.upTo
  generalize hp : (past ++ [(event, snapshot)]) ++ [(event', snapshot')]
    = records at hpre
  cases hpre with
  | created init =>
      have := congrArg List.length hp
      simp at this
  | step life step =>
      obtain ⟨rfl, hlast⟩ := List.append_inj' hp rfl
      simp only [List.cons.injEq, Prod.mk.injEq] at hlast
      obtain ⟨⟨rfl, -⟩, -⟩ := hlast
      rw [life.last]
      exact step

/-- What was fixed at creation is the same in all records. -/
theorem same (h : Life past job) :
    ∀ record ∈ past, SameJob record.2 job := by
  induction h with
  | created init =>
      intro record hr
      rw [List.mem_singleton.mp hr]
      exact ⟨rfl, rfl, rfl, rfl, rfl⟩
  | step _ step ih =>
      intro record hr
      rcases List.mem_append.mp hr with hr | hr
      · exact (ih record hr).trans step.same
      · rw [List.mem_singleton.mp hr]
        exact ⟨rfl, rfl, rfl, rfl, rfl⟩

-- ----------------------------------------------------- attempt counting

theorem assignedAttempts_append (a b : List (JobEvent × Job)) :
    assignedAttempts (a ++ b) = assignedAttempts a ++ assignedAttempts b :=
  List.filterMap_append

theorem eventCount_append (event : JobEvent) (a b : List (JobEvent × Job)) :
    eventCount event (a ++ b) = eventCount event a + eventCount event b :=
  List.countP_append

theorem eventCount_assigned (records : List (JobEvent × Job)) :
    eventCount .assigned records = (assignedAttempts records).length := by
  induction records with
  | nil => rfl
  | cons record records ih =>
      have ih' : List.countP (fun r => decide (r.1 = .assigned)) records
          = (assignedAttempts records).length := ih
      by_cases hr : record.1 = .assigned
      · simp [eventCount, assignedAttempts, hr, ih']
      · simp [eventCount, assignedAttempts, hr, ih']

/-- The assignments of a life carry the attempts one, two, and so on up
to the current one. -/
theorem attempts (h : Life past job) :
    assignedAttempts past = List.range' 1 job.attempt.toNat := by
  induction h with
  | created init =>
      obtain ⟨-, -, -, _, -, hjob⟩ := jobInit_ok_iff.mp init
      rw [hjob]
      rfl
  | @step past event old new life step ih =>
      rw [assignedAttempts_append, ih]
      cases event with
      | created => cases step
      | assigned =>
          have hq := jobStep_assigned step
          obtain ⟨hs, _, _, -, -, -, rfl⟩ := hq
          have hsucc : (old.attempt + 1).toNat = old.attempt.toNat + 1 := by
            have ha := life.valid.attempt_toNat
            have hr := old.retryCount.toNat_lt
            rw [if_pos hs] at ha
            rw [UInt64.toNat_add]
            exact Nat.mod_eq_of_lt (by simp; omega)
          simp only [assignedAttempts, List.filterMap_cons, if_true,
            List.filterMap_nil]
          rw [hsucc, List.range'_1_concat, Nat.add_comm 1]
      | started =>
          obtain ⟨-, _, -, -, rfl⟩ := jobStep_started step
          exact List.append_nil _
      | completed =>
          obtain ⟨-, _, _, -, -, -, rfl⟩ := jobStep_completed step
          exact List.append_nil _
      | requeued =>
          obtain ⟨-, -, _, _, -, -, -, rfl⟩ := jobStep_requeued step
          exact List.append_nil _
      | failed =>
          obtain ⟨-, -, _, _, -, -, -, rfl⟩ := jobStep_failed step
          exact List.append_nil _

theorem assigned_count (h : Life past job) :
    eventCount .assigned past = job.attempt.toNat := by
  rw [eventCount_assigned, h.attempts, List.length_range']

/-- The retry count is the number of requeues. -/
theorem requeued_count (h : Life past job) :
    eventCount .requeued past = job.retryCount.toNat := by
  induction h with
  | created init =>
      obtain ⟨-, -, -, _, -, hjob⟩ := jobInit_ok_iff.mp init
      rw [hjob]
      rfl
  | @step past event old new life step ih =>
      rw [eventCount_append, ih]
      cases event with
      | created => cases step
      | assigned =>
          obtain ⟨-, _, _, -, -, -, rfl⟩ := jobStep_assigned step
          rfl
      | started =>
          obtain ⟨-, _, -, -, rfl⟩ := jobStep_started step
          rfl
      | completed =>
          obtain ⟨-, _, _, -, -, -, rfl⟩ := jobStep_completed step
          rfl
      | requeued =>
          obtain ⟨-, hlt, _, _, -, -, -, rfl⟩ := jobStep_requeued step
          exact (toNat_succ hlt).symm
      | failed =>
          obtain ⟨-, -, _, _, -, -, -, rfl⟩ := jobStep_failed step
          rfl

/-- Between one assignment of a job and its next there is exactly one
requeue. -/
theorem one_requeue_between {between : List (JobEvent × Job)}
    {next : Job}
    (h : Life (past ++ (.assigned, snapshot)
      :: (between ++ (.assigned, next) :: after)) job)
    (hbetween : eventCount .assigned between = 0) :
    eventCount .requeued between = 1 := by
  have h₁ := h.upTo
  have h₂ : Life ((past ++ (.assigned, snapshot) :: between)
      ++ [(.assigned, next)]) next := by
    have h' : Life ((past ++ (.assigned, snapshot) :: between)
        ++ (.assigned, next) :: after) job := by
      simpa using h
    exact h'.upTo
  -- At either assignment the requeues are one fewer than the assignments.
  have hgap {records : List (JobEvent × Job)} {x : Job}
      (hl : Life (records ++ [(.assigned, x)]) x) :
      eventCount .requeued (records ++ [(.assigned, x)]) + 1
        = eventCount .assigned (records ++ [(.assigned, x)]) := by
    have hstate : x.state ≠ .queued := by
      rw [hl.lastLeaves]
      simp
    have hv := hl.valid.attempt_toNat
    rw [if_neg hstate] at hv
    rw [hl.assigned_count, hl.requeued_count, hv]
  have g₁ := hgap h₁
  have g₂ := hgap h₂
  simp only [eventCount, List.countP_append, List.countP_cons,
    List.countP_nil] at g₁ g₂ hbetween ⊢
  simp only [decide_true, if_true, reduceCtorEq, decide_false,
    Bool.false_eq_true, if_false] at g₁ g₂
  omega

/-- No more assignments than the budget allows. -/
theorem assigned_count_le (h : Life past job) :
    eventCount .assigned past ≤ job.maxRetries.toNat + 1 := by
  have hv := h.valid.attempt_toNat
  have hle : job.retryCount.toNat ≤ job.maxRetries.toNat :=
    h.valid.retries_le
  rw [h.assigned_count, hv]
  split <;> omega

/-- A failure is recorded only when the budget is spent. -/
theorem failed_after (h : Life (past ++ (.failed, snapshot) :: after) job) :
    eventCount .assigned past = job.maxRetries.toNat + 1 := by
  have hsame := h.same (.failed, snapshot) (by simp)
  have hl := h.upTo
  have hstate : snapshot.state = .failed := hl.lastLeaves
  have hcount := hl.assigned_count
  have hf := hl.valid.fields
  have hv := hl.valid.attempt_toNat
  rw [if_neg (by rw [hstate]; simp)] at hv
  unfold Job.StateFields at hf
  simp only [hstate] at hf
  have hretry : snapshot.retryCount = job.maxRetries := by
    rw [hsame.retries_eq]
    exact hf.2.2.2.2.1
  rw [eventCount_append, hv, hretry] at hcount
  simpa [eventCount] using hcount

/-- A completed or failed record ends the life. -/
theorem terminal_last
    (h : Life (past ++ (event, snapshot) :: after) job)
    (hterm : event = .completed ∨ event = .failed) : after = [] := by
  cases after with
  | nil => rfl
  | cons record rest =>
      have hleaves := h.upTo.lastLeaves
      have hstep : JobStep record.1 snapshot record.2 := h.adjacent
      have hidle : snapshot.state = .done ∨ snapshot.state = .failed := by
        rcases hterm with rfl | rfl
        · exact Or.inl hleaves
        · exact Or.inr hleaves
      exact absurd hstep (JobStep.not_terminal hidle)

end Life

-- ========================================= from logs to lives

namespace Ledger

/-- The records of one job in a history, in log order. -/
def recordsOf (id : UInt64) (entries : List WalEntry) :
    List (JobEvent × Job) :=
  entries.filterMap fun
    | .workerIdAllocated _ => none
    | .job event job => if job.id = id then some (event, job) else none

/-- The ids a history dispatched, in log order. -/
def dispatched (entries : List WalEntry) : List UInt64 :=
  entries.filterMap fun
    | .job .assigned job => some job.id
    | _ => none

/-- The ids a history put into the queue, in log order. -/
def enqueued (entries : List WalEntry) : List UInt64 :=
  entries.filterMap fun
    | .job .created job => some job.id
    | .job .requeued job => some job.id
    | _ => none

variable {entries : List WalEntry} {l : Ledger}

/-- What was enqueued is what was dispatched, then what is pending. -/
theorem fifo (h : Run init entries l) :
    enqueued entries = dispatched entries ++ l.board.pending := by
  refine Trace.snoc_induction
    (P := fun entries l =>
      enqueued entries = dispatched entries ++ l.board.pending)
    rfl ?_ h
  intro entries l entry l' _ ih hstep
  simp only [enqueued, dispatched, List.filterMap_append] at ih ⊢
  cases hstep with
  | worker => simpa using ih
  | job _ _ step =>
      obtain ⟨⟨jobs, pending⟩, workers, clock⟩ := l
      simp only at ih step ⊢
      cases step with
      | created => simp [ih]
      | assigned idle step => simp [ih, step.same.id_eq]
      | started => simpa using ih
      | completed => simpa using ih
      | requeued => simp [ih]
      | failed => simpa using ih

/-- In a legal history every job on the board has lived its records, and
no other id has any. -/
theorem life (h : Run init entries l) :
    (∀ job ∈ l.board.jobs, Life (recordsOf job.id entries) job)
      ∧ ∀ id, (∀ job ∈ l.board.jobs, job.id ≠ id) →
          recordsOf id entries = [] := by
  refine Trace.snoc_induction
    (P := fun entries l =>
      (∀ job ∈ l.board.jobs, Life (recordsOf job.id entries) job)
      ∧ ∀ id, (∀ job ∈ l.board.jobs, job.id ≠ id) →
          recordsOf id entries = [])
    ⟨fun _ h => absurd h List.not_mem_nil, fun _ _ => rfl⟩ ?_ h
  intro entries l entry l' hrun ih hstep
  obtain ⟨hlife, hnone⟩ := ih
  have hinv := (Run.inv hrun inv_init).board
  cases hstep with
  | @worker id _ _ =>
      have hsame (j : UInt64) : recordsOf j
          (entries ++ [.workerIdAllocated id]) = recordsOf j entries := by
        simp [recordsOf, List.filterMap_append]
      exact ⟨fun k hk => (hsame k.id).symm ▸ hlife k hk,
        fun j hj => (hsame j).trans (hnone j hj)⟩
  | @job event job b' _ _ step =>
      have hself : recordsOf job.id (entries ++ [.job event job])
          = recordsOf job.id entries ++ [(event, job)] := by
        simp [recordsOf, List.filterMap_append]
      have hother (id : UInt64) (hne : job.id ≠ id) :
          recordsOf id (entries ++ [.job event job])
            = recordsOf id entries := by
        simp [recordsOf, List.filterMap_append, hne]
      -- A rewritten record: its own life grows, the others' do not.
      have hrewrite {pre suf : List Job} {old : Job}
          (hjobs : l.board.jobs = pre ++ old :: suf)
          (hjobs' : b'.jobs = pre ++ job :: suf)
          (hj : JobStep event old job) :
          (∀ k ∈ b'.jobs,
            Life (recordsOf k.id (entries ++ [.job event job])) k)
          ∧ ∀ id, (∀ k ∈ b'.jobs, k.id ≠ id) →
            recordsOf id (entries ++ [.job event job]) = [] := by
        have hid := hj.same.id_eq
        have hrest (k : Job) (hk : k ∈ pre ∨ k ∈ suf) :
            Life (recordsOf k.id (entries ++ [.job event job])) k := by
          have hne := Board.ids_ne hinv hjobs hk
          rw [hother k.id (by rw [hid]; exact hne.symm)]
          refine hlife k ?_
          rw [hjobs]
          rcases hk with hk | hk <;> simp [hk]
        constructor
        · intro k hk
          rw [hjobs'] at hk
          rcases List.mem_append.mp hk with hk | hk
          · exact hrest k (Or.inl hk)
          rcases List.mem_cons.mp hk with rfl | hk
          · rw [hself, hid]
            exact .step (hlife old (by rw [hjobs]; simp)) hj
          · exact hrest k (Or.inr hk)
        · intro id hid'
          have hne : job.id ≠ id := hid' job (by rw [hjobs']; simp)
          rw [hother id hne]
          refine hnone id fun k hk => ?_
          rw [hjobs] at hk
          rcases List.mem_append.mp hk with hk | hk
          · exact hid' k (by rw [hjobs']; simp [hk])
          rcases List.mem_cons.mp hk with rfl | hk
          · rw [← hid]
            exact hne
          · exact hid' k (by rw [hjobs']; simp [hk])
      obtain ⟨⟨jobs, pending⟩, workers, clock⟩ := l
      simp only at step hlife hnone hrewrite ⊢
      cases step with
      | created fresh room init =>
          have hnew : recordsOf job.id entries = [] :=
            hnone job.id fun k hk => UInt64.ne_of_lt (fresh k hk)
          constructor
          · intro k hk
            rcases List.mem_append.mp hk with hk | hk
            · rw [hother k.id (UInt64.ne_of_lt (fresh k hk)).symm]
              exact hlife k hk
            · rw [List.mem_singleton.mp hk, hself, hnew]
              exact .created init
          · intro id hid
            rw [hother id (hid job (by simp))]
            exact hnone id fun k hk => hid k (by simp [hk])
      | assigned _ step => exact hrewrite rfl rfl step
      | started step => exact hrewrite rfl rfl step
      | completed step => exact hrewrite rfl rfl step
      | requeued step => exact hrewrite rfl rfl step
      | failed step => exact hrewrite rfl rfl step

end Ledger

end Faultline
