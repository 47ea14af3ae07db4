/-
What a log means: the job board, the worker ids handed out, and the
latest job time.

`Ledger.Step` is the legality of one more log entry. A worker id must be
above every earlier one; a job entry must be a board step, may not go back
in time, and an assignment must name a worker the log allocated. A history
is legal when it is a run of such steps from the empty ledger.

Beyond the invariant, two facts matter to the code. Every legal entry
passes the encoder's snapshot check (`Step.encodable`). And legal histories
are short (`run_length_lt`): a job's retries are bounded and every entry
moves some job or the worker allocator forward, so neither the sequence
numbers nor the file offsets of a log can run out.
-/
import Faultline.Abstract.Board
import Faultline.Lib.Trace
import Faultline.Wal.Codec
import Mathlib.Algebra.Order.BigOperators.Group.List
import Mathlib.Algebra.Order.Ring.Nat
import Mathlib.Order.Interval.Finset.Nat

namespace Faultline

open Lib

-- ========================================== facts about one step

namespace Board

variable {b b' : Board} {event : JobEvent} {job : Job}

/-- A step only adds or rewrites the job it names. -/
theorem Step.mem (h : b.Step event job b') {k : Job} (hk : k ∈ b'.jobs) :
    k = job ∨ k ∈ b.jobs := by
  cases h <;>
    simp only [List.mem_append, List.mem_cons, List.not_mem_nil,
      or_false] at hk ⊢ <;> grind

/-- The job a step names is on the board afterwards. -/
theorem Step.mem_self (h : b.Step event job b') : job ∈ b'.jobs := by
  cases h <;> simp

/-- Only an assignment makes a worker an owner. -/
theorem Step.owner (h : b.Step event job b') {worker : UInt32}
    (hw : worker ∈ ownersIn b'.jobs) :
    worker ∈ ownersIn b.jobs
      ∨ (event = .assigned ∧ worker = job.workerId) := by
  obtain ⟨k, hk, hact, rfl⟩ := mem_ownersIn.mp hw
  rcases h.mem hk with rfl | hk
  · cases h with
    | created _ _ init =>
        rw [(jobInit_leaves init).1] at hact
        cases hact
    | assigned => exact Or.inr ⟨rfl, rfl⟩
    | @started _ old _ _ _ step =>
        obtain ⟨ha, _, -, -, rfl⟩ := jobStep_started step
        refine Or.inl (mem_ownersIn.mpr ⟨old, by simp, ?_, rfl⟩)
        rw [ha]
        rfl
    | completed step => rw [step.leaves] at hact; cases hact
    | requeued step => rw [step.leaves.1] at hact; cases hact
    | failed step => rw [step.leaves] at hact; cases hact
  · exact Or.inl (mem_ownersIn.mpr ⟨k, hk, hact, rfl⟩)

/-- A step's snapshot is valid for its event. -/
theorem Step.valid (h : b.Step event job b') (hinv : b.Inv) :
    job.Valid ∧ event.Leaves job := by
  refine ⟨(h.inv hinv).valid job h.mem_self, ?_⟩
  cases h with
  | created _ _ init => exact jobInit_leaves init
  | assigned _ step => exact step.leaves
  | started step => exact step.leaves
  | completed step => exact step.leaves
  | requeued step => exact step.leaves
  | failed step => exact step.leaves

end Board

-- ==================================================== progress

/-- How far through its life a job is: three stages per attempt. -/
def Job.rank (job : Job) : Nat :=
  3 * job.retryCount.toNat + match job.state with
    | .queued => 0
    | .assigned => 1
    | .running => 2
    | .done => 3
    | .failed => 3

/-- Every event moves its job forward. -/
theorem JobStep.rank_lt {event : JobEvent} {old new : Job}
    (h : JobStep event old new) : old.rank < new.rank := by
  unfold Job.rank
  cases event with
  | created => cases h
  | assigned =>
      obtain ⟨hs, _, _, -, -, -, rfl⟩ := jobStep_assigned h
      simp [hs]
  | started =>
      obtain ⟨hs, _, -, -, rfl⟩ := jobStep_started h
      simp [hs]
  | completed =>
      obtain ⟨hs, _, _, -, -, -, rfl⟩ := jobStep_completed h
      simp [hs]
  | requeued =>
      obtain ⟨hact, hlt, _, _, -, -, -, rfl⟩ := jobStep_requeued h
      have hsucc := toNat_succ hlt
      cases hs : old.state <;> simp only [hs] at hact <;>
        simp only [JobState.active] at hact <;>
        simp only [hsucc] <;> first | omega | cases hact
  | failed =>
      obtain ⟨hact, -, _, _, -, -, -, rfl⟩ := jobStep_failed h
      cases hs : old.state <;> simp only [hs] at hact <;>
        simp only [JobState.active] at hact <;>
        first | (simp; done) | cases hact

theorem Job.rank_lt (job : Job) : job.rank < 3 * 2 ^ 32 + 1 := by
  have := job.retryCount.toNat_lt
  unfold Job.rank
  split <;> omega

/-- The entries a board accounts for: one creation and one per rank. -/
def Board.weight (b : Board) : Nat := (b.jobs.map fun j => j.rank + 1).sum

theorem Board.Step.weight_lt {b b' : Board} {event : JobEvent} {job : Job}
    (h : b.Step event job b') : b.weight < b'.weight := by
  have hmid {pre suf : List Job} {old new : Job} {e : JobEvent}
      {p p' : List UInt64} (hs : JobStep e old new) :
      Board.weight ⟨pre ++ old :: suf, p⟩
        < Board.weight ⟨pre ++ new :: suf, p'⟩ := by
    have := hs.rank_lt
    simp only [Board.weight, List.map_append, List.map_cons,
      List.sum_append, List.sum_cons]
    omega
  cases h with
  | created => simp [Board.weight]
  | assigned _ step => exact hmid step
  | started step => exact hmid step
  | completed step => exact hmid step
  | requeued step => exact hmid step
  | failed step => exact hmid step

theorem Board.weight_lt {b : Board} (h : b.Inv) : b.weight < 2 ^ 42 := by
  have hsum : b.weight ≤ b.jobs.length * (3 * 2 ^ 32 + 1) := by
    unfold Board.weight
    have := List.sum_le_card_nsmul (b.jobs.map fun j => j.rank + 1)
      (3 * 2 ^ 32 + 1) (by
        intro x hx
        obtain ⟨j, -, rfl⟩ := List.mem_map.mp hx
        exact j.rank_lt)
    simpa using this
  have hlen := h.jobs_le
  unfold boardCapacity at hlen
  omega

-- ====================================================== ledgers

structure Ledger where
  board : Board
  workers : List UInt32
  clock : Int64
deriving DecidableEq, Repr

namespace Ledger

def init : Ledger := { board := .empty, workers := [], clock := 0 }

/-- One legal entry more. -/
inductive Step : Ledger → WalEntry → Ledger → Prop where
  | worker {l : Ledger} {id : UInt32} (nonzero : id ≠ 0)
      (fresh : ∀ w ∈ l.workers, w < id) :
      Step l (.workerIdAllocated id) { l with workers := l.workers ++ [id] }
  | job {l : Ledger} {event : JobEvent} {job : Job} {b' : Board}
      (time : l.clock ≤ job.updatedAtMs)
      (known : event = .assigned → job.workerId ∈ l.workers)
      (step : l.board.Step event job b') :
      Step l (.job event job)
        { board := b', workers := l.workers, clock := job.updatedAtMs }

structure Inv (l : Ledger) : Prop where
  board : l.board.Inv
  workers_lt : l.workers.Pairwise (· < ·)
  workers_ne : ∀ w ∈ l.workers, w ≠ 0
  owners_known : ∀ w ∈ Board.ownersIn l.board.jobs, w ∈ l.workers
  clock_nonneg : 0 ≤ l.clock
  times_le : ∀ j ∈ l.board.jobs, j.updatedAtMs ≤ l.clock

variable {l l' : Ledger} {entry : WalEntry} {entries : List WalEntry}

theorem inv_init : Inv init :=
  ⟨Board.inv_empty, List.Pairwise.nil, fun _ h => absurd h List.not_mem_nil,
    fun _ h => absurd h List.not_mem_nil, by decide,
    fun _ h => absurd h List.not_mem_nil⟩

theorem Step.inv (h : l.Step entry l') (hinv : l.Inv) : l'.Inv := by
  cases h with
  | worker nonzero fresh =>
      refine ⟨hinv.board, ?_, ?_, ?_, hinv.clock_nonneg, hinv.times_le⟩
      · refine List.pairwise_append.mpr
          ⟨hinv.workers_lt, List.pairwise_singleton _ _, ?_⟩
        intro a ha b hb
        rw [List.mem_singleton.mp hb]
        exact fresh a ha
      · intro w hw
        rcases List.mem_append.mp hw with hw | hw
        · exact hinv.workers_ne w hw
        · rw [List.mem_singleton.mp hw]
          exact nonzero
      · intro w hw
        exact List.mem_append_left _ (hinv.owners_known w hw)
  | job time known step =>
      refine ⟨step.inv hinv.board, hinv.workers_lt, hinv.workers_ne, ?_,
        ?_, ?_⟩
      · intro w hw
        rcases step.owner hw with hw | ⟨hev, rfl⟩
        · exact hinv.owners_known w hw
        · exact known hev
      · exact Int64.le_trans hinv.clock_nonneg time
      · intro j hj
        rcases step.mem hj with rfl | hj
        · exact Int64.le_refl _
        · exact Int64.le_trans (hinv.times_le j hj) time

/-- A legal entry passes the encoder's check. -/
theorem Step.encodable (h : l.Step entry l') (hinv : l.Inv) :
    entry.encodable = true := by
  cases h with
  | worker nonzero _ => simpa [WalEntry.encodable] using nonzero
  | job _ _ step => exact validJob_iff.mpr (step.valid hinv.board)

/-- A run of legal entries. -/
abbrev Run : Ledger → List WalEntry → Ledger → Prop := Trace Step

theorem Run.inv (h : Run l entries l') (hinv : l.Inv) : l'.Inv :=
  Trace.invariant (fun _ _ _ hi hs => hs.inv hi) h hinv

theorem Run.encodable (h : Run l entries l') (hinv : l.Inv) :
    ∀ e ∈ entries, e.encodable = true := by
  induction h with
  | nil => exact fun _ h => absurd h List.not_mem_nil
  | cons first _ ih =>
      intro e he
      rcases List.mem_cons.mp he with rfl | he
      · exact first.encodable hinv
      · exact ih (first.inv hinv) e he

-- ========================================== histories are short

/-- The entries a ledger accounts for. -/
def weight (l : Ledger) : Nat := l.workers.length + l.board.weight

theorem Step.weight_lt (h : l.Step entry l') : l.weight < l'.weight := by
  cases h with
  | worker => simp [weight]
  | job _ _ step =>
      have := step.weight_lt
      simp only [weight]
      omega

/-- Strictly increasing nonzero ids are at most as many as the last. -/
theorem length_le_of_pairwise {ids : List UInt32}
    (hlt : ids.Pairwise (· < ·)) (hne : ∀ w ∈ ids, w ≠ 0) :
    ids.length < 2 ^ 32 := by
  have hnodup : (ids.map UInt32.toNat).Nodup := by
    refine List.Pairwise.map _ (fun a b hab => ?_) hlt
    exact Nat.ne_of_lt hab
  have hsub : ∀ n ∈ ids.map UInt32.toNat, n ∈ Finset.Ico 1 (2 ^ 32) := by
    intro n hn
    obtain ⟨w, hw, rfl⟩ := List.mem_map.mp hn
    have hpos : w.toNat ≠ 0 := fun h0 =>
      hne w hw (UInt32.toNat.inj (by simpa using h0))
    exact Finset.mem_Ico.mpr ⟨by omega, w.toNat_lt⟩
  have hcard := Finset.card_le_card (s := (ids.map UInt32.toNat).toFinset)
    (t := Finset.Ico 1 (2 ^ 32))
    (fun n hn => hsub n (List.mem_toFinset.mp hn))
  rw [List.toFinset_card_of_nodup hnodup, List.length_map,
    Nat.card_Ico] at hcard
  omega

theorem weight_lt (h : l.Inv) : l.weight < 2 ^ 43 := by
  have h₁ := length_le_of_pairwise h.workers_lt h.workers_ne
  have h₂ := Board.weight_lt h.board
  unfold weight
  omega

/-- A run adds at least one to the weight per entry. -/
theorem Run.length_le (h : Run l entries l') :
    l.weight + entries.length ≤ l'.weight := by
  induction h with
  | nil => simp
  | cons first _ ih =>
      have := first.weight_lt
      simp only [List.length_cons]
      omega

/-- Legal histories are short. -/
theorem run_length_lt (h : Run init entries l) : entries.length < 2 ^ 43 := by
  have h₁ := h.length_le
  have h₂ := weight_lt (h.inv inv_init)
  omega

end Ledger

end Faultline
