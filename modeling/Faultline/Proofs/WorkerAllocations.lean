/-
Worker ids as replay meets them.

Ids are presented one after the other; the ones that are not accepted leave
no trace. `Presented` is the state of that: the accepted ids rise to the
highest, and the index holds exactly them. `SearchRun` is the binary search
as a run, one rule for each way round the loop, every rule reading a range
that is there.
-/
import Faultline.Proofs.WorkerIndex

namespace Faultline

/-- A replay that has been presented with worker ids. -/
structure Presented where
  state : WalReplayState
  index : List WorkerRange
  accepted : List UInt32
deriving DecidableEq, Repr

def presentedInit : Presented :=
  { state := walReplayStateInit, index := [], accepted := [] }

/-- `allocate_worker` on one more id. -/
def Presented.next (p : Presented) (id : UInt32) : Presented :=
  match allocateWorker p.state p.index id with
  | .error _ => p
  | .ok (state, index) => { state, index, accepted := p.accepted ++ [id] }

def presentAll (ids : List UInt32) : Presented :=
  ids.foldl Presented.next presentedInit

/-- One run of the search between two bounds, and its answer. -/
inductive SearchRun (index : List WorkerRange) (id : UInt32) :
    Nat → Nat → Bool → Prop where
  | out {low high : Nat} (empty : ¬ low < high) :
      SearchRun index id low high false
  | lower {low high : Nat} {range : WorkerRange} {answer : Bool}
      (more : low < high) (inBounds : low + (high - low) / 2 < index.length)
      (read : index[low + (high - low) / 2]? = some range)
      (less : id < range.first)
      (rest : SearchRun index id low (low + (high - low) / 2) answer) :
      SearchRun index id low high answer
  | upper {low high : Nat} {range : WorkerRange} {answer : Bool}
      (more : low < high) (inBounds : low + (high - low) / 2 < index.length)
      (read : index[low + (high - low) / 2]? = some range)
      (reaches : ¬ id < range.first) (greater : id > range.last)
      (rest : SearchRun index id (low + (high - low) / 2 + 1) high answer) :
      SearchRun index id low high answer
  | found {low high : Nat} {range : WorkerRange}
      (more : low < high) (inBounds : low + (high - low) / 2 < index.length)
      (read : index[low + (high - low) / 2]? = some range)
      (reaches : ¬ id < range.first) (within : ¬ id > range.last) :
      SearchRun index id low high true

variable {index : List WorkerRange} {ids : List UInt32} {id : UInt32}
  {p : Presented}

-- ======================================================= search

/-- Enough steps make a whole run, and every index it reads is there. -/
theorem searchIndex_run (fuel low high : Nat) (hhigh : high ≤ index.length)
    (hfuel : high - low ≤ fuel) :
    SearchRun index id low high (searchIndex index id fuel low high) := by
  induction fuel generalizing low high with
  | zero => exact .out (by omega)
  | succ fuel ih =>
      unfold searchIndex
      split
      · rename_i hmore
        have hin : low + (high - low) / 2 < index.length := by omega
        have hread := List.getElem?_eq_getElem hin
        simp only [hread]
        split
        · rename_i hless
          exact .lower hmore hin hread hless
            (ih low _ (by omega) (by omega))
        · rename_i hreaches
          split
          · rename_i hgreater
            exact .upper hmore hin hread hreaches hgreater
              (ih _ high hhigh (by omega))
          · rename_i hwithin
            exact .found hmore hin hread hreaches hwithin
      · rename_i hempty
        exact .out hempty

theorem workerWasAllocated_run (index : List WorkerRange) (id : UInt32) :
    SearchRun index id 0 index.length (workerWasAllocated index id) :=
  searchIndex_run _ _ _ (Nat.le_refl _) (Nat.sub_le _ _)

-- ================================================== allocations

/-- The accepted ids are nonzero, the highest is the last of them, and the
index holds them. -/
structure Presented.Exact (p : Presented) : Prop where
  index : IndexFor p.index p.accepted
  highest : ∀ id ∈ p.accepted, id ≤ p.state.highestWorkerId
  reached : p.state.highestWorkerId = 0
    ∨ p.state.highestWorkerId ∈ p.accepted
  nonzero : (0 : UInt32) ∉ p.accepted

theorem presentedInit_exact : presentedInit.Exact :=
  ⟨indexFor_nil, by simp [presentedInit], .inl rfl, by simp [presentedInit]⟩

/-- The test against the highest id is the test against all of them. -/
theorem Presented.Exact.above_iff (h : p.Exact) :
    ¬ id ≤ p.state.highestWorkerId
      ↔ id ≠ 0 ∧ ∀ earlier ∈ p.accepted, earlier < id := by
  rw [UInt32.not_le]
  constructor
  · intro habove
    refine ⟨fun hzero => ?_, fun earlier hmem => ?_⟩
    · rw [hzero] at habove
      exact absurd (UInt32.zero_le) (UInt32.not_le.mpr habove)
    · exact UInt32.lt_of_le_of_lt (h.highest earlier hmem) habove
  · rintro ⟨hne, habove⟩
    rcases h.reached with hzero | hmem
    · rw [hzero]
      exact UInt32.pos_iff_ne_zero.mpr hne
    · exact habove _ hmem

/-- An id is accepted when it lies above every accepted one. -/
theorem Presented.Exact.accepts_iff (h : p.Exact) :
    (allocateWorker p.state p.index id).isOk = true
      ↔ id ≠ 0 ∧ ∀ earlier ∈ p.accepted, earlier < id := by
  rw [← h.above_iff]
  unfold allocateWorker
  split
  · rename_i hle
    simp [hle, Except.isOk, Except.toBool]
  · rename_i habove
    simp [habove, Except.isOk, Except.toBool]

theorem Presented.Exact.next (h : p.Exact) (id : UInt32) :
    (p.next id).Exact := by
  unfold Presented.next allocateWorker
  split
  · exact h
  · rename_i state index hok
    split at hok
    · cases hok
    rename_i habove
    cases hok
    obtain ⟨hne, hfresh⟩ := h.above_iff.mp habove
    refine ⟨h.index.extend hfresh, fun earlier hmem => ?_,
      .inr (List.mem_append_right _ (List.mem_singleton.mpr rfl)),
      fun hmem => ?_⟩
    · rcases List.mem_append.mp hmem with hmem | hmem
      · exact UInt32.le_of_lt (hfresh earlier hmem)
      · exact List.mem_singleton.mp hmem ▸ UInt32.le_refl _
    · rcases List.mem_append.mp hmem with hmem | hmem
      · exact h.nonzero hmem
      · exact hne (List.mem_singleton.mp hmem).symm

theorem Presented.Exact.foldl (h : p.Exact) (ids : List UInt32) :
    (ids.foldl Presented.next p).Exact := by
  induction ids generalizing p with
  | nil => exact h
  | cons id ids ih => exact ih (h.next id)

theorem presentAll_exact (ids : List UInt32) : (presentAll ids).Exact :=
  presentedInit_exact.foldl ids

/-- Whatever ids are presented, the accepted ones are the nonzero ones above
all accepted before, the ranges are ascending with gaps between them, and
the search, whose every read is in bounds, answers membership. -/
theorem worker_index_exact (ids : List UInt32) :
    (∀ id, ((allocateWorker (presentAll ids).state (presentAll ids).index id).isOk
          = true
        ↔ id ≠ 0 ∧ ∀ earlier ∈ (presentAll ids).accepted, earlier < id)
      ∧ ((id ≠ 0 ∧ ∀ earlier ∈ (presentAll ids).accepted, earlier < id)
        → (presentAll (ids ++ [id])).accepted = (presentAll ids).accepted ++ [id])
      ∧ (¬ (id ≠ 0 ∧ ∀ earlier ∈ (presentAll ids).accepted, earlier < id)
        → (presentAll (ids ++ [id])).accepted = (presentAll ids).accepted))
      ∧ (∀ range ∈ (presentAll ids).index, range.first ≤ range.last)
      ∧ (presentAll ids).index.Pairwise (fun left right =>
        left.last.toNat + 1 < right.first.toNat)
      ∧ ∀ id, (workerWasAllocated (presentAll ids).index id = true
          ↔ id ∈ (presentAll ids).accepted)
        ∧ SearchRun (presentAll ids).index id 0 (presentAll ids).index.length
          (workerWasAllocated (presentAll ids).index id) := by
  generalize hp : presentAll ids = p
  have h : p.Exact := hp ▸ presentAll_exact ids
  refine ⟨fun id => ⟨h.accepts_iff, ?_⟩, h.index.nonempty, h.index.ascending,
    fun id => ⟨workerWasAllocated_iff h.index, workerWasAllocated_run _ _⟩⟩
  have hlast : presentAll (ids ++ [id]) = p.next id := by
    rw [← hp]
    unfold presentAll
    rw [List.foldl_append]
    rfl
  have habove := @Presented.Exact.above_iff id p h
  rw [hlast]
  unfold Presented.next allocateWorker
  constructor
  · intro haccepted
    simp [habove.mpr haccepted]
  · intro hrefused
    simp [Decidable.not_not.mp fun hle => hrefused (habove.mp hle)]

end Faultline
