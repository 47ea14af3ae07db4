/-
The index of allocated worker ids is exact.

`IndexFor index ids` ties the coalesced ranges to the ids presented so
far: the ranges are nonempty, ascending and never adjacent, and together
they contain exactly those ids. Extending keeps it; the binary search
decides membership in the ranges.
-/
import Faultline.Wal.Replay

namespace Faultline

/-- The ids a range stands for. -/
def WorkerRange.Contains (range : WorkerRange) (id : UInt32) : Prop :=
  range.first ≤ id ∧ id ≤ range.last

/-- `left` ends before `right` starts, with a gap between them. -/
def WorkerRange.Before (left right : WorkerRange) : Prop :=
  left.last.toNat + 1 < right.first.toNat

structure IndexFor (index : List WorkerRange) (ids : List UInt32) : Prop where
  nonempty : ∀ range ∈ index, range.first ≤ range.last
  ascending : index.Pairwise WorkerRange.Before
  exact : ∀ id, (∃ range ∈ index, range.Contains id) ↔ id ∈ ids

variable {index : List WorkerRange} {ids : List UInt32} {id : UInt32}

theorem indexFor_nil : IndexFor [] [] :=
  ⟨by simp, List.Pairwise.nil, by simp⟩

-- ======================================================= search

/-- Positions of an ascending index are ordered like their ranges. -/
theorem before_of_lt (h : IndexFor index ids) {m k : Nat}
    {a b : WorkerRange} (ha : index[m]? = some a) (hb : index[k]? = some b)
    (hlt : m < k) : a.Before b := by
  obtain ⟨hm, rfl⟩ := List.getElem?_eq_some_iff.mp ha
  obtain ⟨hk, rfl⟩ := List.getElem?_eq_some_iff.mp hb
  exact List.pairwise_iff_getElem.mp h.ascending m k hm hk hlt

/-- The search finds a range between its bounds that contains the id,
when there is one. -/
theorem searchIndex_iff (h : IndexFor index ids) (fuel low high : Nat)
    (hhigh : high ≤ index.length) (hfuel : high - low ≤ fuel) :
    searchIndex index id fuel low high = true
      ↔ ∃ m range, low ≤ m ∧ m < high ∧ index[m]? = some range
        ∧ range.Contains id := by
  induction fuel generalizing low high with
  | zero =>
      refine ⟨fun hs => absurd hs (by simp [searchIndex]), ?_⟩
      rintro ⟨m, _, h₁, h₂, -⟩
      omega
  | succ fuel ih =>
      unfold searchIndex
      by_cases hlt : low < high
      · rw [if_pos hlt]
        generalize hmid : low + (high - low) / 2 = middle
        have hin : middle < index.length := by omega
        obtain ⟨range, hrange⟩ : ∃ range, index[middle]? = some range :=
          ⟨_, List.getElem?_eq_getElem hin⟩
        simp only [hrange]
        have hfl : range.first.toNat ≤ range.last.toNat :=
          h.nonempty range (List.mem_of_getElem? hrange)
        by_cases hfirst : id < range.first
        · rw [if_pos hfirst, ih low middle (by omega) (by omega)]
          have hfirst' : id.toNat < range.first.toNat := hfirst
          constructor
          · rintro ⟨m, r, h₁, h₂, h₃, h₄⟩
            exact ⟨m, r, h₁, by omega, h₃, h₄⟩
          · rintro ⟨m, r, h₁, h₂, h₃, h₄⟩
            refine ⟨m, r, h₁, ?_, h₃, h₄⟩
            by_contra hge
            have hle : r.first.toNat ≤ id.toNat := h₄.1
            rcases Nat.lt_or_ge middle m with hm | hm
            · have hb : range.last.toNat + 1 < r.first.toNat :=
                before_of_lt h hrange h₃ hm
              omega
            · have heq : m = middle := by omega
              rw [heq, hrange, Option.some.injEq] at h₃
              rw [← h₃] at hle
              omega
        · rw [if_neg hfirst]
          by_cases hlast : id > range.last
          · rw [if_pos hlast, ih (middle + 1) high hhigh (by omega)]
            have hlast' : range.last.toNat < id.toNat := hlast
            constructor
            · rintro ⟨m, r, h₁, h₂, h₃, h₄⟩
              exact ⟨m, r, by omega, h₂, h₃, h₄⟩
            · rintro ⟨m, r, h₁, h₂, h₃, h₄⟩
              refine ⟨m, r, ?_, h₂, h₃, h₄⟩
              by_contra hge
              have hle : id.toNat ≤ r.last.toNat := h₄.2
              rcases Nat.lt_or_ge m middle with hm | hm
              · have hb : r.last.toNat + 1 < range.first.toNat :=
                  before_of_lt h h₃ hrange hm
                omega
              · have heq : m = middle := by omega
                rw [heq, hrange, Option.some.injEq] at h₃
                rw [← h₃] at hle
                omega
          · rw [if_neg hlast]
            refine iff_of_true rfl
              ⟨middle, range, by omega, by omega, hrange, ?_⟩
            exact ⟨UInt32.not_lt.mp hfirst, UInt32.not_lt.mp hlast⟩
      · rw [if_neg hlt]
        refine iff_of_false Bool.false_ne_true ?_
        rintro ⟨m, _, h₁, h₂, -⟩
        omega

/-- The search answers membership. -/
theorem workerWasAllocated_iff (h : IndexFor index ids) :
    workerWasAllocated index id = true ↔ id ∈ ids := by
  rw [workerWasAllocated,
    searchIndex_iff h _ _ _ (Nat.le_refl _) (Nat.sub_le _ _), ← h.exact id]
  constructor
  · rintro ⟨m, range, -, -, hget, hin⟩
    exact ⟨range, List.mem_of_getElem? hget, hin⟩
  · rintro ⟨range, hmem, hin⟩
    obtain ⟨m, hm, rfl⟩ := List.getElem_of_mem hmem
    exact ⟨m, _, Nat.zero_le _, hm, List.getElem?_eq_getElem hm, hin⟩

-- ===================================================== extending

/-- Ids between one and one above stay within the extended range. -/
theorem extend_contains {range : WorkerRange}
    (hadj : range.last.toNat + 1 = id.toNat)
    (hne : range.first ≤ range.last) (k : UInt32) :
    ({ range with last := id } : WorkerRange).Contains k
      ↔ range.Contains k ∨ k = id := by
  have hne' : range.first.toNat ≤ range.last.toNat := hne
  simp only [WorkerRange.Contains, UInt32.le_iff_toNat_le]
  constructor
  · rintro ⟨h₁, h₂⟩
    by_cases hk : k.toNat ≤ range.last.toNat
    · exact Or.inl ⟨h₁, hk⟩
    · exact Or.inr (UInt32.toNat.inj (by omega))
  · rintro (⟨h₁, h₂⟩ | rfl)
    · exact ⟨h₁, by omega⟩
    · exact ⟨by omega, Nat.le_refl _⟩

/-- An id above every earlier one extends the index. -/
theorem IndexFor.extend (h : IndexFor index ids)
    (hfresh : ∀ w ∈ ids, w < id) : IndexFor (extendIndex index id) (ids ++ [id]) := by
  have hsingle (k : UInt32) :
      ({ first := id, last := id } : WorkerRange).Contains k ↔ k = id := by
    simp only [WorkerRange.Contains]
    exact ⟨fun hk => UInt32.le_antisymm hk.2 hk.1,
      fun hk => hk ▸ ⟨UInt32.le_refl _, UInt32.le_refl _⟩⟩
  unfold extendIndex
  rcases List.eq_nil_or_concat index with rfl | ⟨front, range, rfl⟩
  · refine ⟨by simp, by simp, fun k => ?_⟩
    have hnil := h.exact k
    simp only [List.not_mem_nil, false_and, exists_false, false_iff] at hnil
    simp [hsingle, hnil]
  · rw [List.concat_eq_append] at h ⊢
    have hrange : range.first ≤ range.last := h.nonempty range (by simp)
    obtain ⟨hfront, -, hcross⟩ := List.pairwise_append.mp h.ascending
    have hlast : range.last.toNat < id.toNat :=
      hfresh range.last ((h.exact _).mp ⟨range, by simp, hrange,
        UInt32.le_refl _⟩)
    have hexact (k : UInt32) : (∃ r ∈ front, r.Contains k)
        ∨ range.Contains k ↔ k ∈ ids := by
      rw [← h.exact k]
      simp only [List.mem_append, List.mem_singleton, or_and_right,
        exists_or, exists_eq_left]
    simp only [List.getLast?_append, List.getLast?_singleton,
      Option.some_or, List.dropLast_concat]
    have hbound := id.toNat_lt
    have hadj : range.last.toUInt64 + 1 = id.toUInt64
        ↔ range.last.toNat + 1 = id.toNat := by
      rw [← UInt64.toNat_inj, UInt64.toNat_add, UInt32.toNat_toUInt64,
        UInt32.toNat_toUInt64]
      simp only [UInt64.toNat_one]
      omega
    by_cases hext : range.last.toUInt64 + 1 = id.toUInt64
    · rw [if_pos (by simpa using hext)]
      have hadj' := hadj.mp hext
      refine ⟨?_, ?_, fun k => ?_⟩
      · intro r hr
        rcases List.mem_append.mp hr with hr | hr
        · exact h.nonempty r (List.mem_append_left _ hr)
        · rw [List.mem_singleton.mp hr]
          have hrange' : range.first.toNat ≤ range.last.toNat := hrange
          show range.first.toNat ≤ id.toNat
          omega
      · refine List.pairwise_append.mpr
          ⟨hfront, List.pairwise_singleton _ _, ?_⟩
        intro a ha b hb
        rw [List.mem_singleton.mp hb]
        exact hcross a ha range (by simp)
      · simp only [List.mem_append, List.mem_singleton, or_and_right,
          exists_or, exists_eq_left, extend_contains hadj' hrange,
          ← or_assoc, hexact]
    · rw [if_neg (by simpa using hext)]
      have hgap : range.last.toNat + 1 ≠ id.toNat := fun he =>
        hext (hadj.mpr he)
      refine ⟨?_, ?_, fun k => ?_⟩
      · intro r hr
        rcases List.mem_append.mp hr with hr | hr
        · exact h.nonempty r hr
        · rw [List.mem_singleton.mp hr]
          exact UInt32.le_refl _
      · refine List.pairwise_append.mpr
          ⟨h.ascending, List.pairwise_singleton _ _, ?_⟩
        intro a ha b hb
        rw [List.mem_singleton.mp hb]
        show a.last.toNat + 1 < id.toNat
        rcases List.mem_append.mp ha with ha | ha
        · have hab : a.last.toNat + 1 < range.first.toNat :=
            hcross a ha range (by simp)
          have hrange' : range.first.toNat ≤ range.last.toNat := hrange
          omega
        · rw [List.mem_singleton.mp ha]
          omega
      · simp only [List.mem_append, List.mem_singleton, or_and_right,
          exists_or, exists_eq_left, hsingle, hexact]

end Faultline
