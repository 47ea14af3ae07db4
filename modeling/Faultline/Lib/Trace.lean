/-
Labelled runs of a step relation.

`Trace step s labels t` is a run from `s` to `t` that takes one step per
label. Runs are built at the front and extended at the back; the two rules
clients use are `Trace.invariant` (what every step keeps, every run keeps)
and `Trace.snoc_induction` (a fact about a run and its label list, proved
by looking at the last step).
-/
import Mathlib.Data.List.Induction

namespace Lib

/-- A run of `step`, one label per step. -/
inductive Trace {σ ε : Type} (step : σ → ε → σ → Prop) :
    σ → List ε → σ → Prop where
  | nil {s} : Trace step s [] s
  | cons {s t u label labels} (first : step s label t)
      (rest : Trace step t labels u) : Trace step s (label :: labels) u

namespace Trace

variable {σ ε : Type} {step : σ → ε → σ → Prop}
variable {s t u : σ} {label : ε} {labels labels' : List ε}

theorem append (h₁ : Trace step s labels t)
    (h₂ : Trace step t labels' u) : Trace step s (labels ++ labels') u := by
  induction h₁ with
  | nil => exact h₂
  | cons first _ ih => exact .cons first (ih h₂)

theorem snoc (h : Trace step s labels t) (last : step t label u) :
    Trace step s (labels ++ [label]) u :=
  h.append (.cons last .nil)

/-- A run over a longer label list passes a state between its parts. -/
theorem split (h : Trace step s (labels ++ labels') u) :
    ∃ t, Trace step s labels t ∧ Trace step t labels' u := by
  induction labels generalizing s with
  | nil => exact ⟨s, .nil, h⟩
  | cons label labels ih =>
      cases h with
      | cons first rest =>
          obtain ⟨t, h₁, h₂⟩ := ih rest
          exact ⟨t, .cons first h₁, h₂⟩

/-- A property every step keeps holds at the end of every run. -/
theorem invariant {P : σ → Prop}
    (hstep : ∀ s label t, P s → step s label t → P t)
    (h : Trace step s labels t) (hs : P s) : P t := by
  induction h with
  | nil => exact hs
  | cons first _ ih => exact ih (hstep _ _ _ hs first)

/-- Induction on a run by its last step. -/
theorem snoc_induction {P : List ε → σ → Prop} (nil : P [] s)
    (snoc : ∀ labels t label u, Trace step s labels t → P labels t →
      step t label u → P (labels ++ [label]) u)
    (h : Trace step s labels t) : P labels t := by
  induction labels using List.reverseRecOn generalizing t with
  | nil =>
      cases h
      exact nil
  | append_singleton labels label ih =>
      obtain ⟨m, hm, hlast⟩ := h.split
      cases hlast with
      | cons last hnil =>
          cases hnil
          exact snoc _ _ _ _ hm (ih hm) last

end Trace

end Lib
