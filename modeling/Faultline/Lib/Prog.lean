/-
Programs that can be cut short, and their crash triples.

A program transforms a state and either returns a value or stops dead:
`Outcome.crash` keeps the state of the moment the machine stopped, which
is what recovery has to live with. `Triple P p Q R` is partial in
neither direction: from any state in `P` the run returns into `Q` or
stops inside `R`, so a program that can stop anywhere owes a crash
condition for every point of its text. The rules follow the monad —
`Triple.pure`, `Triple.bind`, `Triple.conseq` — and `zoom` runs a program
over one part of a larger state.
-/
import Mathlib.Logic.Basic

namespace Lib

/-- How a run ends: it returns, or the machine stops inside it. -/
inductive Outcome (σ α : Type) where
  | done (value : α) (state : σ)
  | crash (state : σ)
deriving DecidableEq, Repr

/-- A program over states `σ` returning an `α`. -/
def Prog (σ α : Type) : Type := σ → Outcome σ α

namespace Outcome

variable {σ α : Type}

/-- What a run returns. -/
def returned : Outcome σ α → Option α
  | .done a _ => some a
  | .crash _ => none

theorem returned_some {o : Outcome σ α} {a : α} (h : o.returned = some a) :
    ∃ s, o = .done a s := by
  cases o with
  | done b s =>
      cases h
      exact ⟨s, rfl⟩
  | crash s => cases h

/-- The state a run ends in, returned or stopped. -/
def state : Outcome σ α → σ
  | .done _ s => s
  | .crash s => s

theorem eq_done {o : Outcome σ α} {a : α} (h : o.returned = some a) :
    o = .done a o.state := by
  obtain ⟨s, rfl⟩ := returned_some h
  rfl

theorem eq_crash {o : Outcome σ α} (h : o.returned = none) :
    o = .crash o.state := by
  cases o with
  | done a s => cases h
  | crash s => rfl

end Outcome

namespace Prog

variable {σ τ α β : Type}

/-- Return without touching the state. -/
protected def pure (a : α) : Prog σ α := fun s => .done a s

/-- Run one program, then the next on its result; a stop ends both. -/
protected def bind (p : Prog σ α) (f : α → Prog σ β) : Prog σ β := fun s =>
  match p s with
  | .done a s' => f a s'
  | .crash s' => .crash s'

instance : Monad (Prog σ) where
  pure := Prog.pure
  bind := Prog.bind

/-- Run a program over one part of the state. -/
def zoom (view : σ → τ) (update : τ → σ → σ) (p : Prog τ α) : Prog σ α :=
  fun s =>
    match p (view s) with
    | .done a t => .done a (update t s)
    | .crash t => .crash (update t s)

/-- Run a program only under a condition. -/
def when (condition : Bool) (p : Prog σ Unit) : Prog σ Unit :=
  if condition then p else Prog.pure ()

theorem bind_run (p : Prog σ α) (f : α → Prog σ β) (s : σ) :
    (p >>= f) s = match p s with
      | .done a s' => f a s'
      | .crash s' => .crash s' := rfl

/-- A sequence that returns passed through its first program's return. -/
theorem bind_done {p : Prog σ α} {f : α → Prog σ β} {s s' : σ} {b : β}
    (h : (p >>= f) s = .done b s') :
    ∃ a t, p s = .done a t ∧ f a t = .done b s' := by
  rw [bind_run] at h
  cases hp : p s with
  | done a t =>
      rw [hp] at h
      exact ⟨a, t, rfl, h⟩
  | crash t =>
      rw [hp] at h
      cases h

/-- A sequence that stops does so in its first program, or behind it. -/
theorem bind_crash {p : Prog σ α} {f : α → Prog σ β} {s s' : σ}
    (h : (p >>= f) s = .crash s') :
    p s = .crash s' ∨ ∃ a t, p s = .done a t ∧ f a t = .crash s' := by
  rw [bind_run] at h
  cases hp : p s with
  | done a t =>
      rw [hp] at h
      exact .inr ⟨a, t, rfl, h⟩
  | crash t =>
      rw [hp] at h
      cases h
      exact .inl rfl

-- =============================================== crash triples

/-- From every state in `P` the program returns into `Q` or stops in
`R`. -/
def Triple (P : σ → Prop) (p : Prog σ α) (Q : α → σ → Prop)
    (R : σ → Prop) : Prop :=
  ∀ s, P s → match p s with
    | .done a s' => Q a s'
    | .crash s' => R s'

variable {P P' : σ → Prop} {Q Q' : α → σ → Prop} {R R' : σ → Prop}

theorem Triple.done {p : Prog σ α} (h : Triple P p Q R) {s s' : σ} {a : α}
    (hP : P s) (hrun : p s = .done a s') : Q a s' := by
  have := h s hP
  rw [hrun] at this
  exact this

theorem Triple.crash {p : Prog σ α} (h : Triple P p Q R) {s s' : σ}
    (hP : P s) (hrun : p s = .crash s') : R s' := by
  have := h s hP
  rw [hrun] at this
  exact this

theorem Triple.pure {a : α} (h : ∀ s, P s → Q a s) :
    Triple P (Pure.pure a : Prog σ α) Q R :=
  fun s hP => h s hP

theorem Triple.bind {p : Prog σ α} {f : α → Prog σ β}
    {S : β → σ → Prop} (hp : Triple P p Q R)
    (hf : ∀ a, Triple (Q a) (f a) S R) : Triple P (p >>= f) S R := by
  intro s hP
  have h₁ := hp s hP
  rw [bind_run]
  cases hrun : p s with
  | done a t =>
      rw [hrun] at h₁
      exact hf a t h₁
  | crash t =>
      rw [hrun] at h₁
      exact h₁

theorem Triple.conseq {p : Prog σ α} (h : Triple P' p Q' R')
    (hP : ∀ s, P s → P' s) (hQ : ∀ a s, Q' a s → Q a s)
    (hR : ∀ s, R' s → R s) : Triple P p Q R := by
  intro s hs
  have := h s (hP s hs)
  cases hrun : p s with
  | done a t =>
      rw [hrun] at this
      exact hQ a t this
  | crash t =>
      rw [hrun] at this
      exact hR t this

/-- The triple at one of its start states. -/
theorem Triple.from {p : Prog σ α} (h : Triple P p Q R) {s : σ} (hs : P s) :
    Triple (· = s) p Q R := by
  intro t ht
  subst ht
  exact h t hs

theorem Triple.and {p : Prog σ α} (h : Triple P p Q R)
    (h' : Triple P p Q' R') :
    Triple P p (fun a s => Q a s ∧ Q' a s) (fun s => R s ∧ R' s) := by
  intro s hs
  have h₁ := h s hs
  have h₂ := h' s hs
  cases hrun : p s with
  | done a t =>
      rw [hrun] at h₁ h₂
      exact ⟨h₁, h₂⟩
  | crash t =>
      rw [hrun] at h₁ h₂
      exact ⟨h₁, h₂⟩

end Prog

end Lib
