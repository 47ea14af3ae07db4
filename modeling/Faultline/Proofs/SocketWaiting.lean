/-
Waiting for a socket.

Waiting changes nothing but the clock, the answers of `poll` and the record of
its timeouts (`Socket.Waited`), and every wait ends at the deadline at the
latest.

A loop that waits cannot go on behind the deadline. As each round reads the
clock and takes one answer of `poll`, the readings taken and the answers left
do not fall together (`Socket.Polled.answers`): with one answer for every
reading before the deadline, the loop returns.
-/
import Mathlib.Data.Nat.Basic
import Mathlib.Order.Basic
import Faultline.Net

namespace Faultline

open Lib

variable {s s₁ s' : Socket} {deadline : Int64} {event : PollEvent}

-- ====================================================== waiting

/-- A wait that was begun before the deadline, at a reading of the clock that
was taken from `s` on, and that ends with the deadline. -/
structure Socket.Waits (s : Socket) (deadline : Int64) (last : Nat)
    (wait : PollWait) : Prop where
  running : 0 ≤ wait.now
  early : wait.now < deadline
  timeout : wait.timeout = (deadline - wait.now).toInt32
  read : ∃ k, s.ticks ≤ k ∧ k < last ∧ s.clock k = wait.now

/-- What a transfer does to the clock and to the answers of `poll`. -/
structure Socket.Polled (deadline : Int64) (s s' : Socket) : Prop where
  clock : s'.clock = s.clock
  descriptors : s'.descriptors = s.descriptors
  ticks : s.ticks ≤ s'.ticks
  answers : s.ticks + s.polls.length ≤ s'.ticks + s'.polls.length
  suffix : s'.polls <:+ s.polls
  waits : ∃ new, s'.waits = s.waits ++ new
    ∧ ∀ wait ∈ new, s.Waits deadline s'.ticks wait

/-- A transfer that moves nothing. -/
structure Socket.Waited (deadline : Int64) (s s' : Socket) : Prop extends
    s.Polled deadline s' where
  reads : s.ticks < s'.ticks
  sends : s'.sends = s.sends
  recvs : s'.recvs = s.recvs
  inbound : s'.inbound = s.inbound
  outbound : s'.outbound = s.outbound

/-- Nothing that belongs to waiting has changed. -/
theorem Socket.Polled.still (clock : s'.clock = s.clock)
    (descriptors : s'.descriptors = s.descriptors)
    (ticks : s'.ticks = s.ticks) (polls : s'.polls = s.polls)
    (waits : s'.waits = s.waits) : s.Polled deadline s' where
  clock := clock
  descriptors := descriptors
  ticks := Nat.le_of_eq ticks.symm
  answers := by rw [ticks, polls]
  suffix := polls ▸ List.suffix_rfl
  waits := ⟨[], by rw [waits, List.append_nil],
    fun _ hmem => absurd hmem List.not_mem_nil⟩

theorem Socket.Polled.trans (h₁ : s.Polled deadline s₁)
    (h₂ : s₁.Polled deadline s') : s.Polled deadline s' := by
  obtain ⟨new₁, hwaits₁, hnew₁⟩ := h₁.waits
  obtain ⟨new₂, hwaits₂, hnew₂⟩ := h₂.waits
  refine ⟨h₂.clock.trans h₁.clock, h₂.descriptors.trans h₁.descriptors,
    h₁.ticks.trans h₂.ticks, h₁.answers.trans h₂.answers,
    h₂.suffix.trans h₁.suffix, new₁ ++ new₂, ?_, fun wait hwait => ?_⟩
  · rw [hwaits₂, hwaits₁, List.append_assoc]
  · rcases List.mem_append.mp hwait with hwait | hwait
    · obtain ⟨running, early, timeout, k, hfrom, huntil, hread⟩ :=
        hnew₁ wait hwait
      exact ⟨running, early, timeout, k, hfrom,
        Nat.lt_of_lt_of_le huntil h₂.ticks, hread⟩
    · obtain ⟨running, early, timeout, k, hfrom, huntil, hread⟩ :=
        hnew₂ wait hwait
      exact ⟨running, early, timeout, k, h₁.ticks.trans hfrom, huntil,
        by rw [← h₁.clock, hread]⟩

/-- The deadline has passed, by the clock or by `poll`. -/
def Socket.Late (deadline : Int64) (s : Socket) : Prop :=
  (∃ k, s.ticks ≤ k ∧ deadline ≤ s.clock k) ∨ .expired ∈ s.polls

theorem Socket.Late.back (h : s₁.Late deadline)
    (polled : s.Polled deadline s₁) : s.Late deadline := by
  rcases h with ⟨k, hfrom, hpast⟩ | hexpired
  · exact .inl ⟨k, polled.ticks.trans hfrom, polled.clock ▸ hpast⟩
  · exact .inr (polled.suffix.subset hexpired)

/-- The clock is before the deadline even behind as many readings as there are
answers. -/
def Socket.Starved (deadline : Int64) (s : Socket) (answers : Nat) : Prop :=
  ∃ k, s.ticks + answers ≤ k ∧ s.clock k < deadline

theorem Socket.Starved.back {n n₁ : Nat} (h : s₁.Starved deadline n₁)
    (polled : s.Polled deadline s₁)
    (answers : s.ticks + n ≤ s₁.ticks + n₁) : s.Starved deadline n := by
  obtain ⟨k, hfrom, hearly⟩ := h
  exact ⟨k, answers.trans hfrom, polled.clock ▸ hearly⟩

theorem Socket.Starved.mono {n n' : Nat} (h : s.Starved deadline n)
    (hle : n' ≤ n) : s.Starved deadline n' := by
  obtain ⟨k, hfrom, hearly⟩ := h
  exact ⟨k, (Nat.add_le_add_left hle _).trans hfrom, hearly⟩

/-- How `wait_ready` can end. -/
inductive Socket.WaitEnds (deadline : Int64) (s : Socket) :
    Outcome Socket (Except NetError Unit) → Prop where
  | returns {result : Except NetError Unit} {s' : Socket}
      (waited : s.Waited deadline s')
      (early : result = .ok () → ∃ k, s.ticks ≤ k ∧ s.clock k < deadline)
      (late : result = .error .timedOut → s.Late deadline) :
      WaitEnds deadline s (.done result s')
  | stops {s' : Socket} (waited : s.Waited deadline s')
      (starved : s.Starved deadline s.polls.length) :
      WaitEnds deadline s (.crash s')

/-- The clock is read. -/
theorem Socket.Waited.tick :
    s.Waited deadline { s with ticks := s.ticks + 1 } where
  clock := rfl
  descriptors := rfl
  ticks := Nat.le_succ _
  answers := Nat.add_le_add_right (Nat.le_succ _) _
  suffix := List.suffix_rfl
  waits := ⟨[], (List.append_nil _).symm,
    fun _ hmem => absurd hmem List.not_mem_nil⟩
  reads := Nat.lt_succ_self _
  sends := rfl
  recvs := rfl
  inbound := rfl
  outbound := rfl

/-- The clock is read, and `poll` called; it has answered or not. -/
theorem Socket.Waited.poll {polls : List SocketPoll}
    (running : ¬ s.clock s.ticks < 0) (early : ¬ s.clock s.ticks ≥ deadline)
    (hpolls : s.polls.length ≤ polls.length + 1)
    (hsuffix : polls <:+ s.polls) : s.Waited deadline { s with
      ticks := s.ticks + 1
      waits := s.waits ++ [⟨s.clock s.ticks,
        (deadline - s.clock s.ticks).toInt32⟩]
      polls } where
  clock := rfl
  descriptors := rfl
  ticks := Nat.le_succ _
  answers := by
    dsimp only
    omega
  suffix := hsuffix
  waits := by
    refine ⟨_, rfl, fun wait hwait => ?_⟩
    rw [List.mem_singleton.mp hwait]
    exact ⟨Int64.not_lt.mp running, Int64.not_le.mp early, rfl, s.ticks,
      Nat.le_refl _, Nat.lt_succ_self _, rfl⟩
  reads := Nat.lt_succ_self _
  sends := rfl
  recvs := rfl
  inbound := rfl
  outbound := rfl

theorem Socket.Waited.trans (h₁ : s.Waited deadline s₁)
    (h₂ : s₁.Waited deadline s') : s.Waited deadline s' where
  toPolled := h₁.toPolled.trans h₂.toPolled
  reads := h₁.reads.trans h₂.reads
  sends := h₂.sends.trans h₁.sends
  recvs := h₂.recvs.trans h₁.recvs
  inbound := h₂.inbound.trans h₁.inbound
  outbound := h₂.outbound.trans h₁.outbound

/-- An answer that does not end the wait. -/
theorem Socket.WaitEnds.again
    {outcome : Outcome Socket (Except NetError Unit)}
    (h : s₁.WaitEnds deadline outcome) (waited : s.Waited deadline s₁) :
    s.WaitEnds deadline outcome := by
  cases h with
  | @returns result s' next early late =>
      refine .returns (waited.trans next) (fun hok => ?_)
        fun hlate => (late hlate).back waited.toPolled
      obtain ⟨k, hfrom, hearly⟩ := early hok
      exact ⟨k, waited.ticks.trans hfrom, waited.clock ▸ hearly⟩
  | @stops s' next starved =>
      exact .stops (waited.trans next)
        (starved.back waited.toPolled waited.answers)

theorem waitReady_ends (s : Socket) :
    s.WaitEnds deadline (waitReady event deadline s) := by
  have hgo : ∀ (polls : List SocketPoll) (s : Socket), s.polls = polls →
      s.WaitEnds deadline (waitReadyGo event deadline s polls) := by
    intro polls
    induction polls with
    | nil =>
        intro s hpolls
        unfold waitReadyGo
        dsimp only
        split
        · exact .returns .tick nofun nofun
        split
        · rename_i hpast
          exact .returns .tick nofun
            fun _ => .inl ⟨s.ticks, Nat.le_refl _, hpast⟩
        · rename_i running early
          refine .stops (.poll running early (Nat.le_succ _)
            List.suffix_rfl) ⟨s.ticks, ?_, Int64.not_le.mp early⟩
          rw [hpolls]
          exact Nat.le_refl _
    | cons reply rest ih =>
        intro s hpolls
        unfold waitReadyGo
        dsimp only
        split
        · exact .returns .tick nofun nofun
        split
        · rename_i hpast
          exact .returns .tick nofun
            fun _ => .inl ⟨s.ticks, Nat.le_refl _, hpast⟩
        rename_i running early
        have hlength : s.polls.length ≤ rest.length + 1 := by
          rw [hpolls, List.length_cons]
        have hwaited := Socket.Waited.poll (s := s) running early hlength
          (hpolls ▸ List.suffix_cons reply rest)
        have hearly : ∃ k, s.ticks ≤ k ∧ s.clock k < deadline :=
          ⟨s.ticks, Nat.le_refl _, Int64.not_le.mp early⟩
        cases reply with
        | interrupted => exact (ih _ rfl).again hwaited
        | failed errno => exact .returns hwaited nofun nofun
        | expired =>
            refine .returns hwaited nofun fun _ => .inr ?_
            rw [hpolls]
            exact List.mem_cons_self
        | ready revents =>
            dsimp only
            split
            · exact .returns hwaited nofun nofun
            split
            · exact .returns hwaited (fun _ => hearly) nofun
            · exact (ih _ rfl).again hwaited
  exact hgo s.polls s rfl

/-- One wait ends in order, or the deadline has passed, or the answers have run
out before it has. -/
theorem waitReady_cases (s : Socket) :
    (∃ s', waitReady event deadline s = .done (.ok ()) s'
        ∧ s.Waited deadline s' ∧ ∃ k, s.ticks ≤ k ∧ s.clock k < deadline)
      ∨ (∃ e s', waitReady event deadline s = .done (.error e) s'
        ∧ s.Waited deadline s' ∧ (e = .timedOut → s.Late deadline))
      ∨ ∃ s', waitReady event deadline s = .crash s'
        ∧ s.Waited deadline s' ∧ s.Starved deadline s.polls.length := by
  have hends := @waitReady_ends deadline event s
  cases hrun : waitReady event deadline s with
  | crash s' =>
      rw [hrun] at hends
      cases hends with
      | stops waited starved =>
          exact .inr (.inr ⟨s', rfl, waited, starved⟩)
  | done result s' =>
      rw [hrun] at hends
      cases hends with
      | returns waited early late =>
          cases result with
          | ok u => exact .inl ⟨s', rfl, waited, early rfl⟩
          | error e =>
              refine .inr (.inl ⟨e, s', rfl, waited, fun he => late ?_⟩)
              rw [he]

end Faultline
