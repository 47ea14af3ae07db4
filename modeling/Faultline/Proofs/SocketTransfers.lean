/-
Transfers before a deadline.

The two transfer loops wait before each call, so what holds of one wait holds
of a whole transfer (`Socket.Polled`). What is moved is, in either direction, a
prefix (`Socket.Hands`, `Socket.Takes`): all of it if the call succeeds. How a
loop can end is said once for each of them (`Socket.SendEnds`,
`Socket.RecvEnds`), with a rule for going on behind what was moved before.
-/
import Faultline.Proofs.SocketWaiting

namespace Faultline

open Lib

variable {s s₁ s' : Socket} {deadline : Int64} {data part rest : List UInt8}

-- ====================================================== sending

/-- Bytes have been handed over. -/
structure Socket.Hands (deadline : Int64) (s s' : Socket)
    (part : List UInt8) : Prop extends s.Polled deadline s' where
  recvs : s'.recvs = s.recvs
  inbound : s'.inbound = s.inbound
  outbound : s'.outbound = s.outbound ++ part

theorem Socket.Waited.hands (h : s.Waited deadline s') :
    s.Hands deadline s' [] where
  toPolled := h.toPolled
  recvs := h.recvs
  inbound := h.inbound
  outbound := by rw [h.outbound, List.append_nil]

/-- What does not belong to waiting. -/
theorem Socket.Hands.same (clock : s'.clock = s.clock)
    (descriptors : s'.descriptors = s.descriptors)
    (ticks : s'.ticks = s.ticks) (polls : s'.polls = s.polls)
    (waits : s'.waits = s.waits) (recvs : s'.recvs = s.recvs)
    (inbound : s'.inbound = s.inbound)
    (outbound : s'.outbound = s.outbound ++ part) :
    s.Hands deadline s' part where
  toPolled := .still clock descriptors ticks polls waits
  recvs := recvs
  inbound := inbound
  outbound := outbound

theorem Socket.Hands.refl : s.Hands deadline s [] :=
  .same rfl rfl rfl rfl rfl rfl rfl (List.append_nil _).symm

theorem Socket.Hands.trans (h₁ : s.Hands deadline s₁ part)
    (h₂ : s₁.Hands deadline s' rest) :
    s.Hands deadline s' (part ++ rest) where
  toPolled := h₁.toPolled.trans h₂.toPolled
  recvs := h₂.recvs.trans h₁.recvs
  inbound := h₂.inbound.trans h₁.inbound
  outbound := by rw [h₂.outbound, h₁.outbound, List.append_assoc]

/-- How the loop of `faultline_send_all` can end. -/
inductive Socket.SendEnds (deadline : Int64) (data : List UInt8) (s : Socket) :
    Outcome Socket (Except NetError Unit) → Prop where
  | sends {s' : Socket} (hands : s.Hands deadline s' data) :
      SendEnds deadline data s (.done (.ok ()) s')
  | fails {e : NetError} {part : List UInt8} {s' : Socket}
      (hands : s.Hands deadline s' part) (begins : part <+: data)
      (short : part.length < data.length)
      (late : e = .timedOut → s.Late deadline) :
      SendEnds deadline data s (.done (.error e) s')
  | stops {part : List UInt8} {s' : Socket}
      (hands : s.Hands deadline s' part) (begins : part <+: data)
      (short : part.length < data.length)
      (starved : s.Starved deadline (min s.polls.length s.sends.length)) :
      SendEnds deadline data s (.crash s')

/-- The loop goes on behind what was handed over before. -/
theorem Socket.SendEnds.after
    {outcome : Outcome Socket (Except NetError Unit)}
    (h : s₁.SendEnds deadline rest outcome)
    (hands : s.Hands deadline s₁ part) (reads : s.ticks < s₁.ticks)
    (sends : s.sends.length ≤ s₁.sends.length + 1) :
    s.SendEnds deadline (part ++ rest) outcome := by
  have hshort {more : List UInt8} (h : more.length < rest.length) :
      (part ++ more).length < (part ++ rest).length := by
    simpa using h
  cases h with
  | sends next => exact .sends (hands.trans next)
  | fails next begins short late =>
      exact .fails (hands.trans next)
        ((List.prefix_append_right_inj part).mpr begins) (hshort short)
        fun he => (late he).back hands.toPolled
  | stops next begins short starved =>
      refine .stops (hands.trans next)
        ((List.prefix_append_right_inj part).mpr begins) (hshort short)
        (starved.back hands.toPolled ?_)
      have := hands.answers
      omega

theorem sendAllGo_ends (data : List UInt8) (s : Socket)
    (sends : List SocketSend) (hsends : s.sends = sends) :
    s.SendEnds deadline data (sendAllGo deadline data s sends) := by
  induction sends generalizing s data with
  | nil =>
      unfold sendAllGo
      cases data with
      | nil => exact .sends .refl
      | cons byte rest =>
          rw [if_neg (by simp)]
          rcases @waitReady_cases deadline .output s with
            ⟨s', hrun, hwaited, k, hfrom, hearly⟩ | ⟨e, s', hrun, hwaited, hlate⟩
              | ⟨s', hrun, hwaited, hstarved⟩
          · rw [hrun]
            refine .stops hwaited.hands List.nil_prefix (by simp)
              ⟨k, ?_, hearly⟩
            rw [hsends]
            simpa using hfrom
          · rw [hrun]
            exact .fails hwaited.hands List.nil_prefix (by simp) hlate
          · rw [hrun]
            exact .stops hwaited.hands List.nil_prefix (by simp)
              (hstarved.mono (Nat.min_le_left _ _))
  | cons reply sends ih =>
      unfold sendAllGo
      cases data with
      | nil => exact .sends .refl
      | cons byte rest =>
          rw [if_neg (by simp)]
          rcases @waitReady_cases deadline .output s with
            ⟨s', hrun, hwaited, -⟩ | ⟨e, s', hrun, hwaited, hlate⟩
              | ⟨s', hrun, hwaited, hstarved⟩
          · rw [hrun]
            dsimp only
            have hfewer : s.sends.length ≤ sends.length + 1 := by
              rw [hsends, List.length_cons]
            have hanswered : s.Hands deadline { s' with sends } [] :=
              hwaited.hands.trans (.same rfl rfl rfl rfl rfl rfl rfl
                (List.append_nil _).symm)
            cases reply with
            | moved extra =>
                have hmoved : s.Hands deadline
                    { s' with
                      sends
                      outbound := s'.outbound
                        ++ (byte :: rest).take (extra + 1) }
                    ((byte :: rest).take (extra + 1)) :=
                  hwaited.hands.trans
                    (.same rfl rfl rfl rfl rfl rfl rfl rfl)
                have hnext := (ih ((byte :: rest).drop (extra + 1)) _ rfl).after
                  hmoved hwaited.reads hfewer
                rwa [List.take_append_drop] at hnext
            | zero =>
                exact .fails hanswered List.nil_prefix (by simp) nofun
            | again =>
                exact (ih (byte :: rest) _ rfl).after hanswered hwaited.reads
                  hfewer
            | failed errno =>
                exact .fails hanswered List.nil_prefix (by simp) nofun
          · rw [hrun]
            exact .fails hwaited.hands List.nil_prefix (by simp) hlate
          · rw [hrun]
            exact .stops hwaited.hands List.nil_prefix (by simp)
              (hstarved.mono (Nat.min_le_left _ _))

-- ==================================================== receiving

/-- Bytes have been received. -/
structure Socket.Takes (deadline : Int64) (s s' : Socket)
    (part : List UInt8) : Prop extends s.Polled deadline s' where
  sends : s'.sends = s.sends
  outbound : s'.outbound = s.outbound
  inbound : s.inbound = part ++ s'.inbound

theorem Socket.Waited.takes (h : s.Waited deadline s') :
    s.Takes deadline s' [] where
  toPolled := h.toPolled
  sends := h.sends
  outbound := h.outbound
  inbound := h.inbound.symm

theorem Socket.Takes.same (clock : s'.clock = s.clock)
    (descriptors : s'.descriptors = s.descriptors)
    (ticks : s'.ticks = s.ticks) (polls : s'.polls = s.polls)
    (waits : s'.waits = s.waits) (sends : s'.sends = s.sends)
    (outbound : s'.outbound = s.outbound)
    (inbound : s.inbound = part ++ s'.inbound) :
    s.Takes deadline s' part where
  toPolled := .still clock descriptors ticks polls waits
  sends := sends
  outbound := outbound
  inbound := inbound

theorem Socket.Takes.refl : s.Takes deadline s [] :=
  .same rfl rfl rfl rfl rfl rfl rfl rfl

theorem Socket.Takes.trans (h₁ : s.Takes deadline s₁ part)
    (h₂ : s₁.Takes deadline s' rest) :
    s.Takes deadline s' (part ++ rest) where
  toPolled := h₁.toPolled.trans h₂.toPolled
  sends := h₂.sends.trans h₁.sends
  outbound := h₂.outbound.trans h₁.outbound
  inbound := by rw [h₁.inbound, h₂.inbound, List.append_assoc]

/-- Waiting comes first. -/
theorem Socket.Waited.before (h : s.Waited deadline s₁)
    (takes : s₁.Takes deadline s' part) : s.Takes deadline s' part :=
  h.takes.trans takes

/-- How the loop of `faultline_recv_exact` can end, with `received` from
before. -/
inductive Socket.RecvEnds (deadline : Int64) (size : Nat)
    (received : List UInt8) (s : Socket) :
    Outcome Socket (ReceiveResult × List UInt8) → Prop where
  | receives {part data : List UInt8} {s' : Socket}
      (takes : s.Takes deadline s' part) (all : data = received ++ part)
      (whole : part.length = size) :
      RecvEnds deadline size received s (.done (.ok, data) s')
  | ends {part data : List UInt8} {s' : Socket}
      (takes : s.Takes deadline s' part) (all : data = received ++ part)
      (short : part.length < size) (ended : s'.inbound = []) :
      RecvEnds deadline size received s
        (.done (if data.isEmpty then .eof else .truncated, data) s')
  | fails {e : NetError} {part data : List UInt8} {s' : Socket}
      (takes : s.Takes deadline s' part) (all : data = received ++ part)
      (short : part.length < size) (late : e = .timedOut → s.Late deadline) :
      RecvEnds deadline size received s (.done (.error e, data) s')
  | stops {part : List UInt8} {s' : Socket}
      (takes : s.Takes deadline s' part) (short : part.length < size)
      (starved : s.Starved deadline (min s.polls.length s.recvs.length)) :
      RecvEnds deadline size received s (.crash s')

/-- The loop goes on behind what was received before. -/
theorem Socket.RecvEnds.after {size left : Nat} {received : List UInt8}
    {outcome : Outcome Socket (ReceiveResult × List UInt8)}
    (h : s₁.RecvEnds deadline left received outcome)
    (hreceived : received = data ++ part) (takes : s.Takes deadline s₁ part)
    (reads : s.ticks < s₁.ticks)
    (recvs : s.recvs.length ≤ s₁.recvs.length + 1)
    (hleft : left + part.length = size) :
    s.RecvEnds deadline size data outcome := by
  subst hreceived
  have hlength (more : List UInt8) :
      (part ++ more).length = part.length + more.length :=
    List.length_append
  cases h with
  | @receives more all s' next hall whole =>
      refine .receives (takes.trans next) ?_ (by rw [hlength]; omega)
      rw [hall, List.append_assoc]
  | @ends more all s' next hall short ended =>
      refine .ends (takes.trans next) ?_ (by rw [hlength]; omega) ended
      rw [hall, List.append_assoc]
  | @fails e more all s' next hall short late =>
      refine .fails (takes.trans next) ?_ (by rw [hlength]; omega)
        fun he => (late he).back takes.toPolled
      rw [hall, List.append_assoc]
  | @stops more s' next short starved =>
      refine .stops (takes.trans next) (by rw [hlength]; omega)
        (starved.back takes.toPolled ?_)
      have := takes.answers
      omega

theorem recvExactGo_ends (size : Nat) (received : List UInt8) (s : Socket)
    (recvs : List SocketRecv) (hrecvs : s.recvs = recvs) :
    s.RecvEnds deadline size received
      (recvExactGo deadline size received s recvs) := by
  induction recvs generalizing s size received with
  | nil =>
      unfold recvExactGo
      split
      · rename_i hsize
        exact .receives .refl (List.append_nil _).symm hsize.symm
      rename_i hsize
      have hpos : 0 < size := Nat.pos_of_ne_zero hsize
      rcases @waitReady_cases deadline .input s with
        ⟨s', hrun, hwaited, k, hfrom, hearly⟩ | ⟨e, s', hrun, hwaited, hlate⟩
          | ⟨s', hrun, hwaited, hstarved⟩
      · rw [hrun]
        refine .stops hwaited.takes hpos ⟨k, ?_, hearly⟩
        rw [hrecvs]
        simpa using hfrom
      · rw [hrun]
        exact .fails hwaited.takes (List.append_nil _).symm hpos hlate
      · rw [hrun]
        exact .stops hwaited.takes hpos
          (hstarved.mono (Nat.min_le_left _ _))
  | cons reply recvs ih =>
      unfold recvExactGo
      split
      · rename_i hsize
        exact .receives .refl (List.append_nil _).symm hsize.symm
      rename_i hsize
      have hpos : 0 < size := Nat.pos_of_ne_zero hsize
      rcases @waitReady_cases deadline .input s with
        ⟨s', hrun, hwaited, -⟩ | ⟨e, s', hrun, hwaited, hlate⟩
          | ⟨s', hrun, hwaited, hstarved⟩
      · rw [hrun]
        dsimp only
        have hfewer : s.recvs.length ≤ recvs.length + 1 := by
          rw [hrecvs, List.length_cons]
        have hanswered : s.Takes deadline { s' with recvs } [] :=
          hwaited.before (.same rfl rfl rfl rfl rfl rfl rfl rfl)
        cases reply with
        | moved extra =>
            dsimp only
            generalize hchunk : s'.inbound.take (min size (extra + 1)) = chunk
            have hlimit : chunk.length ≤ size := by
              rw [← hchunk, List.length_take]
              omega
            split
            · rename_i hempty
              have hnil : s'.inbound = [] := by
                rw [List.isEmpty_iff.mp hempty, List.take_eq_nil_iff] at hchunk
                exact hchunk.resolve_left (by omega)
              exact .ends hanswered (List.append_nil _).symm hpos hnil
            · have hsplit : s'.inbound
                  = chunk ++ s'.inbound.drop chunk.length := by
                have hprefix : chunk <+: s'.inbound :=
                  hchunk ▸ List.take_prefix _ _
                obtain ⟨tail, htail⟩ := hprefix
                rw [← htail, List.drop_left]
              have hmoved : s'.Takes deadline
                  { s' with
                    recvs
                    inbound := s'.inbound.drop chunk.length } chunk :=
                .same rfl rfl rfl rfl rfl rfl rfl hsplit
              exact (ih _ _ _ rfl).after rfl (hwaited.before hmoved)
                hwaited.reads hfewer (Nat.sub_add_cancel hlimit)
        | again =>
            exact (ih size received { s' with recvs } rfl).after
              (List.append_nil _).symm hanswered hwaited.reads hfewer rfl
        | failed errno =>
            exact .fails hanswered (List.append_nil _).symm hpos nofun
      · rw [hrun]
        exact .fails hwaited.takes (List.append_nil _).symm hpos hlate
      · rw [hrun]
        exact .stops hwaited.takes hpos
          (hstarved.mono (Nat.min_le_left _ _))

-- ==================================================== the calls

/-- Arguments a transfer refuses, or a clock that fails. -/
def Socket.Refuses (s : Socket) (fd : Int) (timeoutMs : Int32) : Prop :=
  fd < 0 ∨ timeoutMs ≤ 0 ∨ s.clock s.ticks < 0

/-- When a transfer that begins now ends. -/
def Socket.due (s : Socket) (timeoutMs : Int32) : Int64 :=
  s.clock s.ticks + timeoutMs.toInt64

/-- The clock has been read once. -/
def Socket.started (s : Socket) : Socket := { s with ticks := s.ticks + 1 }

theorem sendAll_cases (fd : Int) (data : List UInt8) (timeoutMs : Int32)
    (s : Socket) :
    (s.Refuses fd timeoutMs ∧ ∃ e s', e ≠ NetError.timedOut
        ∧ sendAll fd data timeoutMs s = .done (.error e) s'
        ∧ s.Hands (s.due timeoutMs) s' [])
      ∨ (¬ s.Refuses fd timeoutMs
        ∧ s.started.SendEnds (s.due timeoutMs) data
          (sendAll fd data timeoutMs s)) := by
  unfold sendAll
  split
  · rename_i hrefused
    refine .inl ⟨?_, .invalid, s, nofun, rfl, .refl⟩
    simp only [Bool.or_eq_true, decide_eq_true_eq] at hrefused
    exact hrefused.imp_right .inl
  · rename_i hvalid
    simp only [Bool.or_eq_true, decide_eq_true_eq, not_or] at hvalid
    rw [Prog.bind_run]
    dsimp only [Socket.monotonicMs]
    by_cases hclock : s.clock s.ticks < 0
    · rw [if_pos hclock]
      exact .inl ⟨.inr (.inr hclock), .clock, _, nofun, rfl,
        Socket.Waited.tick.hands⟩
    · rw [if_neg hclock]
      refine .inr ⟨?_, sendAllGo_ends data s.started s.sends rfl⟩
      rintro (hfd | htimeout | hfails)
      · exact hvalid.1 hfd
      · exact hvalid.2 htimeout
      · exact hclock hfails

theorem recvExact_cases (fd : Int) (size : Nat) (timeoutMs : Int32)
    (s : Socket) :
    (s.Refuses fd timeoutMs ∧ ∃ e s', e ≠ NetError.timedOut
        ∧ recvExact fd size timeoutMs s = .done (.error e, []) s'
        ∧ s.Takes (s.due timeoutMs) s' [])
      ∨ (¬ s.Refuses fd timeoutMs
        ∧ s.started.RecvEnds (s.due timeoutMs) size []
          (recvExact fd size timeoutMs s)) := by
  unfold recvExact
  split
  · rename_i hrefused
    refine .inl ⟨?_, .invalid, s, nofun, rfl, .refl⟩
    simp only [Bool.or_eq_true, decide_eq_true_eq] at hrefused
    exact hrefused.imp_right .inl
  · rename_i hvalid
    simp only [Bool.or_eq_true, decide_eq_true_eq, not_or] at hvalid
    rw [Prog.bind_run]
    dsimp only [Socket.monotonicMs]
    by_cases hclock : s.clock s.ticks < 0
    · rw [if_pos hclock]
      exact .inl ⟨.inr (.inr hclock), .clock, _, nofun, rfl,
        Socket.Waited.tick.takes⟩
    · rw [if_neg hclock]
      refine .inr ⟨?_, recvExactGo_ends size [] s.started s.recvs rfl⟩
      rintro (hfd | htimeout | hfails)
      · exact hvalid.1 hfd
      · exact hvalid.2 htimeout
      · exact hclock hfails

/-- What a call of `faultline_recv_exact` that received `part` may say. -/
def Receives (inbound part : List UInt8) (size : Nat) :
    Option (ReceiveResult × List UInt8) → Prop
  | some (.ok, data) => data = part ∧ part.length = size
  | some (.eof, data) => data = [] ∧ inbound = [] ∧ 0 < size
  | some (.truncated, data) =>
      data = inbound ∧ inbound ≠ [] ∧ inbound.length < size
  | some (.error _, data) => data = part ∧ (size = 0 ∨ part.length < size)
  | none => part.length < size

theorem Socket.RecvEnds.received {size : Nat}
    {outcome : Outcome Socket (ReceiveResult × List UInt8)}
    (h : s.RecvEnds deadline size [] outcome) :
    ∃ part, s.Takes deadline outcome.state part
      ∧ Receives s.inbound part size outcome.returned := by
  cases h with
  | receives takes all whole => exact ⟨_, takes, all, whole⟩
  | @ends part data s' takes all short ended =>
      have hinbound : s.inbound = part := by
        rw [takes.inbound, ended, List.append_nil]
      obtain rfl : data = part := all
      refine ⟨data, takes, ?_⟩
      dsimp only [Outcome.returned]
      cases data with
      | nil => exact ⟨rfl, hinbound, short⟩
      | cons byte rest =>
          exact ⟨hinbound.symm, by rw [hinbound]; nofun, hinbound ▸ short⟩
  | fails takes all short late => exact ⟨_, takes, all, .inr short⟩
  | stops takes short starved => exact ⟨_, takes, short⟩

/-- Every call of `poll` since `s` was told to wait until the deadline, which
was ahead, and for no longer than the whole timeout. -/
def Socket.Punctual (s s' : Socket) (timeoutMs : Int32) : Prop :=
  ∃ new, s'.waits = s.waits ++ new ∧ ∀ wait ∈ new,
    1 ≤ wait.timeout.toInt ∧ wait.timeout.toInt ≤ timeoutMs.toInt
      ∧ wait.now.toInt + wait.timeout.toInt
        = (s.clock s.ticks).toInt + timeoutMs.toInt

theorem Socket.due_toInt {fd : Int} {timeoutMs : Int32}
    (valid : ¬ s.Refuses fd timeoutMs)
    (fits : (s.clock s.ticks).toInt + timeoutMs.toInt < 2 ^ 63) :
    (s.due timeoutMs).toInt
      = (s.clock s.ticks).toInt + timeoutMs.toInt := by
  have htimeout : (0 : Int32) < timeoutMs :=
    Int32.not_le.mp fun h => valid (.inr (.inl h))
  have hstart : (0 : Int64) ≤ s.clock s.ticks :=
    Int64.not_lt.mp fun h => valid (.inr (.inr h))
  rw [Int32.lt_iff_toInt_lt] at htimeout
  rw [Int64.le_iff_toInt_le] at hstart
  unfold Socket.due
  rw [Int64.toInt_add, Int32.toInt_toInt64]
  change 0 < timeoutMs.toInt at htimeout
  change 0 ≤ (s.clock s.ticks).toInt at hstart
  rw [Int.bmod_eq_of_le] <;> omega

/-- The cast of what remains to an `int` loses nothing. -/
theorem Socket.Polled.punctual {fd : Int} {timeoutMs : Int32}
    (h : s.started.Polled (s.due timeoutMs) s')
    (valid : ¬ s.Refuses fd timeoutMs)
    (fits : (s.clock s.ticks).toInt + timeoutMs.toInt < 2 ^ 63)
    (mono : ∀ j k, j ≤ k → s.clock j ≤ s.clock k) :
    s.Punctual s' timeoutMs := by
  obtain ⟨new, hwaits, hnew⟩ := h.waits
  refine ⟨new, hwaits, fun wait hwait => ?_⟩
  obtain ⟨hrunning, hearly, htimeout, k, hfrom, -, hread⟩ := hnew wait hwait
  have hdeadline := Socket.due_toInt valid fits
  have hstart : s.clock s.ticks ≤ wait.now := by
    rw [← hread]
    exact mono _ _ ((Nat.le_succ _).trans hfrom)
  have hrest := Int64.toInt_sub_of_le (s.due timeoutMs) wait.now hrunning
    (Int64.le_of_lt hearly)
  rw [Int64.lt_iff_toInt_lt] at hearly
  rw [Int64.le_iff_toInt_le] at hstart
  have hlimit := timeoutMs.toInt_lt
  have hexact : wait.timeout.toInt
      = (s.due timeoutMs).toInt - wait.now.toInt := by
    rw [htimeout, Int64.toInt_toInt32, hrest]
    rw [Int.bmod_eq_of_le] <;> omega
  omega

/-- A transfer is over when its deadline is. With a clock that does not run
backwards, every call of `poll` it makes is told to wait for at least a
millisecond, never longer than the timeout, and exactly until the deadline, so
that no cast makes it wait forever. It reports a timeout only once the
deadline has passed. And it does return: it is enough that the clock reaches
the deadline, and that until then the system answers the calls. -/
theorem transfers_end_in_time (fd : Int) (timeoutMs : Int32) (s : Socket)
    (valid : ¬ s.Refuses fd timeoutMs)
    (fits : (s.clock s.ticks).toInt + timeoutMs.toInt < 2 ^ 63)
    (mono : ∀ j k, j ≤ k → s.clock j ≤ s.clock k) :
    (∀ data, s.Punctual (sendAll fd data timeoutMs s).state timeoutMs
      ∧ ((sendAll fd data timeoutMs s).returned = some (.error .timedOut) →
        s.Late (s.due timeoutMs))
      ∧ ∀ last, s.due timeoutMs ≤ s.clock last →
        last ≤ s.ticks + min s.polls.length s.sends.length →
        (sendAll fd data timeoutMs s).returned ≠ none)
    ∧ ∀ size, s.Punctual (recvExact fd size timeoutMs s).state timeoutMs
      ∧ (∀ data, (recvExact fd size timeoutMs s).returned
          = some (.error .timedOut, data) → s.Late (s.due timeoutMs))
      ∧ ∀ last, s.due timeoutMs ≤ s.clock last →
        last ≤ s.ticks + min s.polls.length s.recvs.length →
        (recvExact fd size timeoutMs s).returned ≠ none := by
  have hlate (h : s.started.Late (s.due timeoutMs)) :
      s.Late (s.due timeoutMs) :=
    h.back (Socket.Waited.tick (s := s)).toPolled
  have hfed {last n : Nat} (hpast : s.due timeoutMs ≤ s.clock last)
      (hlast : last ≤ s.ticks + n)
      (hstarved : s.started.Starved (s.due timeoutMs) n) : False := by
    obtain ⟨k, hfrom, hearly⟩ := hstarved
    have hk : last ≤ k := hlast.trans
      ((Nat.add_le_add_right (Nat.le_succ _) _).trans hfrom)
    exact absurd (Int64.le_trans hpast (mono _ _ hk))
      (Int64.not_le.mpr hearly)
  constructor
  · intro data
    obtain ⟨hrefused, -⟩ | ⟨-, hends⟩ :=
      sendAll_cases fd data timeoutMs s
    · exact absurd hrefused valid
    generalize sendAll fd data timeoutMs s = outcome at hends ⊢
    cases hends with
    | sends hands =>
        exact ⟨hands.toPolled.punctual valid fits mono, nofun,
          fun _ _ _ => nofun⟩
    | fails hands begins short late =>
        refine ⟨hands.toPolled.punctual valid fits mono, fun he => ?_,
          fun _ _ _ => nofun⟩
        cases he
        exact hlate (late rfl)
    | stops hands begins short starved =>
        exact ⟨hands.toPolled.punctual valid fits mono, nofun,
          fun last hpast hlast => (hfed hpast hlast starved).elim⟩
  · intro size
    obtain ⟨hrefused, -⟩ | ⟨-, hends⟩ :=
      recvExact_cases fd size timeoutMs s
    · exact absurd hrefused valid
    generalize recvExact fd size timeoutMs s = outcome at hends ⊢
    cases hends with
    | receives takes all whole =>
        exact ⟨takes.toPolled.punctual valid fits mono, nofun,
          fun _ _ _ => nofun⟩
    | @ends part data s' takes all short ended =>
        refine ⟨takes.toPolled.punctual valid fits mono, fun data he => ?_,
          fun _ _ _ => nofun⟩
        dsimp only [Outcome.returned] at he
        split at he <;> cases he
    | fails takes all short late =>
        refine ⟨takes.toPolled.punctual valid fits mono, fun data he => ?_,
          fun _ _ _ => nofun⟩
        cases he
        exact hlate (late rfl)
    | stops takes short starved =>
        exact ⟨takes.toPolled.punctual valid fits mono, fun _ => nofun,
          fun last hpast hlast => (hfed hpast hlast starved).elim⟩

/-- A socket that is never ready, until its deadline is over. -/
def tardySocket : Socket :=
  { clock := fun k => if k ≤ 2 then 10 else 5010
    ticks := 0
    polls := [.interrupted, .interrupted, .interrupted]
    sends := [.again, .again, .again]
    recvs := [.again, .again, .again]
    inbound := [1, 2, 3]
    outbound := []
    waits := []
    descriptors := [3] }

theorem tardySocket_mono (j k : Nat) (hjk : j ≤ k) :
    tardySocket.clock j ≤ tardySocket.clock k := by
  unfold tardySocket
  dsimp only
  split
  · split <;> decide
  · rw [if_neg (by omega)]
    decide

theorem transfers_end_in_time_tardy :
    tardySocket.Punctual (sendAll 3 [7] 5000 tardySocket).state 5000
      ∧ (sendAll 3 [7] 5000 tardySocket).returned ≠ none
      ∧ (recvExact 3 2 5000 tardySocket).returned ≠ none := by
  have hvalid : ¬ tardySocket.Refuses 3 5000 := by
    rintro (h | h | h) <;> exact absurd h (by decide)
  obtain ⟨hsends, hrecvs⟩ := transfers_end_in_time 3 5000 tardySocket hvalid
    (by decide) tardySocket_mono
  exact ⟨(hsends [7]).1, (hsends [7]).2.2 3 (by decide) (by decide),
    (hrecvs 2).2.2 3 (by decide) (by decide)⟩

end Faultline
