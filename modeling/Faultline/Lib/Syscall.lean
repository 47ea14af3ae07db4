/-
System-call loops over an unreliable disk.

A machine is a disk, the read position of one descriptor and the script
of answers the environment will give. The three loops every careful
program writes are here once: retry a call while it is interrupted
(`retry`), write all of a buffer (`writeAll`), read until a count or the
end of the file (`readExact`). Each consumes one answer per call; when the
script runs out the machine has stopped in the middle of that call.

What a loop can do is said twice. The `_cases` lemmas hold for any script:
a failed or stopped write leaves a prefix, nothing else happens. The
`_total` lemmas are for cooperative scripts: with enough completions left
the loop succeeds, and they say how many it may use.
-/
import Faultline.Lib.Disk
import Faultline.Lib.Prog

namespace Lib

/-- `EIO`, which also stands for a call that broke its contract. -/
def eio : Nat := 5

structure Machine where
  disk : Disk
  offset : Nat
  script : List Reply
deriving DecidableEq, Repr

namespace Machine

-- ======================================================== loops

def retryGo (effect : Disk → Disk) (errorEffect : Nat → Disk → Disk)
    (disk : Disk) (offset : Nat) :
    List Reply → Outcome Machine (Except Nat Unit)
  | [] => .crash { disk, offset, script := [] }
  | .eintr :: rest => retryGo effect errorEffect disk offset rest
  | .error errno applied :: rest =>
      .done (.error errno)
        { disk := errorEffect applied disk, offset, script := rest }
  | _ :: rest => .done (.ok ()) { disk := effect disk, offset, script := rest }

/-- A call retried while interrupted; `effect` is what its success does,
`errorEffect` what a failure may still have done. -/
def retry (effect : Disk → Disk) (errorEffect : Nat → Disk → Disk) :
    Prog Machine (Except Nat Unit) :=
  fun m => retryGo effect errorEffect m.disk m.offset m.script

/-- A call that is made once, interrupted or not (`EINTR` is 4). -/
def once : Prog Machine (Except Nat Unit) := fun m =>
  match m.script with
  | [] => .crash m
  | .eintr :: rest => .done (.error 4) { m with script := rest }
  | .error errno _ :: rest => .done (.error errno) { m with script := rest }
  | _ :: rest => .done (.ok ()) { m with script := rest }

def writeGo (offset : Nat) (disk : Disk) (remaining : List UInt8) :
    List Reply → Outcome Machine (Except Nat Unit)
  | [] =>
      if remaining.isEmpty then .done (.ok ()) { disk, offset, script := [] }
      else .crash { disk, offset, script := [] }
  | reply :: rest =>
      if remaining.isEmpty then
        .done (.ok ()) { disk, offset, script := reply :: rest }
      else
        match reply with
        | .eintr => writeGo offset disk remaining rest
        | .error errno applied =>
            .done (.error errno)
              { disk := disk.append (remaining.take applied), offset,
                script := rest }
        | .zero => .done (.error eio) { disk, offset, script := rest }
        | .oversized applied =>
            .done (.error eio)
              { disk := disk.append (remaining.take applied), offset,
                script := rest }
        | .moved extra =>
            writeGo offset (disk.append (remaining.take (extra + 1)))
              (remaining.drop (extra + 1)) rest

/-- Write every byte: short writes continue, zero progress fails. -/
def writeAll (bytes : List UInt8) : Prog Machine (Except Nat Unit) :=
  fun m => writeGo m.offset m.disk bytes m.script

/-- The most bytes a successful read moves. -/
def readLimit : Reply → Nat
  | .moved extra => extra + 1
  | _ => 1

def readGo (disk : Disk) (offset want : Nat) (received : List UInt8) :
    List Reply → Outcome Machine (Except Nat (List UInt8))
  | [] =>
      if want == 0 then .done (.ok received) { disk, offset, script := [] }
      else .crash { disk, offset, script := [] }
  | reply :: rest =>
      if want == 0 then
        .done (.ok received) { disk, offset, script := reply :: rest }
      else
        match reply with
        | .eintr => readGo disk offset want received rest
        | .error errno _ =>
            .done (.error errno) { disk, offset, script := rest }
        | .oversized _ => .done (.error eio) { disk, offset, script := rest }
        | reply =>
            -- Reads are honest: they return nothing only at the end.
            let chunk := ((disk.file.drop offset).take want).take
              (readLimit reply)
            if chunk.isEmpty then
              .done (.ok received) { disk, offset, script := rest }
            else
              readGo disk (offset + chunk.length) (want - chunk.length)
                (received ++ chunk) rest

/-- Read `want` bytes, or as many as are left before the end of the
file. -/
def readExact (want : Nat) : Prog Machine (Except Nat (List UInt8)) :=
  fun m => readGo m.disk m.offset want [] m.script

-- ============================================= under any script

/-- What a retried call can do. -/
def Retried (effect : Disk → Disk) (errorEffect : Nat → Disk → Disk)
    (m : Machine) : Outcome Machine (Except Nat Unit) → Prop
  | .done (.ok ()) m' => m'.disk = effect m.disk ∧ m'.offset = m.offset
  | .done (.error _) m' =>
      (∃ applied, m'.disk = errorEffect applied m.disk)
        ∧ m'.offset = m.offset
  | .crash m' => m'.disk = m.disk

theorem retry_retried (effect : Disk → Disk)
    (errorEffect : Nat → Disk → Disk) (m : Machine) :
    Retried effect errorEffect m (retry effect errorEffect m) := by
  obtain ⟨disk, offset, script⟩ := m
  unfold retry
  simp only
  induction script with
  | nil => rfl
  | cons reply rest ih =>
      cases reply with
      | eintr => exact ih
      | error errno applied => exact ⟨⟨applied, rfl⟩, rfl⟩
      | moved extra => exact ⟨rfl, rfl⟩
      | zero => exact ⟨rfl, rfl⟩
      | oversized applied => exact ⟨rfl, rfl⟩

theorem once_disk (m : Machine) : (once m).state.disk = m.disk := by
  unfold once
  split <;> simp_all [Outcome.state]

/-- A write appends all of its bytes, or a prefix when it fails or
stops. -/
def Wrote (bytes : List UInt8) (m : Machine) :
    Outcome Machine (Except Nat Unit) → Prop
  | .done (.ok ()) m' =>
      m'.disk = m.disk.append bytes ∧ m'.offset = m.offset
  | .done (.error _) m' =>
      (∃ part, part <+: bytes ∧ m'.disk = m.disk.append part)
        ∧ m'.offset = m.offset
  | .crash m' => ∃ part, part <+: bytes ∧ m'.disk = m.disk.append part

/-- What the rest of a write does, it does behind the chunk before. -/
private theorem Wrote.behind {bytes : List UInt8} {disk : Disk}
    {offset limit : Nat} {script script' : List Reply}
    {outcome : Outcome Machine (Except Nat Unit)}
    (h : Wrote (bytes.drop limit)
      ⟨disk.append (bytes.take limit), offset, script⟩ outcome) :
    Wrote bytes ⟨disk, offset, script'⟩ outcome := by
  have hjoin (part : List UInt8) (hpart : part <+: bytes.drop limit) :
      bytes.take limit ++ part <+: bytes := by
    obtain ⟨tail, htail⟩ := hpart
    exact ⟨tail, by rw [List.append_assoc, htail, List.take_append_drop]⟩
  match outcome, h with
  | .done (.ok ()) m', ⟨hdisk, hoff⟩ =>
      refine ⟨?_, hoff⟩
      rw [hdisk, Disk.append_append, List.take_append_drop]
  | .done (.error _) m', ⟨⟨part, hpart, hdisk⟩, hoff⟩ =>
      exact ⟨⟨_, hjoin part hpart, by rw [hdisk, Disk.append_append]⟩, hoff⟩
  | .crash m', ⟨part, hpart, hdisk⟩ =>
      exact ⟨_, hjoin part hpart, by rw [hdisk, Disk.append_append]⟩

theorem writeAll_wrote (bytes : List UInt8) (m : Machine) :
    Wrote bytes m (writeAll bytes m) := by
  obtain ⟨disk, offset, script⟩ := m
  have hnone {b : List UInt8} {d : Disk} :
      ∃ part, part <+: b ∧ d = d.append part :=
    ⟨[], List.nil_prefix, (Disk.append_nil d).symm⟩
  unfold writeAll
  simp only
  induction script generalizing disk bytes with
  | nil =>
      unfold writeGo
      cases hempty : bytes.isEmpty with
      | true =>
          rw [List.isEmpty_iff.mp hempty]
          exact ⟨(Disk.append_nil disk).symm, rfl⟩
      | false => exact hnone
  | cons reply rest ih =>
      unfold writeGo
      cases hempty : bytes.isEmpty with
      | true =>
          rw [List.isEmpty_iff.mp hempty]
          exact ⟨(Disk.append_nil disk).symm, rfl⟩
      | false =>
          cases reply with
          | eintr => exact ih bytes disk
          | error errno applied =>
              exact ⟨⟨bytes.take applied, List.take_prefix _ _, rfl⟩, rfl⟩
          | zero => exact ⟨hnone, rfl⟩
          | oversized applied =>
              exact ⟨⟨bytes.take applied, List.take_prefix _ _, rfl⟩, rfl⟩
          | moved extra => exact (ih _ _).behind

/-- The errno a write reports for an answer that ends it. -/
def writeErrno : Reply → Option Nat
  | .error errno _ => some errno
  | .zero => some eio
  | .oversized _ => some eio
  | _ => none

/-- The errno another call reports for an answer that ends it. -/
def callErrno : Reply → Option Nat
  | .error errno _ => some errno
  | _ => none

/-- The answer that failed a retried call was the last one it took. -/
theorem retry_failed {effect : Disk → Disk} {errorEffect : Nat → Disk → Disk}
    {m m' : Machine} {errno : Nat}
    (h : retry effect errorEffect m = .done (.error errno) m') :
    ∃ answered reply, m.script = answered ++ reply :: m'.script
      ∧ callErrno reply = some errno := by
  obtain ⟨disk, offset, script⟩ := m
  unfold retry at h
  simp only at h ⊢
  induction script with
  | nil => cases h
  | cons reply rest ih =>
      cases reply with
      | eintr =>
          obtain ⟨answered, reply, rfl, herrno⟩ := ih h
          exact ⟨.eintr :: answered, reply, rfl, herrno⟩
      | error code applied =>
          cases h
          exact ⟨[], _, rfl, rfl⟩
      | _ => cases h

/-- The answer that failed a write was the last one it took. -/
theorem writeAll_failed {bytes : List UInt8} {m m' : Machine} {errno : Nat}
    (h : writeAll bytes m = .done (.error errno) m') :
    ∃ answered reply, m.script = answered ++ reply :: m'.script
      ∧ writeErrno reply = some errno := by
  obtain ⟨disk, offset, script⟩ := m
  unfold writeAll at h
  simp only at h ⊢
  induction script generalizing disk bytes with
  | nil =>
      unfold writeGo at h
      split at h <;> cases h
  | cons reply rest ih =>
      unfold writeGo at h
      split at h
      · cases h
      · cases reply with
        | eintr =>
            obtain ⟨answered, reply, rfl, herrno⟩ := ih disk h
            exact ⟨.eintr :: answered, reply, rfl, herrno⟩
        | moved extra =>
            obtain ⟨answered, reply, rfl, herrno⟩ := ih _ h
            exact ⟨.moved extra :: answered, reply, rfl, herrno⟩
        | _ =>
            cases h
            exact ⟨[], _, rfl, rfl⟩

/-- A write takes answers from the front of the script. -/
theorem writeAll_suffix {bytes : List UInt8} {m m' : Machine}
    {result : Except Nat Unit} (h : writeAll bytes m = .done result m') :
    ∃ answered, m.script = answered ++ m'.script := by
  obtain ⟨disk, offset, script⟩ := m
  unfold writeAll at h
  simp only at h ⊢
  induction script generalizing disk bytes with
  | nil =>
      unfold writeGo at h
      split at h <;> cases h
      exact ⟨[], rfl⟩
  | cons reply rest ih =>
      unfold writeGo at h
      split at h
      · cases h
        exact ⟨[], rfl⟩
      · cases reply with
        | eintr =>
            obtain ⟨answered, rfl⟩ := ih disk h
            exact ⟨.eintr :: answered, rfl⟩
        | moved extra =>
            obtain ⟨answered, rfl⟩ := ih _ h
            exact ⟨.moved extra :: answered, rfl⟩
        | _ =>
            cases h
            exact ⟨[_], rfl⟩

/-- A read returns the next bytes of the file and changes nothing. -/
def Received (want : Nat) (m : Machine) :
    Outcome Machine (Except Nat (List UInt8)) → Prop
  | .done (.ok data) m' =>
      data = (m.disk.file.drop m.offset).take want
        ∧ m'.offset = m.offset + data.length ∧ m'.disk = m.disk
  | .done (.error _) m' => m'.disk = m.disk
  | .crash m' => m'.disk = m.disk

/-- A chunk and what is read behind it are one segment of the file. -/
private theorem chunk_append (file : List UInt8) (offset want limit : Nat) :
    ((file.drop offset).take want).take limit
      ++ (file.drop (offset + (((file.drop offset).take want).take
          limit).length)).take
        (want - (((file.drop offset).take want).take limit).length)
      = (file.drop offset).take want := by
  generalize hseg : (file.drop offset).take want = seg
  have hrest : (file.drop (offset + (seg.take limit).length)).take
      (want - (seg.take limit).length) = seg.drop (seg.take limit).length := by
    rw [← hseg, ← List.drop_drop, List.drop_take]
  rw [hrest, List.length_take]
  by_cases hle : limit ≤ seg.length
  · rw [Nat.min_eq_left hle, List.take_append_drop]
  · rw [Nat.min_eq_right (by omega), List.drop_length,
      List.take_of_length_le (by omega), List.append_nil]

private theorem readGo_received (disk : Disk) (offset want : Nat)
    (received : List UInt8) (script : List Reply) :
    match readGo disk offset want received script with
    | .done (.ok data) m' =>
        data = received ++ (disk.file.drop offset).take want
          ∧ m'.offset + received.length = offset + data.length
          ∧ m'.disk = disk
    | .done (.error _) m' => m'.disk = disk
    | .crash m' => m'.disk = disk := by
  induction script generalizing offset want received with
  | nil =>
      unfold readGo
      cases hw : want == 0 with
      | true =>
          rw [beq_iff_eq.mp hw]
          simp
      | false => rfl
  | cons reply rest ih =>
      have hchunk (r : Reply) (hr : readLimit r ≠ 0) :
          match (if (((disk.file.drop offset).take want).take
              (readLimit r)).isEmpty then
                Outcome.done (.ok received) ⟨disk, offset, rest⟩
              else
                readGo disk
                  (offset + (((disk.file.drop offset).take want).take
                    (readLimit r)).length)
                  (want - (((disk.file.drop offset).take want).take
                    (readLimit r)).length)
                  (received ++ ((disk.file.drop offset).take want).take
                    (readLimit r)) rest) with
          | .done (.ok data) m' =>
              data = received ++ (disk.file.drop offset).take want
                ∧ m'.offset + received.length = offset + data.length
                ∧ m'.disk = disk
          | .done (.error _) m' => m'.disk = disk
          | .crash m' => m'.disk = disk := by
        generalize hc : ((disk.file.drop offset).take want).take
          (readLimit r) = chunk
        cases hempty : chunk.isEmpty with
        | true =>
            have hnil : (disk.file.drop offset).take want = [] := by
              rw [List.isEmpty_iff.mp hempty, List.take_eq_nil_iff] at hc
              exact hc.resolve_left hr
            simp [hnil]
        | false =>
            have hrec := ih (offset + chunk.length) (want - chunk.length)
              (received ++ chunk)
            simp only [Bool.false_eq_true, if_false]
            cases hrun : readGo disk (offset + chunk.length)
                (want - chunk.length) (received ++ chunk) rest with
            | done result m' =>
                rw [hrun] at hrec
                cases result with
                | ok data =>
                    obtain ⟨hdata, hoff, hdisk⟩ := hrec
                    refine ⟨?_, ?_, hdisk⟩
                    · rw [hdata, List.append_assoc, ← hc, chunk_append]
                    · rw [List.length_append] at hoff
                      omega
                | error e => exact hrec
            | crash m' =>
                rw [hrun] at hrec
                exact hrec
      unfold readGo
      cases hw : want == 0 with
      | true =>
          rw [beq_iff_eq.mp hw]
          simp
      | false =>
          cases reply with
          | eintr => exact ih offset want received
          | error errno applied => rfl
          | oversized applied => rfl
          | zero => exact hchunk .zero (by simp [readLimit])
          | moved extra => exact hchunk (.moved extra) (by simp [readLimit])

theorem readExact_received (want : Nat) (m : Machine) :
    Received want m (readExact want m) := by
  have h := readGo_received m.disk m.offset want [] m.script
  unfold readExact
  cases hrun : readGo m.disk m.offset want [] m.script with
  | done result m' =>
      rw [hrun] at h
      cases result with
      | ok data =>
          obtain ⟨hdata, hoff, hdisk⟩ := h
          exact ⟨hdata, hoff, hdisk⟩
      | error e => exact h
  | crash m' =>
      rw [hrun] at h
      exact h

-- =============================== under finitely many interruptions

/-- The loops return once the environment has answered often enough,
whatever the answers are. -/
theorem retry_returns (effect : Disk → Disk)
    (errorEffect : Nat → Disk → Disk) (n : Nat) :
    Prog.Triple (fun m => n + 1 ≤ answers m.script)
      (retry effect errorEffect) (fun _ m => n ≤ answers m.script)
      (fun _ => False) := by
  intro m hm
  obtain ⟨disk, offset, script⟩ := m
  unfold retry
  simp only at hm ⊢
  induction script with
  | nil => simp [answers] at hm
  | cons reply rest ih =>
      cases reply <;> simp only [answers, List.countP_cons] at hm ih
      · exact ih (by simpa using hm)
      all_goals
        simp only [retryGo, answers]
        simpa using hm

theorem writeAll_returns (bytes : List UInt8) (n : Nat) :
    Prog.Triple (fun m => n + bytes.length ≤ answers m.script)
      (writeAll bytes) (fun _ m => n ≤ answers m.script)
      (fun _ => False) := by
  intro m hm
  obtain ⟨disk, offset, script⟩ := m
  unfold writeAll
  simp only at hm ⊢
  induction script generalizing disk bytes with
  | nil =>
      have hzero : n + bytes.length ≤ 0 := hm
      have hnil : bytes = [] := List.length_eq_zero_iff.mp (by omega)
      subst hnil
      exact hm
  | cons reply rest ih =>
      unfold writeGo
      cases hempty : bytes.isEmpty with
      | true =>
          rw [List.isEmpty_iff.mp hempty] at hm
          exact hm
      | false =>
          have hpos : bytes.length ≠ 0 := by
            intro h0
            rw [List.length_eq_zero_iff.mp h0] at hempty
            cases hempty
          cases reply with
          | eintr => exact ih bytes disk (by simpa [answers] using hm)
          | moved extra =>
              refine ih _ _ ?_
              simp only [answers, List.countP_cons] at hm ⊢
              rw [List.length_drop]
              simp at hm
              omega
          | _ =>
              simp only [answers, List.countP_cons] at hm ⊢
              simp at hm ⊢
              omega

-- ==================================== under cooperative scripts

/-- The environment only interrupts or completes calls, and completes at
least `n` more of them. -/
structure Ready (n : Nat) (m : Machine) : Prop where
  cooperative : ∀ r ∈ m.script, r.Cooperative
  enough : n ≤ completions m.script

variable {n : Nat} {m : Machine}

theorem Ready.mono {k : Nat} (h : Ready n m) (hk : k ≤ n) : Ready k m :=
  ⟨h.cooperative, Nat.le_trans hk h.enough⟩

/-- An environment that completes every call. -/
theorem ready_replicate (d : Disk) (o n extra : Nat) :
    Ready n ⟨d, o, List.replicate n (.moved extra)⟩ := by
  refine ⟨fun r hr => ?_, ?_⟩
  · rw [List.eq_of_mem_replicate hr]
    trivial
  · have hcount : completions (List.replicate n (.moved extra)) = n := by
      rw [completions, List.countP_replicate, if_pos rfl]
    exact Nat.le_of_eq hcount.symm

/-- A cooperative answer is an interruption or a completion. -/
private theorem Ready.cons_cases {k : Nat} {d : Disk} {o : Nat} {r : Reply}
    {rest : List Reply} (h : Ready k ⟨d, o, r :: rest⟩) :
    (r = .eintr ∧ ∀ d' o', Ready k ⟨d', o', rest⟩)
      ∨ ∃ extra, r = .moved extra ∧ ∀ d' o', Ready (k - 1) ⟨d', o', rest⟩ := by
  have hr := h.cooperative r (by simp)
  have hrest : ∀ q ∈ rest, q.Cooperative := fun q hq =>
    h.cooperative q (List.mem_cons_of_mem _ hq)
  have hn := h.enough
  simp only [completions, List.countP_cons] at hn
  cases r with
  | eintr =>
      refine Or.inl ⟨rfl, fun _ _ => ⟨hrest, ?_⟩⟩
      show k ≤ List.countP _ rest
      simpa using hn
  | moved extra =>
      refine Or.inr ⟨extra, rfl, fun _ _ => ⟨hrest, ?_⟩⟩
      simp only [if_true] at hn
      show k - 1 ≤ List.countP _ rest
      omega
  | error errno applied => cases hr
  | zero => cases hr
  | oversized applied => cases hr

theorem retry_total (effect : Disk → Disk)
    (errorEffect : Nat → Disk → Disk) (h : Ready (n + 1) m) :
    ∃ m', retry effect errorEffect m = .done (.ok ()) m' ∧ Ready n m' := by
  obtain ⟨disk, offset, script⟩ := m
  unfold retry
  simp only
  induction script with
  | nil => exact absurd h.enough (by simp [completions])
  | cons reply rest ih =>
      rcases h.cons_cases with ⟨rfl, hrest⟩ | ⟨extra, rfl, hrest⟩
      · exact ih (hrest _ _)
      · exact ⟨_, rfl, hrest _ _⟩

theorem writeAll_total (bytes : List UInt8)
    (h : Ready (n + bytes.length) m) :
    ∃ m', writeAll bytes m = .done (.ok ()) m' ∧ Ready n m' := by
  obtain ⟨disk, offset, script⟩ := m
  unfold writeAll
  simp only
  induction script generalizing disk bytes with
  | nil =>
      have hzero : n + bytes.length ≤ 0 := h.enough
      have hnil : bytes = [] := List.length_eq_zero_iff.mp (by omega)
      subst hnil
      exact ⟨_, rfl, h⟩
  | cons reply rest ih =>
      unfold writeGo
      cases hempty : bytes.isEmpty with
      | true =>
          rw [List.isEmpty_iff.mp hempty] at h
          exact ⟨_, rfl, h⟩
      | false =>
          rcases h.cons_cases with ⟨rfl, hrest⟩ | ⟨extra, rfl, hrest⟩
          · exact ih bytes disk (hrest _ _)
          · refine ih _ _ ((hrest _ offset).mono ?_)
            have hpos : bytes.length ≠ 0 := by
              intro h0
              rw [List.length_eq_zero_iff.mp h0] at hempty
              cases hempty
            rw [List.length_drop]
            omega

private theorem readGo_total (disk : Disk) (offset want : Nat)
    (received : List UInt8) (script : List Reply)
    (h : Ready (n + ((disk.file.drop offset).take want).length + 1)
      ⟨disk, offset, script⟩) :
    ∃ data m', readGo disk offset want received script = .done (.ok data) m'
      ∧ Ready n m' := by
  induction script generalizing offset want received with
  | nil => exact absurd h.enough (by simp [completions])
  | cons reply rest ih =>
      unfold readGo
      cases hw : want == 0 with
      | true => exact ⟨_, _, rfl, h.mono (by omega)⟩
      | false =>
          rcases h.cons_cases with ⟨rfl, hrest⟩ | ⟨extra, rfl, hrest⟩
          · exact ih offset want received (hrest _ _)
          · have hlen := congrArg List.length
              (chunk_append disk.file offset want (readLimit (.moved extra)))
            rw [List.length_append] at hlen
            simp only [Bool.false_eq_true, if_false]
            by_cases hempty : (((disk.file.drop offset).take want).take
                (readLimit (.moved extra))).isEmpty = true
            · rw [if_pos hempty]
              exact ⟨_, _, rfl, (hrest _ _).mono (by omega)⟩
            · rw [if_neg hempty]
              have hpos : (((disk.file.drop offset).take want).take
                  (readLimit (.moved extra))).length ≠ 0 := fun h0 =>
                hempty (List.isEmpty_iff.mpr (List.length_eq_zero_iff.mp h0))
              refine ih _ _ _ ((hrest _ _).mono ?_)
              omega

/-- A read needs one completion per byte it returns and one more for the
end of the file. -/
theorem readExact_total (want : Nat)
    (h : Ready (n + ((m.disk.file.drop m.offset).take want).length + 1) m) :
    ∃ data m', readExact want m = .done (.ok data) m' ∧ Ready n m' :=
  readGo_total m.disk m.offset want [] m.script h

end Machine

end Lib
