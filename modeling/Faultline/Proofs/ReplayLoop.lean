/-
The record loop, without its system calls.

`scanAll` is what the loop computes from the bytes that are left.
`readRecords_scan` says that the loop, under any script, stops, fails a
read, or returns exactly that; with enough cooperative answers it returns.
What remains is about bytes alone: `scanAll_complete` and `scanAll_sound`
say that a scan succeeds exactly on the records of a legal continuation
and a torn tail, and with which state.
-/
import Faultline.Abstract.LogImage
import Faultline.Proofs.ReplayRecords

namespace Faultline

open Lib

-- =================================================== one read

/-- A read stops, fails and latches the failure, or returns the next bytes
of the file; it never changes the disk. -/
theorem readExact_cases (size : Nat) (c : WalCtx) :
    (∃ c', readExact size c = .crash c'
      ∧ c'.machine.disk = c.machine.disk
      ∧ ¬ c.machine.Ready (((c.machine.disk.file.drop
          c.machine.offset).take size).length + 1))
    ∨ (∃ c', readExact size c = .done none c'
      ∧ c'.machine.disk = c.machine.disk ∧ c'.writer.state = .failed
      ∧ ¬ c.machine.Ready (((c.machine.disk.file.drop
          c.machine.offset).take size).length + 1))
    ∨ ∃ m', readExact size c
          = .done (some ((c.machine.disk.file.drop c.machine.offset).take
              size)) { c with machine := m' }
        ∧ m'.disk = c.machine.disk
        ∧ m'.offset = c.machine.offset + ((c.machine.disk.file.drop
            c.machine.offset).take size).length
        ∧ ∀ n, c.machine.Ready (n + ((c.machine.disk.file.drop
            c.machine.offset).take size).length + 1) → m'.Ready n := by
  have hspec := Machine.readExact_received size c.machine
  have htotal (n : Nat) (hr : c.machine.Ready (n + ((c.machine.disk.file.drop
      c.machine.offset).take size).length + 1)) :=
    Machine.readExact_total size hr
  unfold readExact WalCtx.onMachine
  simp only [Prog.bind_run, Prog.zoom]
  cases hrun : Machine.readExact size c.machine with
  | crash m' =>
      rw [hrun] at hspec htotal
      refine Or.inl ⟨_, rfl, hspec, fun hr => ?_⟩
      obtain ⟨_, _, h, -⟩ := htotal 0 (by simpa using hr)
      cases h
  | done result m' =>
      rw [hrun] at hspec htotal
      cases result with
      | error errno =>
          refine Or.inr (Or.inl ⟨_, rfl, hspec, ?_, fun hr => ?_⟩)
          · simp only [walWriterFail]
            split
            · rfl
            · rename_i h
              simpa using h
          · obtain ⟨_, _, h, -⟩ := htotal 0 (by simpa using hr)
            cases h
      | ok data =>
          obtain ⟨rfl, hoff, hdisk⟩ := hspec
          refine Or.inr (Or.inr ⟨m', rfl, hdisk, hoff, fun n hr => ?_⟩)
          obtain ⟨_, _, h, hready⟩ := htotal n hr
          cases h
          exact hready

-- ==================================================== the scan

/-- One turn of the record loop on the bytes that are left: the loop ends
with a result, or goes on. -/
def Replaying.scan (p : Replaying) (rest : List UInt8) :
    (WalReplayResult × Replaying) ⊕ Replaying :=
  let header := rest.take walRecordHeaderSize
  if header.length == 0 then .inl (.ok, p)
  else if p.state.lastSequence == 0xffffffffffffffff then
    .inl (p.formatError .invalidSequence)
  else if header.length < walRecordHeaderSize then
    .inl (p.tail header.length)
  else
    match walRecordHeaderDecode header (p.state.lastSequence + 1) with
    | .error e => .inl (p.formatError e)
    | .ok fields =>
        let payload := (rest.drop walRecordHeaderSize).take
          fields.payloadLength.toNat
        if payload.length < fields.payloadLength.toNat then
          .inl (p.tail (walRecordHeaderSize + payload.length))
        else
          match walRecordDecode (header ++ payload)
              (p.state.lastSequence + 1) with
          | .error e => .inl (p.formatError e)
          | .ok (record, _) =>
              if p.report.validBytes
                  > 0x7fffffffffffffff
                    - (walRecordHeaderSize + payload.length) then
                .inl (.ioError, p)
              else
                match applyRecord p.state p.index record
                    (header ++ payload) with
                | .error e => .inl (p.applyError e)
                | .ok (state, index) =>
                    .inr (p.advance state index (p.state.lastSequence + 1)
                      (walRecordHeaderSize + payload.length))

/-- The start of a turn: errors will be reported at this offset. -/
def Replaying.turn (p : Replaying) : Replaying :=
  { p with report := { p.report with errorOffset := p.report.validBytes } }

/-- The record loop on the bytes that are left. -/
def scanAll : Nat → Replaying → List UInt8 → WalReplayResult × Replaying
  | 0, p, _ => (.ioError, p)
  | fuel + 1, q, rest =>
      match q.turn.scan rest with
      | .inl result => result
      | .inr p => scanAll fuel p
          (rest.drop (p.report.validBytes - q.report.validBytes))

/-- What the loop does with its system calls, against the scan. -/
def LoopOutcome (fuel : Nat) (q : Replaying) (c : WalCtx)
    (outcome : Outcome WalCtx (WalReplayResult × Replaying)) : Prop :=
  let rest := c.machine.disk.file.drop c.machine.offset
  (∃ c', outcome = .crash c' ∧ c'.machine.disk = c.machine.disk
    ∧ (rest.length < fuel → ¬ c.machine.Ready (2 * rest.length + 2)))
  ∨ (∃ p c', outcome = .done (.ioError, p) c'
    ∧ c'.machine.disk = c.machine.disk ∧ c'.writer.state = .failed
    ∧ ¬ c.machine.Ready (2 * rest.length + 2))
  ∨ ∃ c', outcome = .done (scanAll fuel q rest) c'
      ∧ c'.machine.disk = c.machine.disk
      ∧ ((scanAll fuel q rest).1 ≠ .ioError → c'.writer = c.writer)
      ∧ ∀ n, c.machine.Ready (n + 2 * rest.length + 2) → c'.machine.Ready n

section Loop

variable {fuel size : Nat} {p q : Replaying} {c c' : WalCtx}
  {r : WalReplayResult × Replaying}
  {outcome : Outcome WalCtx (WalReplayResult × Replaying)}

/-- A turn that ends the loop. -/
theorem loop_ends
    (hscan : q.turn.scan (c.machine.disk.file.drop c.machine.offset)
      = .inl r)
    (hdisk : c'.machine.disk = c.machine.disk)
    (hwriter : r.1 ≠ .ioError → c'.writer = c.writer)
    (hready : ∀ n, c.machine.Ready
      (n + (c.machine.disk.file.drop c.machine.offset).length + 2) →
      c'.machine.Ready n) :
    LoopOutcome (fuel + 1) q c (.done r c') := by
  have hall : scanAll (fuel + 1) q
      (c.machine.disk.file.drop c.machine.offset) = r := by
    rw [scanAll, hscan]
  refine Or.inr (Or.inr ⟨c', by rw [hall], hdisk, by rwa [hall], ?_⟩)
  intro n hr
  exact hready n (hr.mono (by omega))

/-- A turn that read one record of `size` bytes. -/
theorem loop_goes_on
    (hscan : q.turn.scan (c.machine.disk.file.drop c.machine.offset)
      = .inr p)
    (hsize : p.report.validBytes = q.report.validBytes + size)
    (hpos : 2 ≤ size)
    (hle : size ≤ (c.machine.disk.file.drop c.machine.offset).length)
    (hdisk : c'.machine.disk = c.machine.disk)
    (hoff : c'.machine.offset = c.machine.offset + size)
    (hwriter : c'.writer = c.writer)
    (hready : ∀ n, c.machine.Ready (n + size + 2) → c'.machine.Ready n)
    (hrest : LoopOutcome fuel p c' outcome) :
    LoopOutcome (fuel + 1) q c outcome := by
  have hdrop : c'.machine.disk.file.drop c'.machine.offset
      = (c.machine.disk.file.drop c.machine.offset).drop size := by
    rw [hdisk, hoff, List.drop_drop]
  have hall : scanAll (fuel + 1) q
      (c.machine.disk.file.drop c.machine.offset)
        = scanAll fuel p (c'.machine.disk.file.drop c'.machine.offset) := by
    rw [scanAll, hscan, hdrop]
    simp only [hsize, Nat.add_sub_cancel_left]
  have hlen : (c'.machine.disk.file.drop c'.machine.offset).length + size
      = (c.machine.disk.file.drop c.machine.offset).length := by
    rw [hdrop, List.length_drop]
    omega
  rcases hrest with ⟨c'', heq, hd, hnr⟩ | ⟨x, c'', heq, hd, hf, hnr⟩
    | ⟨c'', heq, hd, hw, hr⟩
  · refine Or.inl ⟨c'', heq, by rw [hd, hdisk], fun hfuel hr => ?_⟩
    exact hnr (by omega) (hready _ (hr.mono (by omega)))
  · refine Or.inr (Or.inl ⟨x, c'', heq, by rw [hd, hdisk], hf, fun hr => ?_⟩)
    exact hnr (hready _ (hr.mono (by omega)))
  · refine Or.inr (Or.inr ⟨c'', by rw [hall]; exact heq, by rw [hd, hdisk],
      fun hne => ?_, fun n hr' => ?_⟩)
    · rw [hw (by rwa [hall] at hne), hwriter]
    · exact hr n (hready _ (hr'.mono (by omega)))

/-- The loop is the scan, unless a read stops or fails. -/
theorem readRecords_scan (fuel : Nat) (q : Replaying) (c : WalCtx) :
    LoopOutcome fuel q c (readRecords fuel q c) := by
  induction fuel generalizing q c with
  | zero => exact Or.inl ⟨c, rfl, rfl, fun h => absurd h (Nat.not_lt_zero _)⟩
  | succ fuel ih =>
      unfold readRecords
      simp only [Prog.bind_run]
      generalize hrest : c.machine.disk.file.drop c.machine.offset = rest
      have htake : (rest.take walRecordHeaderSize).length ≤ rest.length :=
        List.length_take_le' _ _
      rcases readExact_cases walRecordHeaderSize c with
        ⟨c₁, hrun, hdisk, hnr⟩ | ⟨c₁, hrun, hdisk, hfail, hnr⟩
          | ⟨m₁, hrun, hdisk, hoff, hready⟩
      · rw [hrun]
        rw [hrest] at hnr
        refine Or.inl ⟨c₁, rfl, hdisk, fun _ hr => hnr ?_⟩
        rw [hrest] at hr
        exact hr.mono (by omega)
      · rw [hrun]
        rw [hrest] at hnr
        refine Or.inr (Or.inl ⟨_, c₁, rfl, hdisk, hfail, fun hr => hnr ?_⟩)
        rw [hrest] at hr
        exact hr.mono (by omega)
      rw [hrest] at hrun hoff hready
      rw [hrun]
      simp only
      have hready₁ (n : Nat) (hr : c.machine.Ready
          (n + (c.machine.disk.file.drop c.machine.offset).length + 2)) :
          m₁.Ready n := by
        rw [hrest] at hr
        exact hready n (hr.mono (by omega))
      by_cases h0 : ((rest.take walRecordHeaderSize).length == 0) = true
      · rw [if_pos h0]
        refine loop_ends ?_ hdisk (fun _ => rfl) hready₁
        simp only [hrest, Replaying.scan, if_pos h0]
        rfl
      rw [if_neg h0]
      by_cases hmax : (q.state.lastSequence == 0xffffffffffffffff) = true
      · rw [if_pos hmax]
        refine loop_ends ?_ hdisk (fun _ => rfl) hready₁
        simp only [hrest, Replaying.scan, if_neg h0, Replaying.turn,
          if_pos hmax]
      rw [if_neg hmax]
      by_cases hshort : (rest.take walRecordHeaderSize).length
          < walRecordHeaderSize
      · rw [if_pos hshort]
        refine loop_ends ?_ hdisk (fun _ => rfl) hready₁
        simp only [hrest, Replaying.scan, if_neg h0, Replaying.turn,
          if_neg hmax, if_pos hshort]
      rw [if_neg hshort]
      cases hhead : walRecordHeaderDecode (rest.take walRecordHeaderSize)
          (q.state.lastSequence + 1) with
      | error e =>
          refine loop_ends ?_ hdisk (fun _ => rfl) hready₁
          simp only [hrest, Replaying.scan, if_neg h0, Replaying.turn,
            if_neg hmax, if_neg hshort, hhead]
      | ok fields =>
          simp only [Prog.bind_run]
          have hlen : (rest.take walRecordHeaderSize).length
              = walRecordHeaderSize := by
            have := List.length_take_le walRecordHeaderSize rest
            omega
          have hseg : m₁.disk.file.drop m₁.offset
              = rest.drop walRecordHeaderSize := by
            rw [hdisk, hoff, hlen, ← hrest, List.drop_drop]
          generalize hpay : (rest.drop walRecordHeaderSize).take
            fields.payloadLength.toNat = payload
          have htotal : walRecordHeaderSize + payload.length
              ≤ rest.length := by
            rw [← hpay, List.length_take, List.length_drop]
            rw [List.length_take] at hlen
            omega
          -- The scan so far, for whatever the payload turns out to be.
          have hscan := Replaying.scan.eq_1 q.turn rest
          simp only [if_neg h0, Replaying.turn, if_neg hmax, if_neg hshort,
            hhead, hpay] at hscan
          rcases readExact_cases fields.payloadLength.toNat
              { c with machine := m₁ } with
            ⟨c₂, hrun₂, hdisk₂, hnr⟩ | ⟨c₂, hrun₂, hdisk₂, hfail, hnr⟩
              | ⟨m₂, hrun₂, hdisk₂, hoff₂, hready₂⟩
          · simp only [hseg, hpay] at hrun₂ hnr
            rw [hrun₂]
            refine Or.inl ⟨c₂, rfl, hdisk₂.trans hdisk, fun _ hr => hnr ?_⟩
            rw [hrest] at hr
            exact hready _ (hr.mono (by omega))
          · simp only [hseg, hpay] at hrun₂ hnr
            rw [hrun₂]
            refine Or.inr (Or.inl ⟨_, c₂, rfl, hdisk₂.trans hdisk, hfail,
              fun hr => hnr ?_⟩)
            rw [hrest] at hr
            exact hready _ (hr.mono (by omega))
          simp only [hseg, hpay] at hrun₂ hoff₂ hready₂
          rw [hrun₂]
          simp only
          have hdisk' : m₂.disk = c.machine.disk := hdisk₂.trans hdisk
          have hready' (n : Nat) (hr : c.machine.Ready
              (n + (walRecordHeaderSize + payload.length) + 2)) :
              m₂.Ready n :=
            hready₂ n (hready _ (hr.mono (by omega)))
          have hends (n : Nat) (hr : c.machine.Ready
              (n + (c.machine.disk.file.drop c.machine.offset).length + 2)) :
              m₂.Ready n := by
            rw [hrest] at hr
            exact hready' n (hr.mono (by omega))
          by_cases htorn : payload.length < fields.payloadLength.toNat
          · rw [if_pos htorn] at hscan ⊢
            exact loop_ends (hrest ▸ hscan) hdisk' (fun _ => rfl) hends
          rw [if_neg htorn] at hscan ⊢
          cases hdec : walRecordDecode
              (rest.take walRecordHeaderSize ++ payload)
              (q.state.lastSequence + 1) with
          | error e =>
              simp only [hdec] at hscan
              exact loop_ends (hrest ▸ hscan) hdisk' (fun _ => rfl) hends
          | ok decoded =>
              obtain ⟨record, consumed⟩ := decoded
              simp only [hdec] at hscan ⊢
              by_cases hover : q.report.validBytes > 0x7fffffffffffffff
                  - (walRecordHeaderSize + payload.length)
              · rw [if_pos hover] at hscan ⊢
                exact loop_ends (hrest ▸ hscan) hdisk'
                  (fun hne => absurd rfl hne) hends
              rw [if_neg hover] at hscan ⊢
              cases happly : applyRecord q.state q.index record
                  (rest.take walRecordHeaderSize ++ payload) with
              | error e =>
                  simp only [happly] at hscan ⊢
                  exact loop_ends (hrest ▸ hscan) hdisk' (fun _ => rfl) hends
              | ok next =>
                  obtain ⟨state, index⟩ := next
                  simp only [happly] at hscan ⊢
                  refine loop_goes_on (hrest ▸ hscan) rfl ?_
                    (hrest ▸ htotal) ?_ ?_ ?_ ?_ (ih _ _)
                  · unfold walRecordHeaderSize
                    omega
                  · exact hdisk'
                  · rw [hoff₂, hoff, hlen, Nat.add_assoc]
                  · rfl
                  · exact hready'

end Loop

end Faultline
